import BetterFrame.Lib.Base64
import BetterFrame.Lib.Url

/-!
# Secrets (shared/secrets.ts, onvif_events.rs)

`encryptString`, `decryptString` and `encryptForCluster` of the server, and the client's
`decrypt_cluster`. The server writes bytes with Node's base64 in the alphabet of URLs and without
padding, and the client reads them with the strict decoder.
-/

namespace Secrets

open Base64 Text

/-- AES-256-GCM: the ciphertext and the tag of a plaintext, and the plaintext of what verifies. -/
structure Aes where
  encrypt (key iv plaintext : List UInt8) : List UInt8 × List UInt8
  decrypt (key iv ciphertext tag : List UInt8) : Option (List UInt8)

/-- `hkdf` derives 32 bytes from a key and a label; `malformed` is what a buffer that is no UTF-8 is
read as. -/
structure Platform where
  aes : Aes
  hkdf : List UInt8 → String → List UInt8
  malformed : List UInt8 → String
  serverKey : List UInt8

/-! ### Bytes of a text -/

def utf8 (text : String) : List UInt8 := (text.toList.flatMap Url.utf8).map .ofNat

def fromUtf8 (bytes : List UInt8) : Option String := (Url.ofUtf8 (bytes.map (·.toNat))).map .ofList

/-- `Buffer.toString("base64")`. -/
def toBase64 (bytes : List UInt8) : List Char :=
  encode standard bytes ++ List.replicate ((3 - bytes.length % 3) % 3) '='

/-- Base64 for URLs, without padding. -/
def b64u (bytes : List UInt8) : List Char :=
  let text := ((toBase64 bytes).map fun c => if c = '+' then '-' else c).map fun c =>
    if c = '/' then '_' else c
  (text.reverse.dropWhile (· = '=')).reverse

/-- Base64 for URLs, decoded leniently. -/
def b64uDecode (s : List Char) : List UInt8 :=
  let padded := s ++ List.replicate ((4 - s.length % 4) % 4) '='
  decodeLenient ((padded.map fun c => if c = '-' then '+' else c).map fun c => if c = '_' then '/' else c)

/-! ### The server -/

variable (P : Platform)

/-- The key for one purpose. -/
def deriveSubkey (info : String) : List UInt8 := P.hkdf P.serverKey ("betterframe." ++ info)

/-- The text of a ciphertext: version, nonce, tag and sealed bytes. -/
def sealed (iv : List UInt8) (sealing : List UInt8 × List UInt8) : String :=
  String.ofList ("v1".toList ++ '.' :: (b64u iv ++ '.' :: (b64u sealing.2 ++ '.' :: b64u sealing.1)))

/-- `iv` is drawn at random. -/
def encryptString (plaintext info : String) (iv : List UInt8) : String :=
  sealed iv (P.aes.encrypt (deriveSubkey P info) iv (utf8 plaintext))

/-- Opens a text of `encryptString`, or says why not. -/
def decryptString (ciphertext info : String) : Except String String :=
  match splitOn '.' ciphertext.toList with
  | [version, iv, tag, ct] =>
    if version ≠ "v1".toList then .error "ciphertext: bad format"
    else
      match P.aes.decrypt (deriveSubkey P info) (b64uDecode iv) (b64uDecode ct) (b64uDecode tag) with
      | none => .error "Unsupported state or unable to authenticate data"
      | some bytes => .ok ((fromUtf8 bytes).getD (P.malformed bytes))
  | _ => .error "ciphertext: bad format"

def generateClusterKey (random : List UInt8) : String := String.ofList (b64u random)

/-- Seals under a kiosk's key. -/
def encryptForCluster (plaintext clusterKeyB64u : String) (iv : List UInt8) : Except String String :=
  let key := b64uDecode clusterKeyB64u.toList
  if key.length ≠ 32 then .error "cluster key must be 32 bytes"
  else .ok (sealed iv (P.aes.encrypt key iv (utf8 plaintext)))

/-! ### The client -/

/-- Opens on the kiosk what the server sealed for it. -/
def decrypt_cluster (ciphertext cluster_key_b64u : String) : Option String :=
  match splitOn '.' ciphertext.toList with
  | [version, iv, tag, ct] =>
    if version ≠ "v1".toList then none
    else do
      let iv ← decodeStrict urlSafe iv
      let tag ← decodeStrict urlSafe tag
      let ct ← decodeStrict urlSafe ct
      let key_bytes ← decodeStrict urlSafe cluster_key_b64u.toList
      if key_bytes.length ≠ 32 ∨ iv.length ≠ 12 ∨ tag.length ≠ 16 then none
      else
        let plaintext ← P.aes.decrypt key_bytes iv ct tag
        fromUtf8 plaintext
  | _ => none

/-- AES-GCM: a tag has 16 bytes, and what is encrypted is decrypted. -/
structure Aes.Correct (aes : Aes) : Prop where
  tag : ∀ key iv plaintext, key.length = 32 → iv.length = 12 → (aes.encrypt key iv plaintext).2.length = 16
  decrypts : ∀ key iv plaintext, key.length = 32 → iv.length = 12 →
    aes.decrypt key iv (aes.encrypt key iv plaintext).1 (aes.encrypt key iv plaintext).2 = some plaintext

/-- What the documentation of the crypto library says of it. -/
structure Platform.Documented : Prop where
  aes : P.aes.Correct
  hkdf : ∀ key info, (P.hkdf key info).length = 32

/-! ### Bytes that are read back -/

variable {P} {bytes : List UInt8} {n : Nat}

theorem fromUtf8_utf8 (text : String) : fromUtf8 (utf8 text) = some text := by
  have hbytes : (utf8 text).map (·.toNat) = text.toList.flatMap Url.utf8 := by
    unfold utf8
    rw [List.map_map]
    refine (List.map_congr_left fun n hn => ?_).trans (List.map_id _)
    obtain ⟨c, -, hn⟩ := List.mem_flatMap.1 hn
    exact UInt8.toNat_ofNat_of_lt' (Url.utf8_lt hn)
  unfold fromUtf8
  rw [hbytes, Url.ofUtf8_flatMap, Option.map_some, String.ofList_toList]

/-- The two replacements take the standard alphabet to that of URLs. -/
theorem replace_digit : ∀ n < 64, (fun c => if c = '/' then '_' else c)
    ((fun c => if c = '+' then '-' else c) (digit standard n)) =
    digit urlSafe n := by decide +kernel

theorem restore_digit : ∀ n < 64, (fun c => if c = '_' then '/' else c)
    ((fun c => if c = '-' then '+' else c) (digit urlSafe n)) =
    digit standard n := by decide +kernel

theorem digit_urlSafe : ∀ n < 64, digit urlSafe n ≠ '=' ∧ digit urlSafe n ≠ '.' := by decide +kernel

/-- What a text of one alphabet becomes when its characters are replaced. -/
theorem replace_encode {f g : Char → Char} {alphabet other : List Char} (hpad : g (f '=') = '=')
    (h : ∀ n < 64, g (f (digit alphabet n)) = digit other n) (padding : Nat) :
    ((encode alphabet bytes ++ List.replicate padding '=').map f).map g = encode other bytes ++
    List.replicate padding '=' := by
  rw [List.map_append, List.map_append, List.map_replicate, List.map_replicate, hpad]
  have hdigits : ∀ n ∈ sextets bytes, ((g ∘ f) ∘ digit alphabet) n = digit other n :=
    fun n hn => h n (sextets_lt bytes n hn)
  unfold encode
  rw [List.map_map, List.map_map, List.map_congr_left hdigits]

theorem mem_encode {c : Char} (h : c ∈ encode urlSafe bytes) : c ≠ '=' ∧ c ≠ '.' := by
  obtain ⟨n, hn, rfl⟩ := List.mem_map.1 h
  exact digit_urlSafe n (sextets_lt bytes n hn)

/-- The server writes the groups in the alphabet of URLs. -/
theorem b64u_eq (bytes : List UInt8) : b64u bytes = encode urlSafe bytes := by
  have hdrop : ∀ padding, (List.replicate padding '=' ++ (encode urlSafe bytes).reverse).dropWhile (· = '=') =
      (encode urlSafe bytes).reverse := by
    intro padding
    rw [List.dropWhile_append_of_pos fun c hc => by simp [List.eq_of_mem_replicate hc]]
    cases hreverse : (encode urlSafe bytes).reverse with
    | nil => rfl
    | cons c cs =>
      have hc : c ∈ encode urlSafe bytes := List.mem_reverse.1 (hreverse ▸ List.mem_cons_self ..)
      exact List.dropWhile_cons_of_neg (by simp [(mem_encode hc).1])
  unfold b64u toBase64
  dsimp only
  rw [replace_encode rfl replace_digit, List.reverse_append, List.reverse_replicate, hdrop,
    List.reverse_reverse]

theorem b64uDecode_b64u (bytes : List UInt8) : b64uDecode (b64u bytes) = bytes := by
  unfold b64uDecode
  dsimp only
  rw [b64u_eq, replace_encode rfl restore_digit]
  exact lenient_encode bytes _ fun c hc => List.eq_of_mem_replicate hc

theorem decodeStrict_b64u (bytes : List UInt8) : decodeStrict urlSafe (b64u bytes) = some bytes := by
  rw [b64u_eq]
  exact strict_encode value_urlSafe bytes

/-- The parts of a sealed text. -/
theorem splitOn_sealed (iv : List UInt8) (sealing : List UInt8 × List UInt8) :
    splitOn '.' (sealed iv sealing).toList = ["v1".toList, b64u iv, b64u sealing.2, b64u sealing.1] := by
  have hplain : ∀ bytes, '.' ∉ b64u bytes := fun bytes h => (mem_encode (b64u_eq bytes ▸ h)).2 rfl
  unfold sealed
  rw [String.toList_ofList, splitOn_append (by decide), splitOn_append (hplain iv),
    splitOn_append (hplain sealing.2), splitOn_self (hplain sealing.1)]

theorem decryptString_sealed {iv : List UInt8} {sealing : List UInt8 × List UInt8} {info text : String}
    (h : P.aes.decrypt (deriveSubkey P info) iv sealing.1 sealing.2 = some (utf8 text)) :
    decryptString P (sealed iv sealing) info = .ok text := by
  unfold decryptString
  rw [splitOn_sealed]
  simp only [b64uDecode_b64u, h, ne_eq, not_true_eq_false, if_false, fromUtf8_utf8, Option.getD_some]

theorem decrypt_cluster_sealed {iv key : List UInt8} {sealing : List UInt8 × List UInt8}
    {text : String} (hkey : key.length = 32)
    (hiv : iv.length = 12) (htag : sealing.2.length = 16)
    (h : P.aes.decrypt key iv sealing.1 sealing.2 = some (utf8 text)) :
    decrypt_cluster P (sealed iv sealing) (generateClusterKey key) = some text := by
  unfold decrypt_cluster generateClusterKey
  rw [splitOn_sealed]
  simp only [String.toList_ofList, decodeStrict_b64u, ne_eq, not_true_eq_false, if_false,
    Option.bind_eq_bind, Option.bind_some, hkey, hiv, htag, or_self, h, fromUtf8_utf8]

/-- What the client decrypts. -/
theorem decrypt_cluster_some {ciphertext key text : String}
    (h : decrypt_cluster P ciphertext key = some text) :
    ∃ ivText tagText ctText iv tag ct key_bytes,
    splitOn '.' ciphertext.toList = ["v1".toList, ivText, tagText, ctText] ∧
      decodeStrict urlSafe ivText = some iv ∧ decodeStrict urlSafe tagText = some tag ∧
      decodeStrict urlSafe ctText = some ct ∧
      decodeStrict urlSafe key.toList = some key_bytes ∧ iv.length = 12 ∧ tag.length = 16 ∧
      key_bytes.length = 32 ∧
      ∃ plaintext, P.aes.decrypt key_bytes iv ct tag = some plaintext ∧ fromUtf8 plaintext = some text := by
  unfold decrypt_cluster at h
  split at h
  · next version ivText tagText ctText hsplit =>
    split at h
    · cases h
    · next hversion =>
      obtain rfl := not_not.1 hversion
      obtain ⟨iv, hiv, h⟩ := Option.bind_eq_some_iff.1 h
      obtain ⟨tag, htag, h⟩ := Option.bind_eq_some_iff.1 h
      obtain ⟨ct, hct, h⟩ := Option.bind_eq_some_iff.1 h
      obtain ⟨key_bytes, hkey, h⟩ := Option.bind_eq_some_iff.1 h
      split at h
      · cases h
      · next hlengths =>
        simp only [not_or, not_not] at hlengths
        obtain ⟨plaintext, hplaintext, h⟩ := Option.bind_eq_some_iff.1 h
        exact ⟨ivText, tagText, ctText, iv, tag, ct, key_bytes, hsplit, hiv, htag, hct, hkey,
          hlengths.2.1, hlengths.2.2, hlengths.1, plaintext, hplaintext, h⟩
  · cases h

/-- What the server encrypts for the kiosks the client decrypts, and what it encrypts for itself it
decrypts; the client decrypts nothing else than what verifies. -/
theorem secrets_readable (P : Platform) (hP : P.Documented) :
    (∀ random iv : List UInt8, random.length = 32 → iv.length = 12 → ∀ text,
      ∃ ciphertext, encryptForCluster P text (generateClusterKey random) iv = .ok ciphertext ∧
        decrypt_cluster P ciphertext (generateClusterKey random) = some text) ∧
    (∀ (iv : List UInt8) (text info : String), iv.length = 12 →
      decryptString P (encryptString P text info iv) info = .ok text) ∧
    ∀ ciphertext key text, decrypt_cluster P ciphertext key = some text →
      ∃ ivText tagText ctText iv tag ct key_bytes,
      splitOn '.' ciphertext.toList = ["v1".toList, ivText, tagText, ctText] ∧
        decodeStrict urlSafe ivText = some iv ∧ decodeStrict urlSafe tagText = some tag ∧
        decodeStrict urlSafe ctText = some ct ∧
        decodeStrict urlSafe key.toList = some key_bytes ∧ iv.length = 12 ∧ tag.length = 16 ∧
        key_bytes.length = 32 ∧
        ∃ plaintext, P.aes.decrypt key_bytes iv ct tag = some plaintext ∧ fromUtf8 plaintext = some text := by
  refine ⟨fun random iv hrandom hiv text => ?_, fun iv text info hiv => ?_, fun _ _ _ => decrypt_cluster_some⟩
  · have hkey : b64uDecode (generateClusterKey random).toList = random := by
      unfold generateClusterKey
      rw [String.toList_ofList, b64uDecode_b64u]
    refine ⟨sealed iv (P.aes.encrypt random iv (utf8 text)), ?_, ?_⟩
    · unfold encryptForCluster
      simp only [hkey, hrandom, ne_eq, not_true_eq_false, if_false]
    · exact decrypt_cluster_sealed hrandom hiv (hP.aes.tag _ _ _ hrandom hiv)
        (hP.aes.decrypts _ _ _ hrandom hiv)
  · exact decryptString_sealed (hP.aes.decrypts _ _ _ (hP.hkdf _ _) hiv)

/-! ### A known answer -/

def zeros (n : Nat) : List UInt8 := List.replicate n 0

def knownText : String := String.ofList (List.replicate 16 (Char.ofNat 0))

def knownCiphertext : List UInt8 :=
  [0xce, 0xa7, 0x40, 0x3d, 0x4d, 0x60, 0x6b, 0x6e, 0x07, 0x4e, 0xc5, 0xd3, 0xba, 0xf3, 0x9d, 0x18]

def knownTag : List UInt8 :=
  [0xd0, 0xd1, 0xc8, 0xa7, 0x99, 0x99, 0x6b, 0xf0, 0x26, 0x5b, 0x98, 0xb5, 0xd4, 0x8a, 0xb9, 0x19]

/-- A cipher with the published answer for the key, the initialisation vector and the plaintext of zeros. -/
def knownAnswer : Aes where
  encrypt key iv plaintext :=
    if key = zeros 32 ∧ iv = zeros 12 ∧ plaintext = zeros 16 then (knownCiphertext, knownTag)
    else (plaintext, zeros 16)
  decrypt key iv ciphertext tag :=
    if tag = knownTag then if key = zeros 32 ∧ iv = zeros 12 ∧ ciphertext = knownCiphertext then
      some (zeros 16) else none
    else if tag = zeros 16 then some ciphertext
    else none

theorem knownAnswer_correct : knownAnswer.Correct where
  tag key iv plaintext _ _ := by
    unfold knownAnswer
    dsimp only
    split <;> rfl
  decrypts key iv plaintext _ _ := by
    unfold knownAnswer
    dsimp only
    split
    · next h => simp [h]
    · exact (if_neg (show ¬ zeros 16 = knownTag by decide)).trans (if_pos rfl)

def onePlatform : Platform := ⟨knownAnswer, fun _ _ => zeros 32, fun _ => "", zeros 32⟩

theorem secrets_readable_known : ∃ ciphertext, encryptForCluster onePlatform knownText
    (generateClusterKey (zeros 32)) (zeros 12) = .ok ciphertext ∧
    decrypt_cluster onePlatform ciphertext (generateClusterKey (zeros 32)) = some knownText :=
  (secrets_readable onePlatform ⟨knownAnswer_correct, fun _ _ => rfl⟩).1 (zeros 32) (zeros 12) rfl
    rfl knownText

end Secrets
