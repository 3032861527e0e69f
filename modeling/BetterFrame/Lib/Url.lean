import Mathlib
import BetterFrame.Lib.Text

/-!
# Paths of URLs

The parts of the URL standard that paths go through: UTF-8, percent-encoding, dot segments, and the
parsing of a reference against a base `http://host/`. References that bring a scheme or a host of
their own are left to a parameter. `parse_encode` says that an encoded path without dot segments is
parsed as itself.
-/

namespace Url

open Text

/-! ### UTF-8 -/

/-- The bytes of a character. -/
def utf8 (c : Char) : List Nat :=
  let n := c.toNat
  if n < 0x80 then [n]
  else if n < 0x800 then [0xc0 + n / 64, 0x80 + n % 64]
  else if n < 0x10000 then [0xe0 + n / 4096, 0x80 + n / 64 % 64, 0x80 + n % 64]
  else [0xf0 + n / 262144, 0x80 + n / 4096 % 64, 0x80 + n / 64 % 64, 0x80 + n % 64]

/-- The character of a code that needs at least the length of the sequence it came in. -/
def scalar (least n : Nat) : Option Char := if least ≤ n ∧ n.isValidChar then some (Char.ofNat n) else none

/-- A continuation byte of UTF-8. -/
def isTail (b : Nat) : Bool := 0x80 ≤ b && b < 0xc0

/-- What a sequence of bytes stands for, if it is UTF-8. -/
def ofUtf8 : List Nat → Option (List Char)
  | [] => some []
  | a :: bs =>
    if a < 0x80 then (ofUtf8 bs).map (Char.ofNat a :: ·)
    else if a < 0xc0 then none
    else
      match bs with
      | [] => none
      | b :: bs =>
        if !isTail b then none
        else if a < 0xe0 then do return (← scalar 0x80 ((a - 0xc0) * 64 + (b - 0x80))) :: (← ofUtf8 bs)
        else
          match bs with
          | [] => none
          | c :: bs =>
            if !isTail c then none
            else if a < 0xf0 then
              do return (← scalar 0x800 ((a - 0xe0) * 4096 + (b - 0x80) * 64 + (c - 0x80))) :: (← ofUtf8 bs)
            else
              match bs with
              | [] => none
              | d :: bs =>
                if !isTail d || 0xf8 ≤ a then none
                else
                  do return (← scalar 0x10000 ((a - 0xf0) * 262144 + (b - 0x80) * 4096 + (c - 0x80) *
                    64 + (d - 0x80))) :: (← ofUtf8 bs)

theorem scalar_toNat {least : Nat} {c : Char} (h : least ≤ c.toNat) : scalar least c.toNat = some c := by
  have hv : c.toNat.isValidChar := c.valid
  rw [scalar, if_pos ⟨h, hv⟩, Char.ofNat_toNat]

theorem ofUtf8_utf8 (c : Char) (bs : List Nat) : ofUtf8 (utf8 c ++ bs) = (ofUtf8 bs).map (c :: ·) := by
  have hlt : c.toNat < 0x110000 := by
    have hv : c.toNat.isValidChar := c.valid
    simp only [Nat.isValidChar] at hv
    omega
  by_cases h1 : c.toNat < 0x80
  · simp only [utf8, h1, if_true, List.cons_append, List.nil_append]
    rw [ofUtf8.eq_def]
    simp only [h1, if_true, Char.ofNat_toNat]
  by_cases h2 : c.toNat < 0x800
  · have hn : (0xc0 + c.toNat / 64 - 0xc0) * 64 + (0x80 + c.toNat % 64 - 0x80) = c.toNat := by omega
    have ht : isTail (0x80 + c.toNat % 64) = true := by simp [isTail]; omega
    simp only [utf8, h1, h2, if_true, if_false, List.cons_append, List.nil_append]
    rw [ofUtf8.eq_def]
    simp only [ht, hn]
    rw [if_neg (by omega), if_neg (by omega), if_neg (by simp), if_pos (by omega), scalar_toNat (by omega)]
    cases ofUtf8 bs <;> rfl
  by_cases h3 : c.toNat < 0x10000
  · have hn : (0xe0 + c.toNat / 4096 - 0xe0) * 4096 + (0x80 + c.toNat / 64 % 64 - 0x80) * 64 +
        (0x80 + c.toNat % 64 - 0x80) = c.toNat := by omega
    have ht : isTail (0x80 + c.toNat / 64 % 64) = true := by simp [isTail]; omega
    have ht' : isTail (0x80 + c.toNat % 64) = true := by simp [isTail]; omega
    simp only [utf8, h1, h2, h3, if_true, if_false, List.cons_append, List.nil_append]
    rw [ofUtf8.eq_def]
    simp only [ht, ht', hn]
    rw [if_neg (by omega), if_neg (by omega), if_neg (by simp), if_neg (by omega), if_neg (by simp),
      if_pos (by omega), scalar_toNat (by omega)]
    cases ofUtf8 bs <;> rfl
  · have hn : (0xf0 + c.toNat / 262144 - 0xf0) * 262144 + (0x80 + c.toNat / 4096 % 64 - 0x80) * 4096 +
        (0x80 + c.toNat / 64 % 64 - 0x80) * 64 + (0x80 + c.toNat % 64 - 0x80) = c.toNat := by omega
    have ht : isTail (0x80 + c.toNat / 4096 % 64) = true := by simp [isTail]; omega
    have ht' : isTail (0x80 + c.toNat / 64 % 64) = true := by simp [isTail]; omega
    have ht'' : isTail (0x80 + c.toNat % 64) = true := by simp [isTail]; omega
    simp only [utf8, h1, h2, h3, if_false, List.cons_append, List.nil_append]
    rw [ofUtf8.eq_def]
    simp only [ht, ht', ht'', hn]
    rw [if_neg (by omega), if_neg (by omega), if_neg (by simp), if_neg (by omega), if_neg (by simp),
      if_neg (by omega), if_neg (by simp; omega), scalar_toNat (by omega)]
    cases ofUtf8 bs <;> rfl

theorem ofUtf8_flatMap (cs : List Char) : ofUtf8 (cs.flatMap utf8) = some cs := by
  induction cs with
  | nil => rfl
  | cons c cs ih => rw [List.flatMap_cons, ofUtf8_utf8, ih]; rfl

/-! ### Percent-encoding -/

def upperDigit (n : Nat) : Char := "0123456789ABCDEF".toList.getD n '0'

/-- A byte as a percent escape. -/
def percent (b : Nat) : List Char := ['%', upperDigit (b / 16), upperDigit (b % 16)]

/-- The path percent-encode set. -/
def inPathSet (c : Char) : Bool :=
  c.toNat ≤ 0x20 || 0x7e < c.toNat || c = '"' || c = '#' || c = '<' || c = '>' || c = '?' ||
    c = '^' || c = '`' ||
    c = '\x7b' || c = '\x7d'

/-- The special-query percent-encode set. -/
def inQuerySet (c : Char) : Bool :=
  c.toNat ≤ 0x20 || 0x7e < c.toNat || c = '"' || c = '#' || c = '<' || c = '>' || c = '\''

/-- A character of the set becomes the escapes of its bytes. -/
def encodeChar (set : Char → Bool) (c : Char) : List Char := if set c then (utf8 c).flatMap percent else [c]

def encode (set : Char → Bool) (cs : List Char) : List Char := cs.flatMap (encodeChar set)

/-- The bytes that a text with percent-encoded parts stands for, unless one of these is malformed. -/
def bytes : List Char → Option (List Nat)
  | [] => some []
  | c :: cs =>
    if c = '%' then
      match cs with
      | a :: b :: cs =>
        match hexVal a, hexVal b with
        | some x, some y => (bytes cs).map ((16 * x + y) :: ·)
        | _, _ => none
      | _ => none
    else (bytes cs).map (utf8 c ++ ·)

/-- A character that is not encoded stands for its own bytes: these neither complete a sequence nor
leave one open. -/
def decodeURIComponent (cs : List Char) : Option (List Char) := (bytes cs).bind ofUtf8

/-- A character that is not encoded is decoded by itself. -/
theorem decode_cons {c : Char} (h : c ≠ '%') (cs : List Char) :
    decodeURIComponent (c :: cs) = (decodeURIComponent cs).map (c :: ·) := by
  rw [decodeURIComponent, decodeURIComponent, bytes.eq_def]
  simp only [h, if_false, Option.bind_map]
  cases bytes cs with
  | none => rfl
  | some bs => exact ofUtf8_utf8 c bs

theorem hexVal_upperDigit : ∀ n < 16, hexVal (upperDigit n) = some n := by decide

theorem utf8_lt {c : Char} {b : Nat} (h : b ∈ utf8 c) : b < 256 := by
  have hlt : c.toNat < 0x110000 := by
    have hv : c.toNat.isValidChar := c.valid
    simp only [Nat.isValidChar] at hv
    omega
  simp only [utf8] at h
  split at h
  · simp at h
    omega
  split at h
  · simp at h
    omega
  split at h <;> (simp at h; omega)

theorem bytes_percent {b : Nat} (h : b < 256) (cs : List Char) :
    bytes (percent b ++ cs) = (bytes cs).map (b :: ·) := by
  have hhi := hexVal_upperDigit (b / 16) (by omega)
  have hlo := hexVal_upperDigit (b % 16) (by omega)
  have hsum : 16 * (b / 16) + b % 16 = b := Nat.div_add_mod _ _
  rw [percent, List.cons_append, bytes.eq_def]
  simp [hhi, hlo, hsum]

theorem bytes_percents {bs : List Nat} (h : ∀ b ∈ bs, b < 256) (cs : List Char) :
    bytes (bs.flatMap percent ++ cs) = (bytes cs).map (bs ++ ·) := by
  induction bs with
  | nil => cases hc : bytes cs <;> simp [hc]
  | cons b bs ih =>
    rw [List.flatMap_cons, List.append_assoc, bytes_percent (h b (by simp)), ih fun b' hb =>
      h b' (by simp [hb])]
    cases bytes cs <;> rfl

theorem bytes_encode {set : Char → Bool} {cs : List Char} (h : '%' ∉ cs) :
    bytes (encode set cs) = some (cs.flatMap utf8) := by
  induction cs with
  | nil => rfl
  | cons c cs ih =>
    simp only [List.mem_cons, not_or] at h
    rw [encode, List.flatMap_cons, ← encode, List.flatMap_cons, encodeChar]
    split
    · rw [bytes_percents fun b => utf8_lt, ih h.2]
      rfl
    · rw [List.singleton_append, bytes.eq_def]
      simp [Ne.symm h.1, ih h.2]

/-- What is encoded decodes to what it was, whatever was encoded of it. -/
theorem decode_encode {set : Char → Bool} {cs : List Char} (h : '%' ∉ cs) :
    decodeURIComponent (encode set cs) = some cs := by
  rw [decodeURIComponent, bytes_encode h, Option.bind_some, ofUtf8_flatMap]

theorem encode_eq_self {set : Char → Bool} {cs : List Char} (h : ∀ c ∈ cs, set c = false) :
    encode set cs = cs := by
  induction cs with
  | nil => rfl
  | cons c cs ih =>
    rw [encode, List.flatMap_cons, ← encode, ih fun d hd => h d (by simp [hd]), encodeChar, h c (by simp)]
    rfl

theorem decode_eq_self {cs : List Char} (h : '%' ∉ cs) : decodeURIComponent cs = some cs := by
  have hnone : encode (fun _ => false) cs = cs := encode_eq_self fun _ _ => rfl
  calc decodeURIComponent cs = decodeURIComponent (encode (fun _ => false) cs) := by rw [hnone]
    _ = some cs := decode_encode h

/-- What a text consists of after it is encoded. -/
theorem encode_chars {P : Char → Prop} {set : Char → Bool} {cs : List Char}
    (hself : ∀ c ∈ cs, set c = false → P c)
    (hpercent : P '%') (hdigit : ∀ n < 16, P (upperDigit n)) : ∀ d ∈ encode set cs, P d := by
  intro d hd
  obtain ⟨c, hc, hd⟩ := List.mem_flatMap.1 hd
  rw [encodeChar] at hd
  split at hd
  · obtain ⟨b, hb, hd⟩ := List.mem_flatMap.1 hd
    have hlt := utf8_lt hb
    simp only [percent, List.mem_cons, List.not_mem_nil, or_false] at hd
    rcases hd with rfl | rfl | rfl
    · exact hpercent
    · exact hdigit _ (by omega)
    · exact hdigit _ (by omega)
  · next hset =>
    obtain rfl : d = c := by simpa using hd
    exact hself d hc (by simpa using hset)

theorem inPathSet_encode (cs : List Char) : ∀ d ∈ encode inPathSet cs, inPathSet d = false :=
  encode_chars (fun _ _ h => h) (by decide) (by decide)

theorem encodeChar_ne_nil {set : Char → Bool} {c : Char} : encodeChar set c ≠ [] := by
  rw [encodeChar]
  split
  · simp only [utf8]
    split
    · simp [percent]
    · split
      · simp [percent]
      · split <;> simp [percent]
  · simp

theorem encode_eq_nil {set : Char → Bool} {cs : List Char} : encode set cs = [] ↔ cs = [] := by
  cases cs <;> simp [encode, encodeChar_ne_nil]

/-! ### Segments -/

def isSlash (c : Char) : Bool := c = '/' || c = '\\'

@[simp] theorem isSlash_slash : isSlash '/' = true := rfl

/-- The parts of a path between its slashes. -/
def segments : List Char → List (List Char)
  | [] => [[]]
  | c :: cs =>
    if isSlash c then [] :: segments cs
    else
      match segments cs with
      | [] => [[c]]
      | s :: ss => (c :: s) :: ss

def lower (cs : List Char) : List Char := cs.map Char.toLower

theorem toLower_cases (c : Char) : c.toLower = c ∨ 65 ≤ c.toNat ∧ c.toNat ≤ 90 ∧
    c.toLower.toNat = c.toNat + 32 := by
  simp only [Char.toLower]
  split
  · next h =>
    have hlo : 65 ≤ c.toNat := UInt32.le_iff_toNat_le.1 h.1
    have hhi : c.toNat ≤ 90 := UInt32.le_iff_toNat_le.1 h.2
    refine .inr ⟨hlo, hhi, ?_⟩
    show (c.val + 32).toNat = c.val.toNat + 32
    rw [UInt32.toNat_add]
    simp
    omega
  · exact .inl rfl

theorem isSlash_toLower (c : Char) : isSlash c.toLower = isSlash c := by
  rcases toLower_cases c with hc | ⟨hlo, hhi, hc⟩
  · rw [hc]
  · have hne : ∀ d : Char, d.toNat < 65 → c ≠ d ∧ c.toLower ≠ d := by
      intro d hd
      constructor <;> (rintro rfl; omega)
    have hne' : ∀ d : Char, 90 < d.toNat ∧ d.toNat < 97 → c ≠ d ∧ c.toLower ≠ d := by
      intro d hd
      constructor <;> (rintro rfl; omega)
    simp [isSlash, hne '/' (by decide), hne' '\\' (by decide)]

/-- A dot in one of its spellings. -/
def dots : List (List Char) := [".".toList, "%2e".toList, "%2E".toList]

/-- A `.`, escaped or not. -/
def isSingleDot (s : List Char) : Bool := dots.any fun a => s = a

/-- A `..`, escaped or not. -/
def isDoubleDot (s : List Char) : Bool := dots.any fun a => dots.any fun b => s = a ++ b

/-- The path after its segments, each added to the path before it. A dot segment at the end leaves
an empty one. -/
def walk (path : List (List Char)) : List (List Char) → List (List Char)
  | [] => path
  | [s] =>
    if isDoubleDot s then path.dropLast ++ [[]]
    else if isSingleDot s then path ++ [[]]
    else path ++ [s]
  | s :: ss => walk (if isDoubleDot s then path.dropLast else if isSingleDot s then path else path ++ [s]) ss

/-- A path from its segments. -/
def join (path : List (List Char)) : List Char := path.flatMap ('/' :: ·)

@[simp] theorem join_nil : join [] = [] := rfl

@[simp] theorem join_cons (s : List Char) (ss : List (List Char)) :
    join (s :: ss) = '/' :: (s ++ join ss) := by simp [join]

@[simp] theorem join_append (ss ts : List (List Char)) : join (ss ++ ts) = join ss ++ join ts := by
  simp [join]

theorem join_head (ss : List (List Char)) : ∀ c ∈ (join ss).head?, c = '/' := by
  cases ss <;> simp

theorem segments_cons {s : List Char} (h : ∀ c ∈ s, isSlash c = false) {r : List Char}
    (hr : ∀ c ∈ r.head?, isSlash c) :
    segments (s ++ r) = s :: (if r = [] then [] else segments r.tail) := by
  induction s with
  | nil =>
    cases r with
    | nil => rfl
    | cons c cs => simp [segments, hr c (by simp)]
  | cons c s ih =>
    rw [List.cons_append, segments, h c (by simp), ih fun d hd => h d (by simp [hd])]
    simp

/-- The segments of a path that goes on after those given. -/
theorem segments_join_append {ss : List (List Char)} (hne : ss ≠ [])
    (h : ∀ s ∈ ss, ∀ c ∈ s, isSlash c = false) {r : List Char} (hr : ∀ c ∈ r.head?, isSlash c) :
    segments (join ss ++ r).tail = ss ++ if r = [] then [] else segments r.tail := by
  induction ss with
  | nil => exact absurd rfl hne
  | cons s ss ih =>
    have hs : ∀ c ∈ s, isSlash c = false := h s (by simp)
    rw [join_cons, List.cons_append, List.tail_cons, List.append_assoc]
    by_cases hss : ss = []
    · subst hss
      rw [join_nil, List.nil_append, segments_cons hs hr]
      rfl
    · have hhead : ∀ c ∈ (join ss ++ r).head?, isSlash c := by
        obtain ⟨t, ts, rfl⟩ := List.exists_cons_of_ne_nil hss
        simp [isSlash]
      have hnil : join ss ++ r ≠ [] := by
        obtain ⟨t, ts, rfl⟩ := List.exists_cons_of_ne_nil hss
        simp
      rw [segments_cons hs hhead, if_neg hnil, ih hss fun t ht => h t (by simp [ht])]
      rfl

theorem segments_join {ss : List (List Char)} (hne : ss ≠ []) (h : ∀ s ∈ ss, ∀ c ∈ s, isSlash c = false) :
    segments (join ss).tail = ss := by
  simpa using segments_join_append hne h (r := []) (by simp)

theorem segments_ne_nil (cs : List Char) : segments cs ≠ [] := by
  cases cs with
  | nil => simp [segments]
  | cons c cs =>
    rw [segments]
    split
    · simp
    · split <;> simp

/-- The characters of the segments are those of the path, without the slashes. -/
theorem mem_segments {cs s : List Char} (hs : s ∈ segments cs) : ∀ c ∈ s, c ∈ cs ∧ isSlash c = false := by
  induction cs generalizing s with
  | nil =>
    obtain rfl : s = [] := by simpa [segments] using hs
    simp
  | cons c cs ih =>
    rw [segments] at hs
    split at hs
    · rcases List.mem_cons.1 hs with rfl | hs
      · simp
      · exact fun d hd => ⟨List.mem_cons_of_mem _ (ih hs d hd).1, (ih hs d hd).2⟩
    · next hc =>
      split at hs
      · next hnil => exact absurd hnil (segments_ne_nil cs)
      · next t ts hseg =>
        rcases List.mem_cons.1 hs with rfl | hs
        · intro d hd
          rcases List.mem_cons.1 hd with rfl | hd
          · exact ⟨by simp, by simpa using hc⟩
          · exact ⟨List.mem_cons_of_mem _ (ih (hseg ▸ List.mem_cons_self ..) d hd).1,
              (ih (hseg ▸ List.mem_cons_self ..) d hd).2⟩
        · have hmem : s ∈ segments cs := hseg ▸ List.mem_cons_of_mem _ hs
          exact fun d hd => ⟨List.mem_cons_of_mem _ (ih hmem d hd).1, (ih hmem d hd).2⟩

theorem lower_join (ss : List (List Char)) : lower (join ss) = join (ss.map lower) := by
  induction ss with
  | nil => rfl
  | cons s ss ih =>
    rw [List.map_cons, join_cons, join_cons, ← ih]
    simp [lower]

theorem walk_eq_append {path ss : List (List Char)}
    (h : ∀ s ∈ ss, isSingleDot s = false ∧ isDoubleDot s = false) :
    walk path ss = path ++ ss := by
  fun_induction walk path ss with
  | case1 path => simp
  | case2 path s hd => simp [(h s (by simp)).2] at hd
  | case3 path s hd hs => simp [(h s (by simp)).1] at hs
  | case4 path s hd hs => rfl
  | case5 path s ss hss ih =>
    have hs := h s (by simp)
    rw [ih fun t ht => h t (by simp [ht])]
    simp [hs.1, hs.2]

theorem walk_ne_nil {path ss : List (List Char)} (h : ss ≠ []) : walk path ss ≠ [] := by
  fun_induction walk path ss with
  | case1 path => exact absurd rfl h
  | case2 path s hd => simp
  | case3 path s hd hs => simp
  | case4 path s hd hs => simp
  | case5 path s ss hss ih => exact ih (by simpa using hss)

theorem mem_walk {path ss : List (List Char)} {s : List Char} (h : s ∈ walk path ss) :
    s ∈ path ∨ s = [] ∨ s ∈ ss ∧ isSingleDot s = false ∧ isDoubleDot s = false := by
  fun_induction walk path ss with
  | case1 path => exact .inl h
  | case2 path t hd =>
    rcases List.mem_append.1 h with h | h
    · exact .inl (List.dropLast_subset _ h)
    · exact .inr (.inl (by simpa using h))
  | case3 path t hd hs =>
    rcases List.mem_append.1 h with h | h
    · exact .inl h
    · exact .inr (.inl (by simpa using h))
  | case4 path t hd hs =>
    rcases List.mem_append.1 h with h | h
    · exact .inl h
    · obtain rfl : s = t := by simpa using h
      exact .inr (.inr ⟨by simp, by simpa using hs, by simpa using hd⟩)
  | case5 path t ss hss ih =>
    rcases ih h with h | h | ⟨hmem, hdots⟩
    · split at h
      · exact .inl (List.dropLast_subset _ h)
      · next hd =>
        split at h
        · exact .inl h
        · next hs =>
          rcases List.mem_append.1 h with h | h
          · exact .inl h
          · obtain rfl : s = t := by simpa using h
            exact .inr (.inr ⟨by simp, by simpa using hs, by simpa using hd⟩)
    · exact .inr (.inl h)
    · exact .inr (.inr ⟨by simp [hmem], hdots⟩)

/-- A change of the segments that leaves dots alone. -/
theorem walk_map {f : List Char → List Char} (hnil : f [] = []) {path ss : List (List Char)}
    (h : ∀ s ∈ ss, isSingleDot (f s) = isSingleDot s ∧ isDoubleDot (f s) = isDoubleDot s) :
    walk (path.map f) (ss.map f) = (walk path ss).map f := by
  fun_induction walk path ss with
  | case1 path => rfl
  | case2 path s hd => simp [walk, (h s (by simp)).2, hd, hnil]
  | case3 path s hd hs => simp [walk, h s (by simp), hd, hs, hnil]
  | case4 path s hd hs => simp [walk, h s (by simp), hd, hs]
  | case5 path s ss hss ih =>
    obtain ⟨t, ss, rfl⟩ := List.exists_cons_of_ne_nil (by simpa using hss : ss ≠ [])
    rw [← ih fun u hu => h u (by simp [hu]), List.map_cons, List.map_cons, walk, (h s (by simp)).1,
      (h s (by simp)).2]
    · congr 1
      split
      · simp
      · split <;> simp
    · simp

theorem isSlash_encode {s : List Char} (h : ∀ c ∈ s, isSlash c = false) :
    ∀ c ∈ encode inPathSet s, isSlash c = false :=
  encode_chars (fun c hc _ => h c hc) (by decide) (by decide)

theorem encode_join {set : Char → Bool} (h : set '/' = false) (ss : List (List Char)) :
    encode set (join ss) = join (ss.map (encode set)) := by
  induction ss with
  | nil => rfl
  | cons s ss ih =>
    rw [List.map_cons, join_cons, join_cons, ← ih]
    simp [encode, encodeChar, h]

/-- Encoding neither makes a dot segment nor hides one. -/
theorem dots_encode {s : List Char} (h : '%' ∉ s) :
    isSingleDot (encode inPathSet s) = isSingleDot s ∧ isDoubleDot (encode inPathSet s) = isDoubleDot s := by
  have hdecode : decodeURIComponent (encode inPathSet s) = some s := decode_encode h
  have hone : ∀ a ∈ dots, decodeURIComponent a = some ['.'] := by decide
  have htwo : ∀ a ∈ dots, ∀ b ∈ dots, decodeURIComponent (a ++ b) = some ['.', '.'] := by decide
  have hself : decodeURIComponent s = some s := decode_eq_self h
  constructor
  · rw [Bool.eq_iff_iff]
    simp only [isSingleDot, List.any_eq_true, decide_eq_true_eq]
    constructor
    · rintro ⟨a, ha, he⟩
      obtain rfl : s = ['.'] := Option.some.inj (hdecode.symm.trans (he ▸ hone a ha))
      exact ⟨['.'], by decide, rfl⟩
    · rintro ⟨a, ha, rfl⟩
      have hs := Option.some.inj (hself.symm.trans (hone s ha))
      exact ⟨['.'], by decide, by rw [hs]; rfl⟩
  · rw [Bool.eq_iff_iff]
    simp only [isDoubleDot, List.any_eq_true, decide_eq_true_eq]
    constructor
    · rintro ⟨a, ha, b, hb, he⟩
      obtain rfl : s = ['.', '.'] := Option.some.inj (hdecode.symm.trans (he ▸ htwo a ha b hb))
      exact ⟨['.'], by decide, ['.'], by decide, rfl⟩
    · rintro ⟨a, ha, b, hb, he⟩
      obtain rfl : s = ['.', '.'] := Option.some.inj (hself.symm.trans (he ▸ htwo a ha b hb))
      exact ⟨['.'], by decide, ['.'], by decide, rfl⟩

/-! ### Runs of slashes -/

/-- `replace(/\/+/g, "/")` -/
def collapse : List Char → List Char
  | [] => []
  | c :: cs => if c = '/' ∧ cs.head? = some '/' then collapse cs else c :: collapse cs

/-- The segments without the empty ones, but for one at the end. -/
def squeeze : List (List Char) → List (List Char)
  | [] => []
  | [s] => [s]
  | s :: ss => if s = [] then squeeze ss else s :: squeeze ss

theorem collapse_append {s : List Char} (h : ∀ c ∈ s, isSlash c = false) (r : List Char) :
    collapse (s ++ r) = s ++ collapse r := by
  induction s with
  | nil => rfl
  | cons c s ih =>
    have hc : c ≠ '/' := by
      rintro rfl
      simpa using h '/' (by simp)
    rw [List.cons_append, collapse, if_neg (by simp [hc]), ih fun d hd => h d (by simp [hd]),
      List.cons_append]

theorem collapse_join {ss : List (List Char)} (h : ∀ s ∈ ss, ∀ c ∈ s, isSlash c = false) :
    collapse (join ss) = join (squeeze ss) := by
  fun_induction squeeze ss with
  | case1 => rfl
  | case2 s =>
    have hs : ∀ c ∈ s, isSlash c = false := h s (by simp)
    have hhead : ¬ s.head? = some '/' := fun he => by simpa using hs '/' (List.mem_of_mem_head? he)
    rw [join_cons, join_nil, List.append_nil, collapse, if_neg (by simp [hhead])]
    simpa [collapse] using collapse_append hs []
  | case3 ss hss ih =>
    obtain ⟨t, ts, rfl⟩ := List.exists_cons_of_ne_nil (by simpa using hss : ss ≠ [])
    rw [← ih fun u hu => h u (by simp [hu]), join_cons, List.nil_append, collapse, if_pos (by simp)]
  | case4 s ss hss hs ih =>
    have hplain : ∀ c ∈ s, isSlash c = false := h s (by simp)
    obtain ⟨c, cs, rfl⟩ := List.exists_cons_of_ne_nil hs
    have hc : c ≠ '/' := by
      rintro rfl
      simpa using hplain '/' (by simp)
    rw [join_cons, join_cons, ← ih fun u hu => h u (by simp [hu]), collapse, if_neg (by simp [hc]),
      collapse_append hplain]

theorem squeeze_ne_nil {ss : List (List Char)} (h : ss ≠ []) : squeeze ss ≠ [] := by
  fun_induction squeeze ss with
  | case1 => exact absurd rfl h
  | case2 s => simp
  | case3 ss hss ih => exact ih (by simpa using hss)
  | case4 s ss hss hs ih => simp

theorem squeeze_subset (ss : List (List Char)) : squeeze ss ⊆ ss := by
  fun_induction squeeze ss with
  | case1 => simp
  | case2 s => simp
  | case3 ss hss ih => exact fun s hs => by simp [ih hs]
  | case4 s ss hss hs ih => exact List.cons_subset_cons s ih

theorem squeeze_map {f : List Char → List Char} (h : ∀ s, f s = [] ↔ s = []) (ss : List (List Char)) :
    squeeze (ss.map f) = (squeeze ss).map f := by
  fun_induction squeeze ss with
  | case1 => rfl
  | case2 s => rfl
  | case3 ss hss ih =>
    obtain ⟨t, ts, rfl⟩ := List.exists_cons_of_ne_nil (by simpa using hss : ss ≠ [])
    rw [← ih, List.map_cons, List.map_cons, squeeze, if_pos ((h []).2 rfl)]
    simp
  | case4 s ss hss hs ih =>
    obtain ⟨t, ts, rfl⟩ := List.exists_cons_of_ne_nil (by simpa using hss : ss ≠ [])
    rw [List.map_cons (l := squeeze (t :: ts)), ← ih, List.map_cons, List.map_cons, squeeze,
      if_neg (by simpa [h] using hs)]
    simp

/-- No segment is empty, but perhaps the last. -/
def Tight (ss : List (List Char)) : Prop := ∀ s ∈ ss.dropLast, s ≠ []

theorem tight_squeeze (ss : List (List Char)) : Tight (squeeze ss) := by
  fun_induction squeeze ss with
  | case1 => simp [Tight]
  | case2 s => simp [Tight]
  | case3 ss hss ih => exact ih
  | case4 s ss hss hs ih =>
    have hne := squeeze_ne_nil (by simpa using hss : ss ≠ [])
    rw [Tight, List.dropLast_cons_of_ne_nil hne]
    exact List.forall_mem_cons.2 ⟨hs, ih⟩

theorem Tight.squeeze {ss : List (List Char)} (h : Tight ss) : squeeze ss = ss := by
  fun_induction Url.squeeze ss with
  | case1 => rfl
  | case2 s => rfl
  | case3 ss hss ih =>
    rw [Tight, List.dropLast_cons_of_ne_nil (by simpa using hss)] at h
    exact absurd rfl (h [] (by simp))
  | case4 s ss hss hs ih =>
    rw [Tight, List.dropLast_cons_of_ne_nil (by simpa using hss)] at h
    rw [ih fun t ht => h t (by simp [ht])]

/-! ### References -/

/-- A path and a query. -/
structure Location where
  pathname : List Char
  query : Option (List Char)
deriving DecidableEq

def Location.search (url : Location) : List Char :=
  match url.query with
  | none | some [] => []
  | some query => '?' :: query

/-- A C0 control or a space. -/
def isBlank (c : Char) : Bool := c.toNat ≤ 0x20

def isTabOrNewline (c : Char) : Bool := c.toNat = 9 || c.toNat = 10 || c.toNat = 13

/-- The input without what the parser drops before it starts. -/
def strip (input : List Char) : List Char :=
  (((input.dropWhile isBlank).reverse).dropWhile isBlank).reverse.filter (!isTabOrNewline ·)

def isAlpha (c : Char) : Bool := ('a' ≤ c && c ≤ 'z') || ('A' ≤ c && c ≤ 'Z')

/-- The input starts with a scheme. -/
def hasScheme (input : List Char) : Bool :=
  match input with
  | [] => false
  | c :: cs =>
    isAlpha c && (cs.dropWhile fun d => isAlpha d || isDigit d || d = '+' || d = '-' || d = '.').head? =
      some ':'

/-- The rest of a reference that names a path at the base's host, after the slash that it may begin with. -/
def relative (input : List Char) : Location where
  pathname := join (walk [] ((segments (input.takeWhile fun c => c ≠ '?' && c ≠ '#')).map (encode inPathSet)))
  query :=
    match input.dropWhile fun c => c ≠ '?' && c ≠ '#' with
    | '?' :: query => some (encode inQuerySet (query.takeWhile (· ≠ '#')))
    | _ => none

/-- `new URL(input, "http://host/")`, where `absolute` parses what has a scheme or a host of its
own, if it can. -/
def parse (absolute : List Char → Option Location) (input : List Char) : Option Location :=
  match strip input with
  | [] => some (relative [])
  | c :: cs =>
    if isSlash c then
      if cs.head?.any isSlash then absolute (c :: cs) else some (relative cs)
    else if hasScheme (c :: cs) then absolute (c :: cs)
    else some (relative (c :: cs))

/-! ### Normalising a path -/

/-- A path without its dot segments. -/
def removeDots (path : List Char) : List Char :=
  match path with
  | [] => []
  | c :: cs => if isSlash c then join (walk [] (segments cs)) else c :: cs

/-- The steps that bring a path into its normal form. -/
inductive Normalise where
  | decode
  | dots
  | slashes

def Normalise.apply (path : List Char) : Normalise → Option (List Char)
  | .decode => decodeURIComponent path
  | .dots => some (removeDots path)
  | .slashes => some (collapse path)

/-- The operations one after another. -/
def normalise (path : List Char) : List Normalise → Option (List Char)
  | [] => some path
  | op :: ops => (op.apply path).bind fun path => normalise path ops

/-- Segments of a path that has neither dot segments nor runs of slashes. -/
structure Settled (ss : List (List Char)) : Prop where
  ne_nil : ss ≠ []
  plain : ∀ s ∈ ss, ∀ c ∈ s, isSlash c = false
  undotted : ∀ s ∈ ss, isSingleDot s = false ∧ isDoubleDot s = false
  tight : Tight ss

namespace Settled

variable {ss : List (List Char)}

theorem exists_join (h : Settled ss) : ∃ cs, join ss = '/' :: cs ∧ segments cs = ss := by
  have hseg := segments_join h.ne_nil h.plain
  obtain ⟨s, ts, rfl⟩ := List.exists_cons_of_ne_nil h.ne_nil
  exact ⟨s ++ join ts, join_cons s ts, by simpa using hseg⟩

theorem walk (h : Settled ss) : walk [] ss = ss := walk_eq_append h.undotted

theorem removeDots (h : Settled ss) : removeDots (join ss) = join ss := by
  obtain ⟨cs, hjoin, hseg⟩ := h.exists_join
  rw [hjoin, Url.removeDots, if_pos isSlash_slash, hseg, h.walk, ← hjoin]

theorem collapse (h : Settled ss) : collapse (join ss) = join ss := by
  rw [collapse_join h.plain, h.tight.squeeze]

/-- What comes first in the path is not a second slash. -/
theorem head (h : Settled ss) : ∀ c ∈ (join ss).tail.head?, isSlash c = false := by
  obtain ⟨s, ts, rfl⟩ := List.exists_cons_of_ne_nil h.ne_nil
  cases s with
  | nil =>
    cases ts with
    | nil => simp
    | cons t ts => exact absurd rfl (h.tight [] (by simp))
  | cons c s => simpa using h.plain (c :: s) (by simp) c (by simp)

theorem encode (h : Settled ss) (hp : ∀ s ∈ ss, '%' ∉ s) : Settled (ss.map (encode inPathSet)) where
  ne_nil := by simpa using h.ne_nil
  plain := by
    rintro _ ht
    obtain ⟨s, hs, rfl⟩ := List.mem_map.1 ht
    exact isSlash_encode (h.plain s hs)
  undotted := by
    rintro _ ht
    obtain ⟨s, hs, rfl⟩ := List.mem_map.1 ht
    have heq := dots_encode (hp s hs)
    rw [heq.1, heq.2]
    exact h.undotted s hs
  tight := by
    intro t ht
    rw [← List.map_dropLast] at ht
    obtain ⟨s, hs, rfl⟩ := List.mem_map.1 ht
    exact fun hnil => h.tight s hs (encode_eq_nil.1 hnil)

theorem join_percent (hp : ∀ s ∈ ss, '%' ∉ s) : '%' ∉ join ss := by
  intro hmem
  obtain ⟨s, hs, hc⟩ := List.mem_flatMap.1 hmem
  exact hp s hs (by simpa using hc)

/-- Normalising an encoded path over and over leaves it as it is or gives the path itself. -/
theorem normalise (h : Settled ss) (hp : ∀ s ∈ ss, '%' ∉ s) {ops : List Normalise} {path path' : List Char}
    (hpath : path = join (ss.map (Url.encode inPathSet)) ∨ path = join ss)
    (hn : normalise path ops = some path') :
    path' = join (ss.map (Url.encode inPathSet)) ∨ path' = join ss := by
  have hdecoded : decodeURIComponent (join ss) = some (join ss) := decode_eq_self (join_percent hp)
  have hencoded : decodeURIComponent (join (ss.map (Url.encode inPathSet))) = some (join ss) := by
    rw [← encode_join (by decide)]
    exact decode_encode (join_percent hp)
  have hs := h.encode hp
  induction ops generalizing path with
  | nil =>
    obtain rfl : path = path' := Option.some.inj hn
    exact hpath
  | cons op ops ih =>
    obtain ⟨next, hnext, hn⟩ := Option.bind_eq_some_iff.1 hn
    refine ih ?_ hn
    cases op with
    | decode =>
      refine .inr (Option.some.inj (hnext.symm.trans ?_))
      rcases hpath with rfl | rfl
      · exact hencoded
      · exact hdecoded
    | dots =>
      obtain rfl : Url.removeDots path = next := Option.some.inj hnext
      rcases hpath with rfl | rfl
      · exact .inl hs.removeDots
      · exact .inr h.removeDots
    | slashes =>
      obtain rfl : Url.collapse path = next := Option.some.inj hnext
      rcases hpath with rfl | rfl
      · exact .inl hs.collapse
      · exact .inr h.collapse

end Settled

/-! ### Parsing a path -/

/-- The path of a relative reference, from its segments. -/
theorem relative_pathname {input : List Char} (h : '%' ∉ input) :
    ∃ ss, (relative input).pathname = join (ss.map (encode inPathSet)) ∧ ss ≠ [] ∧
      ∀ s ∈ ss, (∀ c ∈ s, c ∈ input ∧ isSlash c = false) ∧ isSingleDot s = false ∧ isDoubleDot s = false := by
  have hsegs : ∀ s ∈ segments (input.takeWhile fun c => c ≠ '?' && c ≠ '#'), ∀ c ∈ s, c ∈ input ∧
      isSlash c = false :=
    fun s hs c hc => ⟨(List.takeWhile_prefix _).subset (mem_segments hs c hc).1, (mem_segments hs c hc).2⟩
  refine ⟨walk [] (segments (input.takeWhile fun c => c ≠ '?' && c ≠ '#')), ?_,
    walk_ne_nil (segments_ne_nil _), ?_⟩
  · rw [relative, ← walk_map rfl fun s hs => dots_encode fun hc => h (hsegs s hs _ hc).1, List.map_nil]
  · intro s hs
    rcases mem_walk hs with hs | rfl | ⟨hs, hdots⟩
    · exact absurd hs (by simp)
    · exact ⟨by simp, by decide, by decide⟩
    · exact ⟨hsegs s hs, hdots⟩

theorem strip_append {a : List Char} (hne : a ≠ []) (ha : ∀ c ∈ a, isBlank c = false) (r : List Char) :
    strip (a ++ r) = a ++ (r.reverse.dropWhile isBlank).reverse.filter (!isTabOrNewline ·) := by
  have htab : a.filter (!isTabOrNewline ·) = a := by
    refine List.filter_eq_self.2 fun c hc => ?_
    have hblank := ha c hc
    simp [isBlank, isTabOrNewline] at hblank ⊢
    omega
  have hdrop : (a ++ r).dropWhile isBlank = a ++ r := by
    obtain ⟨c, cs, rfl⟩ := List.exists_cons_of_ne_nil hne
    rw [List.cons_append, List.dropWhile_cons_of_neg (by simp [ha c (by simp)])]
  have hrev : a.reverse.dropWhile isBlank = a.reverse := by
    cases hr : a.reverse with
    | nil => rfl
    | cons c cs =>
      rw [List.dropWhile_cons_of_neg (by simp [ha c (List.mem_reverse.1 (hr ▸ List.mem_cons_self ..))])]
  have hend : (r.reverse ++ a.reverse).dropWhile isBlank = r.reverse.dropWhile isBlank ++ a.reverse := by
    rw [List.dropWhile_append]
    split
    · next hnil => rw [List.isEmpty_iff.1 hnil, hrev, List.nil_append]
    · rfl
  rw [strip, hdrop, List.reverse_append, hend, List.reverse_append, List.reverse_reverse,
    List.filter_append, htab]

/-- A reference that begins with one slash names a path; spaces at its end do not count. -/
theorem parse_rooted {absolute : List Char → Option Location} {cs : List Char}
    (hslash : ∀ c ∈ cs.head?, isSlash c = false)
    (htab : ∀ c ∈ cs, isTabOrNewline c = false) : ∃ cs', cs' <+: cs ∧
    parse absolute ('/' :: cs) = some (relative cs') := by
  have hstrip := strip_append (a := ['/']) (by simp) (by simp [isBlank]) cs
  obtain ⟨cs', hcs'⟩ : ∃ cs', cs' = (cs.reverse.dropWhile isBlank).reverse := ⟨_, rfl⟩
  have hpre : cs' <+: cs := by
    rw [hcs', ← List.reverse_suffix, List.reverse_reverse]
    exact List.dropWhile_suffix _
  have hfilter : cs'.filter (!isTabOrNewline ·) = cs' :=
    List.filter_eq_self.2 fun c hc => by simpa using htab c (hpre.subset hc)
  have hhead : cs'.head?.any isSlash = false := by
    cases cs' with
    | nil => rfl
    | cons c t =>
      obtain ⟨u, rfl⟩ := hpre
      simpa using hslash c (by simp)
  refine ⟨cs', hpre, ?_⟩
  rw [← hcs', hfilter] at hstrip
  rw [List.singleton_append, List.singleton_append] at hstrip
  simp [parse, hstrip, hhead]

/-- An encoded path is parsed as itself, with whatever query behind it. -/
theorem parse_encode {absolute : List Char → Option Location} {ss : List (List Char)} (h : Settled ss)
    (hp : ∀ s ∈ ss, '%' ∉ s) {query : List Char} (hquery : ∀ c ∈ query.head?, c = '?') :
    ∃ url, parse absolute (join (ss.map (encode inPathSet)) ++ query) = some url ∧
      url.pathname = join (ss.map (encode inPathSet)) := by
  have hs := h.encode hp
  obtain ⟨cs, hjoin, hseg⟩ := hs.exists_join
  have hset : ∀ c ∈ join (ss.map (encode inPathSet)), inPathSet c = false := by
    rw [← encode_join (by decide)]
    exact inPathSet_encode _
  have hblank : ∀ c ∈ join (ss.map (encode inPathSet)), isBlank c = false := by
    intro c hc
    have hc := hset c hc
    simp [inPathSet, isBlank] at hc ⊢
    omega
  have hencode : (ss.map (encode inPathSet)).map (encode inPathSet) = ss.map (encode inPathSet) := by
    rw [List.map_map]
    exact List.map_congr_left fun s _ => encode_eq_self (inPathSet_encode s)
  obtain ⟨rest, hrest⟩ : ∃ rest, rest = (query.reverse.dropWhile isBlank).reverse.filter
      (!isTabOrNewline ·) := ⟨_, rfl⟩
  have hhead : ∀ c ∈ rest.head?, c = '?' := by
    cases query with
    | nil => simp [hrest]
    | cons c query =>
      obtain rfl : c = '?' := hquery c (by simp)
      have hdrop : (query.reverse ++ ['?']).dropWhile isBlank = query.reverse.dropWhile isBlank ++ ['?'] := by
        rw [List.dropWhile_append]
        split
        · next hnil => rw [List.isEmpty_iff.1 hnil]; rfl
        · rfl
      rw [hrest, List.reverse_cons, hdrop, List.reverse_append, List.filter_append]
      simp [isTabOrNewline]
  have hstrip := strip_append (by simp [hjoin]) hblank query
  rw [← hrest, hjoin, List.cons_append] at hstrip
  have hnot : (cs ++ rest).head?.any isSlash = false := by
    have hfirst := hs.head
    rw [hjoin, List.tail_cons] at hfirst
    cases cs with
    | nil =>
      cases rest with
      | nil => rfl
      | cons c rest =>
        obtain rfl : c = '?' := hhead c (by simp)
        rfl
    | cons c cs => simpa using hfirst c (by simp)
  have htake : (cs ++ rest).takeWhile (fun c => c ≠ '?' && c ≠ '#') = cs := by
    have hcs : ∀ c ∈ cs, (decide (c ≠ '?') && decide (c ≠ '#')) = true := by
      intro c hc
      have hc := hset c (hjoin ▸ List.mem_cons_of_mem _ hc)
      simp only [ne_eq, Bool.and_eq_true, decide_eq_true_eq]
      constructor <;> (rintro rfl; exact absurd hc (by decide))
    rw [List.takeWhile_append_of_pos hcs]
    cases rest with
    | nil => simp
    | cons c rest =>
      obtain rfl : c = '?' := hhead c (by simp)
      simp
  refine ⟨relative (cs ++ rest), ?_, ?_⟩
  · rw [parse, hjoin, List.cons_append, hstrip, List.cons_append]
    simp only [isSlash_slash, hnot, if_true, Bool.false_eq_true, if_false]
  · rw [relative]
    show join (Url.walk [] ((segments ((cs ++ rest).takeWhile fun c => c ≠ '?' && c ≠ '#')).map
      (encode inPathSet))) = _
    rw [htake, hseg, hencode, hs.walk]

end Url
