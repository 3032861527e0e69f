import BetterFrame.Server.BundleAltered

/-!
# When the version of a bundle is a faithful ETag

The hashed copy is the bundle with a fingerprint for every secret, its members `version` blanked and
its members `__proto__` dropped (`version_eq`). A bundle that has neither name shares its version
with no other bundle (`version_faithful_iff`); one that has such a member keeps its version when the
member's value changes.
-/

namespace Bundle

variable {Iv : Type} {P : Platform Iv} {c c' : Call Iv} {g g' : Generated} {kioskId : String}

/-- Two secrets of `g` have two IVs, and no string that stands in `g` where a ciphertext could stand is a
ciphertext of `g` or a fingerprint of `g'`. -/
structure Undisturbed (P : Platform Iv) (c : Call Iv) (g g' : Generated) : Prop where
  fresh : ∀ s ∈ g.secrets, ∀ s' ∈ g.secrets, c.draws.iv s.site = c.draws.iv s'.site → s = s'
  unlike : ∀ t ∈ encryptedStrings (.obj g.content), ∀ s ∈ g.secrets, c.draws.ciphertext P s ≠ t
  apart : ∀ t ∈ encryptedStrings (.obj g.content), ∀ s ∈ g'.secrets, s.fingerprint P ≠ t

/-- One state gives one version, whatever the IVs, and a kiosk that has the version is told nothing new by the
bundle, so that it may be answered 304. -/
structure Faithful (c c' : Call Iv) (g g' : Generated) : Prop where
  stable : c.db = c'.db → c.clusterKey = c'.clusterKey → c.draws.nonce = c'.draws.nonce →
    g.version = g'.version
  truthful : g.version = g'.version → g.revealed = g'.revealed
  unhidden : bundleResponse (some g.etag) g' = (304, none) → g.revealed = g'.revealed

/-- The bundle has a member `k` at some depth, its own version apart. -/
def Generated.names (g : Generated) (k : String) : Bool := (Doc.obj g.content).names k

/-! ### Fingerprints -/

/-- The context ends at the first NUL. -/
theorem append_nul_inj {ctx ctx' s s' : String} (h : noNul ctx) (h' : noNul ctx')
    (heq : ctx ++ "\x00" ++ s = ctx' ++ "\x00" ++ s') :
    s = s' := by
  have hbehind (ctx s : String) (h : noNul ctx) :
      (ctx ++ "\x00" ++ s).toList.dropWhile (· ≠ '\x00') = '\x00' :: s.toList := by
    rw [noNul_iff] at h
    have hall : ∀ c ∈ ctx.toList, decide (c ≠ '\x00') = true := fun c hc => by
      rw [decide_eq_true_eq]
      rintro rfl
      exact h hc
    rw [String.toList_append, String.toList_append, List.append_assoc, List.dropWhile_append_of_pos hall]
    rfl
  have hlist := hbehind ctx s h
  rw [heq, hbehind ctx' s' h'] at hlist
  exact (String.toList_injective (List.cons.inj hlist).2).symm

theorem fingerprint_inj (hP : P.Lawful) {s s' : Secret} (h : noNul s.stableContext)
    (h' : noNul s'.stableContext)
    (heq : s.fingerprint P = s'.fingerprint P) : s.plaintext = s'.plaintext := by
  refine append_nul_inj h h' (hP.sha256_inj _ _ (String.toList_injective ?_))
  have hlist := congrArg String.toList heq
  simp only [Secret.fingerprint, stableSecretFingerprint, String.toList_append] at hlist
  exact List.append_cancel_left hlist

/-! ### The copy that is hashed -/

theorem isEncryptedKey_version : isEncryptedKey "version" = false := by decide

theorem LegibleMember.blank {good : Secret → Prop} {clear : String → Prop} {k : String} {v : Doc Secret}
    (h : LegibleMember good clear k v) (hv : Legible good clear v → Legible good clear (Bundle.blank v)) :
    LegibleMember good clear k (Bundle.blank v) := by
  cases v with
  | hole => exact h
  | str => exact h
  | arr xs =>
    have hv := hv h
    rw [blank_arr] at hv ⊢
    exact hv
  | obj ms =>
    have hv := hv h
    rw [blank_obj] at hv ⊢
    exact hv
  | _ => exact hv h

theorem Legible.blank {good : Secret → Prop} {clear : String → Prop} :
    ∀ {d : Doc Secret}, Legible good clear d → Legible good clear (Bundle.blank d) := by
  intro d
  induction d using Doc.parts with
  | leaf d harr hobj =>
    intro h
    cases d with
    | arr xs => exact absurd rfl (harr xs)
    | obj ms => exact absurd rfl (hobj ms)
    | _ => exact h
  | harr xs ih =>
    intro h
    rw [blank_arr, legible_arr]
    exact List.forall_mem_map.2 fun x hx => ih x hx (legible_arr.1 h x hx)
  | hobj ms ih =>
    intro h
    rw [blank_obj, legible_obj]
    refine List.forall_mem_map.2 fun m hm => ?_
    have hm := List.mem_of_mem_filter hm
    by_cases hk : m.1 = "version"
    · rw [if_pos hk, hk]
      intro henc
      exact absurd henc (by rw [isEncryptedKey_version]; exact Bool.false_ne_true)
    · rw [if_neg hk]
      exact (legible_obj.1 h m hm).blank (ih m hm)

/-- Every ciphertext is found with its fingerprint. -/
theorem stableEncryptedValue_ciphertext (hP : P.Lawful) {secrets : List Secret}
    (hfresh : ∀ s ∈ secrets, ∀ s' ∈ secrets, c.draws.iv s.site = c.draws.iv s'.site → s = s')
    {s : Secret} (hs : s ∈ secrets) :
    stableEncryptedValue P c.draws secrets (c.draws.ciphertext P s) = some (s.fingerprint P) := by
  unfold stableEncryptedValue
  have hmem : s ∈ secrets.eraseDups.reverse := List.mem_reverse.2 (List.mem_eraseDups.2 hs)
  cases hfound : secrets.eraseDups.reverse.find? fun s' =>
    c.draws.ciphertext P s' = c.draws.ciphertext P s with
  | none =>
    have hnone := List.find?_eq_none.1 hfound s hmem
    simp at hnone
  | some s' =>
    have hcipher : c.draws.ciphertext P s' = c.draws.ciphertext P s := by simpa using List.find?_some hfound
    have hs' : s' ∈ secrets := List.mem_eraseDups.1 (List.mem_reverse.1 (List.mem_of_find?_eq_some hfound))
    obtain rfl := hfresh s' hs' s hs (hP.iv_inj _ _ _ _ _ _ hcipher)
    rfl

theorem stableEncryptedValue_none {secrets : List Secret} {t : String}
    (h : ∀ s ∈ secrets, c.draws.ciphertext P s ≠ t) :
    stableEncryptedValue P c.draws secrets t = none := by
  rw [stableEncryptedValue, Option.map_eq_none_iff, List.find?_eq_none]
  intro s hs
  have hne := h s (List.mem_eraseDups.1 (List.mem_reverse.1 hs))
  simp [hne]

/-- The bundle that is made of a state. -/
theorem generateBundle_eq_some : generateBundle P c kioskId = some (some g) ↔
    ∃ b, assemble P c kioskId = some (some b) ∧ serialize P c.draws b = g := by
  unfold generateBundle
  rw [Option.map_eq_some_iff]
  constructor
  · rintro ⟨o, ho, hg⟩
    obtain ⟨b, rfl, rfl⟩ := Option.map_eq_some_iff.1 hg
    exact ⟨b, ho, rfl⟩
  · rintro ⟨b, hb, rfl⟩
    exact ⟨some b, hb, rfl⟩

/-- What is known of the places of a bundle's secrets and strings. -/
theorem legible_content (hg : generateBundle P c kioskId = some (some g)) :
    Legible (fun s => s ∈ g.secrets ∧ noNul s.stableContext) (· ∈ encryptedStrings (.obj g.content))
    (.obj g.content) := by
  obtain ⟨b, hb, rfl⟩ := generateBundle_eq_some.1 hg
  have hplaced : Legible (fun s => noNul s.stableContext) (fun _ => True) (.obj b.content) :=
    KioskBundle.placed (assemble_placed hb)
  exact hplaced.mono (fun s hs hnul => ⟨hs, hnul⟩) fun t ht _ => ht

/-- The copy of the bundle, with its own version left out. -/
def Generated.copy (P : Platform Iv) (g : Generated) : Json :=
  (blank (.obj g.content)).fill fun s => .str (s.fingerprint P)

theorem version_eq (hP : P.Lawful) (hg : generateBundle P c kioskId = some (some g))
    (hs : Undisturbed P c g g') :
    ∃ ms, g.copy P = .obj ms ∧ g.version = P.sha256 (Json.obj (ms ++ [("version", .str "")])).stringify := by
  have hlegible := legible_content hg
  have hget : ∀ s, s ∈ g.secrets ∧ noNul s.stableContext →
      stableEncryptedValue P c.draws g.secrets (c.draws.ciphertext P s) = some (s.fingerprint P) :=
    fun s h => stableEncryptedValue_ciphertext hP hs.fresh h.1
  have hclear : ∀ t ∈ encryptedStrings (.obj g.content), stableEncryptedValue P c.draws g.secrets t = none :=
    fun t ht => stableEncryptedValue_none (hs.unlike t ht)
  obtain ⟨b, -, rfl⟩ := generateBundle_eq_some.1 hg
  have hown : Legible (fun s => s ∈ (serialize P c.draws b).secrets ∧ noNul s.stableContext)
      (· ∈ encryptedStrings (.obj b.content)) (.obj (b.content ++ [("version", .str "")])) := by
    rw [legible_obj] at hlegible ⊢
    refine List.forall_mem_append.2 ⟨hlegible, List.forall_mem_singleton.2 fun henc => ?_⟩
    rw [isEncryptedKey_version] at henc
    exact absurd henc Bool.false_ne_true
  have hstable := stable_fill hget hclear _ hown
  have hsent : (Doc.obj (b.content ++ [("version", .str "")])).fill (fun s => .str (c.draws.ciphertext P s)) =
      .obj ((serialize P c.draws b).sent ++ [("version", .str "")]) := by
    rw [Doc.fill_obj, List.map_append]
    rfl
  rw [hsent, blank_obj, Doc.fill_obj, List.filter_append, List.map_append, List.map_append] at hstable
  refine ⟨_, by rw [Generated.copy, blank_obj, Doc.fill_obj], ?_⟩
  exact congrArg (fun j => P.sha256 (Json.stringify j)) hstable

theorem version_eq_iff (hP : P.Lawful) (hg : generateBundle P c kioskId = some (some g))
    (hg' : generateBundle P c' kioskId = some (some g')) (hs : Undisturbed P c g g')
    (hs' : Undisturbed P c' g' g) :
    g.version = g'.version ↔ g.copy P = g'.copy P := by
  obtain ⟨ms, hms, hversion⟩ := version_eq hP hg hs
  obtain ⟨ms', hms', hversion'⟩ := version_eq hP hg' hs'
  rw [hversion, hversion', hms, hms']
  constructor
  · intro h
    have hjson := Json.obj.inj (Json.stringify_injective (hP.sha256_inj _ _ h))
    rw [List.append_cancel_right hjson]
  · intro h
    rw [Json.obj.inj h]

/-- A bundle without hidden names shares its copy with no bundle that says something else. -/
theorem revealed_of_copy_eq (hP : P.Lawful) (hg : generateBundle P c kioskId = some (some g))
    (hg' : generateBundle P c' kioskId = some (some g')) (hs : Undisturbed P c g g')
    (hs' : Undisturbed P c' g' g)
    (hversion : g.names "version" = false) (hproto : g.names "__proto__" = false)
    (hproto' : g'.names "__proto__" = false)
    (h : g.copy P = g'.copy P) : g.revealed = g'.revealed := by
  have hplain : blank (.obj g.content) = .obj g.content := blank_of_unnamed hversion hproto
  rw [Generated.copy, Generated.copy, hplain] at h
  have hmap : (Doc.obj g.content).map Secret.plaintext = (blank (.obj g'.content)).map Secret.plaintext := by
    refine map_eq_of_fill_eq (fun a b ha hb hab => fingerprint_inj hP ha.2 hb.2 hab) ?_ ?_ _
      (legible_content hg)
      (legible_content hg').blank h
    · exact fun s t hsecret ht => hs'.apart t ht s hsecret.1
    · exact fun s t hsecret ht => hs.apart t ht s hsecret.1
  have hnames : (blank (.obj g'.content)).names "version" = false := by
    rw [← Doc.names_map (g := Secret.plaintext), ← hmap, Doc.names_map]
    exact hversion
  rw [names_blank hproto'] at hnames
  rw [blank_of_unnamed hnames hproto'] at hmap
  exact hmap

theorem etag_inj (h : bundleResponse (some g.etag) g' = (304, none)) : g.version = g'.version := by
  unfold bundleResponse at h
  split at h
  · next heq =>
    have hlist := congrArg String.toList (Option.some.inj heq)
    simp only [Generated.etag, String.toList_append] at hlist
    exact String.toList_injective (List.append_cancel_left (List.append_cancel_right hlist))
  · cases h

/-- One state gives one bundle, up to the IVs. -/
theorem assemble_nonce {db : Database} {clusterKey : Option String} {draws draws' : Draws Iv}
    (h : draws.nonce = draws'.nonce) :
    assemble P ⟨db, clusterKey, draws⟩ kioskId = assemble P ⟨db, clusterKey, draws'⟩ kioskId := by
  cases draws
  cases draws'
  cases h
  rfl

theorem stable_version (hP : P.Lawful) (hg : generateBundle P c kioskId = some (some g))
    (hg' : generateBundle P c' kioskId = some (some g')) (hs : Undisturbed P c g g')
    (hs' : Undisturbed P c' g' g)
    (hdb : c.db = c'.db) (hkey : c.clusterKey = c'.clusterKey) (hnonce : c.draws.nonce = c'.draws.nonce) :
    g.version = g'.version := by
  rw [version_eq_iff hP hg hg' hs hs']
  obtain ⟨b, hb, rfl⟩ := generateBundle_eq_some.1 hg
  obtain ⟨b', hb', rfl⟩ := generateBundle_eq_some.1 hg'
  obtain ⟨db, clusterKey, draws⟩ := c
  obtain ⟨db', clusterKey', draws'⟩ := c'
  obtain rfl : db = db' := hdb
  obtain rfl : clusterKey = clusterKey' := hkey
  rw [assemble_nonce hnonce, hb'] at hb
  obtain rfl := Option.some.inj (Option.some.inj hb)
  rfl

/-! ### The altered state -/

theorem generateBundle_altered (hg : generateBundle P c kioskId = some (some g)) :
    ∃ g', generateBundle P { c with db := c.db.altered } kioskId = some (some g') ∧
      Doc.obj g'.content = (Doc.obj g.content).altered := by
  obtain ⟨b, hb, rfl⟩ := generateBundle_eq_some.1 hg
  refine ⟨serialize P c.draws b.altered, generateBundle_eq_some.2 ⟨b.altered, ?_, rfl⟩,
    KioskBundle.altered_content⟩
  rw [assemble_altered, hb]
  rfl

/-- The version is a faithful ETag of a bundle exactly when the bundle has no member of a hidden
name. Against what is under `__proto__` in the other bundle alone, nothing helps. -/
theorem version_faithful_iff (hP : P.Lawful) (hg : generateBundle P c kioskId = some (some g))
    (hs : Undisturbed P c g g) :
    (∀ c' g', generateBundle P c' kioskId = some (some g') → Undisturbed P c g g' → Undisturbed P c' g' g →
        g'.names "__proto__" = g.names "__proto__" → Faithful c c' g g') ↔
      g.names "version" = false ∧ g.names "__proto__" = false := by
  constructor
  · intro h
    obtain ⟨g', hg', hcontent⟩ := generateBundle_altered hg
    have hsecrets : g'.secrets ⊆ g.secrets := by
      rw [Generated.secrets, hcontent]
      exact holes_altered
    have hstrings : encryptedStrings (.obj g'.content) ⊆ encryptedStrings (.obj g.content) := by
      rw [hcontent]
      exact encryptedStrings_altered
    have hself : Undisturbed P c g g' :=
      ⟨hs.fresh, hs.unlike, fun t ht s hsecret => hs.apart t ht s (hsecrets hsecret)⟩
    have hother : Undisturbed P { c with db := c.db.altered } g' g :=
      ⟨fun s hsecret s' hsecret' => hs.fresh s (hsecrets hsecret) s' (hsecrets hsecret'),
        fun t ht s hsecret => hs.unlike t (hstrings ht) s (hsecrets hsecret), fun t ht s hsecret =>
          hs.apart t (hstrings ht) s hsecret⟩
    have hnames : g'.names "__proto__" = g.names "__proto__" := by
      rw [Generated.names, hcontent]
      exact Doc.names_altered
    have hversion : g.version = g'.version := by
      rw [version_eq_iff hP hg hg' hself hother, Generated.copy, Generated.copy, hcontent, blank_altered]
    have hrevealed : g.revealed = g'.revealed := (h _ g' hg' hself hother hnames).truthful hversion
    have hsame : (g.revealed).altered = g.revealed := by
      rw [Generated.revealed, Generated.revealed, hcontent, Doc.altered_map] at hrevealed
      exact hrevealed.symm
    have hnot (k : String) (hk : hidden k = true) : g.names k = false := by
      rw [Generated.names, ← Doc.names_map (g := Secret.plaintext)]
      exact Doc.names_of_altered_eq hk hsame
    exact ⟨hnot "version" (by simp [hidden]), hnot "__proto__" (by simp [hidden])⟩
  · rintro ⟨hversion, hproto⟩ c' g' hg' hself hother hnames
    have htruthful (h : g.version = g'.version) : g.revealed = g'.revealed :=
      revealed_of_copy_eq hP hg hg' hself hother hversion hproto (hnames.trans hproto)
        ((version_eq_iff hP hg hg' hself hother).1 h)
    exact ⟨stable_version hP hg hg' hself hother, htruthful, fun h => htruthful (etag_inj h)⟩

/-! ### A kiosk with stored settings -/

/-- The hash as its preimage, the cipher as its IV and the plaintext. -/
def clear : Platform Char where
  sha256 := id
  decryptString := fun s _ => some s
  usableKey := fun key => key.length = 32
  encryptForCluster := fun iv s _ => String.ofList (iv :: s.toList)
  onvifCallbackToken := fun id nonce => id ++ "." ++ nonce
  parseUrl := fun _ => none
  decodeURIComponent := some
  localeLe := fun a b => a ≤ b

theorem clear_lawful : clear.Lawful where
  sha256_inj := fun _ _ h => h
  iv_inj := fun _ _ _ _ _ _ h => (List.cons.inj (String.ofList_injective h)).1

def lobbyKiosk (settings : Record) : Kiosk where
  name := "Lobby"
  capabilities := []
  encrypt_key_encrypted := none
  display_id := none
  operator_console_enabled := false
  operator_console_host := none
  operator_console_port := 8090
  operator_tools_json := none
  simple_vms_enabled := false
  simple_vms_storage_path := none
  simple_vms_settings_json := some (Json.obj settings).stringify

/-- A kiosk with one display without layouts, and with these SimpleVMS settings. -/
def lobby (settings : Record) : Call Char where
  db :=
    { getKioskById := fun _ => some (lobbyKiosk settings)
      listDisplaysForKiosk := fun _ => [⟨"d1", "Wall", true, 1920, 1080, 0, 0, none⟩]
      getDisplayById := fun _ => none
      layoutsForDisplayId := fun _ => []
      camerasForLayoutIds := fun _ => []
      operateLabelIds := fun _ => []
      camerasForLabelIds := fun _ => []
      listCameraDevices := []
      getAbleSignScreen := fun _ => none
      listEntities := []
      layoutCells := fun _ => []
      getEntityById := fun _ => none
      getCameraById := fun _ => none
      listCameraStreams := fun _ => []
      cameraLabelNames := fun _ => []
      listGpioBindings := fun _ => [] }
  clusterKey := none
  draws := ⟨fun _ => 'i', id⟩

def lobbyDisplay : BundleDisplay where
  id := "d1"
  name := "Wall"
  width_px := 1920
  height_px := 1080
  idle_timeout_seconds := 0
  sleep_timeout_seconds := 0
  default_layout_id := none
  layouts := []

def lobbyBundle (settings : Record) : KioskBundle where
  kiosk_id := "k1"
  kiosk_name := "Lobby"
  display := lobbyDisplay
  displays := [lobbyDisplay]
  cameras := []
  gpio_bindings := []
  operator_enabled := false
  operator_host := none
  operator_port := 8090
  operator_tools := []
  simple_vms_enabled := false
  simple_vms_storage_path := none
  simple_vms_settings := settings

theorem lobby_assembled {settings : Record} :
    assemble clear (lobby settings) "k1" = some (some (lobbyBundle settings)) := by
  have hparsed : parseJsonObject (some (Json.obj settings).stringify) = settings :=
    parseJsonObject_some (Json.parse_stringify _)
  unfold assemble
  dsimp only [lobby, lobbyKiosk]
  rw [hparsed]
  generalize hviewer : decide ("android-viewer" ∈ ([] : List String)) = viewer
  obtain rfl : viewer = false := hviewer.symm
  rfl

/-- The bundle of the kiosk. -/
def lobbyGenerated (settings : Record) : Generated := serialize clear (lobby settings).draws
  (lobbyBundle settings)

theorem lobby_generated {settings : Record} :
    generateBundle clear (lobby settings) "k1" = some (some (lobbyGenerated settings)) :=
  generateBundle_eq_some.2 ⟨_, lobby_assembled, rfl⟩

/-- Settings with a member `version`. -/
def lobbyVersion (v : String) : Record := [("version", .str v)]

theorem lobby_strings : ∀ v ∈ ["1", "2"], encryptedStrings
    (.obj (lobbyGenerated (lobbyVersion v)).content) = [] := by decide

theorem lobby_undisturbed {v v' : String} (hv : v ∈ ["1", "2"]) :
    Undisturbed clear (lobby (lobbyVersion v)) (lobbyGenerated (lobbyVersion v))
    (lobbyGenerated (lobbyVersion v')) where
  fresh := fun _ hs => absurd hs List.not_mem_nil
  unlike := fun _ ht => absurd (lobby_strings v hv ▸ ht) List.not_mem_nil
  apart := fun _ ht => absurd (lobby_strings v hv ▸ ht) List.not_mem_nil

theorem version_faithful_lobby : ¬ ∀ c' g', generateBundle clear c' "k1" = some (some g') →
    Undisturbed clear (lobby (lobbyVersion "1")) (lobbyGenerated (lobbyVersion "1")) g' →
    Undisturbed clear c' g' (lobbyGenerated (lobbyVersion "1")) →
    g'.names "__proto__" = (lobbyGenerated (lobbyVersion "1")).names "__proto__" →
    Faithful (lobby (lobbyVersion "1")) c' (lobbyGenerated (lobbyVersion "1")) g' := fun h =>
  absurd ((version_faithful_iff clear_lawful lobby_generated (lobby_undisturbed (by simp))).1 h).1 (by decide)

/-- The kiosk is answered 304 when its settings are other ones. -/
theorem settings_behind_304 : ∃ g g', generateBundle clear (lobby (lobbyVersion "1")) "k1" = some (some g) ∧
    generateBundle clear (lobby (lobbyVersion "2")) "k1" = some (some g') ∧ g.version = g'.version ∧
    bundleResponse (some g.etag) g' = (304, none) ∧ g.revealed ≠ g'.revealed := by
  have hversion : (lobbyGenerated (lobbyVersion "1")).version = (lobbyGenerated (lobbyVersion "2")).version :=
    (version_eq_iff clear_lawful lobby_generated lobby_generated (lobby_undisturbed (by simp))
      (lobby_undisturbed (by simp))).2 rfl
  refine ⟨_, _, lobby_generated, lobby_generated, hversion, ?_, fun h => ?_⟩
  · rw [bundleResponse, if_pos (by rw [Generated.etag, Generated.etag, hversion])]
  · simp [Generated.revealed, lobbyGenerated, lobbyVersion, serialize, lobbyBundle,
      KioskBundle.content, Doc.object, operatorConsoleDoc, record, Doc.ofJson] at h

end Bundle
