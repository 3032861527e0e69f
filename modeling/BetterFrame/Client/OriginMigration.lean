import BetterFrame.Lib.Crash
import BetterFrame.Lib.Json
import BetterFrame.Lib.Text
import Mathlib.Logic.Relation

/-!
# Migrating to a regional origin

`discover_server`, `recover_origin_migration` and `migrate_canonical_origin_with` of `server.rs`,
with the import of legacy state that every lookup of the state directory tries, at each operation on
a file. `migration_safe` says what survives crashes and failures.
-/

namespace OriginMigration

open Crash Text

/-! ### Origins -/

/-- A URL as the URL library parses it. `local_host` is `local_discovery_host`. -/
structure Url where
  scheme : String
  username : String
  password : Option String
  host : Option String
  local_host : Bool
  path : String
  query : Option String
  fragment : Option String
  /-- `origin().ascii_serialization()` -/
  origin : String

/-- `Url::parse`. -/
abbrev Parse := String → Option Url

def CANONICAL_SERVER_URL : String := "https://frame.betterportal.net"

variable (parse : Parse)

/-- The URL a discovery request goes to, for an origin that may carry one. -/
def discovery_probe (origin : String) : Except String Url :=
  match parse (trimWhitespace origin) with
  | none => .error "invalid server origin"
  | some url =>
    if url.username ≠ "" ∨ url.password.isSome ∨ url.query.isSome ∨ url.fragment.isSome ∨
      ¬ (url.path = "" ∨ url.path = "/") then
      .error "server must be an origin without credentials, path, query or fragment"
    else if url.scheme ≠ "https" ∧ ¬ (url.scheme = "http" ∧ url.local_host) then
      .error "remote discovery requires HTTPS; HTTP is supported only for local servers"
    else .ok { url with path := "/healthz" }

/-- Only the canonical server hands out regional origins. -/
def needs_regional_migration (origin : String) : Bool :=
  match discovery_probe parse origin with
  | .ok url => url.origin = CANONICAL_SERVER_URL
  | .error _ => false

/-! ### Files -/

/-- The identity of a paired device. -/
structure DeviceIdentity where
  demo : Bool
  version : Nat
  server_url : String
  kiosk_id : String
  kiosk_name : String
  kiosk_key : String
  cluster_key : Option String
  encrypt_key : Option String
  pairing_code : String
  polling_secret : Option String

/-- The identity's server must be an acceptable origin. -/
def validUrl (server_url : String) : Except String Unit :=
  match parse server_url with
  | none => .error "invalid identity server URL"
  | some origin =>
    if ¬ (origin.scheme = "http" ∨ origin.scheme = "https") ∨ origin.host = none then
      .error "invalid identity server URL" else .ok ()

/-- What makes a saved identity usable. -/
def DeviceIdentity.validate (identity : DeviceIdentity) : Except String Unit :=
  if identity.version ≠ 1 ∨ trimWhitespace identity.kiosk_id = "" ∨
    trimWhitespace identity.kiosk_key = "" then
    .error "invalid saved device identity"
  else do
    validUrl parse identity.server_url
    match identity.encrypt_key.or identity.cluster_key with
    | some key =>
      if trimWhitespace key = "" then .error "device identity is missing encryption material" else .ok ()
    | none => .error "device identity is missing encryption material"

/-- A pairing session that the server has begun. -/
structure PairInitiateResponse where
  allow_demo : Bool
  code : String
  expires_at : String
  expires_in_seconds : Option Nat
  poll_after_ms : Option Nat
  polling_secret : Option String

/-- The session that is waited for, and where it was begun. -/
structure Pending where
  origin : String
  session : PairInitiateResponse

/-- The files of the state directory. -/
inductive File where
  | identity
  | pairing
  | journal
  | server
  | other (name : String)
deriving DecidableEq

/-- The files of a state directory. `journal` is the target in `origin-migration.json`. -/
structure Disk where
  identity : Option DeviceIdentity
  pairing : Option Pending
  journal : Option String
  server : Option String
  other : String → Option String

/-- The file exists. -/
def Disk.has (d : Disk) : File → Bool
  | .identity => d.identity.isSome
  | .pairing => d.pairing.isSome
  | .journal => d.journal.isSome
  | .server => d.server.isSome
  | .other name => (d.other name).isSome

/-- `imported` is the marker of a complete import. `targets` are the targets of all journals so far,
`saved` the origins that `discover_server` has saved, `written` counts the journals that were written,
`missed` the operations of imports that failed. -/
structure World where
  disk : Disk
  legacy : Option Disk
  imported : Bool
  targets : List String
  saved : List String
  written : Nat
  missed : Nat

namespace World

def init (disk : Disk) (legacy : Option Disk) (imported : Bool) : World :=
  ⟨disk, legacy, imported, disk.journal.toList, [], 0, 0⟩

def setIdentity (identity : DeviceIdentity) (w : World) : World :=
  { w with disk := { w.disk with identity := some identity } }

def setPairing (pending : Pending) (w : World) : World :=
  { w with disk := { w.disk with pairing := some pending } }

def setServer (origin : String) (w : World) : World :=
  { w with disk := { w.disk with server := some origin } }

/-- A discovered origin written, and recorded as such. -/
def saveServer (origin : String) (w : World) : World :=
  { w.setServer origin with saved := origin :: w.saved }

def removeJournal (w : World) : World := { w with disk := { w.disk with journal := none } }

/-- A migration's journal written, and its target recorded. -/
def writeJournal (target : String) (w : World) : World :=
  { w with
    disk := { w.disk with journal := some target }
    targets := target :: w.targets
    written := w.written + 1 }

/-- One legacy file copied into the state directory. -/
def copyIn (legacy : Disk) (file : File) (w : World) : World :=
  { w with
    disk := match file with
      | .identity => { w.disk with identity := legacy.identity }
      | .pairing => { w.disk with pairing := legacy.pairing }
      | .journal => { w.disk with journal := legacy.journal }
      | .server => { w.disk with server := legacy.server }
      | .other name =>
        { w.disk with other := fun n => if n = name then legacy.other name else w.disk.other n }
    targets := match file with
      | .journal => legacy.journal.toList ++ w.targets
      | _ => w.targets }

/-- Counts an import operation or marker read that failed. -/
def miss (w : World) : World := { w with missed := w.missed + 1 }

/-- Nothing is left to import. -/
def Settled (w : World) : Prop := w.imported = true ∨ w.legacy = none

/-- The journal that a lookup finds. -/
def found (w : World) : Option String :=
  w.disk.journal.or (if w.imported then none else w.legacy.bind (·.journal))

end World

abbrev M := Prog String World

/-- An operation of an import, whose failure is counted. -/
def importStep (f : World → World) (error : String) : M Unit :=
  Prog.op ⟨fun w => (.ok (), f w), fun w => (.error error, w.miss), id⟩

/-- Copying, syncing and renaming count as one operation, which may fail. -/
def importFile (legacy : Disk) (file : File) : M Unit := do
  if legacy.has file && !(← Prog.get fun w => w.disk.has file) then
    importStep (·.copyIn legacy file) "copy failed"

/-- The legacy files, copied in the order of the source's list. -/
def importFiles (legacy : Disk) : List File → M Unit
  | [] => pure ()
  | file :: files => do
    importFile legacy file
    importFiles legacy files

def importedFiles : List File :=
  [.identity, .pairing, .journal, .other "kiosk.key", .server, .other "bundle.json",
    .other "cluster.key", .other "encrypt.key", .other "local.key"]

/-- A marker that cannot be read is none. -/
def readMarker : M Bool :=
  Prog.op ⟨fun w => (.ok w.imported, w), fun w => (.ok false, w.miss), id⟩

/-- The import of a legacy directory, once: its marker is written last. -/
def import_legacy_state : M Unit := do
  if ← readMarker then return ()
  match ← Prog.get (·.legacy) with
  | none => pure ()
  | some legacy =>
    importFiles legacy importedFiles
    importStep (fun w => w) "sync failed"
    importStep (fun w => { w with imported := true }) "marker failed"
    importStep (fun w => w) "sync failed"

/-- `state_dir`, whose import may fail. -/
def state_dir : M Unit := import_legacy_state.ignore

/-! ### Recovery -/

def liftExcept (r : Except String α) : M α :=
  match r with
  | .ok a => pure a
  | .error e => Prog.throw e

/-- Fails with the error unless the condition holds. -/
def require (cond : Bool) (error : String) : M Unit := if cond then pure () else Prog.throw error

/-- Reads a file that may be unreadable. -/
def readOr (f : World → Option α) (error : String) : M α := do
  match ← Prog.read f none with
  | some a => pure a
  | none => Prog.throw error

/-- The saved identity, read and validated. -/
def load_identity : M DeviceIdentity := do
  state_dir
  let identity ← readOr (·.disk.identity) "Unable to read saved device identity"
  liftExcept (identity.validate parse)
  return identity

/-- The origins that a migration to `target` replaces. -/
def allowed (target origin : String) : Bool := origin = target || needs_regional_migration parse origin

/-- The identity moved to the journal's target, if it may be. -/
def recoverIdentity (target : String) : M (Option DeviceIdentity) := do
  state_dir
  if (← Prog.get (·.disk.identity)).isSome then
    let identity ← load_identity parse
    require (allowed parse target identity.server_url) "Identity does not match origin migration"
    return some { identity with server_url := target }
  else return none

/-- The pending enrollment moved to the journal's target, if it may be. -/
def recoverPending (target : String) : M (Option Pending) := do
  state_dir
  if (← Prog.get (·.disk.pairing)).isSome then
    let pending ← readOr (·.disk.pairing) "Unable to read pending enrollment"
    require (allowed parse target pending.origin) "Pending enrollment does not match origin migration"
    return some { pending with origin := target }
  else return none

/-- A saved server origin must allow the journal's target. -/
def checkServer (target : String) : M Unit := do
  state_dir
  match ← Prog.read (·.disk.server) none with
  | some saved =>
    require (allowed parse target (trimWhitespace saved)) "Saved server does not match origin migration"
  | none => pure ()

def writeIdentity : Option DeviceIdentity → M Unit
  | some identity => do
    state_dir
    Prog.write (·.setIdentity identity) "Unable to save identity"
  | none => pure ()

def writePending : Option Pending → M Unit
  | some pending => Prog.write (·.setPairing pending) "Unable to save pending enrollment"
  | none => pure ()

def persist_server_origin (origin : String) : M Unit := do
  state_dir
  Prog.write (·.setServer origin) "Unable to save server origin"
  state_dir
  Prog.write (fun w => w) "Unable to save server origin"

/-- The journal is removed and its directory synced. -/
def removeJournal : M Unit := do
  Prog.write (·.removeJournal) "remove failed"
  state_dir
  Prog.write (fun w => w) "sync failed"

/-- Finishes a migration whose journal was left behind. -/
def recover_origin_migration : M Unit := do
  state_dir
  if (← Prog.get (·.disk.journal)).isSome then
    let target ← readOr (·.disk.journal) "Unable to read origin migration"
    let url ← liftExcept (discovery_probe parse target)
    require (url.scheme = "https") "Invalid migration target"
    -- All records are validated before any one of them is replaced.
    let identity ← recoverIdentity parse target
    let pending ← recoverPending parse target
    checkServer parse target
    writeIdentity identity
    writePending pending
    persist_server_origin target
    removeJournal

/-- `discovered` is what `discover(origin)` gives. -/
def migrate_canonical_origin_with (origin : String) (discovered : Except String String) : M String := do
  if needs_regional_migration parse origin then
    state_dir
    if (← Prog.get (·.disk.journal)).isSome then
      recover_origin_migration parse
      state_dir
      readOr (·.disk.server) "Unable to read server origin"
    else
      let destination ← liftExcept (discovered.bind (discovery_probe parse))
      require (destination.scheme = "https") "Regional migration requires HTTPS"
      if destination.origin = origin then return destination.origin
      state_dir
      Prog.write (·.writeJournal destination.origin) "Unable to save origin migration"
      recover_origin_migration parse
      return destination.origin
  else return origin

/-! ### Discovery -/

/-- An identity, a pending enrollment or a legacy key exists. -/
def is_paired : M Bool := do
  state_dir
  if (← Prog.get (·.disk.identity)).isSome then return true
  state_dir
  return (← Prog.get fun w => (w.disk.other "kiosk.key").isSome)

/-- The discovered origin saved and returned. -/
def save (origin : String) : M String := do
  state_dir
  Prog.write (·.saveServer origin) "Unable to save discovered server"
  return origin

/-- The first candidate that is found. -/
def saveFirst : List (Except String String) → M String
  | [] => Prog.throw "Could not find BetterFrame server"
  | .ok resolved :: _ => save resolved
  | .error _ :: rest => saveFirst rest

/-- `override` is what `discover(url)` gives where an override URL is set, `candidates` what it
gives for each of the origins that are tried in turn. -/
def discover_server (override : Option (Except String String)) (candidates : List (Except String String)) :
    M String := do
  recover_origin_migration parse
  state_dir
  if (← Prog.get (·.disk.identity)).isSome then
    return (← load_identity parse).server_url
  state_dir
  if (← Prog.get (·.disk.pairing)).isSome then
    return (← readOr (·.disk.pairing)
      "Unable to read saved pairing session; restore storage or reset locally").origin
  state_dir
  let saved := ((← Prog.read (·.disk.server) none).map trimWhitespace).filter (· ≠ "")
  if ← is_paired then
    match saved with
    | some saved => return saved
    | none => Prog.throw "Saved kiosk key has no server origin; restore storage or reset locally"
  else match override, saved with
    | some discovered, _ => save (← liftExcept discovered)
    | none, some saved => return saved
    | none, none => saveFirst candidates

/-- A run is of calls that may each be cut off. -/
inductive Attempt where
  | lookup
  | discover (override : Option (Except String String)) (candidates : List (Except String String))
  | recover
  | migrate (origin : String) (discovered : Except String String)

/-- One call with the failures of its operations. -/
def Attempt.exec (plan : List Fault) (w : World) : Attempt → World
  | .lookup => (state_dir w plan).world
  | .discover override candidates => (discover_server parse override candidates w plan).world
  | .recover => (recover_origin_migration parse w plan).world
  | .migrate origin discovered => (migrate_canonical_origin_with parse origin discovered w plan).world

def run (w : World) (attempts : List (Attempt × List Fault)) : World :=
  attempts.foldl (fun w a => a.1.exec parse a.2 w) w

/-! ### What calls keep -/

/-- A record that is there stays, and is one that was there or was to be imported, but for its origin. -/
def Carried (alike : α → α → Prop) (origin : α → String) (targets : List String)
    (before legacy after : Option α) : Prop :=
  (before.isSome → after.isSome) ∧ ∀ a ∈ after, ∃ b ∈ before.or legacy, alike a b ∧
    (origin a = origin b ∨ origin a ∈ targets)

/-- A saved origin stays, or gives way to one of `origins`. -/
def Replaced (origins : List String) (before legacy after : Option String) : Prop :=
  (before.isSome → after.isSome) ∧ ∀ a ∈ after, a ∈ before.or legacy ∨ a ∈ origins

/-- Equal but for the server. -/
def DeviceIdentity.Alike (a b : DeviceIdentity) : Prop := a = { b with server_url := a.server_url }

/-- Equal but for the origin. -/
def Pending.Alike (a b : Pending) : Prop := a = { b with origin := a.origin }

/-- What `is_paired` looks for. -/
def World.Enrolled (w : World) : Prop :=
  w.disk.identity.isSome ∨ w.disk.pairing.isSome ∨ (w.disk.other "kiosk.key").isSome

/-- A journal that is gone was removed after an import had been completed, unless one has failed. -/
def World.Retired (w : World) : Prop :=
  w.missed = 0 → w.targets ≠ [] → w.disk.journal = none → w.Settled

/-- No record disappears, only origins change, those of records to the target of a journal, that of
`server.url` also to one that is saved. -/
structure Tended (s t : World) : Prop where
  legacy : t.legacy = s.legacy
  targets : s.targets ⊆ t.targets
  saved : s.saved ⊆ t.saved
  identity : Carried DeviceIdentity.Alike (·.server_url) t.targets s.disk.identity
    (s.legacy.bind (·.identity)) t.disk.identity
  pairing : Carried Pending.Alike (·.origin) t.targets s.disk.pairing (s.legacy.bind (·.pairing))
    t.disk.pairing
  server : Replaced (t.targets ++ t.saved) s.disk.server (s.legacy.bind (·.server)) t.disk.server
  other : ∀ name, (s.disk.other name).isSome → t.disk.other name = s.disk.other name
  known : (∀ j ∈ s.disk.journal, j ∈ s.targets) → ∀ j ∈ t.disk.journal, j ∈ t.targets
  written : s.written ≤ t.written
  missed : s.missed ≤ t.missed
  settled : s.Settled → t.Settled
  retired : s.Retired → t.Retired

/-- A journal stays or goes, and comes back only if it is written, or is imported where something was
left to import or an import failed. -/
structure Moved (s t : World) : Prop extends Tended s t where
  journal : t.written = s.written → t.disk.journal = none ∨ t.disk.journal = s.disk.journal ∨
    (¬ s.Settled ∨ s.missed < t.missed) ∧ t.disk.journal = s.legacy.bind (·.journal)

section Carried

variable {α : Type} {alike : α → α → Prop} {origin : α → String} {targets targets' : List String}
  {before mid legacy after : Option α}

theorem Carried.refl (halike : ∀ a, alike a a) (targets : List String) (before legacy : Option α) :
    Carried alike origin targets before legacy before :=
  ⟨id, fun a ha => ⟨a, by rw [ha]; rfl, halike a, .inl rfl⟩⟩

theorem Carried.trans (halike : ∀ a b c, alike a b → alike b c → alike a c) (htargets : targets ⊆ targets')
    (h : Carried alike origin targets before legacy mid)
    (h' : Carried alike origin targets' mid legacy after) :
    Carried alike origin targets' before legacy after := by
  refine ⟨fun hbefore => h'.1 (h.1 hbefore), fun a ha => ?_⟩
  obtain ⟨m, hm, ham, horigin⟩ := h'.2 a ha
  cases hmid : mid with
  | none =>
    have hnone : before = none := by
      cases hbefore : before with
      | none => rfl
      | some b => simpa [hmid] using h.1 (by rw [hbefore]; rfl)
    rw [hmid] at hm
    exact ⟨m, by rw [hnone]; exact hm, ham, horigin⟩
  | some m' =>
    obtain rfl : m' = m := by simpa [hmid] using hm
    obtain ⟨b, hb, hmb, horigin'⟩ := h.2 m' hmid
    refine ⟨b, hb, halike _ _ _ ham hmb, ?_⟩
    rcases horigin with heq | htarget
    · rcases horigin' with heq' | htarget'
      · exact .inl (heq.trans heq')
      · exact .inr (htargets (heq ▸ htarget'))
    · exact .inr htarget

/-- A file that was not there is imported. -/
theorem Carried.fetch (halike : ∀ a, alike a a) (targets : List String) (legacy : Option α) :
    Carried alike origin targets none legacy legacy :=
  ⟨nofun, fun a ha => ⟨a, ha, halike a, .inl rfl⟩⟩

/-- A record gets a target for its origin. -/
theorem Carried.retarget {a b : α} (hab : alike a b) (htarget : origin a ∈ targets) :
    Carried alike origin targets (some b) legacy (some a) :=
  ⟨fun _ => rfl, fun c hc => by
    obtain rfl := Option.some.inj hc
    exact ⟨b, rfl, hab, .inr htarget⟩⟩

end Carried

section Replaced

variable {origins origins' : List String} {before mid legacy after : Option String}

theorem Replaced.refl : Replaced origins before legacy before :=
  ⟨id, fun _ ha => .inl (by rw [ha]; rfl)⟩

theorem Replaced.trans (horigins : origins ⊆ origins') (h : Replaced origins before legacy mid)
    (h' : Replaced origins' mid legacy after) : Replaced origins' before legacy after := by
  refine ⟨fun hbefore => h'.1 (h.1 hbefore), fun a ha => ?_⟩
  rcases h'.2 a ha with hmem | hnew
  · cases hmid : mid with
    | none =>
      have hnone : before = none := by
        cases hbefore : before with
        | none => rfl
        | some b => simpa [hmid] using h.1 (by rw [hbefore]; rfl)
      rw [hmid] at hmem
      exact .inl (by rw [hnone]; exact hmem)
    | some m =>
      obtain rfl : m = a := by simpa [hmid] using hmem
      exact (h.2 m hmid).imp_right (horigins ·)
  · exact .inr hnew

theorem Replaced.fetch : Replaced origins none legacy legacy := ⟨nofun, fun _ ha => .inl ha⟩

theorem Replaced.set {origin : String} (horigin : origin ∈ origins) :
    Replaced origins before legacy (some origin) :=
  ⟨fun _ => rfl, fun _ ha => .inr (Option.some.inj ha ▸ horigin)⟩

end Replaced

theorem DeviceIdentity.Alike.refl (a : DeviceIdentity) : a.Alike a := rfl

theorem Pending.Alike.refl (a : Pending) : a.Alike a := rfl

theorem DeviceIdentity.Alike.trans {a b c : DeviceIdentity} (hab : a.Alike b) (hbc : b.Alike c) :
    a.Alike c := by
  unfold Alike at *
  rw [hab, hbc]

theorem Pending.Alike.trans {a b c : Pending} (hab : a.Alike b) (hbc : b.Alike c) : a.Alike c := by
  unfold Alike at *
  rw [hab, hbc]

/-- Of an enrolled device no origin is saved. -/
structure Kept (s t : World) : Prop extends Moved s t where
  enrolled : s.Enrolled → t.saved = s.saved

section Moved

variable {s t u : World}

theorem Tended.refl (s : World) : Tended s s where
  legacy := rfl
  targets := List.Subset.refl _
  saved := List.Subset.refl _
  identity := .refl DeviceIdentity.Alike.refl ..
  pairing := .refl Pending.Alike.refl ..
  server := .refl
  other _ _ := rfl
  known h := h
  written := Nat.le_refl _
  missed := Nat.le_refl _
  settled := id
  retired := id

theorem Moved.refl (s : World) : Moved s s := ⟨.refl s, fun _ => .inr (.inl rfl)⟩

theorem Tended.enrolled_of (h : Tended s t) (hs : s.Enrolled) : t.Enrolled := by
  rcases hs with hs | hs | hs
  · exact .inl (h.identity.1 hs)
  · exact .inr (.inl (h.pairing.1 hs))
  · exact .inr (.inr (by rwa [h.other _ hs]))

theorem Tended.trans (h : Tended s t) (h' : Tended t u) : Tended s u where
  legacy := h'.legacy.trans h.legacy
  targets := List.Subset.trans h.targets h'.targets
  saved := List.Subset.trans h.saved h'.saved
  identity := .trans (fun _ _ _ => .trans) h'.targets h.identity (h.legacy ▸ h'.identity)
  pairing := .trans (fun _ _ _ => .trans) h'.targets h.pairing (h.legacy ▸ h'.pairing)
  server := by
    refine .trans ?_ h.server (h.legacy ▸ h'.server)
    exact List.append_subset.2 ⟨List.Subset.trans h'.targets (List.subset_append_left ..),
      List.Subset.trans h'.saved (List.subset_append_right ..)⟩
  other name hname := by
    rw [h'.other name (by rwa [h.other name hname]), h.other name hname]
  known hs := h'.known (h.known hs)
  written := Nat.le_trans h.written h'.written
  missed := Nat.le_trans h.missed h'.missed
  settled hs := h'.settled (h.settled hs)
  retired hs := h'.retired (h.retired hs)

theorem Moved.trans (h : Moved s t) (h' : Moved t u) : Moved s u where
  toTended := h.toTended.trans h'.toTended
  journal hwritten := by
    have hw := h.written
    have hw' := h'.written
    have hm := h.missed
    have hm' := h'.missed
    rcases h'.journal (by omega) with hj | hj | ⟨hcause, hj⟩
    · exact .inl hj
    · rw [hj]
      refine (h.journal (by omega)).imp_right fun hj => hj.imp_right fun hj => ⟨?_, hj.2⟩
      exact hj.1.imp_right fun hlt => by omega
    · refine .inr (.inr ⟨?_, h.legacy ▸ hj⟩)
      exact hcause.imp (fun hnot hs => hnot (h.settled hs)) fun hlt => by omega

theorem Kept.refl (s : World) : Kept s s := ⟨.refl s, fun _ => rfl⟩

theorem Kept.trans (h : Kept s t) (h' : Kept t u) : Kept s u :=
  ⟨h.toMoved.trans h'.toMoved, fun hs => (h'.enrolled (h.enrolled_of hs)).trans (h.enrolled hs)⟩

end Moved

/-! ### Operations -/

section Operations

variable {s : World} {target : String}

theorem Moved.setIdentity {i : DeviceIdentity} (hi : s.disk.identity = some i)
    (htarget : target ∈ s.targets) : Moved s (s.setIdentity { i with server_url := target }) :=
  { Moved.refl s with
    identity := hi ▸ .retarget rfl htarget }

theorem Moved.setPairing {pending : Pending} (hp : s.disk.pairing = some pending)
    (htarget : target ∈ s.targets) : Moved s (s.setPairing { pending with origin := target }) :=
  { Moved.refl s with
    pairing := hp ▸ .retarget rfl htarget }

theorem Moved.setServer (htarget : target ∈ s.targets) : Moved s (s.setServer target) :=
  { Moved.refl s with
    server := .set (List.mem_append_left _ htarget) }

theorem Moved.saveServer : Moved s (s.saveServer target) :=
  { Moved.refl s with
    saved := List.subset_cons_self ..
    server := .set (List.mem_append_right _ (List.mem_cons_self ..)) }

/-- A journal is removed after an import. -/
theorem Moved.removeJournal (hsettled : s.missed = 0 → s.Settled) : Moved s s.removeJournal :=
  { Moved.refl s with
    known _ := nofun
    retired _ hmissed _ _ := hsettled hmissed
    journal _ := .inl rfl }

theorem Moved.writeJournal : Moved s (s.writeJournal target) where
  legacy := rfl
  targets := List.subset_cons_self ..
  saved := List.Subset.refl _
  identity := .refl DeviceIdentity.Alike.refl ..
  pairing := .refl Pending.Alike.refl ..
  server := .refl
  other _ _ := rfl
  known _ _ hj := Option.some.inj hj ▸ List.mem_cons_self ..
  written := Nat.le_succ _
  missed := Nat.le_refl _
  settled := id
  retired _ _ _ := nofun
  journal hwritten := absurd hwritten (Nat.succ_ne_self _)

theorem Moved.miss (s : World) : Moved s s.miss :=
  { Moved.refl s with
    missed := Nat.le_succ _
    retired _ := nofun
    journal _ := .inr (.inl rfl) }

theorem Moved.complete (s : World) : Moved s { s with imported := true } :=
  { Moved.refl s with
    settled _ := .inl rfl
    retired _ _ _ _ := .inl rfl }

theorem Tended.copyIn {legacy : Disk} (hlegacy : s.legacy = some legacy) {file : File}
    (hhas : legacy.has file = true) (hfile : s.disk.has file = false) :
    Tended s (s.copyIn legacy file) := by
  have hbind : ∀ {α : Type} (f : Disk → Option α), s.legacy.bind f = f legacy := fun f => by
    rw [hlegacy]
    rfl
  cases file with
  | identity =>
    have hnone : s.disk.identity = none := by simpa [Disk.has] using hfile
    exact { Tended.refl s with
      identity := by rw [hnone, hbind]; exact .fetch DeviceIdentity.Alike.refl .. }
  | pairing =>
    have hnone : s.disk.pairing = none := by simpa [Disk.has] using hfile
    exact { Tended.refl s with
      pairing := by rw [hnone, hbind]; exact .fetch Pending.Alike.refl .. }
  | journal =>
    exact { Tended.refl s with
      targets := List.subset_append_right ..
      identity := .refl DeviceIdentity.Alike.refl ..
      pairing := .refl Pending.Alike.refl ..
      server := .refl
      known _ j hj := List.mem_append_left _ (Option.mem_toList.2 hj)
      retired _ _ _ hnone := by
        have hnone : legacy.journal = none := hnone
        simp [Disk.has, hnone] at hhas }
  | server =>
    have hnone : s.disk.server = none := by simpa [Disk.has] using hfile
    exact { Tended.refl s with
      server := by rw [hnone, hbind]; exact .fetch }
  | other name =>
    have hnone : s.disk.other name = none := by simpa [Disk.has] using hfile
    exact { Tended.refl s with
      other n hn := by
        have hne : n ≠ name := by
          rintro rfl
          simp [hnone] at hn
        exact if_neg hne }

end Operations

/-! ### Lookups -/

namespace World

/-- One file imported when the import copies it. -/
def fetch (legacy : Disk) (w : World) (file : File) : World :=
  if legacy.has file && !w.disk.has file then w.copyIn legacy file else w

/-- The world once nothing is left to import. -/
def settle (w : World) : World :=
  if w.imported then w
  else match w.legacy with
    | none => w
    | some legacy => { importedFiles.foldl (fetch legacy) w with imported := true }

end World

section Settle

variable {legacy : Disk} {w : World} {file : File} {files : List File}

theorem settle_eq (h : w.Settled) : w.settle = w := by
  unfold World.settle
  rcases h with himported | hlegacy
  · rw [if_pos himported]
  · split
    · rfl
    · rw [hlegacy]

theorem settle_settled (w : World) : w.settle.Settled := by
  unfold World.settle
  split
  · next himported => exact .inl himported
  · split
    · next hlegacy => exact .inr hlegacy
    · exact .inl rfl

theorem settle_settle (w : World) : w.settle.settle = w.settle := settle_eq (settle_settled w)

theorem settle_of_not (himported : w.imported = false) (hlegacy : w.legacy = some legacy) :
    w.settle = { importedFiles.foldl (World.fetch legacy) w with imported := true } := by
  unfold World.settle
  rw [himported, hlegacy]
  rfl

theorem fetch_imported : (w.fetch legacy file).imported = w.imported := by
  unfold World.fetch
  split <;> rfl

theorem fetch_legacy : (w.fetch legacy file).legacy = w.legacy := by
  unfold World.fetch
  split <;> rfl

theorem foldl_fetch_imported : (files.foldl (World.fetch legacy) w).imported = w.imported := by
  induction files generalizing w with
  | nil => rfl
  | cons file files ih => exact ih.trans fetch_imported

theorem foldl_fetch_legacy : (files.foldl (World.fetch legacy) w).legacy = w.legacy := by
  induction files generalizing w with
  | nil => rfl
  | cons file files ih => exact ih.trans fetch_legacy

theorem fetch_eq (h : legacy.has file = true → w.disk.has file = true) : w.fetch legacy file = w := by
  unfold World.fetch
  split
  · next hcond =>
    obtain ⟨hhas, hnot⟩ := Bool.and_eq_true_iff.1 hcond
    simp [h hhas] at hnot
  · rfl

theorem has_copyIn (f : File) : (w.copyIn legacy file).disk.has f =
    if f = file then legacy.has f else w.disk.has f := by
  cases file <;> cases f <;> simp [World.copyIn, Disk.has]
  split
  · next heq => rw [heq]
  · rfl

theorem has_fetch {f : File} (h : w.disk.has f = true) : (w.fetch legacy file).disk.has f = true := by
  unfold World.fetch
  split
  · next hcond =>
    rw [has_copyIn]
    split
    · next heq => exact heq ▸ (Bool.and_eq_true_iff.1 hcond).1
    · exact h
  · exact h

theorem has_fetch_self (h : legacy.has file = true) : (w.fetch legacy file).disk.has file = true := by
  unfold World.fetch
  split
  · rw [has_copyIn, if_pos rfl]
    exact h
  · next hcond => simpa [h] using hcond

theorem has_foldl_fetch {f : File} (h : w.disk.has f = true) :
    (files.foldl (World.fetch legacy) w).disk.has f = true := by
  induction files generalizing w with
  | nil => exact h
  | cons file files ih => exact ih (has_fetch h)

/-- What was fetched is there. -/
theorem has_of_fetched {f : File} (hmem : f ∈ files) (hhas : legacy.has f = true) :
    (files.foldl (World.fetch legacy) w).disk.has f = true := by
  induction files generalizing w with
  | nil => cases hmem
  | cons file files ih =>
    rcases List.mem_cons.1 hmem with rfl | hmem
    · exact has_foldl_fetch (w := w.fetch legacy f) (has_fetch_self hhas)
    · exact ih hmem

theorem foldl_fetch_eq (h : ∀ f ∈ files, legacy.has f = true → w.disk.has f = true) :
    files.foldl (World.fetch legacy) w = w := by
  induction files with
  | nil => rfl
  | cons file files ih =>
    rw [List.foldl_cons, fetch_eq (h file (List.mem_cons_self ..))]
    exact ih fun f hf => h f (List.mem_cons_of_mem _ hf)

/-- An import that stopped on the way is taken up where it stopped. -/
theorem settle_foldl_fetch {post : List File} (himported : w.imported = false)
    (hlegacy : w.legacy = some legacy) (hfiles : importedFiles = files ++ post) :
    (files.foldl (World.fetch legacy) w).settle = w.settle := by
  rw [settle_of_not (foldl_fetch_imported.trans himported) (foldl_fetch_legacy.trans hlegacy),
    settle_of_not himported hlegacy, hfiles, List.foldl_append, List.foldl_append,
    foldl_fetch_eq fun f hf => has_of_fetched hf]

theorem fetch_journal : (w.fetch legacy file).disk.journal =
    if file = .journal then w.disk.journal.or legacy.journal else w.disk.journal := by
  unfold World.fetch
  split
  · next hcond =>
    cases file with
    | journal =>
      have hnone : w.disk.journal = none := by
        simpa [Disk.has] using (Bool.and_eq_true_iff.1 hcond).2
      rw [if_pos rfl, hnone]
      rfl
    | _ => rfl
  · next hcond =>
    cases file with
    | journal => cases hj : w.disk.journal <;> simp_all [Disk.has]
    | _ => rfl

theorem settle_journal (w : World) : w.settle.disk.journal = w.found := by
  unfold World.found
  cases himported : w.imported with
  | true => simp [settle_eq (.inl himported)]
  | false =>
    cases hlegacy : w.legacy with
    | none => simp [settle_eq (.inr hlegacy)]
    | some legacy =>
      rw [settle_of_not himported hlegacy]
      simp [importedFiles, fetch_journal]

end Settle

/-- What a lookup that is cut off may have done. -/
structure Looking (s t : World) : Prop extends Moved s t where
  saved_eq : t.saved = s.saved
  written_eq : t.written = s.written
  identity_eq : ∀ i, s.disk.identity = some i → t.disk.identity = some i
  pairing_eq : ∀ p, s.disk.pairing = some p → t.disk.pairing = some p
  journal_eq : ∀ j, s.disk.journal = some j → t.disk.journal = some j

/-- What a lookup of the state directory may have done. -/
structure Looked (s t : World) : Prop extends Looking s t where
  complete : t.missed = s.missed → t = s.settle

section Lookups

variable {C : World → Prop} {Q : Unit → World → Prop} {E : String → World → Prop} {s t u : World}

theorem Looking.refl (s : World) : Looking s s :=
  ⟨.refl s, rfl, rfl, fun _ h => h, fun _ h => h, fun _ h => h⟩

theorem Looking.trans (h : Looking s t) (h' : Looking t u) : Looking s u where
  toMoved := h.toMoved.trans h'.toMoved
  saved_eq := h'.saved_eq.trans h.saved_eq
  written_eq := h'.written_eq.trans h.written_eq
  identity_eq i hi := h'.identity_eq i (h.identity_eq i hi)
  pairing_eq p hp := h'.pairing_eq p (h.pairing_eq p hp)
  journal_eq j hj := h'.journal_eq j (h.journal_eq j hj)

theorem Looked.trans (h : Looked s t) (h' : Looked t u) : Looked s u where
  toLooking := h.toLooking.trans h'.toLooking
  complete hmissed := by
    have hst := h.missed
    have htu := h'.missed
    rw [h'.complete (by omega), h.complete (by omega), settle_settle]

theorem Looking.miss (h : Looking s t) : Looking s t.miss :=
  { h with toMoved := h.toMoved.trans (.miss t) }

theorem Looking.complete (h : Looking s t) : Looking s { t with imported := true } :=
  { h with toMoved := h.toMoved.trans (.complete t) }

/-- A file is copied where something was left to import, or an import failed. -/
theorem Looking.copyIn {legacy : Disk} (h : Looking s t) (hlegacy : t.legacy = some legacy)
    (hcause : ¬ s.Settled ∨ s.missed < t.missed) {file : File} (hhas : legacy.has file = true)
    (hfile : t.disk.has file = false) : Looking s (t.copyIn legacy file) where
  toTended := h.toTended.trans (.copyIn hlegacy hhas hfile)
  journal hwritten := by
    cases file with
    | journal =>
      refine .inr (.inr ⟨hcause, ?_⟩)
      rw [← h.legacy, hlegacy]
      rfl
    | _ => exact h.journal hwritten
  saved_eq := h.saved_eq
  written_eq := h.written_eq
  identity_eq i hi := by
    have hi := h.identity_eq i hi
    cases file with
    | identity => simp [Disk.has, hi] at hfile
    | _ => exact hi
  pairing_eq p hp := by
    have hp := h.pairing_eq p hp
    cases file with
    | pairing => simp [Disk.has, hp] at hfile
    | _ => exact hp
  journal_eq j hj := by
    have hj := h.journal_eq j hj
    cases file with
    | journal => simp [Disk.has, hj] at hfile
    | _ => exact hj

theorem wp_importStep {f : World → World} {error : String} (hok : Q () (f s)) (hfail : E error s.miss)
    (hC : C s) : wp C (importStep f error) Q E s :=
  wp_op hok hfail hC hC

/-- The files are fetched, unless an operation fails. -/
theorem wp_importFiles {legacy : Disk} (files : List File) (hlegacy : t.legacy = some legacy)
    (h : Looking s t) (hcause : ¬ s.Settled ∨ s.missed < t.missed) :
    wp (Looking s) (importFiles legacy files)
      (fun _ u => Looking s u ∧ u.missed = t.missed ∧ u = files.foldl (World.fetch legacy) t)
      (fun _ u => Looking s u ∧ s.missed < u.missed) t := by
  induction files generalizing t with
  | nil => exact wp_pure ⟨h, rfl, rfl⟩
  | cons file files ih =>
    refine wp_bind (wp_bind (wp_get ?_ h))
    split
    · next hcond =>
      obtain ⟨hhas, hnot⟩ := Bool.and_eq_true_iff.1 hcond
      have hfile : t.disk.has file = false := by simpa using hnot
      have hfetch : t.fetch legacy file = t.copyIn legacy file := if_pos hcond
      have hmissed := h.missed
      refine wp_importStep ?_ ⟨h.miss, Nat.lt_succ_of_le hmissed⟩ h
      rw [List.foldl_cons, hfetch]
      exact ih hlegacy (h.copyIn hlegacy hcause hhas hfile) hcause
    · next hcond =>
      have hfetch : t.fetch legacy file = t := if_neg hcond
      refine wp_pure ?_
      rw [List.foldl_cons, hfetch]
      exact ih hlegacy h hcause

/-- An import that the marker does not stop. -/
theorem wp_import (h : Looking s t) (ht : t = s ∧ s.imported = false ∨ s.missed < t.missed) :
    wp (Looking s) (do
      match ← Prog.get (·.legacy) with
      | none => pure ()
      | some legacy =>
        importFiles legacy importedFiles
        importStep (fun w => w) "sync failed"
        importStep (fun w => { w with imported := true }) "marker failed"
        importStep (fun w => w) "sync failed" : M Unit)
      (fun _ => Looked s) (fun _ => Looked s) t := by
  have hmore : ∀ u, Looking s u → s.missed < u.missed → Looked s u := fun u hu hlt =>
    ⟨hu, fun hmissed => absurd hmissed (Nat.ne_of_gt hlt)⟩
  refine wp_bind (wp_get ?_ h)
  split
  · next hlegacy =>
    refine wp_pure ⟨h, fun hmissed => ?_⟩
    rcases ht with ⟨rfl, _⟩ | hlt
    · exact (settle_eq (.inr hlegacy)).symm
    · omega
  · next legacy hlegacy =>
    have hcause : ¬ s.Settled ∨ s.missed < t.missed := by
      refine ht.imp_left fun ht hsettled => ?_
      obtain ⟨rfl, himported⟩ := ht
      rcases hsettled with hsettled | hsettled
      · rw [himported] at hsettled
        cases hsettled
      · rw [hlegacy] at hsettled
        cases hsettled
    refine wp_bind ((wp_importFiles importedFiles hlegacy h hcause).mono (fun _ u hu => ?_)
      (fun _ u hu => hmore u hu.1 hu.2) fun _ hu => hu)
    obtain ⟨hu, hmissed, hfetched⟩ := hu
    have hfail : ∀ v, Looking s v → s.missed ≤ v.missed → Looked s v.miss := fun v hv hle =>
      hmore _ hv.miss (Nat.lt_succ_of_le hle)
    have hdone : Looked s { u with imported := true } := by
      refine ⟨hu.complete, fun hsame => ?_⟩
      rcases ht with ⟨rfl, himported⟩ | hlt
      · rw [settle_of_not himported hlegacy, hfetched]
      · have hsame : u.missed = s.missed := hsame
        omega
    refine wp_bind (wp_importStep ?_ (hfail u hu hu.missed) hu)
    refine wp_bind (wp_importStep ?_ (hfail u hu hu.missed) hu)
    exact wp_importStep hdone (hfail _ hu.complete hu.missed) hu.complete

/-- A lookup returns, whatever becomes of its import. -/
theorem wp_state_dir (hQ : ∀ t, Looked s t → Q () t) (hC : ∀ t, Looking s t → C t) :
    wp C state_dir Q E s := by
  refine wp_ignore (wp.mono (C := Looking s) (Q := fun _ => Looked s) (E := fun _ => Looked s) ?_
    (fun _ => hQ) (fun _ => hQ) hC)
  have hrefl := Looking.refl s
  refine wp_bind (wp_op ?_ (wp_import hrefl.miss (.inr (Nat.lt_succ_self _))) hrefl hrefl)
  show wp _ _ _ _ s
  cases himported : s.imported with
  | true => exact wp_pure ⟨hrefl, fun _ => (settle_eq (.inl himported)).symm⟩
  | false => exact wp_import hrefl (.inl ⟨rfl, himported⟩)

end Lookups

/-! ### Recovery keeps records -/

/-- Origins may have changed, and none was saved. -/
structure Calm (s t : World) : Prop extends Moved s t where
  saved_eq : t.saved = s.saved

/-- Unless an operation of an import has failed since `s`, nothing is left to import and the disk has `P`. -/
def Since (s : World) (P : Disk → Prop) (t : World) : Prop :=
  t.missed = s.missed → t.Settled ∧ P t.disk

/-- What was read for the new identity is still there. -/
def HasIdentity (s : World) (target : String) (read : Option DeviceIdentity) (t : World) : Prop :=
  match read with
  | some identity => ∃ i, t.disk.identity = some i ∧ identity = { i with server_url := target }
  | none => Since s (·.identity = none) t

/-- The pending enrollment that was read, moved to the target, is the one on disk. -/
def HasPending (s : World) (target : String) (read : Option Pending) (t : World) : Prop :=
  match read with
  | some pending => ∃ p, t.disk.pairing = some p ∧ pending = { p with origin := target }
  | none => Since s (·.pairing = none) t

section Recovery

variable {parse : Parse} {s t u : World} {target : String} {C : World → Prop}
  {E : String → World → Prop}

theorem Calm.refl (s : World) : Calm s s := ⟨.refl s, rfl⟩

theorem Calm.kept (h : Calm s t) : Kept s t := ⟨h.toMoved, fun _ => h.saved_eq⟩

theorem Calm.looking (h : Calm s t) (h' : Looking t u) : Calm s u :=
  ⟨h.toMoved.trans h'.toMoved, h'.saved_eq.trans h.saved_eq⟩

theorem Calm.looked (h : Calm s t) (h' : Looked t u) : Calm s u := h.looking h'.toLooking

theorem Calm.moved (h : Calm s t) (h' : Moved t u) (hsaved : u.saved = t.saved) : Calm s u :=
  ⟨h.toMoved.trans h', hsaved.trans h.saved_eq⟩

/-- A lookup leaves nothing to import. -/
theorem Looked.settled_since (hcalm : Moved s t) (h : Looked t u) (hmissed : u.missed = s.missed) :
    u.Settled := by
  have hst := hcalm.missed
  have htu := h.missed
  exact h.complete (by omega) ▸ settle_settled t

theorem Since.looked {P : Disk → Prop} (hcalm : Moved s t) (h : Since s P t) (h' : Looked t u) :
    Since s P u := by
  intro hmissed
  have hst := hcalm.missed
  have htu := h'.missed
  obtain ⟨hsettled, hP⟩ := h (by omega)
  rw [h'.complete (by omega), settle_eq hsettled]
  exact ⟨hsettled, hP⟩

theorem HasIdentity.looked {read : Option DeviceIdentity} (hcalm : Moved s t)
    (h : HasIdentity s target read t) (h' : Looked t u) : HasIdentity s target read u := by
  cases read with
  | none => exact Since.looked (P := (·.identity = none)) hcalm h h'
  | some identity =>
    obtain ⟨i, hi, hread⟩ := h
    exact ⟨i, h'.identity_eq i hi, hread⟩

theorem HasPending.looked {read : Option Pending} (hcalm : Moved s t)
    (h : HasPending s target read t) (h' : Looked t u) : HasPending s target read u := by
  cases read with
  | none => exact Since.looked (P := (·.pairing = none)) hcalm h h'
  | some pending =>
    obtain ⟨p, hp, hread⟩ := h
    exact ⟨p, h'.pairing_eq p hp, hread⟩

theorem wp_liftExcept {r : Except String α} {Q : α → World → Prop} (hok : ∀ a, r = .ok a → Q a t)
    (herror : ∀ e, E e t) :
    wp C (liftExcept r) Q E t := by
  cases r with
  | ok a => exact wp_pure (hok a rfl)
  | error e => exact wp_throw (herror e)

theorem wp_require {cond : Bool} {error : String} {Q : Unit → World → Prop} (hok : cond = true → Q () t)
    (herror : ∀ e, E e t) : wp C (require cond error) Q E t := by
  cases cond with
  | true => exact wp_pure (hok rfl)
  | false => exact wp_throw (herror error)

theorem wp_readOr {f : World → Option α} {error : String} {Q : α → World → Prop}
    (hok : ∀ a, f t = some a → Q a t)
    (herror : ∀ e, E e t) (hC : C t) : wp C (readOr f error) Q E t := by
  refine wp_bind (wp_read ?_ (wp_throw (herror error)) hC)
  cases hf : f t with
  | none => exact wp_throw (herror error)
  | some a => exact wp_pure (hok a hf)

theorem wp_load_identity (h : Calm s t) :
    wp (Calm s) (load_identity parse) (fun i u => Looked t u ∧ u.disk.identity = some i)
      (fun _ => Calm s) t := by
  refine wp_bind (wp_state_dir (fun u hu => ?_) fun u hu => h.looking hu)
  refine wp_bind (wp_readOr (fun i hi => ?_) (fun _ => h.looked hu) (h.looked hu))
  exact wp_bind (wp_liftExcept (fun _ _ => wp_pure ⟨hu, hi⟩) fun _ => h.looked hu)

theorem wp_recoverIdentity (h : Calm s t) :
    wp (Calm s) (recoverIdentity parse target)
      (fun read u => Looked t u ∧ HasIdentity s target read u) (fun _ => Calm s) t := by
  refine wp_bind (wp_state_dir (fun u hu => ?_) fun u hu => h.looking hu)
  refine wp_bind (wp_get ?_ (h.looked hu))
  split
  · refine wp_bind ((wp_load_identity (h.looked hu)).mono (fun i v hv => ?_) (fun _ _ hv => hv)
      fun _ hv => hv)
    have hcalm := (h.looked hu).looked hv.1
    exact wp_bind (wp_require (fun _ => wp_pure ⟨hu.trans hv.1, i, hv.2, rfl⟩) fun _ => hcalm)
  · next hnone =>
    have hnone : u.disk.identity = none := by simpa using hnone
    exact wp_pure ⟨hu, fun hmissed => ⟨hu.settled_since h.toMoved hmissed, hnone⟩⟩

theorem wp_recoverPending (h : Calm s t) :
    wp (Calm s) (recoverPending parse target)
      (fun read u => Looked t u ∧ HasPending s target read u) (fun _ => Calm s) t := by
  refine wp_bind (wp_state_dir (fun u hu => ?_) fun u hu => h.looking hu)
  refine wp_bind (wp_get ?_ (h.looked hu))
  split
  · refine wp_bind (wp_readOr (fun p hp => ?_) (fun _ => h.looked hu) (h.looked hu))
    exact wp_bind (wp_require (fun _ => wp_pure ⟨hu, p, hp, rfl⟩) fun _ => h.looked hu)
  · next hnone =>
    have hnone : u.disk.pairing = none := by simpa using hnone
    exact wp_pure ⟨hu, fun hmissed => ⟨hu.settled_since h.toMoved hmissed, hnone⟩⟩

theorem wp_checkServer (h : Calm s t) :
    wp (Calm s) (checkServer parse target) (fun _ u => Looked t u) (fun _ => Calm s) t := by
  refine wp_bind (wp_state_dir (fun u hu => ?_) fun u hu => h.looking hu)
  refine wp_bind (wp_read ?_ (wp_pure hu) (h.looked hu))
  split
  · exact wp_require (fun _ => hu) fun _ => h.looked hu
  · exact wp_pure hu

/-- The records carry the target. -/
structure Carries (target : String) (d : Disk) : Prop where
  identity : ∀ i ∈ d.identity, i.server_url = target
  pairing : ∀ p ∈ d.pairing, p.origin = target
  server : d.server = some target

/-- Midway through the writes. -/
structure Midway (s : World) (target : String) (P : Disk → Prop) (t : World) : Prop extends Calm s t where
  target_mem : target ∈ t.targets
  since : Since s P t

theorem Midway.looked {P : Disk → Prop} (h : Midway s target P t) (h' : Looked t u) :
    Midway s target P u where
  toCalm := h.toCalm.looked h'
  target_mem := h'.targets h.target_mem
  since := Since.looked h.toMoved h.since h'

theorem wp_writeIdentity {identity : Option DeviceIdentity} {pending : Option Pending}
    (h : Calm s t) (htarget : target ∈ t.targets)
    (hi : HasIdentity s target identity t) (hp : HasPending s target pending t) :
    wp (Calm s) (writeIdentity identity)
      (fun _ u => Midway s target (fun d => ∀ i ∈ d.identity, i.server_url = target) u ∧
        HasPending s target pending u) (fun _ => Calm s) t := by
  cases identity with
  | none =>
    refine wp_pure ⟨⟨h, htarget, fun hmissed => ⟨(hi hmissed).1, fun i hmem => ?_⟩⟩, hp⟩
    rw [(hi hmissed).2] at hmem
    cases hmem
  | some identity =>
    refine wp_bind (wp_state_dir (fun u hu => ?_) fun u hu => h.looking hu)
    obtain ⟨i, hfound, rfl⟩ := hi.looked h.toMoved hu
    have hcalm := h.looked hu
    have hmem := hu.targets htarget
    have hmoved := hcalm.moved (.setIdentity hfound hmem) rfl
    have hsettled : u.missed = s.missed → u.Settled := hu.settled_since h.toMoved
    refine wp_write ⟨⟨hmoved, hmem, fun hmissed => ⟨hsettled hmissed, fun j hj => ?_⟩⟩, ?_⟩ hcalm hcalm
    · exact Option.some.inj hj ▸ rfl
    · have hold := hp.looked h.toMoved hu
      cases pending with
      | none => exact hold
      | some pending => exact hold

theorem wp_writePending {pending : Option Pending}
    (h : Midway s target (fun d => ∀ i ∈ d.identity, i.server_url = target) t)
    (hp : HasPending s target pending t) :
    wp (Calm s) (writePending pending)
      (fun _ => Midway s target fun d =>
        (∀ i ∈ d.identity, i.server_url = target) ∧ ∀ p ∈ d.pairing, p.origin = target)
      (fun _ => Calm s) t := by
  cases pending with
  | none =>
    refine wp_pure ⟨h.toCalm, h.target_mem, fun hmissed =>
      ⟨(h.since hmissed).1, (h.since hmissed).2, fun p hmem => ?_⟩⟩
    rw [(hp hmissed).2] at hmem
    cases hmem
  | some pending =>
    obtain ⟨p, hfound, rfl⟩ := hp
    have hmoved := h.toCalm.moved (.setPairing hfound h.target_mem) rfl
    refine wp_write ⟨hmoved, h.target_mem, fun hmissed =>
      ⟨(h.since hmissed).1, (h.since hmissed).2, fun q hq => ?_⟩⟩ h.toCalm h.toCalm
    exact Option.some.inj hq ▸ rfl

theorem wp_persist_server_origin
    (h : Midway s target (fun d =>
      (∀ i ∈ d.identity, i.server_url = target) ∧ ∀ p ∈ d.pairing, p.origin = target) t) :
    wp (Calm s) (persist_server_origin target) (fun _ => Midway s target (Carries target))
      (fun _ => Calm s) t := by
  refine wp_bind (wp_state_dir (fun u hu => ?_) fun u hu => h.toCalm.looking hu)
  have hmid := h.looked hu
  have hset : Midway s target (Carries target) (u.setServer target) := by
    refine ⟨hmid.toCalm.moved (.setServer hmid.target_mem) rfl, hmid.target_mem, fun hmissed => ?_⟩
    obtain ⟨hsettled, hidentity, hpairing⟩ := hmid.since hmissed
    exact ⟨hsettled, hidentity, hpairing, rfl⟩
  refine wp_bind (wp_write ?_ hmid.toCalm hmid.toCalm)
  refine wp_bind (wp_state_dir (fun v hv => ?_) fun v hv => hset.toCalm.looking hv)
  exact wp_write (hset.looked hv) (hset.looked hv).toCalm (hset.looked hv).toCalm

theorem wp_removeJournal (h : Midway s target (Carries target) t) :
    wp (Calm s) removeJournal
      (fun _ => Midway s target fun d => Carries target d ∧ d.journal = none) (fun _ => Calm s) t := by
  have hsettled : t.missed = 0 → t.Settled := fun hnone => by
    have hle := h.missed
    exact (h.since (by omega)).1
  have hremoved : Midway s target (fun d => Carries target d ∧ d.journal = none) t.removeJournal := by
    refine ⟨h.toCalm.moved (.removeJournal hsettled) rfl, h.target_mem, fun hmissed => ?_⟩
    obtain ⟨hsettled, hcarries⟩ := h.since hmissed
    exact ⟨hsettled, ⟨hcarries.identity, hcarries.pairing, hcarries.server⟩, rfl⟩
  refine wp_bind (wp_write ?_ h.toCalm h.toCalm)
  refine wp_bind (wp_state_dir (fun u hu => ?_) fun u hu => hremoved.toCalm.looking hu)
  exact wp_write (hremoved.looked hu) (hremoved.looked hu).toCalm (hremoved.looked hu).toCalm

/-- What a recovery that returns has done. -/
def Recovered (s t : World) : Prop :=
  t.missed = s.missed → t.disk.journal = none ∧ ∀ target ∈ s.found, Carries target t.disk

theorem wp_recover_origin_migration (hknown : ∀ j ∈ s.disk.journal, j ∈ s.targets) :
    wp (Calm s) (recover_origin_migration parse) (fun _ t => Calm s t ∧ Recovered s t)
      (fun _ => Calm s) s := by
  have hstart := Calm.refl s
  refine wp_bind (wp_state_dir (fun t ht => ?_) fun t ht => hstart.looking ht)
  have hcalm := hstart.looked ht
  have hfound : t.missed = s.missed → t.disk.journal = s.found := fun hmissed => by
    rw [ht.complete hmissed, settle_journal]
  refine wp_bind (wp_get ?_ hcalm)
  split
  · refine wp_bind (wp_readOr (fun target htarget => ?_) (fun _ => hcalm) hcalm)
    have hmem : target ∈ t.targets := ht.known hknown _ htarget
    refine wp_bind (wp_liftExcept (fun url _ => ?_) fun _ => hcalm)
    refine wp_bind (wp_require (fun _ => ?_) fun _ => hcalm)
    -- From here on everything is measured against the world that the first lookup left.
    have hback : ∀ u, Calm t u → Calm s u := fun u hu => hcalm.moved hu.toMoved hu.saved_eq
    refine wp.mono (C := Calm t) (E := fun _ => Calm t)
      (Q := fun _ => Midway t target fun d => Carries target d ∧ d.journal = none) ?_
      (fun _ u hu => ⟨hback u hu.toCalm, fun hmissed => ?_⟩) (fun _ => hback) hback
    · have hcalm := Calm.refl t
      refine wp_bind ((wp_recoverIdentity hcalm).mono (fun identity u hu => ?_) (fun _ _ h => h)
        fun _ h => h)
      obtain ⟨hu, hi⟩ := hu
      have hcalm := hcalm.looked hu
      refine wp_bind ((wp_recoverPending hcalm).mono (fun pending v hv => ?_) (fun _ _ h => h)
        fun _ h => h)
      obtain ⟨hv, hp⟩ := hv
      have hi := hi.looked hcalm.toMoved hv
      have hcalm := hcalm.looked hv
      refine wp_bind ((wp_checkServer hcalm).mono (fun _ x hx => ?_) (fun _ _ h => h) fun _ h => h)
      have hi := hi.looked hcalm.toMoved hx
      have hp := hp.looked hcalm.toMoved hx
      have hmem := (hu.trans (hv.trans hx)).targets hmem
      refine wp_bind ((wp_writeIdentity (hcalm.looked hx) hmem hi hp).mono (fun _ y hy => ?_)
        (fun _ _ h => h) fun _ h => h)
      refine wp_bind ((wp_writePending hy.1 hy.2).mono (fun _ z hz => ?_) (fun _ _ h => h)
        fun _ h => h)
      exact wp_bind ((wp_persist_server_origin hz).mono (fun _ _ h => wp_removeJournal h)
        (fun _ _ h => h) fun _ h => h)
    · have hst := ht.missed
      have htu := hu.missed
      obtain ⟨_, hcarries, hgone⟩ := hu.since (by omega)
      refine ⟨hgone, fun target' htarget' => ?_⟩
      rw [← hfound (by omega), htarget] at htarget'
      exact Option.some.inj htarget' ▸ hcarries
  · next hnone =>
    have hnone : t.disk.journal = none := by simpa using hnone
    refine wp_pure ⟨hcalm, fun hmissed => ⟨hnone, fun target htarget => ?_⟩⟩
    rw [← hfound hmissed, hnone] at htarget
    cases htarget

end Recovery

/-! ### Every call -/

section Calls

variable {parse : Parse} {s t u : World} {C : World → Prop} {E : String → World → Prop}

theorem wp_migrate_canonical_origin_with {origin : String} {discovered : Except String String}
    (hknown : ∀ j ∈ s.disk.journal, j ∈ s.targets) :
    wp (Calm s) (migrate_canonical_origin_with parse origin discovered) (fun _ => Calm s)
    (fun _ => Calm s) s := by
  have hstart := Calm.refl s
  unfold migrate_canonical_origin_with
  split
  · refine wp_bind (wp_state_dir (fun t ht => ?_) fun t ht => hstart.looking ht)
    have hcalm := hstart.looked ht
    have hrecover : ∀ u, Calm s u → (∀ j ∈ u.disk.journal, j ∈ u.targets) →
        wp (Calm s) (recover_origin_migration parse) (fun _ => Calm s) (fun _ => Calm s) u :=
          fun u hu hknown =>
      have hthen : ∀ v, Calm u v → Calm s v := fun v hv => hu.moved hv.toMoved hv.saved_eq
      (wp_recover_origin_migration hknown).mono (fun _ v hv => hthen v hv.1) (fun _ => hthen) hthen
    refine wp_bind (wp_get ?_ hcalm)
    split
    · refine wp_bind ((hrecover t hcalm (ht.known hknown)).mono (fun _ u hu => ?_) (fun _ _ h => h)
        fun _ h => h)
      refine wp_bind (wp_state_dir (fun v hv => ?_) fun v hv => hu.looking hv)
      exact wp_readOr (fun _ _ => hu.looked hv) (fun _ => hu.looked hv) (hu.looked hv)
    · refine wp_bind (wp_liftExcept (fun destination _ => ?_) fun _ => hcalm)
      refine wp_bind (wp_require (fun _ => ?_) fun _ => hcalm)
      split
      · exact wp_pure hcalm
      · refine wp_bind (wp_state_dir (fun u hu => ?_) fun u hu => hcalm.looking hu)
        have hcalm := hcalm.looked hu
        have hwritten := hcalm.moved (u := u.writeJournal destination.origin) .writeJournal rfl
        refine wp_bind (wp_write ?_ hcalm hcalm)
        refine wp_bind ((hrecover _ hwritten fun j hj => ?_).mono (fun _ v hv => wp_pure hv)
          (fun _ _ h => h) fun _ h => h)
        exact Option.some.inj hj ▸ List.mem_cons_self ..
  · exact wp_pure hstart

theorem wp_is_paired : wp (Looking s) is_paired
    (fun paired t => Looked s t ∧ (paired = false → s.disk.other "kiosk.key" = none)) E s := by
  have hkey : ∀ t, Looked s t →
      (t.disk.other "kiosk.key").isSome = false → s.disk.other "kiosk.key" = none := by
    intro t ht hnone
    by_contra hsome
    have hsome : (s.disk.other "kiosk.key").isSome := Option.isSome_iff_ne_none.2 hsome
    rw [ht.other _ hsome, hsome] at hnone
    cases hnone
  refine wp_bind (wp_state_dir (fun t ht => ?_) fun t ht => ht)
  refine wp_bind (wp_get ?_ ht.toLooking)
  split
  · exact wp_pure ⟨ht, nofun⟩
  · refine wp_bind (wp_state_dir (fun u hu => ?_) fun u hu => ht.toLooking.trans hu)
    have hu := ht.trans hu
    exact wp_get ⟨hu, hkey u hu⟩ hu.toLooking

/-- Only for a device that is not enrolled an origin is saved. -/
theorem wp_save {origin : String} (h : Calm s t) (hnew : ¬ s.Enrolled) :
    wp (Kept s) (save origin) (fun _ => Kept s) (fun _ => Kept s) t := by
  refine wp_bind (wp_state_dir (fun u hu => ?_) fun u hu => (h.looking hu).kept)
  have hcalm := h.looked hu
  exact wp_bind (wp_write (wp_pure ⟨hcalm.toMoved.trans .saveServer, fun hs => absurd hs hnew⟩)
    hcalm.kept hcalm.kept)

theorem wp_saveFirst {candidates : List (Except String String)} (h : Calm s t) (hnew : ¬ s.Enrolled) :
    wp (Kept s) (saveFirst candidates) (fun _ => Kept s) (fun _ => Kept s) t := by
  induction candidates with
  | nil => exact wp_throw h.kept
  | cons candidate rest ih =>
    cases candidate with
    | ok resolved => exact wp_save h hnew
    | error _ => exact ih

theorem not_enrolled (hs : Moved s t) (ht : t.disk.identity = none) (hu : Moved s u)
    (hu' : u.disk.pairing = none)
    {v : World} (hv : Moved s v) (hv' : v.disk.other "kiosk.key" = none) : ¬ s.Enrolled := by
  rintro (h | h | h)
  · simpa [ht] using hs.identity.1 h
  · simpa [hu'] using hu.pairing.1 h
  · rw [← hv.other _ h, hv'] at h
    cases h

theorem wp_discover_server {override : Option (Except String String)}
    {candidates : List (Except String String)} (hknown : ∀ j ∈ s.disk.journal, j ∈ s.targets) :
    wp (Kept s) (discover_server parse override candidates) (fun _ => Kept s) (fun _ => Kept s) s := by
  refine wp_bind ((wp_recover_origin_migration hknown).mono (fun _ t ht => ?_) (fun _ _ h => h.kept)
    fun _ h => h.kept)
  have hcalm := ht.1
  refine wp_bind (wp_state_dir (fun u hu => ?_) fun u hu => (hcalm.looking hu).kept)
  have hcalm := hcalm.looked hu
  refine wp_bind (wp_get ?_ hcalm.kept)
  split
  · refine wp_bind ((wp_load_identity hcalm).mono (fun _ v hv => ?_) (fun _ _ h => h.kept) fun _ h => h.kept)
    exact wp_pure (hcalm.looked hv.1).kept
  · next hidentity =>
    have hidentity : u.disk.identity = none := by simpa using hidentity
    have hmoved := hcalm.toMoved
    refine wp_bind (wp_state_dir (fun v hv => ?_) fun v hv => (hcalm.looking hv).kept)
    have hcalm := hcalm.looked hv
    refine wp_bind (wp_get ?_ hcalm.kept)
    split
    · refine wp_bind (wp_readOr (fun _ _ => ?_) (fun _ => hcalm.kept) hcalm.kept)
      exact wp_pure hcalm.kept
    · next hpairing =>
      have hpairing : v.disk.pairing = none := by simpa using hpairing
      have hmoved' := hcalm.toMoved
      refine wp_bind (wp_state_dir (fun x hx => ?_) fun x hx => (hcalm.looking hx).kept)
      have hcalm := hcalm.looked hx
      have hdecide : ∀ saved : Option String, wp (Kept s) (do
          if ← is_paired then
            match saved with
            | some saved => return saved
            | none => Prog.throw "Saved kiosk key has no server origin; restore storage or reset locally"
          else match override, saved with
            | some discovered, _ => save (← liftExcept discovered)
            | none, some saved => return saved
            | none, none => saveFirst candidates : M String) (fun _ => Kept s) (fun _ => Kept s) x := by
        intro saved
        refine wp_bind (wp_is_paired.mono (fun paired y hy => ?_) (fun _ _ h => h)
          fun _ h => (hcalm.looking h).kept)
        have hcalm' := hcalm.looked hy.1
        cases paired with
        | true =>
          cases saved with
          | some saved => exact wp_pure hcalm'.kept
          | none => exact wp_throw hcalm'.kept
        | false =>
          have hnew : ¬ s.Enrolled := not_enrolled hmoved hidentity hmoved' hpairing hcalm.toMoved (hy.2 rfl)
          cases override with
          | some discovered =>
            exact wp_bind (wp_liftExcept (fun origin _ => wp_save hcalm' hnew) fun _ => hcalm'.kept)
          | none =>
            cases saved with
            | some saved => exact wp_pure hcalm'.kept
            | none => exact wp_saveFirst hcalm' hnew
      exact wp_bind (wp_read (hdecide _) (hdecide _) hcalm.kept)

theorem Attempt.kept (attempt : Attempt) (plan : List Fault) (hknown : ∀ j ∈ s.disk.journal, j ∈ s.targets) :
    Kept s (attempt.exec parse plan s) := by
  cases attempt with
  | lookup => exact (wp_state_dir (E := fun _ => Kept s) (fun t ht => ((Calm.refl s).looked ht).kept)
      fun t ht => ((Calm.refl s).looking ht).kept).world plan
  | discover override candidates => exact (wp_discover_server hknown).world plan
  | recover =>
    exact ((wp_recover_origin_migration hknown).mono (fun _ _ h => h.1.kept) (fun _ _ h => h.kept)
      fun _ h => h.kept).world plan
  | migrate origin discovered =>
    exact ((wp_migrate_canonical_origin_with hknown).mono (fun _ _ h => h.kept) (fun _ _ h => h.kept)
      fun _ h => h.kept).world plan

theorem run_kept (attempts : List (Attempt × List Fault)) (hknown : ∀ j ∈ s.disk.journal, j ∈ s.targets) :
    Kept s (run parse s attempts) := by
  induction attempts generalizing s with
  | nil => exact .refl s
  | cons a attempts ih =>
    have h : Kept s (a.1.exec parse a.2 s) := a.1.kept a.2 hknown
    exact h.trans (ih (h.known hknown))

end Calls

/-! ### Resuming a migration -/

/-- An origin as the URL library writes it. -/
structure OriginText (parse : Parse) (target : String) : Prop where
  valid : validUrl parse target = .ok ()
  trimmed : trimWhitespace target = target

/-- Recovery accepts the identity on disk. -/
def IdentityPasses (parse : Parse) (target : String) (d : Disk) : Prop :=
  ∀ i ∈ d.identity, i.validate parse = .ok () ∧ allowed parse target i.server_url = true

/-- Recovery accepts the pending enrollment on disk. -/
def PendingPasses (parse : Parse) (target : String) (d : Disk) : Prop :=
  ∀ p ∈ d.pairing, allowed parse target p.origin = true

/-- Recovery accepts the server origin on disk. -/
def ServerPasses (parse : Parse) (target : String) (d : Disk) : Prop :=
  ∀ saved ∈ d.server, allowed parse target (trimWhitespace saved) = true

/-- What a recovery checks before it writes. -/
structure Passes (parse : Parse) (target : String) (d : Disk) : Prop where
  url : ∃ url, discovery_probe parse target = .ok url ∧ url.scheme = "https"
  identity : IdentityPasses parse target d
  pairing : PendingPasses parse target d
  server : ServerPasses parse target d

namespace Disk

def retargetIdentity (target : String) (d : Disk) : Disk :=
  { d with identity := d.identity.map ({ · with server_url := target }) }

def retargetPairing (target : String) (d : Disk) : Disk :=
  { d with pairing := d.pairing.map ({ · with origin := target }) }

/-- The disk as a finished migration leaves it. -/
def finish (target : String) (d : Disk) : Disk :=
  { d.retargetIdentity target |>.retargetPairing target with server := some target, journal := none }

end Disk

/-- Some of the records carry the target, and the journal is gone only if all do. -/
structure Partway (target : String) (d e : Disk) : Prop where
  identity : e.identity = d.identity ∨ e.identity = (d.retargetIdentity target).identity
  pairing : e.pairing = d.pairing ∨ e.pairing = (d.retargetPairing target).pairing
  server : e.server = d.server ∨ e.server = some target
  other : e.other = d.other
  journal : e.journal = d.journal ∨ e = d.finish target

/-- The worlds that recoveries of `w` leave behind, but for what is left to import. -/
def Resumed (parse : Parse) (target : String) (w t : World) : Prop :=
  t = w ∨ Passes parse target w.disk ∧ Partway target w.disk t.disk ∧ t = { w with disk := t.disk }

/-- From `t` to `u` by a recovery that may be cut off. -/
def CutOff (parse : Parse) (t u : World) : Prop :=
  ∃ plan, (∀ f ∈ plan, f ≠ .fail) ∧ u = (recover_origin_migration parse t plan).world

section Resuming

variable {parse : Parse} {target : String} {d e f : Disk} {w t u : World} {A : Fault →
  Prop} {C : World → Prop}

theorem Partway.finish_eq (h : Partway target d e) : e.finish target = d.finish target := by
  have hi : e.identity.map ({ · with server_url := target }) = d.identity.map
      ({ · with server_url := target }) := by
    rcases h.identity with hi | hi
    · rw [hi]
    · rw [hi]
      simp [Disk.retargetIdentity, Function.comp_def]
  have hp : e.pairing.map ({ · with origin := target }) = d.pairing.map ({ · with origin := target }) := by
    rcases h.pairing with hp | hp
    · rw [hp]
    · rw [hp]
      simp [Disk.retargetPairing, Function.comp_def]
  simp only [Disk.finish, Disk.retargetIdentity, Disk.retargetPairing, hi, hp, h.other]

theorem Partway.trans (h : Partway target d e) (hjournal : e.journal = d.journal) (h' : Partway target e f) :
    Partway target d f where
  identity := by
    rcases h'.identity with hi | hi
    · exact hi ▸ h.identity
    · exact .inr (hi.trans (congrArg (·.identity) h.finish_eq))
  pairing := by
    rcases h'.pairing with hp | hp
    · exact hp ▸ h.pairing
    · exact .inr (hp.trans (congrArg (·.pairing) h.finish_eq))
  server := h'.server.elim (fun hs => hs ▸ h.server) .inr
  other := h'.other.trans h.other
  journal := h'.journal.imp (fun hj => hj.trans hjournal) fun hf => hf.trans h.finish_eq

theorem validate_retarget (htarget : OriginText parse target) {i : DeviceIdentity}
    (hi : i.validate parse = .ok ()) :
    ({ i with server_url := target } : DeviceIdentity).validate parse = .ok () := by
  unfold DeviceIdentity.validate at hi ⊢
  split at hi
  · cases hi
  · next hbasic =>
    rw [if_neg hbasic]
    cases hurl : validUrl parse i.server_url with
    | error e =>
      rw [hurl] at hi
      cases hi
    | ok _ =>
      rw [hurl] at hi
      rw [htarget.valid]
      exact hi

theorem allowed_self : allowed parse target target = true := by simp [allowed]

theorem Passes.partway (htarget : OriginText parse target) (hd : Passes parse target d)
    (h : Partway target d e) :
    Passes parse target e where
  url := hd.url
  identity := by
    rcases h.identity with hi | hi
    · unfold IdentityPasses
      rw [hi]
      exact hd.identity
    · intro i hmem
      rw [hi] at hmem
      obtain ⟨i, hi, rfl⟩ := Option.map_eq_some_iff.1 hmem
      exact ⟨validate_retarget htarget (hd.identity i hi).1, allowed_self⟩
  pairing := by
    rcases h.pairing with hp | hp
    · unfold PendingPasses
      rw [hp]
      exact hd.pairing
    · intro p hmem
      rw [hp] at hmem
      obtain ⟨p, _, rfl⟩ := Option.map_eq_some_iff.1 hmem
      exact allowed_self
  server := by
    rcases h.server with hs | hs
    · unfold ServerPasses
      rw [hs]
      exact hd.server
    · intro saved hmem
      rw [hs] at hmem
      obtain rfl := Option.some.inj hmem
      rw [htarget.trimmed]
      exact allowed_self

theorem wpOn_liftExcept {r : Except String α} {Q : α → World → Prop} {E : String → World → Prop}
    (hok : ∀ a, r = .ok a → Q a t) (herror : ∀ e, r = .error e → E e t) : wpOn A C (liftExcept r) Q E t := by
  cases r with
  | ok a => exact wpOn_pure (hok a rfl)
  | error e => exact wpOn_throw (herror e rfl)

theorem wpOn_require {cond : Bool} {error : String} {Q : Unit → World → Prop} {E : String → World → Prop}
    (hok : cond = true → Q () t) (herror : cond = false → ∀ e, E e t) :
    wpOn A C (require cond error) Q E t := by
  cases cond with
  | true => exact wpOn_pure (hok rfl)
  | false => exact wpOn_throw (herror rfl error)

theorem wpOn_readOr (hA : ¬ A .fail) {g : World → Option α} {error : String} {Q : α → World → Prop}
    {E : String → World → Prop} {a : α} (ha : g t = some a) (hok : Q a t) (hC : ∀ f, A f → C t) :
    wpOn A C (readOr g error) Q E t := by
  refine wpOn_bind (wpOn_read hA ?_ hC)
  rw [ha]
  exact wpOn_pure hok

theorem wpOn_importStep (hA : ¬ A .fail) {g : World → World} {error : String} {Q : Unit → World → Prop}
    {E : String → World → Prop} (hQ : Q () (g t)) (hC : ∀ f, A f → C t) :
    wpOn A C (importStep g error) Q E t :=
  wpOn_op hA hQ (hC _) (hC _)

theorem wpOn_importFiles (hA : ¬ A .fail) {legacy : Disk} (files : List File) {Q : Unit → World → Prop}
    {E : String → World → Prop} (hQ : Q () (files.foldl (World.fetch legacy) t))
    (hC : ∀ pre post, files = pre ++ post → ∀ f, A f → C (pre.foldl (World.fetch legacy) t)) :
    wpOn A C (importFiles legacy files) Q E t := by
  induction files generalizing t with
  | nil => exact wpOn_pure hQ
  | cons file files ih =>
    have hstart : ∀ f, A f → C t := hC [] _ rfl
    have hrest : wpOn A C (importFiles legacy files) Q E (t.fetch legacy file) :=
      ih hQ fun pre post hfiles => hC (file :: pre) post (congrArg (file :: ·) hfiles)
    refine wpOn_bind (wpOn_bind (wpOn_get hA ?_ hstart))
    unfold World.fetch at hrest
    split
    · next hcond =>
      rw [if_pos hcond] at hrest
      exact wpOn_importStep hA hrest hstart
    · next hcond =>
      rw [if_neg hcond] at hrest
      exact wpOn_pure hrest

/-- A lookup imports what is left, and is taken up where it was cut off. -/
theorem wpOn_state_dir (hA : ¬ A .fail) {Q : Unit → World → Prop} {E : String → World → Prop}
    (hQ : Q () t.settle) (hC : ∀ u, u.settle = t.settle → ∀ f, A f → C u) :
    wpOn A C state_dir Q E t := by
  have hstart : ∀ f, A f → C t := hC t rfl
  refine wpOn_ignore (wpOn_bind (wpOn_op hA ?_ (hstart _) (hstart _)))
  show wpOn _ _ _ _ _ t
  cases himported : t.imported with
  | true =>
    rw [settle_eq (.inl himported)] at hQ
    exact wpOn_pure hQ
  | false =>
    refine wpOn_bind (wpOn_get hA ?_ hstart)
    cases hlegacy : t.legacy with
    | none =>
      rw [settle_eq (.inr hlegacy)] at hQ
      exact wpOn_pure hQ
    | some legacy =>
      rw [settle_of_not himported hlegacy] at hQ
      have hcut : ∀ pre post, importedFiles = pre ++ post →
          ∀ f, A f → C (pre.foldl (World.fetch legacy) t) := fun pre post hfiles =>
        hC _ (settle_foldl_fetch himported hlegacy hfiles)
      have hall := hcut importedFiles [] (List.append_nil _).symm
      have hdone : ∀ f, A f → C { importedFiles.foldl (World.fetch legacy) t with imported := true } := by
        refine hC _ ?_
        rw [← settle_of_not himported hlegacy, settle_settle]
      refine wpOn_bind (wpOn_importFiles hA importedFiles ?_ hcut)
      refine wpOn_bind (wpOn_importStep hA ?_ hall)
      refine wpOn_bind (wpOn_importStep hA ?_ hall)
      exact wpOn_importStep hA hQ hdone

/-- A lookup with nothing left to import. -/
theorem wpOn_state_dir_settled (hA : ¬ A .fail) (hsettled : t.Settled) {Q : Unit → World → Prop}
    {E : String → World → Prop} (hQ : Q () t) (hC : ∀ f, A f → C t) : wpOn A C state_dir Q E t := by
  refine wpOn_ignore (wpOn_bind (wpOn_op hA ?_ (hC _) (hC _)))
  show wpOn _ _ _ _ _ t
  cases himported : t.imported with
  | true => exact wpOn_pure hQ
  | false =>
    have hlegacy : t.legacy = none := hsettled.resolve_left (by simp [himported])
    refine wpOn_bind (wpOn_get hA ?_ hC)
    rw [hlegacy]
    exact wpOn_pure hQ

theorem state_dir_clean (w : World) : (state_dir w []).world = w.settle := by
  have hruns : wpOn (fun _ => False) (fun _ => False) state_dir (fun _ t => t = w.settle)
      (fun _ t => t = w.settle) w := wpOn_state_dir id rfl fun _ _ _ => id
  rcases hruns.ends with ⟨_, t, hrun, rfl⟩ | ⟨_, t, hrun, rfl⟩
  · rw [hrun]
    rfl
  · rw [hrun]
    rfl

theorem wpOn_recoverIdentity (hA : ¬ A .fail) (hsettled : t.Settled) (hC : ∀ f, A f → C t) :
    wpOn A C (recoverIdentity parse target)
      (fun read u => u = t ∧ read = (t.disk.retargetIdentity target).identity ∧
        IdentityPasses parse target t.disk)
      (fun _ u => ¬ IdentityPasses parse target t.disk ∧ u = t) t := by
  refine wpOn_bind (wpOn_state_dir_settled hA hsettled (wpOn_bind (wpOn_get hA ?_ hC)) hC)
  cases hi : t.disk.identity with
  | none =>
    refine wpOn_pure ⟨rfl, ?_, fun i hmem => ?_⟩
    · simp [Disk.retargetIdentity, hi]
    · rw [hi] at hmem
      cases hmem
  | some i =>
    have hload : wpOn A C (load_identity parse) (fun j u => j = i ∧ u = t ∧ i.validate parse = .ok ())
        (fun _ u => i.validate parse ≠ .ok () ∧ u = t) t := by
      refine wpOn_bind (wpOn_state_dir_settled hA hsettled (wpOn_bind (wpOn_readOr hA hi ?_ hC)) hC)
      refine wpOn_bind (wpOn_liftExcept (fun _ hok => wpOn_pure ⟨rfl, rfl, hok⟩) fun e herror => ⟨?_, rfl⟩)
      rw [herror]
      nofun
    refine wpOn_bind (hload.mono (fun j u hj => ?_) (fun _ u hu => ⟨fun hpass => ?_, hu.2⟩) fun _ h => h)
    · obtain ⟨rfl, rfl, hvalid⟩ := hj
      refine wpOn_bind (wpOn_require (fun hallowed => wpOn_pure ⟨rfl, ?_, fun k hk => ?_⟩) fun hrefused _ =>
        ⟨fun hpass => ?_, rfl⟩)
      · simp [Disk.retargetIdentity, hi]
      · obtain rfl := Option.some.inj (hi.symm.trans hk)
        exact ⟨hvalid, hallowed⟩
      · rw [(hpass j hi).2] at hrefused
        cases hrefused
    · exact hu.1 (hpass i hi).1

theorem wpOn_recoverPending (hA : ¬ A .fail) (hsettled : t.Settled) (hC : ∀ f, A f → C t) :
    wpOn A C (recoverPending parse target)
      (fun read u => u = t ∧ read = (t.disk.retargetPairing target).pairing ∧
        PendingPasses parse target t.disk)
      (fun _ u => ¬ PendingPasses parse target t.disk ∧ u = t) t := by
  refine wpOn_bind (wpOn_state_dir_settled hA hsettled (wpOn_bind (wpOn_get hA ?_ hC)) hC)
  cases hp : t.disk.pairing with
  | none =>
    refine wpOn_pure ⟨rfl, ?_, fun p hmem => ?_⟩
    · simp [Disk.retargetPairing, hp]
    · rw [hp] at hmem
      cases hmem
  | some p =>
    refine wpOn_bind (wpOn_readOr hA hp ?_ hC)
    refine wpOn_bind (wpOn_require (fun hallowed => wpOn_pure ⟨rfl, ?_, fun q hq => ?_⟩) fun hrefused _ =>
      ⟨fun hpass => ?_, rfl⟩)
    · simp [Disk.retargetPairing, hp]
    · obtain rfl := Option.some.inj (hp.symm.trans hq)
      exact hallowed
    · rw [hpass p hp] at hrefused
      cases hrefused

theorem wpOn_checkServer (hA : ¬ A .fail) (hsettled : t.Settled) (hC : ∀ f, A f → C t) :
    wpOn A C (checkServer parse target) (fun _ u => u = t ∧ ServerPasses parse target t.disk)
      (fun _ u => ¬ ServerPasses parse target t.disk ∧ u = t) t := by
  refine wpOn_bind (wpOn_state_dir_settled hA hsettled (wpOn_bind (wpOn_read hA ?_ hC)) hC)
  cases hs : t.disk.server with
  | none =>
    refine wpOn_pure ⟨rfl, fun saved hmem => ?_⟩
    rw [hs] at hmem
    cases hmem
  | some saved =>
    refine wpOn_require (fun hallowed => ⟨rfl, fun other hother => ?_⟩) fun hrefused _ =>
      ⟨fun hpass => ?_, rfl⟩
    · obtain rfl := Option.some.inj (hs.symm.trans hother)
      exact hallowed
    · rw [hpass saved hs] at hrefused
      cases hrefused

theorem wpOn_writeIdentity (hA : ¬ A .fail) (hsettled : t.Settled) (hC : ∀ f, A f → C t)
    {E : String → World → Prop} :
    wpOn A C (writeIdentity (t.disk.retargetIdentity target).identity)
      (fun _ u => u = { t with disk := t.disk.retargetIdentity target }) E t := by
  unfold Disk.retargetIdentity
  cases hi : t.disk.identity with
  | none =>
    refine wpOn_pure ?_
    rw [Option.map_none, ← hi]
  | some i => exact wpOn_bind (wpOn_state_dir_settled hA hsettled (wpOn_write hA rfl hC) hC)

theorem wpOn_writePending (hA : ¬ A .fail) (hC : ∀ f, A f → C t) {E : String → World → Prop} :
    wpOn A C (writePending (t.disk.retargetPairing target).pairing)
      (fun _ u => u = { t with disk := t.disk.retargetPairing target }) E t := by
  unfold Disk.retargetPairing
  cases hp : t.disk.pairing with
  | none =>
    refine wpOn_pure ?_
    rw [Option.map_none, ← hp]
  | some p => exact wpOn_write hA rfl hC

/-- A recovery goes through with all checks, or changes nothing, once it has imported what is left. -/
theorem wpOn_recover (hA : ¬ A .fail) (hjournal : w.settle.disk.journal = some target)
    (hC : ∀ f, A f → ∀ t, Resumed parse target w.settle t.settle → C t) :
    wpOn A C (recover_origin_migration parse)
      (fun _ t => Passes parse target w.settle.disk ∧
        t = { w.settle with disk := w.settle.disk.finish target })
      (fun _ t => ¬ Passes parse target w.settle.disk ∧ t = w.settle) w := by
  refine wpOn_bind (wpOn_state_dir hA ?_ fun u hu f hf => hC f hf u (.inl hu))
  have hsettled := settle_settled w
  generalize w.settle = v at *
  have hstart : ∀ f, A f → C v := fun f hf => hC f hf v (.inl (settle_eq hsettled))
  refine wpOn_bind (wpOn_get hA ?_ hstart)
  rw [hjournal]
  refine wpOn_bind (wpOn_readOr hA hjournal ?_ hstart)
  refine wpOn_bind (wpOn_liftExcept (fun url hurl => ?_) fun e he => ⟨fun hpass => ?_, rfl⟩)
  swap
  · obtain ⟨url, hurl, _⟩ := hpass.url
    rw [he] at hurl
    cases hurl
  refine wpOn_bind (wpOn_require (fun hhttps => ?_) fun hscheme _ => ⟨fun hpass => ?_, rfl⟩)
  swap
  · obtain ⟨url', hurl', hhttps⟩ := hpass.url
    obtain rfl := Except.ok.inj (hurl.symm.trans hurl')
    simp [hhttps] at hscheme
  refine wpOn_bind ((wpOn_recoverIdentity hA hsettled hstart).mono (fun identity t ht => ?_)
    (fun _ t ht => ⟨fun hpass => ht.1 hpass.identity, ht.2⟩) fun _ h => h)
  obtain ⟨rfl, rfl, hidentity⟩ := ht
  refine wpOn_bind ((wpOn_recoverPending hA hsettled hstart).mono (fun pending u hu => ?_)
    (fun _ u hu => ⟨fun hpass => hu.1 hpass.pairing, hu.2⟩) fun _ h => h)
  obtain ⟨rfl, rfl, hpairing⟩ := hu
  refine wpOn_bind ((wpOn_checkServer hA hsettled hstart).mono (fun _ v hv => ?_)
    (fun _ v hv => ⟨fun hpass => hv.1 hpass.server, hv.2⟩) fun _ h => h)
  obtain ⟨rfl, hserver⟩ := hv
  have hpass : Passes parse target v.disk :=
    ⟨⟨url, hurl, by simpa using hhttps⟩, hidentity, hpairing, hserver⟩
  -- From here on every world that is left behind is partway to the last one.
  have hsettled' : ∀ e : Disk, World.Settled { v with disk := e } := fun _ => hsettled
  have hpart : ∀ e : Disk, Partway target v.disk e → ∀ f, A f → C { v with disk := e } := by
    intro e he f hf
    refine hC f hf _ ?_
    rw [settle_eq (hsettled' e)]
    exact .inr ⟨hpass, he, rfl⟩
  have hthrough : Partway target v.disk (v.disk.finish target) :=
    ⟨.inr rfl, .inr rfl, .inr rfl, rfl, .inr rfl⟩
  refine wpOn_bind ((wpOn_writeIdentity hA hsettled hstart).mono (fun _ t ht => ?_) (fun _ _ h => h)
    fun _ h => h)
  obtain rfl := ht
  refine wpOn_bind ((wpOn_writePending hA (hpart _ ⟨.inr rfl, .inl rfl, .inl rfl, rfl, .inl rfl⟩)).mono
    (fun _ t ht => ?_) (fun _ _ h => h) fun _ h => h)
  obtain rfl := ht
  have hmoved := hpart ((v.disk.retargetIdentity target).retargetPairing target)
    ⟨.inr rfl, .inr rfl, .inl rfl, rfl, .inl rfl⟩
  have hset := hpart
    { (v.disk.retargetIdentity target).retargetPairing target with server := some target }
    ⟨.inr rfl, .inr rfl, .inr rfl, rfl, .inl rfl⟩
  have hfinish := hpart _ hthrough
  refine wpOn_bind (wpOn_bind (wpOn_state_dir_settled hA (hsettled' _)
    (wpOn_bind (wpOn_write hA ?_ hmoved)) hmoved))
  refine wpOn_bind (wpOn_state_dir_settled hA (hsettled' _) (wpOn_write hA ?_ hset) hset)
  refine wpOn_bind (wpOn_write hA ?_ hset)
  exact wpOn_bind (wpOn_state_dir_settled hA (hsettled' _) (wpOn_write hA ⟨hpass, rfl⟩ hfinish) hfinish)

/-- A recovery without a journal does no more than an import. -/
theorem wpOn_recover_none (hA : ¬ A .fail) (hjournal : w.settle.disk.journal = none)
    (hC : ∀ f, A f → ∀ t, t.settle = w.settle → C t) :
    wpOn A C (recover_origin_migration parse) (fun _ t => t = w.settle) (fun _ t => t = w.settle) w := by
  refine wpOn_bind (wpOn_state_dir hA ?_ fun u hu f hf => hC f hf u hu)
  refine wpOn_bind (wpOn_get hA ?_ fun f hf => hC f hf _ (settle_settle w))
  rw [hjournal]
  exact wpOn_pure rfl

/-- One uninterrupted recovery. -/
theorem recover_clean (parse : Parse) (hjournal : w.settle.disk.journal = some target) :
    Passes parse target w.settle.disk ∧ (recover_origin_migration parse w []).world =
        { w.settle with disk := w.settle.disk.finish target } ∨
      ¬ Passes parse target w.settle.disk ∧ (recover_origin_migration parse w []).world = w.settle := by
  have hruns : wpOn (fun _ => False) (fun _ => False) (recover_origin_migration parse) _ _ w :=
    wpOn_recover id hjournal nofun
  rcases hruns.ends with
    ⟨_, t, hrun, hpass, rfl⟩ | ⟨_, t, hrun, hpass, rfl⟩
  · exact .inl ⟨hpass, by rw [hrun]; rfl⟩
  · exact .inr ⟨hpass, by rw [hrun]; rfl⟩

theorem recover_clean_none (hjournal : w.settle.disk.journal = none) :
    (recover_origin_migration parse w []).world = w.settle := by
  have hruns : wpOn (fun _ => False) (fun _ => False) (recover_origin_migration parse) _ _ w :=
    wpOn_recover_none id hjournal nofun
  rcases hruns.ends with
    ⟨_, t, hrun, rfl⟩ | ⟨_, t, hrun, rfl⟩
  · rw [hrun]
    rfl
  · rw [hrun]
    rfl

/-- Where a recovery leads does not depend on how much had been imported before. -/
theorem recover_settle (w : World) :
    (recover_origin_migration parse w []).world = (recover_origin_migration parse w.settle []).world := by
  cases hjournal : w.settle.disk.journal with
  | none =>
    have hjournal' : w.settle.settle.disk.journal = none := by rw [settle_settle, hjournal]
    rw [recover_clean_none hjournal, recover_clean_none hjournal', settle_settle]
  | some target =>
    have hjournal' : w.settle.settle.disk.journal = some target := by rw [settle_settle, hjournal]
    have hsettle := recover_clean parse hjournal'
    rw [settle_settle] at hsettle
    rcases recover_clean parse hjournal with ⟨hpass, h⟩ | ⟨hpass, h⟩
    · exact h.trans (hsettle.resolve_right fun h' => h'.1 hpass).2.symm
    · exact h.trans (hsettle.resolve_left fun h' => hpass h'.1).2.symm

theorem recover_cut (hjournal : w.settle.disk.journal = some target) (h : CutOff parse w t) :
    Resumed parse target w.settle t.settle := by
  obtain ⟨plan, hplan, rfl⟩ := h
  have hthrough : Partway target w.settle.disk (w.settle.disk.finish target) :=
    ⟨.inr rfl, .inr rfl, .inr rfl, rfl, .inr rfl⟩
  have hsettled : World.Settled { w.settle with disk := w.settle.disk.finish target } :=
    settle_settled w
  have hruns : wpOn (· ≠ .fail) (fun t => Resumed parse target w.settle t.settle)
      (recover_origin_migration parse) _ _ w :=
    wpOn_recover (fun h => h rfl) hjournal fun _ _ _ h => h
  refine (hruns.mono (fun _ t ht => ?_) (fun _ t ht => ?_) fun _ h => h).world hplan
  · rw [ht.2, settle_eq hsettled]
    exact .inr ⟨ht.1, hthrough, rfl⟩
  · rw [ht.2, settle_settle]
    exact .inl rfl

theorem recover_cut_none (hjournal : w.settle.disk.journal = none) (h : CutOff parse w t) :
    t.settle = w.settle := by
  obtain ⟨plan, hplan, rfl⟩ := h
  have hruns : wpOn (· ≠ .fail) (fun t => t.settle = w.settle) (recover_origin_migration parse) _ _ w :=
    wpOn_recover_none (fun h => h rfl) hjournal fun _ _ _ h => h
  have hdone : ∀ t, t = w.settle → t.settle = w.settle := fun t ht => by rw [ht, settle_settle]
  exact (hruns.mono (fun _ => hdone) (fun _ => hdone) fun _ h => h).world hplan

theorem Resumed.step (hjournal : w.settle.disk.journal = some target)
    (h : Resumed parse target w.settle t.settle) (hcut : CutOff parse t u) :
    Resumed parse target w.settle u.settle := by
  rcases h with heq | ⟨hpass, hpart, ht⟩
  · rw [← heq] at hjournal ⊢
    exact recover_cut hjournal hcut
  · rcases hpart.journal with hj | hj
    · rcases recover_cut (hj.trans hjournal) hcut with heq | ⟨_, hpart', hu⟩
      · rw [heq]
        exact .inr ⟨hpass, hpart, ht⟩
      · refine .inr ⟨hpass, hpart.trans hj hpart', ?_⟩
        rw [hu, ht]
    · rw [recover_cut_none (hj ▸ rfl) hcut]
      exact .inr ⟨hpass, hpart, ht⟩

/-- Wherever recoveries were cut off, the next one ends as the first would have. -/
theorem Resumed.ends (htarget : OriginText parse target) (hjournal : w.settle.disk.journal = some target)
    (h : Resumed parse target w.settle t.settle) :
    (recover_origin_migration parse t []).world = (recover_origin_migration parse w []).world := by
  rcases h with heq | ⟨hpass, hpart, ht⟩
  · rw [recover_settle t, heq, ← recover_settle w]
  · have hw := (recover_clean parse hjournal).resolve_right fun h => h.1 hpass
    rw [hw.2]
    rcases hpart.journal with hj | hj
    · rcases recover_clean parse (hj.trans hjournal) with h | h
      · rw [h.2, hpart.finish_eq, ht]
      · exact absurd (hpass.partway htarget hpart) h.1
    · rw [recover_clean_none (hj ▸ rfl), ht, hj]

theorem resumed_of_cuts (hjournal : w.settle.disk.journal = some target)
    (h : Resumed parse target w.settle t.settle) (hcuts : Relation.ReflTransGen (CutOff parse) t u) :
    Resumed parse target w.settle u.settle := by
  induction hcuts with
  | refl => exact h
  | tail _ hcut ih => exact ih.step hjournal hcut

/-- Where a migration from `origin` leads. -/
def migrationTarget (parse : Parse) (origin : String) (discovered : Except String String) : Option String :=
  if needs_regional_migration parse origin then
    match discovered.bind (discovery_probe parse) with
    | .ok url => if url.scheme = "https" ∧ url.origin ≠ origin then some url.origin else none
    | .error _ => none
  else none

/-- A migration that finds no journal does no more than an import, or writes one and recovers. -/
theorem wpOn_migrate {origin : String} {discovered : Except String String} (hA : ¬ A .fail)
    (hjournal : w.settle.disk.journal = none) (hC : ∀ f, A f → ∀ t, t.settle = w.settle → C t)
    (hC' : ∀ target ∈ migrationTarget parse origin discovered, ∀ f, A f →
      ∀ t, Resumed parse target (w.settle.writeJournal target) t.settle → C t)
    {Q : World → Prop}
    (hneeds : needs_regional_migration parse origin = true)
    (hnone : migrationTarget parse origin discovered = none → Q w.settle)
    (hgo : ∀ target ∈ migrationTarget parse origin discovered, Passes parse target w.settle.disk →
      Q { w.settle.writeJournal target with disk := w.settle.disk.finish target })
    (hstay : ∀ target ∈ migrationTarget parse origin discovered,
      ¬ Passes parse target w.settle.disk → Q (w.settle.writeJournal target)) :
    wpOn A C (migrate_canonical_origin_with parse origin discovered) (fun _ => Q) (fun _ => Q) w := by
  unfold migrationTarget at hC' hnone hgo hstay
  unfold migrate_canonical_origin_with
  rw [if_pos hneeds] at hC' hnone hgo hstay ⊢
  refine wpOn_bind (wpOn_state_dir hA ?_ fun u hu f hf => hC f hf u hu)
  have hsettled := settle_settled w
  generalize w.settle = v at *
  have hstart : ∀ f, A f → C v := fun f hf => hC f hf v (settle_eq hsettled)
  refine wpOn_bind (wpOn_get hA ?_ hstart)
  rw [hjournal]
  cases hprobe : discovered.bind (discovery_probe parse) with
  | error e =>
    rw [hprobe] at hnone
    exact wpOn_bind (wpOn_throw (hnone rfl))
  | ok url =>
    rw [hprobe] at hC' hnone hgo hstay
    refine wpOn_bind (wpOn_pure (wpOn_bind (wpOn_require (fun hhttps => ?_)
      fun hscheme _ => hnone (if_neg fun h => ?_))))
    · have hhttps : url.scheme = "https" := by simpa using hhttps
      split
      · next hsame => exact wpOn_pure (hnone (if_neg fun h => h.2 hsame))
      · next hother =>
        have hmem : url.origin ∈
            if url.scheme = "https" ∧ url.origin ≠ origin then some url.origin else none :=
          if_pos ⟨hhttps, hother⟩
        refine wpOn_bind (wpOn_state_dir_settled hA hsettled
          (wpOn_bind (wpOn_write hA ?_ hstart)) hstart)
        have hwritten : (v.writeJournal url.origin).settle = v.writeJournal url.origin :=
          settle_eq (by exact hsettled)
        have hrecover : wpOn A C (recover_origin_migration parse) _ _ (v.writeJournal url.origin) :=
          wpOn_recover hA (by rw [hwritten]; rfl) (by rw [hwritten]; exact hC' _ hmem)
        rw [hwritten] at hrecover
        refine wpOn_bind (hrecover.mono (fun _ t ht => wpOn_pure ?_) (fun _ t ht => ?_) fun _ h => h)
        · exact ht.2 ▸ hgo _ hmem ⟨ht.1.url, ht.1.identity, ht.1.pairing, ht.1.server⟩
        · exact ht.2 ▸ hstay _ hmem fun hpass =>
            ht.1 ⟨hpass.url, hpass.identity, hpass.pairing, hpass.server⟩
    · simp [h.1] at hscheme

/-- A migration that finds a journal recovers. -/
theorem wpOn_migrate_found {origin : String} {discovered : Except String String} (hA : ¬ A .fail)
    (hneeds : needs_regional_migration parse origin = true)
    (hjournal : w.settle.disk.journal = some target)
    (hC : ∀ f, A f → ∀ t, Resumed parse target w.settle t.settle → C t) :
    wpOn A C (migrate_canonical_origin_with parse origin discovered)
      (fun _ t => t = (recover_origin_migration parse w []).world)
      (fun _ t => t = (recover_origin_migration parse w []).world) w := by
  have hclean := recover_clean parse hjournal
  rw [recover_settle w]
  rw [recover_settle w] at hclean
  unfold migrate_canonical_origin_with
  rw [if_pos hneeds]
  refine wpOn_bind (wpOn_state_dir hA ?_ fun u hu f hf => hC f hf u (.inl hu))
  have hsettled := settle_settled w
  generalize w.settle = v at *
  have hv : v.settle = v := settle_eq hsettled
  refine wpOn_bind (wpOn_get hA ?_ fun f hf => hC f hf v (.inl hv))
  rw [hjournal]
  have hrecover : wpOn A C (recover_origin_migration parse) _ _ v :=
    wpOn_recover hA (by rw [hv, hjournal]) (by rw [hv]; exact hC)
  rw [hv] at hrecover
  refine wpOn_bind (hrecover.mono (fun _ t ht => ?_) (fun _ t ht => ?_) fun _ h => h)
  · obtain ⟨hpass, rfl⟩ := ht
    have hsettled' : World.Settled { v with disk := v.disk.finish target } := hsettled
    have hend := (hclean.resolve_right fun h => h.1 hpass).2
    have hfinish : ∀ f, A f → C { v with disk := v.disk.finish target } := by
      intro f hf
      refine hC f hf _ ?_
      rw [settle_eq hsettled']
      exact .inr ⟨hpass, ⟨.inr rfl, .inr rfl, .inr rfl, rfl, .inr rfl⟩, rfl⟩
    refine wpOn_bind (wpOn_state_dir_settled hA hsettled' ?_ hfinish)
    exact wpOn_readOr hA rfl hend.symm hfinish
  · obtain ⟨hpass, rfl⟩ := ht
    exact (hclean.resolve_left fun h => hpass h.1).2.symm

/-- A migration that is cut off anywhere once its journal is there, and then recovered, ends as one
that is not. -/
theorem migrate_resumed {origin : String} {discovered : Except String String} {plan : List Fault}
    (hneeds : needs_regional_migration parse origin = true)
    (htarget : ∀ target ∈ w.found.or (migrationTarget parse origin discovered),
      OriginText parse target)
    (hplan : ∀ f ∈ plan, f ≠ .fail)
    (ht : t = (migrate_canonical_origin_with parse origin discovered w plan).world)
    (hcuts : Relation.ReflTransGen (CutOff parse) t u) :
    w.found = none ∧ t.settle = w.settle ∨ (recover_origin_migration parse u []).world =
      (migrate_canonical_origin_with parse origin discovered w []).world := by
  have hends : ∀ {Q : World → Prop}, wpOn (fun _ => False) (fun _ => False)
      (migrate_canonical_origin_with parse origin discovered) (fun _ => Q) (fun _ => Q) w →
      Q (migrate_canonical_origin_with parse origin discovered w []).world := by
    intro Q h
    rcases h.ends with ⟨_, t, hrun, hQ⟩ | ⟨_, t, hrun, hQ⟩
    · rw [hrun]
      exact hQ
    · rw [hrun]
      exact hQ
  cases hfound : w.found with
  | some target =>
    have hjournal : w.settle.disk.journal = some target := (settle_journal w).trans hfound
    have htext : OriginText parse target := htarget target (by rw [hfound]; rfl)
    have hruns : wpOn (· ≠ .fail) (fun t => Resumed parse target w.settle t.settle)
        (migrate_canonical_origin_with parse origin discovered) _ _ w :=
      wpOn_migrate_found (fun h => h rfl) hneeds hjournal fun _ _ _ h => h
    have hcut : Resumed parse target w.settle t.settle := by
      have hdone : Resumed parse target w.settle (recover_origin_migration parse w []).world.settle :=
        recover_cut hjournal ⟨[], nofun, rfl⟩
      rw [ht]
      exact (hruns.mono (fun _ _ h => h ▸ hdone) (fun _ _ h => h ▸ hdone) fun _ h => h).world hplan
    have hresumed := resumed_of_cuts hjournal hcut hcuts
    refine .inr ((hresumed.ends htext hjournal).trans ?_)
    exact (hends (wpOn_migrate_found id hneeds hjournal nofun)).symm
  | none =>
    have hjournal : w.settle.disk.journal = none := (settle_journal w).trans hfound
    have htarget : ∀ target ∈ migrationTarget parse origin discovered, OriginText parse target := by
      rw [hfound] at htarget
      exact htarget
    have hdone : ∀ target : String,
        w.settle.disk.finish target = (w.settle.writeJournal target).disk.finish target := fun _ => rfl
    have hpasses : ∀ {target : String}, Passes parse target w.settle.disk →
        Passes parse target (w.settle.writeJournal target).disk := fun h =>
      ⟨h.url, h.identity, h.pairing, h.server⟩
    have hthrough : ∀ target,
        Partway target (w.settle.writeJournal target).disk (w.settle.disk.finish target) := fun _ =>
      ⟨.inr rfl, .inr rfl, .inr rfl, rfl, .inr rfl⟩
    have hwritten : ∀ (target : String) (d : Disk),
        World.Settled { w.settle.writeJournal target with disk := d } := fun _ _ => settle_settled w
    have hjournal' : ∀ target,
        (w.settle.writeJournal target).settle.disk.journal = some target := fun target => by
      rw [settle_eq (hwritten target _)]
      rfl
    have hcut : t.settle = w.settle ∨ ∃ target ∈ migrationTarget parse origin discovered,
        Resumed parse target (w.settle.writeJournal target).settle t.settle := by
      rw [ht]
      refine (wpOn_migrate (A := (· ≠ .fail))
        (C := fun t => t.settle = w.settle ∨ ∃ target ∈ migrationTarget parse origin discovered,
          Resumed parse target (w.settle.writeJournal target).settle t.settle)
        (fun h => h rfl) hjournal (fun _ _ _ h => .inl h) (fun target hmem _ _ t h => ?_) hneeds
        (fun _ => .inl (settle_settle w)) (fun target hmem hpass => ?_)
        fun target hmem _ => ?_).world hplan
      · exact .inr ⟨target, hmem, by rw [settle_eq (hwritten target _)]; exact h⟩
      · refine .inr ⟨target, hmem, ?_⟩
        rw [settle_eq (hwritten target _), settle_eq (hwritten target _)]
        exact .inr ⟨hpasses hpass, hthrough target, rfl⟩
      · exact .inr ⟨target, hmem, .inl rfl⟩
    rcases hcut with hcut | ⟨target, hmem, hcut⟩
    · exact .inl ⟨rfl, hcut⟩
    · have hresumed := resumed_of_cuts (hjournal' target) hcut hcuts
      refine .inr ((hresumed.ends (htarget target hmem) (hjournal' target)).trans ?_)
      have hsame : ∀ target', target' ∈ migrationTarget parse origin discovered → target' = target :=
        fun target' hmem' => Option.some.inj (hmem'.symm.trans hmem)
      have hclean := recover_clean parse (hjournal' target)
      rw [settle_eq (hwritten target _)] at hclean
      refine (hends (Q := (· = (recover_origin_migration parse (w.settle.writeJournal target) []).world))
        (wpOn_migrate id hjournal nofun (fun _ _ => nofun) hneeds (fun h => ?_)
          (fun target' hmem' hpass => ?_) fun target' hmem' hpass => ?_)).symm
      · rw [h] at hmem
        cases hmem
      · obtain rfl := hsame target' hmem'
        rcases hclean with h | h
        · rw [h.2, hdone]
        · exact absurd (hpasses hpass) h.1
      · obtain rfl := hsame target' hmem'
        rcases hclean with h | h
        · exact absurd ⟨h.1.url, h.1.identity, h.1.pairing, h.1.server⟩ hpass
        · exact h.2.symm

end Resuming

/-- Whatever is cut off or fails, migrations lose no record and change nothing but origins. Unless an
operation of an import fails, a journal that was removed stays away, a recovery that returns has moved
every record, and one that was cut off is resumed as if it had not been. -/
theorem migration_safe (parse : Parse) (disk : Disk) (legacy : Option Disk) (imported : Bool)
    (before after : List (Attempt × List Fault)) :
    let w := run parse (.init disk legacy imported) before
    let t := run parse w after
    Kept w t ∧
      (t.missed = 0 → t.written = w.written → w.targets ≠ [] → w.disk.journal = none →
        t.disk.journal = none) ∧
      (∀ plan u rest, recover_origin_migration parse w plan = .done () u rest →
        u.missed = w.missed → u.disk.journal = none ∧ ∀ target ∈ w.found, Carries target u.disk) ∧
      (∀ target ∈ w.found, OriginText parse target →
        ∀ u, Relation.ReflTransGen (CutOff parse) w u →
          (recover_origin_migration parse u []).world =
            (recover_origin_migration parse w []).world) ∧
      ∀ origin discovered, needs_regional_migration parse origin = true →
        (∀ target ∈ w.found.or (migrationTarget parse origin discovered), OriginText parse target) →
        ∀ plan u v, (∀ f ∈ plan, f ≠ .fail) →
          u = (migrate_canonical_origin_with parse origin discovered w plan).world →
          Relation.ReflTransGen (CutOff parse) u v →
            w.found = none ∧ (state_dir u []).world = (state_dir w []).world ∨
              (recover_origin_migration parse v []).world =
                (migrate_canonical_origin_with parse origin discovered w []).world := by
  intro w t
  have hinit : ∀ j ∈ disk.journal, j ∈ disk.journal.toList := fun j hj => Option.mem_toList.2 hj
  have hreached : Kept (.init disk legacy imported) w := run_kept before hinit
  have hknown : ∀ j ∈ w.disk.journal, j ∈ w.targets := hreached.known hinit
  have hretired : w.Retired := hreached.retired fun _ htargets hnone => by
    have hnone : disk.journal = none := hnone
    exact absurd (by rw [World.init, hnone]; rfl) htargets
  have hkept : Kept w t := run_kept after hknown
  refine ⟨hkept, fun hmissed hwritten htargets hnone => ?_, fun plan u rest hrun hmissed => ?_,
    fun target hfound htarget u hcuts => ?_,
    fun origin discovered hneeds htarget plan u v hplan hu hcuts => ?_⟩
  · have hle := hkept.missed
    have hsettled : w.Settled := hretired (by omega) htargets hnone
    rcases hkept.journal hwritten with hj | hj | ⟨hcause, _⟩
    · exact hj
    · exact hj.trans hnone
    · rcases hcause with hnot | hlt
      · exact absurd hsettled hnot
      · omega
  · have hruns : wp _ (recover_origin_migration parse) _ _ w := wp_recover_origin_migration hknown
    have hends := hruns plan
    rw [hrun] at hends
    exact hends.2 hmissed
  · have hjournal : w.settle.disk.journal = some target := (settle_journal w).trans hfound
    exact (resumed_of_cuts hjournal (.inl rfl) hcuts).ends htarget hjournal
  · rw [state_dir_clean, state_dir_clean]
    exact migrate_resumed hneeds htarget hplan hu hcuts

/-- A URL library that knows two origins. -/
def parseTwo : Parse := fun text =>
  if text = CANONICAL_SERVER_URL ∨ text = "https://eu.example" then
    some ⟨"https", "", none, some "host", false, "/", none, none, text⟩
  else none

def emptyDisk : Disk := ⟨none, none, none, none, fun _ => none⟩

def pairedDisk : Disk :=
  { emptyDisk with
    identity := some ⟨false, 1, CANONICAL_SERVER_URL, "kiosk", "Hall", "key", some "cluster", none, "", none⟩
    server := some CANONICAL_SERVER_URL }

/-- The import of a paired device in the midst of a migration, which dies before it copies the
journal. -/
def cutImport : World :=
  run parseTwo (.init emptyDisk (some { pairedDisk with journal := some "https://eu.example" }) false)
    [(.lookup, List.replicate 6 .ok ++ [.crash])]

/-- The recovery goes on with the import, and what it removes is not imported once more. -/
theorem migration_safe_cut :
    let t := run parseTwo cutImport [(.recover, [])]
    cutImport.disk.journal = none ∧ Carries "https://eu.example" t.disk ∧
      (run parseTwo t [(.lookup, [])]).disk.journal = none := by
  have hsafe := migration_safe parseTwo emptyDisk
    (some { pairedDisk with journal := some "https://eu.example" }) false
  intro t
  refine ⟨rfl, ?_, ?_⟩
  · exact ((hsafe [(.lookup, List.replicate 6 .ok ++ [.crash])] []).2.2.1 [] t [] rfl rfl).2 _ rfl
  · have hgone := (hsafe ([(.lookup, List.replicate 6 .ok ++ [.crash])] ++ [(.recover, [])])
      [(.lookup, [])]).2.1
    have happend (l l' : List (Attempt × List Fault)) (w : World) :
        run parseTwo w (l ++ l') = run parseTwo (run parseTwo w l) l' := List.foldl_append
    rw [happend] at hgone
    exact hgone (by decide +kernel) (by decide +kernel) (by decide +kernel) (by decide +kernel)

/-- An origin that no journal has named is saved in the place of another. -/
theorem discovered_origin_saved : ¬ ∀ (parse : Parse) (disk : Disk) (legacy : Option Disk) (imported : Bool)
    (attempts : List (Attempt × List Fault)),
    let w := run parse (.init disk legacy imported) attempts
    ∀ origin ∈ w.disk.server, origin ∈ disk.server.or (legacy.bind (·.server)) ∨ origin ∈ w.targets := by
  intro h
  have hsaved := h parseTwo { pairedDisk with identity := none } none true
    [(.discover (some (.ok "https://eu.example")) [], [])] "https://eu.example" rfl
  rcases hsaved with hsame | hnamed
  · exact absurd (Option.some.inj hsame) (by decide)
  · cases hnamed

end OriginMigration
