import Mathlib.Data.List.Nodup
import BetterFrame.Lib.Run
import BetterFrame.Lib.Text

/-!
# Operator stations (operator_console.rs)

Every call changes the stations in memory and then writes them to a file, which may fail, and a
restart goes back to the file. `sound_iff` says for which runs a code is good for one guess and a
revoked station stays out.
-/

namespace OperatorStations

open Machine
open Text (trimWhitespaceChars hexOfBytes)

/-! ### The store -/

/-- A station that was enrolled. -/
structure StationRecord where
  id : String
  name : String
  token_hash : String
  created_at : Nat
  revoked : Bool
deriving DecidableEq

/-- An offer: the hash of its code, until it expires. -/
structure PendingEnrollment where
  name : String
  code_hash : String
  expires_at : Nat
deriving DecidableEq

/-- What is in the file. -/
structure StationStore where
  stations : List StationRecord
  pending : Option PendingEnrollment
deriving DecidableEq

structure EnrollmentInfo where
  code : String
  expires_at : Nat

/-- What a station is told when it is enrolled. -/
structure EnrolledStation where
  id : String
  name : String
  token : String
deriving DecidableEq

/-- SHA-256 without collisions. -/
structure Platform where
  sha256 : String → List UInt8
  injective : Function.Injective sha256

/-- The store in memory and the one in the file, where a missing file is an empty store. -/
structure Stores where
  memory : StationStore
  file : StationStore
deriving DecidableEq

def CODE_ALPHABET : List Char := "ABCDEFGHJKLMNPQRSTUVWXYZ23456789".toList

def CODE_TTL_SECONDS : Nat := 600

/-- The enrollment code drawn from random bytes. -/
def codeOf (random : List UInt8) : String :=
  String.ofList (random.map fun byte => CODE_ALPHABET.getD (byte.toNat % CODE_ALPHABET.length) 'A')

/-- `saturating_add` of `u64` -/
def saturatingAdd (a b : Nat) : Nat := min (a + b) (2 ^ 64 - 1)

/-- `code.trim().to_ascii_uppercase()` -/
def normalized (code : String) : String := String.ofList ((trimWhitespaceChars code.toList).map Char.toUpper)

/-- `persist`; a write that fails says why. -/
def persist (fault : Option String) (s : Stores) : Except String Unit × Stores :=
  match fault with
  | none => (.ok (), { s with file := s.memory })
  | some err => (.error ("station persist failed: " ++ err), s)

/-- A restart: memory is what the file holds. -/
def load (s : Stores) : Stores := { s with memory := s.file }

section Calls

variable (P : Platform)

def digest (value : String) : String := String.ofList (hexOfBytes (P.sha256 value))

/-- The pending enrollment: the name cut to 128 characters, the code's digest and the expiry. -/
def offerOf (name : String) (random : List UInt8) (now : Nat) : PendingEnrollment :=
  ⟨String.ofList ((trimWhitespaceChars name.toList).take 128), digest P (codeOf random),
    saturatingAdd now CODE_TTL_SECONDS⟩

/-- Opens an enrollment in place of any pending one. -/
def create_enrollment (name : String) (random : List UInt8) (now : Nat) (fault : Option String) (s : Stores) :
    Except String EnrollmentInfo × Stores :=
  match persist fault { s with memory := { s.memory with pending := some (offerOf P name random now) } } with
  | (.ok (), s) => (.ok ⟨codeOf random, saturatingAdd now CODE_TTL_SECONDS⟩, s)
  | (.error err, s) => (.error err, s)

def tokenOf (tokenBytes : List UInt8) : String := "bfs_" ++ String.ofList (hexOfBytes tokenBytes)

def idOf (idBytes : List UInt8) : String := String.ofList (hexOfBytes idBytes)

def stationName (pending : PendingEnrollment) : String :=
  if Text.trimWhitespace pending.name = "" then "Operator station" else pending.name

/-- Redeems a code: the pending enrollment is consumed and a station with a fresh token added. -/
def enroll (code : String) (idBytes tokenBytes : List UInt8) (now createdAt : Nat)
    (fault : Option String) (s : Stores) :
    Except String EnrolledStation × Stores :=
  match s.memory.pending with
  | none => (.error "no enrollment is pending", s)
  | some pending =>
    if pending.expires_at < now ∨ pending.code_hash ≠ digest P (normalized code) then
      match persist fault { s with memory := { s.memory with pending := none } } with
      | (.ok (), s) => (.error "invalid or expired station code", s)
      | (.error err, s) => (.error err, s)
    else
      let station : StationRecord :=
        ⟨idOf idBytes, stationName pending, digest P (tokenOf tokenBytes), createdAt, false⟩
      match persist fault { s with memory := ⟨s.memory.stations ++ [station], none⟩ } with
      | (.ok (), s) => (.ok ⟨idOf idBytes, stationName pending, tokenOf tokenBytes⟩, s)
      | (.error err, s) => (.error err, s)

/-- A token of a station that is not revoked. -/
def verify (store : StationStore) (token : String) : Bool :=
  store.stations.any fun station => !station.revoked && station.token_hash = digest P token

end Calls

/-- The first station with the id is marked. -/
def markRevoked (id : String) : List StationRecord → List StationRecord
  | [] => []
  | station :: stations =>
    if station.id = id then { station with revoked := true } :: stations
    else station :: markRevoked id stations

/-- Marks a station revoked, once it is found. -/
def revoke (id : String) (fault : Option String) (s : Stores) : Except String Unit × Stores :=
  if (s.memory.stations.find? fun station => station.id = id).isNone then (.error "station not found", s)
  else persist fault { s with memory := { s.memory with stations := markRevoked id s.memory.stations } }

/-! ### Runs -/

/-- What the operator and the stations are told: a code that was created, and an enroll with the
station it created. -/
inductive Event where
  | created (code : String) (expires_at : Nat)
  | tried (code : String) (now : Nat) (station : Option String)
deriving DecidableEq

/-- The stores, and what has happened: the codes and guesses in order, the stations told to their
owners, the revocations that were acknowledged, and whether the last call failed to persist. -/
structure State where
  stores : Stores
  log : List Event
  issued : List EnrolledStation
  revoked : List String
  failed : Bool
deriving DecidableEq

def State.memory (s : State) : StationStore := s.stores.memory

def State.file (s : State) : StationStore := s.stores.file

/-- A call, with the random bytes it draws and the fault of its file operation. -/
inductive Label where
  | create_enrollment (name : String) (random : List UInt8) (now : Nat) (fault : Option String)
  | enroll (code : String) (idBytes tokenBytes : List UInt8) (now createdAt : Nat) (fault : Option String)
  | verify (token : String)
  | revoke (id : String) (fault : Option String)
  | restart

section Runs

variable (P : Platform)

/-- The random numbers are those of no stored station. -/
def Fresh (store : StationStore) (idBytes tokenBytes : List UInt8) : Prop :=
  ∀ station ∈ store.stations, station.id ≠ idOf idBytes ∧ station.token_hash ≠ digest P (tokenOf tokenBytes)

instance (store : StationStore) (idBytes tokenBytes : List UInt8) :
    Decidable (Fresh P store idBytes tokenBytes) :=
  inferInstanceAs (Decidable (∀ station ∈ store.stations, _))

/-- The history after `create_enrollment`. -/
def afterCreate (s : State) : Except String EnrollmentInfo × Stores → State
  | (.ok info, stores) =>
    { s with stores := stores, log := s.log ++ [.created info.code info.expires_at], failed := false }
  | (.error _, stores) => { s with stores := stores, failed := true }

/-- Whether a failed enroll failed to persist is told from the fault. -/
def afterEnroll (s : State) (code : String) (now : Nat) (fault : Option String) :
    Except String EnrolledStation × Stores → State
  | (.ok station, stores) =>
    { s with
      stores := stores, log := s.log ++ [.tried code now (some station.id)],
      issued := s.issued ++ [station], failed := false }
  | (.error _, stores) =>
    { s with stores := stores, log := s.log ++ [.tried code now none], failed := fault.isSome &&
      s.memory.pending.isSome }

/-- The history after `revoke`. -/
def afterRevoke (s : State) (id : String) (fault : Option String) : Except String Unit × Stores → State
  | (.ok (), stores) => { s with stores := stores, revoked := id :: s.revoked, failed := false }
  | (.error _, stores) =>
    { s with stores := stores, failed := fault.isSome &&
      (s.memory.stations.find? fun station => station.id = id).isSome }

def step (s : State) : Label → Option State
  | .create_enrollment name random now fault =>
    some (afterCreate s (create_enrollment P name random now fault s.stores))
  | .enroll code idBytes tokenBytes now createdAt fault =>
    if Fresh P s.memory idBytes tokenBytes then
      some (afterEnroll s code now fault (enroll P code idBytes tokenBytes now createdAt fault s.stores))
    else none
  | .verify _ => some { s with failed := false }
  | .revoke id fault => some (afterRevoke s id fault (revoke id fault s.stores))
  | .restart => some { s with stores := load s.stores, failed := false }

def init : State := ⟨⟨⟨[], none⟩, ⟨[], none⟩⟩, [], [], [], false⟩

/-! ### What is asked of a run -/

/-- What holds after a call. -/
structure Sound (s : State) : Prop where
  /-- A guess that creates a station comes right after the creation of its code, and not after its expiry. -/
  once : ∀ before code now id after, s.log = before ++ .tried code now (some id) :: after →
    ∃ earlier offer expires_at, before = earlier ++ [.created offer expires_at] ∧
      normalized code = offer ∧ now ≤ expires_at
  /-- Two stations come from two codes. -/
  single : ∀ before code now id between code' now' id' after,
    s.log = before ++ .tried code now (some id) :: (between ++ .tried code' now' (some id') :: after) →
      ∃ offer expires_at, Event.created offer expires_at ∈ between
  stored : ∀ station ∈ s.memory.stations, ∃ code now, Event.tried code now (some station.id) ∈ s.log
  verifies : ∀ token, verify P s.memory token = true ↔
    ∃ e ∈ s.issued, e.token = token ∧ ∃ station ∈ s.memory.stations, station.id = e.id ∧
      station.revoked = false
  revoked : ∀ id ∈ s.revoked, ∀ e ∈ s.issued, e.id = id → verify P s.memory e.token = false
  /-- A call that fails to persist leaves in memory what a restart would load. -/
  synced : s.failed = true → s.stores = load s.stores

/-- A write that fails leaves nothing in memory that the file does not have. -/
def Harmless (s : State) : Label → Prop
  | .create_enrollment name random now (some _) => s.memory.pending = some (offerOf P name random now)
  | .enroll _ _ _ _ _ (some _) => s.memory.pending = none
  | .revoke id (some _) =>
    ∀ station ∈ s.memory.stations.find? fun station => station.id = id, station.revoked = true
  | _ => True

instance : ∀ (s : State) (l : Label), Decidable (Harmless P s l)
  | s, .create_enrollment name random now (some _) =>
    inferInstanceAs (Decidable (s.memory.pending = some (offerOf P name random now)))
  | s, .enroll _ _ _ _ _ (some _) => inferInstanceAs (Decidable (s.memory.pending = none))
  | s, .revoke id (some _) =>
    inferInstanceAs (Decidable (∀ station ∈ s.memory.stations.find? fun station => station.id = id,
      station.revoked = true))
  | _, .create_enrollment _ _ _ none | _, .enroll _ _ _ _ _ none | _, .revoke _ none | _,
    .verify _ | _, .restart => .isTrue trivial

end Runs

/-! ### The log -/

section Logs

variable {log before after : List Event} {code : String} {now : Nat} {id : String}

theorem split_concat {α : Type*} {l a b : List α} {x y : α} (h : l ++ [x] = a ++ y :: b) :
    (b = [] ∧ l = a ∧ x = y) ∨ ∃ rest, b = rest ++ [x] ∧ l = a ++ y :: rest := by
  rcases List.eq_nil_or_concat b with rfl | ⟨rest, z, rfl⟩
  · obtain ⟨rfl, hlast⟩ := List.append_inj' h rfl
    exact .inl ⟨rfl, rfl, List.singleton_inj.1 hlast⟩
  · rw [List.concat_eq_append, ← List.cons_append, ← List.append_assoc] at h
    obtain ⟨rfl, hlast⟩ := List.append_inj' h rfl
    rw [List.singleton_inj.1 hlast, List.concat_eq_append]
    exact .inr ⟨rest, rfl, rfl⟩

/-- The guesses that create a station come right after their codes. -/
def Once (log : List Event) : Prop := ∀ before code now id after, log = before ++ .tried code now
  (some id) :: after →
  ∃ earlier offer expires_at, before = earlier ++ [.created offer expires_at] ∧
    normalized code = offer ∧ now ≤ expires_at

theorem Once.concat {e : Event} (h : Once log) (he : ∀ code now id, e ≠ .tried code now (some id)) :
    Once (log ++ [e]) := by
  intro before code now id after heq
  rcases split_concat heq with ⟨-, -, rfl⟩ | ⟨rest, -, hlog⟩
  · exact absurd rfl (he code now id)
  · exact h before code now id rest hlog

theorem Once.station {earlier : List Event} {expires_at : Nat} (h : Once log)
    (hlog : log = earlier ++ [.created (normalized code) expires_at])
    (hnow : now ≤ expires_at) : Once (log ++ [.tried code now (some id)]) := by
  intro before code' now' id' after heq
  rcases split_concat heq with ⟨-, rfl, hsame⟩ | ⟨rest, -, hrest⟩
  · obtain ⟨rfl, rfl, -⟩ := Event.tried.inj hsame
    exact ⟨earlier, _, expires_at, hlog, rfl, hnow⟩
  · exact h before code' now' id' rest hrest

/-- Between two such guesses a code is created. -/
theorem Once.single (h : Once log) {between : List Event} {code' : String} {now' : Nat} {id' : String}
    (heq : log = before ++ .tried code now (some id) :: (between ++ .tried code' now' (some id') :: after)) :
    ∃ offer expires_at, Event.created offer expires_at ∈ between := by
  obtain ⟨earlier, offer, expires_at, hbefore, -, -⟩ :=
    h (before ++ .tried code now (some id) :: between) code' now' id' after (by simp [heq])
  refine ⟨offer, expires_at, ?_⟩
  rcases split_concat hbefore.symm with ⟨-, -, hsame⟩ | ⟨rest, rfl, -⟩
  · cases hsame
  · simp

end Logs

/-! ### What every harmless call preserves -/

section Preserves

variable {P : Platform} {s t : State} {l : Label}

/-- The file is what is in memory, and both are what the log says was created, enrolled and revoked.
-/
structure Inv (P : Platform) (s : State) : Prop where
  synced : s.file = s.memory
  /-- The pending offer is the last thing that happened. -/
  pending : ∀ offer ∈ s.memory.pending, ∃ earlier code, s.log = earlier ++
    [.created code offer.expires_at] ∧ offer.code_hash = digest P code
  once : Once s.log
  logged : ∀ station ∈ s.memory.stations, ∃ code now, Event.tried code now (some station.id) ∈ s.log
  told : ∀ station ∈ s.memory.stations, ∃ e ∈ s.issued, e.id = station.id ∧
    station.token_hash = digest P e.token
  kept : ∀ e ∈ s.issued, ∃ station ∈ s.memory.stations, station.id = e.id ∧
    station.token_hash = digest P e.token
  ids : (s.memory.stations.map (·.id)).Nodup
  hashes : (s.memory.stations.map (·.token_hash)).Nodup
  revoked : ∀ id ∈ s.revoked, ∃ station ∈ s.memory.stations, station.id = id ∧ station.revoked = true

theorem digest_inj {a b : String} (h : digest P a = digest P b) : a = b := by
  have hlist : hexOfBytes (P.sha256 a) = hexOfBytes (P.sha256 b) := String.ofList_inj.1 h
  have hbytes := congrArg Text.bytesOfHex hlist
  rw [Text.bytesOfHex_hexOfBytes, Text.bytesOfHex_hexOfBytes] at hbytes
  exact P.injective hbytes

theorem inv_init (P : Platform) : Inv P init where
  synced := rfl
  pending := by simp [init, State.memory]
  once := by simp [Once, init]
  logged := by simp [init, State.memory]
  told := by simp [init, State.memory]
  kept := by simp [init]
  ids := List.nodup_nil
  hashes := List.nodup_nil
  revoked := by simp [init]

theorem verify_iff {store : StationStore} {token : String} : verify P store token = true ↔
    ∃ station ∈ store.stations, station.revoked = false ∧ station.token_hash = digest P token := by
  simp [verify]

theorem Inv.sound (h : Inv P s) : Sound P s where
  once := h.once
  single := fun _ _ _ _ _ _ _ _ _ heq => h.once.single heq
  stored := h.logged
  verifies := by
    intro token
    rw [verify_iff]
    constructor
    · rintro ⟨station, hmem, hlive, hhash⟩
      obtain ⟨e, he, hid, htoken⟩ := h.told station hmem
      exact ⟨e, he, digest_inj (htoken.symm.trans hhash), station, hmem, hid.symm, hlive⟩
    · rintro ⟨e, he, rfl, station, hmem, hid, hlive⟩
      obtain ⟨other, hother, hotherId, hhash⟩ := h.kept e he
      obtain rfl : station = other := List.inj_on_of_nodup_map h.ids hmem hother (hid.trans hotherId.symm)
      exact ⟨station, hmem, hlive, hhash⟩
  revoked := by
    intro id hid e he hsame
    rw [← Bool.not_eq_true, verify_iff]
    rintro ⟨station, hmem, hlive, hhash⟩
    obtain ⟨other, hother, hotherId, hotherHash⟩ := h.kept e he
    obtain rfl : station = other :=
      List.inj_on_of_nodup_map h.hashes hmem hother (hhash.trans hotherHash.symm)
    obtain ⟨gone, hgone, hgoneId, hrevoked⟩ := h.revoked id hid
    obtain rfl : station = gone :=
      List.inj_on_of_nodup_map h.ids hmem hgone (hotherId.trans (hsame.trans hgoneId.symm))
    rw [hrevoked] at hlive
    cases hlive
  synced := fun _ => congrArg (Stores.mk · s.file) h.synced.symm

/-- A call that leaves the stores as they are, and at most notes an enroll that gave nothing when
nothing is pending. -/
theorem Inv.unchanged (h : Inv P s) (hstores : t.stores = s.stores)
    (hlog : t.log = s.log ∨ s.memory.pending = none ∧ ∃ code now, t.log = s.log ++ [.tried code now none])
    (hissued : t.issued = s.issued) (hrevoked : t.revoked = s.revoked) : Inv P t := by
  have hmemory : t.memory = s.memory := congrArg Stores.memory hstores
  have hfile : t.file = s.file := congrArg Stores.file hstores
  refine ⟨by rw [hfile, hmemory]; exact h.synced, ?_, ?_, ?_, by rw [hmemory, hissued]; exact h.told,
    by rw [hmemory, hissued]; exact h.kept,
    by rw [hmemory]; exact h.ids, by rw [hmemory]; exact h.hashes, by rw [hmemory, hrevoked]; exact h.revoked⟩
  · rw [hmemory]
    intro offer hoffer
    rcases hlog with hlog | ⟨hnone, -⟩
    · rw [hlog]
      exact h.pending offer hoffer
    · rw [hnone] at hoffer
      cases hoffer
  · rcases hlog with hlog | ⟨-, code, now, hlog⟩
    · rw [hlog]
      exact h.once
    · rw [hlog]
      exact h.once.concat (by simp)
  · rw [hmemory]
    intro station hstation
    obtain ⟨code, now, hmem⟩ := h.logged station hstation
    rcases hlog with hlog | ⟨-, code', now', hlog⟩
    · exact ⟨code, now, hlog ▸ hmem⟩
    · exact ⟨code, now, hlog ▸ List.mem_append_left _ hmem⟩

theorem markRevoked_eq {id : String} {stations : List StationRecord}
    (h : ∀ station, stations.find? (fun station => station.id = id) = some station → station.revoked = true) :
    markRevoked id stations = stations := by
  induction stations with
  | nil => rfl
  | cons station stations ih =>
    rw [markRevoked]
    split_ifs with hid
    · have hrevoked := h station (by simp [hid])
      exact congrArg (· :: stations) (by rw [← hrevoked])
    · rw [ih fun other hother => h other (by simpa [hid] using hother)]

theorem revoked_of_markRevoked_eq {id : String} {stations : List StationRecord}
    (h : markRevoked id stations = stations) :
    ∀ station, stations.find? (fun station => station.id = id) = some station → station.revoked = true := by
  induction stations with
  | nil => simp
  | cons station stations ih =>
    intro other hother
    rw [markRevoked] at h
    split_ifs at h with hid
    · obtain rfl : station = other := by simpa [hid] using hother
      rw [← (List.cons.inj h).1]
    · exact ih (List.cons.inj h).2 other (by simpa [hid] using hother)

theorem markRevoked_map {β : Type*} {f : StationRecord → β}
    (hf : ∀ station : StationRecord, f { station with revoked := true } = f station)
    (id : String) (stations : List StationRecord) : (markRevoked id stations).map f = stations.map f := by
  induction stations with
  | nil => rfl
  | cons station stations ih =>
    rw [markRevoked]
    split_ifs
    · simp [hf]
    · simp [ih]

theorem mem_markRevoked {id : String} {stations : List StationRecord} {station : StationRecord}
    (h : station ∈ markRevoked id stations) :
    ∃ old ∈ stations, station.id = old.id ∧ station.token_hash = old.token_hash := by
  induction stations with
  | nil => cases h
  | cons first stations ih =>
    rw [markRevoked] at h
    split_ifs at h
    · rcases List.mem_cons.1 h with rfl | hmem
      · exact ⟨first, List.mem_cons_self .., rfl, rfl⟩
      · exact ⟨station, List.mem_cons_of_mem _ hmem, rfl, rfl⟩
    · rcases List.mem_cons.1 h with rfl | hmem
      · exact ⟨station, List.mem_cons_self .., rfl, rfl⟩
      · obtain ⟨old, hold, hrest⟩ := ih hmem
        exact ⟨old, List.mem_cons_of_mem _ hold, hrest⟩

/-- A revocation keeps every station, and gives none its right back. -/
theorem mem_markRevoked_of_mem (id : String) {stations : List StationRecord} {old : StationRecord}
    (h : old ∈ stations) :
    ∃ station ∈ markRevoked id stations, station.id = old.id ∧ station.token_hash = old.token_hash ∧
    (old.revoked = true → station.revoked = true) := by
  induction stations with
  | nil => cases h
  | cons first stations ih =>
    rw [markRevoked]
    split_ifs
    · rcases List.mem_cons.1 h with rfl | hmem
      · exact ⟨_, List.mem_cons_self .., rfl, rfl, fun _ => rfl⟩
      · exact ⟨old, List.mem_cons_of_mem _ hmem, rfl, rfl, fun hold => hold⟩
    · rcases List.mem_cons.1 h with rfl | hmem
      · exact ⟨_, List.mem_cons_self .., rfl, rfl, fun hold => hold⟩
      · obtain ⟨station, hstation, hrest⟩ := ih hmem
        exact ⟨station, List.mem_cons_of_mem _ hstation, hrest⟩

theorem exists_markRevoked {id : String} {stations : List StationRecord}
    (h : (stations.find? fun station => station.id = id).isSome) :
    ∃ station ∈ markRevoked id stations, station.id = id ∧ station.revoked = true := by
  induction stations with
  | nil => cases h
  | cons first stations ih =>
    rw [markRevoked]
    split_ifs with hid
    · exact ⟨_, List.mem_cons_self .., hid, rfl⟩
    · rw [List.find?_cons_of_neg (by simpa using hid)] at h
      obtain ⟨station, hstation, hrest⟩ := ih h
      exact ⟨station, List.mem_cons_of_mem _ hstation, hrest⟩

/-- Writing the stations down. -/
def stored (memory : StationStore) : Stores := ⟨memory, memory⟩

theorem Inv.created (h : Inv P s) (offer : PendingEnrollment) (code : String)
    (hcode : offer.code_hash = digest P code)
    (hstores : t.stores = stored { s.memory with pending := some offer })
    (hlog : t.log = s.log ++ [.created code offer.expires_at])
    (hissued : t.issued = s.issued) (hrevoked : t.revoked = s.revoked) : Inv P t := by
  have hmemory : t.memory = { s.memory with pending := some offer } := congrArg Stores.memory hstores
  have hfile : t.file = { s.memory with pending := some offer } := congrArg Stores.file hstores
  refine ⟨by rw [hfile, hmemory], ?_, ?_, ?_, by rw [hmemory, hissued]; exact h.told,
    by rw [hmemory, hissued]; exact h.kept,
    by rw [hmemory]; exact h.ids, by rw [hmemory]; exact h.hashes, by rw [hmemory, hrevoked]; exact h.revoked⟩
  · rw [hmemory]
    rintro offer' hoffer'
    obtain rfl : offer = offer' := by simpa using hoffer'
    exact ⟨s.log, code, hlog, hcode⟩
  · rw [hlog]
    exact h.once.concat (by simp)
  · rw [hmemory, hlog]
    intro station hstation
    obtain ⟨tried, now, hmem⟩ := h.logged station hstation
    exact ⟨tried, now, List.mem_append_left _ hmem⟩

theorem Inv.refused (h : Inv P s) (code : String) (now : Nat)
    (hstores : t.stores = stored { s.memory with pending := none })
    (hlog : t.log = s.log ++ [.tried code now none]) (hissued : t.issued = s.issued)
    (hrevoked : t.revoked = s.revoked) : Inv P t := by
  have hmemory : t.memory = { s.memory with pending := none } := congrArg Stores.memory hstores
  have hfile : t.file = { s.memory with pending := none } := congrArg Stores.file hstores
  refine ⟨by rw [hfile, hmemory], by simp [hmemory], ?_, ?_, by rw [hmemory, hissued]; exact h.told,
    by rw [hmemory, hissued]; exact h.kept,
    by rw [hmemory]; exact h.ids, by rw [hmemory]; exact h.hashes, by rw [hmemory, hrevoked]; exact h.revoked⟩
  · rw [hlog]
    exact h.once.concat (by simp)
  · rw [hmemory, hlog]
    intro station hstation
    obtain ⟨tried, now', hmem⟩ := h.logged station hstation
    exact ⟨tried, now', List.mem_append_left _ hmem⟩

/-- An enroll with the pending code, in time. -/
theorem Inv.enrolled (h : Inv P s) (station : StationRecord) (e : EnrolledStation) {offer : PendingEnrollment}
    (hoffer : s.memory.pending = some offer) {code : String} {now : Nat} (hnow : now ≤ offer.expires_at)
    (hcode : offer.code_hash = digest P (normalized code)) (hid : e.id = station.id)
    (hhash : station.token_hash = digest P e.token)
    (hfresh : ∀ other ∈ s.memory.stations, other.id ≠ station.id ∧ other.token_hash ≠ station.token_hash)
    (hstores : t.stores = stored ⟨s.memory.stations ++ [station], none⟩)
    (hlog : t.log = s.log ++ [.tried code now (some station.id)])
    (hissued : t.issued = s.issued ++ [e]) (hrevoked : t.revoked = s.revoked) : Inv P t := by
  have hmemory : t.memory = ⟨s.memory.stations ++ [station], none⟩ := congrArg Stores.memory hstores
  have hfile : t.file = ⟨s.memory.stations ++ [station], none⟩ := congrArg Stores.file hstores
  refine ⟨by rw [hfile, hmemory], by simp [hmemory], ?_, ?_, ?_, ?_, ?_, ?_, ?_⟩
  · obtain ⟨earlier, created, hlast, hsame⟩ := h.pending offer hoffer
    rw [← digest_inj (hcode.symm.trans hsame)] at hlast
    rw [hlog]
    exact h.once.station hlast hnow
  · rw [hmemory, hlog]
    intro other hother
    rcases List.mem_append.1 hother with hmem | hmem
    · obtain ⟨tried, now', hmem⟩ := h.logged other hmem
      exact ⟨tried, now', List.mem_append_left _ hmem⟩
    · obtain rfl := List.mem_singleton.1 hmem
      exact ⟨code, now, List.mem_append_right _ (List.mem_singleton_self _)⟩
  · rw [hmemory, hissued]
    intro other hother
    rcases List.mem_append.1 hother with hmem | hmem
    · obtain ⟨e', he', hrest⟩ := h.told other hmem
      exact ⟨e', List.mem_append_left _ he', hrest⟩
    · obtain rfl := List.mem_singleton.1 hmem
      exact ⟨e, List.mem_append_right _ (List.mem_singleton_self _), hid, hhash⟩
  · rw [hmemory, hissued]
    intro e' he'
    rcases List.mem_append.1 he' with hmem | hmem
    · obtain ⟨other, hother, hrest⟩ := h.kept e' hmem
      exact ⟨other, List.mem_append_left _ hother, hrest⟩
    · obtain rfl := List.mem_singleton.1 hmem
      exact ⟨station, List.mem_append_right _ (List.mem_singleton_self _), hid.symm, hhash⟩
  · rw [hmemory, List.map_append]
    refine List.nodup_append.2 ⟨h.ids, List.nodup_singleton _, ?_⟩
    intro a ha b hb
    obtain ⟨other, hother, rfl⟩ := List.mem_map.1 ha
    obtain rfl := List.mem_singleton.1 hb
    exact (hfresh other hother).1
  · rw [hmemory, List.map_append]
    refine List.nodup_append.2 ⟨h.hashes, List.nodup_singleton _, ?_⟩
    intro a ha b hb
    obtain ⟨other, hother, rfl⟩ := List.mem_map.1 ha
    obtain rfl := List.mem_singleton.1 hb
    exact (hfresh other hother).2
  · rw [hmemory, hrevoked]
    intro id hrev
    obtain ⟨other, hother, hrest⟩ := h.revoked id hrev
    exact ⟨other, List.mem_append_left _ hother, hrest⟩

theorem Inv.revocation (h : Inv P s) {id : String}
    (hfound : (s.memory.stations.find? fun station => station.id = id).isSome)
    (hstores : t.stores = stored { s.memory with stations := markRevoked id s.memory.stations })
    (hlog : t.log = s.log) (hissued : t.issued = s.issued) (hrevoked : t.revoked = id :: s.revoked) :
    Inv P t := by
  have hmemory : t.memory = { s.memory with stations := markRevoked id s.memory.stations } :=
    congrArg Stores.memory hstores
  have hfile : t.file = { s.memory with stations := markRevoked id s.memory.stations } :=
    congrArg Stores.file hstores
  refine ⟨by rw [hfile, hmemory], by rw [hmemory, hlog]; exact h.pending, by
      rw [hlog]; exact h.once, ?_, ?_, ?_, ?_, ?_, ?_⟩
  · rw [hmemory, hlog]
    intro station hstation
    obtain ⟨old, hold, hid, -⟩ := mem_markRevoked hstation
    rw [hid]
    exact h.logged old hold
  · rw [hmemory, hissued]
    intro station hstation
    obtain ⟨old, hold, hid, hhash⟩ := mem_markRevoked hstation
    rw [hid, hhash]
    exact h.told old hold
  · rw [hmemory, hissued]
    intro e he
    obtain ⟨old, hold, hid, hhash⟩ := h.kept e he
    obtain ⟨station, hstation, hid', hhash', -⟩ := mem_markRevoked_of_mem id hold
    exact ⟨station, hstation, hid'.trans hid, hhash'.trans hhash⟩
  · rw [hmemory, markRevoked_map (fun _ => rfl)]
    exact h.ids
  · rw [hmemory, markRevoked_map (fun _ => rfl)]
    exact h.hashes
  · rw [hmemory, hrevoked]
    intro id' hid'
    rcases List.mem_cons.1 hid' with rfl | hmem
    · exact exists_markRevoked hfound
    · obtain ⟨old, hold, hid, hrev⟩ := h.revoked id' hmem
      obtain ⟨station, hstation, hsame, -, hkeep⟩ := mem_markRevoked_of_mem id hold
      exact ⟨station, hstation, hsame.trans hid, hkeep hrev⟩

theorem inv_step (hl : Harmless P s l) (hs : step P s l = some t) (h : Inv P s) : Inv P t := by
  cases l with
  | create_enrollment name random now fault =>
    cases fault with
    | none =>
      obtain rfl := Option.some.inj hs
      exact h.created (offerOf P name random now) (codeOf random) rfl rfl rfl rfl rfl
    | some err =>
      have hsame : s.memory.pending = some (offerOf P name random now) := hl
      have hmemory : { s.memory with pending := some (offerOf P name random now) } = s.memory := by
        rw [← hsame]
      obtain rfl := Option.some.inj hs
      exact h.unchanged (congrArg (Stores.mk · s.file) hmemory) (.inl rfl) rfl rfl
  | enroll code idBytes tokenBytes now createdAt fault =>
    rw [step] at hs
    split_ifs at hs with hfresh
    obtain rfl := Option.some.inj hs
    cases hp : s.memory.pending with
    | none =>
      have hnone : enroll P code idBytes tokenBytes now createdAt fault s.stores =
          (.error "no enrollment is pending", s.stores) := by
        rw [enroll, show s.stores.memory.pending = none from hp]
      rw [hnone]
      exact h.unchanged rfl (.inr ⟨hp, code, now, rfl⟩) rfl rfl
    | some offer =>
      cases fault with
      | some err => exact absurd (hp.symm.trans hl) (by simp)
      | none =>
        rw [enroll, show s.stores.memory.pending = some offer from hp]
        dsimp only
        split_ifs with hwrong
        · exact h.refused code now rfl rfl rfl rfl
        · obtain ⟨hnow, hcode⟩ := not_or.1 hwrong
          exact h.enrolled ⟨idOf idBytes, stationName offer, digest P (tokenOf tokenBytes), createdAt, false⟩
            ⟨idOf idBytes, stationName offer, tokenOf tokenBytes⟩ hp (Nat.not_lt.1 hnow)
              (not_not.1 hcode) rfl rfl hfresh rfl rfl rfl rfl
  | verify token =>
    obtain rfl := Option.some.inj hs
    exact h.unchanged rfl (.inl rfl) rfl rfl
  | revoke id fault =>
    obtain rfl := Option.some.inj hs
    rw [revoke]
    split_ifs with hnone
    · exact h.unchanged rfl (.inl rfl) rfl rfl
    · have hfound : (s.memory.stations.find? fun station => station.id = id).isSome :=
        Option.isSome_iff_ne_none.2 fun h => hnone (Option.isNone_iff_eq_none.2 h)
      cases fault with
      | none => exact h.revocation hfound rfl rfl rfl rfl
      | some err =>
        have hmemory : { s.memory with stations := markRevoked id s.memory.stations } = s.memory := by
          rw [markRevoked_eq hl]
        exact h.unchanged (congrArg (Stores.mk · s.file) hmemory) (.inl rfl) rfl rfl
  | restart =>
    obtain rfl := Option.some.inj hs
    exact h.unchanged (congrArg (Stores.mk · s.file) h.synced) (.inl rfl) rfl rfl

/-- A step that is not harmless fails to persist and leaves in memory what the file does not have. -/
theorem harmless_of_synced (h : s.file = s.memory) (hs : step P s l = some t)
    (ht : t.failed = true → t.stores = load t.stores) :
    Harmless P s l := by
  have hparts : t.failed = true → t.stores.memory = t.stores.file :=
    fun hfailed => congrArg Stores.memory (ht hfailed)
  cases l with
  | create_enrollment name random now fault =>
    cases fault with
    | none => trivial
    | some err =>
      obtain rfl := Option.some.inj hs
      have hsame : { s.memory with pending := some (offerOf P name random now) } = s.file := hparts rfl
      rw [h] at hsame
      exact (congrArg StationStore.pending hsame).symm
  | enroll code idBytes tokenBytes now createdAt fault =>
    cases fault with
    | none => trivial
    | some err =>
      show s.memory.pending = none
      rw [step] at hs
      split_ifs at hs with hfresh
      obtain rfl := Option.some.inj hs
      by_contra hsome
      obtain ⟨offer, hp⟩ := Option.ne_none_iff_exists'.1 hsome
      rw [enroll, show s.stores.memory.pending = some offer from hp] at hparts
      dsimp only at hparts
      split_ifs at hparts
      all_goals
        have hsame := congrArg StationStore.pending ((hparts (by simp [afterEnroll, persist, hp])).trans h)
        cases hsame.trans hp
  | verify token => trivial
  | revoke id fault =>
    cases fault with
    | none => trivial
    | some err =>
      obtain rfl := Option.some.inj hs
      rw [revoke] at hparts
      split_ifs at hparts with hnone
      · intro station hstation
        cases hstation.symm.trans (Option.isNone_iff_eq_none.1 hnone)
      · have hfound : (s.memory.stations.find? fun station => station.id = id).isSome :=
          Option.isSome_iff_ne_none.2 fun h => hnone (Option.isNone_iff_eq_none.2 h)
        have hsame : { s.memory with stations := markRevoked id s.memory.stations } = s.file := hparts hfound
        rw [h] at hsame
        exact revoked_of_markRevoked_eq (congrArg StationStore.stations hsame)
  | restart => trivial

theorem along_of_synced {ls : List Label} (h : Inv P s) (hr : run (step P) s ls = some t)
    (hall : ∀ before u, before <+: ls → run (step P) s before = some u → u.failed = true →
      u.stores = load u.stores) :
    Along (step P) (Harmless P) s ls := by
  induction ls generalizing s with
  | nil => trivial
  | cons l ls ih =>
    obtain ⟨u, hu, hr⟩ := run_cons.1 hr
    have hone : run (step P) s [l] = some u := run_cons.2 ⟨u, hu, rfl⟩
    have hl : Harmless P s l := harmless_of_synced h.synced hu (hall [l] u (List.prefix_append [l] ls) hone)
    refine ⟨hl, ?_⟩
    rw [hu]
    refine ih (inv_step hl hu h) hr fun before v hb hv => ?_
    exact hall (l :: before) v (List.cons_prefix_cons.2 ⟨rfl, hb⟩) (run_cons.2 ⟨u, hu, hv⟩)

/-- A run leaves every call of it in order exactly when no write that fails has changed the stations
in memory. -/
theorem sound_iff {ls : List Label} (hr : run (step P) init ls = some s) :
    (∀ before t, before <+: ls → run (step P) init before = some t → Sound P t) ↔
    Along (step P) (Harmless P) init ls := by
  constructor
  · intro h
    have hsynced : ∀ before t, before <+: ls → run (step P) init before = some t → t.failed = true →
        t.stores = load t.stores :=
      fun before t hb ht => (h before t hb ht).synced
    exact along_of_synced (inv_init P) hr hsynced
  · rintro h before t ⟨after, rfl⟩ ht
    exact (Along.inv (fun s l s' hl hs hi => inv_step hl hs hi) (h.append ht).1 ht (inv_init P)).sound

end Preserves

/-! ### Runs of one kiosk -/

/-- The bytes of the text: not SHA-256, but as free of collisions as it is taken to be. -/
def plain : Platform where
  sha256 value := value.toUTF8.data.toList
  injective a b h := by
    have hdata : a.toUTF8.data = b.toUTF8.data := Array.toList_inj.1 h
    exact String.toByteArray_inj.1 (ByteArray.ext hdata)

/-- A code is created and entered in lower case, another code finds nothing pending, and the station
is revoked before a restart. -/
def enrolment : List Label :=
  [.create_enrollment " gate " [0, 1, 2, 3, 4, 5, 6, 7] 100 none,
    .enroll " abcdefgh" [1] [2] 700 700 none, .verify "bfs_02",
    .enroll "ABCDEFGH" [3] [4] 700 700 (some "disk full"), .revoke "01" none, .restart, .verify "bfs_02"]

theorem sound_iff_enrolment : ∃ s, run (step plain) init enrolment = some s ∧ s.revoked = ["01"] ∧
    ∀ before t, before <+: enrolment → run (step plain) init before = some t → Sound plain t := by
  obtain ⟨s, hs⟩ : ∃ s, run (step plain) init enrolment = some s := Option.isSome_iff_exists.1 (by decide)
  have hrevoked : (run (step plain) init enrolment).map (·.revoked) = some ["01"] := by decide
  rw [hs] at hrevoked
  exact ⟨s, hs, Option.some.inj hrevoked, (sound_iff hs).2 (by decide)⟩

/-- A wrong code whose refusal cannot be written down: the offer is gone from memory and still in the file. -/
def unwritten : List Label :=
  [.create_enrollment "gate" [0, 1, 2, 3, 4, 5, 6, 7] 100 none,
    .enroll "AAAAAAAA" [1] [2] 200 200 (some "disk full")]

theorem not_sound_unwritten : ∃ s, run (step plain) init unwritten = some s ∧ ¬ Sound plain s := by
  obtain ⟨s, hs⟩ : ∃ s, run (step plain) init unwritten = some s := Option.isSome_iff_exists.1 (by decide)
  have hfailed : (run (step plain) init unwritten).map (·.failed) = some true := by decide
  have hstores : (run (step plain) init unwritten).all fun s => s.stores ≠ load s.stores := by decide
  rw [hs] at hfailed hstores
  exact ⟨s, hs, fun h => of_decide_eq_true hstores (h.synced (Option.some.inj hfailed))⟩

/-- The offer that was refused is good again after a restart, for the same or another guess. -/
example : (run (step plain) init (unwritten ++ [.restart, .enroll "ABCDEFGH" [1] [2] 300 300 none])).map
    (·.issued) = some [⟨"01", "gate", "bfs_02"⟩] := by decide

end OperatorStations
