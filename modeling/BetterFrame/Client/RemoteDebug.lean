import BetterFrame.Lib.Run

/-!
# The remote terminal

The lockout of `remote_debug.rs` and the messages `terminal-request` and `terminal-auth` of
`ws_client.rs`, over one connection to the coordinator. `gate_holds` says when a shell can be had.
-/

namespace RemoteDebug

/-- Codes are compared as bytes. -/
abbrev Code := List UInt8

def MAX_ATTEMPTS_PER_BOOT : Nat := 3

def MAX_LOCKOUTS : Nat := 3

def CODE_ALPHABET : Code :=
  [65, 66, 67, 68, 69, 70, 71, 72, 74, 75, 76, 77, 78, 80, 81, 82, 83, 84, 85, 86, 87, 88, 89, 90,
    50, 51, 52, 53, 54, 55, 56, 57]

def CODE_LEN : Nat := 8

/-- The count of wrong codes that outlives a boot. -/
structure LockoutState where
  attempts_this_boot : Nat
  lockout_count : Nat
  permanent : Bool
deriving DecidableEq

def LockoutState.default : LockoutState := ⟨0, 0, false⟩

def LockoutState.locked (state : LockoutState) : Bool :=
  state.permanent || decide (MAX_LOCKOUTS ≤ state.lockout_count)

/-- One more failed attempt. -/
def LockoutState.failed (state : LockoutState) : LockoutState :=
  let state := { state with attempts_this_boot := state.attempts_this_boot + 1 }
  if MAX_ATTEMPTS_PER_BOOT ≤ state.attempts_this_boot then
    let state := { state with lockout_count := state.lockout_count + 1, attempts_this_boot := 0 }
    if MAX_LOCKOUTS ≤ state.lockout_count then { state with permanent := true } else state
  else state

/-- The code that the random bytes give. -/
def generate_code (bytes : List UInt8) : Code :=
  bytes.map fun byte => CODE_ALPHABET.getD (byte.toNat % CODE_ALPHABET.length) 0

/-- The comparison of `validate_terminal_code`, in constant time. -/
def matchesCode (expected provided : Code) : Bool :=
  expected.length = provided.length &&
    (expected.zip provided).foldl (fun diff pair => diff ||| (pair.1 ^^^ pair.2)) 0 = 0

/-- The history of the gate, with the reading of the clock in seconds. -/
inductive Entry where
  | displayed (code : Code) (time : Nat)
  | denied (reason : String)
  | wrong (provided : Code)
  | granted (provided : Code) (time : Nat) (spawned : Bool)
  | expired
  | paired
deriving DecidableEq

/-- `lockout` is the file, `timers` are the times at which the sleeping tasks wake, and the log has
the latest first. -/
structure State where
  now : Nat
  lockout : Option LockoutState
  started : Bool
  firmware_channel : Option String
  os_channel : Option String
  pending_code : Option Code
  timers : List Nat
  log : List Entry

/-- What happens: a message arrives, time passes, a sleeping task wakes, the process restarts, the
kiosk is paired or its channels change. -/
inductive Label where
  | request (bytes : List UInt8)
  | auth (provided : Option Code) (spawns : Bool)
  | passes (seconds : Nat)
  | fires (due : Nat)
  | restarts
  | resets
  | pairs
  | channels (firmware os : Option String)

namespace State

variable (s : State)

def init (now : Nat) (lockout : Option LockoutState) : State :=
  ⟨now, lockout, false, none, none, none, [], []⟩

def load_lockout : LockoutState := s.lockout.getD .default

def is_locked : Bool := s.load_lockout.locked

def reset_boot_attempts : State := { s with lockout := some { s.load_lockout with attempts_this_boot := 0 } }

def reset_all_lockouts : State := { s with lockout := none }

def record_failed_attempt : State := { s with lockout := some s.load_lockout.failed }

def push (entry : Entry) : State := { s with log := entry :: s.log }

/-- The gate before a challenge: not locked, both channels `dev`. -/
def check_terminal_access : Except String Unit :=
  if s.is_locked then .error "locked"
  else if s.firmware_channel.getD "stable" ≠ "dev" ∨ s.os_channel.getD "stable" ≠ "dev" then
    .error "terminal access requires both firmware and OS channels set to dev"
  else .ok ()

def create_terminal_challenge (bytes : List UInt8) : Except String Code := do
  s.check_terminal_access
  return generate_code bytes

/-- The message `terminal-request`. -/
def terminalRequest (bytes : List UInt8) : State :=
  match s.check_terminal_access with
  | .error reason => s.push (.denied reason)
  | .ok () =>
    match s.create_terminal_challenge bytes with
    | .ok code =>
      { s with pending_code := some code, timers := (s.now + 60) :: s.timers }.push
        (.displayed code s.now)
    | .error reason => s.push (.denied reason)

/-- A right code clears the lockouts, a wrong one counts. -/
def validate_terminal_code (expected provided : Code) : Bool × State :=
  if matchesCode expected provided then (true, s.reset_all_lockouts) else (false, s.record_failed_attempt)

/-- The message `terminal-auth`; `spawns` says whether bash could be started. -/
def terminalAuth (provided : Option Code) (spawns : Bool) : State :=
  let provided := provided.getD []
  match s.pending_code with
  | none => s.push (.denied "no pending challenge")
  | some expected =>
    match { s with pending_code := none }.validate_terminal_code expected provided with
    | (true, s) => s.push (.granted provided s.now spawns)
    | (false, s) => (s.push (.wrong provided)).push (.denied (if s.is_locked then "locked" else "wrong code"))

/-- The task that sleeps until `due` takes the code away. -/
def timeout (due : Nat) : State :=
  let s := { s with timers := s.timers.erase due }
  if s.pending_code.isSome then { s with pending_code := none }.push .expired else s

end State

/-- One step. Time does not pass a sleeping task's time, and `reset_boot_attempts` runs once after
each start. -/
def step (s : State) : Label → Option State
  | .request bytes => if bytes.length = CODE_LEN then some (s.terminalRequest bytes) else none
  | .auth provided spawns => some (s.terminalAuth provided spawns)
  | .passes seconds =>
    if s.timers.all (s.now + seconds ≤ ·) then some { s with now := s.now + seconds } else none
  | .fires due => if due ∈ s.timers ∧ due ≤ s.now then some (s.timeout due) else none
  | .restarts =>
    some { s with
      started := false, firmware_channel := none, os_channel := none, pending_code := none,
      timers := [] }
  | .resets => if s.started then none else some { s.reset_boot_attempts with started := true }
  | .pairs => some (s.reset_all_lockouts.push .paired)
  | .channels firmware os => some { s with firmware_channel := firmware, os_channel := os }

/-! ### The gate -/

/-- The code displayed last and the time of it. -/
def lastDisplayed : List Entry → Option (Code × Nat)
  | [] => none
  | .displayed code time :: _ => some (code, time)
  | _ :: log => lastDisplayed log

/-- A code was tried since the last one was displayed. -/
def triedSince : List Entry → Bool
  | [] | .displayed .. :: _ => false
  | .wrong .. :: _ | .granted .. :: _ => true
  | _ :: log => triedSince log

/-- The wrong codes since the last success or pairing. -/
def wrongs : List Entry → Nat
  | [] | .granted .. :: _ | .paired :: _ => 0
  | .wrong .. :: log => wrongs log + 1
  | _ :: log => wrongs log

/-- When a shell can be had. -/
structure Gate (s : State) : Prop where
  /-- A shell is spawned for the code displayed last, within a minute, and after eight wrong codes at most. -/
  granted : ∀ after code time spawned before, s.log = after ++ .granted code time spawned :: before →
    (∃ shown, lastDisplayed before = some (code, shown) ∧ time ≤ shown + 60) ∧ wrongs before < 9 ∧
      triedSince before = false
  wrong : ∀ after code before, s.log = after ++ .wrong code :: before →
    lastDisplayed before ≠ none ∧ triedSince before = false
  /-- The code displayed last can be used for a minute. -/
  valid : ∀ code shown, lastDisplayed s.log = some (code, shown) → triedSince s.log = false →
    s.now < shown + 60 →
    ∀ spawns, (s.terminalAuth (some code) spawns).log = .granted code s.now spawns :: s.log

/-- The code that is pending was displayed a minute ago, or there is none. -/
def State.Expired (s : State) : Prop :=
  s.pending_code = none ∨ ∀ code shown, lastDisplayed s.log = some (code, shown) → shown + 60 ≤ s.now

/-- No task takes away a code displayed after it began to sleep, no restart loses a code, and the
attempts that a start forgets are none. -/
def Harmless (s : State) : Label → Prop
  | .fires _ | .restarts => s.Expired
  | .resets => s.load_lockout.attempts_this_boot = 0
  | _ => True

/-! ### Codes -/

theorem foldl_or_eq_zero {pairs : List (UInt8 × UInt8)} {diff : UInt8} :
    pairs.foldl (fun diff pair => diff ||| (pair.1 ^^^ pair.2)) diff = 0 ↔ diff = 0 ∧
    ∀ pair ∈ pairs, pair.1 = pair.2 := by
  induction pairs generalizing diff with
  | nil => simp
  | cons pair pairs ih =>
    rw [List.foldl_cons, ih, UInt8.or_eq_zero_iff, UInt8.xor_eq_zero_iff, List.forall_mem_cons, and_assoc]

theorem matchesCode_iff {expected provided : Code} : matchesCode expected provided = true ↔
    provided = expected := by
  simp only [matchesCode, Bool.and_eq_true, decide_eq_true_eq, foldl_or_eq_zero, true_and]
  constructor
  · rintro ⟨hlength, hzip⟩
    refine List.ext_getElem hlength.symm fun i hi hi' => ?_
    have hmem : (expected[i], provided[i]) ∈ expected.zip provided :=
      List.mem_iff_getElem.2 ⟨i, by rw [List.length_zip]; omega, List.getElem_zip⟩
    exact (hzip _ hmem).symm
  · rintro rfl
    refine ⟨rfl, fun pair hpair => ?_⟩
    obtain ⟨i, hi, rfl⟩ := List.getElem_of_mem hpair
    simp

/-! ### Steps -/

namespace State

variable {s s' : State}

theorem terminalAuth_none (h : s.pending_code = none) (provided : Option Code) (spawns : Bool) :
    s.terminalAuth provided spawns = s.push (.denied "no pending challenge") := by
  rw [terminalAuth, h]

theorem terminalAuth_right {code : Code} (h : s.pending_code = some code) (spawns : Bool) :
    s.terminalAuth (some code) spawns =
      { s with pending_code := none, lockout := none, log := .granted code s.now spawns :: s.log } := by
  simp [terminalAuth, h, validate_terminal_code, matchesCode_iff.2, reset_all_lockouts, push]

theorem terminalAuth_wrong {code : Code} (h : s.pending_code = some code) {provided : Option Code}
    (hne : provided.getD [] ≠ code) (spawns : Bool) : ∃ reason, s.terminalAuth provided spawns =
      { s with
        pending_code := none
        lockout := some s.load_lockout.failed
        log := .denied reason :: .wrong (provided.getD []) :: s.log } := by
  have hno : ¬ matchesCode code (provided.getD []) = true := fun hm => hne (matchesCode_iff.1 hm)
  simp [terminalAuth, h, validate_terminal_code, hno, record_failed_attempt, push, load_lockout]

theorem terminalRequest_cases (bytes : List UInt8) :
    (∃ reason, s.terminalRequest bytes = s.push (.denied reason)) ∨
    (s.is_locked = false ∧ s.terminalRequest bytes = { s with
      pending_code := some (generate_code bytes)
      timers := (s.now + 60) :: s.timers
      log := .displayed (generate_code bytes) s.now :: s.log }) := by
  cases haccess : s.check_terminal_access with
  | error reason => exact .inl ⟨reason, by simp [terminalRequest, haccess]⟩
  | ok u =>
    refine .inr ⟨?_, ?_⟩
    · unfold check_terminal_access at haccess
      split at haccess
      · cases haccess
      · next hlocked => simpa using hlocked
    · have hcreate : s.create_terminal_challenge bytes = .ok (generate_code bytes) := by
        simp [create_terminal_challenge, haccess, pure, Except.pure, bind, Except.bind]
      simp [terminalRequest, haccess, hcreate, push]

end State

/-- The wrong codes are no more than the failed attempts that the file counts. -/
def Counted (state : LockoutState) (n : Nat) : Prop :=
  state.locked = false → n ≤ MAX_ATTEMPTS_PER_BOOT * state.lockout_count + min state.attempts_this_boot 2

theorem locked_eq_false {state : LockoutState} :
    state.locked = false ↔ state.permanent = false ∧ state.lockout_count < 3 := by
  rw [LockoutState.locked, Bool.or_eq_false_iff, decide_eq_false_iff_not, Nat.not_le]
  rfl

theorem Counted.lt {state : LockoutState} {n : Nat} (h : Counted state n) (hlocked : state.locked = false) :
    n < 9 := by
  have hn := h hlocked
  have hcount := (locked_eq_false.1 hlocked).2
  simp only [MAX_ATTEMPTS_PER_BOOT] at hn
  omega

theorem failed_eq (state : LockoutState) : state.failed =
    if 3 ≤ state.attempts_this_boot + 1 then
    ⟨0, state.lockout_count + 1, state.permanent || decide (3 ≤ state.lockout_count + 1)⟩
    else { state with attempts_this_boot := state.attempts_this_boot + 1 } := by
  simp only [LockoutState.failed, MAX_ATTEMPTS_PER_BOOT, MAX_LOCKOUTS]
  by_cases hboot : 3 ≤ state.attempts_this_boot + 1
  · by_cases hlockouts : 3 ≤ state.lockout_count + 1
    · simp [hboot, hlockouts]
    · simp [hboot, hlockouts]
  · simp [hboot]

theorem Counted.failed {state : LockoutState} {n : Nat} (h : Counted state n) :
    Counted state.failed (n + 1) := by
  intro hlocked
  rw [failed_eq] at hlocked ⊢
  split at hlocked
  · next hboot =>
    rw [if_pos hboot]
    obtain ⟨hpermanent, hcount⟩ := locked_eq_false.1 hlocked
    have hn := h (locked_eq_false.2 ⟨(Bool.or_eq_false_iff.1 hpermanent).1, Nat.lt_of_succ_lt hcount⟩)
    simp only [MAX_ATTEMPTS_PER_BOOT] at hn ⊢
    omega
  · next hboot =>
    rw [if_neg hboot]
    have hn := h (locked_eq_false.2 (locked_eq_false.1 hlocked))
    simp only [MAX_ATTEMPTS_PER_BOOT] at hn ⊢
    omega

/-- What ties the pending code, the timers and the counts to the log. -/
structure Inv (s : State) : Prop where
  pending : ∀ code, s.pending_code = some code → s.is_locked = false ∧ triedSince s.log = false ∧
    ∃ shown, lastDisplayed s.log = some (code, shown) ∧ shown + 60 ∈ s.timers
  due : ∀ due ∈ s.timers, s.now ≤ due
  counted : Counted s.load_lockout (wrongs s.log)
  kept : ∀ code shown, lastDisplayed s.log = some (code, shown) → triedSince s.log = false →
    s.now < shown + 60 → s.pending_code = some code
  granted : ∀ after code time spawned before, s.log = after ++ .granted code time spawned :: before →
    (∃ shown, lastDisplayed before = some (code, shown) ∧ time ≤ shown + 60) ∧ wrongs before < 9 ∧
      triedSince before = false
  wrong : ∀ after code before, s.log = after ++ .wrong code :: before →
    lastDisplayed before ≠ none ∧ triedSince before = false

theorem Inv.gate {s : State} (h : Inv s) : Gate s where
  granted := h.granted
  wrong := h.wrong
  valid code shown hlast htried hnow spawns := by
    rw [State.terminalAuth_right (h.kept code shown hlast htried hnow)]

theorem Inv.init (now : Nat) (lockout : Option LockoutState) : Inv (.init now lockout) where
  pending := by simp [State.init]
  due := by simp [State.init]
  counted _ := Nat.zero_le _
  kept := by simp [State.init, lastDisplayed]
  granted := by simp [State.init]
  wrong := by simp [State.init]

theorem split_cons {log after before : List Entry} {first entry : Entry}
    (h : first :: log = after ++ entry :: before) :
    (entry = first ∧ before = log) ∨ ∃ after', log = after' ++ entry :: before := by
  cases after with
  | nil =>
    obtain ⟨rfl, rfl⟩ := List.cons.inj h
    exact .inl ⟨rfl, rfl⟩
  | cons x after => exact .inr ⟨after, (List.cons.inj h).2⟩

/-- An entry that is no try and shows no code. -/
def Entry.quiet : Entry → Bool
  | .denied _ | .expired => true
  | _ => false

theorem quiet_log {entry : Entry} (h : entry.quiet) (log : List Entry) :
    lastDisplayed (entry :: log) = lastDisplayed log ∧
    triedSince (entry :: log) = triedSince log ∧ wrongs (entry :: log) = wrongs log := by
  cases entry with
  | denied | expired => exact ⟨rfl, rfl, rfl⟩
  | displayed | wrong | granted | paired => cases h

section steps
variable {s s' : State}

theorem Inv.push (h : Inv s) {entry : Entry} (hquiet : entry.quiet) : Inv (s.push entry) := by
  obtain ⟨hlast, htried, hwrongs⟩ := quiet_log hquiet s.log
  refine ⟨?_, h.due, ?_, ?_, ?_, ?_⟩
  · intro code hcode
    obtain ⟨hlocked, htried', hshown⟩ := h.pending code hcode
    exact ⟨hlocked, htried.trans htried', hlast ▸ hshown⟩
  · show Counted s.load_lockout (wrongs (entry :: s.log))
    rw [hwrongs]
    exact h.counted
  · exact fun code shown hlast' htried' => h.kept code shown (hlast ▸ hlast') (htried ▸ htried')
  · intro after code time spawned before heq
    rcases split_cons heq with ⟨rfl, -⟩ | ⟨after', heq⟩
    · cases hquiet
    · exact h.granted after' code time spawned before heq
  · intro after code before heq
    rcases split_cons heq with ⟨rfl, -⟩ | ⟨after', heq⟩
    · cases hquiet
    · exact h.wrong after' code before heq

theorem Inv.request (h : Inv s) (bytes : List UInt8) : Inv (s.terminalRequest bytes) := by
  rcases s.terminalRequest_cases bytes with ⟨reason, heq⟩ | ⟨hlocked, heq⟩
  · rw [heq]
    exact h.push rfl
  rw [heq]
  refine ⟨?_, ?_, h.counted, ?_, ?_, ?_⟩
  · intro code hcode
    obtain rfl := Option.some.inj hcode
    exact ⟨hlocked, rfl, s.now, rfl, List.mem_cons_self ..⟩
  · intro due hdue
    rcases List.mem_cons.1 hdue with rfl | hdue
    · exact Nat.le_add_right ..
    · exact h.due due hdue
  · intro code shown hlast _ _
    obtain ⟨rfl, -⟩ := Prod.mk.inj (Option.some.inj hlast)
    rfl
  · intro after code time spawned before heq
    rcases split_cons heq with ⟨heq, -⟩ | ⟨after', heq⟩
    · cases heq
    · exact h.granted after' code time spawned before heq
  · intro after code before heq
    rcases split_cons heq with ⟨heq, -⟩ | ⟨after', heq⟩
    · cases heq
    · exact h.wrong after' code before heq

theorem Inv.auth (h : Inv s) (provided : Option Code) (spawns : Bool) :
    Inv (s.terminalAuth provided spawns) := by
  cases hpending : s.pending_code with
  | none =>
    rw [s.terminalAuth_none hpending]
    exact h.push rfl
  | some code =>
    obtain ⟨hlocked, htried, shown, hlast, hdue⟩ := h.pending code hpending
    by_cases hprovided : provided.getD [] = code
    · have heq : s.terminalAuth provided spawns = s.terminalAuth (some code) spawns := by
        simp only [State.terminalAuth, hprovided, Option.getD_some]
      rw [heq, s.terminalAuth_right hpending]
      refine ⟨by simp, h.due, fun _ => Nat.zero_le _, fun _ _ _ htried => (nomatch htried), ?_, ?_⟩
      · intro after code' time spawned before heq
        rcases split_cons heq with ⟨hentry, rfl⟩ | ⟨after', heq⟩
        · obtain ⟨rfl, rfl, rfl⟩ := Entry.granted.inj hentry
          exact ⟨⟨shown, hlast, h.due _ hdue⟩, h.counted.lt hlocked, htried⟩
        · exact h.granted after' code' time spawned before heq
      · intro after code' before heq
        rcases split_cons heq with ⟨heq, -⟩ | ⟨after', heq⟩
        · cases heq
        · exact h.wrong after' code' before heq
    · obtain ⟨reason, heq⟩ := s.terminalAuth_wrong hpending hprovided spawns
      rw [heq]
      refine ⟨by simp, h.due, h.counted.failed, fun _ _ _ htried => (nomatch htried), ?_, ?_⟩
      · intro after code' time spawned before heq
        rcases split_cons heq with ⟨heq, -⟩ | ⟨after', heq⟩
        · cases heq
        rcases split_cons heq with ⟨heq, -⟩ | ⟨after', heq⟩
        · cases heq
        exact h.granted after' code' time spawned before heq
      · intro after code' before heq
        rcases split_cons heq with ⟨heq, -⟩ | ⟨after', heq⟩
        · cases heq
        rcases split_cons heq with ⟨heq, rfl⟩ | ⟨after', heq⟩
        · exact ⟨by simp [hlast], htried⟩
        · exact h.wrong after' code' before heq

/-- A code that is taken away has had its minute. -/
theorem Inv.forget (h : Inv s) (hexpired : s.Expired) {timers : List Nat}
    (htimers : ∀ due ∈ timers, due ∈ s.timers) :
    Inv { s with pending_code := none, timers } := by
  refine ⟨by simp, fun due hdue => h.due due (htimers due hdue), h.counted, ?_, h.granted, h.wrong⟩
  intro code shown hlast htried hnow
  have hpending := h.kept code shown hlast htried hnow
  rcases hexpired with hnone | hold
  · rw [hnone] at hpending
    cases hpending
  · exact absurd (hold code shown hlast) (Nat.not_le.2 hnow)

theorem Inv.timeout (h : Inv s) (hexpired : s.Expired) (due : Nat) : Inv (s.timeout due) := by
  have hforget : Inv { s with pending_code := none, timers := s.timers.erase due } :=
    h.forget hexpired fun _ => List.mem_of_mem_erase
  simp only [State.timeout]
  split
  · exact hforget.push rfl
  · next hnone =>
    rw [Option.not_isSome_iff_eq_none] at hnone
    rw [← hnone] at hforget
    exact hforget

theorem Inv.step (h : Inv s) {label : Label} (hgood : Harmless s label) (hs : step s label = some s') :
    Inv s' := by
  cases label with
  | request bytes =>
    simp only [RemoteDebug.step] at hs
    split at hs
    · exact Option.some.inj hs ▸ h.request bytes
    · cases hs
  | auth provided spawns => exact Option.some.inj hs ▸ h.auth provided spawns
  | passes seconds =>
    simp only [RemoteDebug.step] at hs
    split at hs
    · next hall =>
      obtain rfl := Option.some.inj hs
      refine ⟨h.pending, fun due hdue => by
          simpa using List.all_eq_true.1 hall due hdue, h.counted, ?_, h.granted, h.wrong⟩
      exact fun code shown hlast htried hnow =>
        h.kept code shown hlast htried (Nat.lt_of_le_of_lt (Nat.le_add_right ..) hnow)
    · cases hs
  | fires due =>
    simp only [RemoteDebug.step] at hs
    split at hs
    · exact Option.some.inj hs ▸ h.timeout hgood due
    · cases hs
  | restarts =>
    obtain rfl := Option.some.inj hs
    have hforget : Inv { s with pending_code := none, timers := [] } := h.forget hgood (by simp)
    exact ⟨hforget.pending, hforget.due, hforget.counted, hforget.kept, hforget.granted, hforget.wrong⟩
  | resets =>
    simp only [RemoteDebug.step] at hs
    split at hs
    · cases hs
    · obtain rfl := Option.some.inj hs
      have hsame : { s.load_lockout with attempts_this_boot := 0 } = s.load_lockout := by rw [← hgood]
      refine ⟨?_, h.due, ?_, h.kept, h.granted, h.wrong⟩
      · exact fun code hcode => h.pending code hcode
      · show Counted { s.load_lockout with attempts_this_boot := 0 } (wrongs s.log)
        rw [hsame]
        exact h.counted
  | pairs =>
    obtain rfl := Option.some.inj hs
    refine ⟨?_, h.due, fun _ => Nat.zero_le _, h.kept, ?_, ?_⟩
    · intro code hcode
      exact ⟨rfl, (h.pending code hcode).2⟩
    · intro after code time spawned before heq
      rcases split_cons heq with ⟨heq, -⟩ | ⟨after', heq⟩
      · cases heq
      · exact h.granted after' code time spawned before heq
    · intro after code before heq
      rcases split_cons heq with ⟨heq, -⟩ | ⟨after', heq⟩
      · cases heq
      · exact h.wrong after' code before heq
  | channels firmware os =>
    obtain rfl := Option.some.inj hs
    exact ⟨h.pending, h.due, h.counted, h.kept, h.granted, h.wrong⟩

end steps

/-- In a run of harmless steps the gate holds. -/
theorem gate_holds {now : Nat} {lockout : Option LockoutState} {labels : List Label} {s : State}
    (hrun : Machine.run step (.init now lockout) labels = some s)
    (hgood : Machine.Along step Harmless (.init now lockout) labels) : Gate s :=
  (hgood.inv (fun _ _ _ hlabel hs hi => Inv.step hi hlabel hs) hrun (Inv.init now lockout)).gate

def dev : Label := .channels (some "dev") (some "dev")

def zeros : List UInt8 := List.replicate CODE_LEN 0

def ones : List UInt8 := List.replicate CODE_LEN 1

def halfMinute : List Label :=
  [.resets, dev, .request zeros, .passes 30, .auth (some (generate_code zeros)) true]

theorem gate_holds_half_a_minute : ∃ s, Machine.run step (.init 0 none) halfMinute = some s ∧ Gate s :=
  ⟨_, rfl, @gate_holds 0 none halfMinute _ rfl ⟨rfl, trivial, trivial, trivial, trivial, trivial⟩⟩

/-- A code displayed half a minute after another goes with it. -/
def overtaken : List Label :=
  [dev, .request zeros, .passes 30, .request ones, .passes 30, .fires 60]

/-- Two wrong codes before each of five restarts. -/
def forgiven : List Label :=
  (List.replicate 5 [.resets, dev, .request zeros, .auth none true, .request zeros, .auth none true,
    .restarts]).flatten ++ [dev, .request zeros, .auth (some (generate_code zeros)) true]

theorem gate_fails : (∃ s, Machine.run step (.init 0 none) overtaken = some s ∧ ¬ Gate s) ∧
    ∃ s, Machine.run step (.init 0 none) forgiven = some s ∧ ¬ Gate s := by
  refine ⟨⟨_, rfl, fun h => ?_⟩, ⟨_, rfl, fun h => ?_⟩⟩
  · have hvalid := h.valid (generate_code ones) 30 rfl rfl (by decide) true
    exact absurd hvalid (by decide)
  · have hgranted := (h.granted [] (generate_code zeros) 0 true _ rfl).2.1
    exact absurd hgranted (by decide)

end RemoteDebug
