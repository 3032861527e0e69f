import Mathlib
import BetterFrame.Lib.Json
import BetterFrame.Lib.Run

/-!
# Standby on the Android viewer

`ViewerSession`: `start`, `stop`, `close`, `recordActivity`, `setStandby`, `checkSleep` and
`dispatchPowerCommand`. A block under `activityLock` and a queued task are one step; a call on the
UI thread and the sleep check on the renderer are taken apart where another thread can come in
between. Which clock readings, policies, snapshots, assignments and sockets there are is up to the
steps.
-/

namespace AndroidPower

open Machine

/-! ### Commands -/

/-- What Kotlin's `isBlank` takes for white space. -/
def isWhitespace (c : Char) : Bool :=
  let n := c.toNat
  (9 ≤ n && n ≤ 13) || (28 ≤ n && n ≤ 32) || n = 0xa0 || n = 0x1680 || (0x2000 ≤ n && n ≤ 0x200a) ||
    n = 0x2028 ||
    n = 0x2029 || n = 0x202f || n = 0x205f || n = 0x3000

def isBlank (s : String) : Bool := s.toList.all isWhitespace

/-- `String.length`, in UTF-16 units. -/
def utf16Length (s : String) : Nat := (s.toList.map fun c => if 0x10000 ≤ c.toNat then 2 else 1).sum

/-- A display id, given as a string or a number. -/
def powerDisplayId (value : Option Json) : Option String :=
  let text := match value with
    | some (.str s) => some s
    | some (.num n) => some (String.ofList n.lit)
    | _ => none
  text.filter fun s => !isBlank s && s ≠ "null"

/-- The state a command asks for, if it is a power command. -/
def wanted (command : Json) : Option Bool :=
  match command.get? "type" with
  | some (.str "standby") => some true
  | some (.str "wake") => some false
  | _ => none

/-- The request id of a command; a command with an unusable one is no command. -/
def requestId (command : Json) : Option (Option String) :=
  match command.get? "request_id" with
  | none => some none
  | some (.str value) => if isBlank value ∨ 128 < utf16Length value then none else some (some value)
  | some _ => none

/-- The command is addressed to the display: it names it, or none. -/
def Addresses (command : Json) (displayId : String) : Prop :=
  command.get? "display_id" = none ∨ powerDisplayId (command.get? "display_id") = some displayId

instance {command : Json} {displayId : String} : Decidable (Addresses command displayId) :=
  inferInstanceAs (Decidable (_ ∨ _))

/-! ### The session -/

/-- A web socket, with the epoch of its listener. -/
structure Socket where
  id : Nat
  epoch : Nat
deriving DecidableEq

/-- `id` tells the objects apart. -/
structure PowerAssignment where
  id : Nat
  displayId : String
  epoch : Nat
deriving DecidableEq

/-- The sleep time-out, and the snapshot of the plan that it was read from. -/
structure IdlePolicy where
  snapshot : Nat
  sleepTimeoutMs : Nat

/-- A command that `dispatchPowerCommand` queued on the renderer. -/
structure Dispatched where
  command : Json
  standby : Bool
  requestId : Option String
  assignment : Option PowerAssignment
  source : Option Socket
  epoch : Nat

/-- What is sent for a command that came with a request id. -/
structure PowerResult where
  socket : Socket
  command : Json
  request_id : String
  accepted : Bool
  power_revision : Nat

/-- What is posted to the UI thread. `decided` is how many inputs there were as the sleep was decided. -/
inductive UiTask where
  | replay (epoch : Nat)
  | changed (epoch revision : Nat)
  | sleep (epoch snapshot revision decided : Nat)

/-- How far the UI thread is in a call. -/
inductive UiCall where
  /-- `start` set `running`. -/
  | started
  /-- It recorded an activity. -/
  | recorded
  /-- It counted the generation. -/
  | numbered
  /-- `stop` cleared `running`; `close` goes on from there. -/
  | halted (closing : Bool)
  | ended (closing : Bool)
  | hidden (closing : Bool)
  | unassigned (closing : Bool)
  /-- `setStandby` read the generation. -/
  | setStandby (standby : Bool) (epoch : Nat)
  /-- Its block is done. -/
  | switched (epoch revision : Nat)

/-- How far the renderer is in a sleep check. -/
inductive SleepCheck where
  | observed (policy : IdlePolicy) (epoch revision : Nat)
  | decided (epoch snapshot revision decided : Nat)

/-- `shown` is the last value given to `onStandbyChanged`, `inputs` counts the inputs recorded so
far, and a sleep that took effect leaves that count as it was decided and as it took effect. -/
structure Session where
  running : Bool
  closed : Bool
  generation : Nat
  isStandby : Bool
  powerRevision : Nat
  lastActivity : Nat
  activityRevision : Nat
  socket : Option Socket
  powerAssignment : Option PowerAssignment
  renderSnapshot : Option Nat
  idlePolicy : Option IdlePolicy
  uiCall : Option UiCall
  ui : List UiTask
  renderer : List Dispatched
  sleepCheck : Option SleepCheck
  objects : Nat
  shown : Option Bool
  sent : List PowerResult
  inputs : Nat
  sleeps : List (Nat × Nat)

namespace Session

/-- A session that was not started. -/
def init : Session where
  running := false
  closed := false
  generation := 0
  isStandby := false
  powerRevision := 0
  lastActivity := 0
  activityRevision := 0
  socket := none
  powerAssignment := none
  renderSnapshot := none
  idlePolicy := none
  uiCall := none
  ui := []
  renderer := []
  sleepCheck := none
  objects := 0
  shown := none
  sent := []
  inputs := 0
  sleeps := []

/-- The block of `recordActivity`. -/
def recordActivity (s : Session) (now : Nat) : Session :=
  { s with
    lastActivity := max s.lastActivity now, activityRevision := s.activityRevision + 1,
    inputs := s.inputs + 1 }

/-- The block of `setStandby`, and the revision it returns unless nothing changes. -/
def switch (s : Session) (standby : Bool) (now : Nat) : Session × Option Nat :=
  let s := if standby then s else s.recordActivity now
  if s.isStandby = standby then (s, none)
  else ({ s with isStandby := standby, powerRevision := s.powerRevision + 1 }, some (s.powerRevision + 1))

/-- A task for the UI thread. -/
def post (s : Session) (task : UiTask) : Session := { s with ui := s.ui ++ [task] }

/-- `setStandby` where nothing comes in between. -/
def setStandby (s : Session) (standby : Bool) (now : Nat) : Session :=
  if s.closed then s
  else
    match s.switch standby now with
    | (s, none) => s
    | (s, some revision) => s.post (.changed s.generation revision)

/-- A call of the UI thread goes on. -/
def advance (s : Session) (now : Nat) : UiCall → Session
  | .started => { s.recordActivity now with uiCall := some .recorded }
  | .recorded => { s with generation := s.generation + 1, uiCall := some .numbered }
  | .numbered => { s.post (.replay s.generation) with uiCall := none }
  | .halted closing => { s with generation := s.generation + 1, uiCall := some (.ended closing) }
  | .ended closing => { s with renderSnapshot := none, uiCall := some (.hidden closing) }
  | .hidden closing => { s with powerAssignment := none, uiCall := some (.unassigned closing) }
  | .unassigned closing =>
    { s with closed := s.closed || closing, ui := if closing then [] else s.ui, uiCall := none }
  | .setStandby standby epoch =>
    match s.switch standby now with
    | (s, none) => { s with uiCall := none }
    | (s, some revision) => { s with uiCall := some (.switched epoch revision) }
  | .switched epoch revision => { s.post (.changed epoch revision) with uiCall := none }

/-- A task posted with `ui(epoch)`. -/
def perform (s : Session) : UiTask → Session
  | .replay epoch => if s.running ∧ s.generation = epoch then { s with shown := some s.isStandby } else s
  | .changed epoch revision =>
    if s.running ∧ s.generation = epoch ∧ s.powerRevision = revision then
      { s with shown := some s.isStandby } else s
  | .sleep epoch snapshot revision decided =>
    if s.running ∧ s.generation = epoch ∧ s.renderSnapshot = some snapshot ∧ s.isStandby = false ∧
        s.activityRevision = revision then
      { s with
        isStandby := true
        powerRevision := s.powerRevision + 1
        shown := some true
        sleeps := s.sleeps ++ [(decided, s.inputs)] }
    else s

/-- `checkSleep` up to the revision it observes. -/
def observe (s : Session) (epoch : Nat) : Session :=
  match s.idlePolicy with
  | none => s
  | some policy =>
    if policy.sleepTimeoutMs = 0 ∨ s.isStandby then s
    else { s with sleepCheck := some (.observed policy epoch s.activityRevision) }

/-- The rest of `checkSleep`. -/
def goOn (s : Session) (now : Nat) : SleepCheck → Session
  | .observed policy epoch revision =>
    if s.running ∧ s.closed = false ∧ s.generation = epoch ∧ s.renderSnapshot = some policy.snapshot ∧
      s.isStandby = false ∧
        s.activityRevision = revision ∧ policy.sleepTimeoutMs ≤ now - s.lastActivity then
      { s with sleepCheck := some (.decided epoch policy.snapshot revision s.inputs) }
    else { s with sleepCheck := none }
  | .decided epoch snapshot revision decided =>
    { s.post (.sleep epoch snapshot revision decided) with sleepCheck := none }

/-- `dispatchPowerCommand` up to the task it queues. -/
def dispatch (s : Session) (command : Json) (source : Option Socket) (epoch : Nat) : Session :=
  match wanted command, requestId command with
  | some standby, some requestId =>
    if s.closed then s
    else { s with renderer := s.renderer ++
      [⟨command, standby, requestId, s.powerAssignment, source, epoch⟩] }
  | _, _ => s

/-- Whether the session, as it is, takes the command. -/
def accepts (s : Session) (d : Dispatched) : Bool :=
  match d.assignment with
  | none => false
  | some assignment =>
    s.powerAssignment = some assignment && assignment.epoch = d.epoch &&
      decide (Addresses d.command assignment.displayId)

/-- The task of `dispatchPowerCommand`. -/
def execute (s : Session) (d : Dispatched) (now : Nat) : Session :=
  if s.running = false ∨ s.closed ∨ s.generation ≠ d.epoch ∨ (d.source.isSome ∧ s.socket ≠ d.source) then s
  else
    let accepted := s.accepts d
    let s := if accepted then s.setStandby d.standby now else s
    match d.source, d.requestId with
    | some socket, some requestId =>
      { s with sent := s.sent ++ [⟨socket, d.command, requestId, accepted, s.powerRevision⟩] }
    | _, _ => s

/-- What the worker, the UI thread and the system do to a session. -/
inductive Step where
  | start
  | stop
  | close
  | setStandby (standby : Bool)
  | advance (now : Nat)
  /-- The UI thread takes its next task. -/
  | perform
  | recordActivity (now : Nat)
  | observe (epoch : Nat)
  | goOn (now : Nat)
  /-- The renderer takes its next command. -/
  | execute (now : Nat)
  | setPolicy (policy : Option IdlePolicy)
  | emitPlan
  | clearPlan
  | assign (displayId : Option String) (epoch : Nat)
  | connect (epoch : Nat)
  | disconnect (socket : Socket)
  | dropSocket
  | message (source : Socket) (command : Json)
  | applyPowerCommand (command : Json)
  /-- A load that finds a reset under way or fails clears `running`. -/
  | halt

def step (s : Session) : Step → Option Session
  | .start =>
    if s.uiCall.isSome then none
    else if s.closed ∨ s.running then some s
    else some { s with running := true, uiCall := some .started }
  | .stop =>
    if s.uiCall.isSome then none else some { s with running := false, uiCall := some (.halted false) }
  | .close =>
    if s.uiCall.isSome then none
    else if s.closed then some s
    else some { s with running := false, uiCall := some (.halted true) }
  | .setStandby standby =>
    if s.uiCall.isSome then none
    else if s.closed then some s
    else some { s with uiCall := some (.setStandby standby s.generation) }
  | .advance now => s.uiCall.map (s.advance now)
  | .perform =>
    match s.uiCall, s.ui with
    | none, task :: ui => some ({ s with ui }.perform task)
    | _, _ => none
  | .recordActivity now => some (s.recordActivity now)
  | .observe epoch => if s.sleepCheck.isSome then none else some (s.observe epoch)
  | .goOn now => s.sleepCheck.map (s.goOn now)
  | .execute now =>
    match s.sleepCheck, s.renderer with
    | none, d :: renderer => some ({ s with renderer }.execute d now)
    | _, _ => none
  | .setPolicy policy => if s.sleepCheck.isSome then none else some { s with idlePolicy := policy }
  | .emitPlan => some { s with renderSnapshot := some s.objects, objects := s.objects + 1 }
  | .clearPlan => some { s with renderSnapshot := none }
  | .assign displayId epoch =>
    some { s with
      powerAssignment := displayId.map fun id => ⟨s.objects, id, epoch⟩, objects := s.objects + 1 }
  | .connect epoch => some { s with socket := some ⟨s.objects, epoch⟩, objects := s.objects + 1 }
  | .disconnect socket =>
    some (if socket.epoch = s.generation ∧ s.socket = some socket then { s with socket := none } else s)
  | .dropSocket => some { s with socket := none }
  | .message source command =>
    some (if source.epoch = s.generation ∧ s.running ∧ s.closed = false ∧ s.socket = some source then
      s.dispatch command (some source) source.epoch else s)
  | .applyPowerCommand command => some (s.dispatch command none s.generation)
  | .halt => some { s with running := false }

/-! ### One step -/

/-- The result says that the command was accepted, and as it is sent the command's socket is
current, its display is the assigned one, and what it asks for holds at the revision it carries. -/
def Confirms (s : Session) (r : PowerResult) : Prop :=
  s.socket = some r.socket ∧
    (∃ assignment, s.powerAssignment = some assignment ∧ Addresses r.command assignment.displayId) ∧
    r.power_revision = s.powerRevision ∧ wanted r.command = some s.isStandby

/-- The revision counts the changes of `isStandby`, and at most one result is sent, truthfully. -/
structure Moves (s s' : Session) : Prop where
  revision : s'.powerRevision = s.powerRevision + if s'.isStandby = s.isStandby then 0 else 1
  sent : s'.sent = s.sent ∨ ∃ r, s'.sent = s.sent ++ [r] ∧ (r.accepted → s'.Confirms r)

/-- What is queued on the renderer is a command as `dispatchPowerCommand` read it. -/
def Read (d : Dispatched) : Prop := wanted d.command = some d.standby

section Steps

variable {s s' : Session} {now : Nat}

theorem Moves.same (hrevision : s'.powerRevision = s.powerRevision) (hstandby : s'.isStandby = s.isStandby)
    (hsent : s'.sent = s.sent) : s.Moves s' :=
  ⟨by simp [hrevision, hstandby], .inl hsent⟩

/-- The two ways through the block of `setStandby`. -/
theorem switch_cases (s : Session) (standby : Bool) (now : Nat) : ∃ t, (t = s ∨ t = s.recordActivity now) ∧
    (s.switch standby now = (t, none) ∧ t.isStandby = standby ∨
      s.switch standby now = ({ t with isStandby := standby, powerRevision := t.powerRevision + 1 },
      some (t.powerRevision + 1)) ∧ t.isStandby ≠ standby) := by
  refine ⟨if standby then s else s.recordActivity now, ?_, ?_⟩
  · cases standby
    · exact .inr rfl
    · exact .inl rfl
  · unfold switch
    generalize (if standby then s else s.recordActivity now) = t
    by_cases h : t.isStandby = standby
    · exact .inl ⟨if_pos h, h⟩
    · exact .inr ⟨if_neg h, h⟩

theorem switch_moves (standby : Bool) : s.Moves (s.switch standby now).1 := by
  obtain ⟨t, ht, h | h⟩ := switch_cases s standby now
  · rw [h.1]
    rcases ht with rfl | rfl <;> exact .same rfl rfl rfl
  · rw [h.1]
    have hne := h.2
    rcases ht with rfl | rfl <;> exact ⟨by simp [recordActivity] at hne ⊢; simp [Ne.symm hne], .inl rfl⟩

theorem advance_moves (call : UiCall) : s.Moves (s.advance now call) := by
  cases call with
  | setStandby standby epoch =>
    have h := @switch_moves s now standby
    simp only [advance]
    split
    · next t heq =>
      rw [heq] at h
      exact ⟨h.revision, h.sent⟩
    · next t revision heq =>
      rw [heq] at h
      exact ⟨h.revision, h.sent⟩
  | _ => exact .same rfl rfl rfl

theorem setStandby_moves (standby : Bool) : s.Moves (s.setStandby standby now) := by
  have h := @switch_moves s now standby
  unfold setStandby
  split
  · exact .same rfl rfl rfl
  · split
    · next t heq => rwa [heq] at h
    · next t revision heq =>
      rw [heq] at h
      exact ⟨h.revision, h.sent⟩

theorem perform_moves (task : UiTask) : s.Moves (s.perform task) := by
  cases task with
  | sleep epoch snapshot revision decided =>
    simp only [perform]
    split
    · next h => exact ⟨by simp [h.2.2.2.1], .inl rfl⟩
    · exact .same rfl rfl rfl
  | replay epoch | changed epoch revision => simp only [perform]; split <;> exact .same rfl rfl rfl

theorem observe_moves (epoch : Nat) : s.Moves (s.observe epoch) := by
  unfold observe
  split
  · exact .same rfl rfl rfl
  · split <;> exact .same rfl rfl rfl

theorem goOn_moves (check : SleepCheck) : s.Moves (s.goOn now check) := by
  cases check with
  | observed policy epoch revision => simp only [goOn]; split <;> exact .same rfl rfl rfl
  | decided epoch snapshot revision decided => exact .same rfl rfl rfl

theorem dispatch_moves (command : Json) (source : Option Socket) (epoch : Nat) :
    s.Moves (s.dispatch command source epoch) := by
  unfold dispatch
  split
  · split <;> exact .same rfl rfl rfl
  · exact .same rfl rfl rfl

theorem setStandby_sent (standby : Bool) : (s.setStandby standby now).sent = s.sent := by
  obtain ⟨t, ht, h⟩ := switch_cases s standby now
  have hkept : t.sent = s.sent := by rcases ht with rfl | rfl <;> rfl
  unfold setStandby
  split
  · rfl
  · rcases h with ⟨heq, -⟩ | ⟨heq, -⟩ <;> rw [heq] <;> exact hkept

/-- After `setStandby` the session is as it was asked to be. -/
theorem setStandby_isStandby (hclosed : s.closed = false) (standby : Bool) :
    (s.setStandby standby now).isStandby = standby ∧ (s.setStandby standby now).socket = s.socket ∧
      (s.setStandby standby now).powerAssignment = s.powerAssignment := by
  obtain ⟨t, ht, h⟩ := switch_cases s standby now
  have hkept : t.socket = s.socket ∧ t.powerAssignment = s.powerAssignment := by
    rcases ht with rfl | rfl <;> exact ⟨rfl, rfl⟩
  rw [setStandby, if_neg (by simp [hclosed])]
  rcases h with ⟨heq, hstandby⟩ | ⟨heq, -⟩
  · rw [heq]
    exact ⟨hstandby, hkept⟩
  · rw [heq]
    exact ⟨rfl, hkept⟩

theorem accepts_iff {d : Dispatched} (h : s.accepts d) : ∃ assignment, s.powerAssignment = some assignment ∧
    Addresses d.command assignment.displayId := by
  unfold accepts at h
  split at h
  · cases h
  · next assignment _ =>
    simp only [Bool.and_eq_true, decide_eq_true_eq] at h
    exact ⟨assignment, h.1.1, h.2⟩

theorem execute_moves {d : Dispatched} (hd : Read d) : s.Moves (s.execute d now) := by
  unfold execute
  split
  · exact .same rfl rfl rfl
  · next hgo =>
    simp only [not_or, not_and, ne_eq, not_not, Bool.not_eq_true] at hgo
    obtain ⟨-, hclosed, -, hsocket⟩ := hgo
    dsimp only
    have hmoves : s.Moves (if s.accepts d then s.setStandby d.standby now else s) := by
      split
      · exact setStandby_moves _
      · exact .same rfl rfl rfl
    split
    · next socket requestId hsource _ =>
      have hsent : (if s.accepts d then s.setStandby d.standby now else s).sent = s.sent := by
        split
        · exact setStandby_sent _
        · rfl
      refine ⟨hmoves.revision, .inr ⟨_, congrArg (· ++ _) hsent, fun haccepted => ?_⟩⟩
      have hcurrent : s.socket = some socket := (hsocket (by simp [hsource])).trans hsource
      rw [if_pos haccepted]
      obtain ⟨hstandby, hkept, hassignment⟩ := @setStandby_isStandby s now hclosed d.standby
      obtain ⟨assignment, hassigned, haddressed⟩ := accepts_iff haccepted
      exact ⟨hkept.trans hcurrent, ⟨assignment, hassignment.trans hassigned, haddressed⟩, rfl,
        hd.trans (congrArg some hstandby.symm)⟩
    · exact hmoves

end Steps

/-! ### What every session keeps -/

/-- The UI thread is inside `start`. -/
def Starting (s : Session) : Prop :=
  s.uiCall = some .started ∨ s.uiCall = some .recorded ∨ s.uiCall = some .numbered

/-- The UI thread is inside `stop` or `close`. -/
def Stopping (s : Session) : Prop :=
  ∃ closing, s.uiCall = some (.halted closing) ∨ s.uiCall = some (.ended closing) ∨
    s.uiCall = some (.hidden closing) ∨ s.uiCall = some (.unassigned closing)

/-- What is shown is the present state, or is going to be: a task is posted that shows it, or is
about to be. -/
def Settling (s : Session) : Prop :=
  s.shown = some s.isStandby ∨ (.replay s.generation ∈ s.ui ∨ .changed s.generation s.powerRevision ∈ s.ui) ∨
    s.uiCall = some (.switched s.generation s.powerRevision)

/-- What ties the counters of the worker to the call that the UI thread is in. -/
structure Inv (s : Session) : Prop where
  inputs : s.inputs = s.activityRevision
  stopping : s.Stopping → s.running = false
  /-- No generation begins while the UI thread is in another call. -/
  epochs : ∀ epoch, (∃ standby, s.uiCall = some (.setStandby standby epoch)) ∨
    (∃ revision, s.uiCall = some (.switched epoch revision)) →
    epoch = s.generation
  shown : s.running → s.Starting ∨ s.Settling
  /-- A sleep is decided at the revision it observed. -/
  decided : ∀ epoch snapshot revision decided,
    s.sleepCheck = some (.decided epoch snapshot revision decided) → decided = revision
  posted : ∀ epoch snapshot revision decided, .sleep epoch snapshot revision decided ∈ s.ui →
    decided = revision
  sleeps : ∀ p ∈ s.sleeps, p.1 = p.2
  read : ∀ d ∈ s.renderer, Read d

theorem inv_init : init.Inv where
  inputs := rfl
  stopping := fun _ => rfl
  epochs := by simp [init]
  shown := by simp [init]
  decided := by simp [init]
  posted := by simp [init]
  sleeps := by simp [init]
  read := by simp [init]

section Preservation

variable {s t : Session} {now : Nat}

theorem Inv.recordActivity (h : s.Inv) : (s.recordActivity now).Inv :=
  ⟨congrArg (· + 1) h.inputs, h.stopping, h.epochs, h.shown, h.decided, h.posted, h.sleeps, h.read⟩

theorem Inv.settling (h : s.Inv) (hr : s.running) (hs : ¬ s.Starting) : s.Settling :=
  (h.shown hr).resolve_left hs

/-- A block of `setStandby` that changes the state, with what shows it: the call goes on to post it,
or it is posted. -/
theorem Inv.switched (h : s.Inv) (standby : Bool) :
    Inv { s with
      isStandby := standby
      powerRevision := s.powerRevision + 1
      uiCall := some (.switched s.generation (s.powerRevision + 1)) } where
  inputs := h.inputs
  stopping := by simp [Stopping]
  epochs := by simp
  shown _ := .inr (.inr (.inr rfl))
  decided := h.decided
  posted := h.posted
  sleeps := h.sleeps
  read := h.read

theorem Inv.posts (h : s.Inv) (standby : Bool) :
    Inv (post { s with isStandby := standby, powerRevision := s.powerRevision + 1 }
      (.changed s.generation (s.powerRevision + 1))) where
  inputs := h.inputs
  stopping := h.stopping
  epochs := h.epochs
  shown _ := .inr (.inr (.inl (.inr (List.mem_append_right _ (List.mem_singleton.2 rfl)))))
  decided := h.decided
  posted epoch snapshot revision decided hmem := by
    rcases List.mem_append.1 hmem with hmem | hmem
    · exact h.posted epoch snapshot revision decided hmem
    · cases List.mem_singleton.1 hmem
  sleeps := h.sleeps
  read := h.read

theorem Inv.switch_base (h : s.Inv) (ht : t = s ∨ t = s.recordActivity now) : t.Inv := by
  rcases ht with rfl | rfl
  · exact h
  · exact h.recordActivity

theorem inv_setStandby (h : s.Inv) (standby : Bool) : (s.setStandby standby now).Inv := by
  unfold setStandby
  split
  · exact h
  · obtain ⟨t, ht, hswitch⟩ := switch_cases s standby now
    have hbase := h.switch_base ht
    rcases hswitch with ⟨heq, -⟩ | ⟨heq, -⟩
    · rw [heq]
      exact hbase
    · rw [heq]
      exact hbase.posts standby

/-- The UI thread goes on in a call. -/
theorem inv_advance {call : UiCall} (h : s.Inv) (hcall : s.uiCall = some call) :
    (s.advance now call).Inv := by
  have hstopped : ∀ closing, call = .halted closing ∨ call = .ended closing ∨ call = .hidden closing ∨
    call = .unassigned closing → s.running = false := by
    rintro closing (rfl | rfl | rfl | rfl)
    · exact h.stopping ⟨closing, .inl hcall⟩
    · exact h.stopping ⟨closing, .inr (.inl hcall)⟩
    · exact h.stopping ⟨closing, .inr (.inr (.inl hcall))⟩
    · exact h.stopping ⟨closing, .inr (.inr (.inr hcall))⟩
  cases call with
  | started =>
    have h' := @Inv.recordActivity _ now h
    exact ⟨h'.inputs, by simp [Stopping, advance], by
        simp [advance], fun _ => .inl (.inr (.inl rfl)), h'.decided, h'.posted,
      h'.sleeps, h'.read⟩
  | recorded =>
    exact ⟨h.inputs, by simp [Stopping, advance], by
        simp [advance], fun _ => .inl (.inr (.inr rfl)), h.decided, h.posted,
      h.sleeps, h.read⟩
  | numbered =>
    refine ⟨h.inputs, by simp [Stopping, advance], by
        simp [advance], fun _ => .inr (.inr (.inl (.inl ?_))), h.decided, ?_,
      h.sleeps, h.read⟩
    · exact List.mem_append_right _ (List.mem_singleton.2 rfl)
    · intro epoch snapshot revision decided hmem
      rcases List.mem_append.1 hmem with hmem | hmem
      · exact h.posted epoch snapshot revision decided hmem
      · cases List.mem_singleton.1 hmem
  | halted closing | ended closing | hidden closing =>
    have hr := hstopped closing (by simp)
    exact ⟨h.inputs, fun _ =>
      hr, by simp [advance], fun hr' => absurd hr' (by simp [advance, hr]), h.decided, h.posted,
      h.sleeps, h.read⟩
  | unassigned closing =>
    have hr := hstopped closing (by simp)
    refine ⟨h.inputs, fun _ =>
      hr, by simp [advance], fun hr' => absurd hr' (by simp [advance, hr]), h.decided, ?_, h.sleeps,
      h.read⟩
    intro epoch snapshot revision decided hmem
    cases closing
    · exact h.posted epoch snapshot revision decided hmem
    · cases hmem
  | setStandby standby epoch =>
    obtain rfl := h.epochs epoch (.inl ⟨standby, hcall⟩)
    obtain ⟨t, ht, hswitch⟩ := switch_cases s standby now
    have hbase := h.switch_base ht
    have hcall' : t.uiCall = some (.setStandby standby s.generation) ∧ t.generation = s.generation := by
      rcases ht with rfl | rfl <;> exact ⟨hcall, rfl⟩
    simp only [advance]
    rcases hswitch with ⟨heq, -⟩ | ⟨heq, -⟩
    · rw [heq]
      refine ⟨hbase.inputs, by simp [Stopping], by
          simp, fun hr => .inr ?_, hbase.decided, hbase.posted, hbase.sleeps, hbase.read⟩
      rcases hbase.settling hr (by simp [Starting, hcall'.1]) with hshown | hposted | hswitched
      · exact .inl hshown
      · exact .inr (.inl hposted)
      · rw [hcall'.1] at hswitched
        cases hswitched
    · rw [heq, ← hcall'.2]
      exact hbase.switched standby
  | switched epoch revision =>
    obtain rfl := h.epochs epoch (.inr ⟨revision, hcall⟩)
    refine ⟨h.inputs, by simp [Stopping, advance], by
        simp [advance], fun hr => .inr ?_, h.decided, ?_, h.sleeps, h.read⟩
    · rcases h.settling hr (by simp [Starting, hcall]) with hshown | hposted | hswitched
      · exact .inl hshown
      · exact .inr (.inl (hposted.imp (List.mem_append_left _) (List.mem_append_left _)))
      · -- what was about to be posted is now
        rw [hcall] at hswitched
        obtain rfl : revision = s.powerRevision := by simpa using hswitched
        exact .inr (.inl (.inr (List.mem_append_right _ (List.mem_singleton.2 rfl))))
    · intro epoch' snapshot revision' decided hmem
      rcases List.mem_append.1 hmem with hmem | hmem
      · exact h.posted epoch' snapshot revision' decided hmem
      · cases List.mem_singleton.1 hmem

/-- The UI thread takes its next task. -/
theorem inv_perform {task : UiTask} {ui : List UiTask} (h : s.Inv) (hcall : s.uiCall = none)
    (hui : s.ui = task :: ui) :
    ({ s with ui }.perform task).Inv := by
  -- without the task, the state settles unless the task was to show it
  have hsettles : s.running → { s with ui }.Settling ∨ task = .replay s.generation ∨
      task = .changed s.generation s.powerRevision := by
    intro hr
    rcases h.settling hr (by simp [Starting, hcall]) with hshown | hposted | hswitched
    · exact .inl (.inl hshown)
    · simp only [hui, List.mem_cons] at hposted
      rcases hposted with (heq | hmem) | (heq | hmem)
      · exact .inr (.inl heq.symm)
      · exact .inl (.inr (.inl (.inl hmem)))
      · exact .inr (.inr heq.symm)
      · exact .inl (.inr (.inl (.inr hmem)))
    · rw [hcall] at hswitched
      cases hswitched
  have hposted : ∀ epoch snapshot revision decided, .sleep epoch snapshot revision decided ∈ ui →
      decided = revision :=
    fun epoch snapshot revision decided hmem =>
      h.posted epoch snapshot revision decided (by rw [hui]; exact List.mem_cons_of_mem _ hmem)
  have hkept : (s.running → { s with ui }.Settling) → Inv { s with ui } := fun hs =>
    ⟨h.inputs, h.stopping, h.epochs, fun hr => .inr (hs hr), h.decided, hposted, h.sleeps, h.read⟩
  have hshown : Inv { s with ui, shown := some s.isStandby } :=
    ⟨h.inputs, h.stopping, h.epochs, fun _ => .inr (.inl rfl), h.decided, hposted, h.sleeps, h.read⟩
  cases task with
  | replay epoch =>
    simp only [perform]
    split
    · exact hshown
    · next hstale =>
      refine hkept fun hr => (hsettles hr).resolve_right ?_
      rintro (heq | heq)
      · obtain rfl : epoch = s.generation := by simpa using heq
        exact hstale ⟨hr, rfl⟩
      · cases heq
  | changed epoch revision =>
    simp only [perform]
    split
    · exact hshown
    · next hstale =>
      refine hkept fun hr => (hsettles hr).resolve_right ?_
      rintro (heq | heq)
      · cases heq
      · obtain ⟨rfl, rfl⟩ : epoch = s.generation ∧ revision = s.powerRevision := by simpa using heq
        exact hstale ⟨hr, rfl, rfl⟩
  | sleep epoch snapshot revision decided =>
    simp only [perform]
    split
    · next hsleep =>
      -- the count of inputs is the one the sleep was decided at
      have hcount : decided = s.inputs :=
        (h.posted epoch snapshot revision decided (by rw [hui]; exact List.mem_cons_self ..)).trans
          (hsleep.2.2.2.2.symm.trans h.inputs.symm)
      refine ⟨h.inputs, h.stopping, h.epochs, fun _ => .inr (.inl rfl), h.decided, hposted,
        fun p hp => ?_, h.read⟩
      rcases List.mem_append.1 hp with hp | hp
      · exact h.sleeps p hp
      · obtain rfl := List.mem_singleton.1 hp
        exact hcount
    · refine hkept fun hr => (hsettles hr).resolve_right ?_
      rintro (heq | heq) <;> cases heq

theorem inv_observe {epoch : Nat} (h : s.Inv) : (s.observe epoch).Inv := by
  unfold observe
  split
  · exact h
  · split
    · exact h
    · exact ⟨h.inputs, h.stopping, h.epochs, h.shown, by simp, h.posted, h.sleeps, h.read⟩

/-- The renderer goes on in a sleep check. -/
theorem inv_goOn {check : SleepCheck} (h : s.Inv) (hcheck : s.sleepCheck = some check) :
    (s.goOn now check).Inv := by
  cases check with
  | observed policy epoch revision =>
    simp only [goOn]
    split
    · next hsleep =>
      refine ⟨h.inputs, h.stopping, h.epochs, h.shown, ?_, h.posted, h.sleeps, h.read⟩
      simp only [Option.some.injEq, SleepCheck.decided.injEq]
      rintro _ _ _ _ ⟨-, -, rfl, rfl⟩
      exact h.inputs.trans hsleep.2.2.2.2.2.1
    · exact ⟨h.inputs, h.stopping, h.epochs, h.shown, by simp, h.posted, h.sleeps, h.read⟩
  | decided epoch snapshot revision decided =>
    refine ⟨h.inputs, h.stopping, h.epochs, fun hr => ?_, by simp [goOn], ?_, h.sleeps, h.read⟩
    · refine (h.shown hr).imp_right fun hs => ?_
      exact hs.imp_right (Or.imp_left (Or.imp (List.mem_append_left _) (List.mem_append_left _)))
    · intro epoch' snapshot' revision' decided' hmem
      rcases List.mem_append.1 hmem with hmem | hmem
      · exact h.posted epoch' snapshot' revision' decided' hmem
      · obtain ⟨rfl, rfl, rfl, rfl⟩ : epoch' = epoch ∧ snapshot' = snapshot ∧ revision' = revision ∧
            decided' = decided := by
          simpa using List.mem_singleton.1 hmem
        exact h.decided _ _ _ _ hcheck

theorem inv_dispatch {command : Json} {source : Option Socket} {epoch : Nat} (h : s.Inv) :
    (s.dispatch command source epoch).Inv := by
  unfold dispatch
  split
  · next standby requestId hwanted hid =>
    split
    · exact h
    · refine ⟨h.inputs, h.stopping, h.epochs, h.shown, h.decided, h.posted, h.sleeps, fun d hd => ?_⟩
      rcases List.mem_append.1 hd with hd | hd
      · exact h.read d hd
      · obtain rfl := List.mem_singleton.1 hd
        exact hwanted
  · exact h

theorem inv_execute {d : Dispatched} (h : s.Inv) : (s.execute d now).Inv := by
  unfold execute
  split
  · exact h
  · have hcommand : Inv (if s.accepts d then s.setStandby d.standby now else s) := by
      split
      · exact inv_setStandby h d.standby
      · exact h
    dsimp only
    split
    · exact ⟨hcommand.inputs, hcommand.stopping, hcommand.epochs, hcommand.shown, hcommand.decided,
        hcommand.posted, hcommand.sleeps, hcommand.read⟩
    · exact hcommand

theorem inv_step {l : Step} (hs : step s l = some t) (h : s.Inv) : t.Inv := by
  cases l with
  | start =>
    simp only [step] at hs
    split at hs
    · cases hs
    · split at hs
      · exact Option.some.inj hs ▸ h
      · obtain rfl := Option.some.inj hs
        exact ⟨h.inputs, by simp [Stopping], by
            simp, fun _ => .inl (.inl rfl), h.decided, h.posted, h.sleeps, h.read⟩
  | stop =>
    simp only [step] at hs
    split at hs
    · cases hs
    · obtain rfl := Option.some.inj hs
      exact ⟨h.inputs, fun _ => rfl, by simp, by simp, h.decided, h.posted, h.sleeps, h.read⟩
  | close =>
    simp only [step] at hs
    split at hs
    · cases hs
    · split at hs
      · exact Option.some.inj hs ▸ h
      · obtain rfl := Option.some.inj hs
        exact ⟨h.inputs, fun _ => rfl, by simp, by simp, h.decided, h.posted, h.sleeps, h.read⟩
  | setStandby standby =>
    simp only [step] at hs
    split at hs
    · cases hs
    · next hcall =>
      have hcall : s.uiCall = none := by simpa using hcall
      split at hs
      · exact Option.some.inj hs ▸ h
      · obtain rfl := Option.some.inj hs
        refine ⟨h.inputs, by simp [Stopping], by
            simp, fun hr => .inr ?_, h.decided, h.posted, h.sleeps, h.read⟩
        rcases h.settling hr (by simp [Starting, hcall]) with hshown | hposted | hswitched
        · exact .inl hshown
        · exact .inr (.inl hposted)
        · rw [hcall] at hswitched
          cases hswitched
  | advance now =>
    obtain ⟨call, hcall, rfl⟩ := Option.map_eq_some_iff.1 hs
    exact inv_advance h hcall
  | perform =>
    simp only [step] at hs
    split at hs
    · next task ui hcall hui =>
      obtain rfl := Option.some.inj hs
      exact inv_perform h hcall hui
    · cases hs
  | recordActivity now => exact Option.some.inj hs ▸ h.recordActivity
  | observe epoch =>
    simp only [step] at hs
    split at hs
    · cases hs
    · exact Option.some.inj hs ▸ inv_observe h
  | goOn now =>
    obtain ⟨check, hcheck, rfl⟩ := Option.map_eq_some_iff.1 hs
    exact inv_goOn h hcheck
  | execute now =>
    simp only [step] at hs
    split at hs
    · next d renderer _ hrenderer =>
      obtain rfl := Option.some.inj hs
      refine inv_execute ⟨h.inputs, h.stopping, h.epochs, h.shown, h.decided, h.posted, h.sleeps,
        fun d hd => ?_⟩
      exact h.read d (hrenderer ▸ List.mem_cons_of_mem _ hd)
    · cases hs
  | setPolicy policy =>
    simp only [step] at hs
    split at hs
    · cases hs
    · obtain rfl := Option.some.inj hs
      exact ⟨h.inputs, h.stopping, h.epochs, h.shown, h.decided, h.posted, h.sleeps, h.read⟩
  | emitPlan | clearPlan | assign | connect | dropSocket =>
    obtain rfl := Option.some.inj hs
    exact ⟨h.inputs, h.stopping, h.epochs, h.shown, h.decided, h.posted, h.sleeps, h.read⟩
  | disconnect socket =>
    obtain rfl := Option.some.inj hs
    split
    · exact ⟨h.inputs, h.stopping, h.epochs, h.shown, h.decided, h.posted, h.sleeps, h.read⟩
    · exact h
  | message source command =>
    obtain rfl := Option.some.inj hs
    split
    · exact inv_dispatch h
    · exact h
  | applyPowerCommand command => exact Option.some.inj hs ▸ inv_dispatch h
  | halt =>
    obtain rfl := Option.some.inj hs
    exact ⟨h.inputs, fun _ => rfl, h.epochs, by simp, h.decided, h.posted, h.sleeps, h.read⟩

/-- What one step does to the revision and to the results. -/
theorem step_moves {l : Step} (h : s.Inv) (hs : step s l = some t) : s.Moves t := by
  cases l with
  | start | stop | close | setStandby =>
    simp only [step] at hs
    repeat' split at hs
    all_goals first
      | obtain rfl := Option.some.inj hs
        exact .same rfl rfl rfl
      | cases hs
  | advance now =>
    obtain ⟨call, -, rfl⟩ := Option.map_eq_some_iff.1 hs
    exact advance_moves call
  | perform =>
    simp only [step] at hs
    split at hs
    · next task ui _ _ =>
      obtain rfl := Option.some.inj hs
      have hmoves : Moves { s with ui } _ := perform_moves task
      exact ⟨hmoves.revision, hmoves.sent⟩
    · cases hs
  | observe epoch =>
    simp only [step] at hs
    split at hs
    · cases hs
    · exact Option.some.inj hs ▸ observe_moves epoch
  | goOn now =>
    obtain ⟨check, -, rfl⟩ := Option.map_eq_some_iff.1 hs
    exact goOn_moves check
  | execute now =>
    simp only [step] at hs
    split at hs
    · next d renderer _ hrenderer =>
      obtain rfl := Option.some.inj hs
      have hmoves : Moves { s with renderer } _ :=
        @execute_moves _ now _ (h.read d (hrenderer ▸ List.mem_cons_self ..))
      exact ⟨hmoves.revision, hmoves.sent⟩
    · cases hs
  | setPolicy policy =>
    simp only [step] at hs
    split at hs
    · cases hs
    · exact Option.some.inj hs ▸ .same rfl rfl rfl
  | recordActivity | emitPlan | clearPlan | assign | connect | dropSocket | halt =>
    exact Option.some.inj hs ▸ .same rfl rfl rfl
  | disconnect socket =>
    obtain rfl := Option.some.inj hs
    split <;> exact .same rfl rfl rfl
  | message source command =>
    obtain rfl := Option.some.inj hs
    split
    · exact dispatch_moves command _ _
    · exact .same rfl rfl rfl
  | applyPowerCommand command => exact Option.some.inj hs ▸ dispatch_moves command _ _

end Preservation

/-- Every session in every interleaving: the revision counts the changes of `isStandby`; once the UI
thread has done what was posted to it, a running session shows its state; a command is confirmed on
the current socket, for the assigned display, at a revision at which it holds; and no sleep takes
effect after an input that came after its decision. -/
theorem standby_agrees (ls : List Step) (s : Session) (hr : run step init ls = some s) :
    (∀ l s', step s l = some s' → s'.powerRevision = s.powerRevision + if s'.isStandby = s.isStandby then 0
      else 1) ∧ (s.running → s.uiCall = none → s.ui = [] → s.shown = some s.isStandby) ∧
      (∀ l s', step s l = some s' → s'.sent = s.sent ∨ ∃ r, s'.sent = s.sent ++ [r] ∧
        (r.accepted → s'.Confirms r)) ∧ ∀ p ∈ s.sleeps, p.1 = p.2 := by
  have h : s.Inv := run_inv (fun _ _ _ hs h => inv_step hs h) hr inv_init
  refine ⟨fun l s' hs => (step_moves h hs).revision, fun hrunning hcall hui => ?_, fun l s' hs =>
    (step_moves h hs).sent, h.sleeps⟩
  rcases h.settling hrunning (by simp [Starting, hcall]) with hshown | hposted | hswitched
  · exact hshown
  · simp [hui] at hposted
  · rw [hcall] at hswitched
    cases hswitched

/-- The viewer starts, is assigned a display and connected, and is sent to standby over its socket. -/
def sentToStandby : List Step :=
  [.start, .advance 10, .advance 10, .advance 10, .perform, .assign (some "d1") 1, .connect 1,
    .message ⟨1, 1⟩ (.obj [("type", .str "standby"), ("request_id", .str "r1"), ("display_id", .str "d1")]),
      .execute 400, .perform]

/-- It is dark, says so and has confirmed the command. -/
theorem standby_agrees_command : ∃ s, run step init sentToStandby = some s ∧ s.powerRevision = 1 ∧
    s.sent.map (fun r => (r.request_id, r.accepted, r.power_revision)) = [("r1", true, 1)] ∧
    s.isStandby = true ∧ s.shown = some s.isStandby := by
  have hrun : run step init sentToStandby = some _ := rfl
  exact ⟨_, hrun, rfl, rfl, rfl, (standby_agrees sentToStandby _ hrun).2.1 rfl rfl rfl⟩

end Session

end AndroidPower
