import BetterFrame.Lib.Json
import BetterFrame.Lib.Run
import BetterFrame.Client.UpdatePolicy

/-!
# Publishing the update policy

`update_recovery.rs`. The lock `POLICY_WRITE` is held
from the checks of `record_heartbeat` to its last file operation, so at most one write of the policy
is in progress (`State.busy`), and `begin_heartbeat` and `suspend` wait for it; every file operation
of the write is a step that may fail. `serde_json` and the `date` command are parameters.

An older policy can replace a newer one, and a suspended policy can stay in force, after two failures
that the code does not carry into its state: the directory sync after the rename, and the creation of
the suspended file. Without these publication keeps the order of requests (`publication_ordered`).
-/

namespace UpdateRecovery

open Text UpdatePolicy

/-- The system's time zones: which there are, and the numbers that `date +%w %H %M` prints in one. -/
structure Zones where
  is_file : String → Bool
  date : String → Option (List Nat)

/-- The schedule's answer at the local time of its zone. -/
def schedule_allows (zones : Zones) (schedule : Schedule) : Bool :=
  let zone := schedule.timezone.toList
  if schedule.mode = "always" then true
  else if zone = [] ∨ zone.head? = some '/' ∨ ['.', '.'] ∈ splitOn '/' zone ∨
    !zones.is_file schedule.timezone then false
  else
    match zones.date schedule.timezone with
    | some [day, hour, minute] =>
      decide (day ≤ 6 ∧ hour < 24 ∧ minute < 60) && schedule.allows day (hour * 60 + minute)
    | _ => false

/-- What is used of `serde_json`. -/
structure Serde where
  to_vec : Policy → String
  from_slice : String → Option Policy
  from_value : Json → Option Schedule

/-! ### The files -/

/-- The policy file and the suspended file. -/
structure Disk where
  policy : Option String
  suspended : Bool
deriving DecidableEq

section Read

variable (serde : Serde) (zones : Zones) (demo_mode : Bool) (server : String)

/-- The policy on disk, if it parses. -/
def load (disk : Disk) : Option Policy := disk.policy.bind serde.from_slice

/-- The suspended file is looked for in `disk`, and the policy is then read from `disk'`. -/
def policy_for (disk disk' : Disk) : Option Policy :=
  if demo_mode || disk.suspended then none else (load serde disk').filter fun policy => policy.server = server

/-- Whether an update may start: never suspended, and by the policy on disk. -/
def allowed (disk disk' : Disk) : Bool :=
  if demo_mode || disk.suspended then false else (load serde disk').any fun policy =>
    schedule_allows zones policy.schedule

/-- The policy in the answer to a heartbeat. -/
def heartbeatPolicy (body : Json) : Option Policy :=
  match body.get? "ok" with
  | some (.bool true) =>
    ((body.get? "update_schedule").bind serde.from_value).map fun schedule =>
      { server, schedule,
        firmware_channel := ((body.get? "firmware_channel").bind Json.asStr?).getD "stable"
        firmware_target_version := (body.get? "firmware_target_version").bind Json.asStr?
        os_update_channel := ((body.get? "os_update_channel").bind Json.asStr?).getD "stable"
        os_update_target_version := (body.get? "os_update_target_version").bind Json.asStr? }
  | _ => none

end Read

/-! ### The process -/

/-- A heartbeat, numbered in the order of its beginning. -/
structure HeartbeatRequest where
  generation : Nat
  sequence : Nat
deriving DecidableEq

/-- The file operations of `save`, and the removal of the suspended file after it. -/
inductive Stage where
  | compare
  | create
  | write
  | rename
  | sync
  | unsuspend
deriving DecidableEq

/-- A call of `record_heartbeat` that holds the lock, and the file operation it is about to do. -/
structure Saving where
  policy : Policy
  request : HeartbeatRequest
  stage : Stage
deriving DecidableEq

/-- What was begun, what was saved, and when the policy was suspended. -/
inductive Event where
  | begun (sequence : Nat)
  | saved (sequence : Nat)
  | suspended
deriving DecidableEq

/-- The counters of the process, the write in progress, and what is on disk. -/
structure State where
  generation : Nat
  next_request : Nat
  last_saved : Nat
  busy : Option Saving
  disk : Disk
  /-- The requests that were begun. -/
  requests : List HeartbeatRequest
  /-- The request whose policy is on disk, and zero if that is an earlier process's. -/
  stored : Nat
  /-- Latest first. -/
  log : List Event
deriving DecidableEq

def init (disk : Disk) : State := ⟨0, 0, 0, none, disk, [], 0, []⟩

/-- A step: a heartbeat begins or its answer arrives, a file operation runs, or the policy is
suspended. -/
inductive Action where
  | begin_heartbeat
  | record_heartbeat (server : String) (body : Json) (request : HeartbeatRequest)
  /-- The write in progress does its next file operation. -/
  | io (ok : Bool)
  /-- `created` says that the suspended file could be opened. -/
  | suspend (created : Bool)

section Step

variable (serde : Serde)

/-- `save` has returned without an error. -/
def State.saved (s : State) (w : Saving) : State :=
  { s with
    last_saved := w.request.sequence
    stored := w.request.sequence
    log := .saved w.request.sequence :: s.log
    busy := some { w with stage := .unsuspend } }

/-- One file operation of a save, with its outcome. -/
def State.io (s : State) (w : Saving) (ok : Bool) : State :=
  let goTo (stage : Stage) : State := { s with busy := some { w with stage } }
  match w.stage with
  | .compare => if ok ∧ s.disk.policy = some (serde.to_vec w.policy) then s.saved w else goTo .create
  | .create => if ok then goTo .write else { s with busy := none }
  | .write => if ok then goTo .rename else { s with busy := none }
  | .rename =>
    if ok then
      { s with
        disk := { s.disk with policy := some (serde.to_vec w.policy) }
        stored := w.request.sequence
        busy := some { w with stage := .sync } }
    else { s with busy := none }
  | .sync => if ok then s.saved w else { s with busy := none }
  | .unsuspend => { s with disk := { s.disk with suspended := s.disk.suspended && !ok }, busy := none }

/-- `record_heartbeat` from its lock on. -/
def State.record (s : State) (policy : Policy) (request : HeartbeatRequest) : State :=
  if request.generation ≠ s.generation ∨ request.sequence ≤ s.last_saved then s
  else { s with busy := some ⟨policy, request, .compare⟩ }

def step (s : State) : Action → Option State
  | .begin_heartbeat =>
    if s.busy.isSome then none
    else
      let request : HeartbeatRequest := ⟨s.generation, s.next_request + 1⟩
      some { s with
        next_request := s.next_request + 1
        requests := request :: s.requests
        log := .begun request.sequence :: s.log }
  | .record_heartbeat server body request =>
    if s.busy.isSome ∨ request ∉ s.requests then none
    else
      match heartbeatPolicy serde server body with
      | none => some s
      | some policy => some (s.record policy request)
  | .io ok => s.busy.map fun w => s.io serde w ok
  | .suspend created =>
    if s.busy.isSome then none
    else
      some { s with
        generation := s.generation + 1
        disk := { s.disk with suspended := s.disk.suspended || created }
        log := .suspended :: s.log }

end Step

/-- What has happened since the latest suspension. -/
def recent (log : List Event) : List Event := log.takeWhile (· ≠ .suspended)

/-- No heartbeat begun after the latest suspension has been saved. -/
def Awaiting (log : List Event) : Prop :=
  .suspended ∈ log ∧ ¬ ∃ sequence, .begun sequence ∈ recent log ∧ .saved sequence ∈ recent log

/-- The directory sync after a rename does not fail, and a suspended file is there after a suspension. -/
def Durable (s : State) : Action → Prop
  | .io ok => ok = true ∨ ∀ w ∈ s.busy, w.stage ≠ .sync
  | .suspend created => created = true ∨ s.disk.suspended = true
  | _ => True

instance Durable.decidable (s : State) : ∀ a, Decidable (Durable s a)
  | .begin_heartbeat => .isTrue trivial
  | .record_heartbeat _ _ _ => .isTrue trivial
  | .io ok => inferInstanceAs (Decidable (ok = true ∨ ∀ w ∈ s.busy, w.stage ≠ .sync))
  | .suspend created => inferInstanceAs (Decidable (created = true ∨ s.disk.suspended = true))

/-! ### The invariant -/

/-- The write in progress is of a request begun since the latest suspension, and of a later one than
the last that was saved. -/
structure Saving.Sound (s : State) (w : Saving) : Prop where
  recent : .begun w.request.sequence ∈ recent s.log
  newer : w.stage ≠ .unsuspend → s.last_saved < w.request.sequence
  saved : w.stage = .unsuspend → .saved w.request.sequence ∈ UpdateRecovery.recent s.log

/-- The policy on disk is that of `last_saved`, unless a write is between its rename and its sync.
-/
structure Inv (s : State) : Prop where
  stored : s.stored = s.last_saved ∨ ∃ w ∈ s.busy, w.stage = .sync ∧ s.stored = w.request.sequence
  busy : ∀ w ∈ s.busy, w.Sound s
  requests : ∀ r ∈ s.requests, r.generation ≤ s.generation ∧
    (r.generation = s.generation → .begun r.sequence ∈ recent s.log)
  marker : Awaiting s.log → s.disk.suspended = true

section Inv

variable {serde : Serde} {s s' : State} {log : List Event} {e : Event} {w : Saving} {ok : Bool}

theorem recent_cons (he : e ≠ .suspended) : recent (e :: log) = e :: recent log := by simp [recent, he]

theorem mem_recent_cons (he : e ≠ .suspended) {e' : Event} (h : e' ∈ recent log) :
    e' ∈ recent (e :: log) := by
  rw [recent_cons he]
  exact List.mem_cons_of_mem _ h

/-- A suspension stays unanswered backwards: an event that is none does not bring it about. -/
theorem Awaiting.of_cons (he : e ≠ .suspended) (h : Awaiting (e :: log)) : Awaiting log := by
  refine ⟨(List.mem_cons.1 h.1).resolve_left he.symm, fun ⟨sequence, hbegun, hsaved⟩ => h.2 ?_⟩
  exact ⟨sequence, mem_recent_cons he hbegun, mem_recent_cons he hsaved⟩

theorem not_awaiting {sequence : Nat} (hbegun : .begun sequence ∈ recent log)
    (hsaved : .saved sequence ∈ recent log) :
    ¬ Awaiting log := fun h => h.2 ⟨sequence, hbegun, hsaved⟩

theorem awaiting_suspended : Awaiting (.suspended :: log) := ⟨List.mem_cons_self .., by simp [recent]⟩

theorem Inv.init (disk : Disk) : Inv (init disk) where
  stored := .inl rfl
  busy := fun _ h => by cases h
  requests := fun _ h => by cases h
  marker := fun h => by cases h.1

/-- The write in progress goes on to a stage of which nothing but this is known. -/
theorem Inv.goTo (h : Inv s) (hw : w ∈ s.busy) (hstored : s.stored = s.last_saved) {stage : Stage}
    (hnot : w.stage ≠ .unsuspend) (hstage : stage ≠ .unsuspend) :
    Inv { s with busy := some { w with stage } } where
  stored := .inl hstored
  busy := fun w' hw' => by
    obtain rfl := Option.some.inj hw'
    exact ⟨(h.busy w hw).recent, fun _ => (h.busy w hw).newer hnot, fun hst => absurd hst hstage⟩
  requests := h.requests
  marker := h.marker

theorem Inv.release (h : Inv s) (hstored : s.stored = s.last_saved) : Inv { s with busy := none } where
  stored := .inl hstored
  busy := fun _ h => by cases h
  requests := h.requests
  marker := h.marker

theorem Inv.saved (h : Inv s) (hw : w ∈ s.busy) : Inv (s.saved w) := by
  have hne : Event.saved w.request.sequence ≠ .suspended := by simp
  have hbegun := mem_recent_cons hne (h.busy w hw).recent
  have hsaved : Event.saved w.request.sequence ∈ recent (.saved w.request.sequence :: s.log) := by
    simp [recent_cons hne]
  refine ⟨.inl rfl, fun w' hw' => ?_, fun r hr => ?_, fun ha => absurd ha (not_awaiting hbegun hsaved)⟩
  · obtain rfl := Option.some.inj hw'
    exact ⟨hbegun, fun hst => absurd rfl hst, fun _ => hsaved⟩
  · exact ⟨(h.requests r hr).1, fun hgen => mem_recent_cons hne ((h.requests r hr).2 hgen)⟩

/-- Before the rename the file on disk is the one that was saved last. -/
theorem Inv.stored_eq (h : Inv s) (hw : w ∈ s.busy) (hst : w.stage ≠ .sync) : s.stored = s.last_saved := by
  rcases h.stored with heq | ⟨w', hw', hsync, -⟩
  · exact heq
  · obtain rfl : w = w' := Option.mem_unique hw hw'
    exact absurd hsync hst

theorem Inv.io (h : Inv s) (hw : w ∈ s.busy) (hdurable : ok = true ∨ w.stage ≠ .sync) :
    Inv (s.io serde w ok) ∧ s.stored ≤ (s.io serde w ok).stored := by
  have hsound := h.busy w hw
  unfold State.io
  rcases hst : w.stage with _ | _ | _ | _ | _ | _
  case sync =>
    have hok : ok = true := hdurable.resolve_right (not_not_intro hst)
    simp only [hok, if_true]
    refine ⟨h.saved hw, ?_⟩
    have hnewer := hsound.newer (by simp [hst])
    rcases h.stored with heq | ⟨w', hw', -, heq⟩
    · show s.stored ≤ w.request.sequence
      omega
    · obtain rfl : w = w' := Option.mem_unique hw hw'
      exact heq.le
  all_goals
    have hstored := h.stored_eq hw (by simp [hst])
    dsimp only
  case compare =>
    split
    · have hnewer := hsound.newer (by simp [hst])
      refine ⟨h.saved hw, ?_⟩
      show s.stored ≤ w.request.sequence
      omega
    · exact ⟨h.goTo hw hstored (by simp [hst]) (by simp), Nat.le_refl _⟩
  case create =>
    split
    · exact ⟨h.goTo hw hstored (by simp [hst]) (by simp), Nat.le_refl _⟩
    · exact ⟨h.release hstored, Nat.le_refl _⟩
  case write =>
    split
    · exact ⟨h.goTo hw hstored (by simp [hst]) (by simp), Nat.le_refl _⟩
    · exact ⟨h.release hstored, Nat.le_refl _⟩
  case rename =>
    split
    · have hnewer := hsound.newer (by simp [hst])
      refine ⟨⟨.inr ⟨_, rfl, rfl, rfl⟩, fun w' hw' => ?_, h.requests, h.marker⟩, ?_⟩
      · obtain rfl := Option.some.inj hw'
        exact ⟨hsound.recent, fun _ => hnewer, fun hst' => by cases hst'⟩
      · show s.stored ≤ w.request.sequence
        omega
    · exact ⟨h.release hstored, Nat.le_refl _⟩
  case unsuspend =>
    have hsaved := hsound.saved hst
    refine ⟨⟨.inl hstored, fun _ hw' => ?_, h.requests, fun ha => ?_⟩, Nat.le_refl _⟩
    · cases hw'
    · exact absurd ha (not_awaiting hsound.recent hsaved)

theorem Inv.step {a : Action} (h : Inv s) (hdurable : Durable s a) (hstep : step serde s a = some s') :
    Inv s' ∧ s.stored ≤ s'.stored := by
  cases a with
  | begin_heartbeat =>
    simp only [UpdateRecovery.step] at hstep
    split at hstep <;> cases hstep
    next hbusy =>
    have hnone : s.busy = none := by simpa using hbusy
    have hne : Event.begun (s.next_request + 1) ≠ .suspended := by simp
    have hstored : s.stored = s.last_saved := by simpa [hnone] using h.stored
    refine ⟨⟨.inl hstored, fun w hw => ?_, fun r hr => ?_, fun ha => h.marker (ha.of_cons hne)⟩,
      Nat.le_refl _⟩
    · simp [hnone] at hw
    · rcases List.mem_cons.1 hr with rfl | hr
      · exact ⟨Nat.le_refl _, fun _ => by simp [recent_cons hne]⟩
      · exact ⟨(h.requests r hr).1, fun hgen => mem_recent_cons hne ((h.requests r hr).2 hgen)⟩
  | record_heartbeat server body request =>
    simp only [UpdateRecovery.step] at hstep
    split at hstep
    · cases hstep
    next hfree =>
    split at hstep <;> cases hstep
    · exact ⟨h, Nat.le_refl _⟩
    next policy _ =>
    refine ⟨?_, by unfold State.record; split <;> exact Nat.le_refl _⟩
    unfold State.record
    split
    · exact h
    next hcurrent =>
    rw [not_or, not_not, Nat.not_le] at hcurrent
    obtain ⟨hbusy, hmem⟩ := not_or.1 hfree
    have hnone : s.busy = none := by simpa using hbusy
    have hstored : s.stored = s.last_saved := by simpa [hnone] using h.stored
    refine ⟨.inl hstored, fun w hw => ?_, h.requests, h.marker⟩
    obtain rfl := Option.some.inj hw
    exact ⟨(h.requests request (not_not.1 hmem)).2 hcurrent.1, fun _ => hcurrent.2, fun hst => by cases hst⟩
  | io ok =>
    obtain ⟨w, hw, rfl⟩ := Option.map_eq_some_iff.1 hstep
    exact h.io hw (hdurable.imp_right fun hall => hall w hw)
  | suspend created =>
    simp only [UpdateRecovery.step] at hstep
    split at hstep <;> cases hstep
    next hbusy =>
    have hnone : s.busy = none := by simpa using hbusy
    have hstored : s.stored = s.last_saved := by simpa [hnone] using h.stored
    refine ⟨⟨.inl hstored, fun w hw => by simp [hnone] at hw, fun r hr => ?_, fun _ => ?_⟩, Nat.le_refl _⟩
    · have hle := (h.requests r hr).1
      exact ⟨Nat.le_succ_of_le hle, fun hgen => by simp only at hgen; omega⟩
    · rcases hdurable with rfl | hsuspended
      · simp
      · simp [hsuspended]

end Inv

/-- From a state that durable steps reach, durable steps do not bring back the policy of an older
request; and while a suspension is unanswered no policy is given out, whatever is read afterwards. -/
theorem publication_ordered (serde : Serde) (disk : Disk) (earlier later : List Action) (s s' : State)
    (hearlier : Machine.run (step serde) (init disk) earlier = some s)
    (hlater : Machine.run (step serde) s later = some s')
    (hdurable : Machine.Along (step serde) Durable (init disk) (earlier ++ later)) :
    s.stored ≤ s'.stored ∧ (Awaiting s'.log → ∀ zones demo_mode server disk',
      policy_for serde demo_mode server s'.disk disk' = none ∧
        allowed serde zones demo_mode s'.disk disk' = false) := by
  obtain ⟨hd, hd'⟩ := hdurable.append hearlier
  have hinv : Inv s := hd.inv (fun _ _ _ hg hstep h => (h.step hg hstep).1) hearlier (Inv.init disk)
  have hstored : Inv s' ∧ s.stored ≤ s'.stored :=
    hd'.inv (I := fun t => Inv t ∧ s.stored ≤ t.stored)
      (fun _ _ _ hg hstep h => ⟨(h.1.step hg hstep).1, h.2.trans (h.1.step hg hstep).2⟩) hlater
        ⟨hinv, Nat.le_refl _⟩
  refine ⟨hstored.2, fun ha zones demo_mode server disk' => ?_⟩
  have hmarker := hstored.1.marker ha
  simp [policy_for, allowed, hmarker]

/-! ### Two failures -/

/-- Reads and writes policies that differ in the mode only. -/
def modeSerde : Serde where
  to_vec policy := policy.schedule.mode
  from_slice text := some ⟨"s", ⟨text, [], "UTC"⟩, "stable", none, "stable", none⟩
  from_value j := ((j.get? "mode").bind Json.asStr?).map fun mode => ⟨mode, [], "UTC"⟩

/-- A heartbeat whose answer has the schedule `mode`. -/
def heartbeat (mode : String) (sequence generation : Nat) : Action :=
  .record_heartbeat "s"
    (.obj [("ok", .bool true),
      ("update_schedule", .obj [("mode", .str mode), ("windows", .arr []), ("timezone", .str "UTC")])])
    ⟨generation, sequence⟩

/-- The six file operations of a heartbeat that is saved. -/
def saves : List Action := List.replicate 6 (.io true)

theorem publication_ordered_suspended :
    let earlier := [.begin_heartbeat, .begin_heartbeat, heartbeat "windows" 2 0] ++ saves
    let later := [heartbeat "always" 1 0, .suspend true]
    ∃ s s', Machine.run (step modeSerde) (init ⟨none, false⟩) earlier = some s ∧
      Machine.run (step modeSerde) s later = some s' ∧ s.stored ≤ s'.stored ∧
      policy_for modeSerde false "s" s'.disk s'.disk = none := by
  refine ⟨_, _, rfl, rfl, ?_⟩
  have h := publication_ordered modeSerde ⟨none, false⟩
    ([.begin_heartbeat, .begin_heartbeat, heartbeat "windows" 2 0] ++ saves) [heartbeat "always" 1 0,
      .suspend true]
    _ _ rfl rfl (by decide)
  exact ⟨h.1, (h.2 awaiting_suspended ⟨fun _ => false, fun _ => none⟩ false "s" _).1⟩

/-- After a failed directory sync the policy of request 1 replaces that of request 2; and after a
suspension without its file the saved policy stays in force. -/
theorem older_policy_returns :
    (∃ earlier later s s', Machine.run (step modeSerde) (init ⟨none, false⟩) earlier = some s ∧
      Machine.run (step modeSerde) s later = some s' ∧ s'.stored < s.stored) ∧
    ∃ actions s, Machine.run (step modeSerde) (init ⟨none, false⟩) actions = some s ∧ Awaiting s.log ∧
      (policy_for modeSerde false "s" s.disk s.disk).isSome ∧
      allowed modeSerde ⟨fun _ => false, fun _ => none⟩ false s.disk s.disk = true := by
  constructor
  · refine ⟨[.begin_heartbeat, .begin_heartbeat, heartbeat "windows" 2 0, .io true, .io true,
      .io true, .io true, .io false], heartbeat "always" 1 0 :: saves, _, _, rfl, rfl, ?_⟩
    decide
  · exact ⟨[.begin_heartbeat, heartbeat "always" 1 0] ++ saves ++ [.suspend false], _, rfl,
      awaiting_suspended, rfl, rfl⟩

end UpdateRecovery
