import BetterFrame.Lib.Run
import Mathlib.Logic.Function.Basic

/-!
# The boot slots of the Pi

The bootloader backend `betterframe-rauc-boot.sh`: the copies of `autoboot.txt` on the two boot
partitions, which its calls write one after the other, and the slots that the firmware boots by the
copy on partition A. `slots_safe_iff` says in which runs the permanent slot is always one that has
been marked good.
-/

namespace RaucBoot

inductive Slot where
  | A
  | B
deriving DecidableEq

def slot_to_part : Slot → String
  | .A => "1"
  | .B => "2"

def part_to_slot (part : String) : Option Slot :=
  if part = "1" then some .A else if part = "2" then some .B else none

def other_slot : Slot → Slot
  | .A => .B
  | .B => .A

/-- The lines of an `autoboot.txt`. -/
abbrev File := List String

/-- `boot_partition` in the section `name`. -/
def bootPartition (name : String) (inside : Bool) : File → Option String
  | [] => none
  | line :: lines =>
    if line = name then bootPartition name true lines
    else if ['['].isPrefixOf line.toList then bootPartition name false lines
    else
      match inside, "boot_partition=".toList.isPrefixOf? line.toList with
      | true, some part => some (String.ofList part)
      | _, _ => bootPartition name inside lines

/-- The slot the default section boots. -/
def get_primary (file : File) : Option Slot := (bootPartition "[all]" false file).bind part_to_slot

/-- The firmware starts from partition 1 where the file names none. -/
def firmware (tryboot : Bool) (file : File) : Slot :=
  ((bootPartition (if tryboot then "[tryboot]" else "[all]") false file).bind part_to_slot).getD .A

/-- What `write_config_to_mount` writes. -/
def config (primary trial : Slot) : File :=
  ["[all]", "tryboot_a_b=1", "PARTITION_WALK=1", "boot_partition=" ++ slot_to_part primary, "",
    "[tryboot]", "boot_partition=" ++ slot_to_part trial]

/-- An operation on a file. `renameState` puts a file that was written aside in the state file's place. -/
inductive Op where
  | writeCopy (slot primary trial : Slot)
  | writeState (lines : List String)
  | renameState (lines : List String)
  | removeState
deriving DecidableEq

/-- The operation writes the firmware's configuration of a slot. -/
def Op.isCopy : Op → Bool
  | .writeCopy .. => true
  | _ => false

def Slot.text : Slot → String
  | .A => "A"
  | .B => "B"

/-- `set_primary` on the running slot. -/
def set_primary (running trial : Slot) : List Op :=
  let primary := if trial = running then other_slot trial else running
  let secondary := other_slot primary
  [.writeCopy primary primary trial, .writeCopy secondary primary trial,
    .writeState ["pending=" ++ trial.text]]

/-- `set_state` on the running slot. -/
def set_state (running : Slot) (lines : List String) (slot : Slot) (bad : Bool) : List Op :=
  if bad then
    [.renameState ((lines.filter fun line => line ≠ slot.text ++ "=good" ∧ line ≠ slot.text ++ "=bad") ++
      [slot.text ++ "=bad"])]
  else
    .renameState (lines.filter (· ≠ slot.text ++ "=bad")) ::
      if running = slot then
        [.writeCopy slot slot (other_slot slot), .writeCopy (other_slot slot) slot (other_slot slot),
          .removeState]
      else []

/-- `call` are the operations that the call in progress has left, and `target` the slot that it was
given where it is a `set-primary`. `settled` is false from the start of a call that writes the
copies, and from the writing of an image, until such a call has written both. -/
structure State where
  copy : Slot → File
  state_file : Option (List String)
  running : Slot
  proven : Slot → Bool
  call : List Op
  target : Option Slot
  settled : Bool

/-- A step: a command of RAUC is called or does its next write, an image is written, or the machine
boots. -/
inductive Label where
  | setPrimary (trial : Slot)
  | setState (slot : Slot) (bad : Bool)
  | performs
  | writesImage (slot : Slot)
  | reboots (tryboot torn : Bool)

namespace State

variable (s : State)

def init (file : File) (state_file : Option (List String)) (running : Slot) (proven : Slot → Bool) : State :=
  ⟨fun _ => file, state_file, running, proven, [], none, true⟩

/-- One operation of a call, which has the rest to do. -/
def perform (op : Op) (rest : List Op) : State :=
  match op with
  | .writeCopy slot primary trial => { s with
      copy := Function.update s.copy slot (config primary trial)
      call := rest
      settled := !rest.any Op.isCopy }
  | .writeState lines | .renameState lines => { s with state_file := some lines, call := rest }
  | .removeState => { s with state_file := none, call := rest }

/-- A file that is written in place is empty when the power fails in between. -/
def tear : State :=
  match s.call with
  | .writeCopy slot _ _ :: _ => { s with copy := Function.update s.copy slot [] }
  | .writeState _ :: _ => { s with state_file := some [] }
  | _ => s

def reboot (tryboot : Bool) : State := { s with call := [], running := firmware tryboot (s.copy .A) }

/-- The call in progress is about to write the copy on A. -/
def writesA : Bool :=
  match s.call with
  | .writeCopy .A _ _ :: _ => true
  | _ => false

end State

/-- One step. A reboot may come in the middle of a call; the images bring no `autoboot.txt`. -/
def step (s : State) : Label → Option State
  | .setPrimary trial =>
    if s.call = [] then some { s with
      call := set_primary s.running trial, target := some trial, settled := false } else none
  | .setState slot bad =>
    if s.call = [] then
      some { s with
        call := set_state s.running (s.state_file.getD []) slot bad
        target := none
        proven := if bad then s.proven else Function.update s.proven slot true
        settled := s.settled && (bad || s.running ≠ slot) }
    else none
  | .performs =>
    match s.call with
    | [] => none
    | op :: rest => some (s.perform op rest)
  | .writesImage slot =>
    if s.call = [] ∧ slot ≠ s.running then
      some { s with
        copy := Function.update s.copy slot []
        proven := Function.update s.proven slot false
        settled := false }
    else none
  | .reboots tryboot torn => some ((if torn then s.tear else s).reboot tryboot)

/-- The copy on A names a permanent slot that has been marked good since it was written, and settled
copies are equal. -/
structure Safe (s : State) : Prop where
  permanent : ∃ slot, get_primary (s.copy .A) = some slot ∧ s.proven slot = true
  equal : s.settled = true → s.copy .A = s.copy .B

/-- A `set-primary` of the other slot writes the copy on A only while the running slot has been
marked good, one of the running slot only while the other has; no crash tears such a write; images
are only written to slot B, and not while the copy on A names it. -/
def Harmless (s : State) : Label → Prop
  | .performs => s.writesA = true →
    (s.target = some (other_slot s.running) → s.proven s.running = true) ∧
      (s.target = some s.running → s.proven (other_slot s.running) = true)
  | .writesImage slot => slot = .B ∧ get_primary (s.copy .A) ≠ some .B
  | .reboots _ torn => torn = true → s.writesA = false
  | _ => True

instance (s : State) (label : Label) : Decidable (Harmless s label) :=
  match label with
  | .performs => inferInstanceAs (Decidable (_ → _ ∧ _))
  | .writesImage _ => inferInstanceAs (Decidable (_ ∧ _))
  | .reboots _ _ => inferInstanceAs (Decidable (_ → _))
  | .setPrimary _ | .setState _ _ => .isTrue trivial

/-! ### Files -/

@[simp] theorem other_other (slot : Slot) : other_slot (other_slot slot) = slot := by cases slot <;> rfl

theorem other_ne (slot : Slot) : other_slot slot ≠ slot := by cases slot <;> decide

@[simp] theorem get_primary_config (primary trial : Slot) :
    get_primary (config primary trial) = some primary := by
  cases primary <;> cases trial <;> decide

@[simp] theorem get_primary_nil : get_primary [] = none := rfl

/-! ### Calls -/

/-- What a call has left to do, and what it has done of the copies. -/
inductive Shape (s : State) : List Op → Prop where
  | quiet (ops : List Op) (h : ∀ op ∈ ops, op.isCopy = false) (hequal : s.settled = true →
    s.copy .A = s.copy .B) : Shape s ops
  | both (slot primary trial : Slot) (ops : List Op) (h : ∀ op ∈ ops, op.isCopy = false)
    (hsettled : s.settled = false) :
    Shape s (.writeCopy slot primary trial :: .writeCopy (other_slot slot) primary trial :: ops)
  | last (slot primary trial : Slot) (ops : List Op) (h : ∀ op ∈ ops, op.isCopy = false)
    (hsettled : s.settled = false)
    (hcopy : s.copy (other_slot slot) = config primary trial) : Shape s (.writeCopy slot primary trial :: ops)
  | rename (lines : List String) (ops : List Op) (h : Shape s ops) : Shape s (.renameState lines :: ops)

variable {s s' : State}

theorem Shape.equal {ops : List Op} (h : Shape s ops) (hsettled : s.settled = true) :
    s.copy .A = s.copy .B := by
  induction h with
  | quiet ops h hequal => exact hequal hsettled
  | both slot primary trial ops h hunsettled => simp [hsettled] at hunsettled
  | last slot primary trial ops h hunsettled => simp [hsettled] at hunsettled
  | rename lines ops h ih => exact ih

theorem Shape.congr {ops : List Op} (h : Shape s ops) (hcopy : s'.copy = s.copy)
    (hsettled : s'.settled = s.settled) :
    Shape s' ops := by
  induction h with
  | quiet ops h hequal => exact .quiet ops h (by rwa [hcopy, hsettled])
  | both slot primary trial ops h hunsettled =>
    exact .both slot primary trial ops h (hsettled.trans hunsettled)
  | last slot primary trial ops h hunsettled hold =>
    exact .last slot primary trial ops h (hsettled.trans hunsettled) (by rwa [hcopy])
  | rename lines ops h ih => exact .rename lines ops ih

/-- Nothing but the writing of a copy changes the copies. -/
theorem perform_quiet {op : Op} {rest : List Op} (h : op.isCopy = false) :
    (s.perform op rest).copy = s.copy ∧ (s.perform op rest).settled = s.settled ∧
    (s.perform op rest).call = rest := by
  cases op with
  | writeCopy => cases h
  | writeState | renameState | removeState => exact ⟨rfl, rfl, rfl⟩

theorem Shape.perform {op : Op} {rest : List Op} (h : Shape s (op :: rest)) :
    Shape (s.perform op rest) rest := by
  cases h with
  | quiet ops h hequal =>
    obtain ⟨hcopy, hsettled, -⟩ := @perform_quiet s op rest (h op (List.mem_cons_self ..))
    exact .quiet rest (fun op hop => h op (List.mem_cons_of_mem _ hop)) (by rwa [hcopy, hsettled])
  | both slot primary trial ops h hsettled =>
    refine .last (other_slot slot) primary trial ops h rfl ?_
    simp [State.perform]
  | last slot primary trial ops h hsettled hcopy =>
    refine .quiet rest h fun _ => ?_
    have hother : Function.update s.copy slot (config primary trial) (other_slot slot) = config
        primary trial := by
      rw [Function.update_of_ne (other_ne slot), hcopy]
    have hself : Function.update s.copy slot (config primary trial) slot = config primary trial := by simp
    cases slot with
    | A => exact hself.trans hother.symm
    | B => exact hother.trans hself.symm
  | rename lines ops h => exact h.congr rfl rfl

theorem shape_set_primary (running trial : Slot) (h : s.settled = false) :
    Shape s (set_primary running trial) :=
  .both _ _ _ _ (by simp [Op.isCopy]) h

theorem shape_set_state {running slot : Slot} {lines : List String} {bad : Bool}
    (hequal : s.settled = true → s.copy .A = s.copy .B)
    (h : bad = false → running = slot → s.settled = false) :
    Shape s (set_state running lines slot bad) := by
  unfold set_state
  split
  · exact .quiet _ (by simp [Op.isCopy]) hequal
  · next hbad =>
    refine .rename _ _ ?_
    split
    · next hrunning => exact .both _ _ _ _ (by simp [Op.isCopy]) (h (by simpa using hbad) hrunning)
    · exact .quiet _ (by simp) hequal

/-- A crash leaves the copies as they were, or empties one of a pair that the call had not settled. -/
theorem Shape.tear (h : Shape s s.call) : s.tear.settled = true → s.tear.copy .A = s.tear.copy .B := by
  intro hsettled
  unfold State.tear at hsettled ⊢
  split at hsettled
  · next heq =>
    rw [heq] at h
    cases h with
    | quiet ops h => exact absurd (h _ (List.mem_cons_self ..)) (by simp [Op.isCopy])
    | both slot primary trial ops h hunsettled => exact absurd hsettled (by simp [hunsettled])
    | last slot primary trial ops h hunsettled => exact absurd hsettled (by simp [hunsettled])
  · exact h.equal hsettled
  · exact h.equal hsettled

theorem Shape.step {label : Label} (h : Shape s s.call) (hs : step s label = some s') : Shape s' s'.call := by
  cases label with
  | setPrimary trial =>
    simp only [RaucBoot.step] at hs
    split at hs
    · obtain rfl := Option.some.inj hs
      exact shape_set_primary _ _ rfl
    · cases hs
  | setState slot bad =>
    simp only [RaucBoot.step] at hs
    split at hs
    · obtain rfl := Option.some.inj hs
      refine shape_set_state (fun hsettled => h.equal ?_) fun hbad hrunning => ?_
      · exact (Bool.and_eq_true_iff.1 hsettled).1
      · simp [hbad, hrunning]
    · cases hs
  | performs =>
    simp only [RaucBoot.step] at hs
    split at hs
    · cases hs
    · next op rest hcall =>
      obtain rfl := Option.some.inj hs
      rw [hcall] at h
      have hrest : (s.perform op rest).call = rest := by cases op <;> rfl
      rw [hrest]
      exact h.perform
  | writesImage slot =>
    simp only [RaucBoot.step] at hs
    split at hs
    · next hidle =>
      obtain rfl := Option.some.inj hs
      exact .quiet _ (by simp [hidle.1]) (by simp)
    · cases hs
  | reboots tryboot torn =>
    obtain rfl := Option.some.inj hs
    refine .quiet _ (by simp [State.reboot]) ?_
    cases torn with
    | false => exact h.equal
    | true => exact h.tear

/-- What the copy on A names, and whether it is the name of a proven slot. -/
def Permanent (s : State) : Prop := ∃ slot, get_primary (s.copy .A) = some slot ∧ s.proven slot = true

theorem permanent_congr (hcopy : s'.copy .A = s.copy .A) (hproven : s'.proven = s.proven) :
    Permanent s' ↔ Permanent s := by
  rw [Permanent, Permanent, hcopy, hproven]

/-- A proven slot stays proven when another is marked good. -/
theorem Permanent.mark (h : Permanent s) (hcopy : s'.copy .A = s.copy .A) {slot : Slot}
    (hproven : s'.proven = Function.update s.proven slot true) : Permanent s' := by
  obtain ⟨primary, hprimary, hgood⟩ := h
  refine ⟨primary, hcopy ▸ hprimary, ?_⟩
  rw [hproven]
  by_cases heq : primary = slot
  · rw [heq, Function.update_self]
  · rwa [Function.update_of_ne heq]

/-- What the call in progress writes names the slot that its target asks for; a `set-state` has
marked its slot good. -/
def Asked (s : State) : Prop := ∀ slot primary trial, .writeCopy slot primary trial ∈ s.call →
  match s.target with
  | some target => primary = if target = s.running then other_slot target else s.running
  | none => s.proven primary = true

theorem Asked.step {label : Label} (h : Asked s) (hs : step s label = some s') : Asked s' := by
  cases label with
  | setPrimary target =>
    obtain ⟨-, heq⟩ := Option.ite_none_right_eq_some.1 hs
    obtain rfl := Option.some.inj heq
    intro slot primary trial hmem
    simp only [set_primary, List.mem_cons, Op.writeCopy.injEq, List.not_mem_nil, or_false,
      reduceCtorEq] at hmem
    rcases hmem with ⟨-, rfl, -⟩ | ⟨-, rfl, -⟩ <;> rfl
  | setState slot bad =>
    obtain ⟨-, heq⟩ := Option.ite_none_right_eq_some.1 hs
    obtain rfl := Option.some.inj heq
    intro copy primary trial hmem
    cases bad with
    | true => simp [set_state] at hmem
    | false =>
      have hprimary : primary = slot := by
        by_cases hrunning : s.running = slot
        · simp only [set_state, hrunning, Bool.false_eq_true, if_false, if_true, List.mem_cons,
            Op.writeCopy.injEq, List.not_mem_nil, or_false, reduceCtorEq, false_or] at hmem
          rcases hmem with ⟨-, h, -⟩ | ⟨-, h, -⟩ <;> exact h
        · simp [set_state, hrunning] at hmem
      simp [hprimary]
  | performs =>
    simp only [RaucBoot.step] at hs
    split at hs
    · cases hs
    · next op rest hcall =>
      obtain rfl := Option.some.inj hs
      intro slot primary trial hmem
      have hold := h slot primary trial
      rw [hcall] at hold
      cases op <;> exact hold (List.mem_cons_of_mem _ hmem)
  | writesImage slot =>
    obtain ⟨hidle, heq⟩ := Option.ite_none_right_eq_some.1 hs
    obtain rfl := Option.some.inj heq
    intro slot primary trial hmem
    simp [hidle.1] at hmem
  | reboots tryboot torn =>
    obtain rfl := Option.some.inj hs
    intro slot primary trial hmem
    cases hmem

/-- The operations of a call keep the permanent slot proven exactly when they write the copy on A
for such a slot. -/
theorem permanent_perform (h : Permanent s) (hasked : Asked s) {op : Op} {rest : List Op}
    (hcall : s.call = op :: rest) :
    Permanent (s.perform op rest) ↔ Harmless s .performs := by
  simp only [Harmless, State.writesA, hcall]
  cases op with
  | writeCopy slot primary trial =>
    cases slot with
    | A =>
      have hcopy : (s.perform (.writeCopy .A primary trial) rest).copy .A = config primary trial := by
        simp [State.perform]
      have hproven : (s.perform (.writeCopy .A primary trial) rest).proven = s.proven := rfl
      have hprimary := hasked .A primary trial (by simp [hcall])
      have hcases : s.proven primary = true ↔
        (s.target = some (other_slot s.running) → s.proven s.running = true) ∧
          (s.target = some s.running → s.proven (other_slot s.running) = true) := by
        cases htarget : s.target with
        | none => simpa [htarget] using hprimary
        | some target =>
          simp only [htarget] at hprimary
          by_cases hrunning : target = s.running
          · simp [hprimary, hrunning, (other_ne s.running).symm]
          · have hother : target = other_slot s.running := by
              revert hrunning
              cases target <;> cases s.running <;> decide
            simp [hprimary, hother, other_ne s.running]
      rw [Permanent, hcopy, hproven, ← hcases]
      simp
    | B =>
      have hcopy : (s.perform (.writeCopy .B primary trial) rest).copy .A = s.copy .A := by
        simp [State.perform]
      exact ⟨fun _ => by simp, fun _ => (permanent_congr hcopy rfl).2 h⟩
  | writeState | renameState | removeState => exact ⟨fun _ => by simp, fun _ => (permanent_congr rfl rfl).2 h⟩

theorem permanent_writesImage (h : Permanent s) (slot : Slot) :
    Permanent { s with
      copy := Function.update s.copy slot []
      proven := Function.update s.proven slot false
      settled := false } ↔ Harmless s (.writesImage slot) := by
  obtain ⟨primary, hprimary, hgood⟩ := h
  cases slot with
  | A => simp [Permanent, Harmless]
  | B =>
    simp only [Permanent, Harmless, hprimary, true_and]
    cases primary with
    | A => simp [hprimary, hgood]
    | B => simp [hprimary]

theorem permanent_reboots (h : Permanent s) (tryboot torn : Bool) :
    Permanent ((if torn then s.tear else s).reboot tryboot) ↔ Harmless s (.reboots tryboot torn) := by
  cases torn with
  | false => exact ⟨fun _ => by simp [Harmless], fun _ => (permanent_congr rfl rfl).2 h⟩
  | true =>
    have hreboot : Permanent (s.tear.reboot tryboot) ↔ Permanent s.tear := permanent_congr rfl rfl
    refine hreboot.trans ?_
    simp only [Harmless, true_implies, State.writesA, State.tear]
    split
    · next slot primary trial rest hcall =>
      cases slot with
      | A => simp [Permanent, hcall]
      | B =>
        have hcopy : Function.update s.copy .B [] .A = s.copy .A := by simp
        exact ⟨fun _ => by simp [hcall], fun _ => (permanent_congr hcopy rfl).2 h⟩
    · next hcall => exact ⟨fun _ => by simp [hcall], fun _ => (permanent_congr rfl rfl).2 h⟩
    · next hcopy _ =>
      refine ⟨fun _ => ?_, fun _ => h⟩
      split
      · next heq => exact absurd heq (hcopy .A _ _ _)
      · rfl

theorem permanent_step (h : Permanent s) (hasked : Asked s) {label : Label} (hs : step s label = some s') :
    Permanent s' ↔ Harmless s label := by
  cases label with
  | setPrimary trial =>
    simp only [step] at hs
    split at hs
    · obtain rfl := Option.some.inj hs
      exact ⟨fun _ => trivial, fun _ => (permanent_congr rfl rfl).2 h⟩
    · cases hs
  | setState slot bad =>
    simp only [step] at hs
    split at hs
    · obtain rfl := Option.some.inj hs
      simp only [Harmless, iff_true]
      cases bad with
      | true => exact (permanent_congr rfl rfl).2 h
      | false => exact h.mark rfl rfl
    · cases hs
  | performs =>
    simp only [step] at hs
    split at hs
    · cases hs
    · next op rest hcall =>
      obtain rfl := Option.some.inj hs
      exact permanent_perform h hasked hcall
  | writesImage slot =>
    simp only [step] at hs
    split at hs
    · obtain rfl := Option.some.inj hs
      exact permanent_writesImage h slot
    · cases hs
  | reboots tryboot torn =>
    obtain rfl := Option.some.inj hs
    exact permanent_reboots h tryboot torn

/-- Every state of a run is safe if and only if its steps are harmless. -/
theorem slots_safe_iff {file : File} {state_file : Option (List String)} {running permanent : Slot}
    {proven : Slot → Bool}
    {labels : List Label} {s : State} (hfile : get_primary file = some permanent)
    (hproven : proven permanent = true)
    (hrun : Machine.run step (.init file state_file running proven) labels = some s) :
    (∀ before t, before <+: labels →
      Machine.run step (.init file state_file running proven) before = some t → Safe t) ↔
      Machine.Along step Harmless (.init file state_file running proven) labels := by
  refine Machine.along_iff (J := fun s => Shape s s.call ∧ Asked s) (fun _ _ _ hs h =>
    ⟨h.1.step hs, h.2.step hs⟩) ?_ hrun
    ⟨.quiet _ (by simp [State.init]) fun _ => rfl, fun _ _ _ h => nomatch h⟩
      ⟨⟨permanent, hfile, hproven⟩, fun _ => rfl⟩
  rintro s label s' ⟨hshape, hasked⟩ hsafe hs
  rw [← permanent_step hsafe.permanent hasked hs]
  exact ⟨fun h => h.permanent, fun h => ⟨h, (hshape.step hs).equal⟩⟩

/-- An update of slot B that is tried and marked good. -/
def update : List Label :=
  [.setState .B true, .performs, .writesImage .B, .setPrimary .B, .performs, .performs, .performs,
    .reboots true false, .setState .B false, .performs, .performs, .performs, .performs]

theorem slots_safe_iff_update :
    ∃ s, Machine.run step (.init (config .A .B) none .A fun slot => slot = .A) update = some s ∧
    ∀ before t, before <+: update →
      Machine.run step (.init (config .A .B) none .A fun slot => slot = .A) before = some t → Safe t :=
  ⟨_, rfl, (@slots_safe_iff _ none .A .A _ update _ (get_primary_config .A .B) rfl rfl).2 (by decide)⟩

/-- An update that is started while another is on trial makes the trial permanent. -/
theorem trial_made_permanent :
    ¬ ∀ (file : File) (running permanent : Slot) (proven : Slot → Bool) (labels : List Label)
      (s : State),
    get_primary file = some permanent → proven permanent = true →
    Machine.run step (.init file none running proven) labels = some s → Safe s := by
  intro h
  have hsafe := h (config .A .B) .A .A (fun slot => slot = .A) [.setState .B true, .performs,
    .writesImage .B, .setPrimary .B,
    .performs, .performs, .performs, .reboots true false, .setPrimary .A, .performs, .performs] _
      (get_primary_config .A .B) rfl rfl
  obtain ⟨slot, hslot, hproven⟩ := hsafe.permanent
  have hb : some Slot.B = some slot := hslot
  obtain rfl := Option.some.inj hb
  exact absurd hproven (by decide)

end RaucBoot
