import BetterFrame.Deploy.Manager

/-!
# The runtime follows the tenant's flag

`startRuntime` looks for a running child before it awaits four file operations, and `stopRuntime`
looks at the current child only. A run in which neither look is out of date keeps one child for each
tenant, and none after a deactivation or a deletion (`runtimes_follow`).
-/

namespace Manager

namespace Task

/-- The task starts the runtime. -/
def starts : Task → Bool
  | .starting .. => true
  | _ => false

/-- The restart timer. -/
def armed : Task → Bool
  | .timer _ => true
  | _ => false

/-- The object of an `ensureTenant` call that has yet to look at the flag. -/
def object? : Task → Option Nat
  | .migrating tenant _ => some tenant
  | .saving tenant _ _ => some tenant
  | _ => none

/-- A deactivation or a deletion. -/
def closes : Task → Bool
  | .migrating _ active => !active
  | .saving _ active _ => !active
  | .starting _ _ call => call = some false
  | .stopping _ caller => caller ≠ .ensure true
  | .archiving => true
  | .removing _ => true
  | .timer _ => false

/-- A deactivation or a deletion that has called `stopRuntime`. -/
def down : Task → Bool
  | .stopping _ caller => caller ≠ .ensure true
  | .archiving => true
  | .removing _ => true
  | _ => false

/-- One that waits for no child. -/
def still : Task → Bool
  | .stopping none caller => caller ≠ .ensure true
  | .archiving => true
  | .removing _ => true
  | _ => false

/-- The task at a later operation of the same part. -/
inductive Later : Task → Task → Prop
  | same (task : Task) : Later task task
  | saving (tenant : Nat) (active : Bool) (save save' : Save) : Later (.saving tenant active save)
    (.saving tenant active save')
  | removing (save save' : Save) : Later (.removing save) (.removing save')
  | starting (tenant : Nat) (ops ops' : List FileOp) (call : Option Bool) :
    Later (.starting tenant ops call) (.starting tenant ops' call)

end Task

namespace Life

variable {life : Life} {k k' r c o : Nat} {task : Task}

/-- The child runs. -/
def Live (life : Life) (c : Nat) : Prop := ∃ r, life.children c = some ⟨r, .running⟩

/-- A deactivation or a deletion has returned, and no activation has begun since. -/
def Settled (life : Life) : Prop := life.history.head? = some .deactivated ∨
  life.history.head? = some .deleted

/-- No task will start the runtime. -/
structure Idle (life : Life) : Prop where
  starts : ∀ k task, life.tasks k = some task → task.starts = false
  armed : ∀ k task, life.tasks k = some task → task.armed = false
  ensures : ∀ k task o, life.tasks k = some task → task.object? = some o → life.flag o = false

/-- The tenant is closed, or a task is closing it. -/
def Closing (life : Life) : Prop := life.Settled ∨ ∃ k task, life.tasks k = some task ∧ task.closes = true

/-- No runtime is left to run, or a task is taking it down. -/
def Down (life : Life) : Prop := life.Settled ∨ life.recorded = none ∨
  ∃ k task, life.tasks k = some task ∧ task.down = true

/-- As `Down`, and the task waits for no child. -/
def Still (life : Life) : Prop := life.Settled ∨ life.recorded = none ∨
  ∃ k task, life.tasks k = some task ∧ task.still = true

/-- Every child belongs to a record, every record to the tenant's object, and at most one child
runs. -/
structure Inv (life : Life) : Prop where
  recorded : ∀ o, life.recorded = some o → life.objects o ≠ none
  worked : ∀ k task o, life.tasks k = some task → task.object? = some o → life.objects o ≠ none
  owned : ∀ c r process, life.children c = some ⟨r, process⟩ → process ≠ .exited →
    ∃ runtime, life.records r = some runtime ∧ runtime.child = some c
  child : ∀ r runtime c, life.records r = some runtime → runtime.child = some c →
    ∃ process, life.children c = some ⟨r, process⟩
  current : ∀ c r, life.children c = some ⟨r, .running⟩ → life.runtime = some r
  killed : ∀ c r runtime, life.children c = some ⟨r, .killed⟩ → life.records r = some runtime →
    runtime.stopping = true
  waits : ∀ k r c caller, life.tasks k = some (.stopping (some (r, c)) caller) →
    (∃ runtime, life.records r = some runtime ∧ runtime.stopping = true ∧
      (runtime.child = none ∨ runtime.child = some c)) ∧
      ∃ process, life.children c = some ⟨r, process⟩
  one : ∀ k k' task task', life.tasks k = some task → life.tasks k' = some task' → task.starts = true →
    task'.starts = true → k = k'
  alone : ∀ k task c, life.tasks k = some task → task.starts = true → ¬ life.Live c
  kept : ∀ k tenant ops, life.tasks k ≠ some (.starting tenant ops (some false))
  off : life.Closing → ∀ k task o, life.tasks k = some task → task.object? = some o → life.flag o = false
  gone : life.recorded = none → ∀ k tenant active save, life.tasks k = some (.saving tenant active save) →
    life.flag tenant = false
  down : life.Down → (∀ k task, life.tasks k = some task → task.starts = false ∧ task.armed = false) ∧
    ∀ c r runtime, life.children c = some ⟨r, .running⟩ → life.records r = some runtime →
      runtime.stopping = true
  still : life.Still → ∀ c, ¬ life.Live c

theorem Inv.later {tasks : Nat → Option Task} (h : life.Inv)
    (hlater : ∀ k task', tasks k = some task' → ∃ task, life.tasks k = some task ∧ task.Later task') :
    Inv { life with tasks } := by
  have hclass (k : Nat) (task' : Task) (hk : tasks k = some task') : ∃ task, life.tasks k = some task ∧
      task'.starts = task.starts ∧ task'.armed = task.armed ∧ task'.object? = task.object? ∧
        task'.closes = task.closes ∧
      task'.down = task.down ∧ task'.still = task.still := by
    obtain ⟨task, htask, hl⟩ := hlater k task' hk
    refine ⟨task, htask, ?_⟩
    cases hl <;> exact ⟨rfl, rfl, rfl, rfl, rfl, rfl⟩
  have hclosing : Closing { life with tasks } → life.Closing := by
    rintro (hs | ⟨k, task', hk, hc⟩)
    · exact .inl hs
    · obtain ⟨task, htask, hl⟩ := hclass k task' hk
      exact .inr ⟨k, task, htask, hl.2.2.2.1 ▸ hc⟩
  have hdown : Down { life with tasks } → life.Down := by
    rintro (hs | hs | ⟨k, task', hk, hc⟩)
    · exact .inl hs
    · exact .inr (.inl hs)
    · obtain ⟨task, htask, hl⟩ := hclass k task' hk
      exact .inr (.inr ⟨k, task, htask, hl.2.2.2.2.1 ▸ hc⟩)
  have hstill : Still { life with tasks } → life.Still := by
    rintro (hs | hs | ⟨k, task', hk, hc⟩)
    · exact .inl hs
    · exact .inr (.inl hs)
    · obtain ⟨task, htask, hl⟩ := hclass k task' hk
      exact .inr (.inr ⟨k, task, htask, hl.2.2.2.2.2 ▸ hc⟩)
  constructor
  · exact h.recorded
  · intro k task' o hk ho
    obtain ⟨task, htask, hl⟩ := hclass k task' hk
    exact h.worked k task o htask (hl.2.2.1 ▸ ho)
  · exact h.owned
  · exact h.child
  · exact h.current
  · exact h.killed
  · intro k r c caller hk
    obtain ⟨task, htask, hl⟩ := hlater k _ hk
    cases hl
    exact h.waits k r c caller htask
  · intro k k' task task' hk hk' hs hs'
    obtain ⟨u, hu, hl⟩ := hclass k task hk
    obtain ⟨u', hu', hl'⟩ := hclass k' task' hk'
    exact h.one k k' u u' hu hu' (hl.1 ▸ hs) (hl'.1 ▸ hs')
  · intro k task c hk hs
    obtain ⟨u, hu, hl⟩ := hclass k task hk
    exact h.alone k u c hu (hl.1 ▸ hs)
  · intro k tenant ops hk
    obtain ⟨u, hu, hl⟩ := hlater k _ hk
    cases hl <;> exact h.kept k _ _ hu
  · intro hc k task o hk ho
    obtain ⟨u, hu, hl⟩ := hclass k task hk
    exact h.off (hclosing hc) k u o hu (hl.2.2.1 ▸ ho)
  · intro hr k tenant active save hk
    obtain ⟨u, hu, hl⟩ := hlater k _ hk
    cases hl <;> exact h.gone hr k _ _ _ hu
  · intro hd
    obtain ⟨htasks, hlive⟩ := h.down (hdown hd)
    refine ⟨fun k task hk => ?_, hlive⟩
    obtain ⟨u, hu, hl⟩ := hclass k task hk
    rw [hl.1, hl.2.1]
    exact htasks k u hu
  · exact fun hs => h.still (hstill hs)

theorem Inv.drop (h : life.Inv) : (life.setTask k none).Inv :=
  h.later fun _ task hk => ⟨task, (setTask_none hk).1, .same task⟩

/-- A task moves on within its part. -/
theorem Inv.moves {task' : Task} (h : life.Inv) (hk : life.tasks k = some task) (hl : task.Later task') :
    (life.setTask k (some task')).Inv :=
  h.later fun k' u hk' => by
    simp only [Function.update_apply] at hk'
    split at hk'
    · next heq =>
      subst heq
      exact ⟨task, hk, Option.some.inj hk' ▸ hl⟩
    · exact ⟨u, hk', .same u⟩

/-- What a new task has to satisfy. -/
structure Fits (life : Life) (task : Task) : Prop where
  object : ∀ o, task.object? = some o → life.objects o ≠ none ∧
    (life.Closing ∨ task.closes = true → life.flag o = false)
  waits : ∀ r c caller, task = .stopping (some (r, c)) caller →
    (∃ runtime, life.records r = some runtime ∧ runtime.stopping = true ∧
      (runtime.child = none ∨ runtime.child = some c)) ∧
      ∃ process, life.children c = some ⟨r, process⟩
  starts : task.starts = true → (∀ c, ¬ life.Live c) ∧ ∀ k task, life.tasks k = some task →
    task.starts = false
  kept : ∀ tenant ops, task ≠ .starting tenant ops (some false)
  closes : task.closes = true → ∀ k task o, life.tasks k = some task → task.object? = some o →
    life.flag o = false
  gone : life.recorded = none → ∀ tenant active save, task = .saving tenant active save →
    life.flag tenant = false
  below : life.Down → task.starts = false ∧ task.armed = false
  down : task.down = true → (task.starts = false ∧ task.armed = false) ∧
    (∀ k task, life.tasks k = some task → task.starts = false ∧ task.armed = false) ∧
    ∀ c r runtime, life.children c = some ⟨r, .running⟩ → life.records r = some runtime →
      runtime.stopping = true
  still : task.still = true → ∀ c, ¬ life.Live c

theorem Inv.set (h : life.Inv) (hf : life.Fits task) : (life.setTask k (some task)).Inv := by
  have hclosing (hc : (life.setTask k (some task)).Closing) : life.Closing ∨ task.closes = true := by
    rcases hc with hs | ⟨k', u, hu, hc⟩
    · exact .inl (.inl hs)
    · rcases setTask_cases hu with rfl | hu
      · exact .inr hc
      · exact .inl (.inr ⟨k', u, hu, hc⟩)
  have hdown (hd : (life.setTask k (some task)).Down) : life.Down ∨ task.down = true := by
    rcases hd with hs | hs | ⟨k', u, hu, hc⟩
    · exact .inl (.inl hs)
    · exact .inl (.inr (.inl hs))
    · rcases setTask_cases hu with rfl | hu
      · exact .inr hc
      · exact .inl (.inr (.inr ⟨k', u, hu, hc⟩))
  have hstill (hd : (life.setTask k (some task)).Still) : life.Still ∨ task.still = true := by
    rcases hd with hs | hs | ⟨k', u, hu, hc⟩
    · exact .inl (.inl hs)
    · exact .inl (.inr (.inl hs))
    · rcases setTask_cases hu with rfl | hu
      · exact .inr hc
      · exact .inl (.inr (.inr ⟨k', u, hu, hc⟩))
  constructor
  · exact h.recorded
  · intro k' u o hu ho
    rcases setTask_cases hu with rfl | hu
    · exact (hf.object o ho).1
    · exact h.worked k' u o hu ho
  · exact h.owned
  · exact h.child
  · exact h.current
  · exact h.killed
  · intro k' r c caller hu
    rcases setTask_cases hu with hu | hu
    · exact hf.waits r c caller hu.symm
    · exact h.waits k' r c caller hu
  · intro k₁ k₂ u u' hu hu' hs hs'
    simp only [setTask, Function.update_apply] at hu hu'
    split at hu <;> split at hu'
    · next h₁ h₂ => rw [h₁, h₂]
    · next h₁ h₂ =>
      rw [← Option.some.inj hu] at hs
      rw [(hf.starts hs).2 k₂ u' hu'] at hs'
      cases hs'
    · next h₁ h₂ =>
      rw [← Option.some.inj hu'] at hs'
      rw [(hf.starts hs').2 k₁ u hu] at hs
      cases hs
    · exact h.one k₁ k₂ u u' hu hu' hs hs'
  · intro k' u c hu hs
    rcases setTask_cases hu with rfl | hu
    · exact (hf.starts hs).1 c
    · exact h.alone k' u c hu hs
  · intro k' tenant ops hu
    rcases setTask_cases hu with hu | hu
    · exact hf.kept tenant ops hu.symm
    · exact h.kept k' tenant ops hu
  · intro hc k' u o hu ho
    rcases setTask_cases hu with rfl | hu
    · exact (hf.object o ho).2 (hclosing hc)
    · rcases hclosing hc with hc | hc
      · exact h.off hc k' u o hu ho
      · exact hf.closes hc k' u o hu ho
  · intro hr k' tenant active save hu
    rcases setTask_cases hu with hu | hu
    · exact hf.gone hr tenant active save hu.symm
    · exact h.gone hr k' tenant active save hu
  · intro hd
    rcases hdown hd with hbefore | hnew
    · refine ⟨fun k' u hu => ?_, (h.down hbefore).2⟩
      rcases setTask_cases hu with rfl | hu
      · exact hf.below hbefore
      · exact (h.down hbefore).1 k' u hu
    · obtain ⟨hself, htasks, hlive⟩ := hf.down hnew
      refine ⟨fun k' u hu => ?_, hlive⟩
      rcases setTask_cases hu with rfl | hu
      · exact hself
      · exact htasks k' u hu
  · intro hs
    rcases hstill hs with hs | hs
    · exact h.still hs
    · exact hf.still hs

/-! ### The parts of the steps -/

/-- Where a deactivation or a deletion returns, nothing is left of the runtime. -/
theorem Inv.returned {event : Event} (h : life.Inv)
    (hoff : ∀ k task o, life.tasks k = some task → task.object? = some o → life.flag o = false)
    (hdown : ∀ k task, life.tasks k = some task → task.starts = false ∧ task.armed = false)
    (hstill : ∀ c, ¬ life.Live c) :
    (life.returned k [event]).Inv := by
  have hd := h.drop (k := k)
  have htasks (k' : Nat) (u : Task) (hu : (life.returned k [event]).tasks k' = some u) :
      life.tasks k' = some u :=
    (setTask_none hu).1
  exact
    { recorded := hd.recorded, worked := hd.worked, owned := hd.owned, child := hd.child,
      current := hd.current, killed := hd.killed, waits := hd.waits
      one := hd.one, alone := hd.alone, kept := hd.kept, gone := hd.gone
      off := fun _ k' u o hu ho => hoff k' u o (htasks k' u hu) ho
      down := fun _ => ⟨fun k' u hu => hdown k' u (htasks k' u hu), fun c r _ hc _ =>
        absurd ⟨r, hc⟩ (hstill c)⟩
      still := fun _ => hstill }

theorem live_running (h : life.Inv) {c : Nat} (hl : life.Live c) : life.running = true := by
  obtain ⟨r, hc⟩ := hl
  obtain ⟨runtime, hr, hchild⟩ := h.owned c r _ hc (by decide)
  simp [running, child?, h.current c r hc, hr, hchild, hc]

theorem Inv.start {call : Option Bool} (h : life.Inv) (hcall : call ≠ some false) (hdown : ¬ life.Down)
    (hone : life.running = true ∨ ∀ k task, life.tasks k = some task → task.starts = false) :
    (life.startRuntime k o call).Inv := by
  unfold startRuntime
  split
  · next hrun =>
    split
    · next active =>
      cases active with
      | true => exact h.drop
      | false => exact absurd rfl hcall
    · exact h.drop
  · next hrun =>
    have hstarts := hone.resolve_left hrun
    exact h.set
      { object := nofun
        waits := nofun
        starts := fun _ => ⟨fun c hl => hrun (live_running h hl), hstarts⟩
        kept := by simp [hcall]
        closes := by simp [Task.closes, hcall]
        gone := nofun
        below := fun hd => absurd hd hdown
        down := nofun
        still := nofun }

/-- The live child is the one that `runtimes` has. -/
theorem live_child (h : life.Inv) {c : Nat} (hl : life.Live c) : life.child? = some c := by
  obtain ⟨r, hc⟩ := hl
  obtain ⟨runtime, hr, hchild⟩ := h.owned c r _ hc (by decide)
  simp [child?, h.current c r hc, hr, hchild]

theorem Inv.marks {runtime : Runtime} (h : life.Inv) (hr : life.records r = some runtime) :
    Inv { life with records := Function.update life.records r (some { runtime with stopping := true }) } := by
  have hrecord (r' : Nat) (runtime' : Runtime) (hr' : life.records r' = some runtime') :
      ∃ u, Function.update life.records r (some { runtime with stopping := true }) r' = some u ∧
        u.child = runtime'.child ∧ (runtime'.stopping = true → u.stopping = true) := by
    rw [Function.update_apply]
    split
    · next heq =>
      subst heq
      obtain rfl := Option.some.inj (hr.symm.trans hr')
      exact ⟨_, rfl, rfl, fun _ => rfl⟩
    · exact ⟨runtime', hr', rfl, id⟩
  exact
    { h with
      owned := fun c r' process hc hp => by
        obtain ⟨runtime', hr', hchild⟩ := h.owned c r' process hc hp
        obtain ⟨u, hu, huc, -⟩ := hrecord r' runtime' hr'
        exact ⟨u, hu, huc.trans hchild⟩
      child := fun r' u c hu huc => by
        dsimp only at hu
        rw [Function.update_apply] at hu
        split at hu
        · next heq =>
          subst heq
          rw [← Option.some.inj hu] at huc
          exact h.child r' runtime c hr huc
        · exact h.child r' u c hu huc
      killed := fun c r' u hc hu => by
        obtain ⟨runtime', hr', -⟩ := h.owned c r' _ hc (by decide)
        obtain ⟨u', hu', -, hus⟩ := hrecord r' runtime' hr'
        obtain rfl := Option.some.inj (hu.symm.trans hu')
        exact hus (h.killed c r' runtime' hc hr')
      waits := fun k r' c caller hk => by
        obtain ⟨⟨runtime', hr', hs, hchild⟩, hc⟩ := h.waits k r' c caller hk
        obtain ⟨u, hu, huc, hus⟩ := hrecord r' runtime' hr'
        exact ⟨⟨u, hu, hus hs, huc ▸ hchild⟩, hc⟩
      down := fun hd => by
        refine ⟨(h.down hd).1, fun c r' u hc hu => ?_⟩
        obtain ⟨runtime', hr', -⟩ := h.owned c r' _ hc (by decide)
        obtain ⟨u', hu', -, hus⟩ := hrecord r' runtime' hr'
        obtain rfl := Option.some.inj (hu.symm.trans hu')
        exact hus ((h.down hd).2 c r' runtime' hc hr') }

/-- A call of `stopRuntime` while no start and no restart is pending. -/
theorem Inv.stop {caller : Caller} (h : life.Inv)
    (hdown : ∀ k task, life.tasks k = some task → task.starts = false ∧ task.armed = false)
    (hoff : caller ≠ .ensure true → ∀ k task o, life.tasks k = some task → task.object? = some o →
      life.flag o = false) :
    (life.stopRuntime k caller).Inv := by
  have hnone (hlive : ∀ c, ¬ life.Live c) : (life.setTask k (some (.stopping none caller))).Inv := h.set
      { object := nofun
        waits := nofun
        starts := nofun
        kept := nofun
        closes := fun hc => hoff (by simpa [Task.closes] using hc)
        gone := nofun
        below := fun _ => ⟨rfl, rfl⟩
        down := fun _ => ⟨⟨rfl, rfl⟩, hdown, fun c r _ hc _ => absurd ⟨r, hc⟩ (hlive c)⟩
        still := fun _ => hlive }
  unfold stopRuntime
  split
  · next r runtime hr =>
    obtain ⟨r', hruntime, hr⟩ := Option.bind_eq_some_iff.1 hr
    obtain ⟨runtime', hrecord, heq⟩ := Option.map_eq_some_iff.1 hr
    obtain ⟨rfl, rfl⟩ := Prod.mk.inj heq
    have hchild : life.child? = runtime'.child := by simp [child?, hruntime, hrecord]
    split
    · next c hc =>
      have hlive (c' r : Nat) (u : Runtime) (hc' : life.children c' = some ⟨r, .running⟩)
          (hu : Function.update life.records r' (some { runtime' with stopping := true }) r = some u) :
              u.stopping = true := by
        obtain rfl : r' = r := Option.some.inj (hruntime.symm.trans (h.current c' r hc'))
        rw [Function.update_self] at hu
        rw [← Option.some.inj hu]
      exact (h.marks hrecord).set
        { object := nofun
          waits := fun r₀ c₀ caller₀ heq => by
            obtain ⟨hwait, -⟩ := Task.stopping.inj heq
            obtain ⟨rfl, rfl⟩ := Prod.mk.inj (Option.some.inj hwait)
            exact ⟨⟨_, Function.update_self .., rfl, .inr hc⟩, h.child r' runtime' c hrecord hc⟩
          starts := nofun
          kept := nofun
          closes := fun hclose => hoff (by simpa [Task.closes] using hclose)
          gone := nofun
          below := fun _ => ⟨rfl, rfl⟩
          down := fun _ => ⟨⟨rfl, rfl⟩, hdown, hlive⟩
          still := nofun }
    · next hc =>
      refine hnone fun c hl => ?_
      rw [live_child h hl, hc] at hchild
      cases hchild
  · next hr =>
    refine hnone fun c hl => ?_
    obtain ⟨r, hc⟩ := hl
    obtain ⟨runtime, hrecord, -⟩ := h.owned c r _ hc (by decide)
    simp [h.current c r hc, hrecord] at hr

theorem Still.down (hs : life.Still) : life.Down := by
  rcases hs with hs | hs | ⟨k, task, hk, hs⟩
  · exact .inl hs
  · exact .inr (.inl hs)
  · refine .inr (.inr ⟨k, task, hk, ?_⟩)
    unfold Task.still at hs
    split at hs
    · exact hs
    · rfl
    · rfl
    · cases hs

theorem Inv.spawn (h : life.Inv) (hlive : ∀ c, ¬ life.Live c)
    (hstarts : ∀ k task, life.tasks k = some task → task.starts = false)
    (hdown : ¬ life.Down) (hr : life.records r = none) (hc : life.children c = none) :
    (life.spawn o r c).Inv where
  recorded := h.recorded
  worked := h.worked
  owned c' r' process hc' hp := by
    simp only [Life.spawn, Function.update_apply] at hc' ⊢
    split at hc'
    · next heq =>
      cases hc'
      exact ⟨_, if_pos rfl, heq ▸ rfl⟩
    · obtain ⟨runtime, hr', hchild⟩ := h.owned c' r' process hc' hp
      rw [if_neg (fun heq => by rw [heq, hr] at hr'; cases hr')]
      exact ⟨runtime, hr', hchild⟩
  child r' u c' hu huc := by
    simp only [Life.spawn, Function.update_apply] at hu ⊢
    split at hu
    · next heq =>
      subst heq
      rw [← Option.some.inj hu] at huc
      obtain rfl := Option.some.inj huc
      exact ⟨.running, if_pos rfl⟩
    · obtain ⟨process, hc'⟩ := h.child r' u c' hu huc
      rw [if_neg (fun heq => by rw [heq, hc] at hc'; cases hc')]
      exact ⟨process, hc'⟩
  current c' r' hc' := by
    simp only [Life.spawn, Function.update_apply] at hc' ⊢
    split at hc'
    · cases hc'
      rfl
    · exact absurd ⟨r', hc'⟩ (hlive c')
  killed c' r' u hc' hu := by
    simp only [Life.spawn, Function.update_apply] at hc' hu
    split at hc'
    · cases hc'
    · obtain ⟨runtime, hr', -⟩ := h.owned c' r' _ hc' (by decide)
      rw [if_neg (fun heq => by rw [heq, hr] at hr'; cases hr')] at hu
      exact h.killed c' r' u hc' hu
  waits k r' c' caller hk := by
    obtain ⟨⟨runtime, hr', hrest⟩, process, hc'⟩ := h.waits k r' c' caller hk
    simp only [Life.spawn, Function.update_apply]
    rw [if_neg (fun heq => by rw [heq, hr] at hr'; cases hr'),
      if_neg (fun heq => by rw [heq, hc] at hc'; cases hc')]
    exact ⟨⟨runtime, hr', hrest⟩, process, hc'⟩
  one := h.one
  alone k task c' hk hs := by
    rw [hstarts k task hk] at hs
    cases hs
  kept := h.kept
  off := h.off
  gone := h.gone
  down hd := absurd hd hdown
  still hs := absurd (Still.down hs) hdown

/-- The exit of a child is reported. -/
theorem Inv.exit {process : Process} {runtime : Runtime} (h : life.Inv)
    (hc : life.children c = some ⟨r, process⟩)
    (hp : process ≠ .exited) (hr : life.records r = some runtime) :
    Inv { life with
      children := Function.update life.children c (some ⟨r, .exited⟩)
      records := Function.update life.records r (some { runtime with child := none }) } := by
  have hlive (c' : Nat) (r' : Nat) (process' : Process) (hp' : process' ≠ .exited)
      (hc' : Function.update life.children c (some ⟨r, .exited⟩) c' = some ⟨r', process'⟩) :
      life.children c' = some ⟨r', process'⟩ ∧ r' ≠ r := by
    rw [Function.update_apply] at hc'
    split at hc'
    · cases hc'
      exact absurd rfl hp'
    · next hne =>
      refine ⟨hc', ?_⟩
      rintro rfl
      obtain ⟨u, hu, huc⟩ := h.owned c' r' process' hc' hp'
      obtain ⟨v, hv, hvc⟩ := h.owned c r' process hc hp
      obtain rfl := Option.some.inj (hu.symm.trans hv)
      exact hne (Option.some.inj (huc.symm.trans hvc))
  have hkept (c' r' : Nat) (process' : Process) (hc' : life.children c' = some ⟨r', process'⟩) :
      ∃ process, Function.update life.children c (some ⟨r, .exited⟩) c' = some ⟨r', process⟩ := by
    rw [Function.update_apply]
    split
    · next heq =>
      cases (heq ▸ hc').symm.trans hc
      exact ⟨_, rfl⟩
    · exact ⟨process', hc'⟩
  exact
    { h with
      owned := fun c' r' process' hc' hp' => by
        obtain ⟨hc', hne⟩ := hlive c' r' process' hp' hc'
        obtain ⟨u, hu, huc⟩ := h.owned c' r' process' hc' hp'
        exact ⟨u, (Function.update_of_ne hne ..).trans hu, huc⟩
      child := fun r' u c' hu huc => by
        dsimp only at hu
        rw [Function.update_apply] at hu
        split at hu
        · rw [← Option.some.inj hu] at huc
          cases huc
        · obtain ⟨process', hc'⟩ := h.child r' u c' hu huc
          exact hkept c' r' process' hc'
      current := fun c' r' hc' => h.current c' r' (hlive c' r' _ (by decide) hc').1
      killed := fun c' r' u hc' hu => by
        obtain ⟨hc', hne⟩ := hlive c' r' _ (by decide) hc'
        exact h.killed c' r' u hc' ((Function.update_of_ne hne ..).symm.trans hu)
      waits := fun k r' c' caller hk => by
        obtain ⟨⟨u, hu, hs, hchild⟩, process', hc'⟩ := h.waits k r' c' caller hk
        refine ⟨?_, hkept c' r' process' hc'⟩
        dsimp only
        rw [Function.update_apply]
        split
        · next heq =>
          subst heq
          obtain rfl := Option.some.inj (hu.symm.trans hr)
          exact ⟨_, rfl, hs, .inl rfl⟩
        · exact ⟨u, hu, hs, hchild⟩
      alone := fun k task c' hk hs hl => by
        obtain ⟨r', hc'⟩ := hl
        exact h.alone k task c' hk hs ⟨r', (hlive c' r' _ (by decide) hc').1⟩
      down := fun hd => by
        refine ⟨(h.down hd).1, fun c' r' u hc' hu => ?_⟩
        obtain ⟨hc', hne⟩ := hlive c' r' _ (by decide) hc'
        exact (h.down hd).2 c' r' u hc' ((Function.update_of_ne hne ..).symm.trans hu)
      still := fun hs c' hl => by
        obtain ⟨r', hc'⟩ := hl
        exact h.still hs c' ⟨r', (hlive c' r' _ (by decide) hc').1⟩ }

/-- Without a running child the record may be dropped. -/
theorem Inv.gives {children : Nat → Option Child} (h : life.Inv)
    (hchildren : ∀ c r process, children c = some ⟨r, process⟩ → process ≠ .exited →
      ∃ process', life.children c = some ⟨r, process'⟩ ∧ process' ≠ .exited)
    (hkept : ∀ c r process, life.children c = some ⟨r, process⟩ → ∃ process', children c = some ⟨r, process'⟩)
    (hkilled : ∀ c r runtime, children c = some ⟨r, .killed⟩ → life.records r = some runtime →
      runtime.stopping = true)
    (hnone : ∀ c r, children c ≠ some ⟨r, .running⟩) : Inv { life with runtime := none, children } :=
  { h with
    owned := fun c r process hc hp => by
      obtain ⟨process', hc', hp'⟩ := hchildren c r process hc hp
      exact h.owned c r process' hc' hp'
    child := fun r u c hu huc => by
      obtain ⟨process, hc⟩ := h.child r u c hu huc
      exact hkept c r process hc
    current := fun c r hc => absurd hc (hnone c r)
    killed := hkilled
    waits := fun k r c caller hk => by
      obtain ⟨hr, process, hc⟩ := h.waits k r c caller hk
      exact ⟨hr, hkept c r process hc⟩
    alone := fun _ _ c _ _ hl => hl.elim fun r hc => hnone c r hc
    down := fun hd => ⟨(h.down hd).1, fun c r _ hc _ => absurd hc (hnone c r)⟩
    still := fun _ c hl => hl.elim fun r hc => hnone c r hc }

theorem Inv.ends {wait : Option (Nat × Nat)} {caller : Caller} {timeout : Bool} {life' : Life} (h : life.Inv)
    (hk : life.tasks k = some (.stopping wait caller))
    (hdrop : ∀ r c, wait = some (r, c) → life.running = true → life.runtime = some r)
    (hs : life.stopped wait timeout = some life') :
    life'.Inv ∧ life'.tasks = life.tasks ∧ (wait ≠ none → ∀ c, ¬ life'.Live c) := by
  unfold Life.stopped at hs
  split at hs
  · rw [← Option.some.inj hs]
    exact ⟨h, rfl, fun hne => absurd rfl hne⟩
  · next r c =>
    -- a running child is the one of the record that was stopped
    have honly (c' r' : Nat) (hc' : life.children c' = some ⟨r', .running⟩) : c' = c := by
      have hrun := live_running h ⟨r', hc'⟩
      obtain rfl : r = r' := Option.some.inj ((hdrop r c rfl hrun).symm.trans (h.current c' r' hc'))
      obtain ⟨u, hu, huc⟩ := h.owned c' r _ hc' (by decide)
      obtain ⟨⟨v, hv, -, hvc⟩, -⟩ := h.waits k r c caller hk
      obtain rfl := Option.some.inj (hu.symm.trans hv)
      rw [huc] at hvc
      rcases hvc with hvc | hvc
      · cases hvc
      · exact Option.some.inj hvc
    split at hs
    · next child hc =>
      split at hs
      · next hexit =>
        have hnone (c' r' : Nat) : life.children c' ≠ some ⟨r', .running⟩ := fun hc' => by
          obtain rfl := honly c' r' hc'
          rw [← Option.some.inj (hc'.symm.trans hc)] at hexit
          cases hexit
        rw [← Option.some.inj hs]
        exact ⟨h.gives (fun c' r' process hc' hp => ⟨process, hc', hp⟩) (fun _ _ process hc' =>
          ⟨process, hc'⟩) h.killed hnone, rfl, fun _ c' hl => hl.elim fun r' hc' => hnone c' r' hc'⟩
      · next hexit =>
        split at hs
        · have hnone (c' r' : Nat) : Function.update life.children c
            (some { child with process := .killed }) c' ≠
              some ⟨r', .running⟩ := fun hc' => by
            rw [Function.update_apply] at hc'
            split at hc'
            · cases hc'
            · next hne => exact hne (honly c' r' hc')
          rw [← Option.some.inj hs]
          refine ⟨h.gives (fun c' r' process hc' hp => ?_) (fun c' r' process hc' => ?_)
            (fun c' r' u hc' hu => ?_) hnone, rfl,
            fun _ c' hl => hl.elim fun r' hc' => hnone c' r' hc'⟩
          · rw [Function.update_apply] at hc'
            split at hc'
            · next heq =>
              cases hc'
              exact ⟨child.process, heq ▸ hc, hexit⟩
            · exact ⟨process, hc', hp⟩
          · rw [Function.update_apply]
            split
            · next heq =>
              cases (heq ▸ hc').symm.trans hc
              exact ⟨_, rfl⟩
            · exact ⟨process, hc'⟩
          · rw [Function.update_apply] at hc'
            split at hc'
            · cases hc'
              obtain ⟨⟨v, hv, hstop, -⟩, process, hrc⟩ := h.waits k r c caller hk
              obtain rfl := Option.some.inj (hrc.symm.trans hc)
              obtain rfl := Option.some.inj (hu.symm.trans hv)
              exact hstop
            · exact h.killed c' r' u hc' hu
        · cases hs
    · cases hs

/-- A restart timer. -/
theorem Inv.arms (h : life.Inv) (hd : ¬ life.Down) : (life.setTask k (some (.timer o))).Inv :=
  h.set
    { object := nofun
      waits := nofun
      starts := nofun
      kept := nofun
      closes := nofun
      gone := nofun
      below := fun hdown => absurd hdown hd
      down := nofun
      still := nofun }

/-- A deletion goes on, past its stop. -/
theorem Inv.past (h : life.Inv) (hoff : ∀ k task o, life.tasks k = some task → task.object? = some o →
    life.flag o = false)
    (hdown : ∀ k task, life.tasks k = some task → task.starts = false ∧ task.armed = false)
    (hlive : ∀ c, ¬ life.Live c)
    (htask : task = .archiving ∨ ∃ save, task = .removing save) : (life.setTask k (some task)).Inv := by
  refine h.set
    { closes := fun _ => hoff
      down := fun _ => ⟨?_, hdown, fun c r _ hc _ => absurd ⟨r, hc⟩ (hlive c)⟩
      still := fun _ => hlive
      object := ?_, waits := ?_, starts := ?_, kept := ?_, gone := ?_, below := ?_ }
  all_goals
    rcases htask with rfl | ⟨save, rfl⟩ <;> simp [Task.starts, Task.armed, Task.object?]

/-- `delete state.tenants[id]`. -/
theorem Inv.forget (h : life.Inv)
    (hoff : ∀ k task o, life.tasks k = some task → task.object? = some o → life.flag o = false)
    (hdown : ∀ k task, life.tasks k = some task → task.starts = false ∧ task.armed = false)
    (hlive : ∀ c, ¬ life.Live c) :
    Inv { life with recorded := none } :=
  { h with
    recorded := nofun
    off := fun _ => hoff
    gone := fun _ k tenant _ _ hk => hoff k _ tenant hk rfl
    down := fun _ => ⟨hdown, fun c r _ hc _ => absurd ⟨r, hc⟩ (hlive c)⟩
    still := fun _ => hlive }

/-- `state.tenants[id] = tenant`. -/
theorem Inv.inserts {active : Bool} {save : Save} (h : life.Inv) (ho : life.objects o ≠ none)
    (hflag : life.Closing ∨ active = false → life.flag o = false)
    (hoff : active = false → ∀ k task o, life.tasks k = some task → task.object? = some o →
      life.flag o = false) :
    (setTask { life with recorded := some o } k (some (.saving o active save))).Inv := by
  have hdown : Down { life with recorded := some o } → life.Down := by
    rintro (hs | hs | hs)
    · exact .inl hs
    · cases hs
    · exact .inr (.inr hs)
  have hstill : Still { life with recorded := some o } → life.Still := by
    rintro (hs | hs | hs)
    · exact .inl hs
    · cases hs
    · exact .inr (.inr hs)
  have hinv : Inv { life with recorded := some o } :=
    { h with
      recorded := fun o' heq => Option.some.inj heq ▸ ho
      gone := nofun
      down := fun hd => h.down (hdown hd)
      still := fun hs => h.still (hstill hs) }
  refine hinv.set
    { object := fun o' heq => ?_
      waits := nofun
      starts := nofun
      kept := nofun
      closes := fun hc => hoff (by simpa [Task.closes] using hc)
      gone := nofun
      below := fun _ => ⟨rfl, rfl⟩
      down := nofun
      still := nofun }
  obtain rfl := Option.some.inj heq
  refine ⟨ho, fun hc => ?_⟩
  rcases hc with hc | hc
  · exact hflag (.inl hc)
  · exact hflag (.inr (by simpa [Task.closes] using hc))

theorem flag_update {tenant : Tenant} (o' : Nat) :
    flag { life with objects := Function.update life.objects o (some tenant) } o' =
    if o' = o then tenant.active else life.flag o' := by
  simp only [flag, Function.update_apply]
  split <;> rfl

theorem object_update {objects : Nat → Option Tenant} {tenant : Tenant} {o' : Nat} (ho : objects o' ≠ none) :
    Function.update objects o (some tenant) o' ≠ none := by
  rw [Function.update_apply]
  split
  · simp
  · exact ho

/-- An activation begins while no deactivation and no deletion is under way. -/
theorem Inv.activates {tenant : Tenant} (h : life.Inv)
    (hcloses : ∀ k task, life.tasks k = some task → task.closes = false)
    (ho : life.recorded = none → life.objects o = none) :
    Inv { life with objects := Function.update life.objects o (some tenant), history := .activates ::
      life.history } ∧
    ¬ Closing { life with
      objects := Function.update life.objects o (some tenant), history := .activates :: life.history } :=
      by
  have hclosing : ¬ Closing { life with
      objects := Function.update life.objects o (some tenant), history := .activates :: life.history } := by
    rintro ((hs | hs) | ⟨k, task, hk, hc⟩)
    · cases hs
    · cases hs
    · rw [hcloses k task hk] at hc
      cases hc
  have hdown : Down { life with
      objects := Function.update life.objects o (some tenant), history := .activates :: life.history } →
          life.Down := by
    rintro ((hs | hs) | hs | ⟨k, task, hk, hd⟩)
    · cases hs
    · cases hs
    · exact .inr (.inl hs)
    · exact .inr (.inr ⟨k, task, hk, hd⟩)
  have hstill : Still { life with
      objects := Function.update life.objects o (some tenant), history := .activates :: life.history } →
          life.Still := by
    rintro ((hs | hs) | hs | ⟨k, task, hk, hd⟩)
    · cases hs
    · cases hs
    · exact .inr (.inl hs)
    · exact .inr (.inr ⟨k, task, hk, hd⟩)
  refine ⟨{ h with
    recorded := fun o' hr => object_update (h.recorded o' hr)
    worked := fun k task o' hk ho' => object_update (h.worked k task o' hk ho')
    off := fun hc => absurd hc hclosing
    gone := fun hr k o' active save hk => ?_
    down := fun hd => h.down (hdown hd)
    still := fun hs => h.still (hstill hs) }, hclosing⟩
  have hne : o' ≠ o := fun heq => h.worked k _ o' hk rfl (heq ▸ ho hr)
  have hflag : life.flag o' = false := h.gone hr k o' active save hk
  exact ((flag_update o').trans (if_neg hne)).trans hflag

/-- A deactivation begins while every activation that has yet to look at the flag has the object
that it switches off. -/
theorem Inv.deactivates {tenant : Tenant} (h : life.Inv) (hactive : tenant.active = false)
    (hobject : ∀ k task o, life.tasks k = some task → task.object? = some o → life.flag o = true →
      life.recorded = some o) (ho : ∀ o', life.recorded = some o' → o' = o) :
    Inv { life with objects := Function.update life.objects o (some tenant) } ∧
      ∀ k task o', life.tasks k = some task → task.object? = some o' →
        flag { life with objects := Function.update life.objects o (some tenant) } o' = false := by
  have hoff (k : Nat) (task : Task) (o' : Nat) (hk : life.tasks k = some task)
    (ho' : task.object? = some o') :
      flag { life with objects := Function.update life.objects o (some tenant) } o' = false := by
    rw [flag_update]
    split
    · exact hactive
    · next hne =>
      rw [Bool.eq_false_iff]
      exact fun hflag => hne (ho o' (hobject k task o' hk ho' hflag))
  exact ⟨{ h with
    recorded := fun o' hr => object_update (h.recorded o' hr)
    worked := fun k task o' hk ho' => object_update (h.worked k task o' hk ho')
    off := fun _ => hoff
    gone := fun _ k o' active save hk => hoff k _ o' hk rfl }, hoff⟩

/-- Writing to an object without its flag. -/
theorem Inv.objects {objects : Nat → Option Tenant} (h : life.Inv)
    (hsome : ∀ o, life.objects o ≠ none → objects o ≠ none)
    (hflag : ∀ o, flag { life with objects } o = life.flag o) : Inv { life with objects } :=
  { h with
    recorded := fun o hr => hsome o (h.recorded o hr)
    worked := fun k task o hk ho => hsome o (h.worked k task o hk ho)
    off := fun hc k task o hk ho => (hflag o).trans (h.off hc k task o hk ho)
    gone := fun hr k o active save hk => (hflag o).trans (h.gone hr k o active save hk) }

theorem closes_of_down {task : Task} (hd : task.down = true) : task.closes = true := by
  cases task <;> first | exact hd | cases hd

/-- A call that finds the flag set is no deactivation, and none has come before it. -/
theorem Inv.flagged {active : Bool} {save : Save} (h : life.Inv)
    (hk : life.tasks k = some (.saving o active save))
    (hflag : life.flag o = true) : ¬ life.Closing ∧ active = true ∧ ¬ life.Down := by
  have hclosing : ¬ life.Closing := fun hc => by
    rw [h.off hc k _ o hk rfl] at hflag
    cases hflag
  refine ⟨hclosing, ?_, ?_⟩
  · rw [← Bool.not_eq_false]
    rintro rfl
    exact hclosing (.inr ⟨k, _, hk, rfl⟩)
  · rintro (hs | hr | ⟨k', task, hk', hd⟩)
    · exact hclosing (.inl hs)
    · rw [h.gone hr k o active save hk] at hflag
      cases hflag
    · exact hclosing (.inr ⟨k', task, hk', closes_of_down hd⟩)

/-- The last operation of a start. -/
theorem Inv.starts {ops : List FileOp} {call : Option Bool} (h : life.Inv)
    (hk : life.tasks k = some (.starting o ops call))
    (hr : life.records r = none) (hc : life.children c = none) : ((life.setTask k none).spawn o r c).Inv := by
  refine h.drop.spawn (fun c => h.alone k _ c hk rfl) (fun k' task hk' => ?_) (fun hd => ?_) hr hc
  · rw [Bool.eq_false_iff]
    exact fun hs => (setTask_none hk').2 (h.one k' k task _ (setTask_none hk').1 hk hs rfl)
  · have hdown : life.Down := by
      rcases hd with hs | hs | ⟨k', task, hk', hd⟩
      · exact .inl hs
      · exact .inr (.inl hs)
      · exact .inr (.inr ⟨k', task, (setTask_none hk').1, hd⟩)
    cases ((h.down hdown).1 k _ hk).1

/-- No start is between its look for a running child and its spawn. -/
def NoStart (life : Life) : Prop := ∀ k task, life.tasks k = some task → task.starts = false

/-- No restart timer is armed. -/
def NoRestart (life : Life) : Prop := ∀ k task, life.tasks k = some task → task.armed = false

/-- The runtime follows the flag: there is one child at most, and none after a deactivation or a deletion. -/
structure Follows (life : Life) : Prop where
  one : ∀ c c', life.Live c → life.Live c' → c = c'
  none : life.Settled → ∀ c, ¬ life.Live c
  idle : life.Settled → life.Idle

theorem Inv.follows (h : life.Inv) : life.Follows where
  one _ _ hl hl' := Option.some.inj ((live_child h hl).symm.trans (live_child h hl'))
  none hs := h.still (.inl hs)
  idle hs :=
    { starts := fun k task hk => ((h.down (.inl hs)).1 k task hk).1
      armed := fun k task hk => ((h.down (.inl hs)).1 k task hk).2
      ensures := h.off (.inl hs) }

end Life

open Life

variable {settings : Settings} {s s' : State} {l : Label} {id : String} {k o : Nat}

/-- The step is no part of a race:
* `startRuntime` finds a running child, or no other start of the tenant is on its way to its spawn;
* `stopRuntime` is called while no start of the tenant is on its way and no restart timer of it is armed;
* at the end of its wait it drops the record that it stopped, or none with a running child;
* an activation begins while no deactivation or deletion of the tenant is under way, and a
deactivation or a deletion
  begins while every activation that has yet to look at the flag has the object whose flag this call
  clears. -/
def Unraced (settings : Settings) (s : State) : Label → Prop
  | .ensureTenant input _ _ _ _ =>
    s.refusal settings input = none →
      if input.active then ∀ k task, (s.lives input.tenant_id).tasks k = some task → task.closes = false
      else ∀ k task o, (s.lives input.tenant_id).tasks k = some task → task.object? = some o →
        (s.lives input.tenant_id).flag o = true → (s.lives input.tenant_id).recorded = some o
  | .deleteTenant id _ =>
    (∀ k task o, (s.lives id).tasks k = some task → task.object? = some o → (s.lives id).flag o = false) ∧
      ((s.lives id).recorded ≠ none → (s.lives id).NoStart ∧ (s.lives id).NoRestart)
  | .saved id k =>
    ∀ o active, (s.lives id).tasks k = some (.saving o active .chmod) →
      if (s.lives id).flag o then (s.lives id).running = true ∨ (s.lives id).NoStart
      else (s.lives id).NoStart ∧ (s.lives id).NoRestart
  | .fires id _ => (s.lives id).running = true ∨ (s.lives id).NoStart
  | .stopped id k _ _ =>
    ∀ r c caller, (s.lives id).tasks k = some (.stopping (some (r, c)) caller) → (s.lives id).running = true →
      (s.lives id).runtime = some r
  | _ => True

theorem lives_setLife {life : Life} (h : ∀ id, (s.lives id).Inv) (hl : life.Inv) (id' : String) :
    ((s.setLife id life).lives id').Inv := by
  simp only [State.setLife, Function.update_apply]
  split
  · exact hl
  · exact h id'

theorem lives_record {active : Bool} (h : ∀ id, (s.lives id).Inv)
    (hl : ∀ save, (setTask { s.lives id with recorded := some o } k
    (some (.saving o active save))).Inv) (id' : String) : ((s.record id k o active).lives id').Inv := by
  simp only [State.record, State.setTask, State.setLife, Function.update_idem, Function.update_self]
  rw [Function.update_apply]
  split
  · exact hl _
  · exact h id'

theorem lives_remove {life : Life} (h : ∀ id, (s.lives id).Inv)
    (hl : ∀ save, (setTask { life with recorded := none } k
    (some (.removing save))).Inv) (id' : String) : (((s.setLife id life).remove id k).lives id').Inv := by
  simp only [State.remove, State.setTask, State.setLife, Function.update_idem, Function.update_self]
  rw [Function.update_apply]
  split
  · exact hl _
  · exact h id'

/-- What holds once an `ensureTenant` call has its tenant object. -/
structure Began (life : Life) (o : Nat) (active : Bool) : Prop where
  inv : life.Inv
  object : life.objects o ≠ none
  flag : life.Closing ∨ active = false → life.flag o = false
  off : active = false → ∀ k task o, life.tasks k = some task → task.object? = some o → life.flag o = false

theorem began {input : Input} {credentialSecret adminToken : String} {tenant : Tenant} {o' : Nat}
    (h : ∀ id, (s.lives id).Inv)
    (hu : Unraced settings s (.ensureTenant input k o credentialSecret adminToken))
    (hr : s.refusal settings input = none) (ho : (s.lives input.tenant_id).recorded = some o' ∨
      (s.lives input.tenant_id).recorded = none ∧ (s.lives input.tenant_id).objects o' = none) :
    Began ((s.begun o' tenant input).lives input.tenant_id) o' input.active := by
  have hself : (s.begun o' tenant input).lives input.tenant_id =
      { s.lives input.tenant_id with
        objects := Function.update (s.lives input.tenant_id).objects o' (some (State.assign tenant input))
        history := if input.active then .activates :: (s.lives input.tenant_id).history
          else (s.lives input.tenant_id).history } := Function.update_self ..
  have hgood := hu hr
  rw [hself]
  by_cases hactive : input.active = true
  · rw [if_pos hactive] at hgood ⊢
    have hfresh : (s.lives input.tenant_id).recorded = none →
        (s.lives input.tenant_id).objects o' = none := fun hnone =>
      ho.elim (fun hsome => by rw [hnone] at hsome; cases hsome) And.right
    obtain ⟨hinv, hclosing⟩ := (h input.tenant_id).activates hgood hfresh
    refine ⟨hinv, by simp, fun hc => ?_, fun hfalse => ?_⟩
    · rcases hc with hc | hc
      · exact absurd hc hclosing
      · rw [hc] at hactive
        cases hactive
    · rw [hfalse] at hactive
      cases hactive
  · rw [if_neg hactive] at hgood ⊢
    have hfalse : (State.assign tenant input).active = false := Bool.eq_false_iff.2 hactive
    obtain ⟨hinv, hoff⟩ := (h input.tenant_id).deactivates hfalse hgood fun o'' hsome => by
      rcases ho with hr | ⟨hr, -⟩
      · exact Option.some.inj (hsome.symm.trans hr)
      · rw [hr] at hsome
        cases hsome
    exact ⟨hinv, by simp, fun _ => (flag_update o').trans ((if_pos rfl).trans hfalse), fun _ => hoff⟩

theorem Began.migrates {life : Life} {active : Bool} (h : Began life o active) :
    (life.setTask k (some (.migrating o active))).Inv :=
  h.inv.set
    { object := fun o' heq => by
        obtain rfl := Option.some.inj heq
        exact ⟨h.object, fun hc => h.flag (hc.imp_right (by simp [Task.closes]))⟩
      waits := nofun
      starts := nofun
      kept := nofun
      closes := fun hc => h.off (by simpa [Task.closes] using hc)
      gone := nofun
      below := fun _ => ⟨rfl, rfl⟩
      down := nofun
      still := nofun }

theorem inv_ensureTenant {input : Input} {credentialSecret adminToken : String} (h : ∀ id, (s.lives id).Inv)
    (hu : Unraced settings s (.ensureTenant input k o credentialSecret adminToken))
    (ho : (s.lives input.tenant_id).objects o = none) (id' : String) :
    ((s.ensureTenant settings input k o credentialSecret adminToken).lives id').Inv := by
  have hbegun {s : State} {o' : Nat} {tenant : Tenant} (h : ∀ id, (s.lives id).Inv)
      (hb : Began ((s.begun o' tenant input).lives input.tenant_id) o' input.active) (id : String) :
      ((s.begun o' tenant input).lives id).Inv := by
    have hinv := hb.inv
    simp only [State.begun, State.setLife, Function.update_self] at hinv
    exact lives_setLife h hinv id
  unfold State.ensureTenant
  split
  · exact h id'
  · next hrefusal =>
    split
    · next existing tenant hr ht =>
      have hb : Began ((s.begun existing tenant input).lives input.tenant_id) existing input.active :=
        began h hu hrefusal (.inl hr)
      exact lives_record (hbegun h hb) (fun save => hb.inv.inserts hb.object hb.flag hb.off) id'
    · next hnot =>
      have hr : (s.lives input.tenant_id).recorded = none := by
        rcases hr : (s.lives input.tenant_id).recorded with _ | existing
        · rfl
        · obtain ⟨tenant, ht⟩ := Option.ne_none_iff_exists'.1 ((h input.tenant_id).recorded existing hr)
          exact (hnot existing tenant hr (by simp [Life.tenant?, hr, ht])).elim
      split
      · exact h id'
      · next port hport =>
        have hu' : Unraced settings { s with nextUid := s.nextUid + 1 }
            (.ensureTenant input k o credentialSecret adminToken) := hu
        have hb {tenant : Tenant} :
          Began (({ s with nextUid := s.nextUid + 1 }.begun o tenant input).lives input.tenant_id) o
            input.active := began h hu' hrefusal (.inr ⟨hr, ho⟩)
        dsimp only
        split
        · exact lives_setLife (hbegun h hb) hb.migrates id'
        · exact lives_record (hbegun (s := { s with nextUid := s.nextUid + 1 }) h hb) (fun save =>
            hb.inv.inserts hb.object hb.flag hb.off) id'

theorem inv_deleteTenant (h : ∀ id, (s.lives id).Inv) (hu : Unraced settings s (.deleteTenant id k))
    (id' : String) :
    ((s.deleteTenant id k).lives id').Inv := by
  unfold State.deleteTenant
  split
  · next hr =>
    exact lives_setLife h ((h id).returned hu.1 ((h id).down (.inr (.inl hr))).1
      ((h id).still (.inr (.inl hr)))) id'
  · next hr =>
    obtain ⟨hstart, hrestart⟩ := hu.2 (by simp [hr])
    exact lives_setLife h ((h id).stop (fun k task hk => ⟨hstart k task hk, hrestart k task hk⟩) fun _ =>
      hu.1) id'

theorem inv_saved (h : ∀ id, (s.lives id).Inv) (hu : Unraced settings s (.saved id k))
    (hs : s.saved id k = some s') (id' : String) :
    (s'.lives id').Inv := by
  have hlives {save : Save} {next : State × Option Save} (ha : s.advance save = some next) :
      next.1.lives = s.lives := by
    cases save with
    | write text => rw [← Option.some.inj ha]
    | rename =>
      obtain ⟨content, -, hn⟩ := Option.map_eq_some_iff.1 ha
      rw [← hn]
    | chmod => rw [← Option.some.inj ha]
  have hlast {save : Save} {t : State} (ha : s.advance save = some (t, none)) : save = .chmod := by
    cases save with
    | write text => cases ha
    | rename =>
      obtain ⟨content, -, hn⟩ := Option.map_eq_some_iff.1 ha
      cases hn
    | chmod => rfl
  unfold State.saved at hs
  split at hs
  · next o active save hk =>
    obtain ⟨⟨t, next⟩, ha, rfl⟩ := Option.map_eq_some_iff.1 hs
    have hl : t.lives = s.lives := hlives ha
    cases next with
    | some save' => exact lives_setLife (hl ▸ h) (hl ▸ (h id).moves hk (.saving o active save save')) id'
    | none =>
      obtain rfl := hlast ha
      refine lives_setLife (hl ▸ h) ?_ id'
      rw [hl]
      have hgood := hu o active hk
      split
      · next hflag =>
        rw [if_pos hflag] at hgood
        obtain ⟨-, rfl, hdown⟩ := (h id).flagged hk hflag
        exact (h id).start (by simp) hdown hgood
      · next hflag =>
        rw [if_neg hflag] at hgood
        refine (h id).stop (fun k task hk => ⟨hgood.1 k task hk, hgood.2 k task hk⟩) fun hne =>
          (h id).off (.inr ⟨k, _, hk, ?_⟩)
        simpa [Task.closes] using hne
  · next save hk =>
    obtain ⟨⟨t, next⟩, ha, rfl⟩ := Option.map_eq_some_iff.1 hs
    have hl : t.lives = s.lives := hlives ha
    cases next with
    | some save' => exact lives_setLife (hl ▸ h) (hl ▸ (h id).moves hk (.removing save save')) id'
    | none =>
      refine lives_setLife (hl ▸ h) ?_ id'
      rw [hl]
      exact (h id).returned ((h id).off (.inr ⟨k, _, hk, rfl⟩)) ((h id).down (.inr (.inr ⟨k, _, hk, rfl⟩))).1
        ((h id).still (.inr (.inr ⟨k, _, hk, rfl⟩)))
  · cases hs

theorem inv_migrated {active : Bool} {config : Option String} (h : ∀ id, (s.lives id).Inv)
    (hk : (s.lives id).tasks k = some (.migrating o active)) (id' : String) :
    ((s.migrated id k o active config).lives id').Inv := by
  have hobjects {objects : Nat → Option Tenant} (hi : Inv { s.lives id with objects })
      (id' : String) : ((s.setLife id { s.lives id with objects }).record id k o active |>.lives
            id').Inv := by
    have hself : (s.setLife id { s.lives id with objects }).lives id = { s.lives id with objects } :=
      Function.update_self ..
    refine lives_record (lives_setLife h hi) (fun save => ?_) id'
    rw [hself]
    refine hi.inserts (hi.worked k _ o hk rfl)
      (fun hc => hi.off (hc.elim (fun hc => hc) fun hactive => .inr ⟨k, _, hk, ?_⟩) k _ o hk rfl)
      fun hactive => hi.off (.inr ⟨k, _, hk, ?_⟩)
    · simp [Task.closes, hactive]
    · simp [Task.closes, hactive]
  refine hobjects ((h id).objects (fun o' ho' => ?_) fun o' => ?_) id'
  · rw [Function.update_apply]
    split
    · next heq => simpa [heq] using ho'
    · exact ho'
  · simp only [flag, Function.update_apply]
    split
    · next heq =>
      rw [heq]
      cases (s.lives id).objects o <;> rfl
    · rfl

theorem inv_stopped {timeout userDirExists : Bool} (h : ∀ id, (s.lives id).Inv)
    (hu : Unraced settings s (.stopped id k timeout userDirExists))
    (hs : s.stopped id k timeout userDirExists = some s') (id' : String) :
    (s'.lives id').Inv := by
  unfold State.stopped at hs
  split at hs
  · next wait caller hk =>
    obtain ⟨life, hl, rfl⟩ := Option.map_eq_some_iff.1 hs
    obtain ⟨hi, htasks, hwait⟩ := (h id).ends hk (fun r c hw => hu r c caller (hw ▸ hk)) hl
    rw [← htasks] at hk
    have hcloses (hne : caller ≠ .ensure true) : life.Closing :=
      .inr ⟨k, _, hk, by simpa [Task.closes] using hne⟩
    have hdown (hne : caller ≠ .ensure true) : life.Down :=
      .inr (.inr ⟨k, _, hk, by simpa [Task.down] using hne⟩)
    have hlive (hne : caller ≠ .ensure true) : ∀ c, ¬ life.Live c := by
      cases wait with
      | none => exact hi.still (.inr (.inr ⟨k, _, hk, by simpa [Task.still] using hne⟩))
      | some wait => exact hwait (by simp)
    split
    · next active =>
      refine lives_setLife h ?_ id'
      cases active with
      | true => exact hi.drop
      | false =>
        have hne : Caller.ensure false ≠ .ensure true := by decide
        exact hi.returned (hi.off (hcloses hne)) (hi.down (hdown hne)).1 (hlive hne)
    · have hne : Caller.delete ≠ .ensure true := by decide
      have hoff := hi.off (hcloses hne)
      have hd := (hi.down (hdown hne)).1
      split
      · exact lives_setLife h (hi.past hoff hd (hlive hne) (.inl rfl)) id'
      · exact lives_remove h (fun save =>
          (hi.forget hoff hd (hlive hne)).past hoff hd (hlive hne) (.inr ⟨save, rfl⟩)) id'
  · cases hs

theorem inv_step (hg : Unraced settings s l) (hs : step settings s l = some s')
    (h : ∀ id, (s.lives id).Inv) (id' : String) :
    (s'.lives id').Inv := by
  cases l with
  | ensureTenant input k o credentialSecret adminToken =>
    simp only [step] at hs
    split at hs
    · next hfree =>
      rw [← Option.some.inj hs]
      exact inv_ensureTenant h hg hfree.2 id'
    · cases hs
  | deleteTenant id k =>
    simp only [step] at hs
    split at hs
    · rw [← Option.some.inj hs]
      exact inv_deleteTenant h hg id'
    · cases hs
  | migrated id k config =>
    simp only [step] at hs
    split at hs
    · next o active hk =>
      rw [← Option.some.inj hs]
      exact inv_migrated h hk id'
    · cases hs
  | saved id k => exact inv_saved h hg hs id'
  | prepared id k r c =>
    obtain ⟨life, hl, rfl⟩ := Option.map_eq_some_iff.1 hs
    refine lives_setLife h ?_ id'
    unfold Life.prepared at hl
    split at hl
    · next o op op' ops call hk =>
      rw [← Option.some.inj hl]
      exact (h id).moves hk (.starting ..)
    · next o op call hk =>
      split at hl
      · next hfree =>
        split at hl
        · next active =>
          cases active with
          | true =>
            rw [← Option.some.inj hl]
            exact (h id).starts hk hfree.1 hfree.2
          | false => exact absurd hk ((h id).kept k o _)
        · rw [← Option.some.inj hl]
          exact (h id).starts hk hfree.1 hfree.2
      · cases hl
    · cases hl
  | stopped id k timeout userDirExists => exact inv_stopped h hg hs id'
  | archived id k =>
    simp only [step] at hs
    split at hs
    · next hk =>
      rw [← Option.some.inj hs]
      have hoff := (h id).off (.inr ⟨k, _, hk, rfl⟩)
      have hdown := ((h id).down (.inr (.inr ⟨k, _, hk, rfl⟩))).1
      have hlive := (h id).still (.inr (.inr ⟨k, _, hk, rfl⟩))
      have hself : s.setLife id (s.lives id) = s := by simp [State.setLife]
      rw [← hself]
      exact lives_remove h (fun save =>
        ((h id).forget hoff hdown hlive).past hoff hdown hlive (.inr ⟨save, rfl⟩)) id'
    · cases hs
  | failed id k left =>
    have hdrop : ((s.setTask id k none).lives id').Inv := lives_setLife h (h id).drop id'
    simp only [step, State.failed] at hs
    split at hs <;> first | (rw [← Option.some.inj hs]; exact hdrop) | cases hs
  | fires id k =>
    simp only [step] at hs
    split at hs
    · next o hk =>
      rw [← Option.some.inj hs]
      refine lives_setLife h ((h id).start (by simp) (fun hd => ?_) hg) id'
      cases (((h id).down hd).1 k _ hk).2
    · cases hs
  | exits id c k =>
    obtain ⟨life, hl, rfl⟩ := Option.map_eq_some_iff.1 hs
    refine lives_setLife h ?_ id'
    unfold Life.exits at hl
    split at hl
    · next r process hc =>
      split at hl
      · cases hl
      · next hfree =>
        obtain ⟨hp, hk⟩ := not_or.1 hfree
        split at hl
        · next runtime hr =>
          have hexit := (h id).exit hc hp hr
          rw [← Option.some.inj hl]
          split
          · next harm =>
            refine hexit.arms fun hd => ?_
            have hstop : runtime.stopping = true := by
              cases process with
              | running => exact ((h id).down hd).2 c r runtime hc hr
              | killed => exact (h id).killed c r runtime hc hr
              | exited => exact absurd rfl hp
            simp [hstop] at harm
          · exact hexit
        · cases hl
    · cases hl

theorem inv_boot {stored : Stored} {file : Option Content} (id : String) :
    ((State.boot stored file).lives id).Inv := by
  have hnew (recorded : Option Nat) (objects : Nat → Option Tenant) (ho : ∀ o, recorded = some o →
    objects o ≠ none) :
      Inv { Life.empty with recorded, objects } := by
    have hsettled : ¬ Settled { Life.empty with recorded, objects } := by simp [Settled, Life.empty]
    exact
      { recorded := ho, worked := nofun, owned := nofun, child := nofun, current := nofun,
        killed := nofun, waits := nofun
        one := nofun, alone := nofun, kept := nofun, off := nofun, gone := nofun
        down := fun _ => ⟨nofun, nofun⟩
        still := fun _ _ hl => hl.elim nofun }
  simp only [State.boot]
  split
  · next tenant hfind =>
    have hinv := hnew (some 0) (Function.update Life.empty.objects 0 (some tenant)) fun o heq => by
      rw [← Option.some.inj heq, Function.update_self]
      simp
    split
    · refine hinv.start (by simp) ?_ (.inr nofun)
      rintro ((hs | hs) | hs | ⟨k, task, hk, -⟩)
      · cases hs
      · cases hs
      · cases hs
      · cases hk
    · exact hinv
  · exact hnew none _ nofun

/-- In a run without races the runtime of each tenant follows its flag. -/
theorem runtimes_follow {stored : Stored} {file : Option Content} {ls : List Label}
    (hr : Machine.run (step settings) (.boot stored file) ls = some s)
    (hg : Machine.Along (step settings) (Unraced settings) (.boot stored file) ls) (id : String) :
    (s.lives id).Follows :=
  ((hg.inv (I := fun s : State => ∀ id, (s.lives id).Inv) (fun _ _ _ hg hs h => inv_step hg hs h) hr
    inv_boot) id).follows

/-! ### Two runs -/

/-- The tenant of the manager's self-test. -/
def testTenant : Tenant where
  uid := 20000
  gid := 20000
  port := 19000
  credentialSecret := "credential"
  adminToken := "admin"
  userDir := "/data/tenants/2f1c0b2d-9ad7-4e74-8c2c-4bdcb9f365b0"
  tenant_id := "2f1c0b2d-9ad7-4e74-8c2c-4bdcb9f365b0"
  slug := "test"
  name := "Test"
  active := true
  server_url := "http://server"
  api_key := "0123456789abcdef"

def testStored : Stored := ⟨20001, [(testTenant.tenant_id, testTenant)]⟩

def testSettings : Settings := ⟨50, "/data"⟩

def testInput (active : Bool) : Input :=
  ⟨testTenant.tenant_id, "test", "Test", active, "http://server", "0123456789abcdef"⟩

/-- The four file operations of a start, the last of which spawns `c`. -/
def starting (k c : Nat) : List Label := List.replicate 4 (.prepared testTenant.tenant_id k c c)

/-- A child that was started at boot is stopped, for a deletion. -/
def deletion : List Label := starting 0 0 ++
  [.deleteTenant testTenant.tenant_id 0, .exits testTenant.tenant_id 0 1,
    .stopped testTenant.tenant_id 0 false false,
    .saved testTenant.tenant_id 0, .saved testTenant.tenant_id 0, .saved testTenant.tenant_id 0]

theorem runtimes_follow_deletion :
    ∃ s, Machine.run (step testSettings) (.boot testStored none) deletion = some s ∧
    (s.lives testTenant.tenant_id).Settled ∧ (s.lives testTenant.tenant_id).Follows := by
  have hlast : (Machine.run (step testSettings) (.boot testStored none) deletion).any (fun s =>
      (s.lives testTenant.tenant_id).history.head? = some .deleted) = true := rfl
  obtain ⟨s, hs, hsettled⟩ := (Option.any_eq_true ..).1 hlast
  have halong : Machine.Along (step testSettings) (Unraced testSettings) (.boot testStored none)
      deletion := by
    refine And.intro trivial (And.intro trivial
      (And.intro trivial (And.intro trivial (And.intro ⟨?_, fun _ => ⟨?_, ?_⟩⟩
      (And.intro trivial (And.intro ?_ (And.intro ?_ (And.intro ?_ (And.intro ?_ trivial)))))))))
    · rintro (_ | k) task o hk <;> cases hk
    · rintro (_ | k) task hk <;> cases hk
    · rintro (_ | k) task hk <;> cases hk
    · rintro r c caller - hrun
      cases hrun
    · rintro o active hk
      cases hk
    · rintro o active hk
      cases hk
    · rintro o active hk
      cases hk
  exact ⟨s, hs, .inr (of_decide_eq_true hsettled), runtimes_follow hs halong testTenant.tenant_id⟩

/-- The child crashes, the tenant is deactivated while it waits for its restart, and the restart comes. -/
theorem restart_after_deactivation : ¬ ∀ ls s, Machine.run (step testSettings)
    (.boot testStored none) ls = some s → (s.lives testTenant.tenant_id).Follows := by
  intro h
  have hfollows := h (starting 0 0 ++
    [.exits testTenant.tenant_id 0 1, .ensureTenant (testInput false) 0 1 "" "",
    .saved testTenant.tenant_id 0, .saved testTenant.tenant_id 0, .saved testTenant.tenant_id 0,
    .stopped testTenant.tenant_id 0 false true, .fires testTenant.tenant_id 1] ++ starting 1 1) _ rfl
  exact hfollows.none (.inl rfl) 1 ⟨1, rfl⟩

end Manager
