import BetterFrame.Deploy.Manager
import Mathlib.Data.List.Nodup
import Mathlib.Data.List.Perm.Subperm

/-!
# Tenant runtimes stay isolated

The checks of `ensureTenant` and the insertion of the tenant are one step, except for a new tenant
`default`, whose old files are copied in between. Where no other call adds a tenant or takes the
name meanwhile, tenants never share a uid, a port, a slug or a directory; where saves do not
overlap, the file holds the state once all calls are done (`tenants_isolated`).
-/

namespace Manager

namespace Task

def migrates : Task → Bool
  | .migrating .. => true
  | _ => false

/-- A deletion that has not removed the tenant yet. -/
def deletes : Task → Bool
  | .stopping _ .delete => true
  | .archiving => true
  | _ => false

/-- What a save is still to write or to rename. -/
def saves : Task → Option Save
  | .saving _ _ save | .removing save => if save = .chmod then none else some save
  | _ => none

/-- The tasks that the state file waits for. -/
def busy (task : Task) : Bool := task.migrates || task.saves.isSome

/-- An `ensureTenant` or a `deleteTenant` call. -/
def isCall : Task → Bool
  | .starting _ _ none => false
  | .timer _ => false
  | _ => true

end Task

namespace Life

variable {d : Prop} {life life' life'' : Life} {k o : Nat} {task : Task}

/-- A task is deleting the tenant. -/
def Deleting (life : Life) : Prop := ∃ k task, life.tasks k = some task ∧ task.deletes = true

/-- Nothing that the state records is touched, no migration begins, and no deletion unless `d`. -/
structure Kept (d : Prop) (life life' : Life) : Prop where
  recorded : life'.recorded = life.recorded
  objects : life'.objects = life.objects
  migrates : ∀ k tenant active, life'.tasks k = some (.migrating tenant active) →
    life.tasks k = some (.migrating tenant active)
  deleting : life'.Deleting → d ∨ life.Deleting

/-- No migration and no save begins, goes on or ends. -/
structure Same (d : Prop) (life life' : Life) : Prop extends Kept d life life' where
  busy : ∀ k task, task.busy = true → (life'.tasks k = some task ↔ life.tasks k = some task)

/-- The state file does not wait for the task of this number. -/
def Free (life : Life) (k : Nat) : Prop := ∀ task, life.tasks k = some task → task.busy = false

theorem free_of_task {task : Task} (hk : life.tasks k = some task) (hb : task.busy = false) :
    life.Free k := fun _ hu =>
  Option.some.inj (hk.symm.trans hu) ▸ hb

theorem free_of_none (hk : life.tasks k = none) : life.Free k := fun _ hu => by
  rw [hk] at hu
  cases hu

theorem Same.trans (h : Same d life life') (h' : Same d life' life'') : Same d life life'' where
  recorded := h'.recorded.trans h.recorded
  objects := h'.objects.trans h.objects
  migrates k tenant active hk := h.migrates k tenant active (h'.migrates k tenant active hk)
  deleting hd := (h'.deleting hd).elim .inl h.deleting
  busy k task hb := (h'.busy k task hb).trans (h.busy k task hb)

/-- Only the runtime's part changes. -/
theorem Same.runtime {runtime : Option Nat} {records : Nat → Option Runtime}
    {children : Nat → Option Child} {history : List Event} :
    Same d life { life with runtime, records, children, history } :=
  ⟨⟨rfl, rfl, fun _ _ _ h => h, .inr⟩, fun _ _ _ => Iff.rfl⟩

theorem Same.refl (life : Life) : Same d life life := .runtime

theorem Kept.setTask (hm : task.migrates = false) (hd : task.deletes = true → d ∨ life.Deleting) :
    Kept d life (life.setTask k (some task)) where
  recorded := rfl
  objects := rfl
  migrates k' tenant active hk := by
    rcases setTask_cases hk with rfl | hk
    · cases hm
    · exact hk
  deleting := by
    rintro ⟨k', u, hu, hdel⟩
    rcases setTask_cases hu with rfl | hu
    · exact hd hdel
    · exact .inr ⟨k', u, hu, hdel⟩

theorem Kept.drop : Kept d life (life.setTask k none) where
  recorded := rfl
  objects := rfl
  migrates _ _ _ hk := (setTask_none hk).1
  deleting := fun ⟨k', u, hu, hdel⟩ => .inr ⟨k', u, (setTask_none hu).1, hdel⟩

theorem busy_setTask {new : Option Task} (hf : life.Free k)
    (hnew : ∀ task, new = some task → task.busy = false) (k' : Nat) (u : Task)
    (hu : u.busy = true) : (life.setTask k new).tasks k' = some u ↔ life.tasks k' = some u := by
  simp only [Life.setTask, Function.update_apply]
  split
  · next heq =>
    subst heq
    constructor
    · intro h
      rw [hnew u h] at hu
      cases hu
    · intro h
      rw [hf u h] at hu
      cases hu
  · exact Iff.rfl

theorem Same.setTask (hf : life.Free k) (hb : task.busy = false)
    (hd : task.deletes = true → d ∨ life.Deleting) :
    Same d life (life.setTask k (some task)) where
  toKept := .setTask (by
    rw [Task.busy, Bool.or_eq_false_iff] at hb
    exact hb.1) hd
  busy := busy_setTask hf fun u hu => Option.some.inj hu ▸ hb

theorem Same.drop (hf : life.Free k) : Same d life (life.setTask k none) where
  toKept := .drop
  busy := busy_setTask hf nofun

theorem same_returned {events : List Event} (hf : life.Free k) : Same d life (life.returned k events) :=
  (Same.drop hf).trans .runtime

theorem same_startRuntime {call : Option Bool} (hf : life.Free k) :
    Same d life (life.startRuntime k o call) := by
  unfold startRuntime
  split
  · split
    · exact same_returned hf
    · exact .drop hf
  · exact .setTask hf rfl nofun

theorem same_prepared {r c : Nat} (h : life.prepared k r c = some life') : Same d life life' := by
  unfold prepared at h
  split at h
  · next hk =>
    rw [← Option.some.inj h]
    exact .setTask (free_of_task hk rfl) rfl nofun
  · next hk =>
    split at h
    · split at h
      · rw [← Option.some.inj h]
        exact Same.runtime.trans (same_returned (free_of_task hk rfl))
      · rw [← Option.some.inj h]
        exact Same.runtime.trans (.drop (free_of_task hk rfl))
    · cases h
  · cases h

theorem same_exits {c : Nat} (h : life.exits c k = some life') : Same d life life' := by
  unfold exits at h
  split at h
  · split at h
    · cases h
    · next hnone =>
      have hk : life.tasks k = none := of_not_not (not_or.1 hnone).2
      split at h
      · rw [← Option.some.inj h]
        split
        · exact Same.runtime.trans (.setTask (free_of_none hk) rfl nofun)
        · exact .runtime
      · cases h
  · cases h

theorem same_stopRuntime {caller : Caller} (hf : life.Free k) (h : caller = .delete → d) :
    Same d life (life.stopRuntime k caller) := by
  have hd {wait : Option (Nat × Nat)} (hdel : (Task.stopping wait caller).deletes = true) :
      d ∨ life.Deleting := by
    cases caller with
    | ensure active => cases hdel
    | delete => exact .inl (h rfl)
  unfold stopRuntime
  split
  · split
    · exact Same.runtime.trans (.setTask hf rfl hd)
    · exact .setTask hf rfl hd
  · exact .setTask hf rfl hd

theorem same_stopped {wait : Option (Nat × Nat)} {timeout : Bool}
    (h : life.stopped wait timeout = some life') :
    Same d life life' ∧ life'.tasks = life.tasks := by
  unfold Life.stopped at h
  split at h
  · rw [← Option.some.inj h]
    exact ⟨.refl life, rfl⟩
  · split at h
    · split at h
      · rw [← Option.some.inj h]
        exact ⟨.runtime, rfl⟩
      · split at h
        · rw [← Option.some.inj h]
          exact ⟨.runtime, rfl⟩
        · cases h
    · cases h

end Life

open Life

variable {settings : Settings} {s s' : State} {l : Label} {id id' : String} {k k' o o' : Nat}
  {active : Bool} {t t' : Tenant}

/-! ### What the parts of a step do to the records -/

section Fields

@[simp] theorem record_ids : (s.record id k o active).ids =
    if (s.lives id).recorded = none then s.ids ++ [id] else s.ids := rfl

@[simp] theorem record_objects : ((s.record id k o active).lives id').objects = (s.lives id').objects := by
  by_cases h : id' = id <;> simp [State.record, State.setTask, State.setLife, Life.setTask, h]

@[simp] theorem record_recorded : ((s.record id k o active).lives id').recorded =
    if id' = id then some o else (s.lives id').recorded := by
  by_cases h : id' = id <;> simp [State.record, State.setTask, State.setLife, Life.setTask, h]

theorem record_migrates {active' : Bool}
    (h : ((s.record id k o active).lives id').tasks k' = some (.migrating o' active')) :
    (s.lives id').tasks k' = some (.migrating o' active') ∧ ¬ (id' = id ∧ k' = k) := by
  by_cases hid : id' = id
  · subst hid
    simp only [State.record, State.setTask, State.setLife, Life.setTask, Function.update_self,
      Function.update_apply] at h
    split at h
    · cases Option.some.inj h
    · next hne => exact ⟨h, fun heq => hne heq.2⟩
  · simp only [State.record, State.setTask, State.setLife, Function.update_of_ne hid] at h
    exact ⟨h, fun heq => hid heq.1⟩

variable {input : Input}

@[simp] theorem begun_ids : (s.begun o t input).ids = s.ids := rfl

@[simp] theorem begun_recorded : ((s.begun o t input).lives id').recorded = (s.lives id').recorded := by
  by_cases h : id' = input.tenant_id <;> simp [State.begun, State.setLife, h]

@[simp] theorem begun_tasks : ((s.begun o t input).lives id').tasks = (s.lives id').tasks := by
  by_cases h : id' = input.tenant_id <;> simp [State.begun, State.setLife, h]

theorem begun_objects : ((s.begun o t input).lives id').objects o' =
    if id' = input.tenant_id ∧ o' = o then some (State.assign t input) else (s.lives id').objects o' := by
  by_cases h : id' = input.tenant_id <;> by_cases ho : o' = o <;> simp [State.begun, State.setLife, h, ho]

@[simp] theorem remove_ids : (s.remove id k).ids = s.ids.erase id := rfl

@[simp] theorem remove_objects : ((s.remove id k).lives id').objects = (s.lives id').objects := by
  by_cases h : id' = id <;> simp [State.remove, State.setTask, State.setLife, Life.setTask, h]

@[simp] theorem remove_recorded : ((s.remove id k).lives id').recorded = if id' = id then none
    else (s.lives id').recorded := by
  by_cases h : id' = id <;> simp [State.remove, State.setTask, State.setLife, Life.setTask, h]

theorem remove_migrates (h : ((s.remove id k).lives id').tasks k' = some (.migrating o' active)) :
    (s.lives id').tasks k' = some (.migrating o' active) := by
  by_cases hid : id' = id
  · subst hid
    simp only [State.remove, State.setTask, State.setLife, Life.setTask, Function.update_self,
      Function.update_apply] at h
    split at h
    · cases Option.some.inj h
    · exact h
  · simp only [State.remove, State.setTask, State.setLife, Function.update_of_ne hid] at h
    exact h

variable {config : Option String}

@[simp] theorem migrated_ids :
    (s.migrated id k o active config).ids = if (s.lives id).recorded = none then s.ids ++ [id]
    else s.ids := by
  simp [State.migrated, State.setLife]

@[simp] theorem migrated_recorded :
    ((s.migrated id k o active config).lives id').recorded = if id' = id then some o
    else (s.lives id').recorded := by
  by_cases h : id' = id <;> simp [State.migrated, State.setLife, h]

theorem migrated_objects : ((s.migrated id k o active config).lives id').objects o' =
    if id' = id ∧ o' = o then
      ((s.lives id).objects o).map fun t =>
      { t with credentialSecret := (Text.truthy config).getD t.credentialSecret }
    else (s.lives id').objects o' := by
  by_cases h : id' = id <;> by_cases ho : o' = o <;> simp [State.migrated, State.setLife, h, ho]

theorem migrated_migrates {active' : Bool}
    (h : ((s.migrated id k o active config).lives id').tasks k' = some (.migrating o' active')) :
    (s.lives id').tasks k' = some (.migrating o' active') ∧ ¬ (id' = id ∧ k' = k) := by
  obtain ⟨hk, hne⟩ := record_migrates h
  refine ⟨?_, hne⟩
  by_cases hid : id' = id <;> simpa [State.setLife, Function.update_apply, hid] using hk

end Fields

/-- Nothing that the state records changes. -/
structure State.Kept (d : String → Prop) (s s' : State) : Prop where
  nextUid : s'.nextUid = s.nextUid
  ids : s'.ids = s.ids
  lives : ∀ id, Life.Kept (d id) (s.lives id) (s'.lives id)

theorem kept_setLife {d : String → Prop} {life : Life} (h : Life.Kept (d id) (s.lives id) life) :
    s.Kept d (s.setLife id life) where
  nextUid := rfl
  ids := rfl
  lives id' := by
    simp only [State.setLife, Function.update_apply]
    split
    · next heq => exact heq ▸ h
    · exact (Same.refl _).toKept

/-- Nor does anything that the state file waits for. -/
structure State.Same (s s' : State) : Prop where
  temp : s'.temp = s.temp
  file : s'.file = s.file
  busy : ∀ id k task, task.busy = true →
    ((s'.lives id).tasks k = some task ↔ (s.lives id).tasks k = some task)

theorem same_setLife {d : Prop} {life : Life} (h : Life.Same d (s.lives id) life) :
    s.Same (s.setLife id life) where
  temp := rfl
  file := rfl
  busy id' k task hb := by
    simp only [State.setLife, Function.update_apply]
    split
    · next heq => exact heq ▸ h.busy k task hb
    · exact Iff.rfl

/-- What a step does to what the state records. -/
inductive Effect (settings : Settings) (s : State) : Label → State → Prop
  | kept {l : Label} {s' : State} (d : String → Prop) (h : s.Kept d s') (hd : ∀ id, d id →
    ∃ k, l = .deleteTenant id k)
      (hsame : s.Same s' ∨ (∃ id k, l = .saved id k) ∨ ∃ id k left, l = .failed id k left) :
        Effect settings s l s'
  | ensures (input : Input) (k o : Nat) (credentialSecret adminToken : String)
    (hk : (s.lives input.tenant_id).tasks k = none)
      (ho : (s.lives input.tenant_id).objects o = none) :
    Effect settings s (.ensureTenant input k o credentialSecret adminToken)
      (s.ensureTenant settings input k o credentialSecret adminToken)
  | migrates (id : String) (k o : Nat) (active : Bool) (config : Option String)
      (hk : (s.lives id).tasks k = some (.migrating o active)) :
    Effect settings s (.migrated id k config) (s.migrated id k o active config)
  | removes {l : Label} (id : String) (k : Nat) (life : Life) (hdel : (s.lives id).Deleting)
    (h : Life.Same False (s.lives id) life)
      (hfree : life.Free k)
      (hl : (∃ wait timeout, (s.lives id).tasks k = some (.stopping wait .delete) ∧
        l = .stopped id k timeout false) ∨ l = .archived id k) :
    Effect settings s l ((s.setLife id life).remove id k)

theorem lives_advance {save : Save} {next : State × Option Save} (h : s.advance save = some next) :
    next.1.lives = s.lives ∧ next.1.nextUid = s.nextUid ∧ next.1.ids = s.ids := by
  cases save with
  | write text =>
    rw [← Option.some.inj h]
    exact ⟨rfl, rfl, rfl⟩
  | rename =>
    obtain ⟨content, -, hn⟩ := Option.map_eq_some_iff.1 h
    rw [← hn]
    exact ⟨rfl, rfl, rfl⟩
  | chmod =>
    rw [← Option.some.inj h]
    exact ⟨rfl, rfl, rfl⟩

theorem last_advance {save : Save} {t : State} (h : s.advance save = some (t, none)) :
    save = .chmod ∧ t = s := by
  cases save with
  | write text => cases h
  | rename =>
    obtain ⟨content, -, hn⟩ := Option.map_eq_some_iff.1 h
    cases hn
  | chmod =>
    cases h
    exact ⟨rfl, rfl⟩

theorem kept_saved (h : s.saved id k = some s') : s.Kept (fun _ => False) s' := by
  have hstate {u : State} {life : Life} (hu : u.lives = s.lives ∧ u.nextUid = s.nextUid ∧ u.ids = s.ids)
      (hl : Life.Kept False (s.lives id) life) : s.Kept (fun _ => False) (u.setLife id life) := by
    refine ⟨hu.2.1, hu.2.2, fun id' => ?_⟩
    simp only [State.setLife, Function.update_apply, hu.1]
    split
    · next heq => exact heq ▸ hl
    · exact (Same.refl _).toKept
  unfold State.saved at h
  split at h
  · next hk =>
    obtain ⟨⟨u, next⟩, ha, rfl⟩ := Option.map_eq_some_iff.1 h
    have hu := lives_advance ha
    cases next with
    | some save' => exact hstate hu (hu.1 ▸ .setTask rfl nofun)
    | none =>
      obtain ⟨rfl, -⟩ := last_advance ha
      refine hstate hu ?_
      rw [hu.1]
      split
      · exact (same_startRuntime (free_of_task hk rfl)).toKept
      · exact (same_stopRuntime (free_of_task hk rfl) nofun).toKept
  · next hk =>
    obtain ⟨⟨u, next⟩, ha, rfl⟩ := Option.map_eq_some_iff.1 h
    have hu := lives_advance ha
    cases next with
    | some save' => exact hstate hu (hu.1 ▸ .setTask rfl nofun)
    | none =>
      obtain ⟨rfl, -⟩ := last_advance ha
      refine hstate hu ?_
      rw [hu.1]
      exact (same_returned (free_of_task hk rfl)).toKept
  · cases h

theorem step_effect (hs : step settings s l = some s') : Effect settings s l s' := by
  have hsame {d : String → Prop} {id : String} {life : Life} (hl : Life.Same (d id) (s.lives id) life)
      (hd : ∀ id, d id → ∃ k, l = .deleteTenant id k) : Effect settings s l (s.setLife id life) :=
    .kept d (kept_setLife hl.toKept) hd (.inl (same_setLife hl))
  cases l with
  | ensureTenant input k o credentialSecret adminToken =>
    simp only [step] at hs
    split at hs
    · next hfree =>
      rw [← Option.some.inj hs]
      exact .ensures input k o credentialSecret adminToken hfree.1 hfree.2
    · cases hs
  | deleteTenant id k =>
    simp only [step] at hs
    split at hs
    · next hk =>
      rw [← Option.some.inj hs]
      have hd (id' : String) (heq : id' = id) : ∃ k', Label.deleteTenant id k = .deleteTenant id' k' :=
        ⟨k, heq ▸ rfl⟩
      unfold State.deleteTenant
      split
      · exact hsame (d := fun id' => id' = id) (same_returned (free_of_none hk)) hd
      · exact hsame (d := fun id' => id' = id) (same_stopRuntime (free_of_none hk) fun _ => rfl) hd
    · cases hs
  | migrated id k config =>
    simp only [step] at hs
    split at hs
    · next o active hk =>
      rw [← Option.some.inj hs]
      exact .migrates id k o active config hk
    · cases hs
  | saved id k => exact .kept _ (kept_saved hs) (fun _ => False.elim) (.inr (.inl ⟨id, k, rfl⟩))
  | prepared id k r c =>
    obtain ⟨life, hl, rfl⟩ := Option.map_eq_some_iff.1 hs
    exact hsame (d := fun _ => False) (same_prepared hl) fun _ => False.elim
  | stopped id k timeout userDirExists =>
    simp only [step, State.stopped] at hs
    split at hs
    · next wait caller hk =>
      obtain ⟨life, hl, rfl⟩ := Option.map_eq_some_iff.1 hs
      obtain ⟨hlife, htasks⟩ := same_stopped hl
      have hfree : life.Free k := free_of_task (htasks ▸ hk) rfl
      split
      · exact hsame (d := fun _ => False) (hlife.trans (same_returned hfree)) fun _ => False.elim
      · have hdel : (s.lives id).Deleting := ⟨k, _, hk, rfl⟩
        split
        · exact hsame (d := fun _ => False)
            (hlife.trans (.setTask hfree rfl fun _ => .inr ⟨k, _, htasks ▸ hk, rfl⟩)) fun _ => False.elim
        · next hdir =>
          refine .removes id k life hdel hlife hfree (.inl ⟨wait, timeout, hk, ?_⟩)
          rw [Bool.not_eq_true] at hdir
          rw [hdir]
    · cases hs
  | archived id k =>
    simp only [step] at hs
    split at hs
    · next hk =>
      rw [← Option.some.inj hs]
      have hself : s.setLife id (s.lives id) = s := by simp [State.setLife]
      have hremove : Effect settings s (.archived id k) ((s.setLife id (s.lives id)).remove id k) :=
        .removes id k (s.lives id) ⟨k, _, hk, rfl⟩ (Same.refl _) (free_of_task hk rfl) (.inr rfl)
      rwa [hself] at hremove
    · cases hs
  | failed id k left =>
    have hdrop : s.Kept (fun _ => False) (s.setTask id k none) := kept_setLife Kept.drop
    have hfailed {u : State} (hu : s.Kept (fun _ => False) u) : Effect settings s (.failed id k left) u :=
      .kept (fun _ => False) hu (fun _ => False.elim) (.inr (.inr ⟨id, k, left, rfl⟩))
    simp only [step, State.failed] at hs
    split at hs
    · rw [← Option.some.inj hs]
      exact hfailed ⟨rfl, rfl, hdrop.lives⟩
    · rw [← Option.some.inj hs]
      exact hfailed ⟨rfl, rfl, hdrop.lives⟩
    all_goals first | (rw [← Option.some.inj hs]; exact hfailed hdrop) | cases hs
  | fires id k =>
    simp only [step] at hs
    split at hs
    · next hk =>
      rw [← Option.some.inj hs]
      exact hsame (d := fun _ => False) (same_startRuntime (free_of_task hk rfl)) fun _ => False.elim
    · cases hs
  | exits id c k =>
    obtain ⟨life, hl, rfl⟩ := Option.map_eq_some_iff.1 hs
    exact hsame (d := fun _ => False) (same_exits hl) fun _ => False.elim

/-! ### Records without conditions -/

/-- A tenant has a directory of its own, and each object a uid of its own. -/
structure Records (settings : Settings) (s : State) : Prop where
  nodup : s.ids.Nodup
  mem : ∀ id, id ∈ s.ids ↔ (s.lives id).recorded ≠ none
  recorded : ∀ id o, (s.lives id).recorded = some o → (s.lives id).objects o ≠ none
  worked : ∀ id k o active, (s.lives id).tasks k = some (.migrating o active) → (s.lives id).objects o ≠ none
  object : ∀ id o t, (s.lives id).objects o = some t →
    t.tenant_id = id ∧ t.userDir = settings.DATA ++ "/tenants/" ++ id ∧ t.uid < s.nextUid
  uid : ∀ id o t id' o' t', (s.lives id).objects o = some t → (s.lives id').objects o' = some t' →
    t.uid = t'.uid → id = id' ∧ o = o'

/-- The object of a new tenant. -/
def State.created (settings : Settings) (s : State) (id : String) (port : Nat)
    (credentialSecret adminToken : String) : Tenant where
  uid := s.nextUid
  gid := s.nextUid
  port
  credentialSecret
  adminToken
  userDir := settings.DATA ++ "/tenants/" ++ id
  tenant_id := ""
  slug := ""
  name := ""
  active := false
  server_url := ""
  api_key := ""

/-- The outcomes of the first part of `ensureTenant`. -/
inductive Ensured (settings : Settings) (s : State) (input : Input) (k o : Nat)
    (credentialSecret adminToken : String) : State → Prop
  | refused : Ensured settings s input k o credentialSecret adminToken s
  | updates (existing : Nat) (t : Tenant) (hrefusal : s.refusal settings input = none)
      (hr : (s.lives input.tenant_id).recorded = some existing)
        (ht : (s.lives input.tenant_id).objects existing = some t) :
    Ensured settings s input k o credentialSecret adminToken
      ((s.begun existing t input).record input.tenant_id k existing input.active)
  | noPort (hrefusal : s.refusal settings input = none) (hr : (s.lives input.tenant_id).recorded = none)
      (hport : s.nextPort settings = none) :
    Ensured settings s input k o credentialSecret adminToken { s with nextUid := s.nextUid + 1 }
  | migrates (port : Nat) (hrefusal : s.refusal settings input = none)
    (hr : (s.lives input.tenant_id).recorded = none)
      (hport : s.nextPort settings = some port) (hslug : input.slug = "default") :
    Ensured settings s input k o credentialSecret adminToken
      (({ s with nextUid := s.nextUid + 1 }.begun o
        (s.created settings input.tenant_id port credentialSecret adminToken)
        input).setTask input.tenant_id k (some (.migrating o input.active)))
  | creates (port : Nat) (hrefusal : s.refusal settings input = none)
    (hr : (s.lives input.tenant_id).recorded = none)
      (hport : s.nextPort settings = some port) (hslug : input.slug ≠ "default") :
    Ensured settings s input k o credentialSecret adminToken
      (({ s with nextUid := s.nextUid + 1 }.begun o
        (s.created settings input.tenant_id port credentialSecret adminToken)
        input).record input.tenant_id k o input.active)

theorem ensured {input : Input} {credentialSecret adminToken : String} (h : Records settings s) :
    Ensured settings s input k o credentialSecret adminToken
    (s.ensureTenant settings input k o credentialSecret adminToken) := by
  unfold State.ensureTenant
  split
  · exact .refused
  · next hrefusal =>
    split
    · next existing t hr ht =>
      refine .updates existing t hrefusal hr ?_
      simpa [Life.tenant?, hr] using ht
    · next hnot =>
      have hr : (s.lives input.tenant_id).recorded = none := by
        rcases hr : (s.lives input.tenant_id).recorded with _ | existing
        · rfl
        · obtain ⟨t, ht⟩ := Option.ne_none_iff_exists'.1 (h.recorded _ existing hr)
          exact (hnot existing t hr (by simp [Life.tenant?, hr, ht])).elim
      split
      · next hport => exact .noPort hrefusal hr hport
      · next port hport =>
        dsimp only
        split
        · next hslug => exact .migrates port hrefusal hr hport hslug
        · next hslug => exact .creates port hrefusal hr hport hslug

theorem Records.kept {d : String → Prop} (h : Records settings s) (hk : s.Kept d s') :
    Records settings s' where
  nodup := hk.ids ▸ h.nodup
  mem id := by
    rw [hk.ids, (hk.lives id).recorded]
    exact h.mem id
  recorded id o := by
    rw [(hk.lives id).recorded, (hk.lives id).objects]
    exact h.recorded id o
  worked id k o active htask := by
    rw [(hk.lives id).objects]
    exact h.worked id k o active ((hk.lives id).migrates k o active htask)
  object id o t := by
    rw [(hk.lives id).objects, hk.nextUid]
    exact h.object id o t
  uid id o t id' o' t' := by
    rw [(hk.lives id).objects, (hk.lives id').objects]
    exact h.uid id o t id' o' t'

/-- Objects are written to in a way that keeps their uid and their directory. -/
theorem Records.objects {input : Input} (h : Records settings s)
    (hdir : t.userDir = settings.DATA ++ "/tenants/" ++ input.tenant_id)
    (huid : t.uid < s.nextUid)
    (hown : ∀ id' o' t', (s.lives id').objects o' = some t' → t'.uid = t.uid → id' = input.tenant_id ∧
      o' = o) :
    Records settings (s.begun o t input) where
  nodup := h.nodup
  mem id := by simpa using h.mem id
  recorded id o' hr := by
    rw [begun_objects]
    split
    · simp
    · exact h.recorded id o' (by simpa using hr)
  worked id k o' active hk := by
    rw [begun_objects]
    split
    · simp
    · exact h.worked id k o' active (by simpa using hk)
  object id o' t' ht' := by
    rw [begun_objects] at ht'
    split at ht'
    · next heq =>
      rw [← Option.some.inj ht']
      exact ⟨heq.1.symm, heq.1 ▸ hdir, huid⟩
    · exact h.object id o' t' ht'
  uid id o₁ t₁ id' o₂ t₂ h₁ h₂ heq := by
    rw [begun_objects] at h₁ h₂
    split at h₁ <;> split at h₂
    · next ho₁ ho₂ => exact ⟨ho₁.1.trans ho₂.1.symm, ho₁.2.trans ho₂.2.symm⟩
    · next ho₁ ho₂ =>
      rw [← Option.some.inj h₁] at heq
      exact absurd (hown id' o₂ t₂ h₂ heq.symm) ho₂
    · next ho₁ ho₂ =>
      rw [← Option.some.inj h₂] at heq
      exact absurd (hown id o₁ t₁ h₁ heq) ho₁
    · exact h.uid id o₁ t₁ id' o₂ t₂ h₁ h₂ heq

theorem Records.record (h : Records settings s) (ho : (s.lives id).objects o ≠ none) :
    Records settings (s.record id k o active) where
  nodup := by
    rw [record_ids]
    split
    · next hr =>
      have hnot : id ∉ s.ids := fun hmem => (h.mem id).1 hmem hr
      exact List.nodup_append.2 ⟨h.nodup, List.nodup_singleton id, fun a ha b hb heq => hnot (by
        rw [← List.mem_singleton.1 hb, ← heq]
        exact ha)⟩
    · exact h.nodup
  mem id' := by
    rw [record_ids, record_recorded]
    by_cases hid : id' = id
    · subst hid
      by_cases hr : (s.lives id').recorded = none
      · simp [hr]
      · simp [hr, (h.mem id').2 hr]
    · rw [if_neg hid, ← h.mem id']
      split
      · simp [hid]
      · exact Iff.rfl
  recorded id' o' hr := by
    rw [record_recorded] at hr
    rw [record_objects]
    split at hr
    · next heq => rw [heq, ← Option.some.inj hr]; exact ho
    · exact h.recorded id' o' hr
  worked id' k' o' active' hk := by
    rw [record_objects]
    exact h.worked id' k' o' active' (record_migrates hk).1
  object id' o' t' := by
    rw [record_objects]
    exact h.object id' o' t'
  uid id₁ o₁ t₁ id₂ o₂ t₂ := by
    rw [record_objects, record_objects]
    exact h.uid id₁ o₁ t₁ id₂ o₂ t₂

theorem Records.remove (h : Records settings s) : Records settings (s.remove id k) where
  nodup := h.nodup.erase id
  mem id' := by
    rw [remove_ids, remove_recorded, h.nodup.mem_erase_iff, h.mem id']
    by_cases hid : id' = id <;> simp [hid]
  recorded id' o' hr := by
    rw [remove_recorded] at hr
    rw [remove_objects]
    split at hr
    · cases hr
    · exact h.recorded id' o' hr
  worked id' k' o' active' hk := by
    rw [remove_objects]
    exact h.worked id' k' o' active' (remove_migrates hk)
  object id' o' t' := by
    rw [remove_objects]
    exact h.object id' o' t'
  uid id₁ o₁ t₁ id₂ o₂ t₂ := by
    rw [remove_objects, remove_objects]
    exact h.uid id₁ o₁ t₁ id₂ o₂ t₂

theorem Records.grows (h : Records settings s) : Records settings { s with nextUid := s.nextUid + 1 } :=
  { h with
    object := fun id o t ht => by
      obtain ⟨hid, hdir, huid⟩ := h.object id o t ht
      exact ⟨hid, hdir, Nat.lt_succ_of_lt huid⟩ }

/-- Writing a secret to an object changes nothing else. -/
theorem Records.secret {objects : Nat → Option Tenant} (h : Records settings s)
    (hsome : ∀ o, (s.lives id).objects o ≠ none → objects o ≠ none)
    (hold : ∀ o t, objects o = some t → ∃ t', (s.lives id).objects o = some t' ∧ t'.uid = t.uid ∧
      t'.tenant_id = t.tenant_id ∧
      t'.userDir = t.userDir) : Records settings (s.setLife id { s.lives id with objects }) := by
  have hobjects (id' : String) (o : Nat) (t : Tenant)
    (ht : ((s.setLife id { s.lives id with objects }).lives id').objects o = some t) :
      ∃ t', (s.lives id').objects o = some t' ∧ t'.uid = t.uid ∧ t'.tenant_id = t.tenant_id ∧
          t'.userDir = t.userDir := by
    by_cases hid : id' = id
    · subst hid
      exact hold o t (by simpa [State.setLife] using ht)
    · exact ⟨t, by simpa [State.setLife, hid] using ht, rfl, rfl, rfl⟩
  have hkept (id' : String) (o : Nat) (ho : (s.lives id').objects o ≠ none) :
      ((s.setLife id { s.lives id with objects }).lives id').objects o ≠ none := by
    by_cases hid : id' = id
    · subst hid
      simpa [State.setLife] using hsome o ho
    · simpa [State.setLife, hid] using ho
  have hlives (id' : String) : ((s.setLife id { s.lives id with objects }).lives id').recorded =
    (s.lives id').recorded ∧
      ((s.setLife id { s.lives id with objects }).lives id').tasks = (s.lives id').tasks := by
    by_cases hid : id' = id <;> simp [State.setLife, hid]
  constructor
  · exact h.nodup
  · intro id'
    rw [(hlives id').1]
    exact h.mem id'
  · intro id' o hr
    rw [(hlives id').1] at hr
    exact hkept id' o (h.recorded id' o hr)
  · intro id' k o active hk
    rw [(hlives id').2] at hk
    exact hkept id' o (h.worked id' k o active hk)
  · intro id' o t ht
    obtain ⟨t', ht', huid, hid, hdir⟩ := hobjects id' o t ht
    rw [← huid, ← hid, ← hdir]
    exact h.object id' o t' ht'
  · intro id₁ o₁ t₁ id₂ o₂ t₂ h₁ h₂ heq
    obtain ⟨u₁, hu₁, he₁, -⟩ := hobjects id₁ o₁ t₁ h₁
    obtain ⟨u₂, hu₂, he₂, -⟩ := hobjects id₂ o₂ t₂ h₂
    exact h.uid id₁ o₁ u₁ id₂ o₂ u₂ hu₁ hu₂ (he₁.trans (heq.trans he₂.symm))

theorem Records.migrates (h : Records settings s) (ho : (s.lives id).objects o ≠ none) :
    Records settings (s.setTask id k (some (.migrating o active))) := by
  have hlives (id' : String) : ((s.setTask id k (some (.migrating o active))).lives id').recorded =
    (s.lives id').recorded ∧
      ((s.setTask id k (some (.migrating o active))).lives id').objects = (s.lives id').objects := by
    by_cases hid : id' = id <;> simp [State.setTask, State.setLife, Life.setTask, hid]
  constructor
  · exact h.nodup
  · intro id'
    rw [(hlives id').1]
    exact h.mem id'
  · intro id' o'
    rw [(hlives id').1, (hlives id').2]
    exact h.recorded id' o'
  · intro id' k' o' active' hk
    rw [(hlives id').2]
    by_cases hid : id' = id
    · subst hid
      simp only [State.setTask, State.setLife, Function.update_self] at hk
      rcases setTask_cases hk with heq | hk
      · obtain ⟨rfl, -⟩ := Task.migrating.inj heq
        exact ho
      · exact h.worked id' k' o' active' hk
    · exact h.worked id' k' o' active' (by simpa [State.setTask, State.setLife, hid] using hk)
  · intro id' o' t
    rw [(hlives id').2]
    exact h.object id' o' t
  · intro id₁ o₁ t₁ id₂ o₂ t₂
    rw [(hlives id₁).2, (hlives id₂).2]
    exact h.uid id₁ o₁ t₁ id₂ o₂ t₂

theorem begun_object {input : Input} : ((s.begun o t input).lives input.tenant_id).objects o ≠ none := by
  rw [begun_objects, if_pos ⟨rfl, rfl⟩]
  simp

/-- A new tenant gets an object with a uid that was not used before. -/
theorem Records.creates {input : Input} {port : Nat} {credentialSecret adminToken : String}
    (h : Records settings s) :
    Records settings ({ s with nextUid := s.nextUid + 1 }.begun o
      (s.created settings input.tenant_id port credentialSecret adminToken) input) := by
  refine h.grows.objects rfl (Nat.lt_succ_self _) fun id' o' t' ht' heq => ?_
  have hlt := (h.object id' o' t' ht').2.2
  have heq : t'.uid = s.nextUid := heq
  omega

theorem Records.step (h : Records settings s) (hs : step settings s l = some s') : Records settings s' := by
  cases step_effect hs with
  | kept d hk hd hsame => exact h.kept hk
  | ensures input k o credentialSecret adminToken hk ho =>
    have hensured : Ensured settings s input k o credentialSecret adminToken _ := ensured h
    generalize s.ensureTenant settings input k o credentialSecret adminToken = s₁ at hensured ⊢
    cases hensured with
    | refused => exact h
    | updates existing t hrefusal hr ht =>
      obtain ⟨-, hdir, huid⟩ := h.object _ _ _ ht
      exact (h.objects hdir huid fun id' o' t' ht' heq => h.uid _ _ _ _ _ _ ht' ht heq).record begun_object
    | noPort hrefusal hr hport => exact h.grows
    | migrates port hrefusal hr hport hslug => exact h.creates.migrates begun_object
    | creates port hrefusal hr hport hslug => exact h.creates.record begun_object
  | migrates id k o active config hk =>
    have hsecret : Records settings (s.setLife id { s.lives id with
        objects := Function.update (s.lives id).objects o (((s.lives id).objects o).map fun t =>
          { t with credentialSecret := (Text.truthy config).getD t.credentialSecret }) }) := by
      refine h.secret (fun o' ho' => ?_) fun o' t ht => ?_
      · rw [Function.update_apply]
        split
        · next heq => simpa [heq] using ho'
        · exact ho'
      · rw [Function.update_apply] at ht
        split at ht
        · next heq =>
          obtain ⟨t', ht', rfl⟩ := Option.map_eq_some_iff.1 ht
          exact ⟨t', heq ▸ ht', rfl, rfl, rfl⟩
        · exact ⟨t, ht, rfl, rfl, rfl⟩
    refine hsecret.record ?_
    simp [State.setLife, h.worked id k o active hk]
  | removes id k life hdel hk hfree hl => exact (h.kept (kept_setLife (d := fun _ => False) hk.toKept)).remove

/-! ### Ports and slugs -/

theorem tenant?_kept {d : String → Prop} (hk : s.Kept d s') (id : String) :
    (s'.lives id).tenant? = (s.lives id).tenant? := by
  rw [Life.tenant?, (hk.lives id).recorded, (hk.lives id).objects, Life.tenant?]

theorem tenant?_record : ((s.record id k o active).lives id').tenant? =
    if id' = id then (s.lives id).objects o else (s.lives id').tenant? := by
  rw [Life.tenant?, record_recorded, record_objects]
  split
  · next heq => rw [heq, Option.bind_some]
  · rfl

theorem tenant?_remove : ((s.remove id k).lives id').tenant? = if id' = id then none
    else (s.lives id').tenant? := by
  rw [Life.tenant?, remove_recorded, remove_objects]
  split <;> rfl

theorem tenant?_begun {input : Input} (hne : id' ≠ input.tenant_id) :
    ((s.begun o t input).lives id').tenant? = (s.lives id').tenant? := by
  simp [State.begun, State.setLife, hne]

theorem tenant?_begins {input : Input} {n : Nat} (hr : (s.lives input.tenant_id).recorded = none)
    (id' : String) :
    ((({ s with nextUid := n }.begun o t input).setTask input.tenant_id k
      (some (.migrating o active))).lives id').tenant? =
      (s.lives id').tenant? := by
  by_cases hid : id' = input.tenant_id
  · subst hid
    simp [Life.tenant?, State.setTask, State.setLife, Life.setTask, State.begun, hr]
  · simp [Life.tenant?, State.setTask, State.setLife, State.begun, hid]

theorem tenant?_migrated {config : Option String} : ((s.migrated id k o active config).lives id').tenant? =
    if id' = id then
      ((s.lives id).objects o).map fun t =>
      { t with credentialSecret := (Text.truthy config).getD t.credentialSecret }
    else (s.lives id').tenant? := by
  rw [Life.tenant?, migrated_recorded]
  split
  · next heq => rw [Option.bind_some, migrated_objects, if_pos ⟨heq, rfl⟩]
  · next hne =>
    rw [Life.tenant?]
    congr 1
    funext o'
    rw [migrated_objects, if_neg fun heq => hne heq.1]

theorem tenant?_put {input : Input} :
    (((s.begun o t input).record input.tenant_id k o active).lives id').tenant? =
    if id' = input.tenant_id then some (State.assign t input) else (s.lives id').tenant? := by
  rw [tenant?_record]
  split
  · rw [begun_objects, if_pos ⟨rfl, rfl⟩]
  · next hne => exact tenant?_begun hne

theorem mem_tenants (h : Records settings s) (ht : (s.lives id).tenant? = some t) : t ∈ s.tenants := by
  obtain ⟨o, hr, -⟩ := Option.bind_eq_some_iff.1 ht
  exact List.mem_filterMap.2 ⟨id, (h.mem id).2 (by simp [hr]), ht⟩

theorem object_of_tenant? (h : Records settings s) (ht : (s.lives id).tenant? = some t) :
    t.tenant_id = id := by
  obtain ⟨o, -, ho⟩ := Option.bind_eq_some_iff.1 ht
  exact (h.object id o t ho).1

theorem slug_ne_of_refusal {input : Input} (h : Records settings s) (hr : s.refusal settings input = none)
    (ht : (s.lives id).tenant? = some t) (hne : id ≠ input.tenant_id) : t.slug ≠ input.slug := by
  intro hslug
  have hany : (s.tenants.any fun tenant => tenant.slug = input.slug &&
        tenant.tenant_id ≠ input.tenant_id) = true := by
    refine List.any_eq_true.2 ⟨t, mem_tenants h ht, ?_⟩
    simp [hslug, object_of_tenant? h ht, hne]
  unfold State.refusal at hr
  split_ifs at hr

theorem lt_of_refusal {input : Input} (hr : s.refusal settings input = none)
    (hnew : (s.lives input.tenant_id).recorded = none) :
    s.ids.length < settings.MAX_TENANTS := by
  unfold State.refusal at hr
  split_ifs at hr with _ _ _ _ _ hfull
  exact Nat.not_le.1 (not_and.1 hfull hnew)

theorem port_ne_of_nextPort {port : Nat} (h : Records settings s) (hp : s.nextPort settings = some port)
    (ht : (s.lives id).tenant? = some t) : t.port ≠ port := by
  intro heq
  have hfree := List.find?_some hp
  simp only [decide_eq_true_eq] at hfree
  exact hfree (List.mem_map.2 ⟨t, mem_tenants h ht, heq⟩)

/-- A tenant is adopting the shared data directory. -/
def Migrating (s : State) : Prop := ∃ id k o active, (s.lives id).tasks k = some (.migrating o active)

/-- While the files of a new tenant are copied, no call adds a tenant or takes the name `default`. -/
def Exclusive (settings : Settings) (s : State) : Label → Prop
  | .ensureTenant input _ _ _ _ => s.refusal settings input = none → Migrating s →
      (s.lives input.tenant_id).recorded ≠ none ∧ input.slug ≠ "default"
  | _ => True

/-- No two tenants share a port or a slug, and a migration still has room for the tenant it adds. -/
structure Apart (settings : Settings) (s : State) : Prop where
  port : ∀ id id' t t', (s.lives id).tenant? = some t → (s.lives id').tenant? = some t' → id ≠ id' →
    t.port ≠ t'.port
  slug : ∀ id id' t t', (s.lives id).tenant? = some t → (s.lives id').tenant? = some t' → id ≠ id' →
    t.slug ≠ t'.slug
  capacity : s.ids.length ≤ settings.MAX_TENANTS
  sole : ∀ id k o active id' k' o' active', (s.lives id).tasks k = some (.migrating o active) →
    (s.lives id').tasks k' = some (.migrating o' active') → id = id' ∧ k = k'
  room : ∀ id k o active, (s.lives id).tasks k = some (.migrating o active) →
    (s.lives id).recorded = none ∧ s.ids.length < settings.MAX_TENANTS
  pending : ∀ id k o active t, (s.lives id).tasks k = some (.migrating o active) →
    (s.lives id).objects o = some t →
    t.slug = "default" ∧ ∀ id' t', (s.lives id').tenant? = some t' → t'.port ≠ t.port ∧ t'.slug ≠ "default"

theorem Apart.kept {d : String → Prop} (h : Apart settings s) (hk : s.Kept d s') : Apart settings s' where
  port id id' t t' := by
    rw [tenant?_kept hk, tenant?_kept hk]
    exact h.port id id' t t'
  slug id id' t t' := by
    rw [tenant?_kept hk, tenant?_kept hk]
    exact h.slug id id' t t'
  capacity := hk.ids ▸ h.capacity
  sole id k o active id' k' o' active' ht ht' :=
    h.sole id k o active id' k' o' active' ((hk.lives id).migrates k o active ht)
      ((hk.lives id').migrates k' o' active' ht')
  room id k o active ht := by
    rw [(hk.lives id).recorded, hk.ids]
    exact h.room id k o active ((hk.lives id).migrates k o active ht)
  pending id k o active t ht ho := by
    rw [(hk.lives id).objects] at ho
    simp only [tenant?_kept hk]
    exact h.pending id k o active t ((hk.lives id).migrates k o active ht) ho

theorem Apart.remove (h : Apart settings s) : Apart settings (s.remove id k) := by
  have hsub (id' : String) (t' : Tenant) (ht' : ((s.remove id k).lives id').tenant? = some t') :
      (s.lives id').tenant? = some t' := by
    rw [tenant?_remove] at ht'
    split at ht'
    · cases ht'
    · exact ht'
  constructor
  · exact fun id₁ id₂ t₁ t₂ h₁ h₂ => h.port id₁ id₂ t₁ t₂ (hsub _ _ h₁) (hsub _ _ h₂)
  · exact fun id₁ id₂ t₁ t₂ h₁ h₂ => h.slug id₁ id₂ t₁ t₂ (hsub _ _ h₁) (hsub _ _ h₂)
  · exact (List.length_erase_le ..).trans h.capacity
  · exact fun id₁ k₁ o₁ a₁ id₂ k₂ o₂ a₂ h₁ h₂ =>
      h.sole id₁ k₁ o₁ a₁ id₂ k₂ o₂ a₂ (remove_migrates h₁) (remove_migrates h₂)
  · intro id₁ k₁ o₁ a₁ h₁
    obtain ⟨hr, hlt⟩ := h.room id₁ k₁ o₁ a₁ (remove_migrates h₁)
    refine ⟨?_, (List.length_erase_le ..).trans_lt hlt⟩
    rw [remove_recorded, hr, ite_self]
  · intro id₁ k₁ o₁ a₁ t h₁ ho
    rw [remove_objects] at ho
    obtain ⟨hslug, hothers⟩ := h.pending id₁ k₁ o₁ a₁ t (remove_migrates h₁) ho
    exact ⟨hslug, fun id' t' ht' => hothers id' t' (hsub id' t' ht')⟩

/-- A tenant is recorded, with a port and a slug that no other one has. -/
theorem Apart.put (id : String) (t : Tenant) (h : Apart settings s)
    (hids : s'.ids.length ≤ settings.MAX_TENANTS)
    (htenant : ∀ id', (s'.lives id').tenant? = if id' = id then some t else (s.lives id').tenant?)
    (hother : ∀ id' t', id' ≠ id → (s.lives id').tenant? = some t' → t'.port ≠ t.port ∧ t'.slug ≠ t.slug)
    (hmigrating : ∀ id₁ k₁ o₁ active₁, (s'.lives id₁).tasks k₁ = some (.migrating o₁ active₁) →
      (s.lives id₁).tasks k₁ = some (.migrating o₁ active₁) ∧ (s'.lives id₁).recorded = none ∧
      s'.ids = s.ids ∧ (s'.lives id₁).objects = (s.lives id₁).objects ∧ t.slug ≠ "default" ∧
        ∃ t₀, (s.lives id).tenant? = some t₀ ∧ t₀.port = t.port) : Apart settings s' := by
  have hcases (id' : String) (t' : Tenant) (ht' : (s'.lives id').tenant? = some t') :
      id' = id ∧ t' = t ∨ id' ≠ id ∧ (s.lives id').tenant? = some t' := by
    rw [htenant] at ht'
    split at ht'
    · next heq => exact .inl ⟨heq, (Option.some.inj ht').symm⟩
    · next hne => exact .inr ⟨hne, ht'⟩
  constructor
  · intro id₁ id₂ t₁ t₂ h₁ h₂ hne
    rcases hcases id₁ t₁ h₁ with ⟨rfl, rfl⟩ | ⟨hne₁, h₁⟩ <;>
      rcases hcases id₂ t₂ h₂ with ⟨rfl, rfl⟩ | ⟨hne₂, h₂⟩
    · exact absurd rfl hne
    · exact (hother id₂ t₂ hne₂ h₂).1.symm
    · exact (hother id₁ t₁ hne₁ h₁).1
    · exact h.port id₁ id₂ t₁ t₂ h₁ h₂ hne
  · intro id₁ id₂ t₁ t₂ h₁ h₂ hne
    rcases hcases id₁ t₁ h₁ with ⟨rfl, rfl⟩ | ⟨hne₁, h₁⟩ <;>
      rcases hcases id₂ t₂ h₂ with ⟨rfl, rfl⟩ | ⟨hne₂, h₂⟩
    · exact absurd rfl hne
    · exact (hother id₂ t₂ hne₂ h₂).2.symm
    · exact (hother id₁ t₁ hne₁ h₁).2
    · exact h.slug id₁ id₂ t₁ t₂ h₁ h₂ hne
  · exact hids
  · exact fun id₁ k₁ o₁ a₁ id₂ k₂ o₂ a₂ h₁ h₂ =>
      h.sole id₁ k₁ o₁ a₁ id₂ k₂ o₂ a₂ (hmigrating _ _ _ _ h₁).1 (hmigrating _ _ _ _ h₂).1
  · intro id₁ k₁ o₁ a₁ h₁
    obtain ⟨hold, hr, hsame, -⟩ := hmigrating id₁ k₁ o₁ a₁ h₁
    exact ⟨hr, hsame ▸ (h.room id₁ k₁ o₁ a₁ hold).2⟩
  · intro id₁ k₁ o₁ a₁ t₁ h₁ ho
    obtain ⟨hold, -, -, hobjects, hdefault, t₀, ht₀, hport⟩ := hmigrating id₁ k₁ o₁ a₁ h₁
    rw [hobjects] at ho
    obtain ⟨hslug, hothers⟩ := h.pending id₁ k₁ o₁ a₁ t₁ hold ho
    refine ⟨hslug, fun id' t' ht' => ?_⟩
    rcases hcases id' t' ht' with ⟨rfl, rfl⟩ | ⟨-, ht'⟩
    · exact ⟨hport ▸ (hothers _ t₀ ht₀).1, hdefault⟩
    · exact hothers id' t' ht'

/-- A migration begins. -/
theorem Apart.begins {input : Input} {n : Nat} (h : Apart settings s) (hnone : ¬ Migrating s)
    (hroom : s.ids.length < settings.MAX_TENANTS)
    (hr : (s.lives input.tenant_id).recorded = none) (hslug : input.slug = "default")
    (hother : ∀ id' t', (s.lives id').tenant? = some t' → t'.port ≠ t.port ∧ t'.slug ≠ "default") :
    Apart settings (({ s with nextUid := n }.begun o t input).setTask input.tenant_id k
      (some (.migrating o active))) := by
  have hlives (id' : String) : ((({ s with nextUid := n }.begun o t input).setTask input.tenant_id k
      (some (.migrating o active))).lives id').recorded = (s.lives id').recorded ∧
      ((({ s with nextUid := n }.begun o t input).setTask input.tenant_id k
        (some (.migrating o active))).lives id').objects =
        (({ s with nextUid := n }.begun o t input).lives id').objects := by
    by_cases hid : id' = input.tenant_id <;>
      simp [State.setTask, State.setLife, Life.setTask, State.begun, hid]
  have htenant (id' : String) : ((({ s with nextUid := n }.begun o t input).setTask input.tenant_id k
      (some (.migrating o active))).lives id').tenant? = (s.lives id').tenant? := tenant?_begins hr id'
  have honly (id' : String) (k' o' : Nat) (active' : Bool)
    (hk : ((({ s with nextUid := n }.begun o t input).setTask
      input.tenant_id k (some (.migrating o active))).lives id').tasks k' = some (.migrating o' active')) :
      id' = input.tenant_id ∧ k' = k ∧ o' = o := by
    by_cases hid : id' = input.tenant_id
    · subst hid
      simp only [State.setTask, State.setLife, Function.update_self, Life.setTask,
        Function.update_apply] at hk
      split at hk
      · next heq => exact ⟨rfl, heq, (Task.migrating.inj (Option.some.inj hk)).1.symm⟩
      · exact absurd ⟨_, k', o', active', by simpa using hk⟩ hnone
    · exact absurd ⟨id', k', o', active', by simpa [State.setTask, State.setLife, hid] using hk⟩ hnone
  constructor
  · intro id₁ id₂ t₁ t₂
    rw [htenant, htenant]
    exact h.port id₁ id₂ t₁ t₂
  · intro id₁ id₂ t₁ t₂
    rw [htenant, htenant]
    exact h.slug id₁ id₂ t₁ t₂
  · exact h.capacity
  · intro id₁ k₁ o₁ a₁ id₂ k₂ o₂ a₂ h₁ h₂
    obtain ⟨hid₁, hk₁, -⟩ := honly id₁ k₁ o₁ a₁ h₁
    obtain ⟨hid₂, hk₂, -⟩ := honly id₂ k₂ o₂ a₂ h₂
    exact ⟨hid₁.trans hid₂.symm, hk₁.trans hk₂.symm⟩
  · intro id₁ k₁ o₁ a₁ h₁
    obtain ⟨rfl, -, -⟩ := honly id₁ k₁ o₁ a₁ h₁
    rw [(hlives _).1]
    exact ⟨hr, hroom⟩
  · intro id₁ k₁ o₁ a₁ t₁ h₁ ho
    obtain ⟨rfl, -, rfl⟩ := honly id₁ k₁ o₁ a₁ h₁
    rw [(hlives _).2, begun_objects, if_pos ⟨rfl, rfl⟩] at ho
    rw [← Option.some.inj ho]
    refine ⟨hslug, fun id' t' ht' => ?_⟩
    rw [htenant] at ht'
    exact hother id' t' ht'

theorem Apart.step (hrec : Records settings s) (h : Apart settings s) (hg : Exclusive settings s l)
    (hs : step settings s l = some s') :
    Apart settings s' := by
  cases step_effect hs with
  | kept d hk hd hsame => exact h.kept hk
  | ensures input k o credentialSecret adminToken hk ho =>
    have hensured : Ensured settings s input k o credentialSecret adminToken _ := ensured hrec
    generalize s.ensureTenant settings input k o credentialSecret adminToken = s₁ at hensured ⊢
    cases hensured with
    | refused => exact h
    | updates existing t hrefusal hr ht =>
      have ht₀ : (s.lives input.tenant_id).tenant? = some t := by rw [Life.tenant?, hr, Option.bind_some, ht]
      refine h.put input.tenant_id (State.assign t input) ?_ (fun id' => tenant?_put)
        (fun id' t' hne ht' => ?_)
        fun id₁ k₁ o₁ a₁ h₁ => ?_
      · rw [record_ids, begun_ids, begun_recorded, hr, if_neg (by simp)]
        exact h.capacity
      · exact ⟨h.port id' _ t' t ht' ht₀ hne, slug_ne_of_refusal hrec hrefusal ht' hne⟩
      · have hold : (s.lives id₁).tasks k₁ = some (.migrating o₁ a₁) := by simpa using (record_migrates h₁).1
        have hne : id₁ ≠ input.tenant_id := fun heq => by
          have hnone := (h.room id₁ k₁ o₁ a₁ hold).1
          rw [heq, hr] at hnone
          cases hnone
        refine ⟨hold, ?_, ?_, ?_, (hg hrefusal ⟨id₁, k₁, o₁, a₁, hold⟩).2, t, ht₀, rfl⟩
        · rw [record_recorded, if_neg hne, begun_recorded]
          exact (h.room id₁ k₁ o₁ a₁ hold).1
        · rw [record_ids, begun_ids, begun_recorded, hr, if_neg (by simp)]
        · rw [record_objects]
          funext o'
          rw [begun_objects, if_neg fun heq => hne heq.1]
    | noPort hrefusal hr hport => exact { h with }
    | migrates port hrefusal hr hport hslug =>
      have hnone : ¬ Migrating s := fun hm => (hg hrefusal hm).1 hr
      exact h.begins hnone (lt_of_refusal hrefusal hr) hr hslug
        (fun id' t' ht' => ⟨port_ne_of_nextPort hrec hport ht',
              hslug ▸ slug_ne_of_refusal hrec hrefusal ht' fun heq => by
          rw [heq, Life.tenant?, hr] at ht'
          cases ht'⟩)
    | creates port hrefusal hr hport hslug =>
      have hnone : ¬ Migrating s := fun hm => (hg hrefusal hm).1 hr
      refine h.put input.tenant_id
        (State.assign (s.created settings input.tenant_id port credentialSecret adminToken) input) ?_
        (fun id' => tenant?_put) (fun id' t' hne ht' => ?_) fun id₁ k₁ o₁ a₁ h₁ => ?_
      · rw [record_ids, begun_ids, begun_recorded, hr, if_pos rfl, List.length_append]
        exact lt_of_refusal hrefusal hr
      · exact ⟨port_ne_of_nextPort hrec hport ht', slug_ne_of_refusal hrec hrefusal ht' hne⟩
      · exact absurd ⟨id₁, k₁, o₁, a₁, by simpa using (record_migrates h₁).1⟩ hnone
  | migrates id k o active config hk =>
    obtain ⟨hr, hroom⟩ := h.room id k o active hk
    obtain ⟨t, ht⟩ := Option.ne_none_iff_exists'.1 (hrec.worked id k o active hk)
    obtain ⟨hslug, hothers⟩ := h.pending id k o active t hk ht
    refine h.put id { t with credentialSecret := (Text.truthy config).getD t.credentialSecret } ?_
      (fun id' => ?_)
      (fun id' t' hne ht' => ⟨(hothers id' t' ht').1, hslug ▸ (hothers id' t' ht').2⟩)
        fun id₁ k₁ o₁ a₁ h₁ => ?_
    · rw [migrated_ids, hr, if_pos rfl, List.length_append]
      exact hroom
    · rw [tenant?_migrated, ht, Option.map_some]
    · obtain ⟨hold, hne⟩ := migrated_migrates h₁
      exact absurd (h.sole id₁ k₁ o₁ a₁ id k o active hold hk) hne
  | removes id k life hdel hk hfree hl => exact (h.kept (kept_setLife (d := fun _ => False) hk.toKept)).remove

/-! ### What a tenant keeps -/

/-- What a tenant keeps until it is deleted. -/
structure Keeps (t t' : Tenant) : Prop where
  uid : t'.uid = t.uid
  port : t'.port = t.port
  credentialSecret : t'.credentialSecret = t.credentialSecret
  adminToken : t'.adminToken = t.adminToken

theorem Keeps.refl (t : Tenant) : Keeps t t := ⟨rfl, rfl, rfl, rfl⟩

theorem Keeps.trans {t'' : Tenant} (h : Keeps t t') (h' : Keeps t' t'') : Keeps t t'' :=
  ⟨h'.uid.trans h.uid, h'.port.trans h.port, h'.credentialSecret.trans h.credentialSecret,
    h'.adminToken.trans h.adminToken⟩

theorem keeps_step (hrec : Records settings s) (h : Apart settings s) (hs : step settings s l = some s')
    (hdel : ¬ (s.lives id).Deleting) (ht : (s.lives id).tenant? = some t) :
    ∃ t', (s'.lives id).tenant? = some t' ∧ Keeps t t' := by
  cases step_effect hs with
  | kept d hk hd hsame => exact ⟨t, by rw [tenant?_kept hk, ht], .refl t⟩
  | ensures input k o credentialSecret adminToken hk ho =>
    have hensured : Ensured settings s input k o credentialSecret adminToken _ := ensured hrec
    generalize s.ensureTenant settings input k o credentialSecret adminToken = s₁ at hensured ⊢
    cases hensured with
    | refused => exact ⟨t, ht, .refl t⟩
    | updates existing t₀ hrefusal hr ht₀ =>
      rw [tenant?_put]
      split
      · next heq =>
        rw [heq, Life.tenant?, hr, Option.bind_some, ht₀] at ht
        rw [← Option.some.inj ht]
        exact ⟨_, rfl, rfl, rfl, rfl, rfl⟩
      · exact ⟨t, ht, .refl t⟩
    | noPort hrefusal hr hport => exact ⟨t, ht, .refl t⟩
    | migrates port hrefusal hr hport hslug => exact ⟨t, by rw [tenant?_begins hr, ht], .refl t⟩
    | creates port hrefusal hr hport hslug =>
      rw [tenant?_put]
      split
      · next heq =>
        rw [heq, Life.tenant?, hr] at ht
        cases ht
      · exact ⟨t, ht, .refl t⟩
  | migrates id' k o active config hk =>
    rw [tenant?_migrated]
    split
    · next heq =>
      rw [heq, Life.tenant?, (h.room id' k o active hk).1] at ht
      cases ht
    · exact ⟨t, ht, .refl t⟩
  | removes id' k life hdel' hk hfree hl =>
    rw [tenant?_remove]
    split
    · next heq => exact absurd (heq ▸ hdel') hdel
    · have hkept := tenant?_kept (kept_setLife (d := fun _ => False) hk.toKept) id
      exact ⟨t, hkept.trans ht, .refl t⟩

theorem deleting_setTask {task : Task} (hdel : task.deletes = false)
    (h : ((s.setTask id k (some task)).lives id').Deleting) :
    (s.lives id').Deleting := by
  obtain ⟨k', u, hk, hu⟩ := h
  by_cases hid : id' = id
  · subst hid
    simp only [State.setTask, State.setLife, Function.update_self] at hk
    rcases setTask_cases hk with rfl | hk
    · rw [hdel] at hu
      cases hu
    · exact ⟨k', u, hk, hu⟩
  · simp only [State.setTask, State.setLife, Function.update_of_ne hid] at hk
    exact ⟨k', u, hk, hu⟩

theorem deleting_record (h : ((s.record id k o active).lives id').Deleting) : (s.lives id').Deleting := by
  obtain ⟨k', u, hk, hu⟩ := deleting_setTask rfl h
  refine ⟨k', u, ?_, hu⟩
  by_cases hid : id' = id <;> simpa [State.setLife, hid] using hk

theorem deleting_remove (h : ((s.remove id k).lives id').Deleting) : (s.lives id').Deleting := by
  obtain ⟨k', u, hk, hu⟩ := deleting_setTask rfl h
  refine ⟨k', u, ?_, hu⟩
  by_cases hid : id' = id <;> simpa [State.setLife, hid] using hk

theorem deleting_step (hrec : Records settings s) (hs : step settings s l = some s')
    (hl : ∀ k, l ≠ .deleteTenant id k) (h : (s'.lives id).Deleting) : (s.lives id).Deleting := by
  cases step_effect hs with
  | kept d hk hd hsame =>
    rcases (hk.lives id).deleting h with hid | h
    · obtain ⟨k, heq⟩ := hd id hid
      exact absurd heq (hl k)
    · exact h
  | ensures input k o credentialSecret adminToken hk ho =>
    have hbegun {u : State} {o' : Nat} {t : Tenant} (h : ((u.begun o' t input).lives id).Deleting) :
        (u.lives id).Deleting := by
      obtain ⟨k', task, hk, hdel⟩ := h
      exact ⟨k', task, by simpa using hk, hdel⟩
    have hensured : Ensured settings s input k o credentialSecret adminToken _ := ensured hrec
    generalize s.ensureTenant settings input k o credentialSecret adminToken = s₁ at hensured h
    cases hensured with
    | refused => exact h
    | updates existing t₀ hrefusal hr ht₀ => exact hbegun (deleting_record h)
    | noPort hrefusal hr hport => exact h
    | migrates port hrefusal hr hport hslug =>
      exact hbegun (u := { s with nextUid := s.nextUid + 1 }) (deleting_setTask rfl h)
    | creates port hrefusal hr hport hslug =>
      exact hbegun (u := { s with nextUid := s.nextUid + 1 }) (deleting_record h)
  | migrates id' k o active config hk =>
    have hset := deleting_record h
    obtain ⟨k', task, hk', hdel⟩ := hset
    refine ⟨k', task, ?_, hdel⟩
    by_cases hid : id = id' <;> simpa [State.setLife, Function.update_apply, hid] using hk'
  | removes id' k life hdel' hk hfree hl =>
    rcases ((kept_setLife (d := fun _ => False) hk.toKept).lives id).deleting
      (deleting_remove h) with hfalse | h
    · exact hfalse.elim
    · exact h

/-! ### The state file -/

/-- No task is writing the state file. -/
def NoSave (s : State) : Prop := ∀ id k task, (s.lives id).tasks k = some task → task.saves = none

/-- Saves do not overlap, and no operation that the state file depends on fails. -/
def Sequential (settings : Settings) (s : State) : Label → Prop
  | .ensureTenant input _ _ _ _ => s.refusal settings input = none →
      (s.lives input.tenant_id).recorded ≠ none ∨ input.slug ≠ "default" → NoSave s
  | .migrated _ _ _ => NoSave s
  | .stopped id k _ userDirExists =>
    ∀ wait, (s.lives id).tasks k = some (.stopping wait .delete) → userDirExists = false → NoSave s
  | .archived _ _ => NoSave s
  | .failed id k _ => (s.lives id).Free k
  | _ => True

/-- The text of the one save under way is the state, unless a migration will save it again. -/
structure Disk (s : State) : Prop where
  one : ∀ id k task id' k' task', (s.lives id).tasks k = some task → (s.lives id').tasks k' = some task' →
    task.saves ≠ none → task'.saves ≠ none → id = id' ∧ k = k'
  write : ¬ Migrating s → ∀ id k task text, (s.lives id).tasks k = some task →
    task.saves = some (.write text) → text = s.stored
  rename : ∀ id k task, (s.lives id).tasks k = some task → task.saves = some .rename →
    ∃ text, s.temp = some (.state text) ∧ (¬ Migrating s → text = s.stored)
  rest : ¬ Migrating s → NoSave s → s.loadState = some s.stored

theorem stored_eq (hids : s'.ids = s.ids) (hu : s'.nextUid = s.nextUid)
    (ht : ∀ id, (s'.lives id).tenant? = (s.lives id).tenant?) :
    s'.stored = s.stored := by
  rw [State.stored, State.stored, hu, hids]
  simp only [ht]

theorem stored_kept {d : String → Prop} (hk : s.Kept d s') : s'.stored = s.stored :=
  stored_eq hk.ids hk.nextUid (tenant?_kept hk)

theorem busy_of_saves {task : Task} (h : task.saves ≠ none) : task.busy = true := by
  rw [Task.busy, Option.isSome_iff_ne_none.2 h, Bool.or_true]

theorem Disk.same {d : String → Prop} (h : Disk s) (hk : s.Kept d s') (hs : s.Same s') : Disk s' := by
  have hmigrating : Migrating s ↔ Migrating s' := by
    constructor
    · rintro ⟨id, k, o, active, ht⟩
      exact ⟨id, k, o, active, (hs.busy id k _ rfl).2 ht⟩
    · rintro ⟨id, k, o, active, ht⟩
      exact ⟨id, k, o, active, (hs.busy id k _ rfl).1 ht⟩
  have hold {id : String} {k : Nat} {task : Task} (ht : (s'.lives id).tasks k = some task)
    (hsave : task.saves ≠ none) :
      (s.lives id).tasks k = some task := (hs.busy id k task (busy_of_saves hsave)).1 ht
  constructor
  · exact fun id k task id' k' task' ht ht' hsave hsave' =>
      h.one id k task id' k' task' (hold ht hsave) (hold ht' hsave') hsave hsave'
  · intro hm id k task text ht hsave
    rw [stored_kept hk]
    exact h.write (mt hmigrating.1 hm) id k task text (hold ht (by simp [hsave])) hsave
  · intro id k task ht hsave
    rw [stored_kept hk, hs.temp]
    obtain ⟨text, htemp, htext⟩ := h.rename id k task (hold ht (by simp [hsave])) hsave
    exact ⟨text, htemp, fun hm => htext (mt hmigrating.1 hm)⟩
  · intro hm hnone
    rw [stored_kept hk, State.loadState, hs.file]
    refine h.rest (mt hmigrating.1 hm) fun id k task ht => ?_
    by_contra hsave
    exact hsave (hnone id k task ((hs.busy id k task (busy_of_saves hsave)).2 ht))

/-- A save begins. -/
theorem Disk.begins {task : Task} (hnone : NoSave s) (htask : task.saves = some (.write s.stored)) :
    Disk (s.setTask id k (some task)) := by
  have hstored : (s.setTask id k (some task)).stored = s.stored := by
    refine stored_eq rfl rfl fun id' => ?_
    by_cases hid : id' = id <;> simp [State.setTask, State.setLife, Life.setTask, Life.tenant?, hid]
  have honly {id' : String} {k' : Nat} {u : Task}
    (ht : ((s.setTask id k (some task)).lives id').tasks k' = some u)
      (hsave : u.saves ≠ none) : id' = id ∧ k' = k ∧ u = task := by
    by_cases hid : id' = id
    · subst hid
      simp only [State.setTask, State.setLife, Function.update_self, Life.setTask,
        Function.update_apply] at ht
      split at ht
      · next heq => exact ⟨rfl, heq, (Option.some.inj ht).symm⟩
      · exact absurd (hnone _ _ _ ht) hsave
    · simp only [State.setTask, State.setLife, Function.update_of_ne hid] at ht
      exact absurd (hnone _ _ _ ht) hsave
  constructor
  · intro id₁ k₁ u₁ id₂ k₂ u₂ h₁ h₂ hs₁ hs₂
    obtain ⟨hid₁, hk₁, -⟩ := honly h₁ hs₁
    obtain ⟨hid₂, hk₂, -⟩ := honly h₂ hs₂
    exact ⟨hid₁.trans hid₂.symm, hk₁.trans hk₂.symm⟩
  · intro _ id' k' u text hu hsave
    obtain ⟨-, -, rfl⟩ := honly hu (by simp [hsave])
    rw [htask] at hsave
    rw [hstored]
    exact (Save.write.inj (Option.some.inj hsave)).symm
  · intro id' k' u hu hsave
    obtain ⟨-, -, rfl⟩ := honly hu (by simp [hsave])
    rw [htask] at hsave
    cases hsave
  · intro _ hall
    have hself : ((s.setTask id k (some task)).lives id).tasks k = some task := by
      simp [State.setTask, State.setLife, Life.setTask]
    rw [hall id k task hself] at htask
    cases htask

/-- Another record of a tenant leaves its calls alone. -/
theorem NoSave.setLife {life : Life} (hnone : NoSave s) (htasks : life.tasks = (s.lives id).tasks) :
    NoSave (s.setLife id life) := by
  intro id' k' task ht
  by_cases hid : id' = id
  · subst hid
    exact hnone id' k' task (by simpa [State.setLife, htasks] using ht)
  · exact hnone id' k' task (by simpa [State.setLife, hid] using ht)

theorem disk_record (hnone : NoSave s) : Disk (s.record id k o active) := Disk.begins (hnone.setLife rfl) rfl

theorem disk_remove (hnone : NoSave s) : Disk (s.remove id k) := Disk.begins (hnone.setLife rfl) rfl

/-- A port is left wherever a tenant may be added. -/
theorem nextPort_ne_none {input : Input} (hr : s.refusal settings input = none)
    (hnew : (s.lives input.tenant_id).recorded = none) :
    s.nextPort settings ≠ none := by
  intro hnone
  have hsub : List.range' 19000 settings.MAX_TENANTS ⊆ s.tenants.map (·.port) := fun port hport => by
    have hused := List.find?_eq_none.1 hnone port hport
    simpa using hused
  have hle := (List.subperm_of_subset List.nodup_range' hsub).length_le
  have htenants : s.tenants.length ≤ s.ids.length := List.length_filterMap_le ..
  have hlt := lt_of_refusal hr hnew
  rw [List.length_range', List.length_map] at hle
  omega

theorem tasks_setTask {task : Task} {k' : Nat} : ((s.setTask id k (some task)).lives id').tasks k' =
    if id' = id ∧ k' = k then some task else (s.lives id').tasks k' := by
  by_cases hid : id' = id
  · subst hid
    by_cases hk : k' = k <;> simp [State.setTask, State.setLife, Life.setTask, hk]
  · simp [State.setTask, State.setLife, hid]

/-- A save goes on, from one operation to the next. -/
theorem Disk.next {task task' : Task} {temp file : Option Content} (h : Disk s)
    (hk : (s.lives id).tasks k = some task)
    (hsave : task.saves ≠ none) (hwrite : ∀ text, task'.saves ≠ some (.write text))
    (hrename : task'.saves = some .rename → ∃ text, temp = some (.state text) ∧
      (¬ Migrating s → text = s.stored))
    (hrest : ¬ Migrating s → task'.saves = none → State.loadState { s with temp, file } = some s.stored) :
    Disk ({ s with temp, file }.setTask id k (some task')) := by
  have hm : task.migrates = false := by
    cases task <;> first | rfl | exact absurd rfl hsave
  have htasks (id' : String) (k' : Nat) :
    (({ s with temp, file }.setTask id k (some task')).lives id').tasks k' =
      if id' = id ∧ k' = k then some task' else (s.lives id').tasks k' := tasks_setTask
  have hmigrating (hnot : ¬ Migrating ({ s with temp, file }.setTask id k (some task'))) : ¬ Migrating s := by
    rintro ⟨id', k', o, active, ht⟩
    refine hnot ⟨id', k', o, active, ?_⟩
    rw [htasks, if_neg]
    · exact ht
    · rintro ⟨rfl, rfl⟩
      rw [hk] at ht
      rw [Option.some.inj ht] at hm
      cases hm
  have hstored : ({ s with temp, file }.setTask id k (some task')).stored = s.stored := by
    refine stored_eq rfl rfl fun id' => ?_
    by_cases hid : id' = id <;> simp [State.setTask, State.setLife, Life.setTask, Life.tenant?, hid]
  -- no other save is under way
  have hnone {id' : String} {k' : Nat} {u : Task} (hne : ¬ (id' = id ∧ k' = k))
    (hu : (s.lives id').tasks k' = some u) :
      u.saves = none := by
    by_contra hsu
    exact hne (h.one id' k' u id k task hu hk hsu hsave)
  constructor
  · intro id₁ k₁ u₁ id₂ k₂ u₂ h₁ h₂ hs₁ hs₂
    rw [htasks] at h₁ h₂
    split at h₁ <;> split at h₂
    · next he₁ he₂ => exact ⟨he₁.1.trans he₂.1.symm, he₁.2.trans he₂.2.symm⟩
    · next he₁ he₂ => exact absurd (hnone he₂ h₂) hs₂
    · next he₁ he₂ => exact absurd (hnone he₁ h₁) hs₁
    · exact h.one id₁ k₁ u₁ id₂ k₂ u₂ h₁ h₂ hs₁ hs₂
  · intro _ id' k' u text hu hsu
    rw [htasks] at hu
    split at hu
    · rw [← Option.some.inj hu] at hsu
      exact absurd hsu (hwrite text)
    · next hne =>
      rw [hnone hne hu] at hsu
      cases hsu
  · intro id' k' u hu hsu
    rw [htasks] at hu
    rw [hstored]
    split at hu
    · rw [← Option.some.inj hu] at hsu
      obtain ⟨text, htemp, htext⟩ := hrename hsu
      exact ⟨text, htemp, fun hnot => htext (hmigrating hnot)⟩
    · next hne =>
      rw [hnone hne hu] at hsu
      cases hsu
  · intro hnot hall
    rw [hstored]
    exact hrest (hmigrating hnot) (hall id k task' (by rw [htasks, if_pos ⟨rfl, rfl⟩]))

theorem Disk.written {task task' : Task} {text : Stored} (h : Disk s) (hk : (s.lives id).tasks k = some task)
    (hsave : task.saves = some (.write text)) (hsave' : task'.saves = some .rename) :
    Disk ({ s with temp := some (.state text) }.setTask id k (some task')) := by
  refine h.next hk (by simp [hsave]) (by simp [hsave']) (fun _ => ⟨text, rfl, fun hm => ?_⟩)
    (by simp [hsave'])
  exact h.write hm id k task text hk hsave

theorem Disk.renamed {task task' : Task} {content : Content} (h : Disk s)
    (hk : (s.lives id).tasks k = some task)
    (hsave : task.saves = some .rename) (hsave' : task'.saves = none) (htemp : s.temp = some content) :
    Disk ({ s with temp := none, file := some content }.setTask id k (some task')) := by
  refine h.next hk (by simp [hsave]) (by simp [hsave']) (by simp [hsave']) fun hm _ => ?_
  obtain ⟨text, htext, heq⟩ := h.rename id k task hk hsave
  obtain rfl := Option.some.inj (htemp.symm.trans htext)
  rw [← heq hm]
  rfl

theorem disk_saved (h : Disk s) (hs : s.saved id k = some s') : Disk s' := by
  have hkept := kept_saved hs
  unfold State.saved at hs
  split at hs
  · next o active save hk =>
    cases save with
    | write text =>
      rw [← Option.some.inj hs]
      exact h.written hk rfl rfl
    | rename =>
      obtain ⟨next, ha, rfl⟩ := Option.map_eq_some_iff.1 hs
      obtain ⟨content, htemp, rfl⟩ := Option.map_eq_some_iff.1 ha
      exact h.renamed hk rfl rfl htemp
    | chmod =>
      have hfree : (s.lives id).Free k := free_of_task hk rfl
      rw [← Option.some.inj hs] at hkept ⊢
      refine h.same hkept ?_
      dsimp only [State.ensured]
      split
      · exact same_setLife (d := False) (same_startRuntime hfree)
      · exact same_setLife (d := False) (same_stopRuntime hfree nofun)
  · next save hk =>
    cases save with
    | write text =>
      rw [← Option.some.inj hs]
      exact h.written hk rfl rfl
    | rename =>
      obtain ⟨next, ha, rfl⟩ := Option.map_eq_some_iff.1 hs
      obtain ⟨content, htemp, rfl⟩ := Option.map_eq_some_iff.1 ha
      exact h.renamed hk rfl rfl htemp
    | chmod =>
      rw [← Option.some.inj hs] at hkept ⊢
      exact h.same hkept (same_setLife (d := False) (same_returned (free_of_task hk rfl)))
  · cases hs

/-- What a migration has changed will be saved when it ends. -/
theorem Disk.migrates {input : Input} {n : Nat} (h : Disk s) :
    Disk (({ s with nextUid := n }.begun o t input).setTask input.tenant_id k
      (some (.migrating o active))) := by
  have htasks (id' : String) (k' : Nat) :
    ((({ s with nextUid := n }.begun o t input).setTask input.tenant_id k
      (some (.migrating o active))).lives id').tasks k' =
        if id' = input.tenant_id ∧ k' = k then some (.migrating o active) else (s.lives id').tasks k' := by
    rw [tasks_setTask, begun_tasks]
  have hmigrating : Migrating
      (({ s with nextUid := n }.begun o t input).setTask input.tenant_id k
        (some (.migrating o active))) :=
    ⟨input.tenant_id, k, o, active, by rw [htasks, if_pos ⟨rfl, rfl⟩]⟩
  have hold {id' : String} {k' : Nat} {u : Task}
    (hu : ((({ s with nextUid := n }.begun o t input).setTask input.tenant_id k
      (some (.migrating o active))).lives id').tasks k' = some u) (hsave : u.saves ≠ none) :
          (s.lives id').tasks k' = some u := by
    rw [htasks] at hu
    split at hu
    · rw [← Option.some.inj hu] at hsave
      exact absurd rfl hsave
    · exact hu
  exact
    { one := fun id₁ k₁ u₁ id₂ k₂ u₂ h₁ h₂ hs₁ hs₂ =>
      h.one id₁ k₁ u₁ id₂ k₂ u₂ (hold h₁ hs₁) (hold h₂ hs₂) hs₁ hs₂
      write := fun hnot => absurd hmigrating hnot
      rename := fun id' k' u hu hsave => by
        obtain ⟨text, htemp, -⟩ := h.rename id' k' u (hold hu (by simp [hsave])) hsave
        exact ⟨text, htemp, fun hnot => absurd hmigrating hnot⟩
      rest := fun hnot => absurd hmigrating hnot }

theorem Disk.step (hrec : Records settings s) (h : Disk s) (hg : Sequential settings s l)
    (hs : step settings s l = some s') : Disk s' := by
  cases step_effect hs with
  | kept d hk hd hsame =>
    rcases hsame with hsame | ⟨id, k, rfl⟩ | ⟨id, k, left, rfl⟩
    · exact h.same hk hsame
    · exact disk_saved h hs
    · have hfree : (s.lives id).Free k := hg
      have hdrop : Disk (s.setTask id k none) :=
        h.same (d := fun _ => False) (kept_setLife Kept.drop)
        (same_setLife (Same.drop (d := False) hfree))
      simp only [Manager.step, State.failed] at hs
      split at hs
      · next hk => cases hfree _ hk
      · next hk => cases hfree _ hk
      all_goals
        cases hs
        try exact hdrop
  | ensures input k o credentialSecret adminToken hk ho =>
    have hensured : Ensured settings s input k o credentialSecret adminToken _ := ensured hrec
    have hbegun {u : State} {o' : Nat} {t : Tenant} (hnone : NoSave u) :
        NoSave (u.begun o' t input) := fun id k task ht =>
      hnone id k task (by simpa using ht)
    generalize s.ensureTenant settings input k o credentialSecret adminToken = s₁ at hensured ⊢
    cases hensured with
    | refused => exact h
    | updates existing t hrefusal hr ht => exact disk_record (hbegun (hg hrefusal (.inl (by simp [hr]))))
    | noPort hrefusal hr hport => exact absurd hport (nextPort_ne_none hrefusal hr)
    | migrates port hrefusal hr hport hslug => exact h.migrates
    | creates port hrefusal hr hport hslug => exact disk_record (hbegun (hg hrefusal (.inr hslug)))
  | migrates id k o active config hk =>
    refine disk_record fun id' k' task ht => ?_
    by_cases hid : id' = id
    · subst hid
      exact hg id' k' task (by simpa [State.setLife] using ht)
    · exact hg id' k' task (by simpa [State.setLife, hid] using ht)
  | removes id k life hdel hk hfree hl =>
    have hnone : NoSave s := by
      rcases hl with ⟨wait, timeout, hwait, rfl⟩ | rfl
      · exact hg wait hwait rfl
      · exact hg
    refine disk_remove fun id' k' task ht => ?_
    by_contra hsave
    exact hsave (hnone id' k' task (((same_setLife hk).busy id' k' task (busy_of_saves hsave)).1 ht))

/-! ### Runs -/

/-- The manager without a state file. -/
def State.empty : State := .boot ⟨20000, []⟩ none

/-- No two tenants share a user, a port, a slug or a directory, and there are no more than may be.
-/
structure Isolated (settings : Settings) (s : State) : Prop where
  distinct : ∀ id id' t t', (s.lives id).tenant? = some t → (s.lives id').tenant? = some t' → id ≠ id' →
    t.uid ≠ t'.uid ∧ t.port ≠ t'.port ∧ t.slug ≠ t'.slug ∧ t.userDir ≠ t'.userDir
  capacity : ∀ ids : List String, ids.Nodup → (∀ id ∈ ids, (s.lives id).tenant? ≠ none) →
    ids.length ≤ settings.MAX_TENANTS

theorem Records.empty : Records settings .empty where
  nodup := List.nodup_nil
  mem id := by simp [State.empty, State.boot, Life.empty]
  recorded := nofun
  worked := nofun
  object := nofun
  uid := nofun

theorem Apart.empty : Apart settings .empty where
  port := nofun
  slug := nofun
  capacity := Nat.zero_le _
  sole := nofun
  room := nofun
  pending := nofun

theorem Disk.empty : Disk .empty where
  one := nofun
  write := nofun
  rename := nofun
  rest _ _ := rfl

theorem Apart.isolated (hrec : Records settings s) (h : Apart settings s) : Isolated settings s where
  distinct id id' t t' ht ht' hne := by
    obtain ⟨o, -, ho⟩ := Option.bind_eq_some_iff.1 ht
    obtain ⟨o', -, ho'⟩ := Option.bind_eq_some_iff.1 ht'
    refine ⟨fun heq => hne (hrec.uid _ _ _ _ _ _ ho ho' heq).1, h.port id id' t t' ht ht' hne,
      h.slug id id' t t' ht ht' hne, ?_⟩
    rw [(hrec.object id o t ho).2.1, (hrec.object id' o' t' ho').2.1]
    intro heq
    have hlist := congrArg String.toList heq
    simp only [String.toList_append] at hlist
    exact hne (String.toList_inj.1 (List.append_cancel_left hlist))
  capacity ids hnodup hrecorded := by
    refine (List.subperm_of_subset hnodup fun id hid => (hrec.mem id).2 fun hnone =>
      hrecorded id hid ?_).length_le.trans h.capacity
    rw [Life.tenant?, hnone]
    rfl

theorem along_apart {ls : List Label} (hg : Machine.Along (step settings) (Exclusive settings) s ls)
    (hr : Machine.run (step settings) s ls = some s') (hrec : Records settings s) (h : Apart settings s) :
    Records settings s' ∧ Apart settings s' :=
  hg.inv (I := fun s : State => Records settings s ∧ Apart settings s)
    (fun _ _ _ hg hs h => ⟨h.1.step hs, h.2.step h.1 hg hs⟩) hr ⟨hrec, h⟩

/-- Without a deletion a tenant stays recorded. -/
theorem along_keeps {ls : List Label} (hg : Machine.Along (step settings) (Exclusive settings) s ls)
    (hr : Machine.run (step settings) s ls = some s') (hl : ∀ l ∈ ls, ∀ k, l ≠ .deleteTenant id k)
    (hrec : Records settings s) (h : Apart settings s) (hdel : ¬ (s.lives id).Deleting) :
    ¬ (s'.lives id).Deleting ∧ ∀ t, (s.lives id).tenant? = some t →
    ∃ t', (s'.lives id).tenant? = some t' ∧ Keeps t t' := by
  have hstep := (Machine.Along.labels hl hg).inv
    (I := fun u : State => Records settings u ∧ Apart settings u ∧ ¬ (u.lives id).Deleting ∧
      ∀ t, (s.lives id).tenant? = some t → ∃ t', (u.lives id).tenant? = some t' ∧ Keeps t t')
    (fun u l u' hg hs hu => ?_) hr ⟨hrec, h, hdel, fun t ht => ⟨t, ht, .refl t⟩⟩
  · exact hstep.2.2
  · obtain ⟨hrec, hap, hdel, hkeeps⟩ := hu
    refine ⟨hrec.step hs, hap.step hrec hg.2 hs, fun hd => hdel (deleting_step hrec hs hg.1 hd),
      fun t ht => ?_⟩
    obtain ⟨t₁, ht₁, hk₁⟩ := hkeeps t ht
    obtain ⟨t₂, ht₂, hk₂⟩ := keeps_step hrec hap hs hdel ht₁
    exact ⟨t₂, ht₂, hk₁.trans hk₂⟩

/-- Where nothing comes between the checks of a new tenant and its insertion, tenants stay apart and
keep what they got; where saves do not overlap and do not fail, the file holds the state once every
call is done. -/
theorem tenants_isolated {ls : List Label} (hr : Machine.run (step settings) .empty ls = some s) :
    (Machine.Along (step settings) (Exclusive settings) .empty ls → Isolated settings s ∧
      ∀ id before after s₁ t, ls = before ++ after → (∀ k, Label.deleteTenant id k ∉ ls) →
        Machine.run (step settings) .empty before = some s₁ → (s₁.lives id).tenant? = some t →
          ∃ t', (s.lives id).tenant? = some t' ∧ Keeps t t') ∧
    (Machine.Along (step settings) (Sequential settings) .empty ls →
      (∀ id k task, (s.lives id).tasks k = some task → task.isCall = false) →
      s.loadState = some s.stored) := by
  constructor
  · intro hg
    obtain ⟨hrec, hap⟩ := along_apart hg hr .empty .empty
    refine ⟨hap.isolated hrec, ?_⟩
    rintro id before after s₁ t rfl hnot hbefore ht
    obtain ⟨s₂, hs₂, hafter⟩ := Machine.run_append.1 hr
    obtain rfl := Option.some.inj (hbefore.symm.trans hs₂)
    obtain ⟨hgb, hga⟩ := hg.append hbefore
    obtain ⟨hrec₁, hap₁⟩ := along_apart hgb hbefore .empty .empty
    have hdel₁ := (along_keeps hgb hbefore (fun l hl k heq => hnot k (heq ▸ List.mem_append_left after hl))
      .empty .empty
      (fun hd => hd.elim fun k hk => hk.elim fun task htask => by cases htask.1)).1
    exact (along_keeps hga hafter (fun l hl k heq => hnot k (heq ▸ List.mem_append_right before hl))
      hrec₁ hap₁ hdel₁).2 t ht
  · intro hg hcalls
    have hdisk := hg.inv (I := fun s : State => Records settings s ∧ Disk s)
      (fun _ _ _ hg hs h => ⟨h.1.step hs, h.2.step h.1 hg hs⟩) hr ⟨.empty, .empty⟩
    refine hdisk.2.rest ?_ fun id k task ht => ?_
    · rintro ⟨id, k, o, active, ht⟩
      cases hcalls id k _ ht
    · have hcall := hcalls id k task ht
      cases task <;> first | rfl | cases hcall

/-- The default tenant, and one that comes while its files are copied. -/
def defaultInput : Input :=
  ⟨"2f1c0b2d-9ad7-4e74-8c2c-4bdcb9f365b0", "default", "Default", false, "http://server",
  "0123456789abcdef"⟩

def otherInput : Input :=
  ⟨"8b34e4b5-24a8-43ca-b655-35ac59d798ce", "other", "Other", false, "http://server", "0123456789abcdef"⟩

def isolationSettings : Settings := ⟨50, "/data"⟩

def adoption : List Label :=
  [.ensureTenant defaultInput 0 0 "credential" "admin", .migrated defaultInput.tenant_id 0 (some "legacy"),
    .saved defaultInput.tenant_id 0, .saved defaultInput.tenant_id 0, .saved defaultInput.tenant_id 0,
    .stopped defaultInput.tenant_id 0 false true]

theorem tenants_isolated_adoption : ∃ s, Machine.run (step isolationSettings) .empty adoption = some s ∧
    Isolated isolationSettings s ∧ ((∀ id k task, (s.lives id).tasks k = some task → task.isCall = false) →
      s.loadState = some s.stored) := by
  obtain ⟨s, hs⟩ := Option.isSome_iff_exists.1
    (show (Machine.run (step isolationSettings) .empty adoption).isSome = true from rfl)
  have hexclusive : Machine.Along (step isolationSettings) (Exclusive isolationSettings) .empty adoption := by
    refine And.intro ?_ (And.intro trivial
      (And.intro trivial (And.intro trivial (And.intro trivial (And.intro trivial trivial)))))
    rintro - ⟨id, k, o, active, ht⟩
    cases ht
  have hsequential : Machine.Along (step isolationSettings) (Sequential isolationSettings) .empty
      adoption := by
    refine And.intro ?_ (And.intro ?_
      (And.intro trivial (And.intro trivial (And.intro trivial (And.intro ?_ trivial)))))
    · rintro - (hr | hslug)
      · exact absurd rfl hr
      · exact absurd rfl hslug
    · intro id k task ht
      have ht := tasks_setTask.symm.trans ht
      split at ht
      · rw [← Option.some.inj ht]
        rfl
      · rw [begun_tasks] at ht
        cases ht
    · intro wait ht
      cases ht
  obtain ⟨hisolated, hsaved⟩ := tenants_isolated hs
  exact ⟨s, hs, (hisolated hexclusive).1, hsaved hsequential⟩

/-- The second tenant gets the port that the first one was given and does not hold yet. -/
theorem port_shared : ¬ ∀ ls s, Machine.run (step isolationSettings) .empty ls = some s →
    Isolated isolationSettings s := by
  intro h
  have hisolated := h [.ensureTenant defaultInput 0 0 "credential" "admin",
    .ensureTenant otherInput 0 0 "credential2" "admin2",
    .migrated defaultInput.tenant_id 0 none] _ rfl
  exact (hisolated.distinct defaultInput.tenant_id otherInput.tenant_id _ _ rfl rfl (by decide)).2.1 rfl

end Manager
