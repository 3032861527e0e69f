import Mathlib
import BetterFrame.Lib.Crash
import BetterFrame.Lib.OrdMap

/-!
# The attempt file

`update_guard.rs`: how often an update to a version was attempted since it last succeeded. The file is
shared by the updates of the operating system and of the app. `Guard.history`, latest first, is what
really happened; the counts of the file are compared with it.
-/

namespace UpdateGuard

open Crash

def ATTEMPT_LIMIT : Nat := 3
def U32_MAX : Nat := 2 ^ 32 - 1

/-- The failures of one version. -/
structure AttemptEntry where
  failures : Nat
  last_error : Option String
deriving DecidableEq

abbrev AttemptState := OrdMap String AttemptEntry

/-- What happened to a version. -/
inductive Mark where
  /-- A pass has started to replace something on the host. -/
  | replaced (kind version : String)
  /-- A candidate that did not confirm was taken back. -/
  | rolledBack (kind version : String)
  | success (kind version : String)
deriving DecidableEq

/-- The attempt file, and what really happened. -/
structure Guard where
  state : AttemptState
  /-- The file can be read and written. -/
  usable : Bool
  history : List Mark

/-- What the environment does in a step: what the programs see at their looks outside the process,
whether the file can be used, and which operations fail. -/
structure Env (Outside : Type) where
  script : List Outside
  usable : Bool
  plan : List Fault

/-- A new call finds the attempt file usable or not. -/
def Guard.enter {Outside : Type} (guard : Guard) (env : Env Outside) : Guard :=
  { guard with usable := env.usable }

def key (kind version : String) : String := kind ++ ":" ++ version

/-- The stored count. -/
def failures (state : AttemptState) (kind version : String) : Nat :=
  ((state.get? (key kind version)).map AttemptEntry.failures).getD 0

/-- One more failure, with `saturating_add` on 32 bits. -/
def addFailure (state : AttemptState) (kind version error : String) : AttemptState :=
  state.set (key kind version) ⟨min (failures state kind version + 1) U32_MAX, some error⟩

/-- One failure fewer for the version, if it has any. -/
def refund_entry (state : AttemptState) (key : String) : AttemptState :=
  match state.get? key with
  | none => state
  | some entry => state.set key { entry with failures := entry.failures - 1 }

section Programs

variable {ε : Type}

/-- An operation on the file, which does not fail while the file is usable. -/
def access {α : Type} (ok fail : Guard → Except ε α × Guard) : Prog ε Guard α :=
  .op ⟨ok, fun g => if g.usable then ok g else fail g, id⟩

/-- A file that cannot be read counts as empty. -/
def read_state : Prog ε Guard AttemptState := access (fun g => (.ok g.state, g)) fun g => (.ok .empty, g)

/-- Renames the new file over the old one and syncs the directory. -/
def write_state (state : AttemptState) (marks : List Mark) : Prog String Guard Unit := do
  access (fun g => (.ok (), { g with state, history := marks ++ g.history })) fun g =>
    (.error "rename: io error", g)
  access (fun g => (.ok (), g)) fun g => (.error "sync directory: io error", g)

/-- The failures of a version that has reached the limit, unless the attempt is forced. -/
def blocked (kind version : String) (force : Bool) : Prog ε Guard (Option Nat) :=
  if force then pure none
  else do
    let state ← read_state
    let failures := failures state kind version
    return if ATTEMPT_LIMIT ≤ failures then some failures else none

/-- Counts an attempt before any of its work. -/
def record_attempt (kind version : String) : Prog String Guard Nat := do
  let state ← read_state
  let state := addFailure state kind version "Attempt started; awaiting boot confirmation"
  write_state state []
  return failures state kind version

/-- Takes back an attempt that never ran. -/
def refund_attempt (kind version : String) : Prog String Guard Unit := do
  let state ← read_state
  write_state (refund_entry state (key kind version)) []

/-- Counts a failure, with its message cut to 1000 characters. -/
def record_failure (kind version err : String) : Prog ε Guard Nat := do
  let state ← read_state
  let state := addFailure state kind version (String.ofList (err.toList.take 1000))
  (write_state state []).orElse fun _ => pure ()
  return failures state kind version

/-- Forgets the version's failures. -/
def record_success (kind version : String) : Prog ε Guard Unit := do
  let state ← read_state
  match state.get? (key kind version) with
  | some _ => (write_state (state.erase (key kind version)) [.success kind version]).orElse fun _ => pure ()
  | none => .note fun g => { g with history := .success kind version :: g.history }

end Programs

/-! ### Counts -/

section Counts

variable {state : AttemptState} {kind kind' version version' error : String}

theorem failures_addFailure_self :
    failures (addFailure state kind version error) kind version = min
    (failures state kind version + 1) U32_MAX := by
  simp [failures, addFailure]

theorem failures_addFailure (hk : key kind' version' ≠ key kind version) :
    failures (addFailure state kind version error) kind' version' = failures state kind' version' := by
  simp [failures, addFailure, OrdMap.get?_set_of_ne hk]

theorem failures_refund_self (state : AttemptState) (kind version : String) :
    failures (refund_entry state (key kind version)) kind version = failures state kind version - 1 := by
  unfold refund_entry
  split
  · next h => simp [failures, h]
  · next entry h => simp [failures, h]

theorem failures_refund (hk : key kind' version' ≠ key kind version) :
    failures (refund_entry state (key kind version)) kind' version' = failures state kind' version' := by
  unfold refund_entry
  split
  · rfl
  · simp [failures, OrdMap.get?_set_of_ne hk]

theorem failures_erase_self : failures (state.erase (key kind version)) kind version = 0 := by
  simp [failures]

theorem failures_erase (hk : key kind' version' ≠ key kind version) :
    failures (state.erase (key kind version)) kind' version' = failures state kind' version' := by
  simp [failures, OrdMap.get?_erase_of_ne hk]

theorem key_inj (h : key kind version = key kind version') : version = version' := by
  have := congrArg String.toList h
  simp only [key, String.toList_append, List.append_assoc] at this
  exact String.toList_inj.1 (List.append_cancel_left (List.append_cancel_left this))

/-- The updates of the operating system and of the app have their own counts. -/
theorem key_kinds : key "os" version ≠ key "firmware" version' := by
  intro h
  have := congrArg String.toList h
  simp [key, String.toList_append] at this

/-- An attempt that is refunded leaves every count as it was. -/
theorem failures_refunded (h : failures state kind version < U32_MAX) :
    failures (refund_entry (addFailure state kind version error) (key kind version)) kind' version' =
      failures state kind' version' := by
  by_cases hk : key kind' version' = key kind version
  · have hself : failures state kind' version' = failures state kind version := by simp [failures, hk]
    have hrefund := failures_refund_self (addFailure state kind version error) kind version
    rw [failures_addFailure_self, Nat.min_eq_left (by omega)] at hrefund
    rw [hself, ← Nat.add_sub_cancel (failures state kind version) 1, ← hrefund]
    simp [failures, hk]
  · rw [failures_refund hk, failures_addFailure hk]

end Counts

/-! ### What the operations do to a usable file -/

/-- The counts and the history of the other kinds are as they were. -/
structure Only (kind : String) (g g' : Guard) : Prop where
  usable : g'.usable = g.usable
  history : ∃ marks, g'.history = marks ++ g.history ∧ ∀ m ∈ marks, ∃ version,
    m = .replaced kind version ∨ m = .rolledBack kind version ∨ m = .success kind version
  counts : ∀ kind' version', (∀ version, key kind' version' ≠ key kind version) →
    failures g'.state kind' version' = failures g.state kind' version'

/-- The success of one version is recorded, and the other counts are as they were. -/
structure Succeeded (kind version : String) (g g' : Guard) : Prop where
  usable : g'.usable = g.usable
  history : g'.history = .success kind version :: g.history
  self : failures g'.state kind version = 0
  others : ∀ kind' version', key kind' version' ≠ key kind version →
    failures g'.state kind' version' = failures g.state kind' version'

section Usable

variable {ε : Type} {kind version : String} {g g' g'' : Guard} {C : Guard → Prop}

theorem Only.refl (kind : String) (g : Guard) : Only kind g g := ⟨rfl, ⟨[], rfl, by simp⟩, fun _ _ _ => rfl⟩

theorem Only.trans (h : Only kind g g') (h' : Only kind g' g'') : Only kind g g'' := by
  obtain ⟨marks, hm, hkind⟩ := h.history
  obtain ⟨marks', hm', hkind'⟩ := h'.history
  refine ⟨h'.usable.trans h.usable, ⟨marks' ++ marks, ?_, ?_⟩, fun k v hk =>
    (h'.counts k v hk).trans (h.counts k v hk)⟩
  · rw [hm', hm, List.append_assoc]
  · intro m hmem
    rcases List.mem_append.1 hmem with hmem | hmem
    · exact hkind' m hmem
    · exact hkind m hmem

theorem Only.mark {m : Mark} (hm : m = .replaced kind version ∨ m = .rolledBack kind version) :
    Only kind g { g with history := m :: g.history } := by
  refine ⟨rfl, ⟨[m], rfl, ?_⟩, fun _ _ _ => rfl⟩
  rintro _ (_ | ⟨_, ⟨⟩⟩)
  exact ⟨version, hm.imp_right .inl⟩

theorem Only.addFailure {error : String} :
    Only kind g { g with state := UpdateGuard.addFailure g.state kind version error } :=
  ⟨rfl, ⟨[], rfl, by simp⟩, fun _ _ hk => failures_addFailure (hk version)⟩

theorem Only.refund : Only kind g { g with state := refund_entry g.state (key kind version) } :=
  ⟨rfl, ⟨[], rfl, by simp⟩, fun _ _ hk => failures_refund (hk version)⟩

theorem Succeeded.only (h : Succeeded kind version g g') : Only kind g g' := by
  refine ⟨h.usable, ⟨[.success kind version], h.history, ?_⟩, fun k v hk => h.others k v (hk version)⟩
  rintro _ (_ | ⟨_, ⟨⟩⟩)
  exact ⟨version, .inr (.inr rfl)⟩

theorem wp_access {α : Type} {ok fail : Guard → Except ε α × Guard} {Q : α → Guard → Prop}
    {E : ε → Guard → Prop}
    (hu : g.usable = true) (hok : Result Q E (ok g)) (hC : C g) : wp C (access ok fail) Q E g := by
  refine wp_op hok ?_ hC hC
  show Result Q E (if g.usable then ok g else fail g)
  rw [if_pos hu]
  exact hok

theorem wp_read_state {Q : AttemptState → Guard → Prop} {E : ε → Guard → Prop} (hu : g.usable = true)
    (hQ : Q g.state g) (hC : C g) : wp C read_state Q E g :=
  wp_access hu hQ hC

theorem wp_write_state {state : AttemptState} {marks : List Mark} {Q : Unit → Guard → Prop}
    {E : String → Guard → Prop}
    (hu : g.usable = true) (hQ : Q () { g with state, history := marks ++ g.history }) (hC : C g)
    (hC' : C { g with state, history := marks ++ g.history }) : wp C (write_state state marks) Q E g :=
  wp_bind (wp_access hu (wp_access hu hQ hC') hC)

theorem wp_blocked {force : Bool} {Q : Option Nat → Guard → Prop} {E : ε → Guard → Prop}
    (hu : g.usable = true)
    (hQ : ∀ n, (n = none → force = false → failures g.state kind version < ATTEMPT_LIMIT) → Q n g)
    (hC : C g) :
    wp C (blocked kind version force) Q E g := by
  unfold blocked
  split
  · next h => exact wp_pure (hQ _ fun _ hf => by simp [h] at hf)
  · refine wp_bind (wp_read_state hu (wp_pure (hQ _ fun hn _ => ?_)) hC)
    split at hn
    · cases hn
    · omega

theorem wp_record_attempt {Q : Nat → Guard → Prop} {E : String → Guard → Prop} (hu : g.usable = true)
    (hC : C g) (h : ∀ error, C { g with state := addFailure g.state kind version error } ∧
      ∀ n, Q n { g with state := addFailure g.state kind version error }) :
    wp C (record_attempt kind version) Q E g := by
  refine wp_bind (wp_read_state hu ?_ hC)
  exact wp_bind (wp_write_state hu (wp_pure ((h _).2 _)) hC (h _).1)

theorem wp_refund_attempt {Q : Unit → Guard → Prop} {E : String → Guard → Prop} (hu : g.usable = true)
    (hC : C g) (hC' : C { g with state := refund_entry g.state (key kind version) })
    (hQ : Q () { g with state := refund_entry g.state (key kind version) }) :
    wp C (refund_attempt kind version) Q E g :=
  wp_bind (wp_read_state hu (wp_write_state hu hQ hC hC') hC)

theorem wp_record_failure {err : String} {Q : Nat → Guard → Prop} {E : ε → Guard → Prop}
    (hu : g.usable = true)
    (hC : C g) (h : ∀ error, C { g with state := addFailure g.state kind version error } ∧
      ∀ n, Q n { g with state := addFailure g.state kind version error }) :
    wp C (record_failure kind version err) Q E g := by
  refine wp_bind (wp_read_state hu ?_ hC)
  exact wp_bind (wp_orElse (wp_write_state hu (wp_pure ((h _).2 _)) hC (h _).1))

theorem wp_record_success {Q : Unit → Guard → Prop} {E : ε → Guard → Prop} (hu : g.usable = true) (hC : C g)
    (h : ∀ g', Succeeded kind version g g' → C g' ∧ Q () g') : wp C (record_success kind version) Q E g := by
  refine wp_bind (wp_read_state hu ?_ hC)
  split
  · have hs : Succeeded kind version g
        { g with state := g.state.erase (key kind version), history := .success kind version :: g.history } :=
      ⟨rfl, rfl, failures_erase_self, fun _ _ => failures_erase⟩
    exact wp_orElse (wp_write_state hu (h _ hs).2 hC (h _ hs).1)
  · next hnone =>
    have hs : Succeeded kind version g { g with history := .success kind version :: g.history } :=
      ⟨rfl, rfl, by simp [failures, hnone], fun _ _ _ => rfl⟩
    exact wp_note (h _ hs).2 hC

end Usable

/-! ### What the history says -/

/-- The marks after the version's last success. -/
def sinceSuccess (kind version : String) (history : List Mark) : List Mark :=
  history.takeWhile (· ≠ .success kind version)

/-- The passes that started to replace something since the last recorded success. -/
def replaced (kind version : String) (history : List Mark) : Nat :=
  (sinceSuccess kind version history).count (.replaced kind version)

/-- The rollbacks of the version since its last success. -/
def rolledBack (kind version : String) (history : List Mark) : Nat :=
  (sinceSuccess kind version history).count (.rolledBack kind version)

/-- Whenever a pass started to replace something, fewer than three had since the last recorded success. -/
def Limited (kind : String) : List Mark → Prop
  | [] => True
  | m :: history => (∀ version, m = .replaced kind version → replaced kind version history < ATTEMPT_LIMIT) ∧
    Limited kind history

section History

variable {kind kind' version version' : String} {history older : List Mark} {m : Mark}

theorem sinceSuccess_success : sinceSuccess kind version (.success kind version :: history) = [] := by
  simp [sinceSuccess]

theorem sinceSuccess_cons (h : m ≠ .success kind version) :
    sinceSuccess kind version (m :: history) = m :: sinceSuccess kind version history := by
  simp [sinceSuccess, h]

theorem replaced_success : replaced kind version (.success kind version :: history) = 0 := by
  rw [replaced, sinceSuccess_success, List.count_nil]

theorem replaced_self :
    replaced kind version (.replaced kind version :: history) = replaced kind version history + 1 := by
  rw [replaced, sinceSuccess_cons (by simp), List.count_cons_self, replaced]

theorem replaced_cons (hs : m ≠ .success kind version) (hr : m ≠ .replaced kind version) :
    replaced kind version (m :: history) = replaced kind version history := by
  rw [replaced, sinceSuccess_cons hs, List.count_cons_of_ne hr, replaced]

theorem rolledBack_success : rolledBack kind version (.success kind version :: history) = 0 := by
  rw [rolledBack, sinceSuccess_success, List.count_nil]

theorem rolledBack_self :
    rolledBack kind version (.rolledBack kind version :: history) = rolledBack kind version history + 1 := by
  rw [rolledBack, sinceSuccess_cons (by simp), List.count_cons_self, rolledBack]

theorem rolledBack_cons (hs : m ≠ .success kind version) (hr : m ≠ .rolledBack kind version) :
    rolledBack kind version (m :: history) = rolledBack kind version history := by
  rw [rolledBack, sinceSuccess_cons hs, List.count_cons_of_ne hr, rolledBack]

/-- Between two recorded successes. -/
theorem Limited.count_le {marks : List Mark} (h : Limited kind (marks ++ older))
    (hs : .success kind version ∉ marks) :
    marks.count (.replaced kind version) ≤ ATTEMPT_LIMIT := by
  induction marks with
  | nil => exact Nat.zero_le _
  | cons m marks ih =>
    rw [List.mem_cons, not_or] at hs
    obtain ⟨-, hmarks⟩ := hs
    by_cases hr : m = .replaced kind version
    · have hlt : replaced kind version (marks ++ older) < ATTEMPT_LIMIT := h.1 version hr
      have hle : marks.count (.replaced kind version) ≤ replaced kind version (marks ++ older) := by
        unfold replaced sinceSuccess
        have hne : ∀ m' ∈ marks, decide (m' ≠ .success kind version) = true := fun m' hm' =>
          decide_eq_true fun he => hmarks (he ▸ hm')
        rw [List.takeWhile_append_of_pos hne, List.count_append]
        exact Nat.le_add_right _ _
      rw [hr, List.count_cons_self]
      omega
    · rw [List.count_cons_of_ne hr]
      exact ih h.2 hmarks

theorem Limited.replaced_le (h : Limited kind history) : replaced kind version history ≤ ATTEMPT_LIMIT := by
  have hsplit : sinceSuccess kind version history ++
      history.dropWhile (· ≠ .success kind version) = history :=
    List.takeWhile_append_dropWhile
  rw [← hsplit] at h
  refine h.count_le fun hmem => ?_
  have := List.mem_takeWhile_imp hmem
  simp at this

theorem Limited.suffix {newer : List Mark} (h : Limited kind (newer ++ older)) : Limited kind older := by
  induction newer with
  | nil => exact h
  | cons m newer ih => exact ih h.2

theorem Limited.append {marks : List Mark} (h : Limited kind history)
    (hm : ∀ m ∈ marks, ∀ version, m ≠ .replaced kind version) : Limited kind (marks ++ history) := by
  induction marks with
  | nil => exact h
  | cons m marks ih =>
    refine ⟨fun version hv => absurd hv (hm m (List.mem_cons_self ..) version), ih fun m' hm' => ?_⟩
    exact hm m' (List.mem_cons_of_mem _ hm')

/-- Another kind's passes leave those of this kind as they were. -/
theorem Only.counted {g g' : Guard} (h : Only kind' g g') (hne : kind ≠ kind') (version : String) :
    replaced kind version g'.history = replaced kind version g.history ∧
      rolledBack kind version g'.history = rolledBack kind version g.history := by
  obtain ⟨marks, hm, hkind⟩ := h.history
  rw [hm]
  clear hm
  induction marks with
  | nil => exact ⟨rfl, rfl⟩
  | cons m marks ih =>
    have hrest := ih fun m' hm' => hkind m' (List.mem_cons_of_mem _ hm')
    have hm : m ≠ .success kind version ∧ m ≠ .replaced kind version ∧ m ≠ .rolledBack kind version := by
      obtain ⟨version', rfl | rfl | rfl⟩ := hkind m (List.mem_cons_self ..) <;> simp [hne.symm]
    rw [List.cons_append, replaced_cons hm.1 hm.2.1, rolledBack_cons hm.1 hm.2.2]
    exact hrest

theorem Only.limited {g g' : Guard} (h : Only kind' g g') (hne : kind ≠ kind') (hl : Limited kind g.history) :
    Limited kind g'.history := by
  obtain ⟨marks, hm, hkind⟩ := h.history
  rw [hm]
  refine hl.append fun m hmem version => ?_
  obtain ⟨version', rfl | rfl | rfl⟩ := hkind m hmem <;> simp [hne.symm]

end History

/-! ### The count covers the passes -/

/-- The counts of a kind are at least the passes since the last recorded success, which are at most three. -/
structure Covers (kind : String) (g : Guard) : Prop where
  usable : g.usable = true
  limited : Limited kind g.history
  count : ∀ version, replaced kind version g.history ≤ failures g.state kind version

section Covers

variable {kind version : String} {g g' : Guard}

/-- Another kind's marks and counts. -/
theorem Covers.only {kind' : String} (h : Covers kind g) (ho : Only kind' g g') (hne : kind ≠ kind')
    (hkeys : ∀ version version', key kind version ≠ key kind' version') : Covers kind g' := by
  refine ⟨ho.usable.trans h.usable, ho.limited hne h.limited, fun version => ?_⟩
  rw [ho.counts kind version (hkeys version), (ho.counted hne version).1]
  exact h.count version

theorem Covers.addFailure {error : String} (h : Covers kind g) :
    Covers kind { g with state := UpdateGuard.addFailure g.state kind version error } := by
  refine ⟨h.usable, h.limited, fun version' => ?_⟩
  have hcount := h.count version'
  have hle : replaced kind version' g.history ≤ ATTEMPT_LIMIT := h.limited.replaced_le
  by_cases hv : version' = version
  · subst hv
    have hmax : ATTEMPT_LIMIT ≤ U32_MAX := by decide
    show _ ≤ failures (UpdateGuard.addFailure g.state kind version' error) kind version'
    rw [failures_addFailure_self]
    show replaced kind version' g.history ≤ _
    omega
  · show _ ≤ failures (UpdateGuard.addFailure g.state kind version error) kind version'
    rw [failures_addFailure fun hk => hv (key_inj hk)]
    exact hcount

theorem Covers.refund (h : Covers kind g)
    (hreserved : replaced kind version g.history < failures g.state kind version) :
    Covers kind { g with state := refund_entry g.state (key kind version) } := by
  refine ⟨h.usable, h.limited, fun version' => ?_⟩
  by_cases hv : version' = version
  · subst hv
    show replaced kind version' g.history ≤ failures (refund_entry g.state (key kind version')) kind version'
    rw [failures_refund_self]
    omega
  · show _ ≤ failures (refund_entry g.state (key kind version)) kind version'
    rw [failures_refund fun hk => hv (key_inj hk)]
    exact h.count version'

theorem Covers.replaced (h : Covers kind g)
    (hreserved : replaced kind version g.history < failures g.state kind version)
    (hlimit : UpdateGuard.replaced kind version g.history < ATTEMPT_LIMIT) :
    Covers kind { g with history := .replaced kind version :: g.history } := by
  refine ⟨h.usable, ⟨fun version' hm => ?_, h.limited⟩, fun version' => ?_⟩
  · cases hm
    exact hlimit
  · by_cases hv : version' = version
    · subst hv
      show UpdateGuard.replaced kind version' (.replaced kind version' :: g.history) ≤ _
      rw [replaced_self]
      exact hreserved
    · show UpdateGuard.replaced kind version' (.replaced kind version :: g.history) ≤ _
      rw [replaced_cons (by simp) (by simpa using Ne.symm hv)]
      exact h.count version'

theorem Covers.success (h : Covers kind g) (hs : Succeeded kind version g g') : Covers kind g' := by
  refine ⟨hs.usable.trans h.usable, ?_, fun version' => ?_⟩
  · rw [hs.history]
    exact ⟨fun _ hm => (by cases hm), h.limited⟩
  · rw [hs.history]
    by_cases hv : version' = version
    · subst hv
      rw [replaced_success]
      exact Nat.zero_le _
    · rw [replaced_cons (by simpa using Ne.symm hv) (by simp), hs.others kind version' fun hk =>
        hv (key_inj hk)]
      exact h.count version'

end Covers

end UpdateGuard
