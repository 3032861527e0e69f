import Mathlib.Data.List.Basic
import Mathlib.Data.Bool.AllAny

/-!
# Sessions that share a store and take locks

A session's state says which locks it holds. `Exclusive` is the invariant of a lock manager: no lock
has two holders. It is kept when a session goes to a state that holds only locks it had or that no
other session had (`Exclusive.set`). `All` is what every session knows of the store; it is kept by a
step of one session that the others' knowledge survives (`All.set`), which is where their locks are
used (`Exclusive.free`).
-/

namespace Sessions

variable {σ L : Type} [DecidableEq L] {locks : σ → List L} {ss : List σ} {i j : Nat} {c c' : σ} {l : L}

/-- The locks of the session `i`. -/
def lockedBy (locks : σ → List L) (ss : List σ) (i : Nat) : List L := (ss[i]?).elim [] locks

/-- Whether a session other than `i` holds the lock. -/
def held (locks : σ → List L) (ss : List σ) (i : Nat) (l : L) : Bool :=
  (List.range ss.length).any fun j => j ≠ i && l ∈ lockedBy locks ss j

/-- No two sessions hold the same lock. -/
def Exclusive (locks : σ → List L) (ss : List σ) : Prop :=
  ∀ i j l, l ∈ lockedBy locks ss i → l ∈ lockedBy locks ss j → i = j

/-- `P` holds of every session. -/
def All (P : σ → Prop) (ss : List σ) : Prop := ∀ (i : Nat) (c : σ), ss[i]? = some c → P c

omit [DecidableEq L] in
theorem lockedBy_eq (locks : σ → List L) (h : ss[i]? = some c) : lockedBy locks ss i = locks c := by
  simp [lockedBy, h]

omit [DecidableEq L] in
theorem lockedBy_set (hi : i < ss.length) :
    lockedBy locks (ss.set i c') j = if i = j then locks c' else lockedBy locks ss j := by
  unfold lockedBy
  rcases eq_or_ne i j with rfl | hne
  · simp [hi]
  · simp [List.getElem?_set_ne hne, hne]

omit [DecidableEq L] in
theorem mem_lockedBy (h : l ∈ lockedBy locks ss j) : ∃ c, ss[j]? = some c ∧ l ∈ locks c := by
  unfold lockedBy at h
  rcases hc : ss[j]? with _ | c
  · simp [hc] at h
  · exact ⟨c, rfl, by simpa [hc] using h⟩

theorem held_iff : held locks ss i l = true ↔ ∃ j, j ≠ i ∧ l ∈ lockedBy locks ss j := by
  simp only [held, List.any_eq_true, List.mem_range, Bool.and_eq_true, decide_eq_true_eq]
  constructor
  · rintro ⟨j, -, hne, hl⟩
    exact ⟨j, hne, hl⟩
  · rintro ⟨j, hne, hl⟩
    obtain ⟨c, hc, -⟩ := mem_lockedBy hl
    exact ⟨j, (List.getElem?_eq_some_iff.1 hc).1, hne, hl⟩

omit [DecidableEq L] in
/-- What a session has locked no other session has. -/
theorem Exclusive.free (h : Exclusive locks ss) (hi : ss[i]? = some c) (hl : l ∈ locks c)
    (hne : j ≠ i) (hj : ss[j]? = some c') :
    l ∉ locks c' := by
  intro hl'
  exact hne (h j i l (lockedBy_eq locks hj ▸ hl') (lockedBy_eq locks hi ▸ hl))

theorem Exclusive.set (h : Exclusive locks ss) (hi : ss[i]? = some c)
    (hnew : ∀ l ∈ locks c', l ∈ locks c ∨ held locks ss i l = false) : Exclusive locks (ss.set i c') := by
  have hlt := (List.getElem?_eq_some_iff.1 hi).1
  have hfree : ∀ j l, l ∈ locks c' → l ∈ lockedBy locks ss j → i = j := by
    intro j l hl hj
    rcases hnew l hl with hold | hfree
    · exact h i j l (lockedBy_eq locks hi ▸ hold) hj
    · by_contra hne
      exact absurd (held_iff.2 ⟨j, Ne.symm hne, hj⟩) (by simp [hfree])
  intro j k l hj hk
  rw [lockedBy_set hlt] at hj hk
  split at hj <;> split at hk
  · omega
  · rename_i hij _
    exact hij ▸ hfree k l hj hk
  · rename_i _ hik
    exact hik ▸ (hfree j l hk hj).symm
  · exact h j k l hj hk

omit [DecidableEq L] in
theorem lockedBy_append (hc : locks c = []) : lockedBy locks (ss ++ [c]) i = lockedBy locks ss i := by
  unfold lockedBy
  rcases Nat.lt_trichotomy i ss.length with hlt | rfl | hgt
  · rw [List.getElem?_append_left hlt]
  · simp [hc]
  · rw [List.getElem?_eq_none (by simp; omega), List.getElem?_eq_none (by omega)]

omit [DecidableEq L] in
theorem Exclusive.append (h : Exclusive locks ss) (hc : locks c = []) : Exclusive locks (ss ++ [c]) := by
  intro i j l hi hj
  rw [lockedBy_append hc] at hi hj
  exact h i j l hi hj

theorem All.set {P Q : σ → Prop} (h : All P ss) (hi : Q c')
    (hkeep : ∀ j c, j ≠ i → ss[j]? = some c → P c → Q c) :
    All Q (ss.set i c') := by
  intro j c hj
  rcases eq_or_ne i j with rfl | hne
  · rw [List.getElem?_set_self'] at hj
    obtain ⟨-, -, rfl⟩ := Option.map_eq_some_iff.1 hj
    exact hi
  · rw [List.getElem?_set_ne hne] at hj
    exact hkeep j c hne.symm hj (h j c hj)

theorem All.append {P : σ → Prop} (h : All P ss) (hc : P c) : All P (ss ++ [c]) := by
  intro j d hj
  rcases Nat.lt_trichotomy j ss.length with hlt | rfl | hgt
  · exact h j d (by rwa [List.getElem?_append_left hlt] at hj)
  · simp only [List.getElem?_concat_length, Option.some.injEq] at hj
    exact hj ▸ hc
  · rw [List.getElem?_eq_none (by simp; omega)] at hj
    cases hj

theorem All.mono {P Q : σ → Prop} (h : All P ss)
    (hkeep : ∀ (j : Nat) (c : σ), ss[j]? = some c → P c → Q c) : All Q ss :=
  fun j c hj => hkeep j c hj (h j c hj)

end Sessions
