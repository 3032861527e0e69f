import Mathlib

/-!
# Insertion-ordered finite maps

The keys of an `OrdMap` are distinct and stand in the order in which they were first inserted, which
is the iteration order of a JavaScript `Map`. Setting a present key keeps its place.
-/

/-- A finite map that remembers the order of insertion. -/
structure OrdMap (κ ν : Type*) where
  entries : List (κ × ν)
  nodup : (entries.map Prod.fst).Nodup
deriving DecidableEq

namespace OrdMap

variable {κ ν : Type*}

@[ext] theorem ext_entries {m m' : OrdMap κ ν} (h : m.entries = m'.entries) : m = m' := by
  cases m; cases m'; cases h; rfl

def empty : OrdMap κ ν := ⟨[], List.nodup_nil⟩

def size (m : OrdMap κ ν) : Nat := m.entries.length

/-- Deletes the entries for which `p` fails. -/
def filter (m : OrdMap κ ν) (p : κ → ν → Bool) : OrdMap κ ν where
  entries := m.entries.filter fun e => p e.1 e.2
  nodup := m.nodup.sublist (List.filter_sublist.map _)

/-- Deletes the first entry again and again until at most `n` are left. -/
def dropOldest (m : OrdMap κ ν) (n : Nat) : OrdMap κ ν where
  entries := m.entries.drop (m.entries.length - n)
  nodup := m.nodup.sublist ((List.drop_sublist ..).map _)

variable {m : OrdMap κ ν}

theorem size_dropOldest {n : Nat} : (m.dropOldest n).size ≤ n := by
  show (m.entries.drop (m.entries.length - n)).length ≤ n
  rw [List.length_drop]
  omega

theorem mem_dropOldest {n : Nat} {e : κ × ν} (h : e ∈ (m.dropOldest n).entries) : e ∈ m.entries :=
  List.mem_of_mem_drop h

/-- An entry stays as long as fewer than `n` entries have come after it. -/
theorem dropOldest_keeps {n : Nat} {e : κ × ν} {l₁ l₂ : List (κ × ν)} (h : m.entries = l₁ ++ e :: l₂)
    (hn : l₂.length < n) : ∃ l, (m.dropOldest n).entries = l ++ e :: l₂ := by
  refine ⟨l₁.drop (m.entries.length - n), ?_⟩
  show m.entries.drop _ = _
  have hle : m.entries.length - n ≤ l₁.length := by
    rw [h, List.length_append, List.length_cons]
    omega
  generalize m.entries.length - n = d at hle
  rw [h, List.drop_append_of_le_length hle]

variable [DecidableEq κ] {k k' : κ} {v v' : ν}

def get? (m : OrdMap κ ν) (k : κ) : Option ν := (m.entries.find? fun e => e.1 = k).map Prod.snd

def contains (m : OrdMap κ ν) (k : κ) : Bool := (m.get? k).isSome

/-- The entries of `l` with the value of the key `k`, where it has one, replaced by `v`. -/
def replace (k : κ) (v : ν) (l : List (κ × ν)) : List (κ × ν) := l.map fun e => if e.1 = k then (k, v) else e

theorem replace_keys {l : List (κ × ν)} : (replace k v l).map Prod.fst = l.map Prod.fst := by
  simp only [replace, List.map_map]
  refine List.map_congr_left fun e _ => ?_
  by_cases h : e.1 = k <;> simp [h]

/-- A key already there keeps its place, a new one comes last. -/
def set (m : OrdMap κ ν) (k : κ) (v : ν) : OrdMap κ ν :=
  if h : k ∈ m.entries.map Prod.fst then ⟨replace k v m.entries, by rw [replace_keys]; exact m.nodup⟩
  else ⟨m.entries ++ [(k, v)], by
    rw [List.map_append, List.nodup_append]
    refine ⟨m.nodup, by simp, ?_⟩
    rintro a ha b hb rfl
    simp only [List.map_cons, List.map_nil, List.mem_singleton] at hb
    exact h (hb ▸ ha)⟩

def erase (m : OrdMap κ ν) (k : κ) : OrdMap κ ν := m.filter fun k' _ => k' ≠ k

@[simp] theorem get?_empty : (empty : OrdMap κ ν).get? k = none := rfl

theorem get?_eq_some : m.get? k = some v ↔ (k, v) ∈ m.entries := by
  obtain ⟨l, hl⟩ := m
  simp only [get?]
  induction l with
  | nil => simp
  | cons e l ih =>
    obtain ⟨hnot, hl⟩ := List.nodup_cons.1 hl
    by_cases he : e.1 = k
    · have hk : (k, v) ∉ l := fun h => hnot (List.mem_map.2 ⟨_, h, he.symm⟩)
      subst he
      simp [hk, Prod.ext_iff, eq_comm]
    · have hne : (k, v) ≠ e := fun h => he (h ▸ rfl)
      simp [he, ih hl, hne]

theorem get?_eq_none : m.get? k = none ↔ ∀ v, (k, v) ∉ m.entries := by
  rw [Option.eq_none_iff_forall_ne_some]
  exact forall_congr' fun v => not_congr get?_eq_some

theorem get?_filter {p : κ → ν → Bool} : (m.filter p).get? k = some v ↔ m.get? k = some v ∧ p k v := by
  simp [get?_eq_some, filter, List.mem_filter]

@[simp] theorem get?_set_self : (m.set k v).get? k = some v := by
  rw [get?_eq_some]
  by_cases h : k ∈ m.entries.map Prod.fst
  · obtain ⟨e, he, rfl⟩ := List.mem_map.1 h
    simp only [set, h, dif_pos, replace]
    exact List.mem_map.2 ⟨e, he, by simp⟩
  · simp [set, h]

theorem get?_set_of_ne (hk : k' ≠ k) : (m.set k v).get? k' = m.get? k' := by
  refine Option.ext fun w => ?_
  rw [get?_eq_some, get?_eq_some]
  by_cases h : k ∈ m.entries.map Prod.fst
  · simp only [set, h, dif_pos, replace, List.mem_map]
    constructor
    · rintro ⟨e, he, heq⟩
      by_cases hek : e.1 = k
      · rw [if_pos hek] at heq
        exact absurd (congrArg Prod.fst heq).symm hk
      · rw [if_neg hek] at heq
        exact heq ▸ he
    · exact fun he => ⟨_, he, by simp [hk]⟩
  · simp [set, h, hk]

theorem get?_set : (m.set k v).get? k' = if k' = k then some v else m.get? k' := by
  split
  · next h => rw [h, get?_set_self]
  · next h => exact get?_set_of_ne h

@[simp] theorem get?_erase_self : (m.erase k).get? k = none := by
  rw [get?_eq_none]
  intro v
  simp [erase, filter, List.mem_filter]

theorem get?_erase_of_ne (hk : k' ≠ k) : (m.erase k).get? k' = m.get? k' := by
  refine Option.ext fun w => ?_
  rw [erase, get?_filter]
  simp [hk]

theorem entries_set_of_none (h : m.get? k = none) : (m.set k v).entries = m.entries ++ [(k, v)] := by
  have hk : k ∉ m.entries.map Prod.fst := by
    intro hk
    obtain ⟨e, he, rfl⟩ := List.mem_map.1 hk
    exact get?_eq_none.1 h e.2 he
  simp [set, hk]

/-! ### Sums over the values -/

section Sum

variable {f : ν → Nat}

/-- The sum of `f` over the values. -/
def sum (m : OrdMap κ ν) (f : ν → Nat) : Nat := (m.entries.map fun e => f e.2).sum

omit [DecidableEq κ] in
theorem sum_one : m.sum (fun _ => 1) = m.size := by
  simp [sum, size]

theorem sum_replace_of_not_mem {l : List (κ × ν)} (h : k ∉ l.map Prod.fst) : replace k v l = l := by
  unfold replace
  refine (List.map_congr_left fun e he => ?_).trans (List.map_id l)
  exact if_neg fun hk => h (List.mem_map.2 ⟨e, he, hk⟩)

theorem sum_replace {l : List (κ × ν)} {w : ν} (hnodup : (l.map Prod.fst).Nodup) (h : (k, w) ∈ l) :
    ((replace k v l).map fun e => f e.2).sum + f w = (l.map fun e => f e.2).sum + f v := by
  induction l with
  | nil => cases h
  | cons e l ih =>
    obtain ⟨hnot, hnodup⟩ := List.nodup_cons.1 hnodup
    have hcons : replace k v (e :: l) = (if e.1 = k then (k, v) else e) :: replace k v l := rfl
    rw [hcons]
    rcases List.mem_cons.1 h with rfl | h
    · rw [if_pos rfl, sum_replace_of_not_mem hnot]
      simp only [List.map_cons, List.sum_cons]
      omega
    · have hne : e.1 ≠ k := fun he => hnot (List.mem_map.2 ⟨_, h, he.symm⟩)
      rw [if_neg hne]
      simp only [List.map_cons, List.sum_cons]
      have := ih hnodup h
      omega

theorem sum_filter_ne {l : List (κ × ν)} {w : ν} (hnodup : (l.map Prod.fst).Nodup) (h : (k, w) ∈ l) :
    ((l.filter fun e => e.1 ≠ k).map fun e => f e.2).sum + f w = (l.map fun e => f e.2).sum := by
  induction l with
  | nil => cases h
  | cons e l ih =>
    obtain ⟨hnot, hnodup⟩ := List.nodup_cons.1 hnodup
    rcases List.mem_cons.1 h with rfl | h
    · have hrest : l.filter (fun e => e.1 ≠ k) = l := by
        refine List.filter_eq_self.2 fun e he => ?_
        have hne : e.1 ≠ k := fun hk => hnot (List.mem_map.2 ⟨e, he, hk⟩)
        simpa using hne
      rw [List.filter_cons_of_neg (by simp), hrest]
      simp only [List.map_cons, List.sum_cons]
      omega
    · have hne : e.1 ≠ k := fun he => hnot (List.mem_map.2 ⟨_, h, he.symm⟩)
      rw [List.filter_cons_of_pos (by simpa using hne)]
      simp only [List.map_cons, List.sum_cons]
      have := ih hnodup h
      omega

theorem sum_set : (m.set k v).sum f + (m.get? k).elim 0 f = m.sum f + f v := by
  cases h : m.get? k with
  | none =>
    rw [sum, entries_set_of_none h, sum]
    simp
  | some w =>
    have hmem := get?_eq_some.1 h
    have hk : k ∈ m.entries.map Prod.fst := List.mem_map.2 ⟨_, hmem, rfl⟩
    have hentries : (m.set k v).entries = replace k v m.entries := by simp [set, hk]
    rw [sum, hentries]
    exact sum_replace m.nodup hmem

theorem sum_erase : (m.erase k).sum f + (m.get? k).elim 0 f = m.sum f := by
  cases h : m.get? k with
  | none =>
    have hsame : (m.erase k).entries = m.entries := by
      refine List.filter_eq_self.2 fun e he => ?_
      have hne : e.1 ≠ k := fun hk => get?_eq_none.1 h e.2 (hk ▸ he)
      simpa using hne
    rw [sum, hsame]
    rfl
  | some w => exact sum_filter_ne m.nodup (get?_eq_some.1 h)

end Sum

end OrdMap
