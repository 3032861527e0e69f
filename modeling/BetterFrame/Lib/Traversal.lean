import Mathlib.Data.List.Forall2
import Mathlib.Data.Option.Basic

/-!
# Traversals

A `Traversal α γ` finds the parts of type `γ` of a value, in order, and applies a function to all of
them. Values that one function makes equal have parts that correspond, and another function makes
the values equal if and only if it makes the corresponding parts equal
(`mapParts_eq_iff_of_mapParts_eq`).
-/

/-- `Alike` values differ in their parts only. -/
structure Traversal (α γ : Type*) where
  mapParts : (γ → γ) → α → α
  parts : α → List γ
  Alike : α → α → Prop
  length_parts : ∀ a b, Alike a b → (parts a).length = (parts b).length
  mapParts_eq_iff : ∀ f a b, mapParts f a = mapParts f b ↔ Alike a b ∧ (parts a).map f = (parts b).map f

namespace Traversal

variable {α β γ : Type*}

theorem map_eq_iff_zip {f : γ → γ} {xs ys : List γ} (h : xs.length = ys.length) :
    xs.map f = ys.map f ↔ ∀ p ∈ xs.zip ys, f p.1 = f p.2 := by
  induction xs generalizing ys with
  | nil =>
    obtain rfl := List.length_eq_zero_iff.1 h.symm
    simp
  | cons x xs ih =>
    cases ys with
    | nil => cases h
    | cons y ys => simp [ih (Nat.succ.inj h)]

theorem mapParts_eq_iff_of_mapParts_eq (t : Traversal α γ) {f g : γ → γ} {a b : α}
    (h : t.mapParts f a = t.mapParts f b) :
    t.mapParts g a = t.mapParts g b ↔ ∀ p ∈ (t.parts a).zip (t.parts b), g p.1 = g p.2 := by
  have halike := ((t.mapParts_eq_iff f a b).1 h).1
  rw [t.mapParts_eq_iff g a b, ← map_eq_iff_zip (t.length_parts a b halike)]
  exact and_iff_right halike

/-- The parts that correspond are equal after `f`. -/
theorem eq_of_mem_zip (t : Traversal α γ) {f : γ → γ} {a b : α} (h : t.mapParts f a = t.mapParts f b) :
    ∀ p ∈ (t.parts a).zip (t.parts b), f p.1 = f p.2 := (t.mapParts_eq_iff_of_mapParts_eq h).1 h

/-- A value is its own part. -/
def self : Traversal γ γ where
  mapParts f a := f a
  parts a := [a]
  Alike _ _ := True
  length_parts _ _ _ := rfl
  mapParts_eq_iff f a b := by simp

/-- The parts of what a value holds in one place. -/
def field (t : Traversal α γ) (get : β → α) (set : α → β → β) (get_set : ∀ a b, get (set a b) = a)
    (set_set : ∀ a a' b, set a (set a' b) = set a b) : Traversal β γ where
  mapParts f b := set (t.mapParts f (get b)) b
  parts b := t.parts (get b)
  Alike b c := t.Alike (get b) (get c) ∧ ∀ a, set a b = set a c
  length_parts b c h := t.length_parts _ _ h.1
  mapParts_eq_iff f b c := by
    rw [and_right_comm, ← t.mapParts_eq_iff]
    constructor
    · intro h
      refine ⟨by simpa [get_set] using congrArg get h, fun a => ?_⟩
      simpa [set_set] using congrArg (set a) h
    · rintro ⟨hover, hset⟩
      rw [hover, hset]

/-- The elements of a list. -/
def list (t : Traversal α γ) : Traversal (List α) γ where
  mapParts f as := as.map (t.mapParts f)
  parts as := as.flatMap t.parts
  Alike := List.Forall₂ t.Alike
  length_parts as bs h := by
    induction h with
    | nil => rfl
    | cons hab _ ih => simp only [List.flatMap_cons, List.length_append, t.length_parts _ _ hab, ih]
  mapParts_eq_iff f as bs := by
    induction as generalizing bs with
    | nil => cases bs <;> simp
    | cons a as ih =>
      cases bs with
      | nil => simp
      | cons b bs =>
        simp only [List.map_cons, List.cons.injEq, ih, t.mapParts_eq_iff, List.forall₂_cons,
          List.flatMap_cons, List.map_append]
        constructor
        · rintro ⟨⟨hab, hparts⟩, hrest, hmap⟩
          exact ⟨⟨hab, hrest⟩, by rw [hparts, hmap]⟩
        · rintro ⟨⟨hab, hrest⟩, hmap⟩
          obtain ⟨hparts, hmap⟩ := List.append_inj hmap (by simpa using t.length_parts a b hab)
          exact ⟨⟨hab, hparts⟩, hrest, hmap⟩

/-- The value, when there is one. -/
def option (t : Traversal α γ) : Traversal (Option α) γ where
  mapParts f a := a.map (t.mapParts f)
  parts a := a.toList.flatMap t.parts
  Alike a b := List.Forall₂ t.Alike a.toList b.toList
  length_parts a b h := t.list.length_parts _ _ h
  mapParts_eq_iff f a b := by
    have hlist : a.map (t.mapParts f) = b.map (t.mapParts f) ↔
        a.toList.map (t.mapParts f) = b.toList.map (t.mapParts f) := by
      cases a <;> cases b <;> simp
    exact hlist.trans (t.list.mapParts_eq_iff f a.toList b.toList)

end Traversal
