import Mathlib.Data.List.Basic

/-!
# Rolling queues

A queue that keeps the last `n` of what it is given. `Outnumbered n history x` says that at least
`n` entries came after `x`: what such a queue may have given up.
-/

namespace Rolling

variable {α : Type*} {n : Nat} {history queue rest : List α} {x y : α}

/-- The last `n`. -/
def trim (n : Nat) (queue : List α) : List α := queue.drop (queue.length - n)

/-- `x` comes in, the oldest goes where there are `n` already. -/
def push (n : Nat) (queue : List α) (x : α) : List α :=
  (if n ≤ queue.length then queue.tail else queue) ++ [x]

/-- At least `n` entries came after this one. -/
def Outnumbered (n : Nat) (history : List α) (x : α) : Prop :=
  ∃ before after, history = before ++ x :: after ∧ n ≤ after.length

theorem trim_sublist : (trim n queue).Sublist queue := List.drop_sublist _ queue

theorem length_trim_le : (trim n queue).length ≤ n := by
  simp only [trim, List.length_drop]; omega

theorem mem_trim (h : x ∈ trim n queue) : x ∈ queue := trim_sublist.subset h

theorem mem_trim_append (hn : 0 < n) : x ∈ trim n (queue ++ [x]) := by
  rw [trim, List.drop_append_of_le_length (by simp only [List.length_append, List.length_singleton]; omega)]
  exact List.mem_append_right _ (List.mem_singleton_self x)

theorem push_sublist : (push n queue x).Sublist (queue ++ [x]) := by
  rw [push]
  refine List.Sublist.append ?_ (.refl _)
  split_ifs
  · exact List.tail_sublist queue
  · exact .refl _

theorem length_push_le (hn : 0 < n) (h : queue.length ≤ n) : (push n queue x).length ≤ n := by
  rw [push]
  split_ifs <;> simp only [List.length_append, List.length_tail, List.length_singleton] <;> omega

theorem mem_push : x ∈ push n queue x := by simp [push]

theorem Outnumbered.append (h : Outnumbered n history x) : Outnumbered n (history ++ rest) x := by
  obtain ⟨before, after, rfl, hn⟩ := h
  refine ⟨before, after ++ rest, by simp, ?_⟩
  rw [List.length_append]; omega

/-- What stands before `n` others of a sublist stands before `n` others. -/
theorem Outnumbered.of_sublist (h : (queue ++ rest).Sublist history) (hx : x ∈ queue) (hn : n ≤ rest.length) :
    Outnumbered n history x := by
  obtain ⟨front, back, rfl, hfront, hback⟩ := List.append_sublist_iff.1 h
  obtain ⟨before, after, rfl⟩ := List.append_of_mem (hfront.subset hx)
  refine ⟨before, after ++ back, by simp, ?_⟩
  have := hback.length_le
  rw [List.length_append]; omega

/-- Trimming gives up only what is outnumbered. -/
theorem mem_trim_or (h : (queue ++ rest).Sublist history) (hx : x ∈ queue) : x ∈ trim n queue ∨
    Outnumbered n history x := by
  have hsplit := List.take_append_drop (queue.length - n) queue
  rcases List.mem_append.1 (hsplit.symm ▸ hx) with hx | hx
  · have hall : (queue.take (queue.length - n) ++ (trim n queue ++ rest)).Sublist history := by
      rwa [← List.append_assoc, trim, hsplit]
    refine .inr (.of_sublist hall hx ?_)
    have := List.length_pos_of_mem hx
    simp only [trim, List.length_append, List.length_drop, List.length_take] at this ⊢; omega
  · exact .inl hx

/-- So does pushing. -/
theorem mem_push_or (h : queue.Sublist history) (hx : x ∈ queue) : x ∈ push n queue y ∨
    Outnumbered n (history ++ [y]) x := by
  rw [push]
  split_ifs with hn
  · cases queue with
    | nil => exact absurd hx List.not_mem_nil
    | cons z queue =>
      rcases List.mem_cons.1 hx with rfl | hx
      · have hall : ([x] ++ (queue ++ [y])).Sublist (history ++ [y]) := h.append (.refl [y])
        refine .inr (.of_sublist hall (List.mem_singleton_self x) ?_)
        simpa using hn
      · exact .inl (List.mem_append_left _ hx)
  · exact .inl (List.mem_append_left _ hx)

end Rolling
