import BetterFrame.Lib.Text

/-!
# Searching text for a word

What `find`, `split` and `split_once` of a word give, and what they give on text that is put
together of parts: a character that the word does not have keeps the parts on its sides apart, and
one that ends the word tells where an occurrence can end.
-/

namespace Search

variable {α : Type*} [DecidableEq α] {pat s t u a b : List α} {c : α}

/-- What stands before and after the first occurrence. -/
def breakOn (pat : List α) : List α → Option (List α × List α)
  | [] => if pat = [] then some ([], []) else none
  | c :: s =>
    if pat <+: c :: s then some ([], (c :: s).drop pat.length)
    else (breakOn pat s).map fun p => (c :: p.1, p.2)

/-- The parts between the occurrences; `skip` counts the characters of an occurrence that are still
to be passed. -/
def splitFrom (pat : List α) : Nat → List α → List (List α)
  | _, [] => [[]]
  | skip + 1, _ :: s => splitFrom pat skip s
  | 0, c :: s =>
    if pat <+: c :: s then [] :: splitFrom pat (pat.length - 1) s
    else (splitFrom pat 0 s).modifyHead (c :: ·)

/-- The pieces between occurrences, from left to right. -/
def split (pat s : List α) : List (List α) := splitFrom pat 0 s

/-! ### The first occurrence -/

theorem breakOn_eq_some (h : breakOn pat s = some (b, a)) : s = b ++ pat ++ a := by
  induction s generalizing b with
  | nil =>
    rw [breakOn] at h
    split_ifs at h with hpat
    obtain ⟨rfl, rfl⟩ := Prod.mk.inj (Option.some.inj h)
    simp [hpat]
  | cons c s ih =>
    rw [breakOn] at h
    split_ifs at h with hpat
    · obtain ⟨rfl, rfl⟩ := Prod.mk.inj (Option.some.inj h)
      obtain ⟨t, ht⟩ := hpat
      rw [← ht, List.drop_left, List.nil_append]
    · obtain ⟨⟨b', a'⟩, hb, heq⟩ := Option.map_eq_some_iff.1 h
      obtain ⟨rfl, rfl⟩ := Prod.mk.inj heq
      rw [ih hb, List.cons_append, List.cons_append]

theorem breakOn_eq_none : breakOn pat s = none ↔ ¬ pat <:+: s := by
  induction s with
  | nil =>
    rw [breakOn, List.infix_nil]
    split_ifs with hpat <;> simp [hpat]
  | cons c s ih =>
    rw [breakOn, List.infix_cons_iff, not_or]
    split_ifs with hpat
    · simp [hpat]
    · rw [Option.map_eq_none_iff, ih]
      exact (and_iff_right hpat).symm

theorem breakOn_here (pat s : List α) : breakOn pat (pat ++ s) = some ([], s) := by
  cases pat with
  | nil => cases s <;> simp [breakOn]
  | cons c pat =>
    rw [List.cons_append, breakOn, if_pos (List.cons_prefix_cons.2 ⟨rfl, List.prefix_append pat s⟩)]
    simp

/-- What is found in a part is found in the whole. -/
theorem breakOn_append (h : breakOn pat u = some (b, a)) (s : List α) :
    breakOn pat (u ++ s) = some (b, a ++ s) := by
  induction u generalizing b with
  | nil =>
    rw [breakOn] at h
    split_ifs at h with hpat
    obtain ⟨rfl, rfl⟩ := Prod.mk.inj (Option.some.inj h)
    rw [hpat]
    exact breakOn_here [] s
  | cons c u ih =>
    rw [breakOn] at h
    split_ifs at h with hpat
    · obtain ⟨rfl, rfl⟩ := Prod.mk.inj (Option.some.inj h)
      obtain ⟨t, ht⟩ := hpat
      rw [← ht, List.append_assoc, List.drop_left, breakOn_here]
    · obtain ⟨⟨b', a'⟩, hb, heq⟩ := Option.map_eq_some_iff.1 h
      obtain ⟨rfl, rfl⟩ := Prod.mk.inj heq
      rw [List.cons_append, breakOn, if_neg, ih hb]
      · rfl
      · intro hprefix
        have hlength := congrArg List.length (breakOn_eq_some hb)
        simp only [List.length_append] at hlength
        refine hpat (List.prefix_of_prefix_length_le hprefix (List.prefix_append (c :: u) s) ?_)
        simp only [List.length_cons]
        omega

/-- A word that begins with a character that a part does not have begins after the part. -/
theorem breakOn_skip (hc : c ∉ u) (pat s : List α) :
    breakOn (c :: pat) (u ++ s) = (breakOn (c :: pat) s).map fun p => (u ++ p.1, p.2) := by
  induction u with
  | nil => simp
  | cons d u ih =>
    rw [List.mem_cons, not_or] at hc
    rw [List.cons_append, breakOn, if_neg fun hprefix => hc.1 (List.cons_prefix_cons.1 hprefix).1,
      ih hc.2, Option.map_map]
    rfl

omit [DecidableEq α] in
theorem prefix_of_prefix_over (hc : c ∉ pat) (h : pat <+: u ++ c :: s) : pat <+: u := by
  rcases List.prefix_or_prefix_of_prefix h (List.prefix_append u (c :: s)) with hin | ⟨t, rfl⟩
  · exact hin
  · rw [List.prefix_append_right_inj] at h
    cases t with
    | nil => simp
    | cons x t =>
      obtain ⟨rfl, -⟩ := List.cons_prefix_cons.1 h
      exact absurd (List.mem_append_right _ List.mem_cons_self) hc

omit [DecidableEq α] in
theorem infix_over (hc : c ∉ pat) : pat <:+: u ++ c :: s ↔ pat <:+: u ∨ pat <:+: s := by
  constructor
  · intro h
    induction u with
    | nil =>
      rcases List.infix_cons_iff.1 h with hprefix | hin
      · exact .inl (prefix_of_prefix_over hc (show pat <+: [] ++ c :: s from hprefix)).isInfix
      · exact .inr hin
    | cons d u ih =>
      rcases List.infix_cons_iff.1 h with hprefix | hin
      · exact .inl (prefix_of_prefix_over hc (show pat <+: (d :: u) ++ c :: s from hprefix)).isInfix
      · exact (ih hin).imp_left fun hu => hu.trans (List.suffix_cons d u).isInfix
  · rintro (h | h)
    · exact h.trans (List.prefix_append u (c :: s)).isInfix
    · exact h.trans ((List.suffix_cons c s).trans (List.suffix_append u (c :: s))).isInfix

/-- An occurrence does not reach over a character that the word does not have. -/
theorem breakOn_over (hc : c ∉ pat) (hu : ¬ pat <:+: u) (s : List α) :
    breakOn pat (u ++ c :: s) = (breakOn pat s).map fun p => (u ++ c :: p.1, p.2) := by
  induction u with
  | nil =>
    rw [List.nil_append, breakOn, if_neg]
    · rfl
    · intro hprefix
      cases pat with
      | nil => exact hu List.nil_infix
      | cons d pat => exact hc ((List.cons_prefix_cons.1 hprefix).1 ▸ List.mem_cons_self)
  | cons d u ih =>
    rw [List.infix_cons_iff, not_or] at hu
    rw [List.cons_append, breakOn, if_neg, ih hu.2, Option.map_map]
    · rfl
    · intro hprefix
      exact hu.1 (prefix_of_prefix_over hc (show pat <+: (d :: u) ++ c :: s from hprefix))

/-- A word that ends with `c` and has no other `c` occurs up to the next `c` where what stands
before that ends with the rest of it. -/
theorem breakOn_ending (hpat : c ∉ pat) (hu : c ∉ u) (s : List α) :
    breakOn (pat ++ [c]) (u ++ c :: s) =
      if pat <:+ u then some (u.take (u.length - pat.length), s)
      else (breakOn (pat ++ [c]) s).map fun p => (u ++ c :: p.1, p.2) := by
  induction u with
  | nil =>
    rw [List.nil_append]
    by_cases hnil : pat = []
    · subst hnil
      simp [breakOn]
    · rw [if_neg (by simpa using hnil), breakOn, if_neg]
      · rfl
      · intro hprefix
        cases pat with
        | nil => exact hnil rfl
        | cons d pat => exact hpat ((List.cons_prefix_cons.1 hprefix).1 ▸ List.mem_cons_self)
  | cons d u ih =>
    rw [List.mem_cons, not_or] at hu
    by_cases heq : pat = d :: u
    · subst heq
      rw [if_pos List.suffix_rfl, show d :: u ++ c :: s = (d :: u ++ [c]) ++ s by simp, breakOn_here]
      simp
    · rw [List.cons_append, breakOn, if_neg, ih hu.2]
      · by_cases hsuffix : pat <:+ u
        · have hle := hsuffix.length_le
          rw [if_pos hsuffix, if_pos (List.suffix_cons_iff.2 (.inr hsuffix)), Option.map_some,
            List.length_cons, Nat.succ_sub hle, List.take_succ_cons]
        · rw [if_neg hsuffix, if_neg fun h => (List.suffix_cons_iff.1 h).elim heq hsuffix, Option.map_map]
          rfl
      · intro hprefix
        -- the occurrence would end at the first `c`, so that it is all that stands before it
        obtain ⟨t, ht⟩ := prefix_of_prefix_over hpat
          ((List.prefix_append pat [c]).trans (show pat ++ [c] <+: (d :: u) ++ c :: s from hprefix))
        rw [show d :: (u ++ c :: s) = pat ++
          (t ++ c :: s) by rw [← List.append_assoc, ht]; rfl, List.prefix_append_right_inj] at hprefix
        cases t with
        | nil => exact heq (by simpa using ht)
        | cons x t =>
          obtain ⟨rfl, -⟩ := List.cons_prefix_cons.1 hprefix
          have hmem : c ∈ d :: u := ht ▸ List.mem_append_right _ List.mem_cons_self
          exact (List.mem_cons.1 hmem).elim hu.1 hu.2

/-! ### Parts -/

theorem splitFrom_eq (skip : Nat) (s : List α) : splitFrom pat skip s = split pat (s.drop skip) := by
  induction s generalizing skip with
  | nil => cases skip <;> rfl
  | cons c s ih =>
    cases skip with
    | zero => rfl
    | succ skip => exact ih skip

/-- The parts, one after the other. -/
theorem split_eq (hpat : pat ≠ []) (s : List α) :
    split pat s = match breakOn pat s with
      | none => [s]
      | some (b, a) => b :: split pat a := by
  induction s with
  | nil => rw [split, splitFrom, breakOn, if_neg hpat]
  | cons c s ih =>
    rw [split, splitFrom, breakOn]
    split_ifs with h
    · rw [splitFrom_eq]
      obtain ⟨n, hn⟩ : ∃ n, pat.length = n + 1 :=
        Nat.exists_eq_succ_of_ne_zero (mt List.length_eq_zero_iff.1 hpat)
      simp [hn]
    · rw [show splitFrom pat 0 s = split pat s from rfl, ih]
      cases breakOn pat s <;> rfl

theorem split_of_absent (hpat : pat ≠ []) (h : ¬ pat <:+: s) : split pat s = [s] := by
  rw [split_eq hpat, breakOn_eq_none.2 h]

theorem split_of_breakOn (hpat : pat ≠ []) (h : breakOn pat s = some (b, a)) :
    split pat s = b :: split pat a := by
  rw [split_eq hpat, h]

/-- What stands before the first occurrence has none. -/
theorem not_infix_of_breakOn (hpat : pat ≠ []) (h : breakOn pat s = some (b, a)) : ¬ pat <:+: b := by
  intro hin
  obtain ⟨⟨b', a'⟩, hb⟩ := Option.ne_none_iff_exists'.1 fun hnone => breakOn_eq_none.1 hnone hin
  have hwhole := breakOn_append hb (pat ++ a)
  rw [← List.append_assoc, ← breakOn_eq_some h, h] at hwhole
  obtain ⟨rfl, -⟩ := Prod.mk.inj (Option.some.inj hwhole)
  have hlength := congrArg List.length (breakOn_eq_some hb)
  simp only [List.length_append] at hlength
  exact hpat (List.length_eq_zero_iff.1 (by omega))

/-- No part has the word. -/
theorem not_infix_of_mem_split (hpat : pat ≠ []) (h : u ∈ split pat s) : ¬ pat <:+: u := by
  induction hn : s.length using Nat.strong_induction_on generalizing s with
  | _ n ih =>
    cases hs : breakOn pat s with
    | none =>
      rw [split_of_absent hpat (breakOn_eq_none.1 hs), List.mem_singleton] at h
      exact h ▸ breakOn_eq_none.1 hs
    | some p =>
      rw [split_of_breakOn hpat hs, List.mem_cons] at h
      rcases h with rfl | h
      · exact not_infix_of_breakOn hpat hs
      · have hlength := congrArg List.length (breakOn_eq_some hs)
        have hpos := List.length_pos_iff.2 hpat
        simp only [List.length_append] at hlength
        exact ih p.2.length (by omega) h rfl

/-! ### What stands between two marks -/

/-- What stands between the first mark that follows `key` and the next one, of the parts between the marks. -/
def between (key : List α) : List (List α) → Option (List α)
  | q :: v :: parts => if key <:+ q then (if parts = [] then none else some v) else between key (v :: parts)
  | _ => none

theorem between_hit {key q v : List α} {parts : List (List α)} (hq : key <:+ q) (hparts : parts ≠ []) :
    between key (q :: v :: parts) = some v := by
  rw [between, if_pos hq, if_neg hparts]

theorem between_end {key q v : List α} (hq : key <:+ q) : between key [q, v] = none := by
  rw [between, if_pos hq, if_pos rfl]

theorem between_pass {key q v : List α} {parts : List (List α)} (hq : ¬ key <:+ q) :
    between key (q :: v :: parts) = between key (v :: parts) := by
  rw [between, if_neg hq]

section Marks

variable {key : List Char} {mark : Char}

theorem splitOn_ne_nil (mark : Char) (s : List Char) : Text.splitOn mark s ≠ [] := by
  cases s with
  | nil => exact List.cons_ne_nil _ _
  | cons c s =>
    rw [Text.splitOn]
    split_ifs
    · exact List.cons_ne_nil _ _
    · split <;> exact List.cons_ne_nil _ _

theorem breakOn_mark {q : List Char} (hq : mark ∉ q) (r : List Char) :
    breakOn [mark] (q ++ mark :: r) = some (q, r) := by
  rw [breakOn_skip hq, show mark :: r = [mark] ++ r from rfl, breakOn_here, Option.map_some, List.append_nil]

theorem breakOn_mark_none {s : List Char} (hs : mark ∉ s) : breakOn [mark] s = none := by
  rw [breakOn_eq_none]
  rintro ⟨u, t, rfl⟩
  exact hs (by simp)

/-- What stands before the first mark, where there is one. -/
theorem before_mark (mark : Char) (s : List Char) : (breakOn [mark] s).map Prod.fst =
    match Text.splitOn mark s with
    | v :: parts => if parts = [] then none else some v
    | [] => none := by
  by_cases hs : mark ∈ s
  · obtain ⟨q, r, rfl, hq⟩ := List.eq_append_cons_of_mem hs
    rw [breakOn_mark hq, Text.splitOn_append hq]
    exact (if_neg (splitOn_ne_nil mark r)).symm
  · rw [breakOn_mark_none hs, Text.splitOn_self hs]
    rfl

theorem between_splitOn (hkey : mark ∉ key) (s : List Char) :
    ((breakOn (key ++ [mark]) s).bind fun p => (breakOn [mark] p.2).map Prod.fst) = between key
    (Text.splitOn mark s) := by
  induction hn : s.length using Nat.strong_induction_on generalizing s with
  | _ n ih =>
    by_cases hs : mark ∈ s
    · obtain ⟨q, r, rfl, hq⟩ := List.eq_append_cons_of_mem hs
      rw [Text.splitOn_append hq, breakOn_ending hkey hq]
      have hr := ih r.length (by rw [← hn, List.length_append, List.length_cons]; omega) r rfl
      have hbefore := before_mark mark r
      cases hsplit : Text.splitOn mark r with
      | nil => exact absurd hsplit (splitOn_ne_nil mark r)
      | cons v parts =>
        rw [between]
        split_ifs with hsuffix hparts
        · rw [Option.bind_some, hbefore, hsplit]
          exact if_pos hparts
        · rw [Option.bind_some, hbefore, hsplit]
          exact if_neg hparts
        · rw [← hsplit, ← hr, Option.bind_map]
          rfl
    · rw [Text.splitOn_self hs, breakOn_eq_none.2]
      · rfl
      · rintro ⟨u, t, rfl⟩
        exact hs (by simp)

end Marks

end Search
