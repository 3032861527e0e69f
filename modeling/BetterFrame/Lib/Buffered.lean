import Mathlib.Data.List.Basic

/-!
# Records read through a buffer

A reader shows the bytes of a stream one buffer at a time, and consumes from the front of the buffer
it shows. `read_until` reads a record, up to its delimiter and to a limit, whatever the buffers are;
`records` is what the stream as a whole is divided into.
-/

namespace Buffered

variable {α : Type*}

/-- A stream as the buffers it comes in. None is empty: an empty buffer is the end of the stream. -/
structure Reader (α : Type*) where
  buffers : List (List α)
  filled : [] ∉ buffers

namespace Reader

variable (r : Reader α)

/-- What is still to be read. -/
def rest : List α := r.buffers.flatten

/-- The bytes at hand. -/
def fill_buf : List α := r.buffers.headD []

/-- Drop `n` from the buffer that `fill_buf` shows. -/
def consume (n : Nat) : Reader α :=
  match r with
  | ⟨[], h⟩ => ⟨[], h⟩
  | ⟨b :: bs, h⟩ =>
    if hn : n < b.length then ⟨b.drop n :: bs, by
      rw [List.mem_cons, not_or] at h ⊢
      exact ⟨fun hnil => absurd (List.drop_eq_nil_iff.1 hnil.symm) (Nat.not_le.2 hn), h.2⟩⟩
    else ⟨bs, fun hmem => h (List.mem_cons_of_mem _ hmem)⟩

variable {r}

theorem fill_buf_prefix : r.fill_buf <+: r.rest := by
  rcases r with ⟨_ | ⟨b, bs⟩, h⟩
  · exact List.prefix_rfl
  · exact ⟨bs.flatten, rfl⟩

theorem fill_buf_eq_nil (h : r.fill_buf = []) : r.rest = [] := by
  rcases r with ⟨_ | ⟨b, bs⟩, hfilled⟩
  · rfl
  · obtain rfl : b = [] := h
    exact absurd (List.mem_cons_self ..) hfilled

theorem consume_rest {n : Nat} (h : n ≤ r.fill_buf.length) : (r.consume n).rest = r.rest.drop n := by
  rcases r with ⟨_ | ⟨b, bs⟩, hfilled⟩
  · exact (List.drop_nil).symm
  · have hb : n ≤ b.length := h
    show (consume ⟨b :: bs, hfilled⟩ n).rest = (b ++ bs.flatten).drop n
    rw [List.drop_append_of_le_length hb, consume]
    split_ifs with hn
    · rfl
    · rw [List.drop_eq_nil_of_le (Nat.not_lt.1 hn)]
      rfl

end Reader

/-! ### Records -/

section Records

variable [DecidableEq α] (d : α)

/-- The first record, with its delimiter. The last record of a stream may have none. -/
def first : List α → List α
  | [] => []
  | b :: bs => if b = d then [b] else b :: first bs

/-- Put an element in front of the first record. -/
def consFirst (b : α) : List (List α) → List (List α)
  | [] => [[b]]
  | record :: rs => (b :: record) :: rs

/-- The records a delimiter ends, the last one possibly open. -/
def records : List α → List (List α)
  | [] => []
  | b :: bs => if b = d then [b] :: records bs else consFirst b (records bs)

variable {d} {l a : List α}

theorem first_ne_nil (h : l ≠ []) : first d l ≠ [] := by
  cases l with
  | nil => exact absurd rfl h
  | cons b bs =>
    rw [first]
    split_ifs
    all_goals exact List.cons_ne_nil _ _

theorem first_append (h : d ∉ a) : first d (a ++ l) = a ++ first d l := by
  induction a with
  | nil => rfl
  | cons b bs ih =>
    obtain ⟨hne, hbs⟩ := not_or.1 (mt List.mem_cons.2 h)
    rw [List.cons_append, first, if_neg (Ne.symm hne), ih hbs, List.cons_append]

theorem first_delimited (h : d ∉ a) : first d (a ++ d :: l) = a ++ [d] := by
  rw [first_append h, first, if_pos rfl]

/-- A record has its delimiter at its end only, and one that has none is the whole of the rest. -/
theorem first_cases (d : α) (l : List α) : (∃ a, d ∉ a ∧ first d l = a ++ [d]) ∨ d ∉ first d l ∧
    first d l = l := by
  induction l with
  | nil => exact .inr ⟨List.not_mem_nil, rfl⟩
  | cons b bs ih =>
    rw [first]
    split_ifs with hb
    · exact .inl ⟨[], List.not_mem_nil, by rw [hb]; rfl⟩
    · rcases ih with ⟨a, ha, hfirst⟩ | ⟨hnot, hall⟩
      · exact .inl ⟨b :: a, by simp [ha, Ne.symm hb], by rw [hfirst]; rfl⟩
      · exact .inr ⟨by simp [hnot, Ne.symm hb], by rw [hall]⟩

theorem records_cons (h : l ≠ []) : records d l = first d l :: records d (l.drop (first d l).length) := by
  induction l with
  | nil => exact absurd rfl h
  | cons b bs ih =>
    rw [records, first]
    split_ifs with hb
    · rfl
    · cases bs with
      | nil => rfl
      | cons c cs => rw [ih (List.cons_ne_nil c cs), consFirst, List.length_cons, List.drop_succ_cons]

theorem records_flatten (d : α) (l : List α) : (records d l).flatten = l := by
  induction l with
  | nil => rfl
  | cons b bs ih =>
    rw [records]
    split_ifs
    · rw [List.flatten_cons, ih]
      rfl
    · cases hr : records d bs with
      | nil =>
        rw [hr] at ih
        rw [← ih]
        rfl
      | cons record rs =>
        rw [hr] at ih
        rw [consFirst, ← ih]
        rfl

end Records

/-! ### Reading one record -/

section ReadUntil

variable [DecidableEq α] (d : α)

/-- `Take::read_until`, which stops at the delimiter, at `limit` bytes or at the end of the stream. -/
def readUntilLoop : Nat → Nat → Reader α → List α × Reader α
  | 0, _, r => ([], r)
  | fuel + 1, limit, r =>
    let available := r.fill_buf.take limit
    if d ∈ available then (available.take (available.idxOf d + 1), r.consume (available.idxOf d + 1))
    else if available = [] then ([], r)
    else
      let next := readUntilLoop fuel (limit - available.length) (r.consume available.length)
      (available ++ next.1, next.2)

/-- Every round but the last consumes something. -/
def read_until (limit : Nat) (r : Reader α) : List α × Reader α := readUntilLoop d (r.rest.length + 1) limit r

variable {d}

theorem readUntilLoop_spec {fuel limit : Nat} {r : Reader α} (h : r.rest.length < fuel) :
    (readUntilLoop d fuel limit r).1 = (first d r.rest).take limit ∧
      r.rest = (readUntilLoop d fuel limit r).1 ++ (readUntilLoop d fuel limit r).2.rest := by
  induction fuel generalizing limit r with
  | zero => omega
  | succ fuel ih =>
    obtain ⟨after, hafter⟩ : r.fill_buf.take limit <+: r.rest := (List.take_prefix ..).trans r.fill_buf_prefix
    have hfits : (r.fill_buf.take limit).length ≤ r.fill_buf.length := List.length_take_le' ..
    have hlimit : (r.fill_buf.take limit).length ≤ limit := List.length_take_le ..
    have hnone : r.fill_buf.take limit = [] → limit = 0 ∨ r.rest = [] := fun h =>
      (List.take_eq_nil_iff.1 h).imp_right Reader.fill_buf_eq_nil
    rw [readUntilLoop]
    generalize r.fill_buf.take limit = available at hafter hfits hlimit hnone ⊢
    dsimp only
    split_ifs with hmem hempty
    · obtain ⟨a, b, rfl, ha⟩ := List.eq_append_cons_of_mem hmem
      have hidx : (a ++ d :: b).idxOf d = a.length := by
        rw [List.idxOf_append_of_notMem ha, List.idxOf_cons_self, Nat.add_zero]
      have hsplit : a ++ d :: b = (a ++ [d]) ++ b := (List.append_cons ..)
      have hused : a.length + 1 = (a ++ [d]).length := by rw [List.length_append, List.length_singleton]
      have hlength : (a ++ [d]).length ≤ (a ++ d :: b).length := by
        rw [hsplit]
        exact (List.prefix_append ..).length_le
      rw [hidx, hused, Reader.consume_rest (Nat.le_trans hlength hfits), ← hafter, hsplit,
        List.take_left, List.append_assoc, List.drop_left,
        List.append_assoc, List.singleton_append, first_delimited ha,
          List.take_of_length_le (Nat.le_trans hlength hlimit)]
      exact ⟨rfl, rfl⟩
    · rcases hnone hempty with rfl | hrest
      · exact ⟨rfl, rfl⟩
      · rw [hrest]
        exact ⟨List.take_nil.symm, rfl⟩
    · have hpos : 0 < available.length := List.length_pos_iff.2 hempty
      have hconsume : (r.consume available.length).rest = after := by
        rw [Reader.consume_rest hfits, ← hafter, List.drop_left]
      have hlength : r.rest.length = available.length + after.length := by rw [← hafter, List.length_append]
      obtain ⟨hline, hnext⟩ := @ih (limit - available.length) (r.consume available.length)
        (by rw [hconsume]; omega)
      rw [hconsume] at hline hnext
      constructor
      · rw [hline, ← hafter, first_append hmem, List.take_append, List.take_of_length_le hlimit]
      · rw [List.append_assoc, ← hnext, hafter]

theorem read_until_spec (d : α) (limit : Nat) (r : Reader α) :
    (read_until d limit r).1 = (first d r.rest).take limit ∧ r.rest = (read_until d limit r).1 ++
    (read_until d limit r).2.rest :=
  readUntilLoop_spec (Nat.lt_succ_self _)

end ReadUntil

end Buffered
