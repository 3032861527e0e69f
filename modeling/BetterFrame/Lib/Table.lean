import Mathlib.Data.List.Nodup
import Mathlib.Data.List.Sort
import Mathlib.Data.Prod.Lex

/-!
# Tables with a primary key and a unique key

A `Table pk uq` is a list of rows no two of which agree on `pk` or on `uq`; both facts are fields, so
every operation that returns a table has kept the constraints. The order of the list is the order in
which the database happens to return rows that a query does not order.
-/

structure Table {α κ υ : Type*} (pk : α → κ) (uq : α → υ) where
  rows : List α
  pk_nodup : (rows.map pk).Nodup
  uq_nodup : (rows.map uq).Nodup

namespace Table

variable {α κ υ : Type*} {pk : α → κ} {uq : α → υ} {t : Table pk uq} {a b : α}

def empty : Table pk uq := ⟨[], List.nodup_nil, List.nodup_nil⟩

theorem eq_of_pk (ha : a ∈ t.rows) (hb : b ∈ t.rows) (h : pk a = pk b) : a = b :=
  List.inj_on_of_nodup_map t.pk_nodup ha hb h

theorem eq_of_uq (ha : a ∈ t.rows) (hb : b ∈ t.rows) (h : uq a = uq b) : a = b :=
  List.inj_on_of_nodup_map t.uq_nodup ha hb h

theorem nodup (t : Table pk uq) : t.rows.Nodup := t.pk_nodup.of_map

/-- `DELETE` of the rows for which `p` fails. -/
def filter (t : Table pk uq) (p : α → Bool) : Table pk uq where
  rows := t.rows.filter p
  pk_nodup := t.pk_nodup.sublist (List.filter_sublist.map _)
  uq_nodup := t.uq_nodup.sublist (List.filter_sublist.map _)

/-- `UPDATE` of columns that are part of neither key. -/
def update (t : Table pk uq) (f : α → α) (hpk : ∀ a, pk (f a) = pk a) (huq : ∀ a, uq (f a) = uq a) :
    Table pk uq where
  rows := t.rows.map f
  pk_nodup := by rw [List.map_map, show pk ∘ f = pk from funext hpk]; exact t.pk_nodup
  uq_nodup := by rw [List.map_map, show uq ∘ f = uq from funext huq]; exact t.uq_nodup

@[simp] theorem mem_filter {p : α → Bool} : a ∈ (t.filter p).rows ↔ a ∈ t.rows ∧ p a := List.mem_filter

@[simp] theorem mem_update {f : α → α} {hpk : ∀ a, pk (f a) = pk a} {huq : ∀ a, uq (f a) = uq a} :
    b ∈ (t.update f hpk huq).rows ↔ ∃ a ∈ t.rows, f a = b := List.mem_map

section Insert

variable [DecidableEq κ] [DecidableEq υ]

/-- `INSERT … ON CONFLICT (uq) DO NOTHING`: nothing happens when a row has the unique key, and the
statement fails when one has the primary key. -/
def insertOrNothing (t : Table pk uq) (a : α) : Option (Table pk uq) :=
  if huq : uq a ∈ t.rows.map uq then some t
  else if hpk : pk a ∈ t.rows.map pk then none
  else some ⟨a :: t.rows, List.nodup_cons.2 ⟨hpk, t.pk_nodup⟩, List.nodup_cons.2 ⟨huq, t.uq_nodup⟩⟩

theorem insertOrNothing_elim {t' : Table pk uq} (h : t.insertOrNothing a = some t') :
    (∃ b ∈ t.rows, uq b = uq a) ∧ t' = t ∨
      (∀ b ∈ t.rows, uq b ≠ uq a) ∧ (∀ b ∈ t.rows, pk b ≠ pk a) ∧ t'.rows = a :: t.rows := by
  unfold insertOrNothing at h
  split_ifs at h with huq hpk
  · obtain ⟨b, hb, heq⟩ := List.mem_map.1 huq
    exact .inl ⟨⟨b, hb, heq⟩, (Option.some.inj h).symm⟩
  · refine .inr ⟨fun b hb heq => huq (List.mem_map.2 ⟨b, hb, heq⟩),
      fun b hb heq => hpk (List.mem_map.2 ⟨b, hb, heq⟩), ?_⟩
    exact Option.some.inj h ▸ rfl

/-- The error of a statement that breaks a unique constraint. -/
def duplicateKey : String := "duplicate key value violates unique constraint"

/-- `INSERT`, which fails where a row has one of the keys. -/
def insert (t : Table pk uq) (a : α) : Option (Table pk uq) :=
  if h : pk a ∉ t.rows.map pk ∧ uq a ∉ t.rows.map uq then
    some ⟨t.rows ++ [a], by simpa [List.nodup_append] using ⟨t.pk_nodup, fun b hb heq =>
      h.1 (heq ▸ List.mem_map_of_mem hb)⟩,
      by simpa [List.nodup_append] using ⟨t.uq_nodup, fun b hb heq => h.2 (heq ▸ List.mem_map_of_mem hb)⟩⟩
  else none

/-- `UPDATE` of the row with primary key `k`, which fails where another row has the unique key that
it would get. -/
def modify (t : Table pk uq) (k : κ) (f : α → α) (hpk : ∀ a, pk (f a) = pk a) : Option (Table pk uq) :=
  if h : ∀ a ∈ t.rows, pk a = k → ∀ b ∈ t.rows, pk b ≠ k → uq b ≠ uq (f a) then
    some ⟨t.rows.map fun a => if pk a = k then f a else a, by
      rw [List.map_map, show pk ∘ (fun a => if pk a = k then f a else a) = pk from funext fun a => by
        by_cases ha : pk a = k <;> simp [ha, hpk]]
      exact t.pk_nodup, by
      rw [List.map_map, List.nodup_map_iff_inj_on t.nodup]
      intro a ha b hb heq
      by_cases hka : pk a = k <;> by_cases hkb : pk b = k <;>
        simp only [Function.comp_apply, hka, hkb, if_true, if_false] at heq
      · exact t.eq_of_pk ha hb (hka.trans hkb.symm)
      · exact absurd heq.symm (h a ha hka b hb hkb)
      · exact absurd heq (h b hb hkb a ha hka)
      · exact t.eq_of_uq ha hb heq⟩
  else none

theorem insert_eq_some {t' : Table pk uq} (h : t.insert a = some t') :
    (∀ b ∈ t.rows, pk b ≠ pk a ∧ uq b ≠ uq a) ∧ t'.rows = t.rows ++ [a] := by
  unfold insert at h
  split_ifs at h with hkeys
  refine ⟨fun b hb => ⟨fun heq => hkeys.1 (heq ▸ List.mem_map_of_mem hb),
    fun heq => hkeys.2 (heq ▸ List.mem_map_of_mem hb)⟩, ?_⟩
  exact Option.some.inj h ▸ rfl

theorem exists_insert (h : ∀ b ∈ t.rows, pk b ≠ pk a ∧ uq b ≠ uq a) : ∃ t', t.insert a = some t' := by
  refine ⟨_, dif_pos ⟨fun hmem => ?_, fun hmem => ?_⟩⟩
  · obtain ⟨b, hb, heq⟩ := List.mem_map.1 hmem
    exact (h b hb).1 heq
  · obtain ⟨b, hb, heq⟩ := List.mem_map.1 hmem
    exact (h b hb).2 heq

theorem modify_eq_some {t' : Table pk uq} {k : κ} {f : α → α} {hpk : ∀ a, pk (f a) = pk a}
    (h : t.modify k f hpk = some t') :
    t'.rows = t.rows.map fun a => if pk a = k then f a else a := by
  unfold modify at h
  split_ifs at h
  exact Option.some.inj h ▸ rfl

theorem exists_modify {k : κ} {f : α → α} {hpk : ∀ a, pk (f a) = pk a}
    (h : ∀ a ∈ t.rows, pk a = k → ∀ b ∈ t.rows, pk b ≠ k → uq b ≠ uq (f a)) :
    ∃ t', t.modify k f hpk = some t' :=
  ⟨_, dif_pos h⟩

end Insert

end Table

/-! ### Ordered listings -/

namespace List

variable {α : Type*} {r : α → α → Prop} [DecidableRel r] {p : α → Bool} {a : α} {l : List α}

theorem orderedInsert_of_forall (h : ∀ b ∈ l, r a b) : l.orderedInsert r a = a :: l := by
  cases l with
  | nil => rfl
  | cons b l => exact if_pos (h b mem_cons_self)

theorem filter_orderedInsert [IsTrans α r] (hl : l.Pairwise r) :
    (l.orderedInsert r a).filter p = if p a then (l.filter p).orderedInsert r a else l.filter p := by
  induction l with
  | nil => by_cases hp : p a <;> simp [hp]
  | cons b l ih =>
    obtain ⟨hb, hl⟩ := pairwise_cons.1 hl
    by_cases hab : r a b
    · rw [orderedInsert_cons_of_le r l hab]
      have hall : ∀ c ∈ (b :: l).filter p, r a c := by
        intro c hc
        rcases mem_cons.1 (mem_of_mem_filter hc) with rfl | hc
        · exact hab
        · exact IsTrans.trans _ _ _ hab (hb c hc)
      by_cases hp : p a <;> simp [hp, orderedInsert_of_forall hall]
    · rw [orderedInsert_of_not_le r l hab, filter_cons, ih hl]
      by_cases hp : p a <;> by_cases hpb : p b <;> simp [hp, hpb, hab]

/-- A query's condition and its order can be applied one after the other. -/
theorem filter_insertionSort [Std.Total r] [IsTrans α r] (l : List α) :
    (l.insertionSort r).filter p = (l.filter p).insertionSort r := by
  induction l with
  | nil => rfl
  | cons a l ih =>
    rw [insertionSort_cons, filter_orderedInsert (pairwise_insertionSort r l), ih]
    by_cases hp : p a <;> simp [hp]

/-- The first element that has `q`. -/
def First (q : α → Prop) (l : List α) (a : α) : Prop :=
  ∃ before after, l = before ++ a :: after ∧ q a ∧ ∀ b ∈ before, ¬ q b

theorem find?_eq_some_iff_first {q : α → Prop} [DecidablePred q] :
    (l.find? fun b => q b) = some a ↔ l.First q a := by
  rw [find?_eq_some_iff_append]
  constructor
  · rintro ⟨hq, before, after, rfl, hbefore⟩
    exact ⟨before, after, rfl, by simpa using hq, fun b hb => by simpa using hbefore b hb⟩
  · rintro ⟨before, after, rfl, hq, hbefore⟩
    exact ⟨by simpa using hq, before, after, rfl, fun b hb => by simpa using hbefore b hb⟩

section Foremost

variable {κ : Type*} [LinearOrder κ] {key : α → κ} {q : α → Prop}

/-- The element of the greatest key among those that have `q`, and the first of them. -/
def Foremost (key : α → κ) (q : α → Prop) (l : List α) (a : α) : Prop :=
  ∃ before after, l = before ++ a :: after ∧ q a ∧ (∀ b ∈ before, q b → key b < key a) ∧
    ∀ b ∈ after, q b → key b ≤ key a

theorem Foremost.mem (h : l.Foremost key q a) : a ∈ l := by
  obtain ⟨before, after, rfl, -⟩ := h
  simp

theorem Foremost.holds (h : l.Foremost key q a) : q a := by
  obtain ⟨before, after, -, hq, -⟩ := h
  exact hq

theorem Foremost.key_le (h : l.Foremost key q a) {b : α} (hb : b ∈ l) (hq : q b) : key b ≤ key a := by
  obtain ⟨before, after, rfl, -, hbefore, hafter⟩ := h
  rcases mem_append.1 hb with hb | hb
  · exact (hbefore b hb hq).le
  · rcases mem_cons.1 hb with rfl | hb
    · exact le_rfl
    · exact hafter b hb hq

theorem foremost_congr {q' : α → Prop} (h : ∀ b ∈ l, q b ↔ q' b) :
    l.Foremost key q a ↔ l.Foremost key q' a := by
  constructor
  · rintro ⟨before, after, rfl, hq, hbefore, hafter⟩
    exact ⟨before, after, rfl, (h a (by simp)).1 hq,
      fun b hb hqb => hbefore b hb ((h b (by simp [hb])).2 hqb),
      fun b hb hqb => hafter b hb ((h b (by simp [hb])).2 hqb)⟩
  · rintro ⟨before, after, rfl, hq, hbefore, hafter⟩
    exact ⟨before, after, rfl, (h a (by simp)).2 hq,
      fun b hb hqb => hbefore b hb ((h b (by simp [hb])).1 hqb),
      fun b hb hqb => hafter b hb ((h b (by simp [hb])).1 hqb)⟩

theorem foremost_cons {b : α} : (b :: l).Foremost key q a ↔
    a = b ∧ q b ∧ (∀ x ∈ l, q x → key x ≤ key b) ∨ (q b → key b < key a) ∧ l.Foremost key q a := by
  constructor
  · rintro ⟨before, after, heq, hq, hbefore, hafter⟩
    cases before with
    | nil =>
      obtain ⟨rfl, rfl⟩ := cons.inj heq
      exact .inl ⟨rfl, hq, hafter⟩
    | cons c before =>
      obtain ⟨rfl, rfl⟩ := cons.inj heq
      exact .inr ⟨hbefore b mem_cons_self, before, after, rfl, hq,
        fun x hx => hbefore x (mem_cons_of_mem _ hx), hafter⟩
  · rintro (⟨rfl, hq, hafter⟩ | ⟨hb, before, after, rfl, hq, hbefore, hafter⟩)
    · exact ⟨[], l, rfl, hq, nofun, hafter⟩
    · refine ⟨b :: before, after, rfl, hq, fun x hx => ?_, hafter⟩
      rcases mem_cons.1 hx with rfl | hx
      · exact hb
      · exact hbefore x hx

/-- What `ORDER BY key DESC LIMIT 1` gives. -/
theorem head?_insertionSort_filter [DecidablePred q] :
    ((l.filter fun b => q b).insertionSort fun a b => key b ≤ key a).head? = some a ↔
      l.Foremost key q a := by
  induction l generalizing a with
  | nil =>
    refine iff_of_false nofun ?_
    rintro ⟨before, after, heq, -⟩
    simp at heq
  | cons b l ih =>
    rw [foremost_cons]
    by_cases hb : q b
    · rw [filter_cons_of_pos (by simpa using hb), insertionSort_cons]
      cases hsort : (l.filter fun b => q b).insertionSort fun a b => key b ≤ key a with
      | nil =>
        have hnone : ∀ x ∈ l, ¬ q x := by
          have hlen := length_insertionSort (fun a b => key b ≤ key a) (l.filter fun b => q b)
          rw [hsort] at hlen
          simpa using (length_eq_zero_iff.1 hlen.symm)
        have hfree : ¬ l.Foremost key q a := fun h => hnone a h.mem h.holds
        have hall : ∀ x ∈ l, q x → key x ≤ key b := fun x hx hq => absurd hq (hnone x hx)
        exact ⟨fun h => .inl ⟨(Option.some.inj h).symm, hb, hall⟩,
          fun h => h.elim (fun h => congrArg some h.1.symm) fun h => absurd h.2 hfree⟩
      | cons c rest =>
        rw [hsort] at ih
        have hc : l.Foremost key q c := ih.1 rfl
        have hunique : ∀ {x}, l.Foremost key q x → c = x := fun hx => Option.some.inj (ih.2 hx)
        rw [orderedInsert_cons]
        split
        · next hle =>
          have hall : ∀ x ∈ l, q x → key x ≤ key b := fun x hx hq => (hc.key_le hx hq).trans hle
          refine ⟨fun h => .inl ⟨(Option.some.inj h).symm, hb, hall⟩, ?_⟩
          rintro (⟨rfl, -⟩ | ⟨hlt, ha⟩)
          · rfl
          · obtain rfl := hunique ha
            exact absurd hle (hlt hb).not_ge
        · next hnot =>
          refine ⟨fun h => ?_, ?_⟩
          · obtain rfl := Option.some.inj h
            exact .inr ⟨fun _ => lt_of_not_ge hnot, hc⟩
          · rintro (⟨rfl, -, hall⟩ | ⟨-, ha⟩)
            · exact absurd (hall c hc.mem hc.holds) hnot
            · exact congrArg some (hunique ha)
    · rw [filter_cons_of_neg (by simpa using hb), ih]
      simp [hb]

/-- What a search through the rows of a query gives. -/
theorem find?_insertionSort_filter {s : α → Bool} :
    ((l.filter s).insertionSort fun a b => key b ≤ key a).find? p = some a ↔
      l.Foremost key (fun a => s a ∧ p a) a := by
  have : IsTrans α fun a b => key b ≤ key a := ⟨fun _ _ _ h h' => h'.trans h⟩
  have : Std.Total fun a b : α => key b ≤ key a := ⟨fun a b => le_total (key b) (key a)⟩
  rw [← head?_filter, filter_insertionSort, filter_filter, ← head?_insertionSort_filter]
  simp only [Bool.decide_and, Bool.decide_eq_true, Bool.and_comm]

/-- A key that puts the elements with `own` first. -/
def ownKey (own : α → Prop) [DecidablePred own] (key : α → κ) (a : α) : Nat ×ₗ κ :=
  toLex (if own a then 1 else 0, key a)

section OwnKey

variable {own : α → Prop} [DecidablePred own] {a b : α}

theorem ownKey_lt : ownKey own key a < ownKey own key b ↔
    ¬ own a ∧ own b ∨ (own a ↔ own b) ∧ key a < key b := by
  by_cases ha : own a <;> by_cases hb : own b <;> simp [ownKey, Prod.Lex.toLex_lt_toLex, ha, hb]

theorem ownKey_le : ownKey own key a ≤ ownKey own key b ↔
    ¬ own a ∧ own b ∨ (own a ↔ own b) ∧ key a ≤ key b := by
  by_cases ha : own a <;> by_cases hb : own b <;> simp [ownKey, Prod.Lex.toLex_le_toLex, ha, hb]

theorem foremost_ownKey : l.Foremost (ownKey own key) q a ↔
    l.Foremost key (fun a => q a ∧ own a) a ∨
      (∀ b ∈ l, q b → ¬ own b) ∧ l.Foremost key q a := by
  simp only [Foremost, ownKey_lt, ownKey_le]
  constructor
  · rintro ⟨before, after, rfl, hq, hbefore, hafter⟩
    by_cases hown : own a
    · refine .inl ⟨before, after, rfl, ⟨hq, hown⟩, fun b hb hqb => ?_, fun b hb hqb => ?_⟩
      · simpa [hown, hqb.2] using hbefore b hb hqb.1
      · simpa [hown, hqb.2] using hafter b hb hqb.1
    · have hnone : ∀ b ∈ before ++ a :: after, q b → ¬ own b := by
        intro b hb hqb hownb
        rcases mem_append.1 hb with hb | hb
        · simpa [hown, hownb] using hbefore b hb hqb
        · rcases mem_cons.1 hb with rfl | hb
          · exact hown hownb
          · simpa [hown, hownb] using hafter b hb hqb
      refine .inr ⟨hnone, before, after, rfl, hq, fun b hb hqb => ?_, fun b hb hqb => ?_⟩
      · simpa [hown, hnone b (mem_append_left _ hb) hqb] using hbefore b hb hqb
      · simpa [hown, hnone b (mem_append_right _ (mem_cons_of_mem _ hb)) hqb] using hafter b hb hqb
  · rintro (⟨before, after, rfl, ⟨hq, hown⟩, hbefore, hafter⟩ |
      ⟨hnone, before, after, rfl, hq, hbefore, hafter⟩)
    · refine ⟨before, after, rfl, hq, fun b hb hqb => ?_, fun b hb hqb => ?_⟩
      · by_cases hownb : own b
        · exact .inr ⟨iff_of_true hownb hown, hbefore b hb ⟨hqb, hownb⟩⟩
        · exact .inl ⟨hownb, hown⟩
      · by_cases hownb : own b
        · exact .inr ⟨iff_of_true hownb hown, hafter b hb ⟨hqb, hownb⟩⟩
        · exact .inl ⟨hownb, hown⟩
    · have hself : ¬ own a := hnone a (mem_append_right _ mem_cons_self) hq
      refine ⟨before, after, rfl, hq, fun b hb hqb => .inr ⟨?_, hbefore b hb hqb⟩,
        fun b hb hqb => .inr ⟨?_, hafter b hb hqb⟩⟩
      · exact iff_of_false (hnone b (mem_append_left _ hb) hqb) hself
      · exact iff_of_false (hnone b (mem_append_right _ (mem_cons_of_mem _ hb)) hqb) hself

end OwnKey

end Foremost

/-- A search for the first result finds the first element that has one. -/
theorem findSome?_eq_some_iff_find? {β : Type*} {f : α → Option β} {b : β} :
    l.findSome? f = some b ↔ ∃ a, (l.find? fun a => (f a).isSome) = some a ∧ f a = some b := by
  induction l with
  | nil => simp
  | cons a l ih =>
    rw [findSome?_cons, find?_cons]
    cases hfa : f a with
    | none => simpa [hfa] using ih
    | some c => simp [hfa]

/-- The elements of a list without repetition that stand at position `n` or later. -/
theorem mem_drop_iff_takeWhile [DecidableEq α] (hl : l.Nodup) {n : Nat} :
    a ∈ l.drop n ↔ a ∈ l ∧ n ≤ (l.takeWhile (· ≠ a)).length := by
  induction l generalizing n with
  | nil => simp
  | cons b l ih =>
    obtain ⟨hb, hl⟩ := nodup_cons.1 hl
    cases n with
    | zero => simp
    | succ n =>
      rw [drop_succ_cons, ih hl]
      by_cases hab : b = a
      · subst hab
        simp [hb]
      · simp [hab, Ne.symm hab]

end List
