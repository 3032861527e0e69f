import BetterFrame.Lib.Json

/-!
# Searching the text of a JSON value

`infix_text` says when the text of a value contains `"name":"value"`: exactly when, at some depth, a
member has the string `value` and a name that is `name` or ends in a quote and `name`.
-/

namespace Json

open Text

mutual

/-- The members at every depth. -/
def fields : Json → List (String × Json)
  | .arr xs => itemFields xs
  | .obj ms => memberFields ms
  | _ => []

def itemFields : List Json → List (String × Json)
  | [] => []
  | x :: xs => x.fields ++ itemFields xs

def memberFields : List (String × Json) → List (String × Json)
  | [] => []
  | (k, v) :: ms => (k, v) :: (v.fields ++ memberFields ms)

end

/-- `"name":"value"` without its first quote. -/
def fragmentTail (name value : List Char) : List Char := name ++ '"' :: ':' :: '"' :: (value ++ ['"'])

/-- A member as it stands in an object's text. -/
def fragment (name value : List Char) : List Char := '"' :: fragmentTail name value

/-- The name as it is printed ends in `"name"`. -/
def endsIn (name : List Char) (k : String) : Prop := k.toList = name ∨ ∃ start, k.toList = start ++
  '"' :: name

/-- Printed as itself. -/
def Plain (w : List Char) : Prop := ∀ c ∈ w, escChar c = [c]

/-! ### Strings -/

section Strings

variable {name value w s s' r rest p f : List Char} {c : Char}

theorem escChar_cases (c : Char) : c = '"' ∨ '"' ∉ escChar c := by
  by_cases hc : c = '"'
  · exact .inl hc
  · right
    unfold escChar
    rw [if_neg hc]
    split_ifs
    all_goals try decide
    · have hhex : ∀ n < 16, hexDigit n ≠ '"' := by decide
      simp [(hhex (c.toNat / 16) (by omega)).symm, (hhex (c.toNat % 16) (by omega)).symm]
    · simpa using Ne.symm hc

theorem plain_ne (h : escChar c = [c]) : c ≠ '"' ∧ c ≠ '\\' := by
  constructor
  all_goals
    rintro rfl
    revert h
    decide

/-- A printed string is read back as far as a plain word and its quote. -/
theorem prefix_esc (hw : Plain w) : w ++ '"' :: r <+: s.flatMap escChar ++ '"' :: rest ↔ s = w ∧
    r <+: rest := by
  induction w generalizing s with
  | nil =>
    cases s with
    | nil => simp [List.cons_prefix_cons]
    | cons c s =>
      rcases escChar_head c with hc | ⟨as, hc, -⟩
      · simp [hc, List.cons_prefix_cons, (plain_ne hc).1.symm]
      · simp [hc, List.cons_prefix_cons]
  | cons b w ih =>
    have hb := hw b List.mem_cons_self
    have ih := ih (s := s.tail) fun c hc => hw c (List.mem_cons_of_mem _ hc)
    cases s with
    | nil => simp [List.cons_prefix_cons, (plain_ne hb).1]
    | cons c s =>
      rw [List.tail_cons] at ih
      by_cases hcb : c = b
      · subst hcb
        simp only [List.flatMap_cons, hb, List.cons_append, List.nil_append, List.cons_prefix_cons,
          true_and, ih, List.cons.injEq]
      · have hne : ¬ c :: s = b :: w := fun heq => hcb (List.cons.inj heq).1
        rcases escChar_head c with hc | ⟨as, hc, -⟩
        · simp [hc, List.cons_prefix_cons, Ne.symm hcb, hne]
        · simp [hc, List.cons_prefix_cons, (plain_ne hb).2, hne]

/-- What starts with a quote is not found in text without one. -/
theorem infix_skip (hp : '"' ∉ p) : '"' :: f <:+: p ++ rest ↔ '"' :: f <:+: rest := by
  induction p with
  | nil => rfl
  | cons a p ih =>
    rw [List.mem_cons, not_or] at hp
    rw [List.cons_append, List.infix_cons_iff, ih hp.2, List.cons_prefix_cons, or_iff_right fun h => hp.1 h.1]

/-- Something that starts with a quote starts in a printed string where the string has one. -/
def startsIn (f rest s : List Char) : Prop := ∃ start stop, s = start ++ '"' :: stop ∧
  f <+: stop.flatMap escChar ++ '"' :: rest

theorem startsIn_cons : startsIn f rest (c :: s) ↔ (c = '"' ∧ f <+: s.flatMap escChar ++ '"' :: rest) ∨
    startsIn f rest s := by
  constructor
  · rintro ⟨start, stop, heq, hf⟩
    cases start with
    | nil =>
      obtain ⟨rfl, rfl⟩ := List.cons.inj heq
      exact .inl ⟨rfl, hf⟩
    | cons a start =>
      obtain ⟨-, rfl⟩ := List.cons.inj heq
      exact .inr ⟨start, stop, rfl, hf⟩
  · rintro (⟨rfl, hf⟩ | ⟨start, stop, rfl, hf⟩)
    · exact ⟨[], s, rfl, hf⟩
    · exact ⟨c :: start, stop, rfl, hf⟩

theorem infix_esc : '"' :: f <:+: s.flatMap escChar ++ '"' :: rest ↔ startsIn f rest s ∨ f <+: rest ∨
    '"' :: f <:+: rest := by
  induction s with
  | nil => simp [startsIn, List.infix_cons_iff, List.cons_prefix_cons]
  | cons c s ih =>
    rw [List.flatMap_cons, List.append_assoc, startsIn_cons, or_assoc]
    rcases escChar_cases c with rfl | hc
    · rw [show escChar '"' = ['\\', '"'] by decide, ← ih]
      simp [List.infix_cons_iff, List.cons_prefix_cons]
    · have hne : c ≠ '"' := by
        rintro rfl
        exact hc (by decide)
      simp only [infix_skip hc, ih, hne, false_and, false_or]

/-- The quoted string is the name of a member `"name":"value"`, or the member is in what follows. -/
theorem infix_quote (hname : Plain name) (hrest : ¬ name <+: rest) (k : String) :
    fragment name value <:+: quote k ++ rest ↔
      (endsIn name k ∧ ':' :: '"' :: (value ++ ['"']) <+: rest) ∨ fragment name value <:+: rest := by
  have htail : ¬ fragmentTail name value <+: rest := fun h => hrest ((List.prefix_append _ _).trans h)
  have hword (s : List Char) : fragmentTail name value <+: s.flatMap escChar ++ '"' :: rest ↔
      s = name ∧ ':' :: '"' :: (value ++ ['"']) <+: rest := prefix_esc hname
  unfold fragment quote
  rw [List.cons_append, List.append_assoc, List.infix_cons_iff, List.cons_append, List.nil_append,
    infix_esc, List.cons_prefix_cons, hword]
  simp only [true_and, startsIn, hword, or_iff_right htail, endsIn]
  constructor
  · rintro (⟨hk, hf⟩ | ⟨start, stop, hk, rfl, hf⟩ | hf)
    · exact .inl ⟨.inl hk, hf⟩
    · exact .inl ⟨.inr ⟨start, hk⟩, hf⟩
    · exact .inr hf
  · rintro (⟨hk | ⟨start, hk⟩, hf⟩ | hf)
    · exact .inl ⟨hk, hf⟩
    · exact .inr (.inl ⟨start, name, hk, rfl, hf⟩)
    · exact .inr (.inr hf)

end Strings

/-! ### Values -/

/-- A name that starts with nothing that can follow a string. -/
structure Word (name : List Char) : Prop where
  plain : Plain name
  head : ∃ c w, name = c :: w ∧ c ∉ [',', ':', ']', '}']

section Values

variable {name value rest : List Char} {j : Json}

/-- A member that the text shows. -/
def shows (name value : List Char) (f : String × Json) : Prop := endsIn name f.1 ∧
  f.2 = .str (String.ofList value)

theorem Word.not_prefix (h : Word name) (hrest : ∀ c ∈ rest.head?, c ∈ [',', ':', ']', '}']) :
    ¬ name <+: rest := by
  obtain ⟨c, w, rfl, hc⟩ := h.head
  rintro ⟨r, rfl⟩
  exact hc (hrest c rfl)

/-- Only the text of a string starts with a quote. -/
theorem quoted_prefix (hvalue : Plain value) (j : Json) : '"' :: (value ++ ['"']) <+: j.text ++ rest ↔
    j = .str (String.ofList value) := by
  cases j with
  | str s =>
    simp only [text, quote, List.cons_append, List.cons_prefix_cons, true_and, List.append_assoc,
      List.nil_append]
    rw [prefix_esc hvalue, and_iff_left (List.nil_prefix)]
    rw [Json.str.injEq]
    constructor
    · rintro h
      rw [← h, String.ofList_toList]
    · rintro rfl
      exact String.toList_ofList
  | num n =>
    obtain ⟨c, hc, hstart⟩ := n.head
    obtain ⟨cs, hlit⟩ := List.head?_eq_some_iff.1 hc
    have hne : '"' ≠ c := by
      rintro rfl
      revert hstart
      decide
    simp [text, hlit, List.cons_prefix_cons, hne]
  | bool b => cases b <;> simp [text, List.cons_prefix_cons]
  | null => simp [text, List.cons_prefix_cons]
  | arr xs => simp [text, List.cons_prefix_cons]
  | obj ms => simp [text, List.cons_prefix_cons]

/-- What can follow a value. -/
def Closed (rest : List Char) : Prop := ∀ c ∈ rest.head?, c ∈ [',', ']', '}']

theorem closed_cons {c : Char} (h : c ∈ [',', ']', '}']) : Closed (c :: rest) := by
  rintro _ ⟨⟩
  exact h

theorem infix_cons_of_ne {c : Char} {f : List Char} (h : c ≠ '"') : '"' :: f <:+: c :: rest ↔
    '"' :: f <:+: rest := by
  rw [List.infix_cons_iff, List.cons_prefix_cons, or_iff_right fun hc => h hc.1.symm]

/-- The text of the value shows a member of its fields, or the member is in what follows. -/
def Found (name value : List Char) (cs : List Char) (fs : List (String × Json)) : Prop :=
  ∀ rest, Closed rest → (fragment name value <:+: cs ++ rest ↔ (∃ f ∈ fs, shows name value f) ∨
    fragment name value <:+: rest)

theorem exists_mem_append {α : Type*} {p : α → Prop} {l l' : List α} : (∃ a ∈ l ++ l', p a) ↔
    (∃ a ∈ l, p a) ∨ ∃ a ∈ l', p a := by
  simp only [List.mem_append, or_and_right, exists_or]

theorem found_items {xs : List Json} (h : ∀ x ∈ xs, Found name value x.text x.fields) :
    Found name value (elemsText xs) (itemFields xs) := by
  induction xs with
  | nil => exact fun rest _ => by simp [elemsText, itemFields]
  | cons x xs ih =>
    obtain ⟨hx, hxs⟩ := List.forall_mem_cons.1 h
    intro rest hrest
    cases xs with
    | nil => simpa [elemsText, itemFields] using hx rest hrest
    | cons y xs =>
      have hnext := hx (',' :: (elemsText (y :: xs) ++ rest)) (closed_cons (by decide))
      rw [fragment, infix_cons_of_ne (by decide), ← fragment, ih hxs rest hrest, ← or_assoc,
        ← exists_mem_append] at hnext
      have htext : elemsText (x :: y :: xs) = x.text ++ ',' :: elemsText (y :: xs) := by simp [elemsText]
      rwa [htext, List.append_assoc]

theorem found_member (hname : Word name) (hvalue : Plain value) {k : String} {v : Json}
    (h : Found name value v.text v.fields) :
    Found name value (quote k ++ ':' :: v.text) ((k, v) :: v.fields) := by
  intro rest hrest
  rw [List.append_assoc, List.cons_append, infix_quote hname.plain (hname.not_prefix (by simp)),
    List.cons_prefix_cons,
    quoted_prefix hvalue, fragment, infix_cons_of_ne (by decide), ← fragment, h rest hrest,
      List.exists_mem_cons_iff, or_assoc]
  simp [shows]

theorem found_members (hname : Word name) (hvalue : Plain value) {ms : List (String × Json)}
    (h : ∀ m ∈ ms, Found name value m.2.text m.2.fields) :
    Found name value (membersText ms) (memberFields ms) := by
  induction ms with
  | nil => exact fun rest _ => by simp [membersText, memberFields]
  | cons m ms ih =>
    obtain ⟨k, v⟩ := m
    obtain ⟨hm, hms⟩ := List.forall_mem_cons.1 h
    have hfirst := found_member (k := k) hname hvalue hm
    intro rest hrest
    cases ms with
    | nil => simpa [membersText, memberFields] using hfirst rest hrest
    | cons m ms =>
      have hnext := hfirst (',' :: (membersText (m :: ms) ++ rest)) (closed_cons (by decide))
      rw [fragment, infix_cons_of_ne (by decide), ← fragment, ih hms rest hrest, ← or_assoc,
        ← exists_mem_append] at hnext
      have htext : membersText ((k, v) :: m :: ms) = quote k ++ ':' ::
          (v.text ++ ',' :: membersText (m :: ms)) := by simp [membersText]
      rw [htext, memberFields]
      simpa only [List.append_assoc, List.cons_append] using hnext

theorem found_text (hname : Word name) (hvalue : Plain value) (j : Json) :
    Found name value j.text j.fields := by
  induction j using Json.parts with
  | leaf j harr hobj =>
    intro rest hrest
    cases j with
    | null => simpa [text, fields, fragment] using infix_skip (p := ['n', 'u', 'l', 'l']) (by decide)
    | bool b =>
      cases b with
      | true => simpa [text, fields, fragment] using infix_skip (p := ['t', 'r', 'u', 'e']) (by decide)
      | false => simpa [text, fields, fragment] using infix_skip (p := ['f', 'a', 'l', 's', 'e']) (by decide)
    | num n =>
      have hquote : '"' ∉ n.lit := fun hmem => by
        have hchar := n.chars _ hmem
        revert hchar
        decide
      simpa [text, fields, fragment] using infix_skip hquote
    | str s =>
      have hclosed : ¬ ':' :: '"' :: (value ++ ['"']) <+: rest := by
        rintro ⟨r, rfl⟩
        have hmem := hrest ':' rfl
        revert hmem
        decide
      have hnot := hname.not_prefix fun c hc => by
        have hmem := hrest c hc
        simp only [List.mem_cons, List.not_mem_nil, or_false] at hmem ⊢
        tauto
      rw [text, infix_quote hname.plain hnot, or_iff_right fun h => hclosed h.2]
      simp [fields]
    | arr xs => exact absurd rfl (harr xs)
    | obj ms => exact absurd rfl (hobj ms)
  | harr xs h =>
    intro rest hrest
    have hitems := found_items h (']' :: rest) (closed_cons (by decide))
    rw [fragment, infix_cons_of_ne (by decide), ← fragment] at hitems
    rw [text, List.cons_append, List.append_assoc, fragment, infix_cons_of_ne (by decide), ← fragment, fields]
    exact hitems
  | hobj ms h =>
    intro rest hrest
    have hmembers := found_members hname hvalue h ('}' :: rest) (closed_cons (by decide))
    rw [fragment, infix_cons_of_ne (by decide), ← fragment] at hmembers
    rw [text, List.cons_append, List.append_assoc, fragment, infix_cons_of_ne (by decide), ← fragment, fields]
    exact hmembers

/-- The text of a value contains a member exactly where one of its fields shows it. -/
theorem infix_text (hname : Word name) (hvalue : Plain value) (j : Json) :
    fragment name value <:+: j.text ↔ ∃ f ∈ j.fields, shows name value f := by
  have h := found_text hname hvalue j [] (fun _ h => nomatch h)
  rwa [List.append_nil, or_iff_left (by simp [fragment])] at h

end Values

end Json
