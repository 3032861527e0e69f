import Mathlib
import BetterFrame.Lib.Text

/-!
# JSON values and their text

`Json` is the value a JSON text stands for: strings are sequences of Unicode scalar values, a number
is carried as the text `JSON.stringify` prints for it, an object is the list of its members in
insertion order. `Json.stringify` follows `JSON.stringify` without an indent, `Json.parse` follows
`JSON.parse` (of a repeated member name both members are kept and `get?` reads the last one, as the
property read does). `parse_stringify` is the round trip, and `stringify_injective` follows: two
values with one text are one value.
-/

namespace Json

open Text

/-- The characters a printed number consists of. -/
def isNumChar (c : Char) : Bool := isDigit c || c = '-' || c = '+' || c = '.' || c = 'e' || c = 'E'

def isNumStart (c : Char) : Bool := isDigit c || c = '-'

/-! The grammar of a number: each part gives what follows it, where there is one. -/

def afterDigits (cs : List Char) : Option (List Char) :=
  if (cs.takeWhile isDigit).isEmpty then none else some (cs.dropWhile isDigit)

/-- A sign where there is one. -/
def afterMinus : List Char → List Char
  | '-' :: cs => cs
  | cs => cs

/-- Digits, the first of several being no zero. -/
def afterInt : List Char → Option (List Char)
  | '0' :: cs => some cs
  | cs => afterDigits cs

def afterFraction : List Char → Option (List Char)
  | '.' :: cs => afterDigits cs
  | cs => some cs

def afterExponentSign : List Char → List Char
  | '+' :: cs | '-' :: cs => cs
  | cs => cs

def afterExponent : List Char → Option (List Char)
  | 'e' :: cs | 'E' :: cs => afterDigits (afterExponentSign cs)
  | cs => some cs

/-- The grammar of numbers. -/
def isNumber (cs : List Char) : Bool :=
  ((afterInt (afterMinus cs)).bind fun cs => (afterFraction cs).bind afterExponent) = some []

/-- A printed number. -/
structure Num where
  lit : List Char
  valid : isNumber lit
deriving DecidableEq

end Json

/-- A JSON value. The members of an object are in order, and names may come twice. -/
inductive Json where
  | null
  | bool (b : Bool)
  | num (n : Json.Num)
  | str (s : String)
  | arr (xs : List Json)
  | obj (ms : List (String × Json))

namespace Json

open Text

mutual

/-- Induction over the parts of a value. -/
theorem parts {P : Json → Prop} (leaf : ∀ j, (∀ xs, j ≠ arr xs) → (∀ ms, j ≠ obj ms) → P j)
    (harr : ∀ xs, (∀ x ∈ xs, P x) → P (arr xs)) (hobj : ∀ ms, (∀ m ∈ ms, P m.2) → P (obj ms)) : ∀ j, P j
  | .null => leaf _ (by simp) (by simp)
  | .bool _ => leaf _ (by simp) (by simp)
  | .num _ => leaf _ (by simp) (by simp)
  | .str _ => leaf _ (by simp) (by simp)
  | .arr xs => harr xs (partItems leaf harr hobj xs)
  | .obj ms => hobj ms (partMembers leaf harr hobj ms)

theorem partItems {P : Json → Prop} (leaf : ∀ j, (∀ xs, j ≠ arr xs) → (∀ ms, j ≠ obj ms) → P j)
    (harr : ∀ xs, (∀ x ∈ xs, P x) → P (arr xs)) (hobj : ∀ ms, (∀ m ∈ ms, P m.2) → P (obj ms)) :
    ∀ xs : List Json, ∀ x ∈ xs, P x
  | [] => fun _ h => nomatch h
  | y :: ys => List.forall_mem_cons.2 ⟨parts leaf harr hobj y, partItems leaf harr hobj ys⟩

theorem partMembers {P : Json → Prop} (leaf : ∀ j, (∀ xs, j ≠ arr xs) → (∀ ms, j ≠ obj ms) → P j)
    (harr : ∀ xs, (∀ x ∈ xs, P x) → P (arr xs)) (hobj : ∀ ms, (∀ m ∈ ms, P m.2) → P (obj ms)) :
    ∀ ms : List (String × Json), ∀ m ∈ ms, P m.2
  | [] => fun _ h => nomatch h
  | (_, v) :: ms => List.forall_mem_cons.2 ⟨parts leaf harr hobj v, partMembers leaf harr hobj ms⟩

end

/-! ### Numbers -/

/-- `r` is what follows characters of a number in `cs`. -/
def Follows (r cs : List Char) : Prop := ∃ used, cs = used ++ r ∧ ∀ c ∈ used, isNumChar c

theorem Follows.refl (r : List Char) : Follows r r := ⟨[], rfl, by simp⟩

theorem Follows.cons {c : Char} {r cs : List Char} (hc : isNumChar c) (h : Follows r cs) :
    Follows r (c :: cs) := by
  obtain ⟨used, rfl, hused⟩ := h
  exact ⟨c :: used, rfl, List.forall_mem_cons.2 ⟨hc, hused⟩⟩

theorem Follows.trans {r cs ds : List Char} (h : Follows r cs) (h' : Follows cs ds) : Follows r ds := by
  obtain ⟨used, rfl, hused⟩ := h
  obtain ⟨used', rfl, hused'⟩ := h'
  exact ⟨used' ++ used, (List.append_assoc ..).symm, List.forall_mem_append.2 ⟨hused', hused⟩⟩

theorem isNumChar_of_isDigit {c : Char} (h : isDigit c) : isNumChar c := by simp [isNumChar, h]

theorem afterDigits_eq {r cs : List Char} (h : afterDigits cs = some r) :
    Follows r cs ∧ ∃ c ∈ cs.head?, isDigit c := by
  unfold afterDigits at h
  split at h
  · cases h
  · next hne =>
    refine ⟨⟨cs.takeWhile isDigit, ?_, fun c hc => isNumChar_of_isDigit (List.mem_takeWhile_imp hc)⟩, ?_⟩
    · rw [← Option.some.inj h, List.takeWhile_append_dropWhile]
    · cases cs with
      | nil => simp at hne
      | cons c cs =>
        refine ⟨c, rfl, ?_⟩
        by_contra hc
        simp [hc] at hne

theorem afterInt_eq {r cs : List Char} (h : afterInt cs = some r) : Follows r cs ∧
    ∃ c ∈ cs.head?, isDigit c := by
  unfold afterInt at h
  split at h
  · exact ⟨.cons (by decide) (Option.some.inj h ▸ .refl _), '0', rfl, by decide⟩
  · exact afterDigits_eq h

theorem afterFraction_follows {r cs : List Char} (h : afterFraction cs = some r) : Follows r cs := by
  unfold afterFraction at h
  split at h
  · exact .cons (by decide) (afterDigits_eq h).1
  · exact Option.some.inj h ▸ .refl _

theorem afterExponentSign_follows (cs : List Char) : Follows (afterExponentSign cs) cs := by
  unfold afterExponentSign
  split
  · exact .cons (by decide) (.refl _)
  · exact .cons (by decide) (.refl _)
  · exact .refl _

theorem afterExponent_follows {r cs : List Char} (h : afterExponent cs = some r) : Follows r cs := by
  unfold afterExponent at h
  split at h
  · exact .cons (by decide) ((afterDigits_eq h).1.trans (afterExponentSign_follows _))
  · exact .cons (by decide) ((afterDigits_eq h).1.trans (afterExponentSign_follows _))
  · exact Option.some.inj h ▸ .refl _

theorem isNumber.facts {cs : List Char} (h : isNumber cs) : (∃ c ∈ cs.head?, isNumStart c) ∧
    ∀ c ∈ cs, isNumChar c := by
  simp only [isNumber, decide_eq_true_eq, Option.bind_eq_some_iff] at h
  obtain ⟨int, hint, fraction, hfraction, hexponent⟩ := h
  obtain ⟨hfollows, c, hc, hdigit⟩ := afterInt_eq hint
  have hrest : Follows [] (afterMinus cs) :=
    ((afterExponent_follows hexponent).trans (afterFraction_follows hfraction)).trans hfollows
  obtain ⟨used, hused, hall⟩ := hrest
  rw [List.append_nil] at hused
  unfold afterMinus at hused hc
  split at hc
  · exact ⟨⟨'-', rfl, rfl⟩, List.forall_mem_cons.2 ⟨rfl, by simpa [← hused] using hall⟩⟩
  · exact ⟨⟨c, hc, by simp [isNumStart, hdigit]⟩, by simpa [← hused] using hall⟩

theorem Num.head (n : Num) : ∃ c ∈ n.lit.head?, isNumStart c := (isNumber.facts n.valid).1

theorem Num.chars (n : Num) : ∀ c ∈ n.lit, isNumChar c := (isNumber.facts n.valid).2

/-! ### Reading and building values -/

/-- The member `k` of an object, and nothing of any other value. -/
def get? (k : String) : Json → Option Json
  | .obj ms => (ms.reverse.find? fun m => m.1 = k).map Prod.snd
  | _ => none

/-- `v ?? d`, where `v` is a property that may be absent. -/
def orElse (v : Option Json) (d : Json) : Json :=
  match v with
  | none | some .null => d
  | some j => j

def asStr? : Json → Option String
  | .str s => some s
  | _ => none

def ofOption (f : α → Json) : Option α → Json
  | none => .null
  | some a => f a

/-- The own enumerable properties of a value, which are what a spread copies. -/
def spread : Json → List (String × Json)
  | .obj ms => ms
  | .arr xs => xs.zipIdx.map fun (x, i) => (toString i, x)
  | _ => []

/-- Sets the property `k` of an object literal under construction. -/
def assign (ms : List (String × Json)) (k : String) (v : Json) : List (String × Json) :=
  if ms.any fun m => m.1 = k then ms.map fun m => if m.1 = k then (k, v) else m else ms ++ [(k, v)]

theorem find?_map_assign {ms : List (String × Json)} {k k' : String} {v : Json} (h : k' ≠ k) :
    ((ms.map fun m => if m.1 = k then (k, v) else m).find? fun m => m.1 = k') = ms.find? fun m =>
    m.1 = k' := by
  induction ms with
  | nil => rfl
  | cons m ms ih =>
    rw [List.map_cons, List.find?_cons, List.find?_cons, ih]
    by_cases hm : m.1 = k
    · have hne : ¬ m.1 = k' := fun heq => h (heq.symm.trans hm)
      simp [hm, h.symm]
    · simp [hm]

/-- Setting a property leaves the others. -/
theorem get?_assign_of_ne {ms : List (String × Json)} {k k' : String} {v : Json} (h : k' ≠ k) :
    get? k' (.obj (assign ms k v)) = get? k' (.obj ms) := by
  unfold assign
  split
  · rw [get?, get?, ← List.map_reverse, find?_map_assign h]
  · simp [get?, h.symm]

theorem get?_cons {m : String × Json} {ms : List (String × Json)} {k : String} :
    get? k (.obj (m :: ms)) = (get? k (.obj ms)).or (if m.1 = k then some m.2 else none) := by
  rw [get?, get?, List.reverse_cons, List.find?_append]
  cases (ms.reverse.find? fun m => decide (m.1 = k)) with
  | some found => rfl
  | none => by_cases hm : m.1 = k <;> simp [hm]

theorem get?_map_assign_self {ms : List (String × Json)} {k : String} {v : Json}
    (h : ms.any fun m => m.1 = k) :
    get? k (.obj (ms.map fun m => if m.1 = k then (k, v) else m)) = some v := by
  induction ms with
  | nil => cases h
  | cons m ms ih =>
    rw [List.map_cons, get?_cons]
    by_cases hms : ms.any fun m => m.1 = k
    · rw [ih hms, Option.some_or]
    · have hm : m.1 = k := by simpa [hms] using h
      have hnone : get? k (.obj (ms.map fun m => if m.1 = k then (k, v) else m)) = none := by
        simp only [List.any_eq_true, decide_eq_true_eq, not_exists, not_and] at hms
        simp only [get?, Option.map_eq_none_iff, List.find?_eq_none, List.mem_reverse, List.mem_map]
        rintro _ ⟨n, hn, rfl⟩
        simp [hms n hn]
      simp [hnone, hm]

theorem get?_assign {ms : List (String × Json)} {k k' : String} {v : Json} :
    get? k' (.obj (assign ms k v)) = if k = k' then some v else get? k' (.obj ms) := by
  by_cases hk : k = k'
  · subst hk
    rw [if_pos rfl]
    unfold assign
    split
    · next h => exact get?_map_assign_self h
    · simp [get?]
  · rw [if_neg hk, get?_assign_of_ne (Ne.symm hk)]

/-- Sets the properties of `new` one after another. -/
def merge (ms new : List (String × Json)) : List (String × Json) :=
  new.foldl (fun ms m => assign ms m.1 m.2) ms

theorem get?_merge {ms new : List (String × Json)} {k : String} :
    get? k (.obj (merge ms new)) = (get? k (.obj new)).or (get? k (.obj ms)) := by
  induction new generalizing ms with
  | nil => rfl
  | cons m new ih =>
    show get? k (.obj (merge (assign ms m.1 m.2) new)) = _
    rw [ih, get?_assign, get?_cons, Option.or_assoc]
    split <;> rfl

/-! ### Strings and numbers -/

mutual

/-- `String(v)` of a JSON value. -/
def stringOf : Json → String
  | .null => "null"
  | .bool b => if b then "true" else "false"
  | .num n => String.ofList n.lit
  | .str s => s
  | .arr xs => String.intercalate "," (elementsOf xs)
  | .obj _ => "[object Object]"

/-- The texts of an array's elements, as `join` has them. -/
def elementsOf : List Json → List String
  | [] => []
  | .null :: xs => "" :: elementsOf xs
  | x :: xs => stringOf x :: elementsOf xs

end

/-- A digit in the sense of the library is one here. -/
theorem isDigit_of_isDigit {c : Char} (h : c.isDigit) : isDigit c := by
  simp only [Char.isDigit, Bool.and_eq_true, decide_eq_true_eq] at h
  simp only [isDigit, Bool.and_eq_true, decide_eq_true_eq]
  exact h

theorem Num.ofNat_digits {n : Nat} {c : Char} (h : c ∈ Nat.toDigits 10 n) : isDigit c :=
  isDigit_of_isDigit (Nat.isDigit_of_mem_toDigits (by decide) (by decide) h)

theorem head_toDigits {n : Nat} (h : n ≠ 0) : (Nat.toDigits 10 n).head? ≠ some '0' := by
  induction n using Nat.strongRecOn with
  | ind n ih =>
    rcases Nat.lt_or_ge n 10 with hlt | hge
    · rw [Nat.toDigits_of_lt_base hlt]
      interval_cases n <;> simp_all [Nat.digitChar]
    · rw [Nat.toDigits_of_base_le (by decide) hge, List.head?_append_of_ne_nil _ Nat.toDigits_ne_nil]
      exact ih (n / 10) (by omega) (by omega)

/-- The digits of a number are one. -/
theorem isNumber_toDigits (n : Nat) : isNumber (Nat.toDigits 10 n) ∧ isNumber ('-' :: Nat.toDigits 10 n) := by
  have hdigits : ∀ c ∈ Nat.toDigits 10 n, isDigit c := fun c => Num.ofNat_digits
  have hint : afterInt (Nat.toDigits 10 n) = some [] := by
    by_cases hn : n = 0
    · subst hn
      rfl
    · have hhead := head_toDigits hn
      obtain ⟨c, cs, hcs⟩ := List.exists_cons_of_ne_nil (Nat.toDigits_ne_nil (n := n) (b := 10))
      rw [hcs] at hdigits hhead ⊢
      have hafter : afterInt (c :: cs) = afterDigits (c :: cs) := by
        unfold afterInt
        split
        · next heq => simp_all
        · rfl
      rw [hafter, afterDigits, List.takeWhile_eq_self_iff.2 hdigits, List.dropWhile_eq_nil_iff.2 hdigits]
      rfl
  have hminus : afterMinus (Nat.toDigits 10 n) = Nat.toDigits 10 n := by
    unfold afterMinus
    split
    · next heq =>
      have := hdigits '-' (heq ▸ List.mem_cons_self)
      exact absurd this (by decide)
    · rfl
  constructor
  · simp [isNumber, hminus, hint, afterFraction, afterExponent]
  · simp [isNumber, afterMinus, hint, afterFraction, afterExponent]

/-- What is printed for an integer. -/
def ofInt : Int → Json
  | .ofNat n => .num ⟨Nat.toDigits 10 n, (isNumber_toDigits n).1⟩
  | .negSucc n => .num ⟨'-' :: Nat.toDigits 10 (n + 1), (isNumber_toDigits (n + 1)).2⟩

/-! ### Printing -/

/-- What `JSON.stringify` prints for one character of a string. -/
def escChar (c : Char) : List Char :=
  if c = '"' then ['\\', '"']
  else if c = '\\' then ['\\', '\\']
  else if c.toNat = 8 then ['\\', 'b']
  else if c.toNat = 12 then ['\\', 'f']
  else if c.toNat = 10 then ['\\', 'n']
  else if c.toNat = 13 then ['\\', 'r']
  else if c.toNat = 9 then ['\\', 't']
  else if c.toNat < 32 then ['\\', 'u', '0', '0', hexDigit (c.toNat / 16), hexDigit (c.toNat % 16)]
  else [c]

/-- A string literal. -/
def quote (s : String) : List Char := '"' :: (s.toList.flatMap escChar ++ ['"'])

mutual

/-- The text `JSON.stringify` writes. -/
def text : Json → List Char
  | .null => ['n', 'u', 'l', 'l']
  | .bool true => ['t', 'r', 'u', 'e']
  | .bool false => ['f', 'a', 'l', 's', 'e']
  | .num n => n.lit
  | .str s => quote s
  | .arr xs => '[' :: (elemsText xs ++ [']'])
  | .obj ms => '{' :: (membersText ms ++ ['}'])

def elemsText : List Json → List Char
  | [] => []
  | [x] => x.text
  | x :: xs => x.text ++ ',' :: elemsText xs

def membersText : List (String × Json) → List Char
  | [] => []
  | [(k, v)] => quote k ++ ':' :: v.text
  | (k, v) :: ms => quote k ++ ':' :: (v.text ++ ',' :: membersText ms)

end

def stringify (j : Json) : String := String.ofList j.text

/-! ### Parsing -/

def isSpace (c : Char) : Bool := c = ' ' || c.toNat = 9 || c.toNat = 10 || c.toNat = 13

/-- Drops white space. -/
def skip (cs : List Char) : List Char := cs.dropWhile isSpace

/-- The four digits of an escape. -/
def hex4 : List Char → Option (Nat × List Char)
  | a :: b :: c :: d :: r => do
    return ((((← hexVal a) * 16 + (← hexVal b)) * 16 + (← hexVal c)) * 16 + (← hexVal d), r)
  | _ => none

/-- The character an escape sequence stands for, after its backslash. A surrogate without its partner
is no scalar value and is refused. -/
def unescape : List Char → Option (Char × List Char)
  | '"' :: r => some ('"', r)
  | '\\' :: r => some ('\\', r)
  | '/' :: r => some ('/', r)
  | 'b' :: r => some (Char.ofNat 8, r)
  | 'f' :: r => some (Char.ofNat 12, r)
  | 'n' :: r => some (Char.ofNat 10, r)
  | 'r' :: r => some (Char.ofNat 13, r)
  | 't' :: r => some (Char.ofNat 9, r)
  | 'u' :: r => do
    let (u, r) ← hex4 r
    if u < 0xd800 ∨ 0xe000 ≤ u then return (Char.ofNat u, r)
    match r with
    | '\\' :: 'u' :: r =>
      let (w, r) ← hex4 r
      if u < 0xdc00 ∧ 0xdc00 ≤ w ∧ w < 0xe000 then
        return (Char.ofNat (0x10000 + (u - 0xd800) * 0x400 + (w - 0xdc00)), r)
      none
    | _ => none
  | _ => none

/-- The rest of a string literal, up to its closing quote. -/
def parseStr : Nat → List Char → Option (List Char × List Char)
  | 0, _ => none
  | _ + 1, [] => none
  | n + 1, c :: r =>
    if c = '"' then some ([], r)
    else if c = '\\' then do
      let (c, r) ← unescape r
      let (cs, r) ← parseStr n r
      return (c :: cs, r)
    else if c.toNat < 32 then none
    else do
      let (cs, r) ← parseStr n r
      return (c :: cs, r)

def parseNum (cs : List Char) : Option (Json × List Char) :=
  if h : isNumber (cs.takeWhile isNumChar) then
    some (.num ⟨cs.takeWhile isNumChar, h⟩, cs.dropWhile isNumChar)
  else none

def keyword : List Char → Option (Json × List Char)
  | 'n' :: 'u' :: 'l' :: 'l' :: r => some (.null, r)
  | 't' :: 'r' :: 'u' :: 'e' :: r => some (.bool true, r)
  | 'f' :: 'a' :: 'l' :: 's' :: 'e' :: r => some (.bool false, r)
  | _ => none

mutual

/-- A value at the head of the text, with what follows; the fuel bounds the nesting. -/
def parseValue : Nat → List Char → Option (Json × List Char)
  | 0, _ => none
  | n + 1, cs =>
    match skip cs with
    | [] => none
    | c :: r =>
      if c = '"' then (parseStr n r).map fun (s, r) => (.str (String.ofList s), r)
      else if c = '[' then
        if (skip r).head? = some ']' then some (.arr [], (skip r).tail)
        else (parseElems n r).map fun (xs, r) => (.arr xs, r)
      else if c = '{' then
        if (skip r).head? = some '}' then some (.obj [], (skip r).tail)
        else (parseMembers n r).map fun (ms, r) => (.obj ms, r)
      else if isNumStart c then parseNum (c :: r)
      else keyword (c :: r)

/-- The elements of an array, its closing bracket included. -/
def parseElems : Nat → List Char → Option (List Json × List Char)
  | 0, _ => none
  | n + 1, cs => do
    let (x, r) ← parseValue n cs
    match skip r with
    | ',' :: r =>
      let (xs, r) ← parseElems n r
      return (x :: xs, r)
    | ']' :: r => return ([x], r)
    | _ => none

/-- The members of an object, its closing brace included. -/
def parseMembers : Nat → List Char → Option (List (String × Json) × List Char)
  | 0, _ => none
  | n + 1, cs =>
    match skip cs with
    | '"' :: r => do
      let (k, r) ← parseStr n r
      match skip r with
      | ':' :: r =>
        let (v, r) ← parseValue n r
        match skip r with
        | ',' :: r =>
          let (ms, r) ← parseMembers n r
          return ((String.ofList k, v) :: ms, r)
        | '}' :: r => return ([(String.ofList k, v)], r)
        | _ => none
      | _ => none
    | _ => none

end

/-- A whole text that is one value. -/
def parse (s : String) : Option Json :=
  match parseValue (s.toList.length + 1) s.toList with
  | some (j, r) => if skip r = [] then some j else none
  | none => none

/-! ### The round trip -/

/-- The text after a value does not continue a number. -/
def Stops (r : List Char) : Prop := ∀ c ∈ r.head?, isNumChar c = false

theorem Stops.cons {c : Char} {r : List Char} (h : isNumChar c = false) : Stops (c :: r) := by
  rintro _ ⟨⟩
  exact h

theorem skip_of_not_space {c : Char} {r : List Char} (h : isSpace c = false) : skip (c :: r) = c :: r := by
  simp [skip, h]

theorem isNumStart.facts {c : Char} (h : isNumStart c) :
    isSpace c = false ∧ c ≠ '"' ∧ c ≠ '[' ∧ c ≠ '{' ∧ c ≠ ']' ∧ c ≠ '}' := by
  refine ⟨?_, ?_, ?_, ?_, ?_, ?_⟩
  · by_contra hs
    simp only [isSpace, Bool.not_eq_false, Bool.or_eq_true, decide_eq_true_eq] at hs
    simp only [isNumStart, isDigit, Bool.or_eq_true, Bool.and_eq_true, decide_eq_true_eq, Char.le_def,
      UInt32.le_iff_toNat_le] at h
    have h0 : '0'.val.toNat = 48 := rfl
    rcases hs with ((rfl | hs) | hs) | hs
    · exact absurd h (by decide)
    all_goals
      rcases h with h | rfl
      · have : c.toNat = c.val.toNat := rfl
        omega
      · exact absurd hs (by decide)
  all_goals
    rintro rfl
    exact absurd h (by decide)

theorem parseStr_escChar {c : Char} {n : Nat} {r : List Char} :
    parseStr (n + 1) (escChar c ++ r) = (parseStr n r).map fun (cs, r) => (c :: cs, r) := by
  have hret : ∀ c' : Char, c' = c →
      (do let (cs, r) ← parseStr n r; return (c' :: cs, r)) =
        (parseStr n r).map fun (cs, r) => (c :: cs, r) := by
    rintro c' rfl
    rcases parseStr n r with _ | ⟨cs, r⟩ <;> rfl
  have hnat : ∀ k, c.toNat = k → Char.ofNat k = c := by
    rintro k rfl
    exact Char.ofNat_toNat c
  unfold escChar
  split_ifs with h1 h2 h3 h4 h5 h6 h7 h8
  · simpa [parseStr, unescape] using hret _ h1.symm
  · simpa [parseStr, unescape] using hret _ h2.symm
  · simpa [parseStr, unescape] using hret _ (hnat _ h3)
  · simpa [parseStr, unescape] using hret _ (hnat _ h4)
  · simpa [parseStr, unescape] using hret _ (hnat _ h5)
  · simpa [parseStr, unescape] using hret _ (hnat _ h6)
  · simpa [parseStr, unescape] using hret _ (hnat _ h7)
  · have hd := hexVal_hexDigit (c.toNat / 16) (by omega)
    have hm := hexVal_hexDigit (c.toNat % 16) (by omega)
    have h0 : hexVal '0' = some 0 := by decide
    have hval : (0 * 16 + 0) * 16 + c.toNat / 16 = c.toNat / 16 := by omega
    have hsum : c.toNat / 16 * 16 + c.toNat % 16 = c.toNat := by omega
    have hlt : c.toNat < 0xd800 := by omega
    simpa [parseStr, unescape, hex4, h0, hd, hm, hsum, hlt] using hret _ (hnat _ rfl)
  · simpa [parseStr, h1, h2, h8] using hret _ rfl

theorem parseStr_quote {cs r : List Char} {n : Nat} (hn : cs.length < n) :
    parseStr n (cs.flatMap escChar ++ '"' :: r) = some (cs, r) := by
  induction cs generalizing n with
  | nil =>
    obtain ⟨n, rfl⟩ := Nat.exists_eq_succ_of_ne_zero (Nat.ne_of_gt hn)
    simp [parseStr]
  | cons c cs ih =>
    obtain ⟨n, rfl⟩ := Nat.exists_eq_succ_of_ne_zero (Nat.ne_of_gt (Nat.zero_lt_of_lt hn))
    rw [List.flatMap_cons, List.append_assoc, parseStr_escChar, ih (by simpa using hn)]
    rfl

/-- A character is printed as itself or as an escape of at most six characters. -/
theorem escChar_head (c : Char) : escChar c = [c] ∨ ∃ as, escChar c = '\\' :: as ∧ as.length ≤ 5 := by
  have hif : ∀ {p : Prop} [Decidable p] {a : Char} {as bs : List Char}, as.length ≤ 4 →
      (bs = [c] ∨ ∃ cs, bs = '\\' :: cs ∧ cs.length ≤ 5) →
        (if p then '\\' :: a :: as else bs) = [c] ∨
          ∃ cs, (if p then '\\' :: a :: as else bs) = '\\' :: cs ∧ cs.length ≤ 5 := by
    intro p _ a as bs hlength hrest
    by_cases hp : p
    · rw [if_pos hp]
      exact .inr ⟨_, rfl, Nat.succ_le_succ hlength⟩
    · rwa [if_neg hp]
  unfold escChar
  iterate 8 refine hif (by simp) ?_
  exact .inl rfl

theorem length_escChar_pos {c : Char} : 0 < (escChar c).length := by
  rcases escChar_head c with h | ⟨as, h, -⟩
  all_goals
    rw [h]
    exact Nat.succ_pos _

theorem length_le_flatMap_escChar {cs : List Char} : cs.length ≤ (cs.flatMap escChar).length := by
  induction cs with
  | nil => simp
  | cons c cs ih =>
    have := @length_escChar_pos c
    simp only [List.flatMap_cons, List.length_append, List.length_cons]
    omega

theorem parseNum_lit {m : Num} {r : List Char} (hr : Stops r) : parseNum (m.lit ++ r) = some (.num m, r) := by
  have hstop : r.takeWhile isNumChar = [] ∧ r.dropWhile isNumChar = r := by
    cases r with
    | nil => simp
    | cons c r => simp [hr c rfl]
  have htake : (m.lit ++ r).takeWhile isNumChar = m.lit := by
    rw [List.takeWhile_append_of_pos m.chars, hstop.1, List.append_nil]
  have hdrop : (m.lit ++ r).dropWhile isNumChar = r := by
    rw [List.dropWhile_append_of_pos m.chars, hstop.2]
  simp only [parseNum, htake, hdrop, m.valid, dif_pos]

/-- A printed value starts with a character that is no space and closes no bracket. -/
theorem text_head : ∀ j : Json, ∃ c t, j.text = c :: t ∧ isSpace c = false ∧ c ≠ ']' ∧ c ≠ '}'
  | .null => ⟨_, _, text.eq_1, by decide⟩
  | .bool true => ⟨_, _, text.eq_2, by decide⟩
  | .bool false => ⟨_, _, text.eq_3, by decide⟩
  | .num m => by
    obtain ⟨c, hc, hs⟩ := m.head
    obtain ⟨t, ht⟩ := List.head?_eq_some_iff.1 hc
    obtain ⟨h, -, -, -, h1, h2⟩ := isNumStart.facts hs
    exact ⟨c, t, by rw [text, ht], h, h1, h2⟩
  | .str s => ⟨_, _, by rw [text, quote], by decide⟩
  | .arr xs => ⟨_, _, by rw [text], by decide⟩
  | .obj ms => ⟨_, _, by rw [text], by decide⟩

theorem elemsText_head (x : Json) (xs : List Json) :
    ∃ c t, elemsText (x :: xs) = c :: t ∧ isSpace c = false ∧ c ≠ ']' ∧ c ≠ '}' := by
  obtain ⟨c, t, h, hc⟩ := text_head x
  cases xs with
  | nil => exact ⟨c, t, by rw [elemsText, h], hc⟩
  | cons y ys => exact ⟨c, _, by rw [elemsText, h, List.cons_append]; simp, hc⟩

theorem membersText_head (k : String) (v : Json) (ms : List (String × Json)) :
    ∃ t, membersText ((k, v) :: ms) = '"' :: t := by
  cases ms with
  | nil => exact ⟨_, by rw [membersText, quote, List.cons_append]⟩
  | cons m ms => exact ⟨_, by rw [membersText, quote, List.cons_append]; simp⟩

theorem length_text_pos {j : Json} : 0 < j.text.length := by
  obtain ⟨c, t, h, -⟩ := text_head j
  simp [h]

mutual

/-- Printing a value and parsing it again, with anything after it that does not continue a number. -/
theorem parseValue_text {r : List Char} (hr : Stops r) :
    ∀ {n : Nat} (j : Json), j.text.length < n → parseValue n (j.text ++ r) = some (j, r)
  | n + 1, .null, _ => by simp [parseValue, text, skip, isSpace, isNumStart, isDigit, keyword]
  | n + 1, .bool true, _ => by simp [parseValue, text, skip, isSpace, isNumStart, isDigit, keyword]
  | n + 1, .bool false, _ => by simp [parseValue, text, skip, isSpace, isNumStart, isDigit, keyword]
  | n + 1, .num m, _ => by
    obtain ⟨c, hc, hs⟩ := m.head
    obtain ⟨t, ht⟩ := List.head?_eq_some_iff.1 hc
    obtain ⟨h, h1, h2, h3, -, -⟩ := isNumStart.facts hs
    have := parseNum_lit (m := m) hr
    rw [ht] at this
    simpa [parseValue, text, ht, skip, h, h1, h2, h3, hs] using this
  | n + 1, .str s, hn => by
    have hlen := @length_le_flatMap_escChar s.toList
    simp only [text, quote, List.length_cons, List.length_append] at hn
    have hp := @parseStr_quote s.toList r n (by omega)
    simp [parseValue, text, quote, skip, isSpace, hp]
  | n + 1, .arr [], _ => by simp [parseValue, text, elemsText, skip, isSpace]
  | n + 1, .arr (x :: xs), hn => by
    obtain ⟨c, t, ht, hsp, hcl, -⟩ := elemsText_head x xs
    simp only [text, List.length_cons, List.length_append] at hn
    have hp := parseElems_text (r := r) (n := n) x xs (by simpa using hn)
    rw [ht, List.cons_append] at hp
    have hb : isSpace '[' = false := by decide
    simp [parseValue, text, ht, skip_of_not_space hb, skip_of_not_space hsp, hcl, hp]
  | n + 1, .obj [], _ => by simp [parseValue, text, membersText, skip, isSpace]
  | n + 1, .obj ((k, v) :: ms), hn => by
    simp only [text, List.length_cons, List.length_append] at hn
    have hp := parseMembers_text (r := r) (n := n) k v ms (by simpa using hn)
    obtain ⟨t, ht⟩ := membersText_head k v ms
    rw [ht, List.cons_append] at hp
    simp [parseValue, text, ht, skip, isSpace, hp]

theorem parseElems_text {r : List Char} :
    ∀ {n : Nat} (x : Json) (xs : List Json), (elemsText (x :: xs)).length + 1 < n →
      parseElems n (elemsText (x :: xs) ++ ']' :: r) = some (x :: xs, r)
  | n + 1, x, [], hn => by
    have hp := parseValue_text (r := ']' :: r) (.cons (by decide)) (n := n) x
      (by simp only [elemsText] at hn; omega)
    simp [parseElems, elemsText, hp, skip, isSpace]
  | n + 1, x, y :: ys, hn => by
    simp only [elemsText, List.length_append, List.length_cons] at hn
    have hp := parseValue_text (r := ',' :: (elemsText (y :: ys) ++ ']' :: r)) (.cons (by decide)) (n := n) x
      (by omega)
    have hq := parseElems_text (r := r) (n := n) y ys (by have := @length_text_pos x; omega)
    simp [parseElems, elemsText, hp, hq, skip, isSpace]

theorem parseMembers_text {r : List Char} :
    ∀ {n : Nat} (k : String) (v : Json) (ms : List (String × Json)),
      (membersText ((k, v) :: ms)).length + 1 < n →
      parseMembers n (membersText ((k, v) :: ms) ++ '}' :: r) = some ((k, v) :: ms, r)
  | n + 1, k, v, [], hn => by
    simp only [membersText, quote, List.length_append, List.length_cons] at hn
    have hlen := @length_le_flatMap_escChar k.toList
    have hk := @parseStr_quote k.toList (':' :: (v.text ++ '}' :: r)) n (by omega)
    have hp := parseValue_text (r := '}' :: r) (.cons (by decide)) (n := n) v (by omega)
    simp [parseMembers, membersText, quote, hk, hp, skip, isSpace]
  | n + 1, k, v, (k', v') :: ms, hn => by
    simp only [membersText, quote, List.length_append, List.length_cons] at hn
    have hlen := @length_le_flatMap_escChar k.toList
    have hk := @parseStr_quote k.toList
      (':' :: (v.text ++ ',' :: (membersText ((k', v') :: ms) ++ '}' :: r))) n
      (by omega)
    have hp := parseValue_text (r := ',' :: (membersText ((k', v') :: ms) ++ '}' :: r)) (.cons (by decide))
      (n := n) v (by omega)
    have hq := parseMembers_text (r := r) (n := n) k' v' ms (by omega)
    simp [parseMembers, membersText, quote, hk, hp, hq, skip, isSpace]

end

theorem parse_stringify (j : Json) : parse j.stringify = some j := by
  have h := parseValue_text (r := []) (by rintro _ ⟨⟩) (n := j.text.length + 1) j (by omega)
  rw [List.append_nil] at h
  simp [parse, stringify, h, skip]

theorem stringify_injective : Function.Injective stringify := fun a b h =>
  Option.some.inj (by rw [← parse_stringify a, ← parse_stringify b, h])

instance : DecidableEq Json := stringify_injective.decidableEq

/-! ### Values up to the order of members -/

/-- The values read the same: an object's members may be in another order, and those that a later one of their
name replaces may be left out. -/
inductive Same : Json → Json → Prop
  | leaf (j : Json) : Same j j
  | arr {xs ys : List Json} (h : List.Forall₂ Same xs ys) : Same (.arr xs) (.arr ys)
  | obj {ms ns : List (String × Json)} (h : ∀ k, Option.Rel Same (get? k (.obj ms)) (get? k (.obj ns))) :
    Same (.obj ms) (.obj ns)

variable {a b : Json}

theorem option_rel_refl {R : Json → Json → Prop} {o : Option Json} (h : ∀ j, R j j) : Option.Rel R o o := by
  cases o with
  | none => exact .none
  | some j => exact .some (h j)

theorem Same.get? (h : Same a b) (k : String) : Option.Rel Same (get? k a) (get? k b) := by
  cases h with
  | leaf => exact option_rel_refl .leaf
  | arr => exact .none
  | obj h => exact h k

theorem Same.asStr? (h : Same a b) : a.asStr? = b.asStr? := by
  cases h <;> rfl

/-- What is read of a member that is there. -/
theorem Same.bind {β : Type*} (h : Same a b) (k : String) {f : Json → Option β}
    (hf : ∀ {x y}, Same x y → f x = f y) :
    (Json.get? k a).bind f = (Json.get? k b).bind f := by
  have hrel := h.get? k
  revert hrel
  cases Json.get? k a <;> cases Json.get? k b <;> rintro ⟨⟩
  · rfl
  · exact hf ‹_›

/-! An object as a map sorted by name. -/

mutual

/-- Each object's members in the order of their names, the last of each name. -/
def sorted : Json → Json
  | .arr xs => .arr (sortedItems xs)
  | .obj ms => .obj ((merge [] (sortedMembers ms)).insertionSort fun m n => m.1 ≤ n.1)
  | j => j

def sortedItems : List Json → List Json
  | [] => []
  | x :: xs => sorted x :: sortedItems xs

def sortedMembers : List (String × Json) → List (String × Json)
  | [] => []
  | (k, v) :: ms => (k, sorted v) :: sortedMembers ms

end

theorem names_assign (ms : List (String × Json)) (k : String) (v : Json) :
    (assign ms k v).map Prod.fst = if k ∈ ms.map Prod.fst then ms.map Prod.fst
    else ms.map Prod.fst ++ [k] := by
  have hany : (ms.any fun m => m.1 = k) = decide (k ∈ ms.map Prod.fst) := by
    rw [Bool.eq_iff_iff]
    simp
  unfold assign
  rw [hany]
  by_cases h : k ∈ ms.map Prod.fst
  · rw [decide_eq_true h, if_pos rfl, if_pos h, List.map_map]
    refine List.map_congr_left fun m _ => ?_
    by_cases hm : m.1 = k <;> simp [hm]
  · rw [decide_eq_false h, if_neg Bool.false_ne_true, if_neg h, List.map_append]
    rfl

theorem nodup_merge {ms new : List (String × Json)} (h : (ms.map Prod.fst).Nodup) :
    ((merge ms new).map Prod.fst).Nodup := by
  induction new generalizing ms with
  | nil => exact h
  | cons m new ih =>
    refine ih (?_ : ((assign ms m.1 m.2).map Prod.fst).Nodup)
    rw [names_assign]
    split
    · exact h
    · next hm =>
        exact List.nodup_append.2 ⟨h,
          List.nodup_singleton _, by simpa using fun a ha (heq : a = m.1) => hm (heq ▸ ha)⟩

/-- Where the names differ the order does not count. -/
theorem get?_perm {ms ns : List (String × Json)} {k : String} (hperm : ms.Perm ns)
    (hnodup : (ms.map Prod.fst).Nodup) :
    get? k (.obj ms) = get? k (.obj ns) := by
  have hfind : ∀ {l : List (String × Json)}, (l.map Prod.fst).Nodup → ∀ v, get? k (.obj l) = some v ↔
      (k, v) ∈ l := by
    intro l hl v
    constructor
    · intro h
      obtain ⟨m, hm, rfl⟩ := Option.map_eq_some_iff.1 h
      have hk : m.1 = k := by simpa using List.find?_some hm
      exact hk ▸ List.mem_reverse.1 (List.mem_of_find?_eq_some hm)
    · intro h
      cases hfound : l.reverse.find? fun m => m.1 = k with
      | none =>
        have hne := List.find?_eq_none.1 hfound _ (List.mem_reverse.2 h)
        simp at hne
      | some m =>
        have hk : m.1 = k := by simpa using List.find?_some hfound
        have hm := List.mem_reverse.1 (List.mem_of_find?_eq_some hfound)
        rw [get?, hfound, Option.map_some, List.inj_on_of_nodup_map hl hm h hk]
  refine Option.ext fun v => ?_
  rw [hfind hnodup, hfind (hperm.map _ |>.nodup_iff.1 hnodup)]
  exact hperm.mem_iff

theorem get?_sortedMembers (k : String) :
    ∀ ms, get? k (.obj (sortedMembers ms)) = (get? k (.obj ms)).map sorted
  | [] => rfl
  | (k', v) :: ms => by
    rw [sortedMembers, get?_cons, get?_cons, get?_sortedMembers k ms]
    cases get? k (.obj ms) with
    | some w => rfl
    | none => by_cases hk : k' = k <;> simp [hk]

theorem same_sorted (j : Json) : Same j j.sorted := by
  induction j using parts with
  | leaf j harr hobj =>
    cases j with
    | arr xs => exact absurd rfl (harr xs)
    | obj ms => exact absurd rfl (hobj ms)
    | _ => exact .leaf _
  | harr xs ih =>
    refine .arr ?_
    induction xs with
    | nil => exact .nil
    | cons x xs ihxs =>
      exact .cons (ih x List.mem_cons_self) (ihxs fun y hy => ih y (List.mem_cons_of_mem _ hy))
  | hobj ms ih =>
    refine .obj fun k => ?_
    have hnodup : ((merge [] (sortedMembers ms)).map Prod.fst).Nodup := nodup_merge List.nodup_nil
    rw [← get?_perm (List.perm_insertionSort _ _).symm hnodup, get?_merge, get?_sortedMembers]
    cases hget : get? k (.obj ms) with
    | none => exact .none
    | some v =>
      obtain ⟨m, hm, rfl⟩ := Option.map_eq_some_iff.1 hget
      exact .some (ih m (List.mem_reverse.1 (List.mem_of_find?_eq_some hm)))

end Json
