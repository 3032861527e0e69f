import Mathlib.Data.List.Basic
import Mathlib.Data.String.Basic

/-!
# Text

Strings are worked on as lists of characters, so that every function here evaluates by `decide`.
-/

namespace Text

/-- The characters of a literal, found by unification. Evaluating `String.toList` would decode its
bytes one by one. -/
theorem toList_eq {s : String} {cs : List Char} (h : s = String.ofList cs) : s.toList = cs :=
  h ▸ String.toList_ofList

/-- The characters `String.prototype.trim` removes. -/
def isSpace (c : Char) : Bool :=
  let n := c.toNat
  (9 ≤ n && n ≤ 13) || n = 32 || n = 0xa0 || n = 0x1680 || (0x2000 ≤ n && n ≤ 0x200a) || n = 0x2028 ||
    n = 0x2029 || n = 0x202f || n = 0x205f || n = 0x3000 || n = 0xfeff

/-- The characters that `.` leaves out in a regular expression of JavaScript. -/
def isLineTerminator (c : Char) : Bool := c.toNat = 10 || c.toNat = 13 || c.toNat = 0x2028 || c.toNat = 0x2029

/-- Without white space at either end. -/
def trimChars (cs : List Char) : List Char := (((cs.dropWhile isSpace).reverse).dropWhile isSpace).reverse

def trim (s : String) : String := String.ofList (trimChars s.toList)

/-- The characters Rust's `str::trim` removes: those with the property White_Space. -/
def isWhitespace (c : Char) : Bool :=
  let n := c.toNat
  (9 ≤ n && n ≤ 13) || n = 32 || n = 0x85 || n = 0xa0 || n = 0x1680 || (0x2000 ≤ n && n ≤ 0x200a) ||
    n = 0x2028 ||
    n = 0x2029 || n = 0x202f || n = 0x205f || n = 0x3000

/-- Without the white space of Unicode at either end. -/
def trimWhitespaceChars (cs : List Char) : List Char :=
  (((cs.dropWhile isWhitespace).reverse).dropWhile isWhitespace).reverse

def trimWhitespace (s : String) : String := String.ofList (trimWhitespaceChars s.toList)

/-- What is left when spaces are removed at both ends, where nothing else is left than characters of
a kind that is no space. -/
theorem filter_dropWhile {sp p : Char → Bool} (h : ∀ c, sp c = true → p c = false) (cs : List Char) :
    (cs.dropWhile sp).filter p = cs.filter p := by
  induction cs with
  | nil => rfl
  | cons c cs ih =>
    by_cases hc : sp c = true
    · rw [List.dropWhile_cons_of_pos hc, ih, List.filter_cons_of_neg (by simp [h c hc])]
    · rw [List.dropWhile_cons_of_neg hc]

theorem trimmed_eq_filter {sp p : Char → Bool} (h : ∀ c, sp c = true → p c = false) {cs t : List Char}
    (ht : (((cs.dropWhile sp).reverse).dropWhile sp).reverse = t) (hp : ∀ c ∈ t, p c = true) :
    t = cs.filter p := by
  have hall : t.filter p = t := List.filter_eq_self.2 hp
  rw [← hall, ← ht, List.filter_reverse, filter_dropWhile h, List.filter_reverse, List.reverse_reverse,
    filter_dropWhile h]

/-- The parts of `cs` between the occurrences of `sep`; there is always at least one. -/
def splitOn (sep : Char) : List Char → List (List Char)
  | [] => [[]]
  | c :: cs =>
    if c = sep then [] :: splitOn sep cs
    else
      match splitOn sep cs with
      | [] => [[c]]
      | p :: ps => (c :: p) :: ps

theorem splitOn_self {sep : Char} {part : List Char} (h : sep ∉ part) : splitOn sep part = [part] := by
  induction part with
  | nil => rfl
  | cons c part ih =>
    rw [List.mem_cons, not_or] at h
    rw [splitOn, if_neg (Ne.symm h.1), ih h.2]

theorem splitOn_append {sep : Char} {part : List Char} (h : sep ∉ part) (rest : List Char) :
    splitOn sep (part ++ sep :: rest) = part :: splitOn sep rest := by
  induction part with
  | nil => rw [List.nil_append, splitOn, if_pos rfl]
  | cons c part ih =>
    rw [List.mem_cons, not_or] at h
    rw [List.cons_append, splitOn, if_neg (Ne.symm h.1), ih h.2]

def isDigit (c : Char) : Bool := '0' ≤ c && c ≤ '9'

/-- The value of a list of digits. -/
def digitsValue (cs : List Char) : Nat := cs.foldl (fun n c => n * 10 + (c.toNat - 48)) 0

/-! ### Hexadecimal text -/

def hexDigit (n : Nat) : Char := "0123456789abcdef".toList.getD n '0'

def hexVal (c : Char) : Option Nat :=
  if isDigit c then some (c.toNat - 48)
  else if 'a' ≤ c ∧ c ≤ 'f' then some (c.toNat - 87)
  else if 'A' ≤ c ∧ c ≤ 'F' then some (c.toNat - 55)
  else none

theorem hexVal_hexDigit : ∀ n < 16, hexVal (hexDigit n) = some n := by decide

/-- Two lower-case digits a byte. -/
def hexOfBytes (bs : List UInt8) : List Char :=
  bs.flatMap fun b => [hexDigit (b.toNat / 16), hexDigit (b.toNat % 16)]

/-- The bytes of the pairs of digits a text starts with. -/
def bytesOfHex : List Char → List UInt8
  | a :: b :: cs =>
    match hexVal a, hexVal b with
    | some x, some y => UInt8.ofNat (16 * x + y) :: bytesOfHex cs
    | _, _ => []
  | _ => []

theorem bytesOfHex_hexOfBytes (bs : List UInt8) : bytesOfHex (hexOfBytes bs) = bs := by
  induction bs with
  | nil => rfl
  | cons b bs ih =>
    have hb := b.toNat_lt
    have hhi := hexVal_hexDigit (b.toNat / 16) (by omega)
    have hlo := hexVal_hexDigit (b.toNat % 16) (by omega)
    have hsum : 16 * (b.toNat / 16) + b.toNat % 16 = b.toNat := Nat.div_add_mod _ _
    simpa [hexOfBytes, bytesOfHex, hhi, hlo, hsum] using ih

/-! ### Strings that may be absent -/

/-- `s || t`, for strings that may be absent. -/
def orElse (s t : Option String) : Option String :=
  match s with
  | none | some "" => t
  | some s => some s

/-- A string that is there and not empty, which is what a string tested for truth is. -/
def truthy (s : Option String) : Option String := s.filter (· ≠ "")

@[simp] theorem truthy_eq_some {s : Option String} {t : String} : truthy s = some t ↔ s = some t ∧
    t ≠ "" := by
  simp [truthy, Option.filter_eq_some_iff]

end Text
