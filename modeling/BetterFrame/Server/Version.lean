import BetterFrame.Lib.Text
import Mathlib.Order.Compare

/-!
# Versions

`shared/version.ts`: versions are compared as semantic versions, except that alphanumeric prerelease
identifiers go through `localeCompare`, and that numeric ones are JavaScript numbers.
-/

namespace Version

open Text

/-- The double nearest to a natural number, ties to even; `2 ^ 1024` stands for infinity. -/
def toNumber (n : Nat) : Nat :=
  if n < 2 ^ 53 then n
  else
    let unit := 2 ^ (n.log2 - 52)
    let q := n / unit
    let r := n % unit
    min (2 ^ 1024) ((if unit < 2 * r ∨ unit = 2 * r ∧ q % 2 = 1 then q + 1 else q) * unit)

/-- A part of a prerelease: a number where it has digits only. -/
inductive Part where
  | num (n : Nat)
  | str (s : List Char)
deriving DecidableEq

/-- The numbers of a version, and its prerelease parts. -/
structure ParsedVersion where
  core : Nat × Nat × Nat
  prerelease : List Part
deriving DecidableEq

def isPrereleaseChar (c : Char) : Bool :=
  isDigit c || ('A' ≤ c && c ≤ 'Z') || ('a' ≤ c && c ≤ 'z') || c = '.' || c = '-'

/-- A pre-release part: a number when all digits. -/
def parsePart (cs : List Char) : Part :=
  if cs ≠ [] ∧ cs.all isDigit then .num (toNumber (digitsValue cs)) else .str cs

/-- A digit run and what follows it. -/
def digits (cs : List Char) : Option (Nat × List Char) :=
  if cs.takeWhile isDigit = [] then none
  else some (digitsValue (cs.takeWhile isDigit), cs.dropWhile isDigit)

def dot : List Char → Option (List Char)
  | '.' :: cs => some cs
  | _ => none

/-- What stands after the core: nothing, or a hyphen and a prerelease. -/
def parsePrerelease : List Char → Option (List Part)
  | [] => some []
  | '-' :: cs => if cs ≠ [] ∧ cs.all isPrereleaseChar then some ((splitOn '.' cs).map parsePart) else none
  | _ => none

/-- Without a leading `v`. -/
def stripV : List Char → List Char
  | 'v' :: cs => cs
  | cs => cs

def parseVersion (value : String) : Option ParsedVersion := do
  let cs := stripV (trimChars value.toList)
  let (major, cs) ← digits cs
  let (minor, cs) ← digits (← dot cs)
  let (patch, cs) ← digits (← dot cs)
  let prerelease ← parsePrerelease cs
  -- `Number.isSafeInteger`
  if major < 2 ^ 53 ∧ minor < 2 ^ 53 ∧ patch < 2 ^ 53 then
    return { core := (major, minor, patch), prerelease }
  none

/-- Primary weights of the root collation: the hyphen, the digits, the letters without their case. -/
def primary (c : Char) : Nat :=
  if c = '-' then 0
  else if isDigit c then 1 + (c.toNat - 48)
  else if 'a' ≤ c ∧ c ≤ 'z' then 11 + (c.toNat - 97)
  else 11 + (c.toNat - 65)

/-- Tertiary weights: capital letters come after small ones. -/
def tertiary (c : Char) : Nat := if 'A' ≤ c ∧ c ≤ 'Z' then 1 else 0

/-- `localeCompare` of two prerelease identifiers. -/
def localeCompare (a b : List Char) : Ordering :=
  (compare (a.map primary) (b.map primary)).then (compare (a.map tertiary) (b.map tertiary))

/-- Numbers before texts, texts in the collation's order. -/
def comparePart : Part → Part → Ordering
  | .num a, .num b => compare a b
  | .num _, .str _ => .lt
  | .str _, .num _ => .gt
  | .str a, .str b => localeCompare a b

/-- The loop over two prereleases, the shorter of which ends first. -/
def comparePrerelease : List Part → List Part → Ordering
  | [], [] => .eq
  | [], _ :: _ => .lt
  | _ :: _, [] => .gt
  | a :: as, b :: bs => if a = b then comparePrerelease as bs else comparePart a b

/-- By the core, then a release after its pre-releases. -/
def compareVersions (left right : ParsedVersion) : Ordering :=
  ((compare left.core.1 right.core.1).then
    ((compare left.core.2.1 right.core.2.1).then (compare left.core.2.2 right.core.2.2))).then
    (if left.prerelease = [] ∨ right.prerelease = [] then
      -- a release comes after its prereleases
      (if left.prerelease = [] ∧ right.prerelease = [] then .eq else if left.prerelease = [] then .gt
        else .lt)
    else comparePrerelease left.prerelease right.prerelease)

/-- Whether `candidate` is an upgrade of `installed`; any parsable version is one of an unparsable
version that is spelled otherwise. -/
def isVersionUpgrade (candidate installed : String) : Bool :=
  match parseVersion candidate, parseVersion installed with
  | none, _ => false
  | some next, some current => compareVersions next current = .gt
  | some _, none => trim candidate ≠ trim installed

example : isVersionUpgrade "v1.10.0" "1.9.2" ∧ isVersionUpgrade "1.0.0" "1.0.0-rc.2" ∧
    ¬ isVersionUpgrade "1.0.0-beta" "1.0.0-rc" ∧ isVersionUpgrade "1.0.0" "unknown" := by decide

/-! ### The order of versions -/

section Order

instance : Std.TransCmp localeCompare :=
  inferInstanceAs (Std.TransCmp (compareLex (compareOn fun (l : List Char) => l.map primary)
    (compareOn fun (l : List Char) => l.map tertiary)))

theorem comparePart_swap (a b : Part) : comparePart a b = (comparePart b a).swap := by
  cases a with
  | num a =>
    cases b with
    | num b =>
      show compare a b = (compare b a).swap
      exact Std.OrientedCmp.eq_swap
    | str b => rfl
  | str a =>
    cases b with
    | num b => rfl
    | str b =>
      show localeCompare a b = (localeCompare b a).swap
      exact Std.OrientedCmp.eq_swap

theorem comparePart_trans {a b c : Part} (h : comparePart a b = .gt) (h' : comparePart b c = .gt) :
    comparePart a c = .gt := by
  cases a with
  | num a =>
    cases b with
    | num b =>
      cases c with
      | num c =>
        have hab : compare a b = .gt := h
        have hac : compare a c = .gt := Std.TransCmp.gt_trans hab h'
        exact hac
      | str c => cases h'
    | str b => cases h
  | str a =>
    cases b with
    | num b =>
      cases c with
      | num c => rfl
      | str c => cases h'
    | str b =>
      cases c with
      | num c => rfl
      | str c =>
        have hab : localeCompare a b = .gt := h
        have hac : localeCompare a c = .gt := Std.TransCmp.gt_trans hab h'
        exact hac

theorem comparePrerelease_swap (as bs : List Part) :
    comparePrerelease as bs = (comparePrerelease bs as).swap := by
  induction as generalizing bs with
  | nil => cases bs <;> rfl
  | cons a as ih =>
    cases bs with
    | nil => rfl
    | cons b bs =>
      unfold comparePrerelease
      by_cases hab : a = b
      · rw [if_pos hab, if_pos hab.symm]
        exact ih bs
      · rw [if_neg hab, if_neg fun h => hab h.symm]
        exact comparePart_swap a b

theorem comparePrerelease_trans {as bs cs : List Part} (h : comparePrerelease as bs = .gt)
    (h' : comparePrerelease bs cs = .gt) : comparePrerelease as cs = .gt := by
  induction as generalizing bs cs with
  | nil => cases bs <;> cases h
  | cons a as ih =>
    cases bs with
    | nil => cases cs <;> cases h'
    | cons b bs =>
      cases cs with
      | nil => rfl
      | cons c cs =>
        unfold comparePrerelease at h h' ⊢
        by_cases hab : a = b
        · subst hab
          rw [if_pos rfl] at h
          split at h'
          · next hac =>
            rw [if_pos hac]
            exact ih h h'
          · next hac =>
            rw [if_neg hac]
            exact h'
        · rw [if_neg hab] at h
          by_cases hbc : b = c
          · subst hbc
            rw [if_neg hab]
            exact h
          · rw [if_neg hbc] at h'
            -- otherwise each of the two parts would come after the other
            have hac : a ≠ c := fun hac => by
              rw [← hac, comparePart_swap, h] at h'
              cases h'
            rw [if_neg hac]
            exact comparePart_trans h h'

/-- The core of two versions, and then their prereleases. -/
def compareCore (left right : ParsedVersion) : Ordering :=
  (compare left.core.1 right.core.1).then
    ((compare left.core.2.1 right.core.2.1).then (compare left.core.2.2 right.core.2.2))

def compareRelease (as bs : List Part) : Ordering :=
  if as = [] ∨ bs = [] then (if as = [] ∧ bs = [] then .eq else if as = [] then .gt else .lt)
  else comparePrerelease as bs

theorem compareVersions_eq {left right : ParsedVersion} :
    compareVersions left right = (compareCore left right).then
    (compareRelease left.prerelease right.prerelease) := rfl

instance : Std.TransCmp compareCore :=
  inferInstanceAs (Std.TransCmp (compareLex (compareOn fun v : ParsedVersion => v.core.1)
    (compareLex (compareOn fun v : ParsedVersion => v.core.2.1)
      (compareOn fun v : ParsedVersion => v.core.2.2))))

theorem compareRelease_swap (as bs : List Part) : compareRelease as bs = (compareRelease bs as).swap := by
  unfold compareRelease
  by_cases ha : as = [] <;> by_cases hb : bs = [] <;> simp [ha, hb, ← comparePrerelease_swap]

theorem compareRelease_trans {as bs cs : List Part} (h : compareRelease as bs = .gt)
    (h' : compareRelease bs cs = .gt) :
    compareRelease as cs = .gt := by
  unfold compareRelease at *
  by_cases hb : bs = []
  · by_cases ha : as = [] <;> simp [ha, hb] at h
  · by_cases hc : cs = [] <;> by_cases ha : as = [] <;> simp [ha, hb, hc] at h h' ⊢
    exact comparePrerelease_trans h h'

theorem compareVersions_swap (u v : ParsedVersion) : compareVersions u v = (compareVersions v u).swap := by
  rw [compareVersions_eq, compareVersions_eq, Ordering.swap_then, ← compareRelease_swap,
    show compareCore u v = (compareCore v u).swap from Std.OrientedCmp.eq_swap]

theorem compareVersions_trans {u v w : ParsedVersion} (h : compareVersions u v = .gt)
    (h' : compareVersions v w = .gt) :
    compareVersions u w = .gt := by
  simp only [compareVersions_eq, Ordering.then_eq_gt] at *
  rcases h with h | ⟨h, hr⟩ <;> rcases h' with h' | ⟨h', hr'⟩
  · exact .inl (Std.TransCmp.gt_trans h h')
  · exact .inl (Std.TransCmp.gt_of_gt_of_eq h h')
  · exact .inl (Std.TransCmp.gt_of_eq_of_gt h h')
  · exact .inr ⟨Std.TransCmp.eq_trans h h', compareRelease_trans hr hr'⟩

/-- Versions that can be told apart. -/
structure Distinct (versions : List String) : Prop where
  parses : ∀ v ∈ versions, (parseVersion v).isSome
  differ : ∀ v ∈ versions, ∀ w ∈ versions, v ≠ w → ∀ x y, parseVersion v = some x → parseVersion w = some y →
    compareVersions x y ≠ .eq

variable {versions : List String} {u v w : String}

theorem isVersionUpgrade_eq {x y : ParsedVersion} (hv : parseVersion v = some x)
    (hw : parseVersion w = some y) :
    isVersionUpgrade v w = true ↔ compareVersions x y = .gt := by
  simp [isVersionUpgrade, hv, hw]

theorem Distinct.trans (h : Distinct versions) (hu : u ∈ versions) (hv : v ∈ versions) (hw : w ∈ versions)
    (huv : isVersionUpgrade u v = true) (hvw : isVersionUpgrade v w = true) :
    isVersionUpgrade u w = true := by
  obtain ⟨x, hx⟩ := Option.isSome_iff_exists.1 (h.parses u hu)
  obtain ⟨y, hy⟩ := Option.isSome_iff_exists.1 (h.parses v hv)
  obtain ⟨z, hz⟩ := Option.isSome_iff_exists.1 (h.parses w hw)
  rw [isVersionUpgrade_eq hx hz]
  exact compareVersions_trans ((isVersionUpgrade_eq hx hy).1 huv) ((isVersionUpgrade_eq hy hz).1 hvw)

/-- Of two versions one is an upgrade of the other. -/
theorem Distinct.total (h : Distinct versions) (hv : v ∈ versions) (hw : w ∈ versions) (hne : v ≠ w) :
    isVersionUpgrade v w = true ∨ isVersionUpgrade w v = true := by
  obtain ⟨x, hx⟩ := Option.isSome_iff_exists.1 (h.parses v hv)
  obtain ⟨y, hy⟩ := Option.isSome_iff_exists.1 (h.parses w hw)
  rw [isVersionUpgrade_eq hx hy, isVersionUpgrade_eq hy hx]
  rcases hc : compareVersions x y with _ | _ | _
  · rw [compareVersions_swap, hc]
    exact .inr rfl
  · exact absurd hc (h.differ v hv w hw hne x y hx hy)
  · exact .inl rfl

theorem Distinct.asymm (h : Distinct versions) (hv : v ∈ versions) (hw : w ∈ versions)
    (hvw : isVersionUpgrade v w = true) : isVersionUpgrade w v = false := by
  obtain ⟨x, hx⟩ := Option.isSome_iff_exists.1 (h.parses v hv)
  obtain ⟨y, hy⟩ := Option.isSome_iff_exists.1 (h.parses w hw)
  rw [Bool.eq_false_iff, Ne, isVersionUpgrade_eq hy hx, compareVersions_swap,
    (isVersionUpgrade_eq hx hy).1 hvw]
  decide

end Order

end Version
