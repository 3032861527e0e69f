import BetterFrame.Client.UpdatePolicy
import BetterFrame.Server.Version
import Mathlib.Tactic.Linarith

/-!
# Versions as the server and as the client order them

`core/version.rs` leaves the order to the crate `semver`, which is a parameter: what a version is
read as, that it is printed as it was read, and that prereleases are ordered as the SemVer
specification says. The server compares alphanumeric identifiers by `localeCompare` and numeric ones
as doubles. Both sides give one answer exactly where these two agree at the first identifiers that
differ (`upgrades_agree_iff`).
-/

namespace Version

open Text UpdatePolicy

/-! ### Semantic versions -/

/-- A semantic version as it is written. -/
structure Reading where
  major : List Char
  minor : List Char
  patch : List Char
  pre : List (List Char)
  build : List Char
deriving DecidableEq

namespace Reading

def isIdentifierChar (c : Char) : Bool := isDigit c || ('A' ≤ c && c ≤ 'Z') || ('a' ≤ c && c ≤ 'z') || c = '-'

def isNumeric (i : List Char) : Bool := i ≠ [] ∧ i.all isDigit

/-- The texts, with a separator between two of them. -/
def join (sep : Char) : List (List Char) → List Char
  | [] => []
  | [i] => i
  | i :: is => i ++ sep :: join sep is

/-- The version as text. -/
def text (r : Reading) : List Char :=
  r.major ++ '.' :: (r.minor ++ '.' :: (r.patch ++
    ((if r.pre = [] then [] else '-' :: join '.' r.pre) ++ if r.build = [] then [] else '+' :: r.build)))

/-- What the specification asks of the parts. -/
structure Valid (r : Reading) : Prop where
  core : isNumeric r.major ∧ isNumeric r.minor ∧ isNumeric r.patch
  pre : ∀ i ∈ r.pre, i ≠ [] ∧ i.all isIdentifierChar
  build : r.build.all fun c => isIdentifierChar c || c = '.'

/-- Numeric identifiers are compared by value, others by their ASCII characters, and numeric ones
come first. -/
def compareIdentifier (a b : List Char) : Ordering :=
  if isNumeric a then (if isNumeric b then compare (digitsValue a) (digitsValue b) else .lt)
  else if isNumeric b then .gt
  else compare a b

def compareCore (r s : Reading) : Ordering :=
  (compare (digitsValue r.major) (digitsValue s.major)).then
    ((compare (digitsValue r.minor) (digitsValue s.minor)).then
      (compare (digitsValue r.patch) (digitsValue s.patch)))

/-- The precedence of prereleases: a release comes after them, and of two where one goes on the longer one. -/
def comparePre (as bs : List (List Char)) : Ordering :=
  if as = [] then (if bs = [] then .eq else .gt)
  else if bs = [] then .lt
  else List.compareLex compareIdentifier as bs

/-- The order of the semantic versioning rules. -/
def precedence (r s : Reading) : Ordering := (compareCore r s).then (comparePre r.pre s.pre)

end Reading

/-- `semver` as it is documented: a version is printed as it was read, and without build metadata versions are
ordered by their precedence. -/
structure Documented (semver : Semver) (reading : semver.Version → Reading) : Prop where
  read : ∀ text v, semver.parse text = some v → text.toList = (reading v).text ∧ (reading v).Valid
  ordered : ∀ u v, (reading u).build = [] → (reading v).build = [] →
    (semver.lt u v = true ↔ (reading u).precedence (reading v) = .lt)

/-! ### What both sides read -/

def isVersionChar (c : Char) : Bool := isPrereleaseChar c || c = '+'

variable {value candidate installed : String} {p next current : ParsedVersion} {cs rest : List Char}
  {n : Nat} {r : Reading}

theorem isPrereleaseChar_digit {c : Char} (h : isDigit c = true) : isPrereleaseChar c = true := by
  simp [isPrereleaseChar, h]

theorem isPrereleaseChar_identifier {c : Char} (h : Reading.isIdentifierChar c = true) :
    isPrereleaseChar c = true := by
  simp only [Reading.isIdentifierChar, isPrereleaseChar, Bool.or_eq_true] at h ⊢
  tauto

theorem toNat_le_of_isVersionChar {c : Char} (h : isVersionChar c = true) : 42 ≤ c.toNat ∧ c.toNat ≤ 122 := by
  have hle (a b : Char) : a ≤ b ↔ a.toNat ≤ b.toNat := Iff.rfl
  simp only [isVersionChar, isPrereleaseChar, isDigit, Bool.or_eq_true, Bool.and_eq_true,
    decide_eq_true_eq, hle] at h
  have hchar (b : Char) (hb : c = b) : c.toNat = b.toNat := congrArg Char.toNat hb
  rcases h with ((((h | h) | h) | h) | h) | h
  · have h0 : '0'.toNat = 48 := rfl
    have h9 : '9'.toNat = 57 := rfl
    omega
  · have hA : 'A'.toNat = 65 := rfl
    have hZ : 'Z'.toNat = 90 := rfl
    omega
  · have ha : 'a'.toNat = 97 := rfl
    have hz : 'z'.toNat = 122 := rfl
    omega
  · have hdot : c.toNat = 46 := hchar '.' h
    omega
  · have hminus : c.toNat = 45 := hchar '-' h
    omega
  · have hplus : c.toNat = 43 := hchar '+' h
    omega

theorem isVersionChar_space (c : Char) (h : isSpace c = true) : isVersionChar c = false := by
  rw [Bool.eq_false_iff]
  intro hc
  have hrange := toNat_le_of_isVersionChar hc
  simp only [isSpace, Bool.or_eq_true, Bool.and_eq_true, decide_eq_true_eq] at h
  omega

theorem isVersionChar_whitespace (c : Char) (h : isWhitespace c = true) : isVersionChar c = false := by
  rw [Bool.eq_false_iff]
  intro hc
  have hrange := toNat_le_of_isVersionChar hc
  simp only [isWhitespace, Bool.or_eq_true, Bool.and_eq_true, decide_eq_true_eq] at h
  omega

theorem chars_of_digits (h : digits cs = some (n, rest)) (hr : ∀ c ∈ rest, isVersionChar c = true) :
    ∀ c ∈ cs, isVersionChar c = true := by
  unfold digits at h
  split at h
  · cases h
  · obtain ⟨-, rfl⟩ := Prod.mk.inj (Option.some.inj h)
    intro c hc
    rw [← List.takeWhile_append_dropWhile (p := isDigit) (l := cs)] at hc
    rcases List.mem_append.1 hc with hc | hc
    · simp [isVersionChar, isPrereleaseChar_digit (List.all_eq_true.1 List.all_takeWhile c hc)]
    · exact hr c hc

theorem chars_of_dot (h : dot cs = some rest) (hr : ∀ c ∈ rest, isVersionChar c = true) :
    ∀ c ∈ cs, isVersionChar c = true := by
  unfold dot at h
  split at h
  · obtain rfl := Option.some.inj h
    exact List.forall_mem_cons.2 ⟨by decide, hr⟩
  · cases h

theorem chars_of_prerelease {parts : List Part} (h : parsePrerelease cs = some parts) :
    ∀ c ∈ cs, isVersionChar c = true := by
  unfold parsePrerelease at h
  split at h
  · exact fun c hc => absurd hc List.not_mem_nil
  · split at h
    · next hall =>
      refine List.forall_mem_cons.2 ⟨by decide, fun c hc => ?_⟩
      simp [isVersionChar, List.all_eq_true.1 hall.2 c hc]
    · cases h
  · cases h

theorem chars_of_stripV (h : ∀ c ∈ stripV cs, isVersionChar c = true) : ∀ c ∈ cs, isVersionChar c = true := by
  unfold stripV at h
  split at h
  · exact List.forall_mem_cons.2 ⟨by decide, h⟩
  · exact h

/-- What the server parses is made of the characters of a version. -/
theorem chars_of_parse (h : parseVersion value = some p) :
    ∀ c ∈ trimChars value.toList, isVersionChar c = true := by
  simp only [parseVersion, Option.bind_eq_bind, Option.bind_eq_some_iff] at h
  obtain ⟨⟨_, _⟩, hmajor, _, hdot, ⟨_, _⟩, hminor, _, hdot', ⟨_, _⟩, hpatch, _, hpre, -⟩ := h
  exact chars_of_stripV (chars_of_digits hmajor (chars_of_dot hdot (chars_of_digits hminor (chars_of_dot hdot'
    (chars_of_digits hpatch (chars_of_prerelease hpre))))))

theorem isNumeric_iff {i : List Char} : Reading.isNumeric i = true ↔ i ≠ [] ∧ i.all isDigit = true := by
  rw [Reading.isNumeric, decide_eq_true_eq]

theorem digits_append {ds : List Char} (hd : Reading.isNumeric ds)
    (hr : ∀ c ∈ rest.head?, isDigit c = false) :
    digits (ds ++ rest) = some (digitsValue ds, rest) := by
  obtain ⟨hne, hall⟩ := isNumeric_iff.1 hd
  have hstop : rest.takeWhile isDigit = [] := by
    cases rest with
    | nil => rfl
    | cons c rest => rw [List.takeWhile_cons_of_neg (by simp [hr c (by simp)])]
  have hdrop : rest.dropWhile isDigit = rest := by
    cases rest with
    | nil => rfl
    | cons c rest => rw [List.dropWhile_cons_of_neg (by simp [hr c (by simp)])]
  have hall : ∀ c ∈ ds, isDigit c = true := List.all_eq_true.1 hall
  have htake : (ds ++ rest).takeWhile isDigit = ds := by
    rw [List.takeWhile_append_of_pos hall, hstop, List.append_nil]
  unfold digits
  rw [htake, if_neg hne, List.dropWhile_append_of_pos hall, hdrop]

theorem splitOn_join {ids : List (List Char)} (hne : ids ≠ []) (h : ∀ i ∈ ids, '.' ∉ i) :
    splitOn '.' (Reading.join '.' ids) = ids := by
  induction ids with
  | nil => exact absurd rfl hne
  | cons i ids ih =>
    obtain ⟨hi, hids⟩ := List.forall_mem_cons.1 h
    cases ids with
    | nil => exact splitOn_self hi
    | cons j ids =>
      show splitOn '.' (i ++ '.' :: Reading.join '.' (j :: ids)) = _
      rw [splitOn_append hi, ih (by simp) hids]

theorem not_dot_of_identifier {i : List Char} (h : i.all Reading.isIdentifierChar) : '.' ∉ i := fun hmem =>
  absurd (List.all_eq_true.1 h '.' hmem) (by decide)

theorem mem_join {ids : List (List Char)} {c : Char} (h : c ∈ Reading.join '.' ids) :
    c = '.' ∨ ∃ i ∈ ids, c ∈ i := by
  induction ids with
  | nil => exact absurd h List.not_mem_nil
  | cons i ids ih =>
    cases ids with
    | nil => exact .inr ⟨i, List.mem_singleton_self i, h⟩
    | cons j ids =>
      rcases List.mem_append.1 h with h | h
      · exact .inr ⟨i, List.mem_cons_self .., h⟩
      rcases List.mem_cons.1 h with rfl | h
      · exact .inl rfl
      rcases ih h with h | ⟨k, hk, hc⟩
      · exact .inl h
      · exact .inr ⟨k, List.mem_cons_of_mem _ hk, hc⟩

theorem chars_of_text (hr : r.Valid) : ∀ c ∈ r.text, isVersionChar c = true := by
  have hdigits {ds : List Char} (hd : Reading.isNumeric ds) :
      ∀ c ∈ ds, isVersionChar c = true := fun c hc => by
    simp [isVersionChar, isPrereleaseChar_digit (List.all_eq_true.1 (isNumeric_iff.1 hd).2 c hc)]
  obtain ⟨hmajor, hminor, hpatch⟩ := hr.core
  have hpre : ∀ c ∈ (if r.pre = [] then [] else '-' :: Reading.join '.' r.pre), isVersionChar c = true := by
    split
    · exact fun c hc => absurd hc List.not_mem_nil
    · refine List.forall_mem_cons.2 ⟨by decide, fun c hc => ?_⟩
      rcases mem_join hc with rfl | ⟨i, hi, hc⟩
      · decide
      · simp [isVersionChar, isPrereleaseChar_identifier (List.all_eq_true.1 (hr.pre i hi).2 c hc)]
  have hbuild : ∀ c ∈ (if r.build = [] then [] else '+' :: r.build), isVersionChar c = true := by
    split
    · exact fun c hc => absurd hc List.not_mem_nil
    · refine List.forall_mem_cons.2 ⟨by decide, fun c hc => ?_⟩
      have hc := List.all_eq_true.1 hr.build c hc
      rcases Bool.or_eq_true_iff.1 hc with hc | hc
      · simp [isVersionChar, isPrereleaseChar_identifier hc]
      · obtain rfl : c = '.' := by simpa using hc
        decide
  have hdot : isVersionChar '.' = true := by decide
  intro c hc
  simp only [Reading.text, List.mem_append, List.mem_cons] at hc
  rcases hc with hc | rfl | hc | rfl | hc | hc | hc
  · exact hdigits hmajor c hc
  · exact hdot
  · exact hdigits hminor c hc
  · exact hdot
  · exact hdigits hpatch c hc
  · exact hpre c hc
  · exact hbuild c hc

theorem bare_eq : (bare value).toList = stripV (trimWhitespaceChars value.toList) := by
  unfold bare stripV
  generalize trimWhitespaceChars value.toList = cs
  split <;> simp

/-- Both sides read the same characters. -/
theorem stripV_trim_eq (hp : parseVersion value = some p) (hr : r.Valid)
    (htext : (bare value).toList = r.text) :
    stripV (trimChars value.toList) = r.text := by
  have hbare : ∀ c ∈ trimWhitespaceChars value.toList, isVersionChar c = true := by
    refine chars_of_stripV ?_
    rw [← bare_eq, htext]
    exact chars_of_text hr
  have hjs : trimChars value.toList = value.toList.filter isVersionChar :=
    trimmed_eq_filter isVersionChar_space rfl (chars_of_parse hp)
  have hrust : trimWhitespaceChars value.toList = value.toList.filter isVersionChar :=
    trimmed_eq_filter isVersionChar_whitespace rfl hbare
  rw [hjs, ← hrust, ← bare_eq, htext]

/-- A version that the client reads and the server parses is parsed as it is read, and has no build
metadata. -/
theorem parseVersion_text (hp : parseVersion value = some p) (hr : r.Valid)
    (htext : (bare value).toList = r.text) :
    p = ⟨(digitsValue r.major, digitsValue r.minor, digitsValue r.patch), r.pre.map parsePart⟩ ∧
    r.build = [] := by
  have hcs := stripV_trim_eq hp hr htext
  have hnotDigit : ∀ rest : List Char, ∀ c ∈ ('.' :: rest).head?, isDigit c = false := fun rest c hc => by
    rw [← Option.some.inj (Option.mem_def.1 hc)]
    decide
  have hend : ∀ c ∈ ((if r.pre = [] then [] else '-' :: Reading.join '.' r.pre) ++
      if r.build = [] then [] else '+' :: r.build).head?, isDigit c = false := by
    by_cases hpre : r.pre = []
    · by_cases hbuild : r.build = [] <;> simp [hpre, hbuild, isDigit]
    · simp [hpre, isDigit]
  simp only [parseVersion, hcs, Reading.text, digits_append hr.core.1 (hnotDigit _), dot,
    digits_append hr.core.2.1 (hnotDigit _),
    digits_append hr.core.2.2 hend, Option.bind_eq_bind, Option.bind_some, Option.bind_eq_some_iff] at hp
  obtain ⟨parts, hparts, hp⟩ := hp
  have hpre : parts = r.pre.map parsePart ∧ r.build = [] := by
    by_cases hpre : r.pre = []
    · by_cases hbuild : r.build = []
      · simp [hpre, hbuild, parsePrerelease] at hparts
        simp [hpre, hbuild, ← hparts]
      · simp [hpre, hbuild, parsePrerelease] at hparts
    · by_cases hbuild : r.build = []
      · simp [hpre, hbuild, parsePrerelease] at hparts
        rw [← hparts.2, splitOn_join hpre fun i hi => not_dot_of_identifier (hr.pre i hi).2]
        exact ⟨rfl, hbuild⟩
      · simp [hpre, hbuild, parsePrerelease] at hparts
        exact absurd hparts.1.2.1 (by decide)
  split at hp
  · rw [← Option.some.inj hp, hpre.1]
    exact ⟨rfl, hpre.2⟩
  · cases hp

/-! ### Where the orders agree -/

/-- The quotient, rounded half to even. -/
def rounded (unit n : Nat) : Nat :=
  if unit < 2 * (n % unit) ∨ unit = 2 * (n % unit) ∧ n / unit % 2 = 1 then n / unit + 1 else n / unit

theorem toNumber_eq {n : Nat} : toNumber n =
    if n < 2 ^ 53 then n else min (2 ^ 1024) (rounded (2 ^ (n.log2 - 52)) n * 2 ^ (n.log2 - 52)) := rfl

theorem rounded_bounds (unit n : Nat) : n / unit ≤ rounded unit n ∧ rounded unit n ≤ n / unit + 1 := by
  unfold rounded
  split <;> omega

theorem rounded_mono {unit m n : Nat} (h : m ≤ n) : rounded unit m ≤ rounded unit n := by
  have hq : m / unit ≤ n / unit := Nat.div_le_div_right h
  rcases Nat.lt_or_eq_of_le hq with hlt | heq
  · have hm := (rounded_bounds unit m).2
    have hn := (rounded_bounds unit n).1
    omega
  · -- the remainders are in order, and rounding up is monotone in the remainder
    have hm := Nat.div_add_mod m unit
    have hn := Nat.div_add_mod n unit
    rw [heq] at hm
    have hr : m % unit ≤ n % unit := by omega
    unfold rounded
    rw [heq]
    split <;> split <;> omega

theorem rounded_between {n : Nat} (h : 2 ^ 53 ≤ n) :
    2 ^ n.log2 ≤ rounded (2 ^ (n.log2 - 52)) n * 2 ^ (n.log2 - 52) ∧
      rounded (2 ^ (n.log2 - 52)) n * 2 ^ (n.log2 - 52) ≤ 2 ^ (n.log2 + 1) := by
  have hn : n ≠ 0 := by
    rintro rfl
    exact absurd h (by decide)
  have hlow : 2 ^ n.log2 ≤ n := Nat.log2_self_le hn
  have hhigh : n < 2 ^ (n.log2 + 1) := Nat.lt_log2_self
  have hlog : 53 ≤ n.log2 := (Nat.le_log2 hn).2 h
  generalize n.log2 = k at *
  obtain ⟨e, rfl⟩ : ∃ e, k = e + 52 := ⟨k - 52, by omega⟩
  rw [Nat.add_sub_cancel]
  have hunit : 0 < 2 ^ e := Nat.pow_pos (by decide)
  have hq : 2 ^ 52 ≤ n / 2 ^ e := by
    rw [Nat.le_div_iff_mul_le hunit, ← Nat.pow_add, Nat.add_comm]
    exact hlow
  have hq' : n / 2 ^ e + 1 ≤ 2 ^ 53 := by
    rw [Nat.succ_le_iff, Nat.div_lt_iff_lt_mul hunit, ← Nat.pow_add]
    rw [show 53 + e = e + 52 + 1 by omega]
    exact hhigh
  obtain ⟨hge, hle⟩ := rounded_bounds (2 ^ e) n
  constructor
  · calc 2 ^ (e + 52) = 2 ^ 52 * 2 ^ e := by rw [Nat.add_comm, Nat.pow_add]
      _ ≤ rounded (2 ^ e) n * 2 ^ e := Nat.mul_le_mul_right _ (hq.trans hge)
  · calc rounded (2 ^ e) n * 2 ^ e ≤ 2 ^ 53 * 2 ^ e := Nat.mul_le_mul_right _ (hle.trans hq')
      _ = 2 ^ (e + 52 + 1) := by rw [← Nat.pow_add, show 53 + e = e + 52 + 1 by omega]

/-- Rounding to a double keeps the order. -/
theorem toNumber_mono {m n : Nat} (h : m ≤ n) : toNumber m ≤ toNumber n := by
  rw [toNumber_eq, toNumber_eq]
  by_cases hn : n < 2 ^ 53
  · rw [if_pos hn, if_pos (by omega)]
    exact h
  have hn : 2 ^ 53 ≤ n := by omega
  rw [if_neg (by omega : ¬ n < 2 ^ 53)]
  obtain ⟨hnlow, -⟩ := rounded_between hn
  have hlog : 2 ^ 53 ≤ 2 ^ n.log2 := Nat.pow_le_pow_right (by decide) ((Nat.le_log2 (by omega)).2 hn)
  by_cases hm : m < 2 ^ 53
  · rw [if_pos hm]
    have hpow {e : Nat} (he : 53 ≤ e) : 2 ^ 53 ≤ 2 ^ e := Nat.pow_le_pow_right (by decide) he
    exact le_min (hm.le.trans (hpow (by decide))) (hm.le.trans (hlog.trans hnlow))
  have hm : 2 ^ 53 ≤ m := by omega
  rw [if_neg (by omega : ¬ m < 2 ^ 53)]
  refine min_le_min_left _ ?_
  rcases Nat.lt_trichotomy m.log2 n.log2 with hlt | heq | hgt
  · exact (rounded_between hm).2.trans ((Nat.pow_le_pow_right (by decide) hlt).trans hnlow)
  · rw [heq]
    exact Nat.mul_le_mul_right _ (rounded_mono h)
  · have hle : 2 ^ (n.log2 + 1) ≤ 2 ^ m.log2 := Nat.pow_le_pow_right (by decide) hgt
    have hself : 2 ^ m.log2 ≤ m := Nat.log2_self_le (by omega)
    have hnext : n < 2 ^ (n.log2 + 1) := Nat.lt_log2_self
    omega

theorem toNumber_lt_iff {m n : Nat} (h : toNumber m ≠ toNumber n) : toNumber m < toNumber n ↔ m < n := by
  constructor
  · intro hlt
    by_contra hge
    exact absurd (toNumber_mono (Nat.not_lt.1 hge)) (Nat.not_le.2 hlt)
  · intro hlt
    exact Nat.lt_of_le_of_ne (toNumber_mono hlt.le) h

/-- At the first identifiers that differ, the server's order is the specification's. Where two
numbers differ and are one double, what counts is how the server goes on. -/
def SameWay : List (List Char) → List (List Char) → Prop
  | a :: as, b :: bs =>
    if Reading.isNumeric a then
      Reading.isNumeric b →
        if digitsValue a = digitsValue b then SameWay as bs
        else toNumber (digitsValue a) = toNumber (digitsValue b) →
          (comparePrerelease (as.map parsePart) (bs.map parsePart) = .gt ↔ digitsValue b < digitsValue a)
    else
      ¬ Reading.isNumeric b → if a = b then SameWay as bs else (localeCompare a b = .gt ↔ compare a b = .gt)
  | _, _ => True

theorem parsePart_of_numeric {i : List Char} (h : Reading.isNumeric i = true) :
    parsePart i = .num (toNumber (digitsValue i)) :=
  if_pos (isNumeric_iff.1 h)

theorem parsePart_of_not {i : List Char} (h : ¬ Reading.isNumeric i = true) : parsePart i = .str i :=
  if_neg (mt isNumeric_iff.2 h)

theorem then_gt_of_ne {o o' : Ordering} (h : o ≠ .eq) : o.then o' = .gt ↔ o = .gt := by
  cases o with
  | eq => exact absurd rfl h
  | lt => exact Iff.rfl
  | gt => exact Iff.rfl

theorem comparePrerelease_iff {as bs : List (List Char)} :
    (comparePrerelease (as.map parsePart) (bs.map parsePart) = .gt ↔
      List.compareLex Reading.compareIdentifier as bs = .gt) ↔
      SameWay as bs := by
  induction as generalizing bs with
  | nil => cases bs <;> simp [comparePrerelease, SameWay, List.compareLex]
  | cons a as ih =>
    cases bs with
    | nil => simp [comparePrerelease, SameWay, List.compareLex]
    | cons b bs =>
      rw [List.map_cons, List.map_cons, comparePrerelease, List.compareLex_cons_cons, SameWay,
        Reading.compareIdentifier]
      by_cases ha : Reading.isNumeric a = true
      · rw [if_pos ha, if_pos ha, parsePart_of_numeric ha]
        by_cases hb : Reading.isNumeric b = true
        · rw [if_pos hb, parsePart_of_numeric hb]
          by_cases heq : digitsValue a = digitsValue b
          · simp [heq, hb, ih]
          · have hne : compare (digitsValue a) (digitsValue b) ≠ .eq := by simp [heq]
            simp only [heq, hb, if_false, forall_true_left, then_gt_of_ne hne, Nat.compare_eq_gt]
            by_cases hround : toNumber (digitsValue a) = toNumber (digitsValue b)
            · simp [hround]
            · have hparts : Part.num (toNumber (digitsValue a)) ≠ Part.num (toNumber (digitsValue b)) :=
                fun h =>
                hround (Part.num.inj h)
              rw [if_neg hparts, comparePart, Nat.compare_eq_gt, toNumber_lt_iff (Ne.symm hround)]
              exact ⟨fun _ h => absurd h hround, fun _ => Iff.rfl⟩
        · rw [if_neg hb, parsePart_of_not hb]
          simp [hb, comparePart]
      · rw [if_neg ha, if_neg ha, parsePart_of_not ha]
        by_cases hb : Reading.isNumeric b = true
        · rw [if_pos hb, parsePart_of_numeric hb]
          simp [hb, comparePart]
        · rw [if_neg hb, parsePart_of_not hb]
          by_cases heq : a = b
          · subst heq
            simp [ha, ih]
          · have hne : compare a b ≠ .eq := fun h => heq (Std.LawfulEqOrd.eq_of_compare h)
            have hparts : Part.str a ≠ Part.str b := fun h => heq (Part.str.inj h)
            simp only [hparts, heq, hb, if_false, then_gt_of_ne hne, comparePart]
            simp

instance : Std.TransCmp Reading.compareIdentifier := by
  have heq : Reading.compareIdentifier = compareLex (compareOn fun i => if Reading.isNumeric i then 0 else 1)
      (compareLex (compareOn fun i => if Reading.isNumeric i then digitsValue i else 0)
        (compareOn fun i => if Reading.isNumeric i then [] else i)) := by
    funext a b
    by_cases ha : Reading.isNumeric a <;> by_cases hb : Reading.isNumeric b <;>
      simp [Reading.compareIdentifier, compareLex, compareOn, ha, hb] <;> rfl
  rw [heq]
  infer_instance

instance : Std.TransCmp Reading.comparePre := by
  have heq : Reading.comparePre = compareLex (compareOn fun ids => if ids = [] then 1 else 0)
      (List.compareLex Reading.compareIdentifier) := by
    funext as bs
    cases as <;> cases bs <;> simp [Reading.comparePre, compareLex, compareOn] <;> rfl
  rw [heq]
  infer_instance

instance : Std.TransCmp fun r s : Reading => Reading.comparePre r.pre s.pre where
  eq_swap := Std.OrientedCmp.eq_swap
  isLE_trans h h' := Std.TransCmp.isLE_trans h h'

instance : Std.TransCmp Reading.compareCore :=
  inferInstanceAs (Std.TransCmp (compareLex (compareOn fun r : Reading => digitsValue r.major)
    (compareLex (compareOn fun r : Reading => digitsValue r.minor) (compareOn fun r : Reading =>
      digitsValue r.patch))))

instance : Std.TransCmp Reading.precedence :=
  inferInstanceAs (Std.TransCmp (compareLex Reading.compareCore fun r s : Reading =>
    Reading.comparePre r.pre s.pre))

theorem compareRelease_iff {as bs : List (List Char)} :
    (compareRelease (as.map parsePart) (bs.map parsePart) = .gt ↔ Reading.comparePre as bs = .gt) ↔
    SameWay as bs := by
  cases as with
  | nil => cases bs <;> simp [compareRelease, Reading.comparePre, SameWay]
  | cons a as =>
    cases bs with
    | nil => simp [compareRelease, Reading.comparePre, SameWay]
    | cons b bs =>
      rw [← comparePrerelease_iff]
      simp [compareRelease, Reading.comparePre]

section Agreement

variable {semver : Semver} {reading : semver.Version → Reading} {c i : semver.Version}

/-- The client's answer is the specification's order. -/
theorem is_version_upgrade_eq (hdoc : Documented semver reading) (hc : semver.parse (bare candidate) = some c)
    (hi : semver.parse (bare installed) = some i) (hbc : (reading c).build = [])
    (hbi : (reading i).build = []) :
    is_version_upgrade semver candidate installed = true ↔ (reading i).precedence (reading c) = .lt := by
  rw [is_version_upgrade, hc, hi]
  exact hdoc.ordered i c hbi hbc

/-- Both sides answer alike exactly where the cores differ or the prereleases compare the same way
on both sides. -/
theorem upgrades_agree_iff (hdoc : Documented semver reading) (hnext : parseVersion candidate = some next)
    (hcurrent : parseVersion installed = some current) (hc : semver.parse (bare candidate) = some c)
    (hi : semver.parse (bare installed) = some i) :
    isVersionUpgrade candidate installed = is_version_upgrade semver candidate installed ↔
      (next.core = current.core → SameWay (reading c).pre (reading i).pre) := by
  obtain ⟨htextc, hvalidc⟩ := hdoc.read _ _ hc
  obtain ⟨htexti, hvalidi⟩ := hdoc.read _ _ hi
  obtain ⟨rfl, hbc⟩ := parseVersion_text hnext hvalidc htextc
  obtain ⟨rfl, hbi⟩ := parseVersion_text hcurrent hvalidi htexti
  rw [Bool.eq_iff_iff, isVersionUpgrade_eq hnext hcurrent, is_version_upgrade_eq hdoc hc hi hbc hbi,
    @Std.OrientedCmp.eq_swap _ Reading.precedence, Ordering.swap_eq_lt, compareVersions_eq,
      Reading.precedence,
    Ordering.then_eq_gt, Ordering.then_eq_gt, ← compareRelease_iff]
  have hcore : compareCore ⟨(digitsValue (reading c).major, digitsValue (reading c).minor,
    digitsValue (reading c).patch),
      (reading c).pre.map parsePart⟩ ⟨(digitsValue (reading i).major, digitsValue (reading i).minor,
        digitsValue (reading i).patch), (reading i).pre.map parsePart⟩ = (reading c).compareCore
          (reading i) := rfl
  have heq : (reading c).compareCore (reading i) = .eq ↔
    (digitsValue (reading c).major, digitsValue (reading c).minor,
      digitsValue (reading c).patch) = (digitsValue (reading i).major, digitsValue (reading i).minor,
        digitsValue (reading i).patch) := by
    simp [Reading.compareCore, Ordering.then_eq_eq]
  rw [hcore, ← heq]
  rcases (reading c).compareCore (reading i) with _ | _ | _ <;> simp

end Agreement

/-! ### The specification as a parser -/

namespace Reading

instance : DecidablePred Valid := fun r =>
  decidable_of_iff ((isNumeric r.major ∧ isNumeric r.minor ∧ isNumeric r.patch) ∧
    (∀ i ∈ r.pre, i ≠ [] ∧ i.all isIdentifierChar) ∧ r.build.all fun c => isIdentifierChar c || c = '.')
    ⟨fun ⟨core, pre, build⟩ => ⟨core, pre, build⟩, fun h => ⟨h.core, h.pre, h.build⟩⟩

/-- The text before a separator, and what follows it. -/
def cut (sep : Char) (cs : List Char) : List Char × List Char :=
  (cs.takeWhile (· ≠ sep), (cs.dropWhile (· ≠ sep)).drop 1)

/-- A text cut at its separators. -/
def ofParts (cs : List Char) : Option Reading :=
  let (front, build) := cut '+' cs
  let (core, pre) := cut '-' front
  match splitOn '.' core with
  | [major, minor, patch] => some ⟨major, minor, patch, if pre = [] then [] else splitOn '.' pre, build⟩
  | _ => none

/-- A version is kept where it is valid and printed as it was read. -/
def read (value : String) : Option Reading := (ofParts value.toList).filter fun r =>
  value.toList = r.text ∧ r.Valid

theorem spec_of_read {value : String} {r : Reading} (h : read value = some r) :
    value.toList = r.text ∧ r.Valid :=
  of_decide_eq_true (Option.filter_eq_some_iff.1 h).2

end Reading

/-- The crate that does what is documented, build metadata left out of the order. -/
def semverSpec : Semver where
  Version := Reading
  parse := Reading.read
  lt u v := u.precedence v = .lt
  lt_irrefl v := by simp [Std.ReflCmp.compare_self]
  lt_trans u v w h h' := by
    rw [decide_eq_true_eq] at *
    exact Std.TransCmp.lt_trans h h'

theorem semverSpec_documented : Documented semverSpec id where
  read _ _ h := Reading.spec_of_read h
  ordered _ _ _ _ := decide_eq_true_iff

theorem upgrades_agree_rc :
    isVersionUpgrade "v1.0.0-rc.10" "1.0.0-rc.9" = is_version_upgrade semverSpec "v1.0.0-rc.10" "1.0.0-rc.9" ↔
      ((1, 0, 0) = (1, 0, 0) → SameWay ["rc".toList, "10".toList] ["rc".toList, "9".toList]) :=
  upgrades_agree_iff semverSpec_documented
    (show parseVersion "v1.0.0-rc.10" = some ⟨(1, 0, 0), [.str "rc".toList, .num 10]⟩ by decide)
    (show parseVersion "1.0.0-rc.9" = some ⟨(1, 0, 0), [.str "rc".toList, .num 9]⟩ by decide)
    (show Reading.read (bare "v1.0.0-rc.10") = some ⟨"1".toList, "0".toList, "0".toList,
      ["rc".toList, "10".toList], []⟩ by decide)
    (show Reading.read (bare "1.0.0-rc.9") = some ⟨"1".toList, "0".toList, "0".toList,
      ["rc".toList, "9".toList], []⟩ by decide)

/-- Without their case the letters put `RC` after `beta`, in ASCII they put it before. -/
theorem upgrades_disagree : ¬ ∀ candidate installed, (parseVersion candidate).isSome →
    (parseVersion installed).isSome →
    (Reading.read (bare candidate)).isSome → (Reading.read (bare installed)).isSome →
      isVersionUpgrade candidate installed = is_version_upgrade semverSpec candidate installed := fun h =>
  absurd (h "1.0.0-RC" "1.0.0-beta" (by decide) (by decide) (by decide) (by decide)) (by decide)

end Version
