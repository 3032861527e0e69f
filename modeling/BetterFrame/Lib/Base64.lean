import BetterFrame.Lib.Text

/-!
# Base64

The groups of six bits that bytes are written in, the two alphabets, and two decoders: a strict one,
which takes no padding and no bits that stand for nothing, and a lenient one. `strict_encode` and
`lenient_encode` are the round trips.
-/

namespace Base64

/-- The groups of six bits, the last one filled with zeros. -/
def sextets : List UInt8 → List Nat
  | [] => []
  | [a] => [a.toNat / 4, a.toNat % 4 * 16]
  | [a, b] => [a.toNat / 4, a.toNat % 4 * 16 + b.toNat / 16, b.toNat % 16 * 4]
  | a :: b :: c :: bytes =>
    a.toNat / 4 :: (a.toNat % 4 * 16 + b.toNat / 16) :: (b.toNat % 16 * 4 + c.toNat / 64) ::
      c.toNat % 64 :: sextets bytes

/-- The first byte of a group. -/
def first (a b : Nat) : UInt8 := .ofNat (a * 4 + b / 16)

/-- The second byte of a group. -/
def second (b c : Nat) : UInt8 := .ofNat (b % 16 * 16 + c / 4)

/-- The third byte of a group. -/
def third (c d : Nat) : UInt8 := .ofNat (c % 4 * 64 + d)

/-- The bytes of groups that leave no bits over. -/
def strict : List Nat → Option (List UInt8)
  | [] => some []
  | [_] => none
  | [a, b] => if b % 16 = 0 then some [first a b] else none
  | [a, b, c] => if c % 4 = 0 then some [first a b, second b c] else none
  | a :: b :: c :: d :: rest => (strict rest).map fun bytes => first a b :: second b c :: third c d :: bytes

/-- The whole bytes of the groups. -/
def lenient : List Nat → List UInt8
  | [] => []
  | [_] => []
  | [a, b] => [first a b]
  | [a, b, c] => [first a b, second b c]
  | a :: b :: c :: d :: rest => first a b :: second b c :: third c d :: lenient rest

def letters : List Char := "ABCDEFGHIJKLMNOPQRSTUVWXYZabcdefghijklmnopqrstuvwxyz0123456789".toList

def standard : List Char := letters ++ ['+', '/']

def urlSafe : List Char := letters ++ ['-', '_']

/-- The character of a six-bit value. -/
def digit (alphabet : List Char) (n : Nat) : Char := alphabet.getD n '='

/-- The place of a character in the alphabet. -/
def value (alphabet : List Char) (c : Char) : Option Nat := alphabet.findIdx? (· = c)

/-- The bytes, without padding. -/
def encode (alphabet : List Char) (bytes : List UInt8) : List Char := (sextets bytes).map (digit alphabet)

/-- Characters outside the alphabet are refused. -/
def decodeStrict (alphabet : List Char) (cs : List Char) : Option (List UInt8) :=
  (cs.mapM (value alphabet)).bind strict

/-- Characters outside both alphabets are passed over, up to the first padding. -/
def decodeLenient (cs : List Char) : List UInt8 :=
  lenient ((cs.takeWhile (· ≠ '=')).filterMap fun c => (value standard c).or (value urlSafe c))

/-! ### Round trips -/

theorem first_eq (a : UInt8) {n : Nat} (h : n < 16) : first (a.toNat / 4) (a.toNat % 4 * 16 + n) = a := by
  have heq : a.toNat / 4 * 4 + (a.toNat % 4 * 16 + n) / 16 = a.toNat := by omega
  unfold first
  rw [heq, UInt8.ofNat_toNat]

theorem second_eq (b : UInt8) (m : Nat) {n : Nat} (h : n < 4) :
    second (m * 16 + b.toNat / 16) (b.toNat % 16 * 4 + n) = b := by
  have hb := b.toNat_lt
  have heq : (m * 16 + b.toNat / 16) % 16 * 16 + (b.toNat % 16 * 4 + n) / 4 = b.toNat := by omega
  unfold second
  rw [heq, UInt8.ofNat_toNat]

theorem third_eq (c : UInt8) (m : Nat) : third (m * 4 + c.toNat / 64) (c.toNat % 64) = c := by
  have hc := c.toNat_lt
  have heq : (m * 4 + c.toNat / 64) % 4 * 64 + c.toNat % 64 = c.toNat := by omega
  unfold third
  rw [heq, UInt8.ofNat_toNat]

theorem strict_sextets (bytes : List UInt8) : strict (sextets bytes) = some bytes := by
  induction bytes using sextets.induct with
  | case1 => rfl
  | case2 a =>
    have hfirst := first_eq a (n := 0) (by decide)
    simp only [sextets, strict, Nat.mul_mod_left, if_true]
    rw [show a.toNat % 4 * 16 = a.toNat % 4 * 16 + 0 from rfl, hfirst]
  | case3 a b =>
    have hb := b.toNat_lt
    have hfirst := first_eq a (n := b.toNat / 16) (by omega)
    have hsecond := second_eq b (a.toNat % 4) (n := 0) (by decide)
    simp only [sextets, strict, Nat.mul_mod_left, if_true, hfirst]
    rw [show b.toNat % 16 * 4 = b.toNat % 16 * 4 + 0 from rfl, hsecond]
  | case4 a b c bytes ih =>
    have hb := b.toNat_lt
    have hc := c.toNat_lt
    have hfirst := first_eq a (n := b.toNat / 16) (by omega)
    have hsecond := second_eq b (a.toNat % 4) (n := c.toNat / 64) (by omega)
    have hthird := third_eq c (b.toNat % 16)
    simp only [sextets, strict, ih, Option.map_some, hfirst, hsecond, hthird]

/-- What decodes strictly decodes leniently to the same bytes. -/
theorem lenient_of_strict {groups : List Nat} {bytes : List UInt8} (h : strict groups = some bytes) :
    lenient groups = bytes := by
  induction groups using lenient.induct generalizing bytes with
  | case1 => exact Option.some.inj h
  | case2 a => cases h
  | case3 a b =>
    simp only [strict, Option.ite_none_right_eq_some, Option.some.injEq] at h
    exact h.2
  | case4 a b c =>
    simp only [strict, Option.ite_none_right_eq_some, Option.some.injEq] at h
    exact h.2
  | case5 a b c d rest ih =>
    obtain ⟨tail, htail, rfl⟩ := Option.map_eq_some_iff.1 h
    simp only [lenient, ih htail]

theorem sextets_lt (bytes : List UInt8) : ∀ n ∈ sextets bytes, n < 64 := by
  induction bytes using sextets.induct with
  | case1 => simp [sextets]
  | case2 a =>
    have ha := a.toNat_lt
    simp only [sextets, List.mem_cons, List.not_mem_nil, or_false, forall_eq_or_imp, forall_eq]
    omega
  | case3 a b =>
    have ha := a.toNat_lt
    have hb := b.toNat_lt
    simp only [sextets, List.mem_cons, List.not_mem_nil, or_false, forall_eq_or_imp, forall_eq]
    omega
  | case4 a b c bytes ih =>
    have ha := a.toNat_lt
    have hb := b.toNat_lt
    have hc := c.toNat_lt
    simp only [sextets, List.mem_cons, forall_eq_or_imp]
    exact ⟨by omega, by omega, by omega, by omega, ih⟩

theorem value_standard : ∀ n < 64, value standard (digit standard n) = some n := by
  rw [standard, show letters = _ from Text.toList_eq rfl]
  decide +kernel

theorem value_urlSafe : ∀ n < 64, value urlSafe (digit urlSafe n) = some n := by
  rw [urlSafe, show letters = _ from Text.toList_eq rfl]
  decide +kernel

theorem mapM_value {alphabet : List Char} (h : ∀ n < 64, value alphabet (digit alphabet n) = some n)
    {groups : List Nat}
    (hlt : ∀ n ∈ groups, n < 64) : (groups.map (digit alphabet)).mapM (value alphabet) = some groups := by
  induction groups with
  | nil => rfl
  | cons n groups ih =>
    obtain ⟨hn, hlt⟩ := List.forall_mem_cons.1 hlt
    rw [List.map_cons, List.mapM_cons, h n hn, ih hlt]
    rfl

theorem strict_encode {alphabet : List Char} (h : ∀ n < 64, value alphabet (digit alphabet n) = some n)
    (bytes : List UInt8) :
    decodeStrict alphabet (encode alphabet bytes) = some bytes := by
  unfold decodeStrict encode
  rw [mapM_value h (sextets_lt bytes), Option.bind_some, strict_sextets]

theorem digit_standard : ∀ n < 64, digit standard n ≠ '=' := by
  rw [standard, show letters = _ from Text.toList_eq rfl]
  decide +kernel

/-- Padding and what follows it do not count. -/
theorem lenient_encode (bytes : List UInt8) (padding : List Char) (h : ∀ c ∈ padding, c = '=') :
    decodeLenient (encode standard bytes ++ padding) = bytes := by
  have hpadding : padding.takeWhile (· ≠ '=') = [] := by
    cases padding with
    | nil => rfl
    | cons c padding => simp [h c (List.mem_cons_self ..)]
  have htake : (encode standard bytes ++ padding).takeWhile (· ≠ '=') = encode standard bytes := by
    rw [List.takeWhile_append_of_pos, hpadding, List.append_nil]
    intro c hc
    obtain ⟨n, hn, rfl⟩ := List.mem_map.1 hc
    simpa using digit_standard n (sextets_lt bytes n hn)
  have hvalues : ∀ groups : List Nat, (∀ n ∈ groups, n < 64) →
      (groups.map (digit standard)).filterMap (fun c => (value standard c).or (value urlSafe c)) =
          groups := by
    intro groups hlt
    induction groups with
    | nil => rfl
    | cons n groups ih =>
      obtain ⟨hn, hlt⟩ := List.forall_mem_cons.1 hlt
      rw [List.map_cons, List.filterMap_cons, value_standard n hn, Option.some_or, ih hlt]
  unfold decodeLenient
  rw [htake, encode, hvalues _ (sextets_lt bytes), lenient_of_strict (strict_sextets bytes)]

end Base64
