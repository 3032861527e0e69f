import BetterFrame.Lib.Text

/-!
# Schema names of tenants

`shared/db/tenant-schema.ts`. The hash is a parameter: it gives the 64 hexadecimal digits of a text's SHA-256.
`tenantSchemaName_distinct` says which slugs share a schema.
-/

namespace TenantSchema

open Text

def isLower (c : Char) : Bool := 'a' ≤ c && c ≤ 'z'

def isHexDigit (c : Char) : Bool := isDigit c || ('a' ≤ c && c ≤ 'f')

/-- `[a-z0-9_]` -/
def isWordChar (c : Char) : Bool := isLower c || isDigit c || c = '_'

/-- `/^[a-z0-9][a-z0-9_-]{0,127}$/` -/
def isSlug (slug : String) : Bool :=
  match slug.toList with
  | [] => false
  | c :: cs => (isLower c || isDigit c) && cs.all (fun c => isWordChar c || c = '-') && cs.length ≤ 127

variable (sha256Hex : String → String)

def digest (slug : String) : List Char := (sha256Hex slug).toList.take 48

/-- The name earlier releases gave the schema. -/
def legacyTenantSchemaName (slug : String) : String :=
  String.ofList ("tenant_".toList ++ digest sha256Hex slug)

/-- The slug itself where it is a short identifier, a digest elsewhere. -/
def tenantSchemaName (slug : String) : Except String String :=
  if ¬ isSlug slug then .error "invalid tenant slug"
  else if slug = "default" then .ok "public"
  else if slug ≠ "" ∧ slug.toList.all isWordChar ∧ slug.length ≤ 56 then
    .ok (String.ofList ("tenant_".toList ++ slug.toList))
  else .ok (legacyTenantSchemaName sha256Hex slug)

/-- The characters of `identifier` one by one, as long as they fit. -/
def storeFrom (stored : String) : List Char → String
  | [] => stored
  | c :: cs => if (stored.push c).utf8ByteSize > 63 then stored else storeFrom (stored.push c) cs

/-- An identifier as the database keeps it, cut to 63 bytes. -/
def storedPostgresIdentifier (identifier : String) : String := storeFrom "" identifier.toList

/-- `/^[a-z_][a-z0-9_]*$/` -/
def isIdentifier (name : String) : Bool :=
  match name.toList with
  | [] => false
  | c :: cs => (isLower c || c = '_') && cs.all isWordChar

/-- PostgreSQL takes the name as it is. -/
structure Storable (name : String) : Prop where
  identifier : isIdentifier name
  size : name.utf8ByteSize ≤ 63
  stored : storedPostgresIdentifier name = name

/-- The slug is taken as it is. -/
def Verbatim (slug : String) : Prop := slug.toList.all isWordChar ∧ slug.length ≤ 56

/-- The name of `a` is made of a digest, and the digest is `b`. -/
def DigestIs (a b : String) : Prop := ¬ Verbatim a ∧ b.toList = digest sha256Hex a

/-- What is relied on of the hash. -/
def Hexadecimal : Prop := ∀ text, (sha256Hex text).length = 64 ∧ (sha256Hex text).toList.all isHexDigit

/-! ### Names -/

variable {sha256Hex} {a b x y : String}

theorem storeFrom_of_le : ∀ (cs : List Char) (stored : String),
    (stored ++ String.ofList cs).utf8ByteSize ≤ 63 →
    storeFrom stored cs = stored ++ String.ofList cs
  | [], stored, _ => by simp [storeFrom]
  | c :: cs, stored, h => by
    have hpush : stored.push c ++ String.ofList cs = stored ++ String.ofList (c :: cs) := by
      apply String.ext
      simp
    have hle : (stored.push c).utf8ByteSize ≤ 63 := by
      rw [← hpush, String.utf8ByteSize_append] at h
      omega
    rw [storeFrom, if_neg (Nat.not_lt.2 hle), storeFrom_of_le cs _ (hpush ▸ h), hpush]

theorem utf8Size_of_word {c : Char} (h : isWordChar c) : c.utf8Size = 1 := by
  have hle : c.val ≤ 127 := by
    unfold isWordChar isLower isDigit at h
    simp only [Bool.or_eq_true, Bool.and_eq_true, decide_eq_true_eq] at h
    rcases h with (⟨_, h⟩ | ⟨_, h⟩) | rfl
    · exact UInt32.le_trans h (by decide)
    · exact UInt32.le_trans h (by decide)
    · decide
  exact if_pos hle

theorem utf8ByteSize_of_word : ∀ {cs : List Char}, cs.all isWordChar →
    (String.ofList cs).utf8ByteSize = cs.length
  | [], _ => by simp
  | c :: cs, h => by
    obtain ⟨hc, hcs⟩ := Bool.and_eq_true_iff.1 (List.all_cons ▸ h)
    have hsplit : String.ofList (c :: cs) = String.ofList [c] ++ String.ofList cs := by
      rw [← String.ofList_append]
      rfl
    have hone : (String.ofList [c]).utf8ByteSize = c.utf8Size := by
      rw [← String.singleton_eq_ofList, String.utf8ByteSize_singleton]
    rw [hsplit, String.utf8ByteSize_append, hone, utf8Size_of_word hc, utf8ByteSize_of_word hcs,
      List.length_cons, Nat.add_comm]

theorem storable_of_le (hidentifier : isIdentifier x) (hsize : x.utf8ByteSize ≤ 63) : Storable x := by
  refine ⟨hidentifier, hsize, ?_⟩
  rw [storedPostgresIdentifier, storeFrom_of_le _ _ (by simpa using hsize)]
  simp

theorem storable_of_word {cs : List Char} (hword : cs.all isWordChar) (hlength : cs.length ≤ 56) :
    Storable (String.ofList ("tenant_".toList ++ cs)) := by
  have hall : ("tenant_".toList ++ cs).all isWordChar := by
    rw [List.all_append, hword]
    rfl
  refine storable_of_le ?_ ?_
  · unfold isIdentifier
    rw [String.toList_ofList]
    show (isLower 't' || _) && ("enant_".toList ++ cs).all isWordChar
    rw [List.all_append, hword]
    rfl
  · rw [utf8ByteSize_of_word hall, List.length_append]
    have : "tenant_".toList.length = 7 := rfl
    omega

theorem isWordChar_of_hex {c : Char} (h : isHexDigit c) : isWordChar c := by
  unfold isHexDigit at h
  unfold isWordChar isLower
  simp only [Bool.or_eq_true, Bool.and_eq_true, decide_eq_true_eq] at h ⊢
  rcases h with h | ⟨ha, hf⟩
  · exact .inl (.inr h)
  · exact .inl (.inl ⟨ha, UInt32.le_trans hf (by decide)⟩)

theorem digest_word (hhex : Hexadecimal sha256Hex) (slug : String) :
    (digest sha256Hex slug).all isWordChar ∧ (digest sha256Hex slug).length = 48 := by
  obtain ⟨hlength, hall⟩ := hhex slug
  constructor
  · rw [List.all_eq_true] at hall ⊢
    exact fun c hc => isWordChar_of_hex (hall c (List.mem_of_mem_take hc))
  · rw [digest, List.length_take, String.length_toList, hlength]
    rfl

theorem verbatim_of_digest (hhex : Hexadecimal sha256Hex) (h : b.toList = digest sha256Hex a) :
    Verbatim b := by
  obtain ⟨hall, hlength⟩ := digest_word hhex a
  refine ⟨h ▸ hall, ?_⟩
  rw [← String.length_toList, h, hlength]
  decide

theorem tenantSchemaName_cases (h : tenantSchemaName sha256Hex a = .ok x) :
    a = "default" ∧ x = "public" ∨ Verbatim a ∧ x = String.ofList ("tenant_".toList ++ a.toList) ∨
      ¬ Verbatim a ∧ x = String.ofList ("tenant_".toList ++ digest sha256Hex a) := by
  unfold tenantSchemaName at h
  split at h
  · cases h
  · next hslug =>
    have hne : a ≠ "" := fun hempty => hslug (by rw [hempty]; decide)
    split at h
    · next hdefault => exact .inl ⟨hdefault, (Except.ok.inj h).symm⟩
    · split at h
      · next hverbatim => exact .inr (.inl ⟨hverbatim.2, (Except.ok.inj h).symm⟩)
      · next hdigest => exact .inr (.inr ⟨fun hverbatim => hdigest ⟨hne, hverbatim⟩, (Except.ok.inj h).symm⟩)

theorem storable_name (hhex : Hexadecimal sha256Hex) (h : tenantSchemaName sha256Hex a = .ok x) :
    Storable x := by
  rcases tenantSchemaName_cases h with ⟨_, rfl⟩ | ⟨hverbatim, rfl⟩ | ⟨_, rfl⟩
  · exact storable_of_le (by decide) (by decide)
  · exact storable_of_word hverbatim.1 (by rw [String.length_toList]; exact hverbatim.2)
  · obtain ⟨hall, hlength⟩ := digest_word hhex a
    exact storable_of_word hall (by omega)

theorem tenant_inj {cs ds : List Char}
    (h : String.ofList ("tenant_".toList ++ cs) = String.ofList ("tenant_".toList ++ ds)) :
    cs = ds := List.append_cancel_left (String.ofList_injective h)

theorem public_ne_tenant (cs : List Char) : "public" ≠ String.ofList ("tenant_".toList ++ cs) := fun h => by
  have hchars : 'p' :: "ublic".toList = 't' :: ("enant_".toList ++ cs) :=
    (congrArg String.toList h).trans String.toList_ofList
  exact absurd (List.cons.inj hchars).1 (by decide)

/-- Two slugs have different names that PostgreSQL takes as they are, unless one is the digest in
the other's name. -/
theorem tenantSchemaName_distinct (hhex : Hexadecimal sha256Hex) (ha : tenantSchemaName sha256Hex a = .ok x)
    (hb : tenantSchemaName sha256Hex b = .ok y) (hne : a ≠ b)
    (hdigest : digest sha256Hex a ≠ digest sha256Hex b) :
    x ≠ y ∧ Storable x ∧ Storable y ↔ ¬ DigestIs sha256Hex a b ∧ ¬ DigestIs sha256Hex b a := by
  rw [and_iff_left ⟨storable_name hhex ha, storable_name hhex hb⟩]
  have hdefault : Verbatim "default" := ⟨by decide, by decide⟩
  -- The one slug's name is made of a digest, the other's of the slug.
  have hmixed : ∀ {a b : String}, Verbatim a → ¬ Verbatim b →
      (a.toList ≠ digest sha256Hex b ↔ ¬ DigestIs sha256Hex a b ∧ ¬ DigestIs sha256Hex b a) :=
        fun hverbatim hnot =>
    ⟨fun h => ⟨fun hd => hd.1 hverbatim, fun hd => h hd.2⟩, fun h heq => h.2 ⟨hnot, heq⟩⟩
  have hlong : ∀ slug, "default".toList ≠ digest sha256Hex slug := fun slug h => by
    have hlength := (digest_word hhex slug).2
    rw [← h] at hlength
    cases hlength
  rcases tenantSchemaName_cases ha with ⟨rfl, rfl⟩ | ⟨hva, rfl⟩ | ⟨hva, rfl⟩ <;>
    rcases tenantSchemaName_cases hb with ⟨rfl, rfl⟩ | ⟨hvb, rfl⟩ | ⟨hvb, rfl⟩
  · exact absurd rfl hne
  · exact iff_of_true (public_ne_tenant _) ⟨fun h => h.1 hdefault, fun h => h.1 hvb⟩
  · exact iff_of_true (public_ne_tenant _) ((hmixed hdefault hvb).1 (hlong b))
  · exact iff_of_true (public_ne_tenant _).symm ⟨fun h => h.1 hva, fun h => h.1 hdefault⟩
  · exact iff_of_true (fun h => hne (String.toList_inj.1 (tenant_inj h))) ⟨fun h => h.1 hva, fun h => h.1 hvb⟩
  · rw [← hmixed hva hvb]
    exact ⟨fun h heq => h (by rw [heq]), fun h heq => h (tenant_inj heq)⟩
  · exact iff_of_true (public_ne_tenant _).symm ((hmixed hdefault hva).1 (hlong a)).symm
  · rw [and_comm, ← hmixed hvb hva]
    exact ⟨fun h heq => h (by rw [heq]), fun h heq => h (tenant_inj heq).symm⟩
  · refine iff_of_true (fun h => hdigest (tenant_inj h)) ⟨fun h => hvb ?_, fun h => hva ?_⟩
    · exact verbatim_of_digest hhex h.2
    · exact verbatim_of_digest hhex h.2

/-- The hash of a few texts. -/
def someHashes (text : String) : String :=
  if text = "branch-one" then "f4d8c1daca239a94b1314e1fa3aadd01a67216b0e2447e8fe1038ebd7bfe9e56"
  else if text = "a-b" then "d44362d67d921091c7b9674d752e9e23c1f9ec8a4f0b82741bf01364eb97c830"
  else "d1121cedae7f04bcd2ae00c1540194a4d5e685d09c68b1a7445d3aeb948eba7d"

theorem someHashes_hex : Hexadecimal someHashes := fun text => by
  unfold someHashes
  split
  · decide
  · split <;> decide

theorem tenantSchemaName_distinct_branches : ∃ x y, tenantSchemaName someHashes "branch-one" = .ok x ∧
    tenantSchemaName someHashes "branch_one" = .ok y ∧ (x ≠ y ∧ Storable x ∧ Storable y ↔
      ¬ DigestIs someHashes "branch-one" "branch_one" ∧ ¬ DigestIs someHashes "branch_one" "branch-one") :=
  ⟨_, _, rfl, rfl, tenantSchemaName_distinct someHashes_hex rfl rfl (by decide) (by decide)⟩

/-- A slug that is the digest of another. -/
theorem digest_slug_collides : Hexadecimal someHashes ∧
    ¬ ∀ a b : String, a ≠ b → digest someHashes a ≠ digest someHashes b →
    ∀ x y, tenantSchemaName someHashes a = .ok x →
      tenantSchemaName someHashes b = .ok y → x ≠ y := by
  refine ⟨someHashes_hex, fun h => ?_⟩
  exact h "a-b" "d44362d67d921091c7b9674d752e9e23c1f9ec8a4f0b8274" (by decide) (by decide) _ _ rfl rfl rfl

end TenantSchema
