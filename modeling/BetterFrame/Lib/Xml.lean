import BetterFrame.Lib.Text
import Mathlib.Data.List.TakeDrop
import Mathlib.Data.List.TakeWhile

/-!
# XML with namespaces

`Item` is the syntax of a document without declarations, comments, processing instructions and CDATA
sections: its texts and attribute values stand as they are written, with references. `resolve` gives
the tree that the document stands for, where every name has its namespace and every element the
namespaces in scope. `read` takes a text apart again (`read_render`).
-/

namespace Xml

abbrev Str := List Char

/-- The namespace of the prefix `xml`. -/
def XML : Str := "http://www.w3.org/XML/1998/namespace".toList

def XMLNS : Str := "http://www.w3.org/2000/xmlns/".toList

/-! ### Characters -/

/-- The characters a document may hold. -/
def isXmlChar (c : Char) : Bool :=
  c = '\t' || c = '\n' || c = '\r' || (0x20 ≤ c.toNat && c.toNat ≠ 0xFFFE && c.toNat ≠ 0xFFFF)

/-- `NameStartChar` without the colon -/
def isNameStart (c : Char) : Bool :=
  let n := c.toNat
  (0x41 ≤ n && n ≤ 0x5A) || n = 0x5F || (0x61 ≤ n && n ≤ 0x7A) || (0xC0 ≤ n && n ≤ 0xD6) ||
    (0xD8 ≤ n && n ≤ 0xF6) ||
    (0xF8 ≤ n && n ≤ 0x2FF) || (0x370 ≤ n && n ≤ 0x37D) || (0x37F ≤ n && n ≤ 0x1FFF) ||
      (0x200C ≤ n && n ≤ 0x200D) ||
    (0x2070 ≤ n && n ≤ 0x218F) || (0x2C00 ≤ n && n ≤ 0x2FEF) || (0x3001 ≤ n && n ≤ 0xD7FF) ||
      (0xF900 ≤ n && n ≤ 0xFDCF) ||
    (0xFDF0 ≤ n && n ≤ 0xFFFD) || (0x10000 ≤ n && n ≤ 0xEFFFF)

/-- `NameChar` without the colon -/
def isNameChar (c : Char) : Bool :=
  let n := c.toNat
  isNameStart c || c = '-' || c = '.' || (0x30 ≤ n && n ≤ 0x39) || n = 0xB7 ||
    (0x300 ≤ n && n ≤ 0x36F) || (0x203F ≤ n && n ≤ 0x2040)

def isNCName (name : Str) : Bool := name.head?.any isNameStart && name.all isNameChar

section Names

variable {name : Str}

/-- No character of a name is markup. -/
theorem not_mem_name {c : Char} (hname : isNCName name = true) (hc : isNameChar c = false) : c ∉ name := by
  intro hmem
  have hall := List.all_eq_true.1 (Bool.and_eq_true_iff.1 hname).2 c hmem
  simp [hc] at hall

theorem ne_nil_of_isNCName (h : isNCName name = true) : name ≠ [] := by
  rintro rfl
  simp [isNCName] at h

end Names

/-! ### References and white space -/

/-- The character of a number, if a document may have it. -/
def charOfNumber (n : Nat) : Option Char :=
  if n.isValidChar ∧ isXmlChar (Char.ofNat n) then some (Char.ofNat n) else none

/-- The character that a reference with the text between `&` and `;` stands for. -/
def reference : Str → Option Char
  | ['a', 'm', 'p'] => some '&'
  | ['l', 't'] => some '<'
  | ['g', 't'] => some '>'
  | ['q', 'u', 'o', 't'] => some '"'
  | ['a', 'p', 'o', 's'] => some '\''
  | '#' :: 'x' :: digits =>
    if digits ≠ [] ∧ digits.all fun c => (Text.hexVal c.toLower).isSome then
      charOfNumber (digits.foldl (fun n c => n * 16 + (Text.hexVal c.toLower).getD 0) 0)
    else none
  | '#' :: digits =>
    if digits ≠ [] ∧ digits.all Text.isDigit then charOfNumber (Text.digitsValue digits) else none
  | _ => none
/-- The line ends of a text are line feeds, and `f` is applied to its characters. -/
def normalise (f : Char → Char) : Str → Str
  | [] => []
  | c :: cs =>
    if c = '\r' then (if cs.head? = some '\n' then normalise f cs else f '\n' :: normalise f cs)
    else f c :: normalise f cs

/-- The text that `raw` stands for; `pending` is the reversed beginning of a reference. -/
def decodeFrom (f : Char → Char) : Option Str → Str → Option Str
  | none, [] => some []
  | some _, [] => none
  | some name, c :: cs =>
    if c = ';' then (reference name.reverse).bind fun r => (decodeFrom f none cs).map (r :: ·)
    else decodeFrom f (some (c :: name)) cs
  | none, c :: cs =>
    if c = '&' then decodeFrom f (some []) cs
    else if c = '\r' then (if cs.head? = some '\n' then decodeFrom f none cs
      else (decodeFrom f none cs).map (f '\n' :: ·))
    else (decodeFrom f none cs).map (f c :: ·)

/-- White space in an attribute value is a space. -/
def spaced (c : Char) : Char := if c = '\t' ∨ c = '\n' ∨ c = '\r' then ' ' else c

/-- Text with its references resolved. -/
def decodeText (raw : Str) : Option Str := decodeFrom id none raw

/-- An attribute's value: references resolved, white space turned into spaces. -/
def decodeValue (raw : Str) : Option Str := decodeFrom spaced none raw

/-- A character in text or in an attribute value, by a reference where it could be markup. -/
def escapeChar (c : Char) : Str :=
  if c = '&' then "&amp;".toList
  else if c = '<' then "&lt;".toList
  else if c = '>' then "&gt;".toList
  else if c = '"' then "&quot;".toList
  else if c = '\'' then "&apos;".toList
  else [c]

def escape (s : Str) : Str := s.flatMap escapeChar

section Escape

variable {f : Char → Char} {c : Char} {s t raw : Str}

@[simp] theorem escape_nil : escape [] = [] := rfl

@[simp] theorem escape_cons : escape (c :: s) = escapeChar c ++ escape s := rfl

@[simp] theorem escape_append : escape (s ++ t) = escape s ++ escape t := List.flatMap_append

theorem escapeChar_cases (c : Char) :
    (∃ name, escapeChar c = '&' :: name ++ [';'] ∧ ';' ∉ name ∧ reference name = some c ∧
      (c = '&' ∨ c = '<' ∨ c = '>' ∨ c = '"' ∨ c = '\'')) ∨
      (escapeChar c = [c] ∧ c ≠ '&' ∧ c ≠ '<' ∧ c ≠ '>' ∧ c ≠ '"' ∧ c ≠ '\'') := by
  unfold escapeChar
  split_ifs with h1 h2 h3 h4 h5
  · exact .inl ⟨"amp".toList, by subst h1; decide⟩
  · exact .inl ⟨"lt".toList, by subst h2; decide⟩
  · exact .inl ⟨"gt".toList, by subst h3; decide⟩
  · exact .inl ⟨"quot".toList, by subst h4; decide⟩
  · exact .inl ⟨"apos".toList, by subst h5; decide⟩
  · exact .inr ⟨rfl, h1, h2, h3, h4, h5⟩

theorem not_mem_escape {m : Char} (hm : m = '<' ∨ m = '>' ∨ m = '"') : m ∉ escape s := by
  intro hmem
  obtain ⟨c, -, hc⟩ := List.mem_flatMap.1 hmem
  unfold escapeChar at hc
  split_ifs at hc
  · rcases hm with rfl | rfl | rfl <;> simp at hc
  · rcases hm with rfl | rfl | rfl <;> simp at hc
  · rcases hm with rfl | rfl | rfl <;> simp at hc
  · rcases hm with rfl | rfl | rfl <;> simp at hc
  · rcases hm with rfl | rfl | rfl <;> simp at hc
  · rw [List.mem_singleton] at hc
    subst hc
    simp_all

theorem escape_legal (h : ∀ c ∈ s, isXmlChar c = true) : ∀ c ∈ escape s, isXmlChar c = true := by
  intro x hx
  obtain ⟨c, hmem, hc⟩ := List.mem_flatMap.1 hx
  unfold escapeChar at hc
  split_ifs at hc
  · exact List.all_eq_true.1 (by decide : "&amp;".toList.all isXmlChar = true) x hc
  · exact List.all_eq_true.1 (by decide : "&lt;".toList.all isXmlChar = true) x hc
  · exact List.all_eq_true.1 (by decide : "&gt;".toList.all isXmlChar = true) x hc
  · exact List.all_eq_true.1 (by decide : "&quot;".toList.all isXmlChar = true) x hc
  · exact List.all_eq_true.1 (by decide : "&apos;".toList.all isXmlChar = true) x hc
  · rw [List.mem_singleton.1 hc]
    exact h c hmem

theorem escapeChar_ne_nil (c : Char) : escapeChar c ≠ [] := by
  rcases escapeChar_cases c with ⟨name, h, -⟩ | ⟨h, -⟩ <;> simp [h]

theorem escape_eq_nil : escape s = [] ↔ s = [] := by
  cases s with
  | nil => simp
  | cons c s => simp [escapeChar_ne_nil]

theorem decodeFrom_name {name rest acc : Str} (hname : ';' ∉ name) :
    decodeFrom f (some acc) (name ++ ';' :: rest) =
    (reference (acc.reverse ++ name)).bind fun r => (decodeFrom f none rest).map (r :: ·) := by
  induction name generalizing acc with
  | nil => simp [decodeFrom]
  | cons c name ih =>
    obtain ⟨hc, hname⟩ := not_or.1 (fun h => hname (List.mem_cons.2 h))
    rw [List.cons_append, decodeFrom, if_neg (Ne.symm hc), ih hname]
    simp

/-- A line feed is written as it is, and it is written by no reference. -/
theorem head_escape : (escape s).head? = some '\n' ↔ s.head? = some '\n' := by
  cases s with
  | nil => simp
  | cons c s =>
    rcases escapeChar_cases c with ⟨name, h, -, -, hc⟩ | ⟨h, -⟩
    · rcases hc with rfl | rfl | rfl | rfl | rfl <;> simp [h]
    · simp [h]

theorem decode_escape (hf : ∀ c, c = '&' ∨ c = '<' ∨ c = '>' ∨ c = '"' ∨ c = '\'' → f c = c) (s : Str) :
    decodeFrom f none (escape s) = some (normalise f s) := by
  induction s with
  | nil => rfl
  | cons c s ih =>
    rcases escapeChar_cases c with ⟨name, h, hname, href, hc⟩ | ⟨h, hamp, -⟩
    · have hcr : c ≠ '\r' := by rcases hc with rfl | rfl | rfl | rfl | rfl <;> decide
      rw [escape_cons, h, normalise, if_neg hcr, hf c hc]
      show decodeFrom f none ('&' :: (name ++ [';'] ++ escape s)) = _
      rw [decodeFrom, if_pos rfl, List.append_assoc, List.singleton_append, decodeFrom_name hname]
      simp [href, ih]
    · rw [escape_cons, h, List.singleton_append, decodeFrom, if_neg hamp, normalise, ih]
      by_cases hcr : c = '\r'
      · by_cases hlf : s.head? = some '\n'
        · simp [hcr, hlf, head_escape.2 hlf]
        · simp [hcr, hlf, mt head_escape.1 hlf]
      · simp [hcr]

theorem decodeText_escape (s : Str) : decodeText (escape s) = some (normalise id s) :=
  decode_escape (fun _ _ => rfl) s

theorem decodeValue_escape (s : Str) : decodeValue (escape s) = some (normalise spaced s) := by
  refine decode_escape (fun c hc => ?_) s
  rcases hc with rfl | rfl | rfl | rfl | rfl <;> decide

end Escape

section Normalise

variable {f : Char → Char} {c : Char} {s : Str}

theorem mem_normalise (h : c ∈ normalise f s) : ∃ x, c = f x ∧ x ≠ '\r' ∧ (x ∈ s ∨ x = '\n') := by
  induction s with
  | nil => cases h
  | cons a s ih =>
    have hlater : c ∈ normalise f s → ∃ x, c = f x ∧ x ≠ '\r' ∧ (x ∈ a :: s ∨ x = '\n') := by
      intro hc
      obtain ⟨x, hx, hne, hmem⟩ := ih hc
      exact ⟨x, hx, hne, hmem.imp_left (List.mem_cons_of_mem a)⟩
    rw [normalise] at h
    split_ifs at h with hcr hlf
    · exact hlater h
    · rcases List.mem_cons.1 h with rfl | h
      · exact ⟨'\n', rfl, by decide, .inr rfl⟩
      · exact hlater h
    · rcases List.mem_cons.1 h with rfl | h
      · exact ⟨a, rfl, hcr, .inl List.mem_cons_self⟩
      · exact hlater h

theorem normalise_of_forall (h : ∀ c ∈ s, c ≠ '\r' ∧ f c = c) : normalise f s = s := by
  induction s with
  | nil => rfl
  | cons a s ih =>
    obtain ⟨hcr, hf⟩ := h a List.mem_cons_self
    rw [normalise, if_neg hcr, hf, ih fun c hc => h c (List.mem_cons_of_mem a hc)]

theorem normalise_id_eq : normalise id s = s ↔ '\r' ∉ s := by
  constructor
  · intro h hmem
    rw [← h] at hmem
    obtain ⟨x, hx, hne, -⟩ := mem_normalise hmem
    exact hne hx.symm
  · intro h
    exact normalise_of_forall fun c hc => ⟨fun heq => h (heq ▸ hc), rfl⟩

theorem spaced_eq : spaced c = c ↔ c ≠ '\t' ∧ c ≠ '\n' ∧ c ≠ '\r' := by
  unfold spaced
  split_ifs with h
  · rcases h with rfl | rfl | rfl <;> decide
  · simpa [not_or] using h

theorem spaced_spaced : spaced (spaced c) = spaced c := by
  unfold spaced
  split_ifs <;> simp_all

/-- What white space in attribute values cannot change. -/
theorem normalise_spaced_eq : normalise spaced s = s ↔ ∀ c ∈ s, spaced c = c := by
  constructor
  · intro h c hc
    rw [← h] at hc
    obtain ⟨x, rfl, -⟩ := mem_normalise hc
    exact spaced_spaced
  · intro h
    exact normalise_of_forall fun c hc => ⟨(spaced_eq.1 (h c hc)).2.2, h c hc⟩

theorem space_mem_normalise (hc : c ∈ s) (hspace : spaced c ≠ c) : ' ' ∈ normalise spaced s := by
  induction s generalizing c with
  | nil => cases hc
  | cons a s ih =>
    rw [normalise]
    split_ifs with hcr hlf
    · -- the line feed after it is replaced
      exact ih (List.mem_of_mem_head? hlf) (by decide)
    · exact List.mem_cons_self
    · rcases List.mem_cons.1 hc with rfl | hc
      · have hspaced : spaced c = ' ' := by
          unfold spaced at hspace ⊢
          split_ifs at hspace ⊢
          · rfl
          · exact absurd rfl hspace
        rw [hspaced]
        exact List.mem_cons_self
      · exact List.mem_cons_of_mem _ (ih hc hspace)

/-- A value without blanks is what it was before. -/
theorem eq_of_normalise_spaced {t : Str} (h : normalise spaced s = t) (ht : ' ' ∉ t) : s = t := by
  rw [← h, eq_comm, normalise_spaced_eq]
  intro c hc
  by_contra hspace
  exact ht (h ▸ space_mem_normalise hc hspace)

theorem normalise_ne_nil (h : s ≠ []) : normalise f s ≠ [] := by
  induction s with
  | nil => exact absurd rfl h
  | cons a s ih =>
    rw [normalise]
    split_ifs with hcr hlf
    · exact ih (by rintro rfl; cases hlf)
    · exact List.cons_ne_nil _ _
    · exact List.cons_ne_nil _ _

end Normalise

/-! ### Documents -/

/-- A name with its prefix. -/
structure QName where
  pfx : Option Str
  name : Str
deriving DecidableEq

def QName.text (q : QName) : Str :=
  match q.pfx with
  | none => q.name
  | some p => p ++ ':' :: q.name

def QName.legal (q : QName) : Bool := isNCName q.name && q.pfx.all isNCName

/-- What a document is written as. -/
inductive Item where
  | element (tag : QName) (attributes : List (QName × Str)) (children : List Item)
  | text (raw : Str)

def renderAttributes (attributes : List (QName × Str)) : Str :=
  attributes.flatMap fun a => ' ' :: a.1.text ++ '=' :: '"' :: a.2 ++ ['"']

mutual

def Item.render : Item → Str
  | .element tag attributes children =>
    '<' :: tag.text ++ renderAttributes attributes ++ '>' :: renderAll children ++ '<' :: '/' ::
      tag.text ++ ['>']
  | .text raw => raw

def renderAll : List Item → Str
  | [] => []
  | item :: items => item.render ++ renderAll items

end

/-- The declaration of a prefix, or of the default namespace. -/
def QName.declares (q : QName) : Option (Option Str) :=
  match q.pfx with
  | none => if q.name = "xmlns".toList then some none else none
  | some p => if p = "xmlns".toList then some (some q.name) else none

/-- A declaration of a namespace. -/
structure Ns where
  /-- The prefix, or none for the default namespace -/
  name : Option Str
  uri : Str
deriving DecidableEq

/-- The namespace may be declared. The prefix `xml` is not: it needs no declaration. -/
def Ns.legal (ns : Ns) : Bool :=
  ns.uri ≠ XML && ns.uri ≠ XMLNS && ns.uri.all isXmlChar &&
    ns.name.all fun p => isNCName p && p ≠ "xml".toList && p ≠ "xmlns".toList && ns.uri ≠ []

theorem Ns.legal_iff {ns : Ns} : ns.legal = true ↔ ns.uri ≠ XML ∧ ns.uri ≠ XMLNS ∧
    (∀ c ∈ ns.uri, isXmlChar c = true) ∧
    ∀ p, ns.name = some p → isNCName p = true ∧ p ≠ "xml".toList ∧ p ≠ "xmlns".toList ∧ ns.uri ≠ [] := by
  unfold Ns.legal
  simp only [Bool.and_eq_true_iff, decide_eq_true_eq, List.all_eq_true, Option.all_eq_true, and_assoc]

/-- A name with the namespace that its prefix stands for. -/
structure Expanded where
  namespace_ : Option Str
  name : Str
deriving DecidableEq

/-- An attribute whose name is resolved. -/
structure Attribute where
  name : Expanded
  value : Str
deriving DecidableEq

/-- A node of the tree of a document, an element with the namespaces that are in scope there. -/
inductive Node where
  | element (tag : Expanded) (namespaces : List Ns) (attributes : List Attribute) (children : List Node)
  | text (value : Str)
  /-- A comment or a processing instruction -/
  | other

/-- The URI that a prefix stands for. -/
def lookup (scope : List Ns) (name : Option Str) : Option Str :=
  (scope.find? fun ns => ns.name = name).map Ns.uri

/-- The namespaces that the attributes of an element declare. -/
def declared : List (QName × Str) → Option (List Ns)
  | [] => some []
  | a :: as =>
    match a.1.declares with
    | some name => (decodeValue a.2).bind fun uri => (declared as).map (⟨name, uri⟩ :: ·)
    | none => declared as

/-- The element's own declarations hide the outer ones of the same name. -/
def inScope (own outer : List Ns) : List Ns := own ++ outer.filter fun ns => ns.name ∉ own.map Ns.name

/-- An element without a prefix is in the default namespace; a prefix must be in scope. -/
def resolveTag (scope : List Ns) (tag : QName) : Option Expanded :=
  match tag.pfx with
  | none => some ⟨lookup scope none, tag.name⟩
  | some p => (lookup scope (some p)).map fun uri => ⟨some uri, tag.name⟩

/-- An attribute without a prefix is in no namespace; the prefix `xml` is always in scope. -/
def resolveAttribute (scope : List Ns) (q : QName) : Option Expanded :=
  match q.pfx with
  | none => some ⟨none, q.name⟩
  | some p =>
    if p = "xml".toList then some ⟨some XML, q.name⟩ else (lookup scope (some p)).map fun uri =>
      ⟨some uri, q.name⟩

/-- The attributes under their expanded names, declarations left out. -/
def attributesOf (scope : List Ns) : List (QName × Str) → Option (List Attribute)
  | [] => some []
  | a :: as =>
    match a.1.declares with
    | some _ => attributesOf scope as
    | none =>
      (resolveAttribute scope a.1).bind fun name => (decodeValue a.2).bind fun value =>
        (attributesOf scope as).map (⟨name, value⟩ :: ·)

mutual

/-- The tree that an item stands for in the scope of the namespaces, unless a name cannot be
resolved or is given twice. -/
def Item.resolve (outer : List Ns) : Item → Option Node
  | .element tag attributes children =>
    (declared attributes).bind fun own =>
      if (own.map Ns.name).Nodup then
        let scope := inScope own outer
        (resolveTag scope tag).bind fun name => (attributesOf scope attributes).bind fun as =>
          if (as.map Attribute.name).Nodup then (resolveAll scope children).map (.element name scope as)
          else none
      else none
  | .text raw => (decodeText raw).map .text

def resolveAll (outer : List Ns) : List Item → Option (List Node)
  | [] => some []
  | item :: items => (item.resolve outer).bind fun node => (resolveAll outer items).map (node :: ·)

end

/-! ### Reading a document -/

def Item.isText : Item → Bool
  | .text _ => true
  | _ => false

/-- The attribute is written as one, and what it declares may be declared. -/
def legalAttribute (a : QName × Str) : Bool :=
  a.1.legal && a.2.all (fun c => c ≠ '<' && c ≠ '"' && isXmlChar c) &&
    a.1.declares.all fun name => (decodeValue a.2).all fun uri => Ns.legal ⟨name, uri⟩

mutual

/-- The item is written as XML demands, apart from what `resolve` checks. -/
def Item.legal : Item → Bool
  | .element tag attributes children => tag.legal && attributes.all legalAttribute && legalAll children
  | .text raw => raw ≠ [] && raw.all fun c => c ≠ '<' && c ≠ '>' && isXmlChar c

/-- No text follows on another one. -/
def legalAll : List Item → Bool
  | [] => true
  | item :: items => item.legal && !(item.isText && items.head?.any Item.isText) && legalAll items

end

/-- A name split at its first colon. -/
def QName.read (s : Str) : QName :=
  match s.span (· ≠ ':') with
  | (name, []) => ⟨none, name⟩
  | (p, _ :: name) => ⟨some p, name⟩

/-- `s` without the word it begins with. -/
def skip (word s : Str) : Option Str := if word <+: s then some (s.drop word.length) else none

/-- The attributes up to the end of the tag, and what comes after it. -/
def readAttributes : Nat → Str → Option (List (QName × Str) × Str)
  | n + 1, ' ' :: s =>
    let (name, s) := s.span (· ≠ '=')
    (skip ['=', '"'] s).bind fun s =>
      let (raw, s) := s.span (· ≠ '"')
      (skip ['"'] s).bind fun s => (readAttributes n s).map fun r => ((QName.read name, raw) :: r.1, r.2)
  | _, '>' :: s => some ([], s)
  | _, _ => none

/-- The items up to an end tag, and what comes after them. -/
def readItems : Nat → Str → Option (List Item × Str)
  | 0, _ => none
  | n + 1, s =>
    if s = [] ∨ ['<', '/'] <+: s then some ([], s)
    else
      match skip ['<'] s with
      | some s =>
        let (tag, s) := s.span fun c => c ≠ ' ' && c ≠ '>'
        (readAttributes n s).bind fun a => (readItems n a.2).bind fun c =>
            (skip ('<' :: '/' :: tag ++ ['>']) c.2).bind fun s =>
          (readItems n s).map fun r => (.element (QName.read tag) a.1 c.1 :: r.1, r.2)
      | none =>
        let (raw, s) := s.span (· ≠ '<')
        (readItems n s).map fun r => (.text raw :: r.1, r.2)

/-- The element that the text is. -/
def read (s : Str) : Option Item :=
  match readItems (s.length + 1) s with
  | some ([.element tag attributes children], []) => some (.element tag attributes children)
  | _ => none

section Read

variable {s t u rest : Str} {c : Char} {p : Char → Bool}

theorem span_append (h : ∀ c ∈ s, p c = true) (hc : p c = false) :
    (s ++ c :: rest).span p = (s, c :: rest) := by
  rw [List.span_eq_takeWhile_dropWhile, List.takeWhile_append_of_pos h, List.dropWhile_append_of_pos h]
  simp [hc]

theorem span_all (h : ∀ c ∈ s, p c = true) : s.span p = (s, []) := by
  rw [List.span_eq_takeWhile_dropWhile, List.takeWhile_eq_self_iff.2 h, List.dropWhile_eq_nil_iff.2 h]

theorem QName.read_text {q : QName} (h : q.legal = true) : QName.read q.text = q := by
  obtain ⟨pfx, name⟩ := q
  obtain ⟨hname, hpfx⟩ := Bool.and_eq_true_iff.1 h
  have hcolon : ∀ {name : Str}, isNCName name = true → ∀ c ∈ name, decide (c ≠ ':') = true := by
    intro name hname c hc
    have hnot := not_mem_name hname (by decide : isNameChar ':' = false)
    simp only [decide_eq_true_eq]
    rintro rfl
    exact hnot hc
  cases pfx with
  | none => rw [QName.text, QName.read, span_all (hcolon hname)]
  | some p => rw [QName.text, QName.read, span_append (hcolon (by simpa using hpfx)) (by decide)]

/-- No markup is in a qualified name. -/
theorem QName.not_mem_text {q : QName} (h : q.legal = true) (hc : isNameChar c = false) (hcolon : c ≠ ':') :
    c ∉ q.text := by
  obtain ⟨hname, hpfx⟩ := Bool.and_eq_true_iff.1 h
  unfold QName.text
  split
  · exact not_mem_name hname hc
  · rename_i p hp
    have hp' : isNCName p = true := by simpa [hp] using hpfx
    simp [not_mem_name hname hc, not_mem_name hp' hc, hcolon]

theorem skip_append (s t : Str) : skip s (s ++ t) = some t := by simp [skip]

theorem skip_cons (c : Char) (s : Str) : skip [c] (c :: s) = some s := skip_append [c] s

/-- What is written of an attribute and what comes after it. -/
theorem readAttributes_render {attributes : List (QName × Str)}
    (h : attributes.all legalAttribute = true) {n : Nat}
    (hn : attributes.length < n) (s : Str) :
    readAttributes n (renderAttributes attributes ++ '>' :: s) = some (attributes, s) := by
  induction attributes generalizing n with
  | nil =>
    cases n with
    | zero => simp at hn
    | succ n => rfl
  | cons a as ih =>
    cases n with
    | zero => simp at hn
    | succ n =>
      obtain ⟨ha, has⟩ := Bool.and_eq_true_iff.1 (List.all_cons ▸ h)
      obtain ⟨⟨hname, hraw⟩, -⟩ : (a.1.legal = true ∧ _) ∧ _ := by
        simpa only [legalAttribute, Bool.and_eq_true_iff] using ha
      have hnamechars : ∀ c ∈ a.1.text, decide (c ≠ '=') = true := by
        intro c hc
        have hnot := QName.not_mem_text hname (by decide : isNameChar '=' = false) (by decide)
        simp only [decide_eq_true_eq]
        rintro rfl
        exact hnot hc
      have hrawchars : ∀ c ∈ a.2, decide (c ≠ '"') = true := by
        intro c hc
        have hall := List.all_eq_true.1 hraw c hc
        simp only [Bool.and_eq_true_iff] at hall
        exact hall.1.2
      have hlater := ih has (by simpa using hn)
      show readAttributes (n + 1) (' ' :: a.1.text ++ '=' :: '"' :: a.2 ++ ['"'] ++
        renderAttributes as ++ '>' :: s) = _
      simp only [List.cons_append, List.append_assoc, List.nil_append, readAttributes]
      rw [span_append hnamechars (by decide)]
      show (skip ['=', '"'] (['=', '"'] ++ (a.2 ++ '"' :: (renderAttributes as ++ '>' :: s)))).bind _ = _
      rw [skip_append, Option.bind_some, span_append hrawchars (by decide)]
      show (skip ['"'] (['"'] ++ (renderAttributes as ++ '>' :: s))).bind _ = _
      rw [skip_append, Option.bind_some, hlater, Option.map_some, QName.read_text hname]

/-- What comes after items: nothing, or an end tag. -/
def Closes (rest : Str) : Prop := rest = [] ∨ ∃ s, rest = '<' :: '/' :: s

/-- Where no text comes next there is a tag, or nothing. -/
theorem tag_of_not_text {items : List Item} (hnext : items.head?.any Item.isText = false)
    (hrest : Closes rest) :
    renderAll items ++ rest = [] ∨ ∃ s, renderAll items ++ rest = '<' :: s := by
  cases items with
  | nil =>
    rcases hrest with rfl | ⟨s, rfl⟩
    · exact .inl rfl
    · exact .inr ⟨'/' :: s, rfl⟩
  | cons item items =>
    cases item with
    | element tag attributes children =>
      exact .inr ⟨_, by simp only [renderAll, Item.render, List.cons_append]; rfl⟩
    | text raw => simp [Item.isText] at hnext

theorem length_renderAttributes (attributes : List (QName × Str)) :
    attributes.length ≤ (renderAttributes attributes).length := by
  induction attributes with
  | nil => simp
  | cons a as ih =>
    simp only [renderAttributes, List.flatMap_cons, List.length_append, List.length_cons] at ih ⊢
    omega

theorem QName.text_ne_nil {q : QName} (h : q.legal = true) : q.text ≠ [] := by
  unfold QName.text
  split
  · exact ne_nil_of_isNCName (Bool.and_eq_true_iff.1 h).1
  · simp

/-- A start tag is taken for nothing else. -/
theorem not_closes {q : QName} (h : q.legal = true) (s : Str) :
    ¬ ('<' :: q.text ++ s = [] ∨ ['<', '/'] <+: '<' :: q.text ++ s) := by
  rintro (hnil | hprefix)
  · simp at hnil
  · obtain ⟨c, cs, hc⟩ := List.exists_cons_of_ne_nil (QName.text_ne_nil h)
    rw [List.cons_append, hc, List.cons_append] at hprefix
    have hslash := (List.cons_prefix_cons.1 (List.cons_prefix_cons.1 hprefix).2).1
    exact QName.not_mem_text h (by decide : isNameChar '/' = false) (by decide) (hc ▸ hslash ▸
      List.mem_cons_self)

theorem readItems_element {n : Nat} {tag : QName} {attributes : List (QName × Str)}
    {children items : List Item} {inner : Str}
    (htag : tag.legal = true) (hattributes : attributes.all legalAttribute = true)
    (hn : attributes.length < n)
    (hchildren : readItems n (inner ++ ('<' :: '/' :: tag.text ++ ['>']) ++ s) = some (children,
    ('<' :: '/' :: tag.text ++ ['>']) ++ s)) (hitems : readItems n s = some (items, rest)) :
    readItems (n + 1) ('<' :: tag.text ++
      (renderAttributes attributes ++ '>' :: (inner ++ ('<' :: '/' :: tag.text ++ ['>']) ++ s))) =
      some (.element tag attributes children :: items, rest) := by
  have htagchars : ∀ c ∈ tag.text, (decide (c ≠ ' ') && decide (c ≠ '>')) = true := by
    intro c hc
    have hspace := QName.not_mem_text htag (by decide : isNameChar ' ' = false) (by decide)
    have hclose := QName.not_mem_text htag (by decide : isNameChar '>' = false) (by decide)
    simp only [Bool.and_eq_true_iff, decide_eq_true_eq]
    exact ⟨fun heq => hspace (heq ▸ hc), fun heq => hclose (heq ▸ hc)⟩
  have hspan : ∀ s, (tag.text ++ (renderAttributes attributes ++ '>' :: s)).span
    (fun c => decide (c ≠ ' ') && decide (c ≠ '>')) =
      (tag.text, renderAttributes attributes ++ '>' :: s) := by
    intro s
    cases attributes with
    | nil => exact span_append htagchars (by decide)
    | cons a as => exact span_append htagchars (by decide)
  rw [readItems, if_neg (not_closes htag _)]
  rw [List.cons_append, skip_cons]
  dsimp only
  rw [hspan]
  dsimp only
  rw [readAttributes_render hattributes hn, Option.bind_some]
  dsimp only
  rw [hchildren, Option.bind_some]
  dsimp only
  rw [skip_append, Option.bind_some, hitems, Option.map_some, QName.read_text htag]

theorem readItems_text {n : Nat} {raw : Str} {items : List Item} (hne : raw ≠ []) (hraw : ∀ c ∈ raw, c ≠ '<')
    (hnext : s = [] ∨ ∃ t, s = '<' :: t) (hitems : readItems n s = some (items, rest)) :
    readItems (n + 1) (raw ++ s) = some (.text raw :: items, rest) := by
  obtain ⟨c, cs, rfl⟩ := List.exists_cons_of_ne_nil hne
  have hc : c ≠ '<' := hraw c List.mem_cons_self
  have hcut : ¬ (c :: cs ++ s = [] ∨ ['<', '/'] <+: c :: cs ++ s) := by
    rintro (hnil | hprefix)
    · simp at hnil
    · exact hc (List.cons_prefix_cons.1 hprefix).1.symm
  have hskip : skip ['<'] (c :: cs ++ s) = none := by
    rw [skip, if_neg]
    intro hprefix
    exact hc (List.cons_prefix_cons.1 hprefix).1.symm
  have hspan : (c :: cs ++ s).span (fun c => decide (c ≠ '<')) = (c :: cs, s) := by
    have hchars : ∀ x ∈ c :: cs, decide (x ≠ '<') = true := fun x hx => decide_eq_true (hraw x hx)
    rcases hnext with rfl | ⟨t, rfl⟩
    · rw [List.append_nil]
      exact span_all hchars
    · exact span_append hchars (by decide)
  rw [readItems, if_neg hcut, hskip]
  dsimp only
  rw [hspan]
  dsimp only
  rw [hitems, Option.map_some]

theorem readItems_render {n : Nat} {items : List Item} (h : legalAll items = true) (hrest : Closes rest)
    (hn : (renderAll items ++ rest).length < n) :
    readItems n (renderAll items ++ rest) = some (items, rest) := by
  induction n generalizing items rest with
  | zero => simp at hn
  | succ n ih =>
    cases items with
    | nil => rcases hrest with rfl | ⟨s, rfl⟩ <;> simp [renderAll, readItems]
    | cons item items =>
      obtain ⟨hhead, hitems⟩ := Bool.and_eq_true_iff.1 h
      obtain ⟨hitem, hnext⟩ := Bool.and_eq_true_iff.1 hhead
      cases item with
      | element tag attributes children =>
        obtain ⟨⟨htag, hattributes⟩, hchildren⟩ : (tag.legal = true ∧ _) ∧ _ := by
          simpa only [Item.legal, Bool.and_eq_true_iff] using hitem
        have hcount := length_renderAttributes attributes
        simp only [renderAll, Item.render, List.length_append, List.length_cons] at hn
        have hinner : readItems n (renderAll children ++
              (('<' :: '/' :: tag.text ++ ['>']) ++ (renderAll items ++ rest))) = _ :=
          ih hchildren (.inr ⟨_, rfl⟩) (by simp only [List.length_append, List.length_cons]; omega)
        have houter := ih hitems hrest (by simp only [List.length_append]; omega)
        rw [← List.append_assoc] at hinner
        have hread := readItems_element htag hattributes (by omega) hinner houter
        rw [← hread]
        simp only [renderAll, Item.render, List.cons_append, List.append_assoc, List.nil_append]
      | text raw =>
        obtain ⟨hne, hraw⟩ := Bool.and_eq_true_iff.1 hitem
        have hne : raw ≠ [] := by simpa using hne
        simp only [renderAll, Item.render, List.length_append] at hn
        have hlength : 0 < raw.length := List.length_pos_of_ne_nil hne
        have houter := ih hitems hrest (by simp only [List.length_append]; omega)
        have hchars : ∀ c ∈ raw, c ≠ '<' := by
          intro c hc
          have hall := List.all_eq_true.1 hraw c hc
          simp only [Bool.and_eq_true_iff, decide_eq_true_eq] at hall
          exact hall.1.1
        have hread := readItems_text hne hchars (tag_of_not_text (by simpa [Item.isText] using hnext) hrest)
          houter
        rw [← hread]
        simp only [renderAll, Item.render, List.append_assoc]

/-- An element that is written as XML demands is read as what it is. -/
theorem read_render {item : Item} (h : item.legal = true) (helement : item.isText = false) :
    read item.render = some item := by
  have hall : legalAll [item] = true := by simp [legalAll, h, helement]
  have hrender : renderAll [item] ++ [] = item.render := by simp [renderAll]
  have hread : readItems _ (renderAll [item] ++ []) = _ :=
    readItems_render hall (.inl rfl) (Nat.lt_succ_self _)
  rw [hrender] at hread
  rw [read, hread]
  cases item with
  | element tag attributes children => rfl
  | text raw => simp [Item.isText] at helement

end Read

/-! ### Several items -/

section Items

variable {scope : List Ns} {as bs : List Item}

theorem renderAll_append : renderAll (as ++ bs) = renderAll as ++ renderAll bs := by
  induction as with
  | nil => rfl
  | cons a as ih => rw [List.cons_append, renderAll, renderAll, ih, List.append_assoc]

theorem resolveAll_append :
    resolveAll scope (as ++ bs) = (resolveAll scope as).bind fun xs => (resolveAll scope bs).map
    (xs ++ ·) := by
  induction as with
  | nil => simp [resolveAll]
  | cons a as ih =>
    rw [List.cons_append, resolveAll, resolveAll, ih]
    rcases a.resolve scope with _ | node <;> rcases resolveAll scope as with _ | nodes <;>
      simp [Function.comp_def]

theorem length_resolveAll {nodes : List Node} (h : resolveAll scope as = some nodes) :
    nodes.length = as.length := by
  induction as generalizing nodes with
  | nil =>
    cases h
    rfl
  | cons a as ih =>
    obtain ⟨node, -, h⟩ := Option.bind_eq_some_iff.1 h
    obtain ⟨rest, hrest, rfl⟩ := Option.map_eq_some_iff.1 h
    rw [List.length_cons, List.length_cons, ih hrest]

/-- An element may come after any item. -/
theorem legalAll_append (has : legalAll as = true) (hbs : legalAll bs = true)
    (hnext : bs.head?.any Item.isText = false) :
    legalAll (as ++ bs) = true := by
  induction as with
  | nil => exact hbs
  | cons a as ih =>
    obtain ⟨hhead, has⟩ := Bool.and_eq_true_iff.1 has
    obtain ⟨ha, hapart⟩ := Bool.and_eq_true_iff.1 hhead
    rw [List.cons_append, legalAll, ha, ih has, Bool.true_and, Bool.and_true]
    cases as with
    | nil => rw [List.nil_append, hnext, Bool.and_false]; rfl
    | cons next as => exact hapart

theorem legalAll_left (h : legalAll (as ++ bs) = true) : legalAll as = true := by
  induction as with
  | nil => rfl
  | cons a as ih =>
    obtain ⟨hhead, hrest⟩ := Bool.and_eq_true_iff.1 h
    obtain ⟨ha, hapart⟩ := Bool.and_eq_true_iff.1 hhead
    rw [legalAll, ha, ih hrest, Bool.true_and, Bool.and_true]
    cases as with
    | nil => simp
    | cons next as => exact hapart

theorem legalAll_right (h : legalAll (as ++ bs) = true) : legalAll bs = true := by
  induction as with
  | nil => exact h
  | cons a as ih => exact ih (Bool.and_eq_true_iff.1 h).2

end Items

/-! ### Well-formed trees -/

/-- The namespaces in scope of an element, where those of `outer` are in scope of its parent. -/
structure Scoped (outer scope : List Ns) : Prop where
  unique : (scope.map Ns.name).Nodup
  legal : ∀ ns ∈ scope, ns.legal = true
  grows : ∀ ns ∈ outer, ns.name ∈ scope.map Ns.name

/-- The name of an element is in the default namespace (none, where that is empty), or in that of a prefix. -/
def TagInScope (scope : List Ns) (tag : Expanded) : Prop :=
  isNCName tag.name = true ∧
    (tag.namespace_.getD [] = (lookup scope none).getD [] ∨ ∃ p uri, lookup scope (some p) = some uri ∧
      tag.namespace_ = some uri)

/-- The name of an attribute is in no namespace, in that of `xml`, or in that of a prefix. -/
def AttributeInScope (scope : List Ns) (name : Expanded) : Prop :=
  isNCName name.name = true ∧
    ((name.namespace_ = none ∧ name.name ≠ "xmlns".toList) ∨ name.namespace_ = some XML ∨
      ∃ p uri, lookup scope (some p) = some uri ∧ name.namespace_ = some uri)

/-- The attributes have names that can be written in the scope, legal values, and no name twice. -/
structure AttributesWellFormed (scope : List Ns) (attributes : List Attribute) : Prop where
  names : ∀ a ∈ attributes, AttributeInScope scope a.name
  values : ∀ a ∈ attributes, ∀ c ∈ a.value, isXmlChar c = true
  unique : (attributes.map Attribute.name).Nodup

mutual

/-- Every name of the tree is in scope where it stands. -/
def Node.WellFormed (outer : List Ns) : Node → Prop
  | .element tag scope attributes children =>
    Scoped outer scope ∧ TagInScope scope tag ∧ AttributesWellFormed scope attributes ∧
      AllWellFormed scope children
  | .text value => ∀ c ∈ value, isXmlChar c = true
  | .other => True

def AllWellFormed (outer : List Ns) : List Node → Prop
  | [] => True
  | node :: nodes => node.WellFormed outer ∧ AllWellFormed outer nodes

end

section WellFormed

variable {f : Char → Char} {raw value : Str} {scope outer own : List Ns}
  {attributes : List (QName × Str)} {name : Option Str} {uri : Str}

theorem charOfNumber_legal {n : Nat} {c : Char} (h : charOfNumber n = some c) : isXmlChar c = true := by
  unfold charOfNumber at h
  split_ifs at h with hlegal
  cases h
  exact hlegal.2

theorem reference_legal {word : Str} {c : Char} (h : reference word = some c) : isXmlChar c = true := by
  unfold reference at h
  split at h
  · cases h; decide
  · cases h; decide
  · cases h; decide
  · cases h; decide
  · cases h; decide
  · split_ifs at h
    exact charOfNumber_legal h
  · split_ifs at h
    exact charOfNumber_legal h
  · cases h

theorem decodeFrom_legal (hf : ∀ c, isXmlChar c = true → isXmlChar (f c) = true) {pending : Option Str}
    (h : decodeFrom f pending raw = some value) (hraw : ∀ c ∈ raw, isXmlChar c = true) :
    ∀ c ∈ value, isXmlChar c = true := by
  induction raw generalizing pending value with
  | nil =>
    cases pending with
    | none =>
      cases h
      simp
    | some name => cases h
  | cons a raw ih =>
    have hrest : ∀ c ∈ raw, isXmlChar c = true := fun c hc => hraw c (List.mem_cons_of_mem a hc)
    cases pending with
    | some name =>
      rw [decodeFrom] at h
      split_ifs at h with hsemi
      · obtain ⟨r, hr, h⟩ := Option.bind_eq_some_iff.1 h
        obtain ⟨v, hv, rfl⟩ := Option.map_eq_some_iff.1 h
        exact List.forall_mem_cons.2 ⟨reference_legal hr, ih hv hrest⟩
      · exact ih h hrest
    | none =>
      rw [decodeFrom] at h
      split_ifs at h with hamp hcr hlf
      · exact ih h hrest
      · exact ih h hrest
      · obtain ⟨v, hv, rfl⟩ := Option.map_eq_some_iff.1 h
        exact List.forall_mem_cons.2 ⟨hf _ (by decide), ih hv hrest⟩
      · obtain ⟨v, hv, rfl⟩ := Option.map_eq_some_iff.1 h
        exact List.forall_mem_cons.2 ⟨hf a (hraw a List.mem_cons_self), ih hv hrest⟩

theorem decodeText_legal (h : decodeText raw = some value) (hraw : ∀ c ∈ raw, isXmlChar c = true) :
    ∀ c ∈ value, isXmlChar c = true :=
  decodeFrom_legal (fun _ hc => hc) h hraw

theorem decodeValue_legal (h : decodeValue raw = some value) (hraw : ∀ c ∈ raw, isXmlChar c = true) :
    ∀ c ∈ value, isXmlChar c = true := by
  refine decodeFrom_legal (fun c hc => ?_) h hraw
  unfold spaced
  split_ifs
  · decide
  · exact hc

theorem legalAttribute_chars {a : QName × Str} (h : legalAttribute a = true) :
    ∀ c ∈ a.2, isXmlChar c = true := by
  intro c hc
  have hall := List.all_eq_true.1 (Bool.and_eq_true_iff.1 (Bool.and_eq_true_iff.1 h).1).2 c hc
  exact (Bool.and_eq_true_iff.1 hall).2

theorem declared_legal (hattributes : attributes.all legalAttribute = true)
    (h : declared attributes = some own) :
    ∀ ns ∈ own, ns.legal = true := by
  induction attributes generalizing own with
  | nil =>
    cases h
    simp
  | cons a as ih =>
    obtain ⟨ha, has⟩ := Bool.and_eq_true_iff.1 (List.all_cons ▸ hattributes)
    rw [declared] at h
    split at h
    · rename_i name hname
      obtain ⟨uri, huri, h⟩ := Option.bind_eq_some_iff.1 h
      obtain ⟨own', hown, rfl⟩ := Option.map_eq_some_iff.1 h
      have hlegal := (Bool.and_eq_true_iff.1 ha).2
      rw [hname, Option.all_some, huri, Option.all_some] at hlegal
      exact List.forall_mem_cons.2 ⟨hlegal, ih has hown⟩
    · exact ih has h

theorem inScope_scoped (hown : (own.map Ns.name).Nodup) (hownlegal : ∀ ns ∈ own, ns.legal = true)
    (houter : (outer.map Ns.name).Nodup) (houterlegal : ∀ ns ∈ outer, ns.legal = true) :
    Scoped outer (inScope own outer) where
  unique := by
    rw [inScope, List.map_append, List.nodup_append]
    refine ⟨hown, houter.sublist (List.filter_sublist.map _), fun a ha b hb heq => ?_⟩
    obtain ⟨ns, hns, rfl⟩ := List.mem_map.1 hb
    have hnot := (List.mem_filter.1 hns).2
    simp only [decide_eq_true_eq] at hnot
    exact hnot (heq ▸ ha)
  legal ns hns := by
    rcases List.mem_append.1 hns with hns | hns
    · exact hownlegal ns hns
    · exact houterlegal ns (List.mem_filter.1 hns).1
  grows ns hns := by
    rw [inScope, List.map_append, List.mem_append]
    by_cases h : ns.name ∈ own.map Ns.name
    · exact .inl h
    · exact .inr (List.mem_map_of_mem (List.mem_filter.2 ⟨hns, decide_eq_true h⟩))

theorem declares_eq_none {q : QName} (h : q.declares = none) :
    (q.pfx = none → q.name ≠ "xmlns".toList) ∧ q.pfx ≠ some "xmlns".toList := by
  unfold QName.declares at h
  split at h
  · rename_i hpfx
    rw [hpfx]
    exact ⟨fun _ heq => by simp [heq] at h, by simp⟩
  · rename_i p hpfx
    rw [hpfx]
    exact ⟨by simp, fun heq => by simp [Option.some.inj heq] at h⟩

theorem resolveAttribute_inScope {q : QName} {e : Expanded} (hq : q.legal = true)
    (hdeclares : q.declares = none)
    (h : resolveAttribute scope q = some e) : AttributeInScope scope e := by
  have hname := (Bool.and_eq_true_iff.1 hq).1
  unfold resolveAttribute at h
  split at h
  · rename_i hpfx
    cases h
    exact ⟨hname, .inl ⟨rfl, (declares_eq_none hdeclares).1 hpfx⟩⟩
  · rename_i p hpfx
    split_ifs at h
    · cases h
      exact ⟨hname, .inr (.inl rfl)⟩
    · obtain ⟨uri, huri, rfl⟩ := Option.map_eq_some_iff.1 h
      exact ⟨hname, .inr (.inr ⟨p, uri, huri, rfl⟩)⟩

theorem resolveTag_inScope {q : QName} {e : Expanded} (hq : q.legal = true)
    (h : resolveTag scope q = some e) : TagInScope scope e := by
  have hname := (Bool.and_eq_true_iff.1 hq).1
  unfold resolveTag at h
  split at h
  · cases h
    exact ⟨hname, .inl rfl⟩
  · rename_i p hpfx
    obtain ⟨uri, huri, rfl⟩ := Option.map_eq_some_iff.1 h
    exact ⟨hname, .inr ⟨p, uri, huri, rfl⟩⟩

theorem attributesOf_wellFormed {as : List Attribute} (hattributes : attributes.all legalAttribute = true)
    (h : attributesOf scope attributes = some as) :
    (∀ a ∈ as, AttributeInScope scope a.name) ∧ ∀ a ∈ as, ∀ c ∈ a.value, isXmlChar c = true := by
  induction attributes generalizing as with
  | nil =>
    cases h
    simp
  | cons a attributes ih =>
    obtain ⟨ha, has⟩ := Bool.and_eq_true_iff.1 (List.all_cons ▸ hattributes)
    rw [attributesOf] at h
    split at h
    · exact ih has h
    · rename_i hdeclares
      obtain ⟨name, hname, h⟩ := Option.bind_eq_some_iff.1 h
      obtain ⟨value, hvalue, h⟩ := Option.bind_eq_some_iff.1 h
      obtain ⟨as', has', rfl⟩ := Option.map_eq_some_iff.1 h
      have hlegal := (Bool.and_eq_true_iff.1 (Bool.and_eq_true_iff.1 ha).1).1
      exact ⟨List.forall_mem_cons.2 ⟨resolveAttribute_inScope hlegal hdeclares hname, (ih has has').1⟩,
        List.forall_mem_cons.2 ⟨decodeValue_legal hvalue (legalAttribute_chars ha), (ih has has').2⟩⟩

mutual

/-- The tree of a document is well-formed. -/
theorem resolve_wellFormed : ∀ (item : Item) (outer : List Ns) (node : Node), (outer.map Ns.name).Nodup →
    (∀ ns ∈ outer, ns.legal = true) → item.legal = true → item.resolve outer = some node →
    node.WellFormed outer
  | .element tag attributes children, outer, node, hunique, hlegal, h, hnode => by
    obtain ⟨⟨htag, hattributes⟩, hchildren⟩ : (tag.legal = true ∧ _) ∧ _ := by
      simpa only [Item.legal, Bool.and_eq_true_iff] using h
    obtain ⟨own, hown, hnode⟩ := Option.bind_eq_some_iff.1 hnode
    split_ifs at hnode with hnodup
    obtain ⟨name, hname, hnode⟩ := Option.bind_eq_some_iff.1 hnode
    obtain ⟨as, has, hnode⟩ := Option.bind_eq_some_iff.1 hnode
    split_ifs at hnode with hdistinct
    obtain ⟨nodes, hnodes, rfl⟩ := Option.map_eq_some_iff.1 hnode
    have hscoped := inScope_scoped hnodup (declared_legal hattributes hown) hunique hlegal
    obtain ⟨hnames, hvalues⟩ := attributesOf_wellFormed hattributes has
    exact ⟨hscoped, resolveTag_inScope htag hname, ⟨hnames, hvalues, hdistinct⟩,
      resolveAll_wellFormed children _ nodes hscoped.unique hscoped.legal hchildren hnodes⟩
  | .text raw, outer, node, _, _, h, hnode => by
    obtain ⟨value, hvalue, rfl⟩ := Option.map_eq_some_iff.1 hnode
    refine decodeText_legal hvalue fun c hc => ?_
    have hall := List.all_eq_true.1 (Bool.and_eq_true_iff.1 h).2 c hc
    exact (Bool.and_eq_true_iff.1 hall).2

theorem resolveAll_wellFormed : ∀ (items : List Item) (outer : List Ns) (nodes : List Node),
    (outer.map Ns.name).Nodup →
    (∀ ns ∈ outer, ns.legal = true) → legalAll items = true → resolveAll outer items = some nodes →
    AllWellFormed outer nodes
  | [], _, _, _, _, _, h => by
    cases h
    trivial
  | item :: items, outer, nodes, hunique, hlegal, h, hnodes => by
    obtain ⟨hhead, hitems⟩ := Bool.and_eq_true_iff.1 h
    obtain ⟨node, hnode, hnodes⟩ := Option.bind_eq_some_iff.1 hnodes
    obtain ⟨rest, hrest, rfl⟩ := Option.map_eq_some_iff.1 hnodes
    exact ⟨resolve_wellFormed item outer node hunique hlegal (Bool.and_eq_true_iff.1 hhead).1 hnode,
      resolveAll_wellFormed items outer rest hunique hlegal hitems hrest⟩

end

end WellFormed

end Xml
