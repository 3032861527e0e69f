import Mathlib
import BetterFrame.Lib.Xml

/-!
# Reference parameters of a subscription

`Subscription::parse` and `write_element` of `platform/linux/onvif_subscription.rs`, without the
deadlines. The XML parser is a parameter: `Documented` says what is relied on of it.
`references_survive_iff` says which reference parameters a camera gets back as it sent them.
-/

namespace OnvifReferences

open Xml

def WSA : Str := "http://www.w3.org/2005/08/addressing".toList

/-! ### Writing elements -/

/-- `str::replace` of a character -/
def replace (c : Char) (word s : Str) : Str := s.flatMap fun x => if x = c then word else [x]

/-- Text with the five special characters written as entities, in the order of the source's
replacements. -/
def escape (value : Str) : Str :=
  replace '\'' "&apos;".toList (replace '"' "&quot;".toList (replace '>' "&gt;".toList
    (replace '<' "&lt;".toList (replace '&' "&amp;".toList value))))

/-- The first prefix that is bound to the namespace. -/
def prefixOf (scope : List Ns) (namespace_ : Option Str) (isAttribute : Bool) : Option Str :=
  namespace_.bind fun uri =>
    (scope.find? fun ns => ns.uri = uri && (!isAttribute || ns.name.isSome)).bind Ns.name

/-- A name with the prefix its namespace has in scope. -/
def qualified (scope : List Ns) (namespace_ : Option Str) (name : Str) (isAttribute : Bool) : Str :=
  match prefixOf scope namespace_ isAttribute with
  | some p => p ++ ':' :: name
  | none => name

/-- The declarations of every namespace in scope but `xml`. -/
def writeNamespaces (scope : List Ns) : Str :=
  scope.flatMap fun ns =>
    if ns.name = some "xml".toList then []
    else
      let name := match ns.name with
        | some p => "xmlns:".toList ++ p
        | none => "xmlns".toList
      ' ' :: name ++ '=' :: '"' :: escape ns.uri ++ ['"']

/-- The attribute that marks a reference parameter, which the copy writes anew. -/
def isReferenceParameter (a : Attribute) : Bool := a.name = ⟨some WSA, "IsReferenceParameter".toList⟩

def attributeName (scope : List Ns) (name : Expanded) : Str :=
  if name.namespace_ = some XML then "xml:".toList ++ name.name
  else qualified scope name.namespace_ name.name true

def writeAttributes (reference : Bool) (scope : List Ns) (attributes : List Attribute) : Str :=
  attributes.flatMap fun a =>
    if reference && isReferenceParameter a then []
    else ' ' :: attributeName scope a.name ++ '=' :: '"' :: escape a.value ++ ['"']

/-- `node.lookup_namespace_uri(Some(prefix)).is_some()` -/
def bound (scope : List Ns) (p : Str) : Bool := (lookup scope (some p)).isSome

/-- The loop that makes the prefix longer, for `n` rounds. -/
def lengthen (scope : List Ns) : Nat → Str → Str
  | 0, p => p
  | n + 1, p => if bound scope p then lengthen scope n (p ++ ['_']) else p

/-- A prefix longer than all that are in scope is not in scope. -/
def freshName (scope : List Ns) : Str :=
  lengthen scope ((scope.map fun ns => (ns.name.getD []).length).sum + 1) "bfReference".toList

/-- The marker of a reference parameter, under a prefix of its own. -/
def writeReference (scope : List Ns) : Str :=
  let p := freshName scope
  ' ' :: "xmlns".toList ++ ':' :: p ++ '=' :: '"' :: WSA ++ '"' :: ' ' :: p ++ ':' ::
    "IsReferenceParameter".toList ++ '=' :: '"' :: "true".toList ++ ['"']

mutual

/-- `write_element`, and what its loop writes of a child that is no element -/
def writeNode (reference : Bool) : Node → Str
  | .element tag scope attributes children =>
    let tag := qualified scope tag.namespace_ tag.name false
    '<' :: tag ++ writeNamespaces scope ++ writeAttributes reference scope attributes ++
      (if reference then writeReference scope else []) ++ '>' :: writeChildren children ++ '<' ::
        '/' :: tag ++ ['>']
  | .text value => escape value
  | .other => []

def writeChildren : List Node → Str
  | [] => []
  | child :: children => writeNode false child ++ writeChildren children

end

/-! ### Subscription::parse -/

/-- What `roxmltree` and `url` supply: the document element of a text, and the scheme of a URL. -/
structure Platform where
  parse : Str → Except Str Node
  scheme : Str → Option Str

/-- What is relied on of the parser: it reads a document as the standards say. -/
def Platform.Documented (P : Platform) : Prop :=
  ∀ item : Item, item.legal = true → item.isText = false → (P.parse item.render).toOption = item.resolve []

def children : Node → List Node
  | .element _ _ _ children => children
  | _ => []

/-- The local name is compared only. -/
def hasTagName (name : String) : Node → Bool
  | .element tag _ _ _ => tag.name = name.toList
  | _ => false

def isElement : Node → Bool
  | .element _ _ _ _ => true
  | _ => false

/-- The text of an element is that of its first child. -/
def textOf (node : Node) : Option Str :=
  match children node with
  | .text value :: _ => some value
  | _ => none

mutual

/-- A node and what is in it, in document order -/
def descendants : Node → List Node
  | .element tag scope attributes children => .element tag scope attributes children :: descendantsOf children
  | node => [node]

def descendantsOf : List Node → List Node
  | [] => []
  | node :: nodes => descendants node ++ descendantsOf nodes

end

/-- The address of a subscription, and the headers that a request to it has. -/
structure Subscription where
  address : Str
  reference_headers : Str

/-- The elements in the containers of an endpoint reference -/
def referencesOf (reference : Node) : List Node :=
  ((children reference).filter fun n => hasTagName "ReferenceParameters" n ||
    hasTagName "ReferenceProperties" n).flatMap
    fun container => (children container).filter isElement

/-- The subscription a `CreatePullPointSubscription` response describes. -/
def Subscription.parse (P : Platform) (xml : Str) : Except Str Subscription :=
  match P.parse xml with
  | .error e => .error ("subscription XML: ".toList ++ e)
  | .ok doc =>
    match (descendants doc).find? (hasTagName "SubscriptionReference") with
    | none => .error "missing SubscriptionReference".toList
    | some reference =>
      let address := Text.trimWhitespaceChars
        ((((children reference).find? (hasTagName "Address")).bind textOf).getD [])
      match P.scheme address with
      | none => .error "invalid subscription address".toList
      | some scheme =>
        if scheme = "http".toList ∨ scheme = "https".toList then
          .ok ⟨address, (referencesOf reference).flatMap (writeNode true)⟩
        else .error "invalid subscription protocol".toList

/-! ### What a camera gets back -/

/-- The end of `l` takes the node up: comments are left out, and texts that follow one another are
one text. -/
def consNode : Node → List Node → List Node
  | .other, l => l
  | .text value, .text next :: l => .text (value ++ next) :: l
  | .text value, l => if value = [] then l else .text value :: l
  | node, l => node :: l

mutual

/-- The node without comments, and with one text where several follow one another -/
def merged : Node → Node
  | .element tag scope attributes children => .element tag scope attributes (mergedAll children)
  | node => node

def mergedAll : List Node → List Node
  | [] => []
  | node :: nodes => consNode (merged node) (mergedAll nodes)

end

/-- What a tree says: expanded names, attributes and texts. -/
inductive View where
  | element (name : Expanded) (attributes : List Attribute) (children : List View)
  | text (value : Str)

/-- A name in the namespace that is empty is in none. -/
def known (name : Expanded) : Expanded := { name with namespace_ := name.namespace_.filter (· ≠ []) }

mutual

def viewMerged : Node → View
  | .element tag _ attributes children => .element (known tag) attributes (viewsMerged children)
  | .text value => .text value
  | .other => .text []

def viewsMerged : List Node → List View
  | [] => []
  | node :: nodes => viewMerged node :: viewsMerged nodes

end

/-- What a reader sees of a node: expanded names, attributes and merged text. -/
def view (node : Node) : View := viewMerged (merged node)

def views (nodes : List Node) : List View := viewsMerged (mergedAll nodes)

mutual

/-- The same names, texts and attributes, in which order ever the attributes are -/
def Same : View → View → Prop
  | .element name attributes children, .element name' attributes' children' =>
    name = name' ∧ attributes.Perm attributes' ∧ SameAll children children'
  | .text value, .text value' => value = value'
  | _, _ => False

def SameAll : List View → List View → Prop
  | [], [] => True
  | v :: vs, w :: ws => Same v w ∧ SameAll vs ws
  | _, _ => False

end

def referenceAttribute : Attribute := ⟨⟨some WSA, "IsReferenceParameter".toList⟩, "true".toList⟩

/-- A reference parameter as it is to be in a header: marked, once. -/
def marked : View → View
  | .element name attributes children =>
    .element name (attributes.filter (fun a => !isReferenceParameter a) ++ [referenceAttribute]) children
  | v => v

/-- A message with the references in its header, whose start tags declare prefixes only. -/
structure Envelope where
  envelope : QName
  envelopeNs : List (Str × Str)
  above : List Item
  header : QName
  headerNs : List (Str × Str)
  before : List Item
  below : List Item

def declarations (prefixes : List (Str × Str)) : List (QName × Str) :=
  prefixes.map fun d => (⟨some "xmlns".toList, d.1⟩, d.2)

/-- The envelope as an element with the references in its header. -/
def Envelope.item (e : Envelope) (references : List Item) : Item :=
  .element e.envelope (declarations e.envelopeNs)
    (e.above ++ .element e.header (declarations e.headerNs) (e.before ++ references) :: e.below)

def startTag (tag : QName) (prefixes : List (Str × Str)) : Str :=
  '<' :: tag.text ++ renderAttributes (declarations prefixes) ++ ['>']

def endTag (tag : QName) : Str := '<' :: '/' :: tag.text ++ ['>']

/-- The envelope as the source formats it around the references. -/
def Envelope.text (e : Envelope) (references : Str) : Str :=
  startTag e.envelope e.envelopeNs ++ renderAll e.above ++
    (startTag e.header e.headerNs ++ renderAll e.before ++ references ++ endTag e.header) ++
      renderAll e.below ++ endTag e.envelope

/-- The message is a document, without references. -/
structure Envelope.WellFormed (e : Envelope) : Prop where
  legal : (e.item []).legal = true
  resolves : (e.item []).resolve [] ≠ none

/-- What a document has in the place of the references -/
def Envelope.received (e : Envelope) (doc : Node) : List Node :=
  (((children doc)[e.above.length]?).map children).getD [] |>.drop e.before.length

/-- The endpoint reference of a response -/
def referenceOf (doc : Node) : List Node :=
  (((descendants doc).find? (hasTagName "SubscriptionReference")).map referencesOf).getD []

/-- The message is a document, and in its header the camera finds its references. -/
def Survives (P : Platform) (e : Envelope) (doc : Node) (sub : Subscription) : Prop :=
  ∃ message, P.parse (e.text sub.reference_headers) = .ok message ∧
    SameAll ((referenceOf doc).map fun n => marked (view n)) (views (e.received message))

/-- No character of the namespace is one that attribute normalisation turns into a space. -/
def PlainName (name : Expanded) : Prop := ∀ uri, name.namespace_ = some uri → ∀ c ∈ uri, spaced c = c

def PlainAttribute (a : Attribute) : Prop := PlainName a.name ∧ ∀ c ∈ a.value, spaced c = c

mutual

/-- No tab and no line end is in an attribute value or in the URI of a name, and no carriage return
in a text. -/
def Plain : View → Prop
  | .element name attributes children =>
    PlainName name ∧ (∀ a ∈ attributes, PlainAttribute a) ∧ AllPlain children
  | .text value => '\r' ∉ value

def AllPlain : List View → Prop
  | [] => True
  | v :: vs => Plain v ∧ AllPlain vs

end

/-! ### The syntax of what is written -/

section Escape

variable {c : Char} {word s t : Str}

theorem replace_append : replace c word (s ++ t) = replace c word s ++ replace c word t := List.flatMap_append

theorem escape_append : escape (s ++ t) = escape s ++ escape t := by simp only [escape, replace_append]

theorem replace_of_ne {x : Char} (h : x ≠ c) : replace c word [x] = [x] := by
  rw [replace, List.flatMap_singleton, if_neg h]

theorem escape_singleton (c : Char) : escape [c] = escapeChar c := by
  unfold escapeChar
  split_ifs with h1 h2 h3 h4 h5
  · subst h1
    decide
  · subst h2
    decide
  · subst h3
    decide
  · subst h4
    decide
  · subst h5
    decide
  · rw [escape, replace_of_ne h1, replace_of_ne h2, replace_of_ne h3, replace_of_ne h4, replace_of_ne h5]

/-- One after the other the replacements do what one pass does: no replacement is replaced again. -/
theorem escape_eq (s : Str) : escape s = Xml.escape s := by
  induction s with
  | nil => rfl
  | cons c s ih =>
    rw [← List.singleton_append, escape_append, escape_singleton, ih, Xml.escape_append,
      Xml.escape_cons, escape_nil, List.append_nil]

end Escape

section Fresh

variable {scope : List Ns} {p : Str}

theorem mem_of_bound (h : bound scope p = true) : ∃ ns ∈ scope, ns.name = some p := by
  obtain ⟨uri, huri⟩ := Option.isSome_iff_exists.1 h
  obtain ⟨ns, hns, -⟩ := Option.map_eq_some_iff.1 huri
  exact ⟨ns, List.mem_of_find?_eq_some hns, by simpa using List.find?_some hns⟩

theorem lengthen_eq (scope : List Ns) (n : Nat) (p : Str) :
    ∃ k, lengthen scope n p = p ++ List.replicate k '_' := by
  induction n generalizing p with
  | zero => exact ⟨0, by simp [lengthen]⟩
  | succ n ih =>
    rw [lengthen]
    split
    · obtain ⟨k, hk⟩ := ih (p ++ ['_'])
      exact ⟨k + 1, by rw [hk, List.append_assoc, List.replicate_succ, List.singleton_append]⟩
    · exact ⟨0, by simp⟩

theorem length_lengthen {n : Nat} (h : bound scope (lengthen scope n p) = true) :
    (lengthen scope n p).length = p.length + n := by
  induction n generalizing p with
  | zero => rfl
  | succ n ih =>
    rw [lengthen] at h ⊢
    by_cases hbound : bound scope p = true
    · rw [if_pos hbound] at h ⊢
      rw [ih h]
      simp only [List.length_append, List.length_singleton]
      omega
    · rw [if_neg hbound] at h
      exact absurd h hbound

theorem freshName_unbound (scope : List Ns) : bound scope (freshName scope) = false := by
  by_contra hne
  have hbound : bound scope (freshName scope) = true := by simpa using hne
  obtain ⟨ns, hns, hname⟩ := mem_of_bound hbound
  have hlength := length_lengthen hbound
  have hle : (ns.name.getD []).length ≤ (scope.map fun ns => (ns.name.getD []).length).sum :=
    List.le_sum_of_mem (List.mem_map_of_mem hns)
  rw [hname, Option.getD_some, freshName, hlength] at hle
  omega

theorem freshName_legal (scope : List Ns) : isNCName (freshName scope) = true ∧
    freshName scope ≠ "xml".toList ∧ freshName scope ≠ "xmlns".toList := by
  obtain ⟨k, hk⟩ := lengthen_eq scope ((scope.map fun ns => (ns.name.getD []).length).sum + 1)
    "bfReference".toList
  rw [freshName, hk]
  refine ⟨?_, ?_, ?_⟩
  · have hall : ("bfReference".toList ++ List.replicate k '_').all isNameChar = true := by
      rw [List.all_append, Bool.and_eq_true_iff]
      refine ⟨by decide, List.all_eq_true.2 fun c hc => ?_⟩
      rw [(List.mem_replicate.1 hc).2]
      decide
    rw [isNCName, hall]
    rfl
  · intro h
    have hhead := congrArg List.head? h
    simp at hhead
  · intro h
    have hhead := congrArg List.head? h
    simp at hhead

end Fresh

/-- A name under the prefix its namespace has in scope. -/
def qname (scope : List Ns) (namespace_ : Option Str) (name : Str) (isAttribute : Bool) : QName :=
  ⟨prefixOf scope namespace_ isAttribute, name⟩

def attributeQName (scope : List Ns) (name : Expanded) : QName :=
  if name.namespace_ = some XML then ⟨some "xml".toList, name.name⟩
  else qname scope name.namespace_ name.name true

/-- The attribute that declares a namespace. -/
def namespaceItem (ns : Ns) : QName × Str :=
  (match ns.name with
    | some p => ⟨some "xmlns".toList, p⟩
    | none => ⟨none, "xmlns".toList⟩, Xml.escape ns.uri)

def namespaceItems (scope : List Ns) : List (QName × Str) :=
  (scope.filter fun ns => ns.name ≠ some "xml".toList).map namespaceItem

def attributeItem (scope : List Ns) (a : Attribute) : QName × Str :=
  (attributeQName scope a.name, Xml.escape a.value)

/-- The attributes that are written. -/
def kept (reference : Bool) (attributes : List Attribute) : List Attribute :=
  attributes.filter fun a => !(reference && isReferenceParameter a)

def referenceItems (reference : Bool) (scope : List Ns) : List (QName × Str) :=
  if reference then
    [(⟨some "xmlns".toList, freshName scope⟩, WSA),
      (⟨some (freshName scope), "IsReferenceParameter".toList⟩, "true".toList)]
  else []

mutual

/-- What is written of a node -/
def item (reference : Bool) : Node → Item
  | .element tag scope attributes children =>
    .element (qname scope tag.namespace_ tag.name false)
      (namespaceItems scope ++ (kept reference attributes).map (attributeItem scope) ++
        referenceItems reference scope) (itemsOf children)
  | .text value => .text (Xml.escape value)
  | .other => .text []

def itemsOf : List Node → List Item
  | [] => []
  | node :: nodes => item false node :: itemsOf nodes

end

section Render

variable {scope : List Ns} {attributes : List Attribute} {reference isAttribute : Bool}
  {namespace_ : Option Str} {name : Str}

theorem text_qname : (qname scope namespace_ name isAttribute).text = qualified scope namespace_
    name isAttribute := by
  unfold QName.text qualified qname
  rcases prefixOf scope namespace_ isAttribute with _ | p <;> rfl

theorem text_attributeQName (e : Expanded) : (attributeQName scope e).text = attributeName scope e := by
  unfold attributeQName attributeName
  split_ifs
  · rfl
  · exact text_qname

theorem renderAttributes_append {as bs : List (QName × Str)} :
    renderAttributes (as ++ bs) = renderAttributes as ++ renderAttributes bs :=
  List.flatMap_append

theorem renderAttributes_cons {a : QName × Str} {as : List (QName × Str)} :
    renderAttributes (a :: as) = ' ' :: a.1.text ++ '=' :: '"' :: a.2 ++ ['"'] ++ renderAttributes as := rfl

theorem render_namespaceItems (scope : List Ns) :
    renderAttributes (namespaceItems scope) = writeNamespaces scope := by
  induction scope with
  | nil => rfl
  | cons ns scope ih =>
    by_cases hxml : ns.name = some "xml".toList
    · have hskip : namespaceItems (ns :: scope) = namespaceItems scope := by
        rw [namespaceItems, List.filter_cons_of_neg (by simpa using hxml)]
        rfl
      rw [hskip, ih, writeNamespaces, writeNamespaces, List.flatMap_cons, if_pos hxml, List.nil_append]
    · have hcons : namespaceItems (ns :: scope) = namespaceItem ns :: namespaceItems scope := by
        rw [namespaceItems, List.filter_cons_of_pos (by simpa using hxml)]
        rfl
      rw [hcons, renderAttributes_cons, ih, writeNamespaces, writeNamespaces, List.flatMap_cons, if_neg hxml]
      rcases hname : ns.name with _ | p
      · simp [namespaceItem, QName.text, hname, escape_eq]
      · simp [namespaceItem, QName.text, hname, escape_eq]

theorem render_attributeItems (attributes : List Attribute) :
    renderAttributes ((kept reference attributes).map (attributeItem scope)) = writeAttributes
    reference scope attributes := by
  induction attributes with
  | nil => rfl
  | cons a attributes ih =>
    rcases hskip : (reference && isReferenceParameter a) with _ | _
    · rw [kept, List.filter_cons_of_pos (by simp [hskip]), List.map_cons, renderAttributes_cons,
        ← kept, ih, writeAttributes, writeAttributes, List.flatMap_cons, hskip]
      simp [attributeItem, text_attributeQName, escape_eq]
    · rw [kept, List.filter_cons_of_neg (by simp [hskip]), ← kept, ih, writeAttributes,
        writeAttributes, List.flatMap_cons, hskip]
      rfl

theorem render_referenceItems (scope : List Ns) :
    renderAttributes (referenceItems reference scope) = if reference then writeReference scope else [] := by
  unfold referenceItems
  split_ifs
  · rw [renderAttributes_cons, renderAttributes_cons]
    simp only [QName.text, writeReference, List.cons_append, List.append_assoc, List.nil_append]
    rfl
  · rfl

mutual

theorem render_item : ∀ (node : Node) (reference : Bool),
    (item reference node).render = writeNode reference node
  | .element tag scope attributes children, reference => by
    rw [item, Item.render, writeNode, renderAttributes_append, renderAttributes_append,
      render_namespaceItems, render_attributeItems,
      render_referenceItems, text_qname, render_itemsOf children]
    simp only [List.append_assoc, List.cons_append]
  | .text value, reference => by rw [item, Item.render, writeNode, escape_eq]
  | .other, reference => by rw [item, Item.render, writeNode]

theorem render_itemsOf : ∀ nodes : List Node, renderAll (itemsOf nodes) = writeChildren nodes
  | [] => rfl
  | node :: nodes => by rw [itemsOf, renderAll, writeChildren, render_item node false, render_itemsOf nodes]

end

/-- Comments and the ends of texts leave no trace in what is written. -/
theorem writeChildren_consNode (node : Node) (l : List Node) :
    writeChildren (consNode node l) = writeNode false node ++ writeChildren l := by
  unfold consNode
  split
  · rfl
  · simp only [writeChildren, writeNode, escape_append, List.append_assoc]
  · split_ifs with h
    · subst h
      rfl
    · rfl
  · rfl

mutual

theorem writeNode_merged : ∀ (node : Node) (reference : Bool), writeNode reference
    (merged node) = writeNode reference node
  | .element tag scope attributes children, reference => by
    rw [merged, writeNode, writeNode, writeChildren_mergedAll children]
  | .text value, reference => rfl
  | .other, reference => rfl

theorem writeChildren_mergedAll : ∀ nodes : List Node, writeChildren (mergedAll nodes) = writeChildren nodes
  | [] => rfl
  | node :: nodes => by
    rw [mergedAll, writeChildren_consNode, writeNode_merged node false, writeChildren_mergedAll nodes,
      writeChildren]

end

end Render

/-! ### Nodes without comments and ends of texts -/

def isText : Node → Bool
  | .text _ => true
  | _ => false

mutual

/-- There is no comment, no empty text, and no text follows on another one. -/
def Merged : Node → Prop
  | .element _ _ _ children => AllMerged children
  | .text value => value ≠ []
  | .other => False

def AllMerged : List Node → Prop
  | [] => True
  | node :: nodes => Merged node ∧ ¬ (isText node = true ∧ nodes.head?.any isText = true) ∧ AllMerged nodes

end

section Merge

variable {outer : List Ns} {node : Node} {l : List Node}

theorem allMerged_consNode (hnode : isElement node = true → Merged node) (hl : AllMerged l) :
    AllMerged (consNode node l) := by
  cases node with
  | element tag scope attributes children => exact ⟨hnode rfl, fun h => by simp [isText] at h, hl⟩
  | other => exact hl
  | text value =>
    rcases l with _ | ⟨next, rest⟩
    · simp only [consNode]
      split_ifs with hempty
      · trivial
      · exact ⟨hempty, by simp, trivial⟩
    · cases next with
      | text next =>
        obtain ⟨hnext, hapart, hrest⟩ := hl
        exact ⟨fun h => hnext (List.append_eq_nil_iff.1 h).2, hapart, hrest⟩
      | _ =>
        simp only [consNode]
        split_ifs with hempty
        · exact hl
        · exact ⟨hempty, by simp [isText], hl⟩

mutual

theorem merged_merged : ∀ node : Node, isElement node = true → Merged (merged node)
  | .element _ _ _ children, _ => mergedAll_merged children
  | .text _, h => by simp [isElement] at h
  | .other, h => by simp [isElement] at h

theorem mergedAll_merged : ∀ nodes : List Node, AllMerged (mergedAll nodes)
  | [] => trivial
  | node :: nodes => by
    refine allMerged_consNode (fun h => ?_) (mergedAll_merged nodes)
    cases node with
    | element tag scope attributes children =>
      exact merged_merged (.element tag scope attributes children) rfl
    | text value => simp [merged, isElement] at h
    | other => simp [merged, isElement] at h

end

theorem consNode_of_merged (h : AllMerged (node :: l)) : consNode node l = node :: l := by
  obtain ⟨hnode, hapart, -⟩ := h
  cases node with
  | element tag scope attributes children => rfl
  | text value =>
    rcases l with _ | ⟨next, rest⟩
    · exact if_neg hnode
    · cases next with
      | text next => exact absurd ⟨rfl, rfl⟩ hapart
      | _ => exact if_neg hnode
  | other => exact absurd hnode id

mutual

theorem merged_of_merged : ∀ node : Node, Merged node → merged node = node
  | .element tag scope attributes children, h => by rw [merged, mergedAll_of_merged children h]
  | .text _, _ => rfl
  | .other, _ => rfl

theorem mergedAll_of_merged : ∀ nodes : List Node, AllMerged nodes → mergedAll nodes = nodes
  | [], _ => rfl
  | node :: nodes, h => by
    rw [mergedAll, merged_of_merged node h.1, mergedAll_of_merged nodes h.2.2, consNode_of_merged h]

end

theorem wellFormed_consNode (hnode : node.WellFormed outer) (hl : AllWellFormed outer l) :
    AllWellFormed outer (consNode node l) := by
  unfold consNode
  split
  · exact hl
  · exact ⟨List.forall_mem_append.2 ⟨hnode, hl.1⟩, hl.2⟩
  · split_ifs
    · exact hl
    · exact ⟨hnode, hl⟩
  · exact ⟨hnode, hl⟩

mutual

theorem merged_wellFormed : ∀ (node : Node) (outer : List Ns), node.WellFormed outer →
    (merged node).WellFormed outer
  | .element _ scope _ children, _, h => ⟨h.1, h.2.1, h.2.2.1, mergedAll_wellFormed children scope h.2.2.2⟩
  | .text _, _, h => h
  | .other, _, h => h

theorem mergedAll_wellFormed : ∀ (nodes : List Node) (outer : List Ns), AllWellFormed outer nodes →
    AllWellFormed outer (mergedAll nodes)
  | [], _, h => h
  | node :: nodes, outer, h =>
    wellFormed_consNode (merged_wellFormed node outer h.1) (mergedAll_wellFormed nodes outer h.2)

end

end Merge

/-! ### Reading what is written -/

/-- A namespace after attribute normalisation. -/
def spacedNs (ns : Ns) : Ns := { ns with uri := normalise spaced ns.uri }

def spacedName (name : Expanded) : Expanded :=
  { name with namespace_ := name.namespace_.map (normalise spaced) }

def spacedAttribute (a : Attribute) : Attribute := ⟨spacedName a.name, normalise spaced a.value⟩

/-- The mark of a reference parameter -/
def marks (reference : Bool) : List Attribute := if reference then [referenceAttribute] else []

/-- The namespaces that a written element declares -/
def written (reference : Bool) (scope : List Ns) : List Ns :=
  scope.map spacedNs ++ if reference then [⟨some (freshName scope), WSA⟩] else []

/-- The namespaces in scope of a written element -/
def rescoped (reference : Bool) (scope outer : List Ns) : List Ns := inScope (written reference scope) outer

section Lookup

variable {scope outer : List Ns} {reference : Bool} {p : Option Str} {uri : Str} {ns : Ns}

theorem lookup_append {as bs : List Ns} : lookup (as ++ bs) p = (lookup as p).or (lookup bs p) := by
  rw [lookup, List.find?_append, lookup, lookup, Option.map_or]

theorem lookup_spaced : lookup (scope.map spacedNs) p = (lookup scope p).map (normalise spaced) := by
  rw [lookup, List.find?_map, lookup, Option.map_map, Option.map_map]
  rfl

theorem lookup_eq_none : lookup scope p = none ↔ p ∉ scope.map Ns.name := by
  simp only [lookup, Option.map_eq_none_iff, List.find?_eq_none, decide_eq_true_eq, List.mem_map,
    not_exists, not_and]

theorem lookup_of_mem (hunique : (scope.map Ns.name).Nodup) (h : ns ∈ scope) :
    lookup scope ns.name = some ns.uri := by
  induction scope with
  | nil => cases h
  | cons a scope ih =>
    obtain ⟨hnot, hunique⟩ := List.nodup_cons.1 hunique
    rcases List.mem_cons.1 h with rfl | h
    · simp [lookup]
    · have hne : a.name ≠ ns.name := fun heq => hnot (heq ▸ List.mem_map_of_mem h)
      rw [← ih hunique h, lookup, List.find?_cons_of_neg (by simpa using hne), lookup]

theorem mem_of_lookup (h : lookup scope p = some uri) : ⟨p, uri⟩ ∈ scope := by
  obtain ⟨ns, hns, rfl⟩ := Option.map_eq_some_iff.1 h
  have hname : ns.name = p := by simpa using List.find?_some hns
  exact hname ▸ List.mem_of_find?_eq_some hns

theorem lookup_rescoped (h : lookup scope p = some uri) :
    lookup (rescoped reference scope outer) p = some (normalise spaced uri) := by
  rw [rescoped, inScope, lookup_append, written, lookup_append, lookup_spaced, h]
  rfl

theorem lookup_freshName (scope outer : List Ns) :
    lookup (rescoped true scope outer) (some (freshName scope)) = some WSA := by
  have hunbound : lookup scope (some (freshName scope)) = none := by
    have h := freshName_unbound scope
    rwa [bound, Option.isSome_eq_false_iff, Option.isNone_iff_eq_none] at h
  rw [rescoped, inScope, lookup_append, written, lookup_append, lookup_spaced, hunbound]
  simp [lookup]

theorem names_written : (written reference scope).map Ns.name =
    scope.map Ns.name ++ if reference then [some (freshName scope)] else [] := by
  rw [written, List.map_append, List.map_map]
  split_ifs <;> rfl

theorem written_unique (h : (scope.map Ns.name).Nodup) : ((written reference scope).map Ns.name).Nodup := by
  rw [names_written]
  split_ifs
  · rw [List.nodup_append]
    refine ⟨h, List.nodup_singleton _, fun a ha b hb heq => ?_⟩
    rw [List.mem_singleton.1 hb] at heq
    have hunbound := freshName_unbound scope
    rw [bound, Option.isSome_eq_false_iff, Option.isNone_iff_eq_none, lookup_eq_none] at hunbound
    exact hunbound (heq ▸ ha)
  · rwa [List.append_nil]

/-- The default namespace is not declared for a written element unless it was for the element. -/
theorem default_rescoped (houter : none ∈ outer.map Ns.name → none ∈ scope.map Ns.name)
    (h : none ∈ (rescoped reference scope outer).map Ns.name) : none ∈ scope.map Ns.name := by
  rw [rescoped, inScope, List.map_append, List.mem_append, names_written, List.mem_append] at h
  rcases h with (h | h) | h
  · exact h
  · split_ifs at h <;> simp at h
  · obtain ⟨ns, hns, hname⟩ := List.mem_map.1 h
    exact houter (hname ▸ List.mem_map_of_mem (List.mem_filter.1 hns).1)

theorem legal_name (h : ns.legal = true) {q : Str} (hq : ns.name = some q) :
    isNCName q = true ∧ q ≠ "xml".toList ∧ q ≠ "xmlns".toList ∧ ns.uri ≠ [] :=
  (Ns.legal_iff.1 h).2.2.2 q hq

end Lookup

section Names

variable {scope outer : List Ns} {reference : Bool} {tag name : Expanded}

theorem normalise_nil_iff {f : Char → Char} {s : Str} : normalise f s = [] ↔ s = [] :=
  ⟨fun h => by by_contra hne; exact normalise_ne_nil hne h, by rintro rfl; rfl⟩

theorem known_spacedName (name : Expanded) : known (spacedName name) = spacedName (known name) := by
  obtain ⟨namespace_, name⟩ := name
  cases namespace_ with
  | none => rfl
  | some uri =>
    by_cases h : uri = []
    · subst h
      rfl
    · simp [known, spacedName, Option.filter_some, h, normalise_nil_iff]

/-- A prefix that is bound to a namespace is found for it. -/
theorem prefixOf_some {isAttribute : Bool} {ns : Ns} {uri : Str} (hmem : ns ∈ scope) (huri : ns.uri = uri)
    (hnamed : isAttribute = true → ns.name.isSome = true) :
    ∃ found ∈ scope, found.uri = uri ∧ prefixOf scope (some uri) isAttribute = found.name ∧
    (isAttribute = true → found.name.isSome = true) := by
  rcases hfound : scope.find? fun ns => decide (ns.uri = uri) &&
    (!isAttribute || ns.name.isSome) with _ | found
  · have hnot := List.find?_eq_none.1 hfound ns hmem
    cases isAttribute <;> simp_all
  · have hpred := List.find?_some hfound
    simp only [Bool.and_eq_true_iff, decide_eq_true_eq, Bool.or_eq_true, Bool.not_eq_true'] at hpred
    refine ⟨found, List.mem_of_find?_eq_some hfound, hpred.1, ?_, fun h => by simpa [h] using hpred.2⟩
    rw [prefixOf, Option.bind_some, hfound, Option.bind_some]

theorem prefixOf_none_of_empty {isAttribute : Bool} (hlegal : ∀ ns ∈ scope, ns.legal = true) :
    prefixOf scope (some []) isAttribute = none := by
  rw [prefixOf, Option.bind_some]
  rcases hfound : scope.find? fun ns => decide (ns.uri = []) &&
    (!isAttribute || ns.name.isSome) with _ | found
  · rw [hfound, Option.bind_none]
  · have hpred := List.find?_some hfound
    have hempty : found.uri = [] := by simpa using (Bool.and_eq_true_iff.1 hpred).1
    rcases hname : found.name with _ | q
    · rw [hfound, Option.bind_some, hname]
    · exact absurd hempty (legal_name (hlegal found (List.mem_of_find?_eq_some hfound)) hname).2.2.2

theorem resolveTag_default {uri : Option Str} (huri : lookup scope none = uri) (hempty : uri.getD [] = [])
    (houter : none ∈ outer.map Ns.name → none ∈ scope.map Ns.name) (name : Str) :
    ∃ e, resolveTag (rescoped reference scope outer) ⟨none, name⟩ = some e ∧ known e = ⟨none, name⟩ := by
  refine ⟨_, rfl, ?_⟩
  cases uri with
  | none =>
    have hnone : lookup (rescoped reference scope outer) none = none := by
      rw [lookup_eq_none] at huri ⊢
      exact fun h => huri (default_rescoped houter h)
    rw [hnone]
    rfl
  | some uri =>
    obtain rfl : uri = [] := hempty
    rw [lookup_rescoped huri]
    rfl

theorem resolveTag_qname {parent : List Ns} (hscope : Scoped parent scope) (htag : TagInScope scope tag)
    (houter : none ∈ outer.map Ns.name → none ∈ scope.map Ns.name) :
    ∃ e, resolveTag (rescoped reference scope outer) (qname scope tag.namespace_ tag.name false) = some e ∧
      known e = spacedName (known tag) := by
  obtain ⟨namespace_, name⟩ := tag
  obtain ⟨-, hscoped⟩ := htag
  cases namespace_ with
  | none =>
    rcases hscoped with hdefault | ⟨p, uri, -, habsurd⟩
    · exact resolveTag_default rfl hdefault.symm houter name
    · cases habsurd
  | some uri =>
    by_cases hempty : uri = []
    · -- an element in no namespace, where the default namespace is empty or absent
      subst hempty
      rcases hscoped with hdefault | ⟨p, uri, hp, heq⟩
      · rw [qname, prefixOf_none_of_empty hscope.legal]
        exact resolveTag_default rfl hdefault.symm houter name
      · cases heq
        exact absurd rfl (legal_name (hscope.legal _ (mem_of_lookup hp)) rfl).2.2.2
    · have hmem : ∃ ns ∈ scope, ns.uri = uri := by
        rcases hscoped with hdefault | ⟨p, uri', hp, heq⟩
        · rcases hlookup : lookup scope none with _ | found
          · rw [hlookup] at hdefault
            exact absurd hdefault hempty
          · rw [hlookup] at hdefault
            exact ⟨_, mem_of_lookup hlookup, hdefault.symm⟩
        · cases heq
          exact ⟨_, mem_of_lookup hp, rfl⟩
      obtain ⟨ns, hns, huri⟩ := hmem
      obtain ⟨found, hfound, rfl, hprefix, -⟩ := prefixOf_some hns huri (by simp : false = true → _)
      have hlookup : lookup (rescoped reference scope outer) found.name = some (normalise spaced found.uri) :=
        lookup_rescoped (lookup_of_mem hscope.unique hfound)
      rw [qname, hprefix, ← known_spacedName]
      refine ⟨⟨some (normalise spaced found.uri), name⟩, ?_, rfl⟩
      rcases hname : found.name with _ | q
      · rw [hname] at hlookup
        rw [resolveTag, hlookup]
      · rw [hname] at hlookup
        simp only [resolveTag, hlookup]
        rfl

theorem normalise_XML : normalise spaced XML = XML := by
  refine normalise_of_forall fun c hc => ?_
  have hall : XML.all (fun c => decide (c ≠ '\r') && decide (spaced c = c)) = true := by decide
  simpa using List.all_eq_true.1 hall c hc

/-- The prefix of an attribute, where it has one, is that of a namespace in scope. -/
theorem attributeQName_cases (hlegal : ∀ ns ∈ scope, ns.legal = true) (hname : AttributeInScope scope name) :
    (name.namespace_ = some XML ∧ attributeQName scope name = ⟨some "xml".toList, name.name⟩) ∨
    (name.namespace_ = none ∧ name.name ≠ "xmlns".toList ∧ attributeQName scope name = ⟨none, name.name⟩) ∨
    ∃ ns ∈ scope, ∃ q, ns.name = some q ∧ name.namespace_ = some ns.uri ∧ q ≠ "xml".toList ∧
    q ≠ "xmlns".toList ∧ attributeQName scope name = ⟨some q, name.name⟩ := by
  unfold attributeQName
  split_ifs with hxml
  · exact .inl ⟨hxml, rfl⟩
  · rcases hname.2 with ⟨hnone, hxmlns⟩ | hxml' | ⟨p, uri, hp, heq⟩
    · exact .inr (.inl ⟨hnone, hxmlns, by rw [hnone]; rfl⟩)
    · exact absurd hxml' hxml
    · obtain ⟨found, hfound, rfl, hprefix, hnamed⟩ :=
        prefixOf_some (mem_of_lookup hp) rfl (fun _ => rfl : true = true → _)
      obtain ⟨q, hq⟩ := Option.isSome_iff_exists.1 (hnamed rfl)
      obtain ⟨-, hnotxml, hnotxmlns, -⟩ := legal_name (hlegal found hfound) hq
      exact .inr (.inr ⟨found, hfound, q, hq, heq, hnotxml, hnotxmlns, by rw [heq, qname, hprefix, hq]⟩)

theorem declares_attributeQName (hlegal : ∀ ns ∈ scope, ns.legal = true)
    (hname : AttributeInScope scope name) :
    (attributeQName scope name).declares = none := by
  rcases attributeQName_cases hlegal hname with ⟨-, h⟩ | ⟨-, hxmlns, h⟩ | ⟨ns, -, q, -, -, -, hxmlns, h⟩
  · rw [h]
    rfl
  · rw [h]
    exact if_neg hxmlns
  · rw [h]
    exact if_neg hxmlns

theorem resolve_attributeQName {parent : List Ns} (hscope : Scoped parent scope)
    (hname : AttributeInScope scope name) :
    resolveAttribute (rescoped reference scope outer)
    (attributeQName scope name) = some (spacedName name) := by
  obtain ⟨namespace_, name⟩ := name
  rcases attributeQName_cases hscope.legal hname with ⟨hns, h⟩ | ⟨hns, -, h⟩ | ⟨ns, hmem, q, hq,
    hns, hxml, -, h⟩
  · obtain rfl : namespace_ = some XML := hns
    rw [h, resolveAttribute, spacedName, Option.map_some, normalise_XML]
    rfl
  · obtain rfl : namespace_ = none := hns
    rw [h]
    rfl
  · obtain rfl : namespace_ = some ns.uri := hns
    have hlookup : lookup (rescoped reference scope outer) (some q) = some (normalise spaced ns.uri) :=
      lookup_rescoped (hq ▸ lookup_of_mem hscope.unique hmem)
    rw [h]
    simp only [resolveAttribute, if_neg hxml, hlookup]
    rfl

end Names

section Attributes

variable {scope outer parent : List Ns} {reference : Bool} {attributes : List Attribute}
  {as bs : List (QName × Str)} {S : List Ns}

theorem declared_append : declared (as ++ bs) = (declared as).bind fun own => (declared bs).map
    (own ++ ·) := by
  induction as with
  | nil => simp [declared]
  | cons a as ih =>
    rw [List.cons_append, declared, declared]
    split
    · rw [ih]
      rcases decodeValue a.2 with _ | uri <;> rcases declared as with _ | own <;> simp [Function.comp_def]
    · exact ih

theorem declared_none (h : ∀ a ∈ as, a.1.declares = none) : declared as = some [] := by
  induction as with
  | nil => rfl
  | cons a as ih =>
    obtain ⟨ha, has⟩ := List.forall_mem_cons.1 h
    rw [declared, ha]
    exact ih has

theorem declares_namespaceItem (ns : Ns) : (namespaceItem ns).1.declares = some ns.name := by
  rcases hname : ns.name with _ | q <;> simp [namespaceItem, hname, QName.declares]

theorem declared_namespaces (scope : List Ns) :
    declared (scope.map namespaceItem) = some (scope.map spacedNs) := by
  induction scope with
  | nil => rfl
  | cons ns scope ih =>
    rw [List.map_cons, declared, declares_namespaceItem]
    simp only [namespaceItem, decodeValue_escape, Option.bind_some, ih, Option.map_some]
    rfl

theorem namespaceItems_eq (h : ∀ ns ∈ scope, ns.legal = true) :
    namespaceItems scope = scope.map namespaceItem := by
  rw [namespaceItems, List.filter_eq_self.2]
  intro ns hns
  rw [decide_eq_true_eq]
  exact fun hxml => (legal_name (h ns hns) hxml).2.1 rfl

theorem WSA_plain : ∀ c ∈ WSA, c ≠ '\r' ∧ spaced c = c := by
  intro c hc
  have hall : WSA.all (fun c => decide (c ≠ '\r') && decide (spaced c = c)) = true := by decide
  simpa using List.all_eq_true.1 hall c hc

theorem decodeValue_WSA : decodeValue WSA = some WSA := by
  have hescape : Xml.escape WSA = WSA := by decide
  have hdecode := decodeValue_escape WSA
  rwa [hescape, normalise_of_forall WSA_plain] at hdecode

theorem declares_freshName (scope : List Ns) (name : Str) :
    QName.declares ⟨some (freshName scope), name⟩ = none :=
  if_neg (freshName_legal scope).2.2

theorem declared_referenceItems (scope : List Ns) :
    declared (referenceItems reference scope) = some (if reference then [⟨some (freshName scope), WSA⟩]
      else []) := by
  unfold referenceItems
  split_ifs
  · have hmark : declared [(⟨some (freshName scope), "IsReferenceParameter".toList⟩, "true".toList)] =
        some [] :=
      declared_none (by simp [declares_freshName])
    rw [declared]
    simp only [QName.declares, if_true, decodeValue_WSA, Option.bind_some, hmark, Option.map_some]
  · rfl

theorem attributesOf_append : attributesOf S (as ++ bs) = (attributesOf S as).bind fun xs =>
    (attributesOf S bs).map (xs ++ ·) := by
  induction as with
  | nil => simp [attributesOf]
  | cons a as ih =>
    rw [List.cons_append, attributesOf, attributesOf]
    split
    · exact ih
    · rw [ih]
      rcases resolveAttribute S a.1 with _ | name <;> rcases decodeValue a.2 with _ | value <;>
        rcases attributesOf S as with _ | xs <;> simp [Function.comp_def]

theorem attributesOf_namespaces (scope : List Ns) : attributesOf S (scope.map namespaceItem) = some [] := by
  induction scope with
  | nil => rfl
  | cons ns scope ih =>
    rw [List.map_cons, attributesOf, declares_namespaceItem]
    exact ih

theorem attributesOf_attributes (hscope : Scoped parent scope)
    (hnames : ∀ a ∈ attributes, AttributeInScope scope a.name) :
    attributesOf (rescoped reference scope outer)
    (attributes.map (attributeItem scope)) = some (attributes.map spacedAttribute) := by
  induction attributes with
  | nil => rfl
  | cons a attributes ih =>
    obtain ⟨ha, has⟩ := List.forall_mem_cons.1 hnames
    have hresolve : resolveAttribute (rescoped reference scope outer) (attributeItem scope a).1 = _ :=
      resolve_attributeQName hscope ha
    have hvalue : decodeValue (attributeItem scope a).2 = _ := decodeValue_escape a.value
    rw [List.map_cons, attributesOf,
      show (attributeItem scope a).1.declares = none from declares_attributeQName hscope.legal ha]
    simp only [hresolve, hvalue, Option.bind_some, ih has, Option.map_some]
    rfl

theorem attributesOf_declares {a : QName × Str} {ns : Option Str} (h : a.1.declares = some ns) :
    attributesOf S (a :: as) = attributesOf S as := by rw [attributesOf, h]

theorem attributesOf_singleton {q name raw value uri : Str}
    (hdeclares : QName.declares ⟨some q, name⟩ = none) (hxml : q ≠ "xml".toList)
    (hlookup : lookup S (some q) = some uri) (hvalue : decodeValue raw = some value) :
    attributesOf S [(⟨some q, name⟩, raw)] = some [⟨⟨some uri, name⟩, value⟩] := by
  rw [attributesOf, hdeclares]
  simp only [resolveAttribute, if_neg hxml, hlookup, Option.map_some, Option.bind_some, hvalue]
  rfl

theorem attributesOf_referenceItems (scope outer : List Ns) :
    attributesOf (rescoped reference scope outer)
    (referenceItems reference scope) = some (marks reference) := by
  cases reference with
  | false => rfl
  | true =>
    have htrue : decodeValue "true".toList = some "true".toList := by decide
    show attributesOf _ [(⟨some "xmlns".toList, freshName scope⟩, WSA),
      (⟨some (freshName scope), _⟩, "true".toList)] = _
    have hxmlns : QName.declares ⟨some "xmlns".toList, freshName scope⟩ =
        some (some (freshName scope)) := by simp [QName.declares]
    rw [attributesOf_declares hxmlns]
    exact attributesOf_singleton (declares_freshName scope _) (freshName_legal scope).2.1
      (lookup_freshName scope outer) htrue

/-- The attributes of a written element, and the namespaces that it declares -/
theorem written_attributes (hscope : Scoped parent scope)
    (hnames : ∀ a ∈ attributes, AttributeInScope scope a.name) :
    declared (namespaceItems scope ++ (kept reference attributes).map (attributeItem scope) ++
      referenceItems reference scope) = some (written reference scope) ∧
      attributesOf (rescoped reference scope outer)
          (namespaceItems scope ++ (kept reference attributes).map (attributeItem scope) ++
            referenceItems reference scope) =
        some ((kept reference attributes).map spacedAttribute ++ marks reference) := by
  have hkept : ∀ a ∈ kept reference attributes, AttributeInScope scope a.name :=
    fun a ha => hnames a (List.mem_filter.1 ha).1
  have hdeclares : ∀ a ∈ (kept reference attributes).map (attributeItem scope), a.1.declares = none := by
    intro a ha
    obtain ⟨b, hb, rfl⟩ := List.mem_map.1 ha
    exact declares_attributeQName hscope.legal (hkept b hb)
  rw [namespaceItems_eq hscope.legal]
  constructor
  · simp only [declared_append, declared_namespaces, declared_none hdeclares, declared_referenceItems,
      Option.bind_some, Option.map_some, List.append_nil]
    rfl
  · simp only [attributesOf_append, attributesOf_namespaces, attributesOf_attributes hscope hkept,
      attributesOf_referenceItems, Option.bind_some, Option.map_some, List.nil_append]

end Attributes

mutual

/-- What is read of what is written of a tree: white space in attribute values and line ends are not
what they were. -/
def spacedView : View → View
  | .element name attributes children =>
    .element (spacedName name) (attributes.map spacedAttribute) (spacedViews children)
  | .text value => .text (normalise id value)

def spacedViews : List View → List View
  | [] => []
  | v :: vs => spacedView v :: spacedViews vs

end

/-- What is to be read of what is written of a node -/
def intended (reference : Bool) (node : Node) : View := if reference then marked (viewMerged node)
  else viewMerged node

section Resolve

variable {scope outer parent : List Ns} {reference : Bool} {attributes : List Attribute}
  {children : List Node} {tag : Expanded}

/-- An element is read back where its attributes still have different names. -/
theorem resolve_element (hscope : Scoped parent scope) (htag : TagInScope scope tag)
    (hnames : ∀ a ∈ attributes, AttributeInScope scope a.name)
    (houter : none ∈ outer.map Ns.name → none ∈ scope.map Ns.name) : ∃ e, known e = spacedName (known tag) ∧
      (item reference (.element tag scope attributes children)).resolve outer =
        if (((kept reference attributes).map spacedAttribute ++ marks reference).map
          Attribute.name).Nodup then
          (resolveAll (rescoped reference scope outer) (itemsOf children)).map
            (.element e (rescoped reference scope outer)
              ((kept reference attributes).map spacedAttribute ++ marks reference))
        else none := by
  have hresolve : ∃ e, resolveTag (rescoped reference scope outer) _ = some e ∧ _ :=
    resolveTag_qname hscope htag houter
  obtain ⟨e, he, hknown⟩ := hresolve
  obtain ⟨hdeclared, hattributes⟩ := written_attributes hscope hnames
  refine ⟨e, hknown, ?_⟩
  rw [item, Item.resolve, hdeclared, Option.bind_some, if_pos (written_unique hscope.unique)]
  show (resolveTag (rescoped reference scope outer) _).bind _ = _
  rw [he, Option.bind_some]
  show (attributesOf (rescoped reference scope outer) _).bind _ = _
  rw [hattributes, Option.bind_some]
  rfl

theorem spacedAttribute_reference : spacedAttribute referenceAttribute = referenceAttribute := by
  have htrue : normalise spaced "true".toList = "true".toList := by decide
  simp only [spacedAttribute, referenceAttribute, spacedName, Option.map_some,
    normalise_of_forall WSA_plain, htrue]

theorem spaced_marks (reference : Bool) : (marks reference).map spacedAttribute = marks reference := by
  cases reference with
  | false => rfl
  | true => simp [marks, spacedAttribute_reference]

theorem intended_element : intended reference (.element tag scope attributes children) =
    .element (known tag) (kept reference attributes ++ marks reference) (viewsMerged children) := by
  cases reference with
  | false => simp [intended, viewMerged, kept, marks]
  | true => rfl

mutual

theorem resolve_item : ∀ (node : Node) (reference : Bool) (parent outer : List Ns) (out : Node),
    Merged node → node.WellFormed parent →
    (none ∈ outer.map Ns.name → none ∈ parent.map Ns.name) → (item reference node).resolve outer = some out →
    Merged out ∧ isText out = isText node ∧ viewMerged out = spacedView (intended reference node)
  | .element tag scope attributes children, reference, parent, outer, out, hmerged, hwell, houter, hout => by
    obtain ⟨hscope, htag, hattributes, hchildren⟩ := hwell
    have hdefault : none ∈ outer.map Ns.name → none ∈ scope.map Ns.name := by
      intro h
      obtain ⟨ns, hns, hname⟩ := List.mem_map.1 (houter h)
      exact hname ▸ hscope.grows ns hns
    have hresolve : ∃ e, known e = _ ∧
        (item reference (.element tag scope attributes children)).resolve outer = _ :=
      resolve_element hscope htag hattributes.names hdefault
    obtain ⟨e, he, hequation⟩ := hresolve
    rw [hequation] at hout
    split_ifs at hout
    obtain ⟨nodes, hnodes, rfl⟩ := Option.map_eq_some_iff.1 hout
    obtain ⟨hmergedAll, -, hviews⟩ :=
      resolve_itemsOf children scope _ nodes hmerged hchildren (default_rescoped hdefault) hnodes
    refine ⟨hmergedAll, rfl, ?_⟩
    rw [viewMerged, he, hviews, intended_element, spacedView, List.map_append, spaced_marks]
  | .text value, reference, parent, outer, out, hmerged, hwell, houter, hout => by
    rw [item, Item.resolve, decodeText_escape] at hout
    cases hout
    refine ⟨normalise_ne_nil hmerged, rfl, ?_⟩
    cases reference <;> rfl
  | .other, _, _, _, _, hmerged, _, _, _ => hmerged.elim

theorem resolve_itemsOf : ∀ (nodes : List Node) (parent outer : List Ns) (outs : List Node),
    AllMerged nodes → AllWellFormed parent nodes →
    (none ∈ outer.map Ns.name → none ∈ parent.map Ns.name) → resolveAll outer (itemsOf nodes) = some outs →
    AllMerged outs ∧ outs.head?.any isText = nodes.head?.any isText ∧ viewsMerged outs = spacedViews
    (viewsMerged nodes)
  | [], _, _, _, _, _, _, hout => by
    cases hout
    exact ⟨trivial, rfl, rfl⟩
  | node :: nodes, parent, outer, outs, hmerged, hwell, houter, hout => by
    obtain ⟨out, hnode, hout⟩ := Option.bind_eq_some_iff.1 hout
    obtain ⟨rest, hrest, rfl⟩ := Option.map_eq_some_iff.1 hout
    obtain ⟨hmergedNode, htext, hview⟩ :=
      resolve_item node false parent outer out hmerged.1 hwell.1 houter hnode
    obtain ⟨hmergedRest, hhead, hviews⟩ :=
      resolve_itemsOf nodes parent outer rest hmerged.2.2 hwell.2 houter hrest
    refine ⟨⟨hmergedNode, ?_, hmergedRest⟩, by simp [htext], ?_⟩
    · rw [htext, hhead]
      exact hmerged.2.1
    · rw [viewsMerged, viewsMerged, spacedViews, hview, hviews]
      rfl

end

section Plain

variable {name : Expanded} {a : Attribute}

theorem spacedName_eq : spacedName name = name ↔ PlainName name := by
  obtain ⟨namespace_, name⟩ := name
  cases namespace_ with
  | none => simp [spacedName, PlainName]
  | some uri => simp [spacedName, PlainName, normalise_spaced_eq]

theorem spacedAttribute_eq : spacedAttribute a = a ↔ PlainAttribute a := by
  obtain ⟨name, value⟩ := a
  simp [spacedAttribute, PlainAttribute, spacedName_eq, normalise_spaced_eq]

theorem plain_spacedName (name : Expanded) : PlainName (spacedName name) := by
  intro uri huri c hc
  obtain ⟨u, -, rfl⟩ := Option.map_eq_some_iff.1 huri
  obtain ⟨x, rfl, -⟩ := mem_normalise hc
  exact spaced_spaced

theorem plain_spacedAttribute (a : Attribute) : PlainAttribute (spacedAttribute a) := by
  refine ⟨plain_spacedName a.name, fun c hc => ?_⟩
  obtain ⟨x, rfl, -⟩ := mem_normalise hc
  exact spaced_spaced

mutual

/-- A tree is read back as it was exactly when it has nothing that reading replaces. -/
theorem same_spacedView : ∀ v : View, Same v (spacedView v) ↔ Plain v
  | .element name attributes children => by
    rw [spacedView, Same, Plain, same_spacedViews children, eq_comm, spacedName_eq]
    refine and_congr_right fun _ => and_congr_left fun _ => ⟨fun h a ha => ?_, fun h => ?_⟩
    · obtain ⟨b, -, rfl⟩ := List.mem_map.1 (h.mem_iff.1 ha)
      exact plain_spacedAttribute b
    · rw [List.map_congr_left fun a ha => spacedAttribute_eq.2 (h a ha), List.map_id']
  | .text value => by rw [spacedView, Same, Plain, eq_comm, normalise_id_eq]

theorem same_spacedViews : ∀ vs : List View, SameAll vs (spacedViews vs) ↔ AllPlain vs
  | [] => Iff.rfl
  | v :: vs => by rw [spacedViews, SameAll, AllPlain, same_spacedView v, same_spacedViews vs]

end

/-- Where nothing is replaced the attributes still have different names. -/
theorem names_nodup {attributes : List Attribute} (h : (attributes.map Attribute.name).Nodup)
    (hplain : ∀ a ∈ kept reference attributes ++ marks reference, PlainAttribute a) :
    (((kept reference attributes).map spacedAttribute ++ marks reference).map Attribute.name).Nodup := by
  have hspaced : (kept reference attributes).map spacedAttribute = kept reference attributes := by
    rw [List.map_congr_left fun a ha => spacedAttribute_eq.2 (hplain a (List.mem_append_left _ ha)),
      List.map_id']
  rw [hspaced, List.map_append, List.nodup_append]
  refine ⟨h.sublist (List.filter_sublist.map _), ?_, fun x hx y hy heq => ?_⟩
  · cases reference <;> simp [marks]
  · cases reference with
    | false => simp [marks] at hy
    | true =>
      obtain ⟨a, ha, rfl⟩ := List.mem_map.1 hx
      have hy : y = referenceAttribute.name := by simpa [marks] using hy
      have hnot := (List.mem_filter.1 ha).2
      rw [Bool.true_and, Bool.not_eq_true', isReferenceParameter, decide_eq_false_iff_not] at hnot
      exact hnot (heq.trans hy)

mutual

theorem resolve_item_plain : ∀ (node : Node) (reference : Bool) (parent outer : List Ns), Merged node →
    node.WellFormed parent →
    (none ∈ outer.map Ns.name → none ∈ parent.map Ns.name) → Plain (intended reference node) →
    ∃ out, (item reference node).resolve outer = some out
  | .element tag scope attributes children, reference, parent, outer, hmerged, hwell, houter, hplain => by
    obtain ⟨hscope, htag, hattributes, hchildren⟩ := hwell
    have hdefault : none ∈ outer.map Ns.name → none ∈ scope.map Ns.name := by
      intro h
      obtain ⟨ns, hns, hname⟩ := List.mem_map.1 (houter h)
      exact hname ▸ hscope.grows ns hns
    rw [intended_element] at hplain
    have hresolve : ∃ e, known e = _ ∧
        (item reference (.element tag scope attributes children)).resolve outer = _ :=
      resolve_element hscope htag hattributes.names hdefault
    obtain ⟨e, -, hequation⟩ := hresolve
    obtain ⟨nodes, hnodes⟩ :=
      resolve_itemsOf_plain children scope (rescoped reference scope outer) hmerged hchildren
      (default_rescoped hdefault) hplain.2.2
    rw [hequation, if_pos (names_nodup hattributes.unique hplain.2.1), hnodes]
    exact ⟨_, rfl⟩
  | .text value, _, _, _, _, _, _, _ => ⟨_, by rw [item, Item.resolve, decodeText_escape, Option.map_some]⟩
  | .other, _, _, _, hmerged, _, _, _ => hmerged.elim

theorem resolve_itemsOf_plain : ∀ (nodes : List Node) (parent outer : List Ns), AllMerged nodes →
    AllWellFormed parent nodes →
    (none ∈ outer.map Ns.name → none ∈ parent.map Ns.name) → AllPlain (viewsMerged nodes) →
    ∃ outs, resolveAll outer (itemsOf nodes) = some outs
  | [], _, _, _, _, _, _ => ⟨[], rfl⟩
  | node :: nodes, parent, outer, hmerged, hwell, houter, hplain => by
    obtain ⟨out, hout⟩ := resolve_item_plain node false parent outer hmerged.1 hwell.1 houter hplain.1
    obtain ⟨outs, houts⟩ := resolve_itemsOf_plain nodes parent outer hmerged.2.2 hwell.2 houter hplain.2
    exact ⟨out :: outs, by rw [itemsOf, resolveAll, hout, Option.bind_some, houts, Option.map_some]⟩

end

end Plain

end Resolve

/-! ### What is written is XML -/

section Legal

variable {scope outer parent : List Ns} {reference : Bool} {attributes : List Attribute}
  {children : List Node} {ns : Ns} {s : Str}

theorem raw_legal (h : ∀ c ∈ s, isXmlChar c = true) :
    (Xml.escape s).all (fun c => c ≠ '<' && c ≠ '"' && isXmlChar c) = true ∧
      (Xml.escape s).all (fun c => c ≠ '<' && c ≠ '>' && isXmlChar c) = true := by
  have hne : ∀ m, m = '<' ∨ m = '>' ∨ m = '"' → ∀ c ∈ Xml.escape s, c ≠ m :=
    fun m hm c hc heq => not_mem_escape hm (heq ▸ hc)
  constructor
  · refine List.all_eq_true.2 fun c hc => ?_
    simp [hne '<' (by simp) c hc, hne '"' (by simp) c hc, escape_legal h c hc]
  · refine List.all_eq_true.2 fun c hc => ?_
    simp [hne '<' (by simp) c hc, hne '>' (by simp) c hc, escape_legal h c hc]

theorem spacedNs_legal (h : ns.legal = true) : (spacedNs ns).legal = true := by
  obtain ⟨hxml, hxmlns, hchars, hname⟩ := Ns.legal_iff.1 h
  have hspace : ' ' ∉ XML ∧ ' ' ∉ XMLNS := by decide
  refine Ns.legal_iff.2 ⟨fun heq => hxml (eq_of_normalise_spaced heq hspace.1),
    fun heq => hxmlns (eq_of_normalise_spaced heq hspace.2),
    fun c hc => ?_, fun q hq => ?_⟩
  · obtain ⟨x, rfl, -, hx⟩ := mem_normalise hc
    have hlegal : isXmlChar x = true := by
      rcases hx with hx | rfl
      · exact hchars x hx
      · decide
    unfold spaced
    split_ifs
    · decide
    · exact hlegal
  · obtain ⟨hncname, hnotxml, hnotxmlns, hne⟩ := hname q hq
    exact ⟨hncname, hnotxml, hnotxmlns, normalise_ne_nil hne⟩

theorem legal_namespaceItem (h : ns.legal = true) : legalAttribute (namespaceItem ns) = true := by
  have hchars : ∀ c ∈ ns.uri, isXmlChar c = true := (Ns.legal_iff.1 h).2.2.1
  have hname : (namespaceItem ns).1.legal = true := by
    rcases hq : ns.name with _ | q
    · simp only [namespaceItem, hq]
      decide
    · have hxmlns : isNCName "xmlns".toList = true := by decide
      simp only [namespaceItem, hq, QName.legal, (legal_name h hq).1, Option.all_some, hxmlns, Bool.and_true]
  have hdeclares : (namespaceItem ns).1.declares.all (fun name =>
        (decodeValue (namespaceItem ns).2).all fun uri => Ns.legal ⟨name, uri⟩) = true := by
    rw [declares_namespaceItem, Option.all_some, show (namespaceItem ns).2 = Xml.escape ns.uri from rfl,
      decodeValue_escape, Option.all_some]
    exact spacedNs_legal h
  rw [legalAttribute, hname, hdeclares, Bool.true_and, Bool.and_true]
  exact (raw_legal hchars).1

theorem prefixOf_mem {isAttribute : Bool} {namespace_ : Option Str} {p : Str}
    (h : prefixOf scope namespace_ isAttribute = some p) :
    ∃ ns ∈ scope, ns.name = some p := by
  obtain ⟨uri, -, h⟩ := Option.bind_eq_some_iff.1 h
  obtain ⟨ns, hns, hname⟩ := Option.bind_eq_some_iff.1 h
  exact ⟨ns, List.mem_of_find?_eq_some hns, hname⟩

theorem legal_qname {isAttribute : Bool} {namespace_ : Option Str} {name : Str}
    (hlegal : ∀ ns ∈ scope, ns.legal = true)
    (hname : isNCName name = true) : (qname scope namespace_ name isAttribute).legal = true := by
  rw [QName.legal, Bool.and_eq_true_iff]
  refine ⟨hname, ?_⟩
  rcases hpfx : prefixOf scope namespace_ isAttribute with _ | p
  · simp [qname, hpfx]
  · obtain ⟨ns, hns, hns'⟩ := prefixOf_mem hpfx
    simp [qname, hpfx, (legal_name (hlegal ns hns) hns').1]

theorem legal_attributeItem {a : Attribute} (hlegal : ∀ ns ∈ scope, ns.legal = true)
    (hname : AttributeInScope scope a.name)
    (hvalue : ∀ c ∈ a.value, isXmlChar c = true) : legalAttribute (attributeItem scope a) = true := by
  have hqname : (attributeQName scope a.name).legal = true := by
    have hxml : isNCName "xml".toList = true := by decide
    unfold attributeQName
    split_ifs
    · simp only [QName.legal, hname.1, Option.all_some, hxml, Bool.and_true]
    · exact legal_qname hlegal hname.1
  have hdeclares : (attributeItem scope a).1.declares = none := declares_attributeQName hlegal hname
  rw [legalAttribute, hdeclares, show (attributeItem scope a).1.legal = true from hqname, Bool.true_and]
  exact Bool.and_eq_true_iff.2 ⟨(raw_legal hvalue).1, rfl⟩

theorem legal_referenceItems (scope : List Ns) :
    (referenceItems reference scope).all legalAttribute = true := by
  unfold referenceItems
  split_ifs
  · obtain ⟨hname, hxml, hxmlns⟩ := freshName_legal scope
    have hns : Ns.legal ⟨some (freshName scope), WSA⟩ = true := by
      have huri : WSA ≠ XML ∧ WSA ≠ XMLNS ∧ WSA.all isXmlChar = true ∧ WSA ≠ [] := by decide
      refine Ns.legal_iff.2 ⟨huri.1, huri.2.1, List.all_eq_true.1 huri.2.2.1, fun q hq => ?_⟩
      cases hq
      exact ⟨hname, hxml, hxmlns, huri.2.2.2⟩
    have hWSA : WSA.all (fun c => c ≠ '<' && c ≠ '"' && isXmlChar c) = true := by decide
    have htrue : "true".toList.all (fun c => c ≠ '<' && c ≠ '"' && isXmlChar c) = true := by decide
    have hwords : isNCName "xmlns".toList = true ∧ isNCName "IsReferenceParameter".toList = true := by decide
    have hdeclares : QName.declares ⟨some "xmlns".toList, freshName scope⟩ =
        some (some (freshName scope)) := by simp [QName.declares]
    rw [List.all_cons, List.all_cons, List.all_nil, Bool.and_true, Bool.and_eq_true_iff]
    constructor
    · rw [legalAttribute, hdeclares, Option.all_some, decodeValue_WSA, Option.all_some, hns, hWSA]
      simp only [QName.legal, hname, Option.all_some, hwords.1, Bool.and_true]
    · rw [legalAttribute, declares_freshName, htrue]
      simp only [QName.legal, hname, Option.all_some, hwords.2, Bool.and_true, Option.all_none]
  · rfl

mutual

theorem item_legal : ∀ (node : Node) (reference : Bool) (parent : List Ns), Merged node →
    node.WellFormed parent → (item reference node).legal = true
  | .element tag scope attributes children, reference, parent, hmerged, hwell => by
    obtain ⟨hscope, htag, hattributes, hchildren⟩ := hwell
    have hnamespaces : (namespaceItems scope).all legalAttribute = true := by
      rw [namespaceItems_eq hscope.legal, List.all_map, List.all_eq_true]
      exact fun ns hns => legal_namespaceItem (hscope.legal ns hns)
    have hkept : ((kept reference attributes).map (attributeItem scope)).all legalAttribute = true := by
      rw [List.all_map, List.all_eq_true]
      intro a ha
      have hmem := (List.mem_filter.1 ha).1
      exact legal_attributeItem hscope.legal (hattributes.names a hmem) (hattributes.values a hmem)
    rw [item, Item.legal, List.all_append, List.all_append, legal_qname hscope.legal htag.1,
      hnamespaces, hkept, legal_referenceItems, itemsOf_legal children scope hmerged hchildren]
    rfl
  | .text value, _, _, hmerged, hwell => by
    rw [item, Item.legal, (raw_legal hwell).2, Bool.and_true, decide_eq_true_eq]
    exact fun h => hmerged (escape_eq_nil.1 h)
  | .other, _, _, hmerged, _ => hmerged.elim

theorem itemsOf_legal : ∀ (nodes : List Node) (parent : List Ns), AllMerged nodes →
    AllWellFormed parent nodes → legalAll (itemsOf nodes) = true
  | [], _, _, _ => rfl
  | node :: nodes, parent, hmerged, hwell => by
    have htext : ∀ n, (item false n).isText = true → Merged n → isText n = true := by
      intro n h hn
      cases n with
      | element tag scope attributes children => simp [item, Item.isText] at h
      | text value => rfl
      | other => exact hn.elim
    have hapart : ((item false node).isText && (itemsOf nodes).head?.any Item.isText) = false := by
      by_contra h
      obtain ⟨hhead, hnext⟩ := Bool.and_eq_true_iff.1 (Bool.not_eq_false _ ▸ h)
      refine hmerged.2.1 ⟨htext node hhead hmerged.1, ?_⟩
      rcases nodes with _ | ⟨next, rest⟩
      · simp [itemsOf] at hnext
      · simpa using htext next (by simpa [itemsOf] using hnext) hmerged.2.2.1
    rw [itemsOf, legalAll, item_legal node false parent hmerged.1 hwell.1, hapart,
      itemsOf_legal nodes parent hmerged.2.2 hwell.2]
    rfl

end

end Legal

/-! ### References in a message -/

section Message

variable {e : Envelope} {prefixes : List (Str × Str)} {own scope outer parent : List Ns} {nodes : List Node}

theorem declared_prefixes (h : declared (declarations prefixes) = some own) : none ∉ own.map Ns.name := by
  induction prefixes generalizing own with
  | nil =>
    cases h
    simp
  | cons d prefixes ih =>
    have hdeclares : QName.declares ⟨some "xmlns".toList, d.1⟩ = some (some d.1) := by simp [QName.declares]
    rw [declarations, List.map_cons, declared, hdeclares] at h
    obtain ⟨uri, -, h⟩ := Option.bind_eq_some_iff.1 h
    obtain ⟨rest, hrest, rfl⟩ := Option.map_eq_some_iff.1 h
    simpa using ih hrest

theorem default_inScope (hown : none ∉ own.map Ns.name) (houter : none ∉ outer.map Ns.name) :
    none ∉ (inScope own outer).map Ns.name := by
  rw [inScope, List.map_append, List.mem_append]
  rintro (h | h)
  · exact hown h
  · obtain ⟨ns, hns, hname⟩ := List.mem_map.1 h
    exact houter (hname ▸ List.mem_map_of_mem (List.mem_filter.1 hns).1)

/-- An element that declares prefixes only, as a tree with what is in it. -/
theorem resolve_start {tag : QName} {items : List Item} {node : Node} (houter : none ∉ outer.map Ns.name)
    (h : (Item.element tag (declarations prefixes) items).resolve outer = some node) :
    ∃ scope name attributes, none ∉ scope.map Ns.name ∧ (∃ nodes, resolveAll scope items = some nodes) ∧
      ∀ items, (Item.element tag (declarations prefixes) items).resolve outer =
        (resolveAll scope items).map (.element name scope attributes) := by
  obtain ⟨own, hown, h⟩ := Option.bind_eq_some_iff.1 h
  split_ifs at h with hunique
  obtain ⟨name, hname, h⟩ := Option.bind_eq_some_iff.1 h
  obtain ⟨attributes, hattributes, h⟩ := Option.bind_eq_some_iff.1 h
  split_ifs at h with hdistinct
  obtain ⟨nodes, hnodes, -⟩ := Option.map_eq_some_iff.1 h
  refine ⟨_, name, attributes, default_inScope (declared_prefixes hown) houter, ⟨nodes, hnodes⟩,
    fun items => ?_⟩
  rw [Item.resolve, hown, Option.bind_some, if_pos hunique]
  show (resolveTag (inScope own outer) tag).bind _ = _
  rw [hname, Option.bind_some, hattributes, Option.bind_some, if_pos hdistinct]

/-- The references are read in the scope of the header, and the camera finds there what was read. -/
theorem resolve_message (he : (e.item []).resolve [] ≠ none) :
    ∃ (scope : List Ns) (f : List Node → Node), none ∉ scope.map Ns.name ∧
    (∀ items, (e.item items).resolve [] = (resolveAll scope items).map f) ∧
    ∀ nodes, e.received (f nodes) = nodes := by
  obtain ⟨message, hmessage⟩ := Option.ne_none_iff_exists'.1 he
  obtain ⟨outer, envelope, eas, houter, ⟨all, hall⟩, henvelope⟩ := resolve_start (by simp) hmessage
  rw [resolveAll_append] at hall
  obtain ⟨above, habove, hall⟩ := Option.bind_eq_some_iff.1 hall
  obtain ⟨rest, hrest, -⟩ := Option.map_eq_some_iff.1 hall
  obtain ⟨header, hheader, hrest⟩ := Option.bind_eq_some_iff.1 hrest
  obtain ⟨below, hbelow, -⟩ := Option.map_eq_some_iff.1 hrest
  obtain ⟨scope, name, has, hscope, ⟨inner, hinner⟩, hstart⟩ := resolve_start houter hheader
  rw [List.append_nil] at hinner
  refine ⟨scope, fun nodes =>
    .element envelope outer eas (above ++ .element name scope has (inner ++ nodes) :: below), hscope,
    ?_, ?_⟩
  · intro items
    rw [Envelope.item, henvelope, resolveAll_append, habove, Option.bind_some, resolveAll, hstart,
      resolveAll_append, hinner, Option.bind_some, hbelow]
    rcases resolveAll scope items with _ | nodes <;> rfl
  · intro nodes
    have hlength := length_resolveAll habove
    have hinnerLength := length_resolveAll hinner
    show ((((above ++ .element name scope has (inner ++ nodes) :: below)[e.above.length]?).map
      children).getD []).drop e.before.length = nodes
    rw [← hlength, List.getElem?_append_right le_rfl, Nat.sub_self, ← hinnerLength]
    simp [children]

theorem render_message (items : List Item) : (e.item items).render = e.text (renderAll items) := by
  simp only [Envelope.item, Envelope.text, Item.render, renderAll, renderAll_append, startTag,
    endTag, List.append_assoc, List.cons_append, List.nil_append]

theorem legal_message (he : (e.item []).legal = true) {items : List Item} (hitems : legalAll items = true)
    (helements : items.head?.any Item.isText = false) : (e.item items).legal = true := by
  obtain ⟨hstart, hall⟩ := Bool.and_eq_true_iff.1 he
  obtain ⟨hheader, hbelow⟩ := Bool.and_eq_true_iff.1 (legalAll_right hall)
  obtain ⟨hheader, -⟩ := Bool.and_eq_true_iff.1 hheader
  obtain ⟨hheaderStart, hbefore⟩ := Bool.and_eq_true_iff.1 hheader
  rw [List.append_nil] at hbefore
  have hnew : legalAll (.element e.header (declarations e.headerNs) (e.before ++ items) :: e.below) =
      true := by
    rw [legalAll, Item.legal, hheaderStart, legalAll_append hbefore hitems helements, hbelow]
    rfl
  rw [Envelope.item, Item.legal, hstart, legalAll_append (legalAll_left hall) hnew rfl]
  rfl

/-- Where the reference parameters are trees, each of them marked -/
def referenceItemsOf (nodes : List Node) : List Item := nodes.map fun n => item true (merged n)

theorem render_references (nodes : List Node) : renderAll (referenceItemsOf nodes) = nodes.flatMap
    (writeNode true) := by
  induction nodes with
  | nil => rfl
  | cons n nodes ih =>
    rw [List.flatMap_cons, ← ih, ← writeNode_merged n true, ← render_item]
    rfl

/-- The nodes are elements of a well-formed tree. -/
def Elements (nodes : List Node) : Prop := ∀ n ∈ nodes, isElement n = true ∧ ∃ parent, n.WellFormed parent

theorem isText_reference {n : Node} (h : isElement n = true) : (item true (merged n)).isText = false ∧
    isText (merged n) = false := by
  cases n with
  | element tag scope attributes children => exact ⟨rfl, rfl⟩
  | text value => simp [isElement] at h
  | other => simp [isElement] at h

theorem legal_references (h : Elements nodes) : legalAll (referenceItemsOf nodes) = true ∧
    (referenceItemsOf nodes).head?.any Item.isText = false := by
  induction nodes with
  | nil => exact ⟨rfl, rfl⟩
  | cons n nodes ih =>
    obtain ⟨⟨helement, parent, hwell⟩, hnodes⟩ := List.forall_mem_cons.1 h
    have htext := (isText_reference helement).1
    have hlegal := item_legal (merged n) true parent (merged_merged n helement)
      (merged_wellFormed n parent hwell)
    rw [referenceItemsOf, List.map_cons]
    refine ⟨?_, by simp [htext]⟩
    rw [legalAll, hlegal, htext, show legalAll (nodes.map _) = true from (ih hnodes).1]
    rfl

theorem resolve_references (h : Elements nodes) (hscope : none ∉ scope.map Ns.name) {outs : List Node}
    (hout : resolveAll scope (referenceItemsOf nodes) = some outs) :
    AllMerged outs ∧ outs.head?.any isText = false ∧ viewsMerged outs = spacedViews
    (nodes.map fun n => marked (view n)) := by
  induction nodes generalizing outs with
  | nil =>
    cases hout
    exact ⟨trivial, rfl, rfl⟩
  | cons n nodes ih =>
    obtain ⟨⟨helement, parent, hwell⟩, hnodes⟩ := List.forall_mem_cons.1 h
    obtain ⟨out, hnode, hout⟩ := Option.bind_eq_some_iff.1 hout
    obtain ⟨rest, hrest, rfl⟩ := Option.map_eq_some_iff.1 hout
    obtain ⟨hmerged, htext, hview⟩ := resolve_item (merged n) true parent scope out (merged_merged n helement)
      (merged_wellFormed n parent hwell) (fun h => absurd h hscope) hnode
    obtain ⟨hrestMerged, hhead, hviews⟩ := ih hnodes hrest
    rw [(isText_reference helement).2] at htext
    refine ⟨⟨hmerged, by simp [htext], hrestMerged⟩, by simp [htext], ?_⟩
    rw [viewsMerged, hview, hviews]
    rfl

theorem resolve_references_plain (h : Elements nodes) (hscope : none ∉ scope.map Ns.name)
    (hplain : ∀ n ∈ nodes, Plain (marked (view n))) :
    ∃ outs, resolveAll scope (referenceItemsOf nodes) = some outs := by
  induction nodes with
  | nil => exact ⟨[], rfl⟩
  | cons n nodes ih =>
    obtain ⟨⟨helement, parent, hwell⟩, hnodes⟩ := List.forall_mem_cons.1 h
    obtain ⟨hn, hrest⟩ := List.forall_mem_cons.1 hplain
    obtain ⟨out, hout⟩ := resolve_item_plain (merged n) true parent scope (merged_merged n helement)
      (merged_wellFormed n parent hwell) (fun h => absurd h hscope) hn
    obtain ⟨outs, houts⟩ := ih hnodes hrest
    refine ⟨out :: outs, ?_⟩
    rw [referenceItemsOf, List.map_cons, resolveAll, hout, Option.bind_some,
      show resolveAll scope (nodes.map _) = _ from houts,
      Option.map_some]

theorem allPlain_map {f : Node → View} : AllPlain (nodes.map f) ↔ ∀ n ∈ nodes, Plain (f n) := by
  induction nodes with
  | nil => simp [AllPlain]
  | cons n nodes ih => rw [List.map_cons, AllPlain, ih, List.forall_mem_cons]

end Message

section Response

variable {outer : List Ns} {node n : Node}

theorem child_wellFormed : ∀ {nodes : List Node}, AllWellFormed outer nodes → n ∈ nodes → n.WellFormed outer
  | node :: nodes, h, hn => by
    rcases List.mem_cons.1 hn with rfl | hn
    · exact h.1
    · exact child_wellFormed h.2 hn

theorem children_wellFormed (h : node.WellFormed outer) (hn : n ∈ children node) :
    ∃ parent, n.WellFormed parent := by
  cases node with
  | element tag scope attributes children => exact ⟨scope, child_wellFormed h.2.2.2 hn⟩
  | text value => cases hn
  | other => cases hn

mutual

theorem descendant_wellFormed : ∀ (node : Node) (outer : List Ns) (n : Node), node.WellFormed outer →
    n ∈ descendants node → ∃ parent, n.WellFormed parent
  | .element tag scope attributes children, outer, n, h, hn => by
    rw [descendants] at hn
    rcases List.mem_cons.1 hn with rfl | hn
    · exact ⟨outer, h⟩
    · exact descendantsOf_wellFormed children scope n h.2.2.2 hn
  | .text value, outer, n, h, hn => ⟨outer, List.mem_singleton.1 hn ▸ h⟩
  | .other, outer, n, h, hn => ⟨outer, List.mem_singleton.1 hn ▸ h⟩

theorem descendantsOf_wellFormed : ∀ (nodes : List Node) (outer : List Ns) (n : Node),
    AllWellFormed outer nodes → n ∈ descendantsOf nodes →
    ∃ parent, n.WellFormed parent
  | [], _, _, _, hn => nomatch hn
  | node :: nodes, outer, n, h, hn => by
    rw [descendantsOf] at hn
    rcases List.mem_append.1 hn with hn | hn
    · exact descendant_wellFormed node outer n h.1 hn
    · exact descendantsOf_wellFormed nodes outer n h.2 hn

end

/-- The reference parameters of a well-formed response -/
theorem elements_referenceOf (h : node.WellFormed outer) : Elements (referenceOf node) := by
  intro n hn
  unfold referenceOf at hn
  rcases hfound : (descendants node).find? (hasTagName "SubscriptionReference") with _ | reference
  · simp [hfound] at hn
  · rw [hfound, Option.map_some, Option.getD_some] at hn
    obtain ⟨container, hcontainer, hn⟩ := List.mem_flatMap.1 hn
    obtain ⟨hn, helement⟩ := List.mem_filter.1 hn
    obtain ⟨p, hreference⟩ := descendant_wellFormed node outer reference h (List.mem_of_find?_eq_some hfound)
    obtain ⟨q, hwell⟩ := children_wellFormed hreference (List.mem_filter.1 hcontainer).1
    exact ⟨helement, children_wellFormed hwell hn⟩

theorem parse_headers {P : Platform} {xml : Str} {doc : Node} {sub : Subscription}
    (hdoc : P.parse xml = .ok doc)
    (hsub : Subscription.parse P xml = .ok sub) : sub.reference_headers = (referenceOf doc).flatMap
    (writeNode true) := by
  unfold Subscription.parse at hsub
  unfold referenceOf
  simp only [hdoc] at hsub
  split at hsub
  · cases hsub
  · rename_i reference hfound
    split at hsub
    · cases hsub
    · split_ifs at hsub
      cases hsub
      rw [hfound, Option.map_some, Option.getD_some]

end Response

/-- The camera finds its reference parameters in a message, each marked once, if and only if none of
them has a tab or a line end in an attribute value or in the URI of a name, or a carriage return in
a text. -/
theorem references_survive_iff (P : Platform) (hP : P.Documented) (e : Envelope) (he : e.WellFormed)
    (xml : Str) (doc : Node)
    (sub : Subscription) (hdoc : P.parse xml = .ok doc) (hwell : doc.WellFormed [])
    (hsub : Subscription.parse P xml = .ok sub) :
    Survives P e doc sub ↔ ∀ n ∈ referenceOf doc, Plain (marked (view n)) := by
  have helements := elements_referenceOf hwell
  obtain ⟨hlegal, hhead⟩ := legal_references helements
  obtain ⟨scope, f, hscope, hresolve, hreceived⟩ := resolve_message he.resolves
  have htext : e.text sub.reference_headers = (e.item (referenceItemsOf (referenceOf doc))).render := by
    rw [parse_headers hdoc hsub, ← render_references, render_message]
  have hparse := hP (e.item (referenceItemsOf (referenceOf doc))) (legal_message he.legal hlegal hhead) rfl
  rw [← htext, hresolve] at hparse
  constructor
  · rintro ⟨message, hmessage, hsame⟩
    rw [hmessage] at hparse
    obtain ⟨outs, houts, rfl⟩ := Option.map_eq_some_iff.1 hparse.symm
    obtain ⟨hmerged, -, hviews⟩ := resolve_references helements hscope houts
    rw [hreceived, views, mergedAll_of_merged outs hmerged, hviews, same_spacedViews, allPlain_map] at hsame
    exact hsame
  · intro hplain
    obtain ⟨outs, houts⟩ := resolve_references_plain helements hscope hplain
    obtain ⟨hmerged, -, hviews⟩ := resolve_references helements hscope houts
    rw [houts, Option.map_some] at hparse
    rcases hmessage : P.parse (e.text sub.reference_headers) with error | message
    · rw [hmessage] at hparse
      cases hparse
    · rw [hmessage] at hparse
      cases hparse
      refine ⟨_, hmessage, ?_⟩
      rw [hreceived, views, mergedAll_of_merged outs hmerged, hviews, same_spacedViews, allPlain_map]
      exact hplain

/-! ### A parser -/

/-- Reads the documents that `Item` can write, and knows one scheme. -/
def plainPlatform : Platform where
  parse text :=
    match ((read text).filter Item.legal).bind (Item.resolve []) with
    | some node => .ok node
    | none => .error "malformed".toList
  scheme url := if "http://".toList <+: url then some "http".toList else none

theorem plainPlatform_documented : plainPlatform.Documented := by
  intro item hlegal helement
  have hread : ((read item.render).filter Item.legal).bind (Item.resolve []) = item.resolve [] := by
    rw [read_render hlegal helement, Option.filter_some, if_pos hlegal, Option.bind_some]
  show (match ((read item.render).filter Item.legal).bind (Item.resolve []) with
    | some node => Except.ok node
    | none => Except.error "malformed".toList).toOption = _
  rw [hread]
  rcases item.resolve [] with _ | node <;> rfl

theorem plainPlatform_wellFormed {xml : Str} {doc : Node} (h : plainPlatform.parse xml = .ok doc) :
    doc.WellFormed [] := by
  have hdoc : ((read xml).filter Item.legal).bind (Item.resolve []) = some doc := by
    unfold plainPlatform at h
    dsimp only at h
    split at h
    · rename_i node hnode
      cases h
      exact hnode
    · cases h
  obtain ⟨item, hitem, hresolve⟩ := Option.bind_eq_some_iff.1 hdoc
  exact resolve_wellFormed item [] doc (by simp) (by simp) (Option.filter_eq_some_iff.1 hitem).2 hresolve

/-- An envelope like those the client sends. -/
def soapEnvelope : Envelope where
  envelope := ⟨some "s".toList, "Envelope".toList⟩
  envelopeNs := [("s".toList, "http://www.w3.org/2003/05/soap-envelope".toList)]
  above := []
  header := ⟨some "s".toList, "Header".toList⟩
  headerNs := []
  before := []
  below := [.element ⟨some "s".toList, "Body".toList⟩ [] []]

theorem soapEnvelope_wellFormed : soapEnvelope.WellFormed where
  legal := by decide +kernel
  resolves := by
    rw [Option.ne_none_iff_isSome]
    decide +kernel

/-- A response whose token has the key that is given. -/
def response (key : String) : Str :=
  "<Response><SubscriptionReference><Address>http://camera/sub</Address><ReferenceParameters><v:Token xmlns:v=\"urn:v\" key=\"".toList ++
    key.toList ++ "\">id</v:Token></ReferenceParameters></SubscriptionReference></Response>".toList

/-- The attributes of the outermost element. -/
def keys : View → List Attribute
  | .element _ attributes _ => attributes
  | .text _ => []

/-- One reference is accepted. -/
def accepted (xml : Str) : Bool :=
  match plainPlatform.parse xml, Subscription.parse plainPlatform xml with
  | .ok doc, .ok _ => decide ((referenceOf doc).length = 1)
  | _, _ => false

theorem of_accepted {xml : Str} (h : accepted xml = true) : ∃ doc sub, plainPlatform.parse xml = .ok doc ∧
    Subscription.parse plainPlatform xml = .ok sub ∧ (referenceOf doc).length = 1 := by
  unfold accepted at h
  split at h
  · next doc sub hdoc hsub => exact ⟨doc, sub, hdoc, hsub, of_decide_eq_true h⟩
  · cases h

/-- The key with a line break comes back with a space. -/
def altered (xml : Str) : Bool :=
  match plainPlatform.parse xml, Subscription.parse plainPlatform xml with
  | .ok doc, .ok sub =>
    match plainPlatform.parse (soapEnvelope.text sub.reference_headers) with
    | .ok message =>
      decide (((referenceOf doc).map fun n => keys (marked (view n))) =
        [[⟨⟨none, "key".toList⟩, "a\nb".toList⟩, referenceAttribute]] ∧
        (views (soapEnvelope.received message)).map keys =
          [[⟨⟨none, "key".toList⟩, "a b".toList⟩, referenceAttribute]])
    | .error _ => false
  | _, _ => false

theorem of_altered {xml : Str} (h : altered xml = true) :
    ∃ doc sub message, plainPlatform.parse xml = .ok doc ∧
    Subscription.parse plainPlatform xml = .ok sub ∧
    plainPlatform.parse (soapEnvelope.text sub.reference_headers) = .ok message ∧
    ((referenceOf doc).map fun n => keys (marked (view n))) =
    [[⟨⟨none, "key".toList⟩, "a\nb".toList⟩, referenceAttribute]] ∧
    (views (soapEnvelope.received message)).map keys =
    [[⟨⟨none, "key".toList⟩, "a b".toList⟩, referenceAttribute]] := by
  unfold altered at h
  split at h
  · next doc sub hdoc hsub =>
    split at h
    · next message hmessage => exact ⟨doc, sub, message, hdoc, hsub, hmessage, of_decide_eq_true h⟩
    · cases h
  · cases h

theorem references_survive_iff_token : ∃ doc sub, plainPlatform.parse (response "a b") = .ok doc ∧
    Subscription.parse plainPlatform (response "a b") = .ok sub ∧ (referenceOf doc).length = 1 ∧
    (Survives plainPlatform soapEnvelope doc sub ↔ ∀ n ∈ referenceOf doc, Plain (marked (view n))) := by
  have h : accepted (response "a b") = true := by
    unfold response
    rw [String.toList_ofList, String.toList_ofList, String.toList_ofList]
    decide +kernel
  obtain ⟨doc, sub, hdoc, hsub, hlength⟩ := of_accepted h
  refine ⟨doc, sub, hdoc, hsub, hlength, ?_⟩
  exact references_survive_iff plainPlatform plainPlatform_documented soapEnvelope
    soapEnvelope_wellFormed _ doc sub hdoc
    (plainPlatform_wellFormed hdoc) hsub

theorem keys_of_same : ∀ {vs ws : List View}, SameAll vs ws → List.Forall₂ List.Perm (vs.map keys)
    (ws.map keys)
  | [], [], _ => .nil
  | v :: vs, w :: ws, h => by
    refine .cons ?_ (keys_of_same h.2)
    have hv := h.1
    cases v <;> cases w
    · exact hv.2.1
    · exact hv.elim
    · exact hv.elim
    · exact List.Perm.refl _
  | [], _ :: _, h => h.elim
  | _ :: _, [], h => h.elim

/-- The line break in the key of a token comes back as a space. -/
theorem line_break_lost : ∃ doc sub, plainPlatform.parse (response "a&#10;b") = .ok doc ∧ doc.WellFormed [] ∧
    Subscription.parse plainPlatform (response "a&#10;b") = .ok sub ∧
    ¬ Survives plainPlatform soapEnvelope doc sub := by
  have h : altered (response "a&#10;b") = true := by
    unfold response
    rw [String.toList_ofList, String.toList_ofList, String.toList_ofList]
    decide +kernel
  obtain ⟨doc, sub, message, hdoc, hsub, hmessage, hsent, hback⟩ := of_altered h
  refine ⟨doc, sub, hdoc, plainPlatform_wellFormed hdoc, hsub, ?_⟩
  rintro ⟨again, hagain, hsame⟩
  obtain rfl : message = again := Except.ok.inj (hmessage.symm.trans hagain)
  have hperm := keys_of_same hsame
  rw [List.map_map, show ((referenceOf doc).map (keys ∘ fun n => marked (view n))) = _ from hsent,
    hback] at hperm
  have hmem := (List.forall₂_cons.1 hperm).1.mem_iff.1 (List.mem_cons_self)
  revert hmem
  decide

end OnvifReferences
