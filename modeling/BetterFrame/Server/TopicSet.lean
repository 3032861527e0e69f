import Mathlib
import BetterFrame.Lib.Search

/-!
# The topics of a camera (getEventProperties, onvif.ts)

Two regular expressions: one takes the text of the TopicSet element out of the answer, the other
goes through its tags and keeps a stack of names. `topics_exact` says when the result is the topics
of the tree that was written.
-/

namespace TopicSet

open Search Text

/-! ### The walk -/

/-- What `:?` can leave of the text, in the order in which it is tried. -/
def optionalColon : List Char → List (List Char)
  | [] => [[]]
  | c :: s => if c = ':' then [s, c :: s] else [c :: s]

/-- What `[^:]*:?` can leave. -/
def ahead (s : List Char) : List (List Char) :=
  (List.range ((s.takeWhile (· ≠ ':')).length + 1)).reverse.flatMap fun k => optionalColon (s.drop k)

def topicSet : List Char := "TopicSet".toList

/-- What `[^:]*:?TopicSet[^>]*>` can leave. -/
def openings (s : List Char) : List (List Char) :=
  (ahead s).filterMap fun rest =>
    if topicSet <+: rest then (breakOn ['>'] (rest.drop topicSet.length)).map Prod.snd else none

/-- `<\/[^:]*:?TopicSet>` matches at the beginning. -/
def closesAt (s : List Char) : Prop := ['<', '/'] <+: s ∧ ∃ rest ∈ ahead (s.drop 2),
  topicSet ++ ['>'] <+: rest

instance (s : List Char) : Decidable (closesAt s) := inferInstanceAs (Decidable (_ ∧ _))

/-- `([\s\S]*?)` and what closes it. -/
def lazyContent : List Char → Option (List Char)
  | [] => none
  | c :: s => if closesAt (c :: s) then some [] else (lazyContent s).map (c :: ·)

/-- `xml.match(/<[^:]*:?TopicSet[^>]*>([\s\S]*?)<\/[^:]*:?TopicSet>/)` -/
def topicSetMatch : List Char → Option (List Char)
  | [] => none
  | c :: s => (if c = '<' then (openings s).findSome? lazyContent else none).or (topicSetMatch s)

/-- What the expression for a tag matches. -/
structure TagMatch where
  full : List Char
  tagName : List Char
  selfClose : Bool
  isClose : Bool

/-- `<\/?([^\s>\/]+)[^>]*?(\/?)>` after its `<`, and what is left. -/
def matchTag (s : List Char) : Option (TagMatch × List Char) :=
  let isClose := s.head? = some '/'
  let name := s.drop (if isClose then 1 else 0)
  let tagName := name.takeWhile fun c => !isSpace c && c ≠ '>' && c ≠ '/'
  if tagName = [] then none
  else (breakOn ['>'] (name.drop tagName.length)).map fun p =>
    (⟨'<' :: ((if isClose then ['/'] else []) ++ tagName ++ p.1 ++ ['>']), tagName,
      p.1.getLast? = some '/', isClose⟩, p.2)

/-- The matches, one after the other. -/
def tagMatches : Nat → List Char → List TagMatch
  | 0, _ => []
  | _, [] => []
  | fuel + 1, c :: s =>
    if c = '<' then
      match matchTag s with
      | some (m, rest) => m :: tagMatches fuel rest
      | none => tagMatches fuel s
    else tagMatches fuel s

/-- The name without its prefix. -/
def localName (tagName : List Char) : List Char := (splitOn ':' tagName).getLast?.getD []

/-- `tns1:${stack.join("/")}` -/
def topicPath (stack : List (List Char)) : List Char := "tns1:".toList ++ List.intercalate ['/'] stack

def isTopicTag (full : List Char) : Bool :=
  "topic=\"true\"".toList <:+: full || "topic='true'".toList <:+: full

/-- The topics, along the stack of open elements. -/
def walk : List (List Char) → List TagMatch → List (List Char)
  | _, [] => []
  | stack, m :: ms =>
    if m.isClose then walk stack.dropLast ms
    else
      let pushed := stack ++ [localName m.tagName]
      (if isTopicTag m.full then [topicPath pushed] else []) ++
        walk (if m.selfClose then pushed.dropLast else pushed) ms

/-- The topics of a `GetEventProperties` response. -/
def getTopics (xml : List Char) : List (List Char) :=
  match topicSetMatch xml with
  | none => []
  | some topicSetXml => walk [] (tagMatches topicSetXml.length topicSetXml)

/-! ### Topic sets as they are written -/

def isWhite (c : Char) : Bool := c = ' ' || c = '\t' || c = '\n' || c = '\r'

/-- White space. -/
structure White where
  chars : List Char
  white : ∀ c ∈ chars, isWhite c = true

def isNameChar (c : Char) : Bool := !isSpace c && !([':', '/', '<', '>', '=', '"', '\'', '&'].contains c)

/-- A name without a prefix. -/
structure NcName where
  chars : List Char
  nonempty : chars ≠ []
  named : ∀ c ∈ chars, isNameChar c = true

/-- A name, with the prefix it may have. -/
structure Name where
  ns : Option NcName
  localPart : NcName

/-- A name with its prefix, if any. -/
def Name.written (name : Name) : List Char := (name.ns.elim [] fun ns => ns.chars ++ [':']) ++
  name.localPart.chars

def escapeChar (c : Char) : List Char :=
  if c = '<' then "&lt;".toList else if c = '&' then "&amp;".toList else if c = '"' then "&quot;".toList
  else [c]

def escape (cs : List Char) : List Char := cs.flatMap escapeChar

/-- An attribute, with the space before it. -/
structure Attr where
  space : White
  separated : space.chars ≠ []
  name : Name
  value : List Char

/-- An attribute with the white space before it. -/
def Attr.written (a : Attr) : List Char := a.space.chars ++ a.name.written ++ '=' :: '"' ::
  (escape a.value ++ ['"'])

/-- A start tag, as it is written. -/
structure StartTag where
  name : Name
  attrs : List Attr
  space : White

def StartTag.written (tag : StartTag) : List Char :=
  tag.name.written ++ tag.attrs.flatMap Attr.written ++ tag.space.chars

/-- Whether the element carries a topic attribute equal to true. -/
def StartTag.isTopic (tag : StartTag) : Bool :=
  tag.attrs.any fun a => a.name.localPart.chars = "topic".toList && a.value = "true".toList

/-- Text, a self-closed element, or an element with its content and its end tag. -/
inductive Node where
  | text (cs : List Char)
  | empty (tag : StartTag)
  | pair (tag : StartTag) (children : List Node) (space : White)

/-- A piece of a document. -/
inductive Token where
  | text (cs : List Char)
  | start (tag : StartTag) (empty : Bool)
  | stop (name : Name) (space : White)

def closing (empty : Bool) : List Char := if empty then ['/', '>'] else ['>']

/-- A token of the document. -/
def Token.written : Token → List Char
  | .text cs => escape cs
  | .start tag empty => '<' :: (tag.written ++ closing empty)
  | .stop name space => '<' :: '/' :: (name.written ++ space.chars ++ ['>'])

def written (tokens : List Token) : List Char := tokens.flatMap Token.written

mutual

def Node.tokens : Node → List Token
  | .text cs => [.text cs]
  | .empty tag => [.start tag true]
  | .pair tag children space => .start tag false :: (tokensOf children ++ [.stop tag.name space])

def tokensOf : List Node → List Token
  | [] => []
  | node :: nodes => node.tokens ++ tokensOf nodes

end

mutual

/-- The topics of an element whose ancestors are `path`, in document order. -/
def Node.topics (path : List (List Char)) : Node → List (List Char)
  | .text _ => []
  | .empty tag => if tag.isTopic then [topicPath (path ++ [tag.name.localPart.chars])] else []
  | .pair tag children _ =>
    (if tag.isTopic then [topicPath (path ++ [tag.name.localPart.chars])] else []) ++
      topicsOf (path ++ [tag.name.localPart.chars]) children

def topicsOf (path : List (List Char)) : List Node → List (List Char)
  | [] => []
  | node :: nodes => node.topics path ++ topicsOf path nodes

end

/-- Before the set, a tag is not taken for its beginning. -/
def Quiet (lead : List Char) : Prop := ∀ before after, lead = before ++ '<' :: after →
  ¬ topicSet <:+: after.takeWhile (· ≠ ':') ∧ ¬ ':' :: topicSet <+: after.dropWhile (· ≠ ':')

/-- An answer with a prefixed TopicSet element. -/
structure Document where
  lead : List Char
  quiet : Quiet lead
  ns : NcName
  attrs : List Attr
  space : White
  nodes : List Node
  tail : List Char

namespace Document

variable (d : Document)

def ending : List Char := '<' :: '/' :: (d.ns.chars ++ ':' :: (topicSet ++ '>' :: d.tail))

/-- The document as it is written. -/
def xml : List Char :=
  d.lead ++ '<' :: (d.ns.chars ++ ':' ::
    (topicSet ++ (d.attrs.flatMap Attr.written ++ d.space.chars ++ ['>']) ++
    written (tokensOf d.nodes) ++ d.ending))

def topics : List (List Char) := topicsOf [] d.nodes

end Document

/-! ### What is seen of a tag -/

/-- The text of a start tag up to its first `>`. -/
def StartTag.visible (tag : StartTag) (empty : Bool) : List Char :=
  (tag.written ++ closing empty).takeWhile (· ≠ '>')

/-- What the tag expression matches of a start tag. -/
def StartTag.seen (tag : StartTag) (empty : Bool) : TagMatch where
  full := '<' :: (tag.visible empty ++ ['>'])
  tagName := tag.name.written
  selfClose := ((tag.visible empty).drop tag.name.written.length).getLast? = some '/'
  isClose := false

/-- What the tag expression matches of a token. -/
def Token.seen : Token → Option TagMatch
  | .text _ => none
  | .start tag empty => some (tag.seen empty)
  | .stop name space => some ⟨'<' :: '/' :: (name.written ++ space.chars ++ ['>']), name.written, false, true⟩

section Seen

variable {c : Char} {name : Name} {tag : StartTag} {empty : Bool}

theorem isNameChar_facts (h : isNameChar c = true) : isSpace c = false ∧
    c ∉ [':', '/', '<', '>', '=', '"', '\'', '&'] := by
  simpa [isNameChar] using h

theorem mem_written (h : c ∈ name.written) : c = ':' ∨ isNameChar c = true := by
  rcases name with ⟨_ | ns, localPart⟩
  · exact .inr (localPart.named c h)
  · rcases List.mem_append.1 h with h | h
    · rcases List.mem_append.1 h with h | h
      · exact .inr (ns.named c h)
      · exact .inl (List.mem_singleton.1 h)
    · exact .inr (localPart.named c h)

theorem written_facts (h : c ∈ name.written) : isSpace c = false ∧
    c ∉ ['/', '<', '>', '=', '"', '\'', '&'] := by
  rcases mem_written h with rfl | h
  · decide
  · obtain ⟨hspace, hnot⟩ := isNameChar_facts h
    exact ⟨hspace, fun hmem => hnot (List.mem_cons_of_mem _ hmem)⟩

theorem written_ne_nil (name : Name) : name.written ≠ [] :=
  List.append_ne_nil_of_right_ne_nil _ name.localPart.nonempty

theorem isSpace_of_isWhite (h : isWhite c = true) : isSpace c = true := by
  simp only [isWhite, Bool.or_eq_true, decide_eq_true_eq] at h
  rcases h with ((rfl | rfl) | rfl) | rfl
  all_goals decide

theorem not_lt_of_mem_white {space : White} (h : c ∈ space.chars) : c ∉ ['<', '>', '/', ':', '"', '\''] := by
  have h := space.white c h
  simp only [isWhite, Bool.or_eq_true, decide_eq_true_eq] at h
  rcases h with ((rfl | rfl) | rfl) | rfl
  all_goals decide

theorem mem_escape {cs : List Char} (h : c ∈ escape cs) : c ≠ '<' ∧ c ≠ '"' := by
  obtain ⟨d, -, hd⟩ := List.mem_flatMap.1 h
  unfold escapeChar at hd
  split_ifs at hd with h1 h2 h3
  · exact ⟨fun h => by simp [h] at hd, fun h => by simp [h] at hd⟩
  · exact ⟨fun h => by simp [h] at hd, fun h => by simp [h] at hd⟩
  · exact ⟨fun h => by simp [h] at hd, fun h => by simp [h] at hd⟩
  · obtain rfl := List.mem_singleton.1 hd
    exact ⟨h1, h3⟩

theorem not_lt_attrs {attrs : List Attr} : '<' ∉ attrs.flatMap Attr.written := by
  intro h
  obtain ⟨a, -, ha⟩ := List.mem_flatMap.1 h
  simp only [Attr.written, List.mem_append, List.mem_cons, List.not_mem_nil, or_false] at ha
  rcases ha with (ha | ha) | ha | ha | ha | ha
  · exact not_lt_of_mem_white ha (by decide)
  · exact (written_facts ha).2 (by decide)
  · cases ha
  · cases ha
  · exact (mem_escape ha).1 rfl
  · cases ha

theorem not_lt_closing : '<' ∉ closing empty := by cases empty <;> decide

theorem not_lt_start : '<' ∉ tag.written ++ closing empty := by
  simp only [StartTag.written, List.mem_append, not_or]
  exact ⟨⟨⟨fun h => (written_facts h).2 (by decide), not_lt_attrs⟩,
    fun h => not_lt_of_mem_white h (by decide)⟩, not_lt_closing⟩

/-- The name of a tag ends where something else begins. -/
theorem takeWhile_name (name : Name) {r : List Char}
    (h : ∀ c ∈ r.head?, isSpace c = true ∨ c = '>' ∨ c = '/') :
    (name.written ++ r).takeWhile (fun c => !isSpace c && c ≠ '>' && c ≠ '/') = name.written := by
  have hname : ∀ c ∈ name.written, (!isSpace c && c ≠ '>' && c ≠ '/') = true := by
    intro c hc
    obtain ⟨hspace, hnot⟩ := written_facts hc
    have hgt : c ≠ '>' := fun h => hnot (by rw [h]; decide)
    have hslash : c ≠ '/' := fun h => hnot (by rw [h]; decide)
    simp [hspace, hgt, hslash]
  rw [List.takeWhile_append_of_pos hname]
  cases r with
  | nil => exact List.append_nil _
  | cons c r =>
    have hstop : ¬ (!isSpace c && c ≠ '>' && c ≠ '/') = true := by
      rcases h c rfl with hc | hc | hc
      all_goals simp [hc]
    rw [List.takeWhile_cons, if_neg hstop, List.append_nil]

/-- What follows the name in a start tag. -/
def StartTag.rest (tag : StartTag) (empty : Bool) : List Char :=
  tag.attrs.flatMap Attr.written ++ tag.space.chars ++ closing empty

theorem start_eq (tag : StartTag) (empty : Bool) : tag.written ++ closing empty = tag.name.written ++
    tag.rest empty := by
  simp only [StartTag.written, StartTag.rest, List.append_assoc]

theorem rest_head (tag : StartTag) (empty : Bool) : ∀ c ∈ (tag.rest empty).head?, isSpace c = true ∨
    c = '>' ∨ c = '/' := by
  have hwhite : ∀ (space : White) (r : List Char), space.chars ≠ [] → ∀ c ∈ (space.chars ++ r).head?,
      isSpace c = true ∨ c = '>' ∨ c = '/' := by
    intro space r hne c hc
    rw [List.head?_append_of_ne_nil _ hne] at hc
    exact .inl (isSpace_of_isWhite (space.white c (List.mem_of_mem_head? hc)))
  rw [StartTag.rest]
  rcases tag.attrs with _ | ⟨a, attrs⟩
  · by_cases hspace : tag.space.chars = []
    · rw [hspace]
      cases empty
      all_goals simp [closing]
    · exact hwhite tag.space _ hspace
  · simp only [List.flatMap_cons, Attr.written, List.append_assoc]
    exact hwhite a.space _ a.separated

/-- The first `>` of a start tag. -/
theorem exists_gt (tag : StartTag) (empty : Bool) : ∃ v l, tag.rest empty = v ++ '>' :: l ∧ '>' ∉ v ∧
    '<' ∉ l ∧ tag.visible empty = tag.name.written ++ v := by
  have hmem : '>' ∈ tag.rest empty := by
    refine List.mem_append_right _ ?_
    cases empty
    all_goals decide
  obtain ⟨v, l, hrest, hv⟩ := List.eq_append_cons_of_mem hmem
  refine ⟨v, l, hrest, hv, fun hl => ?_, ?_⟩
  · have hnot : '<' ∉ tag.written ++ closing empty := not_lt_start
    rw [start_eq, hrest] at hnot
    exact hnot (List.mem_append_right _ (List.mem_append_right _ (List.mem_cons_of_mem _ hl)))
  · have hname : ∀ c ∈ tag.name.written, decide (c ≠ '>') = true := fun c hc =>
      decide_eq_true fun h => (written_facts hc).2 (by rw [h]; decide)
    have hbefore : ∀ c ∈ v, decide (c ≠ '>') = true := fun c hc => decide_eq_true fun h => hv (h ▸ hc)
    rw [StartTag.visible, start_eq, hrest, List.takeWhile_append_of_pos hname,
      List.takeWhile_append_of_pos hbefore, List.takeWhile_cons_of_neg (by simp), List.append_nil]

theorem matchTag_start (tag : StartTag) (empty : Bool) (more : List Char) : ∃ left, '<' ∉ left ∧
    matchTag (tag.written ++ closing empty ++ more) = some (tag.seen empty, left ++ more) := by
  obtain ⟨v, l, hrest, hv, hl, hvisible⟩ := exists_gt tag empty
  refine ⟨l, hl, ?_⟩
  have hopen : ¬ (tag.name.written ++ (tag.rest empty ++ more)).head? = some '/' := by
    rw [List.head?_append_of_ne_nil _ (written_ne_nil _)]
    exact fun h => (written_facts (List.mem_of_mem_head? h)).2 (by decide)
  have hhead : ∀ c ∈ (tag.rest empty ++ more).head?, isSpace c = true ∨ c = '>' ∨ c = '/' := by
    intro c hc
    refine rest_head tag empty c ?_
    rw [List.head?_append_of_ne_nil _ (by rw [hrest]; simp)] at hc
    exact hc
  rw [start_eq, List.append_assoc, matchTag]
  simp only [decide_eq_false hopen, if_neg hopen, List.drop_zero]
  rw [takeWhile_name tag.name hhead, if_neg (written_ne_nil _), List.drop_left, hrest,
    List.append_assoc, List.cons_append, breakOn_mark hv]
  simp [StartTag.seen, hvisible]

theorem matchTag_stop (name : Name) (space : White) (more : List Char) :
    matchTag ('/' :: (name.written ++ space.chars ++ ['>']) ++ more) =
      some (⟨'<' :: '/' :: (name.written ++ space.chars ++ ['>']), name.written, false, true⟩, more) := by
  have hhead : ∀ c ∈ (space.chars ++ '>' :: more).head?, isSpace c = true ∨ c = '>' ∨ c = '/' := by
    intro c hc
    by_cases hspace : space.chars = []
    · rw [hspace] at hc
      exact .inr (.inl (Option.some.inj hc).symm)
    · rw [List.head?_append_of_ne_nil _ hspace] at hc
      exact .inl (isSpace_of_isWhite (space.white c (List.mem_of_mem_head? hc)))
  have hgt : '>' ∉ space.chars := fun h => not_lt_of_mem_white h (by decide)
  have hslash : space.chars.getLast? ≠ some '/' :=
    fun h => not_lt_of_mem_white (List.mem_of_getLast? h) (by decide)
  have htext : '/' :: (name.written ++ space.chars ++ ['>']) ++ more = '/' ::
      (name.written ++ (space.chars ++ '>' :: more)) := by simp
  rw [htext, matchTag]
  simp only [List.head?_cons, decide_true, if_true, List.drop_one, List.tail_cons]
  rw [takeWhile_name name hhead, if_neg (written_ne_nil _), List.drop_left, breakOn_mark hgt]
  simp [hslash]

/-- A match takes something. -/
theorem matchTag_length {s rest : List Char} {m : TagMatch} (h : matchTag s = some (m, rest)) :
    rest.length ≤ s.length := by
  rw [matchTag] at h
  split_ifs at h
  all_goals
    obtain ⟨p, hp, heq⟩ := Option.map_eq_some_iff.1 h
    obtain ⟨-, rfl⟩ := Prod.mk.inj heq
    have hlength := congrArg List.length (breakOn_eq_some hp)
    simp only [List.length_drop, List.length_append] at hlength
    omega

end Seen

/-! ### All the tags -/

theorem tagMatches_skip {junk : List Char} (h : '<' ∉ junk) (s : List Char) {fuel : Nat}
    (hfuel : (junk ++ s).length ≤ fuel) :
    ∃ left, s.length ≤ left ∧ tagMatches fuel (junk ++ s) = tagMatches left s := by
  induction junk generalizing fuel with
  | nil => exact ⟨fuel, hfuel, rfl⟩
  | cons c junk ih =>
    obtain ⟨hc, hjunk⟩ := not_or.1 (mt List.mem_cons.2 h)
    obtain ⟨fuel, rfl⟩ : ∃ n, fuel = n + 1 := Nat.exists_eq_succ_of_ne_zero (by simp at hfuel; omega)
    rw [List.cons_append, tagMatches, if_neg (Ne.symm hc)]
    exact ih hjunk (by simpa using hfuel)

/-- The expression finds each tag as it is seen, whatever stands before the first. -/
theorem tagMatches_written {junk : List Char} (h : '<' ∉ junk) (tokens : List Token) {fuel : Nat}
    (hfuel : (junk ++ written tokens).length ≤ fuel) :
    tagMatches fuel (junk ++ written tokens) = tokens.filterMap Token.seen := by
  induction tokens generalizing junk fuel with
  | nil =>
    obtain ⟨left, -, hskip⟩ := tagMatches_skip h (written []) hfuel
    rw [hskip]
    cases left <;> rfl
  | cons token tokens ih =>
    have hwritten : written (token :: tokens) = token.written ++ written tokens := List.flatMap_cons
    rw [hwritten] at hfuel ⊢
    cases token with
    | text cs =>
      rw [← List.append_assoc] at hfuel ⊢
      refine ih (fun hmem => ?_) hfuel
      rcases List.mem_append.1 hmem with hmem | hmem
      · exact h hmem
      · exact (mem_escape hmem).1 rfl
    | start tag empty =>
      obtain ⟨left, hlength, hskip⟩ := tagMatches_skip h _ hfuel
      rw [hskip]
      rw [Token.written, List.cons_append] at hlength ⊢
      obtain ⟨rest, hrest, hmatch⟩ := matchTag_start tag empty (written tokens)
      obtain ⟨fuel', rfl⟩ : ∃ n, left = n + 1 := Nat.exists_eq_succ_of_ne_zero (by simp at hlength; omega)
      have hfits : (rest ++ written tokens).length ≤ fuel' := by
        have hsplit := matchTag_length hmatch
        rw [List.length_cons] at hlength
        omega
      rw [tagMatches, if_pos rfl, hmatch]
      exact congrArg (tag.seen empty :: ·) (ih hrest hfits)
    | stop name space =>
      obtain ⟨left, hlength, hskip⟩ := tagMatches_skip h _ hfuel
      rw [hskip]
      rw [Token.written, List.cons_append] at hlength ⊢
      obtain ⟨fuel', rfl⟩ : ∃ n, left = n + 1 := Nat.exists_eq_succ_of_ne_zero (by simp at hlength; omega)
      have hfits : ([] ++ written tokens).length ≤ fuel' := by
        simp only [List.length_cons, List.length_append, List.nil_append] at hlength ⊢
        omega
      rw [tagMatches, if_pos rfl, matchTag_stop]
      exact congrArg (_ :: ·) (ih List.not_mem_nil hfits)

/-! ### The names on the stack -/

section Walks

variable {stack : List (List Char)} {tokens before after : List Token}

/-- The tag is seen as it was meant. -/
def Token.Right : Token → Prop
  | .start tag empty => (tag.seen empty).selfClose = empty ∧ isTopicTag (tag.seen empty).full = tag.isTopic
  | _ => True

instance : ∀ token : Token, Decidable token.Right
  | .start tag empty =>
    inferInstanceAs (Decidable ((tag.seen empty).selfClose = empty ∧
      isTopicTag (tag.seen empty).full = tag.isTopic))
  | .text _ | .stop _ _ => .isTrue trivial

def Token.isTopic : Token → Bool
  | .start tag _ => tag.isTopic
  | _ => false

/-- The stack after some tags, and the topics found on the way. -/
def pushed (stack : List (List Char)) : Token → List (List Char)
  | .text _ => stack
  | .start tag empty => if empty then stack else stack ++ [tag.name.localPart.chars]
  | .stop _ _ => stack.dropLast

/-- The topic a token declares under the open elements. -/
def topicOf (stack : List (List Char)) : Token → List (List Char)
  | .start tag _ => if tag.isTopic then [topicPath (stack ++ [tag.name.localPart.chars])] else []
  | _ => []

/-- The topics of the tokens, along the stack of open elements. -/
def topicsFrom : List (List Char) → List Token → List (List Char)
  | _, [] => []
  | stack, token :: tokens => topicOf stack token ++ topicsFrom (pushed stack token) tokens

theorem localName_written (name : Name) : localName name.written = name.localPart.chars := by
  have hpart : ∀ part : NcName, ':' ∉ part.chars :=
    fun part h => (isNameChar_facts (part.named _ h)).2 (by decide)
  rcases name with ⟨_ | ns, localPart⟩
  · rw [localName, Name.written, Option.elim_none, List.nil_append, splitOn_self (hpart localPart)]
    rfl
  · rw [localName, Name.written, Option.elim_some, List.append_assoc, List.singleton_append,
      splitOn_append (hpart ns), splitOn_self (hpart localPart)]
    rfl

theorem walk_right (h : ∀ token ∈ tokens, token.Right) :
    walk stack (tokens.filterMap Token.seen) = topicsFrom stack tokens := by
  induction tokens generalizing stack with
  | nil => rfl
  | cons token tokens ih =>
    obtain ⟨hright, htokens⟩ := List.forall_mem_cons.1 h
    cases token with
    | text cs => exact ih htokens
    | start tag empty =>
      obtain ⟨hself, htopic⟩ := hright
      have hopen : ¬ (tag.seen empty).isClose = true := Bool.false_ne_true
      have hname : (tag.seen empty).tagName = tag.name.written := rfl
      show walk stack (tag.seen empty :: tokens.filterMap Token.seen) = _
      rw [walk, if_neg hopen, hself, htopic, hname, localName_written]
      dsimp only
      rw [List.dropLast_concat, ih htokens]
      rfl
    | stop name space =>
      show walk stack (⟨_, _, false, true⟩ :: tokens.filterMap Token.seen) = _
      rw [walk, if_pos rfl, ih htokens]
      rfl

theorem topicsFrom_append : topicsFrom stack (before ++ after) = topicsFrom stack before ++
    topicsFrom (before.foldl pushed stack) after := by
  induction before generalizing stack with
  | nil => rfl
  | cons token before ih =>
    rw [List.cons_append, topicsFrom, topicsFrom, ih, List.append_assoc]
    rfl

mutual

theorem foldl_node (stack : List (List Char)) : ∀ node : Node, node.tokens.foldl pushed stack = stack
  | .text _ => by rw [Node.tokens]; rfl
  | .empty _ => by rw [Node.tokens]; rfl
  | .pair tag children space => by
    rw [Node.tokens, List.foldl_cons, List.foldl_append, foldl_nodes]
    exact List.dropLast_concat

theorem foldl_nodes (stack : List (List Char)) :
    ∀ nodes : List Node, (tokensOf nodes).foldl pushed stack = stack
  | [] => by rw [tokensOf]; rfl
  | node :: nodes => by rw [tokensOf, List.foldl_append, foldl_node, foldl_nodes]

end

mutual

theorem topicsFrom_node (stack : List (List Char)) :
    ∀ node : Node, topicsFrom stack node.tokens = node.topics stack
  | .text _ => by rw [Node.tokens, Node.topics]; rfl
  | .empty tag => by
    rw [Node.tokens, Node.topics, topicsFrom, topicsFrom, List.append_nil]
    rfl
  | .pair tag children space => by
    rw [Node.tokens, Node.topics, topicsFrom, topicsFrom_append]
    show _ ++ (topicsFrom (stack ++ [tag.name.localPart.chars]) (tokensOf children) ++ []) = _
    rw [topicsFrom_nodes, List.append_nil]
    rfl

theorem topicsFrom_nodes (stack : List (List Char)) : ∀ nodes : List Node, topicsFrom stack
    (tokensOf nodes) = topicsOf stack nodes
  | [] => by rw [tokensOf, topicsOf]; rfl
  | node :: nodes =>
    by rw [tokensOf, topicsOf, topicsFrom_append, foldl_node, topicsFrom_node, topicsFrom_nodes]

end

theorem topicsFrom_eq_nil : topicsFrom stack tokens = [] ↔ ∀ token ∈ tokens, token.isTopic = false := by
  induction tokens generalizing stack with
  | nil => simp [topicsFrom]
  | cons token tokens ih =>
    rw [topicsFrom, List.append_eq_nil_iff, ih, List.forall_mem_cons]
    refine and_congr_left fun _ => ?_
    cases token with
    | text cs => simp [topicOf, Token.isTopic]
    | start tag empty =>
      rw [topicOf, Token.isTopic]
      cases tag.isTopic <;> simp
    | stop name space => simp [topicOf, Token.isTopic]

end Walks

/-! ### What the first expression takes -/

/-- The tags before the first end tag that is taken for the end of the set. -/
def kept : List Token → List Char → List Token
  | [], _ => []
  | .stop name space :: tokens, ending =>
    if closesAt (written (.stop name space :: tokens) ++ ending) then []
    else .stop name space :: kept tokens ending
  | token :: tokens, ending => token :: kept tokens ending

/-- The tokens the section expression leaves out. -/
def lost (tokens : List Token) (ending : List Char) : List Token := tokens.drop (kept tokens ending).length

section Takes

variable {u r : List Char}

theorem kept_isPrefix (tokens : List Token) (ending : List Char) : kept tokens ending <+: tokens := by
  induction tokens with
  | nil => exact List.prefix_rfl
  | cons token tokens ih =>
    cases token with
    | text cs => exact (List.prefix_cons_inj _).2 ih
    | start tag empty => exact (List.prefix_cons_inj _).2 ih
    | stop name space =>
      rw [kept]
      split_ifs
      · exact List.nil_prefix
      · exact (List.prefix_cons_inj _).2 ih

theorem kept_append_lost (tokens : List Token) (ending : List Char) :
    kept tokens ending ++ lost tokens ending = tokens :=
  List.prefix_iff_eq_append.1 (kept_isPrefix tokens ending)

theorem ahead_eq (hu : ':' ∉ u) : ahead (u ++ ':' :: r) =
    (List.range (u.length + 1)).reverse.flatMap fun k => optionalColon ((u ++ ':' :: r).drop k) := by
  have hall : ∀ c ∈ u, decide (c ≠ ':') = true := fun c hc => decide_eq_true fun h => hu (h ▸ hc)
  rw [ahead, List.takeWhile_append_of_pos hall, List.takeWhile_cons, if_neg (by simp), List.append_nil]

/-- What can be left of text with a colon is the text after the colon, or begins in the text before it. -/
theorem mem_ahead (hu : ':' ∉ u) {rest : List Char} (h : rest ∈ ahead (u ++ ':' :: r)) :
    rest = r ∨ ∃ v, v <:+ u ∧ rest = v ++ ':' :: r := by
  rw [ahead_eq hu] at h
  obtain ⟨k, hk, hrest⟩ := List.mem_flatMap.1 h
  have hle : k ≤ u.length := Nat.lt_succ_iff.1 (List.mem_range.1 (List.mem_reverse.1 hk))
  rw [List.drop_append_of_le_length hle] at hrest
  have hsuffix := List.drop_suffix k u
  rcases hv : u.drop k with _ | ⟨c, v⟩
  · rw [hv] at hrest
    rcases List.mem_cons.1 hrest with rfl | hrest
    · exact .inl rfl
    · exact .inr ⟨[], List.nil_suffix, List.mem_singleton.1 hrest⟩
  · rw [hv] at hrest hsuffix
    have hc : c ≠ ':' := fun h => hu (h ▸ hsuffix.subset (List.mem_cons_self ..))
    rw [List.cons_append, optionalColon, if_neg hc] at hrest
    exact .inr ⟨c :: v, hsuffix, List.mem_singleton.1 hrest⟩

theorem ahead_cons (hu : ':' ∉ u) : ∃ others, ahead (u ++ ':' :: r) = r :: others := by
  rw [ahead_eq hu, List.range_succ, List.reverse_append, List.reverse_singleton, List.singleton_append,
    List.flatMap_cons, List.drop_left]
  exact ⟨_, rfl⟩

theorem topicSet_facts : '<' ∉ topicSet ∧ ':' ∉ topicSet ∧ topicSet ≠ [] := by decide

theorem openings_here (hu : ':' ∉ u) {v l : List Char} (h : breakOn ['>'] r = some (v, l)) :
    ∃ others, openings (u ++ ':' :: (topicSet ++ r)) = l :: others := by
  obtain ⟨others, hothers⟩ := ahead_cons hu (r := topicSet ++ r)
  rw [openings, hothers, List.filterMap_cons, if_pos (List.prefix_append ..), List.drop_left, h]
  exact ⟨_, rfl⟩

/-- A tag with a colon is not taken for the beginning of the set, when its text is not. -/
theorem openings_none (hu : ':' ∉ u) (hquiet : ¬ topicSet <:+: u) {w more : List Char}
    (hw : ¬ topicSet <+: w) :
    openings (u ++ ':' :: (w ++ '<' :: more)) = [] := by
  rw [openings, List.filterMap_eq_nil_iff]
  intro rest hrest
  have hnot : ¬ topicSet <+: rest := by
    intro hstart
    rcases mem_ahead hu hrest with rfl | ⟨v, hv, rfl⟩
    · exact hw (prefix_of_prefix_over topicSet_facts.1 hstart)
    · exact hquiet ((prefix_of_prefix_over topicSet_facts.2.1 hstart).isInfix.trans hv.isInfix)
  rw [if_neg hnot]

theorem lazyContent_skip (hu : '<' ∉ u) : lazyContent (u ++ r) = (lazyContent r).map (u ++ ·) := by
  induction u with
  | nil => simp
  | cons c u ih =>
    obtain ⟨hc, hu⟩ := not_or.1 (mt List.mem_cons.2 hu)
    have hopen : ¬ closesAt (c :: (u ++ r)) := fun h => hc (List.cons_prefix_cons.1 h.1).1
    rw [List.cons_append, lazyContent, if_neg hopen, ih hu, Option.map_map]
    rfl

theorem lazyContent_tag {s content : List Char} (hu : '<' ∉ u) (hopen : ¬ closesAt ('<' :: (u ++ s)))
    (h : lazyContent s = some content) :
    lazyContent ('<' :: u ++ s) = some ('<' :: u ++ content) := by
  rw [List.cons_append, lazyContent, if_neg hopen, lazyContent_skip hu, h]
  rfl

/-- The text of the set goes to the first end tag that is taken for its own. -/
theorem lazyContent_written {ending : List Char} (hend : closesAt ending) (tokens : List Token) :
    lazyContent (written tokens ++ ending) = some (written (kept tokens ending)) := by
  induction tokens with
  | nil =>
    cases ending with
    | nil => exact absurd (List.prefix_nil.1 hend.1) (by decide)
    | cons c s =>
      show lazyContent (c :: s) = some []
      rw [lazyContent, if_pos hend]
  | cons token tokens ih =>
    have hwritten : ∀ tokens, written (token :: tokens) = token.written ++ written tokens :=
      fun _ => List.flatMap_cons
    cases token with
    | text cs =>
      have hskip : '<' ∉ (Token.text cs).written := fun h => (mem_escape h).1 rfl
      rw [kept, hwritten, hwritten, List.append_assoc, lazyContent_skip hskip, ih]
      rfl
      all_goals simp
    | start tag empty =>
      have hopen : ¬ closesAt ('<' :: (tag.written ++ closing empty ++ (written tokens ++ ending))) := by
        rintro ⟨hstart, -⟩
        rw [start_eq, List.append_assoc] at hstart
        obtain ⟨c, cs, hc⟩ := List.exists_cons_of_ne_nil (written_ne_nil tag.name)
        have hslash : '/' ∉ tag.name.written := fun h => (written_facts h).2 (by decide)
        rw [hc] at hstart hslash
        exact hslash ((List.cons_prefix_cons.1 (List.cons_prefix_cons.1 hstart).2).1 ▸ List.mem_cons_self ..)
      rw [kept, hwritten, hwritten, List.append_assoc]
      exact lazyContent_tag not_lt_start hopen ih
      all_goals simp
    | stop name space =>
      have hskip : '<' ∉ '/' :: (name.written ++ space.chars ++ ['>']) := by
        simp only [List.mem_cons, List.mem_append, List.not_mem_nil, or_false, not_or]
        exact ⟨by decide, ⟨fun h => (written_facts h).2 (by decide),
          fun h => not_lt_of_mem_white h (by decide)⟩, by decide⟩
      rw [kept]
      split_ifs with hclose
      · rw [hwritten] at hclose ⊢
        exact (if_pos hclose : lazyContent ('<' :: _) = some [])
      · rw [hwritten] at hclose
        rw [hwritten, hwritten, List.append_assoc]
        exact lazyContent_tag hskip (by simpa [Token.written] using hclose) ih

theorem topicSetMatch_tag {v l content : List Char} {lead : List Char} (hlead : Quiet lead)
    (hu : ':' ∉ u) (hr : breakOn ['>'] r = some (v, l))
    (hl : lazyContent l = some content) :
    topicSetMatch (lead ++ '<' :: (u ++ ':' :: (topicSet ++ r))) = some content := by
  have hhere : ∀ {u}, ':' ∉ u →
      (openings (u ++ ':' :: (topicSet ++ r))).findSome? lazyContent = some content := by
    intro u hu
    obtain ⟨others, hothers⟩ := openings_here hu hr
    rw [hothers, List.findSome?_cons, hl]
  induction lead with
  | nil =>
    rw [List.nil_append, topicSetMatch, if_pos rfl, hhere hu]
    rfl
  | cons c lead ih =>
    have hrest := ih fun before after heq => hlead (c :: before) after (by rw [heq, List.cons_append])
    rw [List.cons_append, topicSetMatch]
    split_ifs with hc
    · subst hc
      obtain ⟨hquiet, hnext⟩ := hlead [] lead rfl
      by_cases hcolon : ':' ∈ lead
      · obtain ⟨a, w, rfl, ha⟩ := List.eq_append_cons_of_mem hcolon
        have hall : ∀ c ∈ a, decide (c ≠ ':') = true := fun c hc => decide_eq_true fun h => ha (h ▸ hc)
        rw [List.takeWhile_append_of_pos hall, List.takeWhile_cons, if_neg (by simp),
          List.append_nil] at hquiet
        rw [List.dropWhile_append_of_pos hall, List.dropWhile_cons, if_neg (by simp),
          List.cons_prefix_cons, not_and] at hnext
        have hnone : openings (a ++ ':' :: w ++ '<' :: (u ++ ':' :: (topicSet ++ r))) = [] := by
          rw [List.append_assoc, List.cons_append]
          exact openings_none ha hquiet (hnext rfl)
        rw [hnone, hrest]
        rfl
      · have hwhole : ':' ∉ lead ++ '<' :: u := by simp [hcolon, hu]
        rw [← List.cons_append, ← List.append_assoc, hhere hwhole]
        rfl
    · rw [hrest]
      rfl

end Takes

/-! ### What is found -/

section Found

variable {d : Document}

theorem getTopics_eq (d : Document) :
    getTopics d.xml = walk [] ((kept (tokensOf d.nodes) d.ending).filterMap Token.seen) := by
  have hnot : '<' ∉ d.attrs.flatMap Attr.written ++ d.space.chars ++ ['>'] := by
    simp only [List.mem_append, not_or]
    exact ⟨⟨not_lt_attrs, fun h => not_lt_of_mem_white h (by decide)⟩, by decide⟩
  obtain ⟨v, l, hsplit, hv⟩ := List.eq_append_cons_of_mem
    (List.mem_append_right (d.attrs.flatMap Attr.written ++ d.space.chars) (List.mem_singleton_self '>'))
  have hl : '<' ∉ l := fun h => hnot (hsplit ▸ List.mem_append_right _ (List.mem_cons_of_mem _ h))
  have hns : ':' ∉ d.ns.chars := fun h => (isNameChar_facts (d.ns.named _ h)).2 (by decide)
  have hend : closesAt d.ending := by
    obtain ⟨others, hothers⟩ := ahead_cons hns (r := topicSet ++ '>' :: d.tail)
    refine ⟨⟨_, rfl⟩, topicSet ++ '>' :: d.tail, ?_, ?_⟩
    · rw [Document.ending]
      show _ ∈ ahead (d.ns.chars ++ ':' :: (topicSet ++ '>' :: d.tail))
      rw [hothers]
      exact List.mem_cons_self ..
    · exact ⟨d.tail, by simp⟩
  have hcontent : lazyContent (l ++ (written (tokensOf d.nodes) ++ d.ending)) =
      some (l ++ written (kept (tokensOf d.nodes) d.ending)) := by
    rw [lazyContent_skip hl, lazyContent_written hend]
    rfl
  have hbreak : breakOn ['>'] (d.attrs.flatMap Attr.written ++ d.space.chars ++ ['>'] ++
    (written (tokensOf d.nodes) ++ d.ending)) =
      some (v, l ++ (written (tokensOf d.nodes) ++ d.ending)) := by
    rw [hsplit, List.append_assoc, List.cons_append]
    exact breakOn_mark hv _
  have hmatch : topicSetMatch d.xml = some (l ++ written (kept (tokensOf d.nodes) d.ending)) := by
    rw [← topicSetMatch_tag d.quiet hns hbreak hcontent, Document.xml]
    simp only [List.append_assoc]
  rw [getTopics, hmatch]
  exact congrArg (walk []) (tagMatches_written hl _ (Nat.le_refl _))

/-- Every tag that is kept is seen as it was meant. -/
def Document.Right (d : Document) : Prop := ∀ token ∈ kept (tokensOf d.nodes) d.ending, token.Right

/-- No topic comes after an end tag that is taken for the end of the set. -/
def Document.Whole (d : Document) : Prop := ∀ token ∈ lost (tokensOf d.nodes) d.ending, token.isTopic = false

/-- No attribute value of an element has a `>`. -/
def Document.NoGt (d : Document) : Prop := ∀ tag empty, Token.start tag empty ∈ tokensOf d.nodes →
  ∀ a ∈ tag.attrs, '>' ∉ a.value

theorem topics_eq (d : Document) : d.topics = topicsFrom [] (kept (tokensOf d.nodes) d.ending) ++
    topicsFrom ((kept (tokensOf d.nodes) d.ending).foldl pushed []) (lost (tokensOf d.nodes) d.ending) := by
  rw [← topicsFrom_append, kept_append_lost, topicsFrom_nodes]
  rfl

theorem right_iff_whole (h : d.Right) : getTopics d.xml = d.topics ↔ d.Whole := by
  rw [getTopics_eq, walk_right h, topics_eq, List.self_eq_append_right, topicsFrom_eq_nil]
  rfl

theorem not_gt_written {tag : StartTag} (h : ∀ a ∈ tag.attrs, '>' ∉ a.value) : '>' ∉ tag.written := by
  have hescape : ∀ cs, '>' ∉ cs → '>' ∉ escape cs := by
    intro cs hcs hmem
    obtain ⟨c, hc, hgt⟩ := List.mem_flatMap.1 hmem
    unfold escapeChar at hgt
    split_ifs at hgt
    · exact absurd hgt (by decide)
    · exact absurd hgt (by decide)
    · exact absurd hgt (by decide)
    · exact hcs (List.mem_singleton.1 hgt ▸ hc)
  simp only [StartTag.written, List.mem_append, not_or]
  refine ⟨⟨fun h => (written_facts h).2 (by decide), fun hmem => ?_⟩,
    fun h => not_lt_of_mem_white h (by decide)⟩
  obtain ⟨a, ha, hwritten⟩ := List.mem_flatMap.1 hmem
  simp only [Attr.written, List.mem_append, List.mem_cons, List.not_mem_nil, or_false] at hwritten
  rcases hwritten with (hmem | hmem) | hmem | hmem | hmem | hmem
  · exact not_lt_of_mem_white hmem (by decide)
  · exact (written_facts hmem).2 (by decide)
  · cases hmem
  · cases hmem
  · exact hescape _ (h a ha) hmem
  · cases hmem

/-- Without `>` in its values a tag is seen whole. -/
theorem visible_eq {tag : StartTag} (h : ∀ a ∈ tag.attrs, '>' ∉ a.value) (empty : Bool) :
    tag.visible empty = tag.written ++ if empty then ['/'] else [] := by
  have hall : ∀ c ∈ tag.written, decide (c ≠ '>') = true := fun c hc => decide_eq_true fun hgt =>
    not_gt_written h (hgt ▸ hc)
  rw [StartTag.visible, List.takeWhile_append_of_pos hall]
  cases empty <;> rfl

theorem selfClose_eq {tag : StartTag} (h : ∀ a ∈ tag.attrs, '>' ∉ a.value) (empty : Bool) :
    (tag.seen empty).selfClose = empty := by
  have hdrop : (tag.visible empty).drop tag.name.written.length =
      tag.attrs.flatMap Attr.written ++ tag.space.chars ++ if empty then ['/'] else [] := by
    rw [visible_eq h, StartTag.written, List.append_assoc, List.append_assoc, List.drop_left,
      List.append_assoc]
  rw [StartTag.seen]
  dsimp only
  rw [hdrop]
  cases empty with
  | true => simp
  | false =>
    refine decide_eq_false fun hlast => ?_
    rw [if_neg Bool.false_ne_true, List.append_nil] at hlast
    by_cases hspace : tag.space.chars = []
    · rw [hspace, List.append_nil] at hlast
      rcases List.eq_nil_or_concat tag.attrs with hattrs | ⟨attrs, a, hattrs⟩
      · rw [hattrs] at hlast
        cases hlast
      · obtain ⟨before, hbefore⟩ : ∃ before, a.written = before ++ ['"'] :=
          ⟨a.space.chars ++ a.name.written ++ '=' :: '"' :: escape a.value, by simp [Attr.written]⟩
        rw [hattrs, List.concat_eq_append, List.flatMap_append, List.flatMap_singleton, hbefore,
          ← List.append_assoc, List.getLast?_concat] at hlast
        exact absurd hlast (by decide)
    · rw [List.getLast?_append_of_ne_nil _ hspace] at hlast
      exact not_lt_of_mem_white (List.mem_of_getLast? hlast) (by decide)

/-- A topic is seen as one. -/
theorem isTopicTag_of_isTopic {tag : StartTag} (h : ∀ a ∈ tag.attrs, '>' ∉ a.value) (empty : Bool)
    (htopic : tag.isTopic = true) :
    isTopicTag (tag.seen empty).full = true := by
  rw [StartTag.isTopic, List.any_eq_true] at htopic
  obtain ⟨a, ha, hname⟩ := htopic
  simp only [Bool.and_eq_true, decide_eq_true_eq] at hname
  obtain ⟨hlocal, hvalue⟩ := hname
  have hattr : "topic=\"true\"".toList <:+: a.written := by
    rw [Attr.written, hvalue, Name.written, hlocal]
    exact ⟨a.space.chars ++ a.name.ns.elim [] fun ns => ns.chars ++ [':'], [], by simp [escape, escapeChar]⟩
  have hfull : a.written <:+: (tag.seen empty).full := by
    obtain ⟨before, after, hattrs⟩ := List.append_of_mem ha
    refine ⟨'<' :: (tag.name.written ++ before.flatMap Attr.written),
      after.flatMap Attr.written ++ tag.space.chars ++ (if empty then ['/'] else []) ++ ['>'], ?_⟩
    rw [StartTag.seen]
    dsimp only
    rw [visible_eq h, StartTag.written, hattrs]
    simp
  unfold isTopicTag
  rw [Bool.or_eq_true, decide_eq_true_eq]
  exact .inl (hattr.trans hfull)

/-- The matched tag says `topic="true"`. -/
def Token.seenTopic : Token → Bool
  | .start tag empty => isTopicTag (tag.seen empty).full
  | _ => false

theorem length_walk (stack : List (List Char)) (tokens : List Token) :
    (walk stack (tokens.filterMap Token.seen)).length = tokens.countP Token.seenTopic := by
  induction tokens generalizing stack with
  | nil => rfl
  | cons token tokens ih =>
    cases token with
    | text cs => exact (ih stack).trans (List.countP_cons_of_neg Bool.false_ne_true).symm
    | start tag empty =>
      have hopen : ¬ (tag.seen empty).isClose = true := Bool.false_ne_true
      show (walk stack (tag.seen empty :: tokens.filterMap Token.seen)).length = _
      rw [walk, if_neg hopen, List.countP_cons]
      dsimp only
      rw [List.length_append, ih, Token.seenTopic]
      split_ifs <;> simp [Nat.add_comm]
    | stop name space =>
      show (walk stack (⟨_, _, false, true⟩ :: tokens.filterMap Token.seen)).length = _
      rw [walk, if_pos rfl, ih]
      exact (List.countP_cons_of_neg Bool.false_ne_true).symm

theorem length_topicsFrom (stack : List (List Char)) (tokens : List Token) :
    (topicsFrom stack tokens).length = tokens.countP Token.isTopic := by
  induction tokens generalizing stack with
  | nil => rfl
  | cons token tokens ih =>
    rw [topicsFrom, List.length_append, ih, List.countP_cons, Nat.add_comm]
    congr 1
    cases token with
    | text cs => rfl
    | start tag empty =>
      rw [topicOf, Token.isTopic]
      split_ifs <;> rfl
    | stop name space => rfl

/-- Where one property implies another and as many have the one as the other, they are had by the same. -/
theorem agree_of_countP {α : Type*} {p q : α → Bool} {l : List α}
    (hpq : ∀ a ∈ l, p a = true → q a = true) (h : l.countP p = l.countP q) :
    ∀ a ∈ l, q a = p a := by
  induction l with
  | nil => simp
  | cons a l ih =>
    obtain ⟨ha, hl⟩ := List.forall_mem_cons.1 hpq
    have hle : l.countP p ≤ l.countP q := List.countP_mono_left hl
    rw [List.countP_cons, List.countP_cons] at h
    rcases hp : p a with _ | _
    · rcases hq : q a with _ | _
      · rw [hp, hq] at h
        exact List.forall_mem_cons.2 ⟨hq.trans hp.symm, ih hl (by simpa using h)⟩
      · rw [hp, hq] at h
        simp at h
        omega
    · rw [hp, ha hp] at h
      exact List.forall_mem_cons.2 ⟨(ha hp).trans hp.symm, ih hl (by simpa using h)⟩

theorem right_of_topics (hgt : d.NoGt) (hwhole : d.Whole) (h : getTopics d.xml = d.topics) : d.Right := by
  have hmem : ∀ token ∈ kept (tokensOf d.nodes) d.ending, token ∈ tokensOf d.nodes :=
    fun token htoken => (kept_isPrefix _ _).subset htoken
  have hlost : topicsFrom ((kept (tokensOf d.nodes) d.ending).foldl pushed [])
      (lost (tokensOf d.nodes) d.ending) = [] :=
    topicsFrom_eq_nil.2 hwhole
  have hlength := congrArg List.length h
  rw [getTopics_eq, length_walk, topics_eq, hlost, List.append_nil, length_topicsFrom] at hlength
  have himp : ∀ token ∈ kept (tokensOf d.nodes) d.ending, token.isTopic = true → token.seenTopic = true := by
    intro token htoken htopic
    cases token with
    | text cs => cases htopic
    | start tag empty => exact isTopicTag_of_isTopic (hgt tag empty (hmem _ htoken)) empty htopic
    | stop name space => cases htopic
  have hagree := agree_of_countP himp hlength.symm
  intro token htoken
  cases token with
  | text cs => trivial
  | start tag empty => exact ⟨selfClose_eq (hgt tag empty (hmem _ htoken)) empty, hagree _ htoken⟩
  | stop name space => trivial

/-- The topics found are those of the tree when every tag is seen as it was meant and no topic is
cut off. Of trees whose tags are seen so, these are the only ones, and where no topic is cut off and
no attribute value has a `>`, every tag must be seen so. -/
theorem topics_exact (d : Document) : (d.Right ∧ d.Whole → getTopics d.xml = d.topics) ∧
    (getTopics d.xml = d.topics → (d.Right → d.Whole) ∧ (d.NoGt → d.Whole → d.Right)) :=
  ⟨fun ⟨hright, hwhole⟩ => (right_iff_whole hright).2 hwhole,
    fun h => ⟨fun hright => (right_iff_whole hright).1 h, fun hgt hwhole => right_of_topics hgt hwhole h⟩⟩

end Found

/-! ### A value with an angle bracket -/

def ncName (chars : List Char) (h : chars ≠ [] ∧ chars.all isNameChar = true) : NcName :=
  ⟨chars, h.1, List.all_eq_true.1 h.2⟩

def tns (localPart : NcName) : Name := ⟨some (ncName ['t'] (by decide)), localPart⟩

def noSpace : White := ⟨[], by simp⟩

def blank : White := ⟨[' '], List.all_eq_true.1 (by decide)⟩

def attrOf (name : Name) (value : String) : Attr := ⟨blank, by simp [blank], name, value.toList⟩

/-- `<t:A t:a=">"/><t:B t:topic="true"/>` in the set. -/
def bracketed : Document where
  lead := []
  quiet before after h := absurd h (by simp)
  ns := ncName ['w'] (by decide)
  attrs := []
  space := noSpace
  nodes :=
    [.empty ⟨tns (ncName ['A'] (by decide)), [attrOf (tns (ncName ['a'] (by decide))) ">"], noSpace⟩,
      .empty ⟨tns (ncName ['B'] (by decide)), [attrOf (tns (ncName "topic".toList (by decide))) "true"],
        noSpace⟩]
  tail := []

theorem topic_misplaced : getTopics bracketed.xml = ["tns1:A/B".toList] ∧
    bracketed.topics = ["tns1:B".toList] := by
  decide +kernel

end TopicSet
