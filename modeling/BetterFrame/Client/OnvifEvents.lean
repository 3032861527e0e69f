import Mathlib
import BetterFrame.Lib.Markup

/-!
# ONVIF notifications (onvif_events.rs)

`parse_notification_messages` finds the fields of a Notify body by searching for their names.
`parses_iff` says for which events, written the way cameras write them, it gives back what was sent.
-/

namespace OnvifEvents

open Search Tag
open Text (trimWhitespaceChars)

/-! ### The parser -/

/-- An event as the client reads it. -/
structure OnvifEvent where
  topic : String
  source : Std.ExtHashMap String String
  data : Std.ExtHashMap String String
  timestamp : Option String

def isAsciiWhitespace (c : Char) : Bool := c = ' ' || c = '\t' || c = '\n' || c = '\x0C' || c = '\r'

/-- `split_ascii_whitespace().next()` -/
def firstWord (s : List Char) : Option (List Char) :=
  let word := (s.dropWhile isAsciiWhitespace).takeWhile fun c => !isAsciiWhitespace c
  if word = [] then none else some word

/-- `rsplit_once(':')`, of which the second part. -/
def afterColon (name : List Char) : Option (List Char) :=
  if ':' ∈ name then some (name.reverse.takeWhile (· ≠ ':')).reverse else none

/-- The text of an element whose name is `tag` behind a prefix. -/
def elementText (tag element : List Char) : Option (List Char) :=
  (breakOn ['>'] element).bind fun (opening, content) =>
    (firstWord opening).bind fun name =>
      if ['/'] <+: name ∨ afterColon name ≠ some tag then none else some (trimWhitespaceChars content)

/-- The text of the first element of the name, whatever its prefix. -/
def extract_inner_text (xml tag : List Char) : Option (List Char) :=
  ((Text.splitOn '<' xml).drop 1).findSome? (elementText tag)

/-- What stands before the last `<`, or everything. -/
def beforeLast (slice : List Char) : List Char :=
  if '<' ∈ slice then (slice.reverse.dropWhile (· ≠ '<')).tail.reverse else slice

/-- The content up to the closing tag, with a prefix or without one. -/
def upToClosing (tag content : List Char) : Option (List Char) :=
  ["</".toList ++ tag ++ ['>'], ":".toList ++ tag ++ ['>']].findSome? fun end_pat =>
    (breakOn end_pat content).map fun (slice, _) => trimWhitespaceChars (beforeLast slice)

/-- The text of the first element opened by exactly this tag, or else by one with attributes. -/
def extract_tag (xml tag : List Char) : Option (List Char) :=
  match (breakOn ("<".toList ++ tag ++ ['>']) xml).bind fun (_, content) => upToClosing tag content with
  | some text => some text
  | none =>
    match breakOn ("<".toList ++ tag ++ [' ']) xml with
    | none => extract_inner_text xml tag
    | some (_, after) =>
      match breakOn ['>'] after with
      | none => none
      | some (_, content) => (upToClosing tag content).orElse fun _ => extract_inner_text xml tag

/-- What stands between a section's opening and closing tags. -/
def extract_section (xml section_ : List Char) : Option (List Char) :=
  ["<tt:".toList ++ section_, "<".toList ++ section_].findSome? fun pat =>
    (breakOn pat xml).bind fun (_, after) =>
      ["</tt:".toList ++ section_ ++ ['>'], "</".toList ++ section_ ++ ['>']].findSome? fun end_pat =>
        (breakOn end_pat (pat ++ after)).map fun (before, _) => before ++ end_pat

/-- The value of the first attribute of the name. -/
def extract_attr_inline (xml attr : List Char) : Option (List Char) :=
  (breakOn (attr ++ ['=', '"']) xml).bind fun (_, after) => (breakOn ['"'] after).map Prod.fst

/-- An attribute looked for from the first occurrence of the tag on. -/
def extract_attr_value (xml tag attr : List Char) : Option (List Char) :=
  (breakOn tag xml).bind fun (_, after) => extract_attr_inline (tag ++ after) attr

/-- One `SimpleItem`: its name and its value. -/
def simpleItem (part : List Char) : Option (String × String) :=
  match extract_attr_inline part "Name".toList, extract_attr_inline part "Value".toList with
  | some n, some v => some (String.ofList n, String.ofList v)
  | _, _ => none

def parse_simple_items (xml : List Char) : List (String × String) :=
  (split "SimpleItem".toList xml).filterMap simpleItem

/-- The items of a section are put into a map one after the other. -/
def insertItems (m : Std.ExtHashMap String String) (items : List (String × String)) :
    Std.ExtHashMap String String :=
  items.foldl (fun m item => m.insert item.1 item.2) m

/-- The items of one section, none when the section is absent. -/
def sectionItems (block section_ : List Char) : List (String × String) :=
  match extract_section block section_ with
  | some xml => parse_simple_items xml
  | none => []

/-- One notification: its topic, time and sections, unless no topic is named. -/
def parseBlock (block : List Char) : Option OnvifEvent :=
  if (breakOn "Topic".toList block).isNone then none
  else
    let topic := ((extract_tag block "Topic".toList).orElse fun _ =>
      (extract_attr_value block "Topic".toList "Dialect".toList).map fun _ =>
        (extract_inner_text block "Topic".toList).getD []).getD []
    if topic = [] then none
    else
      let source := insertItems ∅ (sectionItems block "Source".toList)
      let data := insertItems ∅ (sectionItems block "Key".toList)
      let data := insertItems data (sectionItems block "Data".toList)
      let timestamp := (extract_tag block "UtcTime".toList).orElse fun _ =>
        extract_attr_value block "Message".toList "UtcTime".toList
      some ⟨String.ofList topic, source, data, timestamp.map String.ofList⟩

/-- The events of a `PullMessages` response. -/
def parse_notification_messages (xml : String) : List OnvifEvent :=
  (split "<wsnt:NotificationMessage".toList xml.toList).filterMap parseBlock

/-! ### What is sent -/

/-- The sections of items in a message. -/
inductive Section where
  | source
  | key
  | data
deriving DecidableEq

def Section.name : Section → List Char
  | .source => "Source".toList
  | .key => "Key".toList
  | .data => "Data".toList

/-- An event as the camera has it. -/
structure Event where
  topic : String
  source : List (String × String)
  key : List (String × String)
  data : List (String × String)
  utcTime : Option String

def Event.items (e : Event) : Section → List (String × String)
  | .source => e.source
  | .key => e.key
  | .data => e.data

/-- What the event says. -/
def Event.meaning (e : Event) : OnvifEvent :=
  ⟨e.topic, insertItems ∅ e.source, insertItems (insertItems ∅ e.key) e.data, e.utcTime⟩

def escapeChar : Char → List Char
  | '&' => "&amp;".toList
  | '<' => "&lt;".toList
  | '>' => "&gt;".toList
  | '"' => "&quot;".toList
  | '\'' => "&apos;".toList
  | c => [c]

/-- Text with the five special characters written as entities. -/
def escape (s : String) : List Char := s.toList.flatMap escapeChar

/-- White space of XML. -/
structure Blank where
  chars : List Char
  white : ∀ c ∈ chars, c ∈ [' ', '\t', '\r', '\n']

/-- The white space of one message, after the tags that open and close its elements, and whether a
section without items is left out. -/
structure Spacing where
  notification : Blank
  topic : Blank
  envelope : Blank
  message : Blank
  opened : Section → Blank
  item : Section → Nat → Blank
  closed : Section → Blank
  messageEnd : Blank
  envelopeEnd : Blank
  notificationEnd : Blank
  omits : Section → Bool

/-- The tag of one item, as a camera writes it. -/
def itemOpening (item : String × String) : List Char :=
  "tt:SimpleItem Name=\"".toList ++ escape item.1 ++ "\" Value=\"".toList ++ escape item.2 ++ "\"/".toList

/-- The tags of a section's items, each with the white space after it. -/
def itemTags : (Nat → Blank) → List (String × String) → List Tag
  | _, [] => []
  | blank, item :: items => ⟨itemOpening item, (blank 0).chars⟩ :: itemTags (fun i => blank (i + 1)) items

/-- The tags of a section: an empty one may be left out. -/
def sectionTags (sp : Spacing) (e : Event) (s : Section) : List Tag :=
  if e.items s = [] ∧ sp.omits s then []
  else ⟨"tt:".toList ++ s.name, (sp.opened s).chars⟩ :: itemTags (sp.item s) (e.items s) ++
    [⟨"/tt:".toList ++ s.name, (sp.closed s).chars⟩]

def messageOpening : Option String → List Char
  | none => "tt:Message".toList
  | some time => "tt:Message UtcTime=\"".toList ++ escape time ++ "\"".toList

def topicOpening : List Char :=
  "wsnt:Topic Dialect=\"http://www.onvif.org/ver10/tev/topicExpression/ConcreteSet\"".toList

/-- The tags of a message after its first. -/
def messageTags (sp : Spacing) (e : Event) : List Tag :=
  ⟨topicOpening, escape e.topic⟩ :: ⟨"/wsnt:Topic".toList, sp.topic.chars⟩ ::
    ⟨"wsnt:Message".toList, sp.envelope.chars⟩ ::
    ⟨messageOpening e.utcTime, sp.message.chars⟩ ::
    (sectionTags sp e .source ++ sectionTags sp e .key ++ sectionTags sp e .data ++
      [⟨"/tt:Message".toList, sp.messageEnd.chars⟩, ⟨"/wsnt:Message".toList, sp.envelopeEnd.chars⟩,
        ⟨"/wsnt:NotificationMessage".toList, sp.notificationEnd.chars⟩])

/-- The tags of one notification, its opening one included. -/
def notificationTags (m : Event × Spacing) : List Tag :=
  ⟨"wsnt:NotificationMessage".toList, m.2.notification.chars⟩ :: messageTags m.2 m.1

def notifyOpening : List Char :=
  "wsnt:Notify xmlns:wsnt=\"http://docs.oasis-open.org/wsn/b-2\" xmlns:tt=\"http://www.onvif.org/ver10/schema\"".toList

/-- A Notify body with the messages, each written with its white space. -/
def notify (first last : Blank) (messages : List (Event × Spacing)) : String :=
  String.ofList (markup (⟨notifyOpening, first.chars⟩ :: messages.flatMap notificationTags ++
    [⟨"/wsnt:Notify".toList, last.chars⟩]))

/-! ### What is given back as sent -/

/-- The characters that are written as entities. -/
def special : List Char := ['&', '<', '>', '"', '\'']

/-- No character of the text is one that XML escapes. -/
def Literal (s : String) : Prop := ∀ c ∈ s.toList, c ∉ special

/-- The topic is not empty and has no white space around it. -/
structure Sendable (e : Event) : Prop where
  topic : e.topic ≠ ""
  trimmed : Text.trimWhitespace e.topic = e.topic

/-- What a map of items is given back for: nothing in it is escaped or has the word that items are
split at, and a name that ends as the attribute after it begins has the value that is then read. -/
def Faithful (items : List (String × String)) : Prop :=
  ∀ name value, (insertItems ∅ items)[name]? = some value →
    (Literal name ∧ ¬ "SimpleItem".toList <:+: name.toList) ∧
      (Literal value ∧ ¬ "SimpleItem".toList <:+: value.toList) ∧
      ("Value=".toList <:+ name.toList → value = " Value=")

/-- No quote after the items' names and values, but for the last, is taken for that of a time. -/
def Timeless (items : List (String × String)) : Prop :=
  (∀ item ∈ items, ¬ "UtcTime=".toList <:+ item.1.toList) ∧
    ∀ item ∈ items.dropLast, ¬ "UtcTime=".toList <:+ item.2.toList

/-- Every part of the event is written as it is read back. -/
structure Plain (e : Event) : Prop where
  topic : Literal e.topic
  source : Faithful e.source
  data : Faithful (e.key ++ e.data)
  time : ∀ time, e.utcTime = some time → Literal time
  timeless : e.utcTime = none → Timeless (e.source ++ e.key ++ e.data)

/-! ### Escaped text -/

section Escaping

variable {c : Char} {l w : List Char} {s : String}

theorem escapeChar_literal (h : c ∉ special) : escapeChar c = [c] := by
  unfold escapeChar
  split <;> simp_all [special]

theorem escapeChar_special (h : c ∈ special) :
    ∃ name : List Char, escapeChar c = '&' :: (name ++ [';']) ∧ 0 < name.length ∧ name.length ≤ 4 ∧
    ∀ x ∈ name, x ∉ special ∧ x ≠ ';' := by
  simp only [special, List.mem_cons, List.not_mem_nil, or_false] at h
  rcases h with rfl | rfl | rfl | rfl | rfl
  · exact ⟨['a', 'm', 'p'], rfl, by decide, by decide, by simp [special]⟩
  · exact ⟨['l', 't'], rfl, by decide, by decide, by simp [special]⟩
  · exact ⟨['g', 't'], rfl, by decide, by decide, by simp [special]⟩
  · exact ⟨['q', 'u', 'o', 't'], rfl, by decide, by decide, by simp [special]⟩
  · exact ⟨['a', 'p', 'o', 's'], rfl, by decide, by decide, by simp [special]⟩

theorem not_mem_escape (h : c ∈ ['<', '>', '"']) : c ∉ escape s := by
  intro hc
  obtain ⟨d, -, hd⟩ := List.mem_flatMap.1 hc
  have hspecial : c ∈ special := by
    simp only [List.mem_cons, List.not_mem_nil, or_false] at h
    rcases h with rfl | rfl | rfl <;> simp [special]
  have hother : c ≠ '&' ∧ c ≠ ';' := by
    simp only [List.mem_cons, List.not_mem_nil, or_false] at h
    rcases h with rfl | rfl | rfl <;> decide
  by_cases hds : d ∈ special
  · obtain ⟨name, heq, -, -, hname⟩ := escapeChar_special hds
    rw [heq, List.mem_cons, List.mem_append, List.mem_singleton] at hd
    rcases hd with rfl | hd | rfl
    · exact hother.1 rfl
    · exact (hname c hd).1 hspecial
    · exact hother.2 rfl
  · rw [escapeChar_literal hds, List.mem_singleton] at hd
    exact hds (hd ▸ hspecial)

theorem length_escape_le (l : List Char) : l.length ≤ (l.flatMap escapeChar).length := by
  induction l with
  | nil => exact Nat.le_refl _
  | cons c l ih =>
    rw [List.flatMap_cons, List.length_append, List.length_cons]
    by_cases hc : c ∈ special
    · obtain ⟨name, heq, -⟩ := escapeChar_special hc
      rw [heq, List.length_cons]
      omega
    · rw [escapeChar_literal hc, List.length_singleton]
      omega

theorem length_escape_lt (h : ¬ Literal s) : s.toList.length < (escape s).length := by
  simp only [Literal, not_forall, not_not] at h
  obtain ⟨c, hc, hspecial⟩ := h
  obtain ⟨before, after, hs⟩ := List.append_of_mem hc
  obtain ⟨name, heq, -⟩ := escapeChar_special hspecial
  have hbefore := length_escape_le before
  have hafter := length_escape_le after
  simp only [escape, hs, List.flatMap_append, List.flatMap_cons, heq, List.length_append,
    List.length_cons, List.length_nil]
  omega

theorem escape_of_literal (h : Literal s) : escape s = s.toList := by
  refine (List.flatMap_congr fun c hc => escapeChar_literal (h c hc)).trans ?_
  simp

theorem escape_eq_iff : String.ofList (escape s) = s ↔ Literal s := by
  constructor
  · intro h
    by_contra hnot
    have hlength := congrArg (fun t : String => t.toList.length) h
    have hlt := length_escape_lt hnot
    simp only [String.toList_ofList] at hlength
    omega
  · intro h
    rw [escape_of_literal h, String.ofList_toList]

theorem prefix_escape (hw : ∀ c ∈ w, c ∉ special) : w <+: l.flatMap escapeChar ↔ w <+: l := by
  induction l generalizing w with
  | nil => rfl
  | cons c l ih =>
    cases w with
    | nil => simp
    | cons d w =>
      have hd := hw d List.mem_cons_self
      rw [List.flatMap_cons]
      by_cases hc : c ∈ special
      · obtain ⟨name, heq, -⟩ := escapeChar_special hc
        rw [heq, List.cons_append, List.cons_prefix_cons, List.cons_prefix_cons]
        constructor
        · rintro ⟨rfl, -⟩
          exact absurd (by simp [special]) hd
        · rintro ⟨rfl, -⟩
          exact absurd hc hd
      · rw [escapeChar_literal hc, List.singleton_append, List.cons_prefix_cons, List.cons_prefix_cons,
          ih fun x hx => hw x (List.mem_cons_of_mem _ hx)]

/-- A word that is longer than the names of entities occurs in what is written where it occurs in the text. -/
theorem infix_escape (hw : ∀ c ∈ w, c ∉ special) (hsemicolon : ';' ∉ w) (hlong : 4 < w.length) :
    w <:+: l.flatMap escapeChar ↔ w <:+: l := by
  induction l with
  | nil => rfl
  | cons c l ih =>
    rw [List.flatMap_cons]
    by_cases hc : c ∈ special
    · obtain ⟨name, heq, -, hname, -⟩ := escapeChar_special hc
      have hamp : '&' ∉ w := fun h => hw '&' h (by simp [special])
      rw [heq, show '&' :: (name ++ [';']) ++ l.flatMap escapeChar = ('&' :: name) ++ ';' ::
        l.flatMap escapeChar by simp, infix_over hsemicolon, ih, or_iff_right]
      · have hcw : c ∉ w := fun h => hw c h hc
        rw [show c :: l = [] ++ c :: l from rfl, infix_over hcw, or_iff_right]
        intro hnil
        rw [List.infix_nil.1 hnil] at hlong
        simp at hlong
      · intro hin
        rw [show '&' :: name = [] ++ '&' :: name from rfl, infix_over hamp] at hin
        rcases hin with hin | hin
        · rw [List.infix_nil.1 hin] at hlong
          exact absurd hlong (by decide)
        · have := hin.length_le
          omega
    · rw [escapeChar_literal hc, List.singleton_append, List.infix_cons_iff, List.infix_cons_iff, ih]
      refine or_congr_left ?_
      have hprefix := prefix_escape (l := c :: l) hw
      rwa [List.flatMap_cons, escapeChar_literal hc, List.singleton_append] at hprefix

theorem concat_suffix {α : Type*} {l m : List α} {a b : α} : l ++ [a] <:+ m ++ [b] ↔ a = b ∧ l <:+ m := by
  rw [← List.reverse_prefix, List.reverse_append, List.reverse_append, List.reverse_singleton,
    List.reverse_singleton,
    List.singleton_append, List.singleton_append, List.cons_prefix_cons, List.reverse_prefix]

theorem suffix_escape (hw : ∀ c ∈ w, c ∉ special ∧ c ≠ ';') : w <:+ l.flatMap escapeChar ↔ w <:+ l := by
  induction l using List.reverseRecOn generalizing w with
  | nil => rfl
  | append_singleton l c ih =>
    rcases List.eq_nil_or_concat w with rfl | ⟨w, d, rfl⟩
    · simp
    · have hd := hw d (by simp)
      rw [List.flatMap_append, List.flatMap_singleton]
      by_cases hc : c ∈ special
      · obtain ⟨name, heq, -⟩ := escapeChar_special hc
        rw [heq, show l.flatMap escapeChar ++ '&' ::
          (name ++ [';']) = (l.flatMap escapeChar ++ '&' :: name) ++ [';'] by simp,
          List.concat_eq_append, concat_suffix, concat_suffix]
        constructor
        · rintro ⟨rfl, -⟩
          exact absurd rfl hd.2
        · rintro ⟨rfl, -⟩
          exact absurd hc hd.1
      · rw [escapeChar_literal hc, List.concat_eq_append, concat_suffix,
          concat_suffix, ih fun x hx => hw x (by simp [hx])]

/-- What is written for a character that is no white space begins and ends with none. -/
theorem escapeChar_edges (hc : Text.isWhitespace c = false) :
    (escapeChar c).dropWhile Text.isWhitespace = escapeChar c ∧
    (escapeChar c).reverse.dropWhile Text.isWhitespace = (escapeChar c).reverse ∧ escapeChar c ≠ [] := by
  by_cases hspecial : c ∈ special
  · obtain ⟨name, heq, -⟩ := escapeChar_special hspecial
    rw [heq]
    refine ⟨List.dropWhile_cons_of_neg (by decide), ?_, List.cons_ne_nil _ _⟩
    rw [List.reverse_cons, List.reverse_append, List.reverse_singleton, List.append_assoc,
      List.singleton_append]
    exact List.dropWhile_cons_of_neg (by decide)
  · rw [escapeChar_literal hspecial]
    exact ⟨List.dropWhile_cons_of_neg (by simp [hc]), List.dropWhile_cons_of_neg (by simp [hc]),
      List.cons_ne_nil _ _⟩

theorem head_of_dropWhile {α : Type*} {p : α → Bool} {a : α} {l : List α}
    (h : (a :: l).dropWhile p = a :: l) : p a = false := by
  simpa using List.dropWhile_eq_self_iff.1 h (Nat.succ_pos _)

theorem dropWhile_append_left {α : Type*} {p : α → Bool} {l : List α} (h : l.dropWhile p = l)
    (hl : l ≠ []) (m : List α) :
    (l ++ m).dropWhile p = l ++ m := by
  obtain ⟨a, l, rfl⟩ := List.exists_cons_of_ne_nil hl
  exact List.dropWhile_cons_of_neg (by simp [head_of_dropWhile h])

/-- White space at the ends of what is written is white space at the ends of the text. -/
theorem trim_escape (h : trimWhitespaceChars s.toList = s.toList) :
    trimWhitespaceChars (escape s) = escape s := by
  have hfirst : s.toList.dropWhile Text.isWhitespace = s.toList := by
    refine (List.dropWhile_suffix Text.isWhitespace).eq_of_length_le ?_
    have hlast := (List.dropWhile_suffix Text.isWhitespace
      (l := (s.toList.dropWhile Text.isWhitespace).reverse)).length_le
    have hlength := congrArg List.length h
    simp only [trimWhitespaceChars, List.length_reverse] at hlength hlast
    omega
  have hlast : s.toList.reverse.dropWhile Text.isWhitespace = s.toList.reverse := by
    unfold trimWhitespaceChars at h
    rw [hfirst, List.reverse_eq_iff] at h
    exact h
  have hwritten : (escape s).dropWhile Text.isWhitespace = escape s := by
    unfold escape
    cases hs : s.toList with
    | nil => rfl
    | cons c l =>
      obtain ⟨hstart, -, hne⟩ := escapeChar_edges (head_of_dropWhile (hs ▸ hfirst))
      rw [List.flatMap_cons]
      exact dropWhile_append_left hstart hne _
  have hwrittenLast : (escape s).reverse.dropWhile Text.isWhitespace = (escape s).reverse := by
    unfold escape
    rcases List.eq_nil_or_concat s.toList with hs | ⟨l, c, hs⟩
    · rw [hs]
      rfl
    · rw [hs, List.concat_eq_append, List.reverse_append, List.reverse_singleton,
        List.singleton_append] at hlast
      obtain ⟨-, hend, hne⟩ := escapeChar_edges (head_of_dropWhile hlast)
      rw [hs, List.concat_eq_append, List.flatMap_append, List.flatMap_singleton, List.reverse_append]
      exact dropWhile_append_left hend (by simpa using hne) _
  rw [trimWhitespaceChars, hwritten, hwrittenLast, List.reverse_reverse]

end Escaping

/-! ### Items -/

section Items

variable {xml part attr u v w tail : List Char} {item : String × String} {items : List (String × String)}

theorem extract_attr_inline_eq (hattr : '"' ∉ attr) (xml : List Char) :
    extract_attr_inline xml attr = between (attr ++ ['=']) (Text.splitOn '"' xml) := by
  rw [← between_splitOn (by simp [hattr]), List.append_assoc]
  rfl

theorem infix_of_extract_attr_inline (h : extract_attr_inline xml attr = some v) : v <:+: xml := by
  obtain ⟨⟨before, after⟩, hbreak, h⟩ := Option.bind_eq_some_iff.1 h
  obtain ⟨⟨value, rest⟩, hvalue, rfl⟩ := Option.map_eq_some_iff.1 h
  have hxml := breakOn_eq_some hbreak
  have hafter := breakOn_eq_some hvalue
  rw [hxml, show after = value ++ ['"'] ++ rest from hafter]
  exact ⟨before ++ (attr ++ ['=', '"']), ['"'] ++ rest, by simp⟩

/-- The word that a section is split at stands in no name and no value. -/
theorem not_infix_of_mem_items (h : item ∈ parse_simple_items xml) :
    ¬ "SimpleItem".toList <:+: item.1.toList ∧ ¬ "SimpleItem".toList <:+: item.2.toList := by
  obtain ⟨part, hpart, hitem⟩ := List.mem_filterMap.1 h
  have hnot := not_infix_of_mem_split (by decide) hpart
  unfold simpleItem at hitem
  split at hitem
  · next n v hn hv =>
    obtain rfl := Option.some.inj hitem
    simp only [String.toList_ofList]
    exact ⟨fun hin => hnot (hin.trans (infix_of_extract_attr_inline hn)),
      fun hin => hnot (hin.trans (infix_of_extract_attr_inline hv))⟩
  · cases hitem

/-- What is read of an item whose name is not split. -/
def readItem (item : String × String) : Option (String × String) :=
  if "Value=".toList <:+ escape item.1 then some (String.ofList (escape item.1), " Value=")
  else if "SimpleItem".toList <:+: escape item.2 then none
  else some (String.ofList (escape item.1), String.ofList (escape item.2))

theorem simpleItem_eq (part : List Char) : simpleItem part =
    match between "Name=".toList (Text.splitOn '"' part), between "Value=".toList (Text.splitOn '"' part) with
    | some n, some v => some (String.ofList n, String.ofList v)
    | _, _ => none := by
  rw [simpleItem, extract_attr_inline_eq (by decide), extract_attr_inline_eq (by decide)]
  rfl

theorem quote_not_mem_escape (s : String) : '"' ∉ escape s := not_mem_escape (by simp)

/-- An item after the word, up to its value, and what follows. -/
def itemText (item : String × String) (rest : List Char) : List Char :=
  " Name=".toList ++ '"' :: (escape item.1 ++ '"' :: (" Value=".toList ++ '"' :: rest))

theorem itemText_append (item : String × String) (u w : List Char) :
    itemText item u ++ w = itemText item (u ++ w) := by
  unfold itemText
  simp only [List.append_assoc, List.cons_append]

theorem splitOn_itemText (item : String × String) (rest : List Char) :
    Text.splitOn '"' (itemText item rest) = " Name=".toList :: escape item.1 :: " Value=".toList ::
    Text.splitOn '"' rest := by
  unfold itemText
  rw [Text.splitOn_append (by decide), Text.splitOn_append (quote_not_mem_escape _),
    Text.splitOn_append (by decide)]

theorem word_clear : '"' ∉ "SimpleItem".toList ∧ ¬ "SimpleItem".toList <:+: " Name=".toList ∧
    ¬ "SimpleItem".toList <:+: " Value=".toList := by
  decide

theorem infix_itemText (item : String × String) (rest : List Char) :
    "SimpleItem".toList <:+: itemText item rest ↔ "SimpleItem".toList <:+: escape item.1 ∨
    "SimpleItem".toList <:+: rest := by
  obtain ⟨hquote, hname, hvalue⟩ := word_clear
  unfold itemText
  rw [infix_over hquote, infix_over hquote, infix_over hquote, or_iff_right hname, or_iff_right hvalue]

theorem breakOn_itemText {before after rest : List Char} (hname : ¬ "SimpleItem".toList <:+: escape item.1)
    (h : breakOn "SimpleItem".toList rest = some (before, after)) :
    breakOn "SimpleItem".toList (itemText item rest) = some (itemText item before, after) := by
  obtain ⟨hquote, hnameText, hvalueText⟩ := word_clear
  unfold itemText
  rw [breakOn_over hquote hnameText, breakOn_over hquote hname, breakOn_over hquote hvalueText, h]
  rfl

/-- A part that begins as an item, with `value` up to the next quote, or to the end of the part. -/
theorem simpleItem_itemText (item : String × String) {value rest : List Char} {parts : List (List Char)}
    (hrest : Text.splitOn '"' rest = value :: parts) : simpleItem (itemText item rest) =
      if "Value=".toList <:+ escape item.1 then some (String.ofList (escape item.1), " Value=")
      else if parts = [] then none else some (String.ofList (escape item.1), String.ofList value) := by
  rw [simpleItem_eq, splitOn_itemText, hrest, between_hit (by decide) (List.cons_ne_nil _ _),
    between_pass (by decide)]
  by_cases hends : "Value=".toList <:+ escape item.1
  · rw [between_hit hends (List.cons_ne_nil _ _), if_pos hends]
    rfl
  · rw [between_pass hends, if_neg hends]
    by_cases hparts : parts = []
    · rw [hparts, between_end (by decide), if_pos rfl]
    · rw [between_hit (by decide) hparts, if_neg hparts]

/-- The text after an item's tag begins: whatever stands before it, without a quote to come, is read
as `r`. -/
def ReadsOn (rest : List Char) (later : List (String × String)) : Prop :=
  ∀ u r, ¬ "SimpleItem".toList <:+: u → (∀ w, '"' ∉ w → simpleItem (u ++ w) = r) →
    (split "SimpleItem".toList (u ++ rest)).filterMap simpleItem = r.toList ++ later

/-- What is left of a value that was split gives no item. -/
theorem parse_rest {close rest : List Char} {later : List (String × String)} (hclose : '"' ∉ close)
    (hword : ¬ "SimpleItem".toList <:+: close)
    (hrest : ReadsOn rest later) (q : List Char) (hq : '"' ∉ q) :
    (split "SimpleItem".toList (q ++ '"' :: (close ++ rest))).filterMap simpleItem = later := by
  induction hn : q.length using Nat.strong_induction_on generalizing q with
  | _ n ih =>
    by_cases hin : "SimpleItem".toList <:+: q
    · obtain ⟨⟨before, after⟩, hbreak⟩ := Option.ne_none_iff_exists'.1 fun hnone =>
        breakOn_eq_none.1 hnone hin
      have heq := breakOn_eq_some hbreak
      have hbefore : '"' ∉ before := fun h => hq (heq ▸ by simp [h])
      have hafter : '"' ∉ after := fun h => hq (heq ▸ by simp [h])
      have hnone : simpleItem before = none := by
        rw [simpleItem_eq, Text.splitOn_self hbefore]
        rfl
      have hlength := congrArg List.length heq
      simp only [List.length_append] at hlength
      have hpos : 0 < "SimpleItem".toList.length := by decide
      rw [split_of_breakOn (by decide) (breakOn_append hbreak _), List.filterMap_cons_none hnone]
      exact ih after.length (by omega) after hafter rfl
    · have hread := hrest (q ++ '"' :: close) none ?_ fun w hw => ?_
      · rw [List.append_assoc, List.cons_append] at hread
        exact hread
      · rw [infix_over (by decide)]
        exact not_or.2 ⟨hin, hword⟩
      · have hcw : '"' ∉ close ++ w := by simp [hclose, hw]
        rw [simpleItem_eq, List.append_assoc, List.cons_append, Text.splitOn_append hq, Text.splitOn_self hcw]
        by_cases hsuffix : "Name=".toList <:+ q
        · rw [between_end hsuffix]
        · rw [between_pass hsuffix]
          rfl

/-- An item and what follows it. -/
theorem parse_item {close rest : List Char} {later : List (String × String)}
    (hname : ¬ "SimpleItem".toList <:+: escape item.1)
    (hclose : '"' ∉ close) (hword : ¬ "SimpleItem".toList <:+: close) (hrest : ReadsOn rest later) :
    (split "SimpleItem".toList (itemText item (escape item.2 ++ '"' :: (close ++ rest)))).filterMap
    simpleItem = (readItem item).toList ++ later := by
  have hvalue := quote_not_mem_escape item.2
  by_cases hin : "SimpleItem".toList <:+: escape item.2
  · obtain ⟨⟨before, after⟩, hbreak⟩ := Option.ne_none_iff_exists'.1 fun hnone => breakOn_eq_none.1 hnone hin
    have heq := breakOn_eq_some hbreak
    have hbefore : '"' ∉ before := fun h => hvalue (heq ▸ by simp [h])
    have hafter : '"' ∉ after := fun h => hvalue (heq ▸ by simp [h])
    rw [split_of_breakOn (by decide) (breakOn_itemText hname (breakOn_append hbreak _)), List.filterMap_cons,
      parse_rest hclose hword hrest after hafter, simpleItem_itemText item (Text.splitOn_self hbefore),
        readItem]
    by_cases hends : "Value=".toList <:+ escape item.1
    · rw [if_pos hends, if_pos hends]
      rfl
    · rw [if_neg hends, if_neg hends, if_pos hin, if_pos rfl]
      rfl
  · have hread := hrest (itemText item (escape item.2 ++ '"' :: close)) (readItem item) ?_ fun w hw => ?_
    · rw [itemText_append, List.append_assoc, List.cons_append] at hread
      exact hread
    · rw [infix_itemText, infix_over word_clear.1]
      exact not_or.2 ⟨hname, not_or.2 ⟨hin, hword⟩⟩
    · have hcw : '"' ∉ close ++ w := by simp [hclose, hw]
      have hsplit : Text.splitOn '"' (escape item.2 ++ '"' :: close ++ w) = [escape item.2, close ++ w] := by
        rw [List.append_assoc, List.cons_append, Text.splitOn_append hvalue, Text.splitOn_self hcw]
      rw [itemText_append, simpleItem_itemText item hsplit, readItem, if_neg (List.cons_ne_nil _ _),
        if_neg hin]

theorem breakOn_tag (rest : List Char) :
    breakOn "SimpleItem".toList ("tt:".toList ++ ("SimpleItem".toList ++ rest)) =
      some ("tt:".toList, rest) := by
  have hcons : "SimpleItem".toList = 'S' :: "impleItem".toList := rfl
  rw [hcons, breakOn_skip (by decide), Search.breakOn_here, Option.map_some, List.append_nil]

theorem itemOpening_shape (tt word name value a b rest : List Char) :
    tt ++ (word ++ (name ++ ['"'])) ++ a ++ '"' :: (value ++ ['"']) ++ b ++ ['"', '/'] ++ '>' :: rest =
      tt ++ (word ++ (name ++ '"' ::
        (a ++ '"' :: (value ++ '"' :: (b ++ '"' :: (['/', '>'] ++ rest)))))) := by
  simp

theorem itemOpening_append (item : String × String) (rest : List Char) :
    itemOpening item ++ '>' :: rest = "tt:".toList ++
    ("SimpleItem".toList ++ itemText item (escape item.2 ++ '"' :: ("/>".toList ++ rest))) := by
  have hopening : "tt:SimpleItem Name=\"".toList = "tt:".toList ++
      ("SimpleItem".toList ++ (" Name=".toList ++ ['"'])) := by simp
  have hvalue : "\" Value=\"".toList = '"' :: (" Value=".toList ++ ['"']) := by simp
  have hend : "\"/".toList = ['"', '/'] := by simp
  have hclose : "/>".toList = ['/', '>'] := by simp
  unfold itemOpening itemText
  rw [hopening, hvalue, hend, hclose]
  exact itemOpening_shape _ _ _ _ _ _ rest

theorem Blank.not_mem (b : Blank) {c : Char} (h : c ∉ [' ', '\t', '\r', '\n']) : c ∉ b.chars :=
  fun hc => h (b.white c hc)

theorem Blank.not_infix_of_mem (b : Blank) {c : Char} {w : List Char} (h : c ∉ [' ', '\t', '\r', '\n'])
    (hc : c ∈ w) : ¬ w <:+: b.chars :=
  fun hin => b.not_mem h (hin.subset hc)

theorem readsOn_items (hnames : ∀ item ∈ items, ¬ "SimpleItem".toList <:+: escape item.1)
    (hquote : '"' ∉ tail) (hword : ¬ "SimpleItem".toList <:+: tail) (blank : Nat → Blank) :
    ReadsOn (markup (itemTags blank items) ++ '<' :: tail) (items.filterMap readItem) := by
  induction items generalizing blank with
  | nil =>
    intro u r hu hr
    have hnot : ¬ "SimpleItem".toList <:+: u ++ '<' :: tail := by
      rw [infix_over (by decide)]
      exact not_or.2 ⟨hu, hword⟩
    rw [itemTags, markup_nil, List.nil_append, split_of_absent (by decide) hnot, List.filterMap_cons,
      hr _ (by simp [hquote])]
    cases r <;> rfl
  | cons item items ih =>
    intro u r hu hr
    have hlater := ih (fun x hx => hnames x (List.mem_cons_of_mem _ hx)) fun i => blank (i + 1)
    have hbreak : breakOn "SimpleItem".toList
      (u ++ (markup (itemTags blank (item :: items)) ++ '<' :: tail)) =
        some (u ++ '<' :: "tt:".toList,
          itemText item (escape item.2 ++ '"' :: ("/>".toList ++ (blank 0).chars ++
          (markup (itemTags (fun i => blank (i + 1)) items) ++ '<' :: tail)))) := by
      rw [itemTags, markup_cons, Tag.body, itemOpening_append, List.cons_append, breakOn_over (by decide) hu]
      simp only [List.append_assoc, List.cons_append, itemText_append, breakOn_tag, Option.map_some]
    have hclose : '"' ∉ "/>".toList ++ (blank 0).chars := by
      have := (blank 0).not_mem (c := '"') (by decide)
      simp [this]
    have hcloseWord : ¬ "SimpleItem".toList <:+: "/>".toList ++ (blank 0).chars := by
      rw [show "/>".toList ++ (blank 0).chars = ['/'] ++ '>' :: (blank 0).chars from rfl,
        infix_over (by decide)]
      exact not_or.2 ⟨by decide, (blank 0).not_infix_of_mem (c := 'S') (by decide) (by decide)⟩
    have hread := hr ('<' :: "tt:".toList) (by decide)
    rw [split_of_breakOn (by decide) hbreak, List.filterMap_cons, hread,
      parse_item (hnames item List.mem_cons_self) hclose hcloseWord hlater]
    cases r <;> cases hitem : readItem item <;> simp [hitem]

end Items

/-! ### Tags of a message -/

/-- The tag is well formed and has that name, and attributes or none. -/
structure Named (t : Tag) (name : List Char) : Prop where
  clean : t.Clean
  opening : t.opening = name ∨ ∃ attrs, t.opening = name ++ ' ' :: attrs

/-- Every tag has one of the names. -/
def Heads (names : List (List Char)) (tags : List Tag) : Prop := ∀ t ∈ tags, ∃ name ∈ names, Named t name

/-- No tag with one of the names begins with the word. -/
def clear (word : List Char) (names : List (List Char)) : Bool :=
  names.all fun name => !word.isPrefixOf name && !name.isPrefixOf word

section Tags

variable {t : Tag} {tags before after : List Tag} {names more : List (List Char)}
  {word lead : List Char} {sp : Spacing} {e : Event}

theorem Named.prefix_body {name : List Char} (h : Named t name) : name <+: t.body := by
  rcases h.opening with heq | ⟨attrs, heq⟩
  · exact ⟨'>' :: t.content, by rw [Tag.body, heq]⟩
  · exact ⟨' ' :: (attrs ++ '>' :: t.content), by rw [Tag.body, heq]; simp⟩

theorem Heads.pass (h : Heads names tags) (hclear : clear word names = true) : ∀ t ∈ tags, t.Clean ∧
    ¬ word <+: t.body := by
  intro t ht
  obtain ⟨name, hname, hnamed⟩ := h t ht
  have hpair := List.all_eq_true.1 hclear name hname
  simp only [Bool.and_eq_true, Bool.not_eq_true', ← Bool.not_eq_true, List.isPrefixOf_iff_prefix] at hpair
  refine ⟨hnamed.clean, fun hword => ?_⟩
  rcases List.prefix_or_prefix_of_prefix hword hnamed.prefix_body with hin | hin
  · exact hpair.1 hin
  · exact hpair.2 hin

theorem Heads.append (hbefore : Heads names before) (hafter : Heads more after) :
    Heads (names ++ more) (before ++ after) := by
  intro t ht
  rcases List.mem_append.1 ht with ht | ht
  · obtain ⟨name, hname, hnamed⟩ := hbefore t ht
    exact ⟨name, List.mem_append_left _ hname, hnamed⟩
  · obtain ⟨name, hname, hnamed⟩ := hafter t ht
    exact ⟨name, List.mem_append_right _ hname, hnamed⟩

theorem Heads.cons {name : List Char} (hnamed : Named t name) (h : Heads names tags) :
    Heads (name :: names) (t :: tags) := by
  intro x hx
  rcases List.mem_cons.1 hx with rfl | hx
  · exact ⟨name, List.mem_cons_self, hnamed⟩
  · obtain ⟨other, hother, hx⟩ := h x hx
    exact ⟨other, List.mem_cons_of_mem _ hother, hx⟩

theorem Heads.nil (names : List (List Char)) : Heads names [] := fun _ ht => absurd ht List.not_mem_nil

theorem Heads.clean (h : Heads names tags) : ∀ t ∈ tags, t.Clean := fun t ht =>
  let ⟨_, _, hnamed⟩ := h t ht
  hnamed.clean

theorem named_blank {name : List Char} (hname : '<' ∉ name ∧ '>' ∉ name) (b : Blank) :
    Named ⟨name, b.chars⟩ name :=
  ⟨⟨hname.1, hname.2, b.not_mem (by decide)⟩, .inl rfl⟩

theorem named_item (item : String × String) (b : Blank) :
    Named ⟨itemOpening item, b.chars⟩ "tt:SimpleItem".toList := by
  have hname : "tt:SimpleItem Name=\"".toList = "tt:SimpleItem".toList ++ ' ' :: "Name=\"".toList := by simp
  have hfree : ∀ c ∈ ['<', '>'], c ∉ itemOpening item := by
    intro c hc
    have hescape : ∀ s, c ∉ escape s := fun s => not_mem_escape (by
      simp only [List.mem_cons, List.not_mem_nil, or_false] at hc ⊢
      rcases hc with rfl | rfl <;> simp)
    unfold itemOpening
    simp only [List.mem_append, hescape, or_false]
    simp only [List.mem_cons, List.not_mem_nil, or_false] at hc
    rcases hc with rfl | rfl <;> simp
  refine ⟨⟨hfree '<' (by simp), hfree '>' (by simp), b.not_mem (by decide)⟩,
    .inr ⟨"Name=\"".toList ++ escape item.1 ++ "\" Value=\"".toList ++ escape item.2 ++ "\"/".toList, ?_⟩⟩
  unfold itemOpening
  rw [hname]
  simp only [List.append_assoc, List.cons_append]

theorem heads_items (blank : Nat → Blank) (items : List (String × String)) :
    Heads ["tt:SimpleItem".toList] (itemTags blank items) := by
  induction items generalizing blank with
  | nil => exact Heads.nil _
  | cons item items ih =>
    intro t ht
    rcases List.mem_cons.1 ht with rfl | ht
    · exact ⟨_, List.mem_singleton_self _, named_item item (blank 0)⟩
    · exact ih _ t ht

/-- The names of the tags of a section. -/
def Section.tagNames (s : Section) : List (List Char) :=
  ["tt:".toList ++ s.name, "tt:SimpleItem".toList, "/tt:".toList ++ s.name]

theorem named_section (s : Section) (b : Blank) :
    Named ⟨"tt:".toList ++ s.name, b.chars⟩ ("tt:".toList ++ s.name) ∧
    Named ⟨"/tt:".toList ++ s.name, b.chars⟩ ("/tt:".toList ++ s.name) := by
  cases s <;> exact ⟨named_blank (by decide) b, named_blank (by decide) b⟩

theorem heads_section (sp : Spacing) (e : Event) (s : Section) : Heads s.tagNames (sectionTags sp e s) := by
  unfold sectionTags
  split_ifs
  · exact Heads.nil _
  · have hend := (Heads.nil []).cons (named_section s (sp.closed s)).2
    exact ((heads_items _ _).append hend).cons (named_section s (sp.opened s)).1

/-- The tags before the sections. -/
def openingTags (sp : Spacing) (e : Event) : List Tag :=
  [⟨topicOpening, escape e.topic⟩, ⟨"/wsnt:Topic".toList, sp.topic.chars⟩,
    ⟨"wsnt:Message".toList, sp.envelope.chars⟩, ⟨messageOpening e.utcTime, sp.message.chars⟩]

/-- The tags after the sections. -/
def closingTags (sp : Spacing) : List Tag :=
  [⟨"/tt:Message".toList, sp.messageEnd.chars⟩, ⟨"/wsnt:Message".toList, sp.envelopeEnd.chars⟩,
    ⟨"/wsnt:NotificationMessage".toList, sp.notificationEnd.chars⟩]

theorem messageTags_eq (sp : Spacing) (e : Event) : messageTags sp e =
    openingTags sp e ++ (sectionTags sp e .source ++
      (sectionTags sp e .key ++ (sectionTags sp e .data ++ closingTags sp))) := by
  unfold messageTags openingTags closingTags
  simp only [List.append_assoc, List.cons_append, List.nil_append]

/-- The tags before a message's sections. -/
def openingNames : List (List Char) :=
  ["wsnt:Topic".toList, "/wsnt:Topic".toList, "wsnt:Message".toList, "tt:Message".toList]

/-- The tags after a message's sections. -/
def closingNames : List (List Char) :=
  ["/tt:Message".toList, "/wsnt:Message".toList, "/wsnt:NotificationMessage".toList]

theorem named_topic (e : Event) : Named ⟨topicOpening, escape e.topic⟩ "wsnt:Topic".toList := by
  have hopening : topicOpening = _ := Text.toList_eq rfl
  have hname : "wsnt:Topic".toList = _ := Text.toList_eq rfl
  have hfree : '<' ∉ topicOpening ∧ '>' ∉ topicOpening := by
    rw [hopening]
    decide
  refine ⟨⟨hfree.1, hfree.2, not_mem_escape (by simp)⟩, .inr ⟨topicOpening.drop 11, ?_⟩⟩
  rw [hopening, hname]
  rfl

theorem named_message (time : Option String) (b : Blank) :
    Named ⟨messageOpening time, b.chars⟩ "tt:Message".toList := by
  cases time with
  | none => exact named_blank (by decide) b
  | some time =>
    have hname : "tt:Message UtcTime=\"".toList = "tt:Message".toList ++ ' ' :: "UtcTime=\"".toList := by simp
    have hlt : '<' ∉ escape time := not_mem_escape (by simp)
    have hgt : '>' ∉ escape time := not_mem_escape (by simp)
    refine ⟨⟨?_, ?_, b.not_mem (by decide)⟩, .inr ⟨"UtcTime=\"".toList ++ escape time ++ "\"".toList, ?_⟩⟩
    · unfold messageOpening
      simp [hlt]
    · unfold messageOpening
      simp [hgt]
    · unfold messageOpening
      dsimp only
      rw [hname]
      simp only [List.append_assoc, List.cons_append]

theorem heads_opening (sp : Spacing) (e : Event) : Heads openingNames (openingTags sp e) :=
  ((((Heads.nil []).cons (named_message _ _)).cons (named_blank (by decide) _)).cons
    (named_blank (by decide) _)).cons (named_topic e)

theorem heads_closing (sp : Spacing) : Heads closingNames (closingTags sp) :=
  (((Heads.nil []).cons (named_blank (by decide) _)).cons (named_blank (by decide) _)).cons
    (named_blank (by decide) _)

/-! ### Sections -/

theorem opening_word (w : List Char) : "<tt:".toList ++ w = '<' :: ("tt:".toList ++ w) := by simp

theorem closing_word (w : List Char) : "</tt:".toList ++ w ++ ['>'] = '<' ::
    ("/tt:".toList ++ w ++ ['>']) := by simp

theorem bare_word (w : List Char) : "<".toList ++ w = '<' :: w := by simp

theorem not_infix_of_section {item : String × String} (h : item ∈ sectionItems lead word) :
    ¬ "SimpleItem".toList <:+: item.1.toList ∧ ¬ "SimpleItem".toList <:+: item.2.toList := by
  unfold sectionItems at h
  split at h
  · exact not_infix_of_mem_items h
  · exact absurd h List.not_mem_nil

/-- The text of a section that has none of the tags of another. -/
theorem extract_section_absent (hlead : '<' ∉ lead) (s : Section)
    (hprefixed : ∀ t ∈ tags, t.Clean ∧ ¬ "tt:".toList ++ s.name <+: t.body)
    (hbare : ∀ t ∈ tags, t.Clean ∧ ¬ s.name <+: t.body) :
    extract_section (lead ++ markup tags) s.name = none := by
  have hname : '<' ∉ s.name := by cases s <;> decide
  have hword : '<' ∉ "tt:".toList ++ s.name := by cases s <;> decide
  unfold extract_section
  rw [opening_word, bare_word, List.findSome?_cons, breakOn_absent hlead hword hprefixed,
    Option.bind_none, List.findSome?_cons, breakOn_absent hlead hname hbare]
  rfl

/-- The text of a section goes from its opening tag to its closing tag. -/
theorem extract_section_present (hlead : '<' ∉ lead) (s : Section) (blank : Nat → Blank)
    (items : List (String × String)) (b b' : Blank)
    (hbefore : ∀ t ∈ before, t.Clean ∧ ¬ "tt:".toList ++ s.name <+: t.body) (after : List Tag) :
    extract_section (lead ++ markup (before ++ ⟨"tt:".toList ++ s.name, b.chars⟩ :: (itemTags blank items ++
      ⟨"/tt:".toList ++ s.name, b'.chars⟩ :: after))) s.name =
      some ('<' :: ("tt:".toList ++ s.name ++ '>' :: b.chars) ++ (markup (itemTags blank items) ++
        '<' :: ("/tt:".toList ++ s.name ++ ['>']))) := by
  have hword : '<' ∉ "tt:".toList ++ s.name := by cases s <;> decide
  have hclosing : '<' ∉ "/tt:".toList ++ s.name ++ ['>'] := by cases s <;> decide
  have hheads : Heads ["tt:".toList ++ s.name, "tt:SimpleItem".toList]
      (⟨"tt:".toList ++ s.name, b.chars⟩ :: itemTags blank items) :=
    (heads_items _ _).cons (named_section s b).1
  have hclear : clear ("/tt:".toList ++ s.name ++ ['>']) ["tt:".toList ++ s.name,
    "tt:SimpleItem".toList] = true := by cases s <;> decide
  have hfound := breakOn_found hlead hword hbefore (t := ⟨"tt:".toList ++ s.name, b.chars⟩)
    ⟨'>' :: b.chars, rfl⟩
    (itemTags blank items ++ ⟨"/tt:".toList ++ s.name, b'.chars⟩ :: after)
  have hend : breakOn ('<' :: ("/tt:".toList ++ s.name ++ ['>']))
    ([] ++ markup ((⟨"tt:".toList ++ s.name, b.chars⟩ :: itemTags blank items) ++
      ⟨"/tt:".toList ++ s.name, b'.chars⟩ :: after)) = _ :=
    breakOn_found List.not_mem_nil hclosing (hheads.pass hclear) ⟨b'.chars, by simp [Tag.body]⟩ after
  have hrest : '<' :: ("tt:".toList ++ s.name) ++
    ((⟨"tt:".toList ++ s.name, b.chars⟩ : Tag).body.drop ("tt:".toList ++ s.name).length ++
      markup (itemTags blank items ++ ⟨"/tt:".toList ++ s.name, b'.chars⟩ :: after)) =
      [] ++ markup ((⟨"tt:".toList ++ s.name, b.chars⟩ :: itemTags blank items) ++
            ⟨"/tt:".toList ++ s.name, b'.chars⟩ :: after) := by
    rw [Tag.body, List.drop_left, List.nil_append]
    simp only [List.cons_append, markup_cons, Tag.body, List.append_assoc]
  unfold extract_section
  rw [List.findSome?_cons, opening_word, hfound, Option.bind_some]
  dsimp only
  rw [List.findSome?_cons, closing_word, hrest, hend, Option.map_some, markup_cons, Tag.body]
  simp

theorem sectionItems_absent (hlead : '<' ∉ lead) (s : Section)
    (hprefixed : ∀ t ∈ tags, t.Clean ∧ ¬ "tt:".toList ++ s.name <+: t.body)
    (hbare : ∀ t ∈ tags, t.Clean ∧ ¬ s.name <+: t.body) : sectionItems (lead ++ markup tags) s.name = [] := by
  unfold sectionItems
  rw [extract_section_absent hlead s hprefixed hbare]

theorem sectionItems_present (hlead : '<' ∉ lead) (s : Section) (blank : Nat → Blank)
    (items : List (String × String)) (b b' : Blank)
    (hbefore : ∀ t ∈ before, t.Clean ∧ ¬ "tt:".toList ++ s.name <+: t.body) (after : List Tag)
    (hnames : ∀ item ∈ items, ¬ "SimpleItem".toList <:+: escape item.1) :
    sectionItems (lead ++ markup (before ++ ⟨"tt:".toList ++ s.name, b.chars⟩ :: (itemTags blank items ++
      ⟨"/tt:".toList ++ s.name, b'.chars⟩ :: after))) s.name = items.filterMap readItem := by
  have hquote : '"' ∉ "/tt:".toList ++ s.name ++ ['>'] ∧ '"' ∉ '<' :: ("tt:".toList ++ s.name) := by
    cases s <;> decide
  have hend : ¬ "SimpleItem".toList <:+: "/tt:".toList ++ s.name ++ ['>'] := by cases s <;> decide
  have hstart : ¬ "SimpleItem".toList <:+: '<' :: ("tt:".toList ++ s.name) := by cases s <;> decide
  have hread := readsOn_items hnames hquote.1 hend blank
    ('<' :: ("tt:".toList ++ s.name ++ '>' :: b.chars)) none ?_ fun w hw => ?_
  · unfold sectionItems
    rw [extract_section_present hlead s blank items b b' hbefore after]
    exact hread
  · rw [← List.cons_append, infix_over (by decide)]
    exact not_or.2 ⟨hstart, b.not_infix_of_mem (c := 'S') (by decide) (by decide)⟩
  · have hb := b.not_mem (c := '"') (by decide)
    have hfree : '"' ∉ '<' :: ("tt:".toList ++ s.name) ++ ('>' :: b.chars ++ w) := by
      simp only [List.mem_append, List.mem_cons, not_or] at hquote ⊢
      exact ⟨hquote.2, ⟨by decide, hb⟩, hw⟩
    rw [simpleItem_eq, List.cons_append, List.append_assoc, ← List.cons_append, Text.splitOn_self hfree]
    rfl

/-- What stands before a section in its notification. -/
def beforeSection (sp : Spacing) (e : Event) : Section → List Tag
  | .source => openingTags sp e
  | .key => openingTags sp e ++ sectionTags sp e .source
  | .data => openingTags sp e ++ (sectionTags sp e .source ++ sectionTags sp e .key)

/-- What stands after a section in its notification. -/
def afterSection (sp : Spacing) (e : Event) : Section → List Tag
  | .source => sectionTags sp e .key ++ (sectionTags sp e .data ++ closingTags sp)
  | .key => sectionTags sp e .data ++ closingTags sp
  | .data => closingTags sp

theorem messageTags_split (sp : Spacing) (e : Event) (s : Section) :
    messageTags sp e = beforeSection sp e s ++ (sectionTags sp e s ++ afterSection sp e s) := by
  rw [messageTags_eq]
  cases s
  · rfl
  · simp only [beforeSection, afterSection, List.append_assoc]
  · simp only [beforeSection, afterSection, List.append_assoc]

/-- The names of the tags before a section. -/
def beforeNames : Section → List (List Char)
  | .source => openingNames
  | .key => openingNames ++ Section.tagNames .source
  | .data => openingNames ++ (Section.tagNames .source ++ Section.tagNames .key)

/-- The names of the tags after a section. -/
def afterNames : Section → List (List Char)
  | .source => Section.tagNames .key ++ (Section.tagNames .data ++ closingNames)
  | .key => Section.tagNames .data ++ closingNames
  | .data => closingNames

theorem heads_before (sp : Spacing) (e : Event) (s : Section) :
    Heads (beforeNames s) (beforeSection sp e s) := by
  cases s
  · exact heads_opening sp e
  · exact (heads_opening sp e).append (heads_section sp e _)
  · exact (heads_opening sp e).append ((heads_section sp e _).append (heads_section sp e _))

theorem heads_after (sp : Spacing) (e : Event) (s : Section) :
    Heads (afterNames s) (afterSection sp e s) := by
  cases s
  · exact (heads_section sp e _).append ((heads_section sp e _).append (heads_closing sp))
  · exact (heads_section sp e _).append (heads_closing sp)
  · exact heads_closing sp

/-- What is read of a section of a message, where no name is split. -/
theorem sectionItems_message (hlead : '<' ∉ lead) (sp : Spacing) (e : Event) (s : Section) {more : List Tag}
    (hmore : Heads ["/wsnt:Notify".toList] more)
    (hnames : ∀ item ∈ e.items s, ¬ "SimpleItem".toList <:+: escape item.1) :
    sectionItems (lead ++ markup (messageTags sp e ++ more)) s.name = (e.items s).filterMap readItem := by
  have hbefore : clear ("tt:".toList ++ s.name) (beforeNames s) = true := by cases s <;> decide
  rw [messageTags_split sp e s]
  by_cases homit : e.items s = [] ∧ sp.omits s
  · have htags : sectionTags sp e s = [] := if_pos homit
    have hheads := (heads_before sp e s).append ((heads_after sp e s).append hmore)
    have hprefixed : clear ("tt:".toList ++ s.name) (beforeNames s ++
          (afterNames s ++ ["/wsnt:Notify".toList])) = true := by
      cases s <;> decide
    have hbare : clear s.name (beforeNames s ++ (afterNames s ++ ["/wsnt:Notify".toList])) = true := by
      cases s <;> decide
    rw [htags, List.nil_append, List.append_assoc, homit.1, List.filterMap_nil]
    exact sectionItems_absent hlead s (hheads.pass hprefixed) (hheads.pass hbare)
  · have htags : sectionTags sp e s = ⟨"tt:".toList ++ s.name, (sp.opened s).chars⟩ ::
      itemTags (sp.item s) (e.items s) ++
        [⟨"/tt:".toList ++ s.name, (sp.closed s).chars⟩] := if_neg homit
    have hread := sectionItems_present hlead s (sp.item s) (e.items s) (sp.opened s) (sp.closed s)
      ((heads_before sp e s).pass hbefore)
      (afterSection sp e s ++ more) hnames
    rw [htags, ← hread]
    simp only [List.append_assoc, List.cons_append, List.nil_append]

/-! ### Elements by name -/

theorem firstWord_of_named {name : List Char} (hnamed : Named t name) (hne : name ≠ [])
    (hword : name.all (fun c => !isAsciiWhitespace c) = true) :
    firstWord t.opening = some name := by
  obtain ⟨c, name, rfl⟩ := List.exists_cons_of_ne_nil hne
  have hc : isAsciiWhitespace c = false := by simpa using List.all_eq_true.1 hword c List.mem_cons_self
  have hall : ∀ x ∈ c :: name, (!isAsciiWhitespace x) = true := List.all_eq_true.1 hword
  have htake : (t.opening.dropWhile isAsciiWhitespace).takeWhile (fun c => !isAsciiWhitespace c) = c ::
      name := by
    rcases hnamed.opening with heq | ⟨attrs, heq⟩
    · rw [heq, List.dropWhile_cons_of_neg (by simp [hc]), List.takeWhile_eq_self_iff.2 hall]
    · rw [heq, List.cons_append, List.dropWhile_cons_of_neg (by simp [hc]), ← List.cons_append,
        List.takeWhile_append_of_pos hall, List.takeWhile_cons_of_neg (by decide), List.append_nil]
  unfold firstWord
  rw [htake]
  exact if_neg (List.cons_ne_nil _ _)

theorem elementText_named {name tag : List Char} (hnamed : Named t name) (hne : name ≠ [])
    (hword : name.all (fun c => !isAsciiWhitespace c) = true) : elementText tag t.body =
      if ['/'] <+: name ∨ afterColon name ≠ some tag then none else some (trimWhitespaceChars t.content) := by
  rw [elementText, breakOn_body hnamed.clean, Option.bind_some]
  dsimp only
  rw [firstWord_of_named hnamed hne hword, Option.bind_some]

theorem extract_inner_text_markup (hlead : '<' ∉ lead) (htags : ∀ t ∈ tags, t.Clean) (tag : List Char) :
    extract_inner_text (lead ++ markup tags) tag = tags.findSome? fun t => elementText tag t.body := by
  rw [extract_inner_text, splitOn_markup hlead htags, List.drop_one, List.tail_cons, List.findSome?_map]
  rfl

/-- An element without a prefix is not there. -/
theorem extract_tag_markup {tag : List Char} (hlead : '<' ∉ lead) (htag : '<' ∉ tag)
    (hheads : Heads names tags)
    (hclosed : clear (tag ++ ['>']) names = true) (hspaced : clear (tag ++ [' ']) names = true) :
    extract_tag (lead ++ markup tags) tag = tags.findSome? fun t => elementText tag t.body := by
  have hfirst : breakOn ("<".toList ++ tag ++ ['>']) (lead ++ markup tags) = none := by
    rw [List.append_assoc, bare_word]
    exact breakOn_absent hlead (by simp [htag]) (hheads.pass hclosed)
  have hsecond : breakOn ("<".toList ++ tag ++ [' ']) (lead ++ markup tags) = none := by
    rw [List.append_assoc, bare_word]
    exact breakOn_absent hlead (by simp [htag]) (hheads.pass hspaced)
  unfold extract_tag
  rw [hfirst, hsecond]
  exact extract_inner_text_markup hlead hheads.clean tag

/-- None of the names is, behind a prefix, that of an element called `tag`. -/
def lacks (tag : List Char) (names : List (List Char)) : Bool :=
  names.all fun name => !name.isEmpty && name.all (fun c => !isAsciiWhitespace c) &&
    (['/'].isPrefixOf name || afterColon name ≠ some tag)

theorem findSome?_lacks {tag : List Char} (hheads : Heads names tags) (hlacks : lacks tag names = true) :
    tags.findSome? (fun t => elementText tag t.body) = none := by
  rw [List.findSome?_eq_none_iff]
  intro t ht
  obtain ⟨name, hname, hnamed⟩ := hheads t ht
  have hfacts := List.all_eq_true.1 hlacks name hname
  simp only [Bool.and_eq_true, Bool.or_eq_true, Bool.not_eq_true', List.isEmpty_eq_false_iff,
    List.isPrefixOf_iff_prefix, decide_eq_true_eq] at hfacts
  obtain ⟨⟨hne, hword⟩, hother⟩ := hfacts
  rw [elementText_named hnamed hne hword, if_pos hother]

/-- The names of the tags of a message and of what may follow it. -/
def messageNames : List (List Char) :=
  openingNames ++ (Section.tagNames .source ++
    (Section.tagNames .key ++ (Section.tagNames .data ++ closingNames))) ++ ["/wsnt:Notify".toList]

theorem heads_message (sp : Spacing) (e : Event) {more : List Tag}
    (hmore : Heads ["/wsnt:Notify".toList] more) :
    Heads messageNames (messageTags sp e ++ more) := by
  rw [messageTags_eq]
  exact ((heads_opening sp e).append ((heads_section sp e _).append ((heads_section sp e _).append
    ((heads_section sp e _).append (heads_closing sp))))).append hmore

theorem topic_message (hlead : '<' ∉ lead) (sp : Spacing) (e : Event) {more : List Tag}
    (hmore : Heads ["/wsnt:Notify".toList] more) :
    extract_tag (lead ++ markup (messageTags sp e ++ more)) "Topic".toList =
    some (trimWhitespaceChars (escape e.topic)) := by
  rw [extract_tag_markup hlead (by decide) (heads_message sp e hmore) (by decide) (by decide), messageTags,
    List.cons_append, List.findSome?_cons, elementText_named (named_topic e) (by decide) (by decide),
      if_neg (by decide)]

theorem time_element (hlead : '<' ∉ lead) (sp : Spacing) (e : Event) {more : List Tag}
    (hmore : Heads ["/wsnt:Notify".toList] more) :
    extract_tag (lead ++ markup (messageTags sp e ++ more)) "UtcTime".toList = none := by
  rw [extract_tag_markup hlead (by decide) (heads_message sp e hmore) (by decide) (by decide)]
  exact findSome?_lacks (heads_message sp e hmore) (by decide)

end Tags

/-! ### The time of a message -/

/-- Between the quotes of the text stand the names and values of the items, in order. -/
inductive Quotes : List Char → List (String × String) → Prop
  | done {u : List Char} (hu : '"' ∉ u) : Quotes u []
  | item {u rest : List Char} {items : List (String × String)} (hu : '"' ∉ u) (item : String × String)
    (hrest : Quotes rest items) :
      Quotes (u ++ itemText item (escape item.2 ++ '"' :: rest)) (item :: items)

section Times

variable {u v text more : List Char} {items later : List (String × String)} {sp : Spacing} {e : Event}

theorem Quotes.prepend (h : Quotes text items) (hv : '"' ∉ v) : Quotes (v ++ text) items := by
  cases h with
  | done hu => exact .done (by simp [hv, hu])
  | item hu item hrest =>
    rw [← List.append_assoc]
    exact .item (by simp [hv, hu]) item hrest

theorem Quotes.append (h : Quotes text items) (hmore : Quotes more later) :
    Quotes (text ++ more) (items ++ later) := by
  induction h with
  | done hu => exact hmore.prepend hu
  | item hu item hrest ih =>
    rw [List.append_assoc, itemText_append, List.append_assoc, List.cons_append]
    exact .item hu item ih

theorem quotes_item (item : String × String) (b : Blank) :
    Quotes (markup [⟨itemOpening item, b.chars⟩]) [item] := by
  have hb := b.not_mem (c := '"') (by decide)
  have hclose : '"' ∉ "/>".toList ++ b.chars := by simp [hb]
  have hread : Quotes (('<' :: ("tt:".toList ++ "SimpleItem".toList)) ++
        itemText item (escape item.2 ++ '"' :: ("/>".toList ++ b.chars))) [item] :=
    .item (by decide) item (.done hclose)
  rw [markup_cons, Tag.body, itemOpening_append, markup_nil, List.append_nil]
  simpa using hread

theorem quotes_itemTags (blank : Nat → Blank) (items : List (String × String)) :
    Quotes (markup (itemTags blank items)) items := by
  induction items generalizing blank with
  | nil => exact .done List.not_mem_nil
  | cons item items ih =>
    have hread := (quotes_item item (blank 0)).append (ih fun i => blank (i + 1))
    rw [← markup_append] at hread
    exact hread

theorem quotes_sectionTags (sp : Spacing) (e : Event) (s : Section) :
    Quotes (markup (sectionTags sp e s)) (e.items s) := by
  unfold sectionTags
  split_ifs with homit
  · rw [homit.1]
    exact .done List.not_mem_nil
  · have hbare (pre : String) (hpre : '"' ∉ pre.toList) (blank : Blank) :
        '"' ∉ markup [⟨pre.toList ++ s.name, blank.chars⟩] := by
      have hname : '"' ∉ s.name := by cases s <;> decide
      have hblank := blank.not_mem (c := '"') (by decide)
      simp [Tag.body, hpre, hname, hblank]
    have hopen := hbare "tt:" (by decide) (sp.opened s)
    have hclose := hbare "/tt:" (by decide) (sp.closed s)
    have hread := ((quotes_itemTags (sp.item s) (e.items s)).append (.done hclose)).prepend hopen
    rw [List.append_nil, ← markup_append, ← markup_append] at hread
    exact hread

theorem splitOn_item (hu : '"' ∉ u) (item : String × String) (rest : List Char) :
    Text.splitOn '"' (u ++ itemText item (escape item.2 ++ '"' :: rest)) =
      (u ++ " Name=".toList) :: escape item.1 :: " Value=".toList :: escape item.2 ::
      Text.splitOn '"' rest := by
  unfold itemText
  rw [← List.append_assoc, Text.splitOn_append (by simp [hu]), Text.splitOn_append (quote_not_mem_escape _),
    Text.splitOn_append (by decide), Text.splitOn_append (quote_not_mem_escape _)]

theorem not_suffix_name (u : List Char) : ¬ "UtcTime=".toList <:+ u ++ " Name=".toList := by
  intro h
  rcases List.suffix_or_suffix_of_suffix h (List.suffix_append u " Name=".toList) with hin | hin
  · exact absurd hin (by decide)
  · exact absurd hin (by decide)

/-- Where the quotes are those of items, no time is found between them where no name and no value
before the last ends as a time begins. -/
theorem Quotes.between_eq_none (h : Quotes text items) :
    between "UtcTime=".toList (Text.splitOn '"' text) = none ↔
    (∀ item ∈ items, ¬ "UtcTime=".toList <:+ escape item.1) ∧
    ∀ item ∈ items.dropLast, ¬ "UtcTime=".toList <:+ escape item.2 := by
  induction h with
  | done hu =>
    rw [Text.splitOn_self hu]
    simp [between]
  | item hu item hrest ih =>
    rw [splitOn_item hu, between_pass (not_suffix_name _), List.forall_mem_cons]
    by_cases hends : "UtcTime=".toList <:+ escape item.1
    · rw [between_hit hends (List.cons_ne_nil _ _)]
      exact iff_of_false (Option.some_ne_none _) fun h => h.1.1 hends
    · rw [between_pass hends, between_pass (by decide), and_iff_right hends]
      cases hrest with
      | done hrest =>
        rw [Text.splitOn_self hrest]
        by_cases hvalue : "UtcTime=".toList <:+ escape item.2
        · rw [between_end hvalue]
          simp
        · rw [between_pass hvalue]
          simp [between]
      | item hv second hlast =>
        rw [List.dropLast_cons_cons, List.forall_mem_cons (a := item)]
        rw [splitOn_item hv] at ih ⊢
        by_cases hvalue : "UtcTime=".toList <:+ escape item.2
        · rw [between_hit hvalue (List.cons_ne_nil _ _)]
          exact iff_of_false (Option.some_ne_none _) fun h => h.2.1 hvalue
        · rw [between_pass hvalue, ih, and_iff_right hvalue]

theorem timeless_iff : Timeless items ↔
    (∀ item ∈ items, ¬ "UtcTime=".toList <:+ escape item.1) ∧
    ∀ item ∈ items.dropLast, ¬ "UtcTime=".toList <:+ escape item.2 := by
  have hsuffix : ∀ s : String, "UtcTime=".toList <:+ escape s ↔ "UtcTime=".toList <:+ s.toList := fun s =>
    suffix_escape (by simp [special])
  simp only [Timeless, hsuffix]

/-- The attribute is looked for from the first `Message` on, which stands before the message or in
its topic. -/
theorem extract_attr_value_message (lead : List Char) (hlead : 'M' ∉ lead) (sp : Spacing) (e : Event)
    (more : List Tag) :
    ∃ u, '"' ∉ u ∧ extract_attr_value
    (lead ++ markup (messageTags sp e ++ more)) "Message".toList "UtcTime".toList =
      extract_attr_inline (u ++ '<' :: ((⟨messageOpening e.utcTime, sp.message.chars⟩ : Tag).body ++
        markup (sectionTags sp e .source ++
          (sectionTags sp e .key ++ (sectionTags sp e .data ++ (closingTags sp ++ more))))))
          "UtcTime".toList := by
  set rest := '<' :: ((⟨messageOpening e.utcTime, sp.message.chars⟩ : Tag).body ++
    markup (sectionTags sp e .source ++
      (sectionTags sp e .key ++ (sectionTags sp e .data ++ (closingTags sp ++ more))))) with hrest
  have htopic := quote_not_mem_escape e.topic
  have hquiet : '"' ∉ escape e.topic ++
      markup [⟨"/wsnt:Topic".toList, sp.topic.chars⟩, ⟨"wsnt:Message".toList, sp.envelope.chars⟩] := by
    have := sp.topic.not_mem (c := '"') (by decide)
    have := sp.envelope.not_mem (c := '"') (by decide)
    simp [Tag.body, *]
  have hblock : lead ++ markup (messageTags sp e ++ more) = (lead ++ '<' :: (topicOpening ++ ['>'])) ++
      ((escape e.topic ++ markup [⟨"/wsnt:Topic".toList, sp.topic.chars⟩,
            ⟨"wsnt:Message".toList, sp.envelope.chars⟩]) ++ rest) := by
    rw [messageTags_eq, openingTags, hrest]
    simp only [List.append_assoc, List.cons_append, markup_cons, markup_append, markup_nil, Tag.body,
      List.nil_append]
  have hin : "Message".toList <:+: escape e.topic ++
      markup [⟨"/wsnt:Topic".toList, sp.topic.chars⟩, ⟨"wsnt:Message".toList, sp.envelope.chars⟩] := by
    refine ⟨escape e.topic ++ '<' :: ("/wsnt:Topic".toList ++ '>' :: sp.topic.chars) ++ '<' ::
      "wsnt:".toList, '>' :: sp.envelope.chars, ?_⟩
    simp [Tag.body]
  obtain ⟨⟨before, after⟩, hbreak⟩ := Option.ne_none_iff_exists'.1 fun hnone => breakOn_eq_none.1 hnone hin
  have hfree : 'M' ∉ lead ++ '<' :: (topicOpening ++ ['>']) := by
    have : 'M' ∉ topicOpening := by decide
    simp [hlead, this]
  refine ⟨"Message".toList ++ after, ?_, ?_⟩
  · rw [breakOn_eq_some hbreak] at hquiet
    simp only [List.mem_append, not_or] at hquiet ⊢
    exact ⟨hquiet.1.2, hquiet.2⟩
  · have hword : "Message".toList = 'M' :: "essage".toList := rfl
    have hwhole := breakOn_append hbreak rest
    rw [hword] at hwhole
    unfold extract_attr_value
    rw [hblock, hword, breakOn_skip hfree, hwhole, Option.map_some, Option.bind_some]
    exact congrArg (extract_attr_inline · "UtcTime".toList)
      (List.append_assoc ('M' :: "essage".toList) after rest).symm

theorem opening_without_time (b : Blank) :
    (⟨messageOpening none, b.chars⟩ : Tag).body = "tt:Message".toList ++ '>' :: b.chars := rfl

theorem opening_with_time (time : String) (b : Blank) : (⟨messageOpening (some time), b.chars⟩ : Tag).body =
    "tt:Message ".toList ++ ("UtcTime=".toList ++ '"' :: (escape time ++ '"' :: '>' :: b.chars)) := by
  have hname : "tt:Message UtcTime=\"".toList = "tt:Message ".toList ++ ("UtcTime=".toList ++ ['"']) := by
    simp
  have hend : "\"".toList = ['"'] := by simp
  unfold Tag.body messageOpening
  dsimp only
  rw [hname, hend]
  simp only [List.append_assoc, List.cons_append, List.nil_append]

theorem time_attribute (lead : List Char) (hlead : 'M' ∉ lead) (sp : Spacing) (e : Event)
    {more : List Tag} (hmore : '"' ∉ markup more) :
    (∀ time, e.utcTime = some time →
      extract_attr_value (lead ++ markup (messageTags sp e ++ more)) "Message".toList
      "UtcTime".toList = some (escape time)) ∧
    (e.utcTime = none → (extract_attr_value (lead ++ markup (messageTags sp e ++ more))
      "Message".toList "UtcTime".toList = none ↔ Timeless (e.source ++ e.key ++ e.data))) := by
  obtain ⟨u, hu, heq⟩ := extract_attr_value_message lead hlead sp e more
  rw [heq, extract_attr_inline_eq (by decide)]
  constructor
  · intro time htime
    have hopening : ∀ rest, u ++ '<' ::
      ((⟨messageOpening (some time), sp.message.chars⟩ : Tag).body ++ rest) =
        (u ++ '<' :: ("tt:Message ".toList ++ "UtcTime=".toList)) ++ '"' ::
            (escape time ++ '"' :: ('>' :: sp.message.chars ++ rest)) := by
      intro rest
      rw [opening_with_time]
      simp only [List.append_assoc, List.cons_append]
    have hfree : '"' ∉ u ++ '<' :: ("tt:Message ".toList ++ "UtcTime=".toList) := by simp [hu]
    rw [htime, hopening, Text.splitOn_append hfree, Text.splitOn_append (quote_not_mem_escape _)]
    exact between_hit ⟨u ++ '<' :: "tt:Message ".toList, by simp⟩ (splitOn_ne_nil _ _)
  · intro hnone
    have hfree : '"' ∉ u ++ '<' :: (⟨messageOpening none, sp.message.chars⟩ : Tag).body := by
      have := sp.message.not_mem (c := '"') (by decide)
      rw [opening_without_time]
      simp [hu, this]
    have hclosing : '"' ∉ markup (closingTags sp) ++ markup more := by
      have := sp.messageEnd.not_mem (c := '"') (by decide)
      have := sp.envelopeEnd.not_mem (c := '"') (by decide)
      have := sp.notificationEnd.not_mem (c := '"') (by decide)
      simp [closingTags, Tag.body, *]
    have hquotes := ((quotes_sectionTags sp e .source).append ((quotes_sectionTags sp e .key).append
      ((quotes_sectionTags sp e .data).append (.done hclosing)))).prepend hfree
    have hshape : u ++ '<' :: ((⟨messageOpening none, sp.message.chars⟩ : Tag).body ++
        markup (sectionTags sp e .source ++
          (sectionTags sp e .key ++ (sectionTags sp e .data ++ (closingTags sp ++ more))))) =
        u ++ '<' :: (⟨messageOpening none, sp.message.chars⟩ : Tag).body ++
          (markup (sectionTags sp e .source) ++
          (markup (sectionTags sp e .key) ++
                (markup (sectionTags sp e .data) ++ (markup (closingTags sp) ++ markup more)))) := by
      simp only [markup_append, List.append_assoc, List.cons_append]
    rw [hnone, hshape, show "UtcTime".toList ++ ['='] = "UtcTime=".toList from rfl,
      hquotes.between_eq_none, timeless_iff]
    simp only [Event.items, List.append_nil, List.append_assoc]

end Times

/-! ### Maps of items -/

section Maps

variable {m : Std.ExtHashMap String String} {items read before after : List (String × String)}
  {name value : String} {item : String × String}

theorem insertItems_append (m : Std.ExtHashMap String String) (before after : List (String × String)) :
    insertItems m (before ++ after) = insertItems (insertItems m before) after := List.foldl_append

/-- The last item of a name gives its value. -/
theorem get_insertItems : (insertItems ∅ items)[name]? = some value ↔
    ∃ before after, items = before ++ (name, value) :: after ∧ ∀ x ∈ after, x.1 ≠ name := by
  induction items using List.reverseRecOn with
  | nil => simp [insertItems]
  | append_singleton items item ih =>
    rw [insertItems_append, insertItems, List.foldl_cons, List.foldl_nil, Std.ExtHashMap.getElem?_insert]
    constructor
    · intro h
      split_ifs at h with hname
      · obtain rfl := Option.some.inj h
        obtain rfl := beq_iff_eq.1 hname
        exact ⟨items, [], rfl, by simp⟩
      · obtain ⟨before, after, rfl, hafter⟩ := ih.1 h
        refine ⟨before, after ++ [item], by simp, fun x hx => ?_⟩
        rcases List.mem_append.1 hx with hx | hx
        · exact hafter x hx
        · rw [List.mem_singleton.1 hx]
          exact fun heq => hname (beq_iff_eq.2 heq)
    · rintro ⟨before, after, heq, hafter⟩
      rcases List.eq_nil_or_concat after with rfl | ⟨after, last, rfl⟩
      · obtain ⟨-, hlast⟩ := List.append_inj' heq rfl
        obtain rfl := List.singleton_inj.1 hlast
        exact if_pos (beq_self_eq_true name)
      · rw [List.concat_eq_append, ← List.cons_append, ← List.append_assoc] at heq
        obtain ⟨rfl, hlast⟩ := List.append_inj' heq rfl
        obtain rfl := List.singleton_inj.1 hlast
        rw [if_neg fun hname => hafter item (by simp) (beq_iff_eq.1 hname)]
        exact ih.2 ⟨before, after, rfl, fun x hx => hafter x (by simp [hx])⟩

theorem get_insertItems_none : (insertItems ∅ items)[name]? = none ↔ ∀ x ∈ items, x.1 ≠ name := by
  induction items using List.reverseRecOn with
  | nil => simp [insertItems]
  | append_singleton items item ih =>
    rw [insertItems_append, insertItems, List.foldl_cons, List.foldl_nil, Std.ExtHashMap.getElem?_insert]
    by_cases hname : item.1 = name
    · rw [if_pos (beq_iff_eq.2 hname)]
      exact iff_of_false (Option.some_ne_none _) fun h => h item (by simp) hname
    · rw [if_neg (mt beq_iff_eq.1 hname)]
      simp only [List.mem_append, List.mem_singleton, or_imp, forall_and, forall_eq, hname, ne_eq,
        not_false_eq_true, and_true]
      exact ih

theorem mem_of_get (h : (insertItems ∅ items)[name]? = some value) : (name, value) ∈ items := by
  obtain ⟨before, after, rfl, -⟩ := get_insertItems.1 h
  exact List.mem_append_right _ List.mem_cons_self

theorem get_of_mem (h : item ∈ items) : ∃ value, (insertItems ∅ items)[item.1]? = some value :=
  Option.ne_none_iff_exists'.1 fun hnone => get_insertItems_none.1 hnone item h rfl

theorem escape_word (s : String) : ("SimpleItem".toList <:+: escape s ↔ "SimpleItem".toList <:+: s.toList) ∧
    ("Value=".toList <:+ escape s ↔ "Value=".toList <:+ s.toList) :=
  ⟨infix_escape (by simp [special]) (by decide) (by decide), suffix_escape (by simp [special])⟩

theorem name_of_readItem {other : String × String} (h : readItem item = some other) :
    other.1 = String.ofList (escape item.1) := by
  unfold readItem at h
  split_ifs at h
  · exact congrArg Prod.fst (Option.some.inj h).symm
  · exact congrArg Prod.fst (Option.some.inj h).symm

/-- Names that are all written forms of one another are written as they are: what is escaped gets longer. -/
theorem literal_names (h : ∀ item ∈ items, ∃ other ∈ items, item.1 = String.ofList (escape other.1)) :
    ∀ item ∈ items, Literal item.1 := by
  intro item hitem
  induction hn : item.1.toList.length using Nat.strong_induction_on generalizing item with
  | _ n ih =>
    obtain ⟨other, hother, heq⟩ := h item hitem
    by_cases hliteral : Literal other.1
    · rw [heq, escape_eq_iff.2 hliteral]
      exact hliteral
    · have hlt := length_escape_lt hliteral
      rw [heq, String.toList_ofList] at hn
      exact absurd (ih _ (hn ▸ hlt) other hother rfl) hliteral

/-- A value that is read as it is. -/
theorem get_read (hliteral : ∀ item ∈ items, Literal item.1)
    (h : (insertItems ∅ items)[name]? = some value) {other : String}
    (hread : readItem (name, value) = some (name, other)) :
    (insertItems ∅ (items.filterMap readItem))[name]? = some other := by
  obtain ⟨before, after, rfl, hafter⟩ := get_insertItems.1 h
  refine get_insertItems.2 ⟨before.filterMap readItem, after.filterMap readItem, ?_, fun x hx => ?_⟩
  · rw [List.filterMap_append, List.filterMap_cons_some hread]
  · obtain ⟨item, hitem, hx⟩ := List.mem_filterMap.1 hx
    rw [name_of_readItem hx, escape_eq_iff.2
      (hliteral item (List.mem_append_right _ (List.mem_cons_of_mem _ hitem)))]
    exact hafter item hitem

/-- What is read of the items is what they say, where no name has the word that items are split at
and none that is read does. -/
theorem insertItems_eq_iff (hfree : ∀ item ∈ read, ¬ "SimpleItem".toList <:+: item.1.toList ∧
    ¬ "SimpleItem".toList <:+: item.2.toList)
    (hread : (∀ item ∈ items, ¬ "SimpleItem".toList <:+: escape item.1) → read = items.filterMap readItem) :
    insertItems ∅ read = insertItems ∅ items ↔ Faithful items := by
  constructor
  · intro heq
    have hmem : ∀ {name value}, (insertItems ∅ items)[name]? = some value → (name, value) ∈ read :=
      fun h => mem_of_get (heq ▸ h)
    have hnames : ∀ item ∈ items, ¬ "SimpleItem".toList <:+: item.1.toList := fun item hitem =>
      let ⟨_, hvalue⟩ := get_of_mem hitem
      (hfree _ (hmem hvalue)).1
    have hitems := hread fun item hitem => mt (escape_word item.1).1.1 (hnames item hitem)
    have hliteral : ∀ item ∈ items, Literal item.1 := literal_names fun item hitem => by
      obtain ⟨value, hvalue⟩ := get_of_mem hitem
      obtain ⟨other, hother, hreadOther⟩ := List.mem_filterMap.1 (hitems ▸ hmem hvalue)
      have hname := name_of_readItem hreadOther
      exact ⟨other, hother, hname⟩
    intro name value hvalue
    obtain ⟨hname, hword⟩ := hfree _ (hmem hvalue)
    have hnameLiteral := hliteral _ (mem_of_get hvalue)
    have hwritten := escape_eq_iff.2 hnameLiteral
    by_cases hends : "Value=".toList <:+ name.toList
    · have hreadItem : readItem (name, value) = some (name, " Value=") := by
        rw [readItem, if_pos ((escape_word name).2.2 hends), hwritten]
      have hget := get_read hliteral hvalue hreadItem
      rw [← hitems, heq, hvalue] at hget
      obtain rfl := Option.some.inj hget
      exact ⟨⟨hnameLiteral, hname⟩, ⟨by simp [Literal, special], hword⟩, fun _ => rfl⟩
    · have hreadItem : readItem (name, value) = some (name, String.ofList (escape value)) := by
        rw [readItem, if_neg (mt (escape_word name).2.1 hends),
          if_neg (mt (escape_word value).1.1 hword), hwritten]
      have hget := get_read hliteral hvalue hreadItem
      rw [← hitems, heq, hvalue] at hget
      exact ⟨⟨hnameLiteral, hname⟩, ⟨escape_eq_iff.1 (Option.some.inj hget).symm, hword⟩,
        fun h => absurd h hends⟩
  · intro hfaithful
    have hkey : ∀ item ∈ items, Literal item.1 ∧ ¬ "SimpleItem".toList <:+: item.1.toList := fun item hitem =>
      let ⟨value, hvalue⟩ := get_of_mem hitem
      (hfaithful _ value hvalue).1
    rw [hread fun item hitem => mt (escape_word item.1).1.1 (hkey item hitem).2]
    refine Std.ExtHashMap.ext_getElem? fun name => ?_
    cases hvalue : (insertItems ∅ items)[name]? with
    | none =>
      rw [get_insertItems_none] at hvalue ⊢
      intro x hx
      obtain ⟨item, hitem, hx⟩ := List.mem_filterMap.1 hx
      rw [name_of_readItem hx, escape_eq_iff.2 (hkey item hitem).1]
      exact hvalue item hitem
    | some value =>
      obtain ⟨⟨hname, -⟩, ⟨hliteral, hword⟩, hends⟩ := hfaithful name value hvalue
      refine get_read (fun item hitem => (hkey item hitem).1) hvalue ?_
      rw [readItem, escape_eq_iff.2 hname, escape_eq_iff.2 hliteral]
      by_cases hsuffix : "Value=".toList <:+ name.toList
      · rw [if_pos ((escape_word name).2.2 hsuffix), hends hsuffix]
      · rw [if_neg (mt (escape_word name).2.1 hsuffix), if_neg (mt (escape_word value).1.1 hword)]

end Maps

/-! ### Messages -/

section Messages

variable {lead : List Char} {pending more : List Tag} {names : List (List Char)} {sp : Spacing}
  {e : Event} {m : Event × Spacing}
  {messages : List (Event × Spacing)} {block : List Char} {last : Blank}

def word : List Char := "wsnt:NotificationMessage".toList

theorem word_tag : "<wsnt:NotificationMessage".toList = '<' :: word := by
  unfold word
  simp

theorem notificationTags_eq (m : Event × Spacing) :
    notificationTags m = ⟨word, m.2.notification.chars⟩ :: messageTags m.2 m.1 := rfl

/-- The part of the body that begins with the message, after its first tag's name. -/
def messageBlock (m : Event × Spacing) (more : List Tag) : List Char :=
  ('>' :: m.2.notification.chars) ++ markup (messageTags m.2 m.1 ++ more)

/-- What may follow the last message, or the tags before the first one. -/
def Ending (last : Blank) (more : List Tag) : Prop := more = [] ∨ more = [⟨"/wsnt:Notify".toList, last.chars⟩]

theorem Ending.heads (h : Ending last more) : Heads ["/wsnt:Notify".toList] more := by
  rcases h with rfl | rfl
  · exact Heads.nil _
  · exact (Heads.nil []).cons (named_blank (by decide) last)

theorem Ending.not_mem {c : Char} (h : Ending last more) (hc : c ∉ "/wsnt:Notify".toList ∧ c ∉ ['<', '>'])
    (hblank : c ∉ [' ', '\t', '\r', '\n']) : c ∉ markup more := by
  rcases h with rfl | rfl
  · exact List.not_mem_nil
  · have hlast := last.not_mem hblank
    simp only [markup_cons, markup_nil, List.append_nil, Tag.body, List.mem_cons, List.mem_append,
      List.not_mem_nil, or_false, not_or] at hc ⊢
    exact ⟨hc.2.1, hc.1, hc.2.2, hlast⟩

/-- The body is split into what stands before the first message and a part for every message. -/
theorem split_messages (last : Blank) (hlead : '<' ∉ lead) (hpending : Heads names pending)
    (hclear : clear word names = true) (messages : List (Event × Spacing)) :
    ∃ more blocks, Ending last more ∧
    split ('<' :: word) (lead ++ markup (pending ++ (messages.flatMap notificationTags ++
        [⟨"/wsnt:Notify".toList, last.chars⟩]))) = (lead ++ markup (pending ++ more)) :: blocks ∧
      List.Forall₂ (fun block m => ∃ more, Ending last more ∧ block = messageBlock m more) blocks
      messages := by
  have hword : '<' ∉ word := by decide
  induction messages generalizing lead pending names with
  | nil =>
    refine ⟨[⟨"/wsnt:Notify".toList, last.chars⟩], [], .inr rfl, ?_, .nil⟩
    have hheads := hpending.append (Ending.heads (.inr rfl : Ending last _))
    have hclearAll : clear word (names ++ ["/wsnt:Notify".toList]) = true := by
      unfold clear at hclear ⊢
      rw [List.all_append, hclear]
      decide
    have habsent := breakOn_absent hlead hword (hheads.pass hclearAll)
    rw [List.flatMap_nil, List.nil_append, split_of_absent (List.cons_ne_nil _ _) (breakOn_eq_none.1 habsent)]
  | cons m messages ih =>
    have hheads := heads_message m.2 m.1 (Heads.nil ["/wsnt:Notify".toList])
    rw [List.append_nil] at hheads
    have hlead' : '<' ∉ '>' :: m.2.notification.chars := by
      have := m.2.notification.not_mem (c := '<') (by decide)
      simp [this]
    obtain ⟨more, blocks, hmore, hsplit, hblocks⟩ := ih hlead' hheads (by decide)
    refine ⟨[], messageBlock m more :: blocks, .inl rfl, ?_, .cons ⟨more, hmore, rfl⟩ hblocks⟩
    have hfound := breakOn_found hlead hword (hpending.pass hclear) (t := ⟨word, m.2.notification.chars⟩)
      ⟨'>' :: m.2.notification.chars, rfl⟩
      (messageTags m.2 m.1 ++ (messages.flatMap notificationTags ++ [⟨"/wsnt:Notify".toList, last.chars⟩]))
    have hbody : (⟨word, m.2.notification.chars⟩ : Tag).body.drop word.length = '>' ::
        m.2.notification.chars := List.drop_left
    rw [hbody] at hfound
    have hhere := split_of_breakOn (List.cons_ne_nil _ _) hfound
    rw [hsplit] at hhere
    rw [List.append_nil, messageBlock, ← hhere, List.flatMap_cons, notificationTags_eq]
    simp only [List.append_assoc, List.cons_append]

theorem parseBlock_message (m : Event × Spacing) (hmore : Ending last more) (hsendable : Sendable m.1) :
    parseBlock (messageBlock m more) =
    some ⟨String.ofList (escape m.1.topic),
    insertItems ∅ (sectionItems (messageBlock m more) "Source".toList),
      insertItems (insertItems ∅ (sectionItems (messageBlock m more) "Key".toList))
      (sectionItems (messageBlock m more) "Data".toList),
      (extract_attr_value (messageBlock m more) "Message".toList "UtcTime".toList).map String.ofList⟩ := by
  obtain ⟨hne, htrimmed⟩ := hsendable
  have hlead : '<' ∉ '>' :: m.2.notification.chars := by
    have := m.2.notification.not_mem (c := '<') (by decide)
    simp [this]
  have hin : "Topic".toList <:+: messageBlock m more := by
    obtain ⟨rest, hrest⟩ : ∃ rest, messageTags m.2 m.1 ++ more = ⟨topicOpening, escape m.1.topic⟩ ::
        rest := by
      rw [messageTags_eq, openingTags]
      exact ⟨_, rfl⟩
    have hopening : "Topic".toList <:+: topicOpening := by
      rw [show topicOpening = _ from Text.toList_eq rfl, show "Topic".toList = _ from Text.toList_eq rfl]
      decide
    refine hopening.trans ⟨'>' :: m.2.notification.chars ++ ['<'], '>' :: escape m.1.topic ++ markup rest, ?_⟩
    rw [messageBlock, hrest, markup_cons, Tag.body]
    simp only [List.append_assoc, List.cons_append, List.nil_append]
  have hsome : (breakOn "Topic".toList (messageBlock m more)).isNone = false := by
    rw [Option.isNone_eq_false_iff, Option.isSome_iff_ne_none]
    exact fun hnone => breakOn_eq_none.1 hnone hin
  have htrim : trimWhitespaceChars (escape m.1.topic) = escape m.1.topic := trim_escape (by
    have := congrArg String.toList htrimmed
    rwa [Text.trimWhitespace, String.toList_ofList] at this)
  have htopic : extract_tag (messageBlock m more) "Topic".toList = some (escape m.1.topic) := by
    rw [messageBlock, topic_message hlead m.2 m.1 hmore.heads, htrim]
  have htime : extract_tag (messageBlock m more) "UtcTime".toList = none :=
    time_element hlead m.2 m.1 hmore.heads
  have hnonempty : escape m.1.topic ≠ [] := by
    intro hnil
    have hle := length_escape_le m.1.topic.toList
    rw [show m.1.topic.toList.flatMap escapeChar = [] from hnil, List.length_nil] at hle
    exact hne (by simpa using hle)
  unfold parseBlock
  rw [hsome, htopic, htime]
  simp [hnonempty]

theorem time_eq_iff (m : Event × Spacing) (hmore : Ending last more) :
    (extract_attr_value (messageBlock m more) "Message".toList "UtcTime".toList).map String.ofList =
    m.1.utcTime ↔
      (∀ time, m.1.utcTime = some time → Literal time) ∧
      (m.1.utcTime = none → Timeless (m.1.source ++ m.1.key ++ m.1.data)) := by
  have hlead : 'M' ∉ '>' :: m.2.notification.chars := by
    have := m.2.notification.not_mem (c := 'M') (by decide)
    simp [this]
  obtain ⟨hsome, hnone⟩ := time_attribute _ hlead m.2 m.1 (hmore.not_mem (c := '"') (by decide) (by decide))
  unfold messageBlock
  cases htime : m.1.utcTime with
  | none =>
    rw [Option.map_eq_none_iff, hnone htime]
    simp
  | some time =>
    rw [hsome time htime, Option.map_some, Option.some_inj, escape_eq_iff]
    simp

/-- What is read of a message is the event exactly where the event is plain. -/
theorem parseBlock_eq_iff (m : Event × Spacing) (hmore : Ending last more) (hsendable : Sendable m.1) :
    parseBlock (messageBlock m more) = some m.1.meaning ↔ Plain m.1 := by
  have hlead : '<' ∉ '>' :: m.2.notification.chars := by
    have := m.2.notification.not_mem (c := '<') (by decide)
    simp [this]
  have hread : ∀ s, (∀ item ∈ m.1.items s, ¬ "SimpleItem".toList <:+: escape item.1) →
      sectionItems (messageBlock m more) s.name = (m.1.items s).filterMap readItem :=
    fun s hnames => sectionItems_message hlead m.2 m.1 s hmore.heads hnames
  have hsource := insertItems_eq_iff (fun item hitem => not_infix_of_section hitem) (hread .source)
  have hdata : insertItems ∅ (sectionItems (messageBlock m more) "Key".toList ++
    sectionItems (messageBlock m more) "Data".toList) =
      insertItems ∅ (m.1.key ++ m.1.data) ↔ Faithful (m.1.key ++ m.1.data) :=
    insertItems_eq_iff (fun item hitem =>
          (List.mem_append.1 hitem).elim not_infix_of_section not_infix_of_section) fun hnames => by
      rw [List.filterMap_append]
      exact congrArg₂ _ (hread .key fun item hitem => hnames item (List.mem_append_left _ hitem))
        (hread .data fun item hitem => hnames item (List.mem_append_right _ hitem))
  rw [parseBlock_message m hmore hsendable, Option.some_inj, Event.meaning, OnvifEvent.mk.injEq,
    ← insertItems_append, ← insertItems_append, escape_eq_iff, time_eq_iff m hmore, hdata]
  constructor
  · rintro ⟨htopic, hsrc, hdat, htime, htimeless⟩
    exact ⟨htopic, hsource.1 hsrc, hdat, htime, htimeless⟩
  · rintro ⟨htopic, hsrc, hdat, htime, htimeless⟩
    exact ⟨htopic, hsource.2 hsrc, hdat, htime, htimeless⟩

/-- What stands before the first message gives no event. -/
theorem parseBlock_prologue (first : Blank) (hmore : Ending last more) :
    parseBlock (markup (⟨notifyOpening, first.chars⟩ :: more)) = none := by
  have hquiet : 'T' ∉ markup (⟨notifyOpening, first.chars⟩ :: more) := by
    have hfirst := first.not_mem (c := 'T') (by decide)
    have hopening : 'T' ∉ notifyOpening := by
      rw [show notifyOpening = _ from Text.toList_eq rfl]
      decide
    have hend := hmore.not_mem (c := 'T') (by decide) (by decide)
    simp [Tag.body, hfirst, hopening, hend]
  have hnone : breakOn "Topic".toList (markup (⟨notifyOpening, first.chars⟩ :: more)) = none :=
    breakOn_eq_none.2 fun hin => hquiet (hin.subset (by decide))
  rw [parseBlock, hnone]
  rfl

theorem named_notify (first : Blank) : Named ⟨notifyOpening, first.chars⟩ "wsnt:Notify".toList := by
  have hopening : notifyOpening = _ := Text.toList_eq rfl
  have hname : "wsnt:Notify".toList = _ := Text.toList_eq rfl
  have hfree : '<' ∉ notifyOpening ∧ '>' ∉ notifyOpening := by
    rw [hopening]
    decide
  refine ⟨⟨hfree.1, hfree.2, first.not_mem (by decide)⟩, .inr ⟨notifyOpening.drop 12, ?_⟩⟩
  rw [hopening, hname]
  rfl

/-- Every message gives one event, in order. -/
theorem parse_blocks {blocks : List (List Char)}
    (h : List.Forall₂ (fun block m => ∃ more, Ending last more ∧ block = messageBlock m more)
      blocks messages)
    (hsendable : ∀ m ∈ messages, Sendable m.1) :
    blocks.filterMap parseBlock = messages.map (fun m => m.1.meaning) ↔ ∀ m ∈ messages, Plain m.1 := by
  induction h with
  | nil => simp
  | @cons block m blocks messages hblock hblocks ih =>
    obtain ⟨more, hmore, rfl⟩ := hblock
    obtain ⟨hhead, htail⟩ := List.forall_mem_cons.1 hsendable
    have hevent := parseBlock_eq_iff m hmore hhead
    rw [parseBlock_message m hmore hhead, Option.some_inj] at hevent
    rw [List.filterMap_cons_some (parseBlock_message m hmore hhead), List.map_cons, List.cons_eq_cons,
      hevent, ih htail, List.forall_mem_cons]

theorem parse_notification_messages_eq (first last : Blank) (messages : List (Event × Spacing)) : ∃ blocks,
    parse_notification_messages (notify first last messages) = blocks.filterMap parseBlock ∧
      List.Forall₂ (fun block m => ∃ more, Ending last more ∧ block = messageBlock m more) blocks
      messages := by
  obtain ⟨more, blocks, hmore, hsplit, hblocks⟩ := split_messages last List.not_mem_nil
    ((Heads.nil []).cons (named_notify first)) (by decide) messages
  refine ⟨blocks, ?_, hblocks⟩
  rw [parse_notification_messages, word_tag, notify, String.toList_ofList]
  have hsplit' : split ('<' :: word)
    (markup (⟨notifyOpening, first.chars⟩ :: messages.flatMap notificationTags ++
      [⟨"/wsnt:Notify".toList, last.chars⟩])) = markup (⟨notifyOpening, first.chars⟩ :: more) ::
        blocks := hsplit
  rw [hsplit', List.filterMap_cons_none (parseBlock_prologue first hmore)]

theorem parses_iff {first last : Blank} {messages : List (Event × Spacing)}
    (hsendable : ∀ m ∈ messages, Sendable m.1) :
    parse_notification_messages (notify first last messages) = messages.map (fun m => m.1.meaning) ↔
    ∀ m ∈ messages, Plain m.1 := by
  obtain ⟨blocks, hparse, hblocks⟩ := parse_notification_messages_eq first last messages
  rw [hparse]
  exact parse_blocks hblocks hsendable

/-- Items with names and values that the parser reads as they are. -/
theorem faithful_of_forall {items : List (String × String)}
    (hliteral : ∀ item ∈ items, Literal item.1 ∧ Literal item.2)
    (hword : ∀ item ∈ items, ¬ "SimpleItem".toList <:+: item.1.toList ∧ ¬ "SimpleItem".toList <:+:
      item.2.toList)
    (hends : ∀ item ∈ items, ¬ "Value=".toList <:+ item.1.toList) : Faithful items := by
  intro name value hvalue
  have hmem := mem_of_get hvalue
  obtain ⟨hname, hvalue⟩ := hliteral _ hmem
  obtain ⟨hnameWord, hvalueWord⟩ := hword _ hmem
  exact ⟨⟨hname, hnameWord⟩, ⟨hvalue, hvalueWord⟩, fun h => absurd h (hends _ hmem)⟩

end Messages

/-! ### Two messages -/

namespace Motion

def nothing : Blank := ⟨[], by simp⟩

def line : Blank := ⟨['\n', ' '], by simp⟩

def spacing : Spacing where
  notification := line
  topic := nothing
  envelope := line
  message := line
  opened := fun _ => nothing
  item := fun _ _ => nothing
  closed := fun _ => line
  messageEnd := nothing
  envelopeEnd := nothing
  notificationEnd := line
  omits := fun s => s = .key

def motion (camera : String) : Event where
  topic := "tns1:RuleEngine/CellMotionDetector/Motion"
  source := [("VideoSource", camera)]
  key := []
  data := [("IsMotion", "true")]
  utcTime := some "2026-01-02T03:04:05Z"

theorem sendable (camera : String) : Sendable (motion camera) where
  topic := by simp [motion]
  trimmed :=
    (by decide : Text.trimWhitespace "tns1:RuleEngine/CellMotionDetector/Motion" =
      "tns1:RuleEngine/CellMotionDetector/Motion")

theorem plain_motion : Plain (motion "1") where
  topic := by simp [motion, Literal, special]
  source := faithful_of_forall (by simp [motion, Literal, special]) (by decide) (by decide)
  data := faithful_of_forall (by simp [motion, Literal, special]) (by decide) (by decide)
  time := by simp [motion, Literal, special]
  timeless := by simp [motion]

theorem parses_iff_motion :
    parse_notification_messages
    (notify nothing nothing [(motion "1", spacing)]) = [(motion "1").meaning] :=
  (parses_iff (by simpa using sendable "1")).2 (by simpa using plain_motion)

/-- An escaped character of a value is given back as it was written. -/
theorem not_parsed : Sendable (motion "Lobby & Bar") ∧
    parse_notification_messages
    (notify nothing nothing [(motion "Lobby & Bar", spacing)]) ≠ [(motion "Lobby & Bar").meaning] := by
  refine ⟨sendable _, fun heq => ?_⟩
  obtain ⟨blocks, hparse, hblocks⟩ :=
    parse_notification_messages_eq nothing nothing [(motion "Lobby & Bar", spacing)]
  rw [hparse] at heq
  have hplain := (parse_blocks hblocks (by simpa using sendable _)).1 heq _ (List.mem_singleton_self _)
  have hvalue : (insertItems ∅ (motion "Lobby & Bar").source)["VideoSource"]? = some "Lobby & Bar" :=
    get_insertItems.2 ⟨[], [], rfl, by simp⟩
  exact (hplain.source _ _ hvalue).2.1.1 '&' (by simp) (by simp [special])

end Motion

end OnvifEvents
