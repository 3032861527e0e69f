import BetterFrame.Lib.Search

/-!
# Text with tags

A tag is `<opening>` with the text up to the next one. A search for a word that begins with `<` goes
from tag to tag.
-/

open Search

/-- A tag and the text up to the next one. -/
structure Tag where
  opening : List Char
  content : List Char

namespace Tag

variable {t x : Tag} {tags before after : List Tag} {lead word : List Char}

/-- The text after the `<`. -/
def body (t : Tag) : List Char := t.opening ++ '>' :: t.content

/-- The text of a list of tags. -/
def markup (tags : List Tag) : List Char := tags.flatMap fun t => '<' :: t.body

/-- The tag ends where it should. -/
structure Clean (t : Tag) : Prop where
  opening : '<' ∉ t.opening
  closed : '>' ∉ t.opening
  content : '<' ∉ t.content

theorem Clean.body (h : t.Clean) : '<' ∉ t.body := by
  have := h.opening
  have := h.content
  simp [Tag.body, *]

@[simp] theorem markup_nil : markup [] = [] := rfl

@[simp] theorem markup_cons : markup (t :: tags) = '<' :: (t.body ++ markup tags) := rfl

@[simp] theorem markup_append : markup (before ++ after) = markup before ++ markup after :=
  List.flatMap_append

theorem splitOn_markup (hlead : '<' ∉ lead) (htags : ∀ t ∈ tags, t.Clean) :
    Text.splitOn '<' (lead ++ markup tags) = lead :: tags.map body := by
  induction tags generalizing lead with
  | nil => rw [markup_nil, List.append_nil, Text.splitOn_self hlead, List.map_nil]
  | cons t tags ih =>
    rw [markup_cons, Text.splitOn_append hlead, ih (htags t List.mem_cons_self).body fun x hx =>
      htags x (List.mem_cons_of_mem _ hx), List.map_cons]

/-- The opening and the content of a tag, which its first `>` separates. -/
theorem breakOn_body (h : t.Clean) : breakOn ['>'] t.body = some (t.opening, t.content) :=
  breakOn_mark h.closed t.content

/-- A word without `<` that a tag begins with lies in the tag. -/
theorem prefix_body (hword : '<' ∉ word) (h : word <+: t.body ++ markup tags) : word <+: t.body := by
  cases tags with
  | nil => rwa [markup_nil, List.append_nil] at h
  | cons x tags => exact prefix_of_prefix_over hword h

theorem breakOn_here (hlead : '<' ∉ lead) (h : word <+: t.body) (tags : List Tag) :
    breakOn ('<' :: word) (lead ++ markup (t :: tags)) = some (lead, t.body.drop word.length ++
      markup tags) := by
  obtain ⟨rest, hrest⟩ := h
  rw [breakOn_skip hlead, markup_cons, ← hrest, List.append_assoc, ← List.cons_append,
    Search.breakOn_here, List.drop_left]
  simp

theorem breakOn_pass (hlead : '<' ∉ lead) (hword : '<' ∉ word)
    (hbefore : ∀ t ∈ before, t.Clean ∧ ¬ word <+: t.body) (after : List Tag) :
    breakOn ('<' :: word) (lead ++ markup (before ++ after)) =
      (breakOn ('<' :: word) (markup after)).map fun p => (lead ++ markup before ++ p.1, p.2) := by
  induction before generalizing lead with
  | nil => rw [List.nil_append, breakOn_skip hlead, markup_nil, List.append_nil]
  | cons t before ih =>
    obtain ⟨hclean, hnot⟩ := hbefore t List.mem_cons_self
    have hlater := ih hclean.body fun x hx => hbefore x (List.mem_cons_of_mem _ hx)
    rw [breakOn_skip hlead, List.cons_append, markup_cons, breakOn, if_neg, hlater, Option.map_map,
      Option.map_map]
    · congr 1
      funext p
      simp
    · exact fun hprefix => hnot (prefix_body hword (List.cons_prefix_cons.1 hprefix).2)

/-- The first tag that begins with the word is found. -/
theorem breakOn_found (hlead : '<' ∉ lead) (hword : '<' ∉ word)
    (hbefore : ∀ t ∈ before, t.Clean ∧ ¬ word <+: t.body)
    (h : word <+: t.body) (after : List Tag) : breakOn ('<' :: word) (lead ++ markup (before ++ t :: after)) =
      some (lead ++ markup before, t.body.drop word.length ++ markup after) := by
  have hhere : breakOn ('<' :: word) (markup (t :: after)) = some ([], t.body.drop word.length ++
        markup after) :=
    breakOn_here List.not_mem_nil h after
  rw [breakOn_pass hlead hword hbefore, hhere, Option.map_some, List.append_nil]

theorem breakOn_absent (hlead : '<' ∉ lead) (hword : '<' ∉ word)
    (htags : ∀ t ∈ tags, t.Clean ∧ ¬ word <+: t.body) :
    breakOn ('<' :: word) (lead ++ markup tags) = none := by
  have hpass := breakOn_pass hlead hword htags []
  rw [List.append_nil] at hpass
  rw [hpass]
  rfl

end Tag
