import Mathlib.Data.List.Induction
import Mathlib.Data.Nat.Basic
import BetterFrame.Lib.Text

/-!
# SQL placeholders (pg-adapter.ts)

`rewriteSql` numbers the `?` of a statement for Postgres. `rewriteSql_exact` reads the statement as
quoted literals, marks and other characters, which can be done in one way, and says that only the
marks change.
-/

namespace Placeholders

open Text (isSpace)

/-! ### The rewriting -/

/-- What follows the word, in whatever case it stands there. -/
def stripWord : List Char → List Char → Option (List Char)
  | [], s => some s
  | _ :: _, [] => none
  | w :: word, c :: s => if c.toUpper = w then stripWord word s else none

/-- `\s+` -/
def spaces : List Char → Option (List Char)
  | [] => none
  | c :: s => if isSpace c then some (s.dropWhile isSpace) else none

/-- `INSERT\s+OR\s+WORD` -/
def insertOr (word s : List Char) : Option (List Char) :=
  ((((stripWord "INSERT".toList s).bind spaces).bind (stripWord "OR".toList)).bind spaces).bind
    (stripWord word)

def hasInsertOr (word : List Char) : List Char → Bool
  | [] => (insertOr word []).isSome
  | c :: s => (insertOr word (c :: s)).isSome || hasInsertOr word s

/-- `sql.replace(/INSERT\s+OR\s+WORD\s+INTO/gi, "INSERT INTO")`; every step takes at least one character. -/
def replaceInsertOr (word : List Char) : Nat → List Char → List Char
  | 0, s => s
  | _, [] => []
  | n + 1, c :: s =>
    match ((insertOr word (c :: s)).bind spaces).bind (stripWord "INTO".toList) with
    | some rest => "INSERT INTO".toList ++ replaceInsertOr word n rest
    | none => c :: replaceInsertOr word n s

/-- `sql.trimEnd().replace(/;?\s*$/, " ON CONFLICT DO NOTHING")` -/
def onConflict (sql : List Char) : List Char :=
  let trimmed := sql.reverse.dropWhile isSpace
  (if trimmed.head? = some ';' then trimmed.tail else trimmed).reverse ++ " ON CONFLICT DO NOTHING".toList

/-- The rewriting of SQLite's `INSERT OR` forms. -/
def dialect (sql : List Char) : List Char :=
  let sql := if hasInsertOr "IGNORE".toList sql then
    onConflict (replaceInsertOr "IGNORE".toList sql.length sql) else sql
  if hasInsertOr "REPLACE".toList sql then replaceInsertOr "REPLACE".toList sql.length sql else sql

def placeholder (n : Nat) : List Char := '$' :: (toString n).toList

/-- The loop: the character that closes the literal it is in, the placeholders so far and what is left. -/
def scan : Option Char → Nat → List Char → List Char
  | _, _, [] => []
  | some _, _, [c] => [c]
  | some q, n, c :: d :: s =>
    if c = q then (if d = q then c :: d :: scan (some q) n s else c :: scan none n (d :: s))
    else c :: scan (some q) n (d :: s)
  | none, n, c :: s =>
    if c = '\'' ∨ c = '"' then c :: scan (some c) n s
    else if c = '?' then placeholder (n + 1) ++ scan none (n + 1) s
    else c :: scan none n s

def rewriteSql (sql : String) : String := String.ofList (scan none 0 (dialect sql.toList))

/-! ### How a statement reads -/

/-- A literal has its content without the doubling, and its quote at the end, or not where the
statement ends first. -/
inductive Token where
  | char (c : Char)
  | mark
  | literal (q : Char) (content : List Char) (closed : Bool)
deriving DecidableEq

/-- A literal's content with its quotes doubled. -/
def doubled (q : Char) (content : List Char) : List Char :=
  content.flatMap fun c => if c = q then [c, c] else [c]

namespace Token

def text : Token → List Char
  | char c => [c]
  | mark => ['?']
  | literal q content closed => q :: (doubled q content ++ if closed then [q] else [])

/-- A token that the lexer could have cut. -/
def WellFormed : Token → Prop
  | char c => c ∉ ['\'', '"', '?']
  | mark => True
  | literal q _ _ => q = '\'' ∨ q = '"'

/-- What follows does not belong to the token. -/
def EndsBefore : Token → List Char → Prop
  | literal q _ true, rest => rest.head? ≠ some q
  | literal _ _ false, rest => rest = []
  | _, _ => True

end Token

def textOf (tokens : List Token) : List Char := tokens.flatMap Token.text

/-- Every token of the text is written as one, and what follows does not lengthen it. -/
inductive Reads : List Token → Prop
  | nil : Reads []
  | cons {t : Token} {tokens : List Token} (hform : t.WellFormed) (hends : t.EndsBefore (textOf tokens))
    (hrest : Reads tokens) :
      Reads (t :: tokens)

/-- The text of every token, with the k-th mark as the k-th placeholder. -/
def numbered (tokens : List Token) : List (List Char) :=
  tokens.mapIdx fun i t => if t = .mark then placeholder ((tokens.take (i + 1)).count .mark) else t.text

/-! ### Literals -/

section Literals

variable {q c : Char} {n : Nat} {s rest content : List Char} {closed : Bool}

theorem scan_other (hc : c ≠ q) (n : Nat) (s : List Char) :
    scan (some q) n (c :: s) = c :: scan (some q) n s := by
  cases s with
  | nil => rfl
  | cons d s => rw [scan, if_neg hc]

/-- The scan of a literal ends where the literal does. -/
theorem scan_literal (hends : (Token.literal q content closed).EndsBefore rest) (n : Nat) :
    scan (some q) n (doubled q content ++ ((if closed then [q] else []) ++ rest)) =
      doubled q content ++ ((if closed then [q] else []) ++ scan none n rest) := by
  induction content with
  | nil =>
    cases closed with
    | false =>
      obtain rfl : rest = [] := hends
      rfl
    | true =>
      cases rest with
      | nil => rfl
      | cons d s =>
        have hd : d ≠ q := fun h => hends (by rw [h]; rfl)
        show scan (some q) n (q :: d :: s) = q :: scan none n (d :: s)
        rw [scan, if_pos rfl, if_neg hd]
  | cons c content ih =>
    have hrest := ih (by cases closed <;> exact hends)
    by_cases hc : c = q
    · subst hc
      show scan (some c) n ((if c = c then [c, c] else [c]) ++ doubled c content ++ _) =
        (if c = c then [c, c] else [c]) ++ doubled c content ++ _
      rw [if_pos rfl, List.append_assoc, List.append_assoc, List.cons_append, List.cons_append,
        scan, if_pos rfl, if_pos rfl, List.nil_append, hrest]
      rfl
    · show scan (some q) n ((if c = q then [c, c] else [c]) ++ doubled q content ++ _) =
        (if c = q then [c, c] else [c]) ++ doubled q content ++ _
      rw [if_neg hc, List.append_assoc, List.append_assoc, List.singleton_append, scan_other hc, hrest]
      rfl

/-- The content of the literal that the text goes on with, whether it is closed, and what follows it. -/
def literalOf (q : Char) : List Char → List Char × Bool × List Char
  | [] => ([], false, [])
  | [c] => if c = q then ([], true, []) else ([c], false, [])
  | c :: d :: s =>
    if c = q then
      if d = q then (q :: (literalOf q s).1, (literalOf q s).2) else ([], true, d :: s)
    else (c :: (literalOf q (d :: s)).1, (literalOf q (d :: s)).2)

theorem literalOf_other (hc : c ≠ q) (s : List Char) :
    literalOf q (c :: s) = (c :: (literalOf q s).1, (literalOf q s).2) := by
  cases s with
  | nil => exact if_neg hc
  | cons d s => rw [literalOf, if_neg hc]

/-- What a literal is read back as. -/
theorem literalOf_text (hends : (Token.literal q content closed).EndsBefore rest) :
    literalOf q (doubled q content ++ ((if closed then [q] else []) ++ rest)) = (content, closed, rest) := by
  induction content with
  | nil =>
    cases closed with
    | false =>
      obtain rfl : rest = [] := hends
      rfl
    | true =>
      cases rest with
      | nil => exact if_pos rfl
      | cons d s =>
        have hd : d ≠ q := fun h => hends (by rw [h]; rfl)
        show literalOf q (q :: d :: s) = ([], true, d :: s)
        rw [literalOf, if_pos rfl, if_neg hd]
  | cons c content ih =>
    have hrest := ih (by cases closed <;> exact hends)
    by_cases hc : c = q
    · subst hc
      show literalOf c ((if c = c then [c, c] else [c]) ++ doubled c content ++ _) = _
      rw [if_pos rfl, List.append_assoc, List.cons_append, List.cons_append, literalOf, if_pos rfl,
        if_pos rfl, List.nil_append, hrest]
    · show literalOf q ((if c = q then [c, c] else [c]) ++ doubled q content ++ _) = _
      rw [if_neg hc, List.append_assoc, List.singleton_append, literalOf_other hc, hrest]

/-- Every text goes on with a literal. -/
theorem exists_literal (q : Char) (s : List Char) : ∃ content closed rest, s = doubled q content ++
    ((if closed then [q] else []) ++ rest) ∧
    (Token.literal q content closed).EndsBefore rest ∧ rest.length ≤ s.length := by
  induction s using literalOf.induct q with
  | case1 => exact ⟨[], false, [], rfl, rfl, Nat.le_refl _⟩
  | case2 => exact ⟨[], true, [], rfl, by simp [Token.EndsBefore], by simp⟩
  | case3 c hc => exact ⟨[c], false, [], by simp [doubled, hc], rfl, by simp⟩
  | case4 s ih =>
    obtain ⟨content, closed, rest, hs, hends, hle⟩ := ih
    refine ⟨q :: content, closed, rest,
      ?_, by cases closed <;> exact hends, by simp only [List.length_cons]; omega⟩
    rw [hs]
    simp [doubled]
  | case5 d s hd => exact ⟨[], true, d :: s, rfl, by simpa [Token.EndsBefore] using hd, by simp⟩
  | case6 c d s hc ih =>
    obtain ⟨content, closed, rest, hs, hends, hle⟩ := ih
    refine ⟨c :: content, closed, rest,
      ?_, by cases closed <;> exact hends, by simp only [List.length_cons] at *; omega⟩
    rw [hs]
    simp [doubled, hc]

end Literals

/-! ### Statements -/

section Statements

variable {t : Token} {tokens : List Token} {sql : String}

/-- The texts of the tokens after `n` marks. -/
theorem numbered_from (n : Nat) (t : Token) (tokens : List Token) :
    ((t :: tokens).mapIdx fun i x =>
      if x = .mark then placeholder (n + ((t :: tokens).take (i + 1)).count .mark) else x.text) =
      (if t = .mark then placeholder (n + 1) else t.text) ::
        tokens.mapIdx fun i x =>
          if x = .mark then
            placeholder ((if t = .mark then n + 1 else n) + (tokens.take (i + 1)).count .mark)
          else x.text := by
  rw [List.mapIdx_cons]
  by_cases ht : t = .mark
  · simp [ht, Nat.add_comm, Nat.add_left_comm, Nat.add_assoc]
  · simp [ht, List.count_cons_of_ne ht]

theorem scan_reads (h : Reads tokens) (n : Nat) : scan none n (textOf tokens) =
    (tokens.mapIdx fun i t => if t = .mark then placeholder (n + (tokens.take (i + 1)).count .mark)
      else t.text).flatten := by
  induction h generalizing n with
  | nil => rfl
  | @cons t tokens hform hends hrest ih =>
    rw [numbered_from, List.flatten_cons, ← ih]
    cases t with
    | char c =>
      simp only [Token.WellFormed, List.mem_cons, List.not_mem_nil, or_false, not_or] at hform
      show scan none n (c :: textOf tokens) = c :: scan none n (textOf tokens)
      rw [scan, if_neg (not_or.2 ⟨hform.1, hform.2.1⟩), if_neg hform.2.2]
    | mark =>
      show scan none n ('?' :: textOf tokens) = placeholder (n + 1) ++ scan none (n + 1) (textOf tokens)
      rw [scan, if_neg (by decide), if_pos rfl]
    | literal q content closed =>
      show scan none n (q :: (doubled q content ++ _ ++ textOf tokens)) = q ::
        (doubled q content ++ _) ++ scan none n (textOf tokens)
      rw [scan, if_pos (show q = '\'' ∨ q = '"' from hform), List.append_assoc, scan_literal hends,
        List.cons_append, List.append_assoc]

/-- Every text can be read. -/
theorem exists_reads (s : List Char) : ∃ tokens, Reads tokens ∧ textOf tokens = s := by
  induction hn : s.length using Nat.strong_induction_on generalizing s with
  | _ n ih =>
    cases s with
    | nil => exact ⟨[], .nil, rfl⟩
    | cons c s =>
      by_cases hquote : c = '\'' ∨ c = '"'
      · obtain ⟨content, closed, rest, hs, hends, hle⟩ := exists_literal c s
        obtain ⟨tokens, hreads, rfl⟩ := ih rest.length (by simp only [List.length_cons] at hn; omega) rest rfl
        refine ⟨.literal c content closed :: tokens, .cons hquote hends hreads, ?_⟩
        rw [hs]
        simp [textOf, Token.text]
      · obtain ⟨tokens, hreads, rfl⟩ := ih s.length (by simp only [List.length_cons] at hn; omega) s rfl
        rw [not_or] at hquote
        by_cases hmark : c = '?'
        · exact ⟨.mark :: tokens, .cons trivial trivial hreads, by rw [hmark]; rfl⟩
        · exact ⟨.char c :: tokens, .cons (by simp [Token.WellFormed, hquote, hmark]) trivial hreads, rfl⟩

/-- A text can be read in one way. -/
theorem Reads.unique (h : Reads tokens) : ∀ {others}, Reads others → textOf others = textOf tokens →
    others = tokens := by
  induction h with
  | nil =>
    intro others hothers heq
    cases hothers with
    | nil => rfl
    | @cons t others hform hends hrest => cases t <;> simp [textOf, Token.text] at heq
  | @cons t tokens hform hends hrest ih =>
    intro others hothers heq
    cases hothers with
    | nil => cases t <;> simp [textOf, Token.text] at heq
    | @cons x others hxform hxends hxrest =>
      have hsplit : x.text ++ textOf others = t.text ++ textOf tokens := heq
      cases t with
      | char c =>
        cases x with
        | char d =>
          obtain ⟨rfl, htail⟩ := List.cons.inj hsplit
          rw [ih hxrest htail]
        | mark =>
          obtain ⟨rfl, -⟩ := List.cons.inj hsplit
          simp [Token.WellFormed] at hform
        | literal q content closed =>
          obtain ⟨rfl, -⟩ := List.cons.inj hsplit
          rcases hxform with rfl | rfl <;> simp [Token.WellFormed] at hform
      | mark =>
        cases x with
        | char d =>
          obtain ⟨rfl, -⟩ := List.cons.inj hsplit
          simp [Token.WellFormed] at hxform
        | mark => rw [ih hxrest (List.cons.inj hsplit).2]
        | literal q content closed =>
          obtain ⟨rfl, -⟩ := List.cons.inj hsplit
          rcases hxform with h | h <;> simp at h
      | literal q content closed =>
        cases x with
        | char d =>
          obtain ⟨rfl, -⟩ := List.cons.inj hsplit
          rcases hform with rfl | rfl <;> simp [Token.WellFormed] at hxform
        | mark =>
          obtain ⟨rfl, -⟩ := List.cons.inj hsplit
          rcases hform with h | h <;> simp at h
        | literal r other ended =>
          obtain ⟨rfl, htail⟩ := List.cons.inj hsplit
          simp only [List.append_eq, List.append_assoc] at htail
          have hsame := congrArg (literalOf r) htail
          rw [literalOf_text hxends, literalOf_text hends, Prod.mk.injEq, Prod.mk.injEq] at hsame
          obtain ⟨rfl, rfl, htexts⟩ := hsame
          rw [ih hxrest htexts]

theorem dialect_of_not_hasInsertOr {s : List Char} (hignore : hasInsertOr "IGNORE".toList s = false)
    (hreplace : hasInsertOr "REPLACE".toList s = false) : dialect s = s := by
  simp only [dialect, hignore, Bool.false_eq_true, if_false, hreplace]

/-- Without the marks, the texts are those of the tokens. -/
theorem delete_marks (tokens : List Token) :
    ((tokens.zip (numbered tokens)).filter (·.1 ≠ .mark)).flatMap Prod.snd =
    textOf (tokens.filter (· ≠ .mark)) := by
  suffices h : ∀ n, ((tokens.zip (tokens.mapIdx fun i t =>
    if t = .mark then placeholder (n + (tokens.take (i + 1)).count .mark) else t.text)).filter
      (·.1 ≠ .mark)).flatMap Prod.snd = textOf (tokens.filter (· ≠ .mark)) by
    simpa only [numbered, Nat.zero_add] using h 0
  intro n
  induction tokens generalizing n with
  | nil => rfl
  | cons t tokens ih =>
    rw [numbered_from, List.zip_cons_cons]
    by_cases ht : t = .mark
    · rw [List.filter_cons_of_neg (by simp [ht]), List.filter_cons_of_neg (by simp [ht]), ih]
    · rw [List.filter_cons_of_pos (by simp [ht]), List.filter_cons_of_pos (by simp [ht]),
        List.flatMap_cons, ih, if_neg ht]
      rfl

/-- A statement reads in one way, and only its marks are rewritten: the k-th to the k-th placeholder. -/
theorem rewriteSql_exact (hignore : hasInsertOr "IGNORE".toList sql.toList = false)
    (hreplace : hasInsertOr "REPLACE".toList sql.toList = false) :
    ∃ tokens, (∀ others, Reads others ∧ textOf others = sql.toList ↔ others = tokens) ∧
      rewriteSql sql = String.ofList (numbered tokens).flatten ∧
      ((tokens.zip (numbered tokens)).filter (·.1 ≠ .mark)).flatMap Prod.snd = textOf
      (tokens.filter (· ≠ .mark)) := by
  obtain ⟨tokens, hreads, htext⟩ := exists_reads sql.toList
  refine ⟨tokens, fun others => ⟨fun h => hreads.unique h.1 (h.2.trans htext.symm), ?_⟩, ?_,
    delete_marks tokens⟩
  · rintro rfl
    exact ⟨hreads, htext⟩
  · rw [rewriteSql, dialect_of_not_hasInsertOr hignore hreplace, ← htext, scan_reads hreads, numbered]
    simp only [Nat.zero_add]

/-- `SELECT 'it''s ?', ? FROM "a?" WHERE b = ? AND c = 'open` -/
theorem rewriteSql_exact_open : ∃ tokens,
    (∀ others, Reads others ∧
      textOf others = "SELECT 'it''s ?', ? FROM \"a?\" WHERE b = ? AND c = 'open".toList ↔
      others = tokens) ∧
      rewriteSql "SELECT 'it''s ?', ? FROM \"a?\" WHERE b = ? AND c = 'open" = String.ofList
      (numbered tokens).flatten ∧
      ((tokens.zip (numbered tokens)).filter (·.1 ≠ .mark)).flatMap Prod.snd = textOf
      (tokens.filter (· ≠ .mark)) :=
  rewriteSql_exact (by decide) (by decide)

example : rewriteSql "SELECT 'it''s ?', ? FROM \"a?\" WHERE b = ? AND c = 'open" =
    "SELECT 'it''s ?', $1 FROM \"a?\" WHERE b = $2 AND c = 'open" := by decide

end Statements

end Placeholders
