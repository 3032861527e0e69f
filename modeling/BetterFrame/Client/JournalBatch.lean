import BetterFrame.Lib.Buffered
import BetterFrame.Client.JournalLogs

/-!
# Reading one batch of the journal (journal_logs.rs)

`read_command` takes at most a hundred newline-terminated records from the output of `journalctl`. A
record whose first 1 MiB has no newline is drained: only its cursor is read, by a decoder that stops
where it likes. `read_command_exact` says what is consumed and returned, for every stream and every
way it comes in buffers.
-/

namespace JournalBatch

open Buffered
open JournalLogs hiding first

/-! ### The reader -/

def newline : UInt8 := 10

def MAX_RECORD : Nat := 1024 * 1024

/-- A reader of what is left of a line, which ends where the line does. -/
structure LineRemainder where
  reader : Reader UInt8
  ended : Bool

/-- `read` into an output of `size` bytes. -/
def LineRemainder.read (size : Nat) (s : LineRemainder) : List UInt8 × LineRemainder :=
  if s.ended = true ∨ size = 0 then ([], s)
  else
    let buffer := s.reader.fill_buf
    let count := min (if newline ∈ buffer then buffer.idxOf newline + 1 else buffer.length) size
    let output := buffer.take count
    (output, ⟨s.reader.consume count, count = 0 || output.getLast? = some newline⟩)

/-- The buffer of `std::io::copy`. -/
def COPY_BUFFER : Nat := 8192

/-- Reads on to the end of the line. -/
def copyLoop : Nat → LineRemainder → LineRemainder
  | 0, s => s
  | fuel + 1, s =>
    let next := s.read COPY_BUFFER
    if next.1 = [] then next.2 else copyLoop fuel next.2

/-- `std::io::copy` into a sink. Every read but the last consumes something. -/
def copy (s : LineRemainder) : LineRemainder := copyLoop (s.reader.rest.length + 1) s

/-- The first 1 MiB of a record and then its remainder. -/
structure Chain where
  line : List UInt8
  remainder : LineRemainder

/-- Reads the line that was kept, and then what is left of it in the pipe. -/
def Chain.read (size : Nat) (s : Chain) : List UInt8 × Chain :=
  if s.line = [] then
    let next := s.remainder.read size
    (next.1, { s with remainder := next.2 })
  else (s.line.take size, { s with line := s.line.drop size })

/-- A decoder reads a byte at a time, or finds the end, and gives the cursor or gives up where it likes. -/
inductive Decoder where
  | done (cursor : Option String)
  | read (next : Option UInt8 → Decoder)

/-- What it makes of the bytes. -/
def Decoder.run : Decoder → List UInt8 → Option String
  | .done cursor, _ => cursor
  | .read next, [] => (next none).run []
  | .read next, b :: bs => (next (some b)).run bs

/-- A decoder that reads byte by byte as far as it likes. -/
def Decoder.deserialize : Decoder → Chain → Option String × Chain
  | .done cursor, s => (cursor, s)
  | .read next, s => (next (s.read 1).1.head?).deserialize (s.read 1).2

/-- serde_json: a whole record, and the cursor of a `CursorRecord`, `none` when there is none or the
record is malformed. -/
structure Serde where
  from_slice : List UInt8 → Option Json
  cursorRecord : Decoder

/-! ### A batch -/

/-- What one call reads. -/
structure Batch where
  entries : List LogEntry
  last_cursor : Option String

section Batches

variable (serde : Serde) (lib : Library)

/-- The entry of a well-formed record that has a message. -/
def logOf (record : List UInt8) : Option LogEntry :=
  ((serde.from_slice record).bind (entry lib)).filter (·.message ≠ "")

def cursorOf (record : List UInt8) : Option String := (serde.from_slice record).bind (as_str · "__CURSOR")

/-- One round of the loop, `none` at the end of the stream. -/
def readRecord (batch : Batch) (reader : Reader UInt8) : Option (Batch × Reader UInt8) :=
  let line := (read_until newline MAX_RECORD reader).1
  let reader := (read_until newline MAX_RECORD reader).2
  if line = [] then none
  else if line.getLast? ≠ some newline then
    let decoded := serde.cursorRecord.deserialize ⟨line, reader, false⟩
    some (⟨batch.entries, decoded.1.or batch.last_cursor⟩, (copy decoded.2.remainder).reader)
  else
    match serde.from_slice line with
    | none => some (batch, reader)
    | some record =>
      let last_cursor := (as_str record "__CURSOR").or batch.last_cursor
      match entry lib record with
      | some log =>
        some (⟨if log.message ≠ "" then batch.entries ++ [log] else batch.entries, last_cursor⟩, reader)
      | none => some (⟨batch.entries, last_cursor⟩, reader)

/-- The rounds, and whether they were `capped`. -/
def readRecords : Nat → Batch → Reader UInt8 → Batch × Reader UInt8 × Bool
  | 0, batch, reader => (batch, reader, true)
  | n + 1, batch, reader =>
    match readRecord serde lib batch reader with
    | none => (batch, reader, false)
    | some (batch, reader) => readRecords n batch reader

/-- What is returned, `none` when `journalctl` fails, and the reader after it. -/
def read_command (success : Bool) (reader : Reader UInt8) : Option Batch × Reader UInt8 :=
  let out := readRecords serde lib BATCH_SIZE ⟨[], none⟩ reader
  (if out.2.2 = false ∧ success = false then none else some out.1, out.2.1)

/-! ### What is asked of it -/

/-- The entries and the cursor of some records, by what the records are. -/
def claimed (batch : List (List UInt8)) : Batch where
  entries := batch.filterMap fun record => if record.length ≤ MAX_RECORD then logOf serde lib record else none
  last_cursor := (batch.filterMap (cursorOf serde)).getLast?

/-- The record ends with its newline. -/
def Terminated (record : List UInt8) : Prop := record.getLast? = some newline

instance (record : List UInt8) : Decidable (Terminated record) := inferInstanceAs (Decidable (_ = _))

/-- Only the cursor of the record is read, and not as the record has it. -/
def Misread (record : List UInt8) : Prop :=
  ¬ (record.length ≤ MAX_RECORD ∧ Terminated record) ∧ serde.cursorRecord.run record ≠ cursorOf serde record

/-- An unterminated record has no entry to lose, and after a misread record comes another cursor. -/
structure Plain (batch : List (List UInt8)) : Prop where
  entries : ∀ record ∈ batch, record.length ≤ MAX_RECORD → ¬ Terminated record → logOf serde lib record = none
  cursors : ∀ before record after, batch = before ++ record :: after → Misread serde record →
    ∃ later ∈ after, cursorOf serde later ≠ none ∧ ¬ Misread serde later

/-- No cursor is read from two records. -/
def Apart (batch : List (List UInt8)) : Prop :=
  batch.Pairwise fun record later => ∀ cursor, serde.cursorRecord.run record = some cursor ∨
    cursorOf serde record = some cursor →
    ¬ (serde.cursorRecord.run later = some cursor ∨ cursorOf serde later = some cursor)

end Batches

/-! ### Draining a record -/

section Drains

variable {s : LineRemainder}

/-- What is left of the record. -/
def LineRemainder.left (s : LineRemainder) : List UInt8 := if s.ended = true then []
  else first newline s.reader.rest

/-- A read ends with the newline, or before it, or at the end of the stream. -/
theorem output_cases (buffer : List UInt8) {size : Nat} (hsize : 0 < size) :
    let output := buffer.take
      (min (if newline ∈ buffer then buffer.idxOf newline + 1 else buffer.length) size)
    (∃ a, newline ∉ a ∧ output = a ++ [newline]) ∨ (newline ∉ output ∧ output ≠ []) ∨ buffer = [] := by
  dsimp only
  split_ifs with hmem
  · obtain ⟨a, b, rfl, ha⟩ := List.eq_append_cons_of_mem hmem
    rw [List.idxOf_append_of_notMem ha, List.idxOf_cons_self, Nat.add_zero]
    rcases Nat.lt_or_ge a.length size with hlt | hge
    · exact .inl ⟨a, ha, by rw [Nat.min_eq_left hlt, List.append_cons, List.take_left' (by simp)]⟩
    · rw [Nat.min_eq_right (Nat.le_succ_of_le hge), List.take_append_of_le_length hge]
      refine .inr (.inl ⟨fun h => ha (List.mem_of_mem_take h), fun h => ?_⟩)
      rcases List.take_eq_nil_iff.1 h with rfl | rfl
      · exact absurd hsize (Nat.lt_irrefl 0)
      · exact absurd (Nat.lt_of_lt_of_le hsize hge) (Nat.lt_irrefl 0)
  · by_cases hempty : buffer = []
    · exact .inr (.inr hempty)
    · refine .inr (.inl ⟨fun h => hmem (List.mem_of_mem_take h), fun h => ?_⟩)
      have hlength := List.length_pos_iff.2 hempty
      rcases List.take_eq_nil_iff.1 h with hzero | h
      · omega
      · exact hempty h

theorem not_last_of_not_mem {l : List UInt8} (h : newline ∉ l) : l.getLast? ≠ some newline := fun hlast =>
  h (List.mem_of_getLast? hlast)

theorem read_spec {size : Nat} (hsize : 0 < size) (s : LineRemainder) :
    s.left = (s.read size).1 ++ (s.read size).2.left ∧ s.reader.rest = (s.read size).1 ++
    (s.read size).2.reader.rest ∧
      ((s.read size).1 = [] → s.left = []) ∧ (s.read size).1.length ≤ size := by
  rw [LineRemainder.read]
  by_cases hended : s.ended = true
  · rw [if_pos (.inl hended), LineRemainder.left, if_pos hended]
    exact ⟨rfl, rfl, fun _ => rfl, Nat.zero_le _⟩
  rw [if_neg (not_or.2 ⟨hended, hsize.ne'⟩), LineRemainder.left, if_neg hended]
  have hcases := output_cases s.reader.fill_buf hsize
  have hcount : min (if newline ∈ s.reader.fill_buf then s.reader.fill_buf.idxOf newline + 1
    else s.reader.fill_buf.length) size ≤
      s.reader.fill_buf.length := by
    refine Nat.le_trans (Nat.min_le_left ..) ?_
    split_ifs with hmem
    · exact List.idxOf_lt_length_of_mem hmem
    · exact Nat.le_refl _
  have hsize' := Nat.min_le_right (if newline ∈ s.reader.fill_buf then s.reader.fill_buf.idxOf newline + 1
    else s.reader.fill_buf.length) size
  dsimp only at hcases ⊢
  generalize min _ size = count at hcases hcount hsize' ⊢
  have hrest : s.reader.rest = s.reader.fill_buf.take count ++ (s.reader.consume count).rest := by
    obtain ⟨after, hafter⟩ := s.reader.fill_buf_prefix
    rw [Reader.consume_rest hcount, ← hafter, List.drop_append_of_le_length hcount,
      ← List.append_assoc, List.take_append_drop]
  have hlength : (s.reader.fill_buf.take count).length = count := List.length_take_of_le hcount
  have hfits := hlength.le.trans hsize'
  rw [LineRemainder.left]
  dsimp only
  generalize s.reader.fill_buf.take count = output at hcases hrest hlength hfits ⊢
  rcases hcases with ⟨a, ha, rfl⟩ | ⟨hnot, hne⟩ | hempty
  · have hfirst : Buffered.first newline s.reader.rest = a ++ [newline] := by
      rw [hrest, List.append_assoc]
      exact first_delimited ha
    refine ⟨?_, hrest, by simp, hfits⟩
    rw [hfirst, if_pos (by simp), List.append_nil]
  · have hpos : count ≠ 0 := fun h => hne (List.length_eq_zero_iff.1 (hlength.trans h))
    refine ⟨?_, hrest, fun h => absurd h hne, hfits⟩
    rw [hrest, first_append hnot, if_neg (by simp [hpos, not_last_of_not_mem hnot])]
  · have hend : s.reader.rest = [] := Reader.fill_buf_eq_nil hempty
    rw [hend] at hrest
    obtain ⟨hout, hnext⟩ := List.append_eq_nil_iff.1 hrest.symm
    rw [hend, hout, hnext]
    exact ⟨by rw [Buffered.first, ite_self]; rfl, rfl, fun _ => rfl, Nat.zero_le _⟩

theorem copyLoop_spec {fuel : Nat} (h : s.reader.rest.length < fuel) :
    s.reader.rest = s.left ++ (copyLoop fuel s).reader.rest := by
  induction fuel generalizing s with
  | zero => omega
  | succ fuel ih =>
    obtain ⟨hleft, hrest, hend, -⟩ := read_spec (by decide : 0 < COPY_BUFFER) s
    rw [copyLoop]
    split_ifs with hnil
    · rw [hend hnil, hrest, hnil]
    · have hpos := List.length_pos_iff.2 hnil
      have hlength := congrArg List.length hrest
      rw [List.length_append] at hlength
      rw [hleft, List.append_assoc, ← ih (by omega)]
      exact hrest

theorem copy_spec (s : LineRemainder) : s.reader.rest = s.left ++ (copy s).reader.rest :=
  copyLoop_spec (Nat.lt_succ_self _)

/-- Decoding takes some of the record, and copying the rest of it. -/
theorem deserialize_spec (d : Decoder) (c : Chain) :
    (d.deserialize c).1 = d.run (c.line ++ c.remainder.left) ∧
      c.remainder.reader.rest = c.remainder.left ++ (copy (d.deserialize c).2.remainder).reader.rest := by
  induction d generalizing c with
  | done cursor =>
    exact ⟨by rw [Decoder.run]; rfl, copy_spec c.remainder⟩
  | read next ih =>
    rw [Decoder.deserialize, Chain.read]
    rcases hline : c.line with _ | ⟨b, line⟩
    · obtain ⟨hleft, hrest, hend, hone⟩ := read_spec Nat.one_pos c.remainder
      rw [if_pos rfl]
      obtain ⟨hdecoded, hdrained⟩ := ih (c.remainder.read 1).1.head? ⟨[], (c.remainder.read 1).2⟩
      rw [List.nil_append] at hdecoded
      refine ⟨?_, ?_⟩
      · rw [List.nil_append, hdecoded, hleft]
        rcases hout : (c.remainder.read 1).1 with _ | ⟨b, _ | ⟨b', bs⟩⟩
        · have hnil : (c.remainder.read 1).2.left = [] := by
            have hboth := hend hout
            rwa [hleft, hout] at hboth
          rw [hnil]
          rfl
        · rfl
        · rw [hout] at hone
          exact absurd hone (by simp)
      · rw [hrest, hleft, List.append_assoc]
        exact congrArg ((c.remainder.read 1).1 ++ ·) hdrained
    · rw [if_neg (List.cons_ne_nil b line)]
      exact ih (some b) { c with line }

end Drains

/-! ### The rounds -/

theorem last_cons {α β : Type*} (f : α → Option β) (x : α) (l : List α) :
    ((x :: l).filterMap f).getLast? = (l.filterMap f).getLast?.or (f x) := by
  rcases hx : f x with _ | y
  · rw [List.filterMap_cons_none hx, Option.or_none]
  · rw [List.filterMap_cons_some hx, List.getLast?_cons]
    cases (l.filterMap f).getLast? <;> rfl

section Rounds

variable {serde : Serde} {lib : Library} {r : Reader UInt8}

/-- What a round takes from a record. -/
def gotLog (serde : Serde) (lib : Library) (record : List UInt8) : Option LogEntry :=
  if record.length ≤ MAX_RECORD ∧ Terminated record then logOf serde lib record else none

/-- The cursor that is found in a record: longer ones, and one without a newline, are read for it
alone. -/
def gotCursor (serde : Serde) (record : List UInt8) : Option String :=
  if record.length ≤ MAX_RECORD ∧ Terminated record then cursorOf serde record
  else serde.cursorRecord.run record

theorem readRecord_end (batch : Batch) (h : r.rest = []) : readRecord serde lib batch r = none := by
  have hline : (read_until newline MAX_RECORD r).1 = [] := by
    rw [(read_until_spec newline MAX_RECORD r).1, h]
    exact List.take_nil
  rw [readRecord]
  exact if_pos hline

/-- Of a record that is drained, the part that is read first has no newline. -/
theorem not_mem_take {l : List UInt8}
    (h : ¬ ((Buffered.first newline l).length ≤ MAX_RECORD ∧ Terminated (Buffered.first newline l))) :
    newline ∉ (Buffered.first newline l).take MAX_RECORD := by
  intro hmem
  rcases first_cases newline l with ⟨a, ha, hfirst⟩ | ⟨hnot, -⟩
  · rw [hfirst] at h hmem
    by_cases hle : (a ++ [newline]).length ≤ MAX_RECORD
    · exact h ⟨hle, by simp [Terminated]⟩
    · rw [List.length_append, List.length_singleton] at hle
      rw [List.take_append_of_le_length (by omega)] at hmem
      exact ha (List.mem_of_mem_take hmem)
  · exact hnot (List.mem_of_mem_take hmem)

theorem readRecord_spec (serde : Serde) (lib : Library) (batch : Batch) (h : r.rest ≠ []) :
    ∃ next, readRecord serde lib batch r =
    some (⟨batch.entries ++ (gotLog serde lib (Buffered.first newline r.rest)).toList,
      (gotCursor serde (Buffered.first newline r.rest)).or batch.last_cursor⟩, next) ∧
    r.rest = Buffered.first newline r.rest ++ next.rest := by
  obtain ⟨hline, hrest⟩ := read_until_spec newline MAX_RECORD r
  have hne : (read_until newline MAX_RECORD r).1 ≠ [] := by
    rw [hline]
    intro hnil
    rcases List.take_eq_nil_iff.1 hnil with hzero | hnil
    · exact absurd hzero (by decide)
    · exact first_ne_nil h hnil
  rw [readRecord, gotLog, gotCursor]
  by_cases hwhole : (Buffered.first newline r.rest).length ≤ MAX_RECORD ∧
    Terminated (Buffered.first newline r.rest)
  · rw [List.take_of_length_le hwhole.1] at hline
    rw [if_pos hwhole, if_pos hwhole]
    dsimp only
    rw [hline] at hne hrest ⊢
    rw [if_neg hne, if_neg (not_not.2
      (show (Buffered.first newline r.rest).getLast? = some newline from hwhole.2)), logOf, cursorOf]
    refine ⟨(read_until newline MAX_RECORD r).2, ?_, hrest⟩
    rcases serde.from_slice (Buffered.first newline r.rest) with _ | record
    · simp
    · rcases hlog : entry lib record with _ | log
      · simp [hlog]
      · by_cases hmessage : log.message = ""
        · simp [hlog, hmessage]
        · simp [hlog, hmessage, Option.filter]
  · have hnot := not_mem_take hwhole
    rw [if_neg hwhole, if_neg hwhole]
    dsimp only
    rw [← hline] at hnot
    rw [if_neg hne, if_pos (not_last_of_not_mem hnot)]
    obtain ⟨hdecoded, hdrained⟩ := deserialize_spec serde.cursorRecord
      ⟨(read_until newline MAX_RECORD r).1, (read_until newline MAX_RECORD r).2, false⟩
    have hleft : LineRemainder.left ⟨(read_until newline MAX_RECORD r).2, false⟩ =
        Buffered.first newline (read_until newline MAX_RECORD r).2.rest := rfl
    have hfirst : Buffered.first newline r.rest =
        (read_until newline MAX_RECORD r).1 ++
            Buffered.first newline (read_until newline MAX_RECORD r).2.rest := by
      conv_lhs => rw [hrest, first_append hnot]
    refine ⟨_, by rw [hdecoded, hleft, ← hfirst, Option.toList_none, List.append_nil], ?_⟩
    rw [hfirst, List.append_assoc]
    refine hrest.trans (congrArg (_ ++ ·) ?_)
    rw [← hleft]
    exact hdrained

theorem readRecords_spec (serde : Serde) (lib : Library) (n : Nat) (batch : Batch) (r : Reader UInt8) :
    let got := (records newline r.rest).take n
    (readRecords serde lib n batch r).1 = ⟨batch.entries ++ got.filterMap (gotLog serde lib),
      ((got.filterMap (gotCursor serde)).getLast?).or batch.last_cursor⟩ ∧
    (readRecords serde lib n batch r).2.1.rest = ((records newline r.rest).drop n).flatten ∧
    ((readRecords serde lib n batch r).2.2 = true ↔ n ≤ (records newline r.rest).length) := by
  induction n generalizing batch r with
  | zero => exact ⟨by simp [readRecords], (records_flatten newline r.rest).symm, by simp [readRecords]⟩
  | succ n ih =>
    by_cases hend : r.rest = []
    · have hnone : records newline r.rest = [] := by rw [hend, records]
      rw [readRecords, readRecord_end batch hend, hnone]
      exact ⟨by simp, hend, by simp⟩
    · obtain ⟨next, hround, hrest⟩ := readRecord_spec serde lib batch hend
      have hdrop : ∀ record, r.rest = record ++ next.rest →
          r.rest.drop record.length = next.rest := fun record h => by
        rw [h, List.drop_left]
      obtain ⟨hbatch, hreader, hcapped⟩ :=
        ih ⟨batch.entries ++ (gotLog serde lib (Buffered.first newline r.rest)).toList,
        (gotCursor serde (Buffered.first newline r.rest)).or batch.last_cursor⟩ next
      rw [readRecords, hround, records_cons hend, hdrop _ hrest]
      refine ⟨hbatch.trans ?_, hreader, hcapped.trans Nat.succ_le_succ_iff.symm⟩
      rw [List.take_succ_cons, last_cons, Option.or_assoc, List.append_assoc]
      rcases hlog : gotLog serde lib (Buffered.first newline r.rest) with _ | log
      · rw [List.filterMap_cons_none hlog]
        rfl
      · rw [List.filterMap_cons_some hlog]
        rfl

end Rounds

/-! ### What is returned -/

section Lasts

variable {α β : Type*} {f g : α → Option β} {l : List α}

theorem last_agrees (h : ∀ before x after, l = before ++ x :: after → f x ≠ g x →
    ∃ y ∈ after, g y ≠ none ∧ f y = g y) :
    (l.filterMap f).getLast? = (l.filterMap g).getLast? := by
  induction l with
  | nil => rfl
  | cons x l ih =>
    have hrest := ih fun before y after heq hne => h (x :: before) y after (by rw [heq, List.cons_append]) hne
    rw [last_cons, last_cons, hrest]
    by_cases hx : f x = g x
    · rw [hx]
    · obtain ⟨y, hy, hsome, -⟩ := h [] x l rfl hx
      obtain ⟨b, hb⟩ := Option.ne_none_iff_exists'.1 hsome
      have hmem : b ∈ l.filterMap g := List.mem_filterMap.2 ⟨y, hy, hb⟩
      obtain ⟨c, hc⟩ := Option.isSome_iff_exists.1 (List.getLast?_isSome.2 (List.ne_nil_of_mem hmem))
      rw [hc]
      rfl

theorem exists_of_last {b : β} (h : (l.filterMap f).getLast? = some b) : ∃ y ∈ l, f y = some b :=
  List.mem_filterMap.1 (List.mem_of_getLast? h)

/-- Where no value is had from two elements, the last values agree only so. -/
theorem agrees_of_last (hapart : l.Pairwise fun x y => ∀ b, f x = some b ∨ g x = some b →
    ¬ (f y = some b ∨ g y = some b)) (h : (l.filterMap f).getLast? = (l.filterMap g).getLast?) :
    ∀ before x after, l = before ++ x :: after → f x ≠ g x → ∃ y ∈ after, g y ≠ none ∧ f y = g y := by
  induction l with
  | nil => simp
  | cons x l ih =>
    obtain ⟨hx, hl⟩ := List.pairwise_cons.1 hapart
    rw [last_cons, last_cons] at h
    have hrest : (l.filterMap f).getLast? = (l.filterMap g).getLast? ∧
        (f x ≠ g x → ∃ b, (l.filterMap g).getLast? = some b) := by
      rcases hf : (l.filterMap f).getLast? with _ | a
      · rcases hg : (l.filterMap g).getLast? with _ | b
        · rw [hf, hg] at h
          exact ⟨rfl, fun hne => absurd h hne⟩
        · rw [hf, hg] at h
          obtain ⟨y, hy, hyb⟩ := exists_of_last hg
          exact absurd (.inr hyb) (hx y hy b (.inl h))
      · rcases hg : (l.filterMap g).getLast? with _ | b
        · rw [hf, hg] at h
          obtain ⟨y, hy, hya⟩ := exists_of_last hf
          exact absurd (.inl hya) (hx y hy a (.inr h.symm))
        · rw [hf, hg] at h
          exact ⟨h, fun _ => ⟨b, rfl⟩⟩
    have hlater := ih hl hrest.1
    intro before y after heq hne
    cases before with
    | nil =>
      obtain ⟨rfl, rfl⟩ := List.cons.inj heq
      obtain ⟨b, hb⟩ := hrest.2 hne
      obtain ⟨z, hz, hzb⟩ := exists_of_last hb
      by_cases hsame : f z = g z
      · exact ⟨z, hz, by rw [hzb]; exact Option.some_ne_none b, hsame⟩
      · obtain ⟨before, after, rfl⟩ := List.append_of_mem hz
        obtain ⟨w, hw, hrest⟩ := hlater before z after rfl hsame
        exact ⟨w, List.mem_append_right _ (List.mem_cons_of_mem _ hw), hrest⟩
    | cons x' before =>
      obtain ⟨rfl, rfl⟩ := List.cons.inj heq
      exact hlater before y after rfl hne

theorem length_filterMap_le (h : ∀ x, f x = none ∨ f x = g x) :
    (l.filterMap f).length ≤ (l.filterMap g).length := by
  induction l with
  | nil => exact Nat.le_refl 0
  | cons x l ih =>
    rcases h x with hx | hx
    · rw [List.filterMap_cons_none hx, List.filterMap_cons]
      cases g x with
      | none => exact ih
      | some b => exact Nat.le_succ_of_le ih
    · rw [List.filterMap_cons, List.filterMap_cons, hx]
      cases g x with
      | none => exact ih
      | some b => exact Nat.succ_le_succ ih

theorem filterMap_eq_iff (h : ∀ x, f x = none ∨ f x = g x) : l.filterMap f = l.filterMap g ↔
    ∀ x ∈ l, f x = g x := by
  refine ⟨fun heq => ?_, List.filterMap_congr⟩
  induction l with
  | nil => simp
  | cons x l ih =>
    by_cases hx : f x = g x
    · rw [List.filterMap_cons, List.filterMap_cons, hx] at heq
      refine List.forall_mem_cons.2 ⟨hx, ih ?_⟩
      cases hg : g x with
      | none => simpa [hg] using heq
      | some b => simpa [hg] using heq
    · have hnone := (h x).resolve_right hx
      obtain ⟨b, hb⟩ := Option.ne_none_iff_exists'.1 (fun hg => hx (hnone.trans hg.symm))
      rw [List.filterMap_cons_none hnone, List.filterMap_cons_some hb] at heq
      have hle := length_filterMap_le (l := l) h
      rw [heq, List.length_cons] at hle
      omega

end Lasts

section Exact

variable {serde : Serde} {lib : Library} {reader : Reader UInt8} {batch : List (List UInt8)}

theorem gotCursor_eq_iff {record : List UInt8} : gotCursor serde record = cursorOf serde record ↔
    ¬ Misread serde record := by
  rw [gotCursor, Misread]
  split_ifs with h
  · simp [h]
  · simp [h]

theorem entries_eq_iff : batch.filterMap (gotLog serde lib) = (claimed serde lib batch).entries ↔
    ∀ record ∈ batch, record.length ≤ MAX_RECORD → ¬ Terminated record → logOf serde lib record = none := by
  have hpoint : ∀ record, gotLog serde lib record = none ∨
      gotLog serde lib record = if record.length ≤ MAX_RECORD then logOf serde lib record else none := by
    intro record
    rw [gotLog]
    split_ifs with h hsmall hsmall
    · exact .inr rfl
    · exact absurd h.1 hsmall
    · exact .inl rfl
    · exact .inl rfl
  rw [claimed, filterMap_eq_iff hpoint]
  refine forall₂_congr fun record _ => ?_
  rw [gotLog]
  split_ifs with h hsmall hsmall
  · exact iff_of_true rfl fun _ hopen => absurd h.2 hopen
  · exact absurd h.1 hsmall
  · exact ⟨fun heq _ _ => heq.symm, fun hnone =>
      (hnone hsmall fun hterminated => h ⟨hsmall, hterminated⟩).symm⟩
  · exact iff_of_true rfl fun hle => absurd hle hsmall

theorem cursors_iff : (∀ before record after, batch = before ++ record :: after →
    gotCursor serde record ≠ cursorOf serde record →
      ∃ later ∈ after, cursorOf serde later ≠ none ∧ gotCursor serde later = cursorOf serde later) ↔
    ∀ before record after, batch = before ++ record :: after → Misread serde record →
      ∃ later ∈ after, cursorOf serde later ≠ none ∧ ¬ Misread serde later := by
  simp only [gotCursor_eq_iff, ne_eq, not_not]

theorem Apart.got (h : Apart serde batch) : batch.Pairwise fun record later => ∀ cursor,
    gotCursor serde record = some cursor ∨ cursorOf serde record = some cursor →
      ¬ (gotCursor serde later = some cursor ∨ cursorOf serde later = some cursor) := by
  have hgot : ∀ record cursor, gotCursor serde record = some cursor ∨ cursorOf serde record = some cursor →
      serde.cursorRecord.run record = some cursor ∨ cursorOf serde record = some cursor := by
    intro record cursor hread
    rw [gotCursor] at hread
    split_ifs at hread
    · exact .inr (or_self_iff.1 hread)
    · exact hread
  exact List.Pairwise.imp (fun h cursor hread hlater => h cursor (hgot _ _ hread) (hgot _ _ hlater)) h

/-- For every stream and every way it comes in buffers: exactly the first hundred records are
consumed, and what is returned for them is what they are when they are plain, and only then where no
cursor is read twice. -/
theorem read_command_exact (serde : Serde) (lib : Library) (success : Bool) (reader : Reader UInt8) :
    let out := read_command serde lib success reader
    let batch := (records newline reader.rest).take BATCH_SIZE
    out.2.rest = ((records newline reader.rest).drop BATCH_SIZE).flatten ∧
    (out.1 = none ↔ (records newline reader.rest).length < BATCH_SIZE ∧ success = false) ∧
    ∀ got, out.1 = some got → (Plain serde lib batch → got = claimed serde lib batch) ∧
      (Apart serde batch → got = claimed serde lib batch → Plain serde lib batch) := by
  obtain ⟨hbatch, hrest, hcapped⟩ := readRecords_spec serde lib BATCH_SIZE ⟨[], none⟩ reader
  rw [List.nil_append, Option.or_none] at hbatch
  have hcapped' : (readRecords serde lib BATCH_SIZE ⟨[], none⟩ reader).2.2 = false ↔
      (records newline reader.rest).length < BATCH_SIZE := by
    rw [← Bool.not_eq_true, hcapped, Nat.not_le]
  dsimp only
  rw [read_command]
  dsimp only
  refine ⟨hrest, ?_, fun got hgot => ?_⟩
  · rw [← hcapped']
    split_ifs with h
    · exact iff_of_true rfl h
    · exact iff_of_false (fun hfalse => hfalse) h
  · split_ifs at hgot
    obtain rfl := (Option.some.inj hgot).symm.trans hbatch
    constructor
    · intro h
      have hentries := entries_eq_iff.2 h.entries
      have hcursor := last_agrees (cursors_iff.2 h.cursors)
      rw [hentries, hcursor]
      rfl
    · intro hapart h
      have hentries := congrArg Batch.entries h
      have hcursor := congrArg Batch.last_cursor h
      exact ⟨entries_eq_iff.1 hentries, cursors_iff.1 (agrees_of_last hapart.got hcursor)⟩

end Exact

/-! ### A stream that ends within a record -/

/-- The record `journalctl` writes for a message. -/
def record : List UInt8 :=
  "\x7b\"__CURSOR\":\"s=1\",\"__REALTIME_TIMESTAMP\":\"1000000\",\"MESSAGE\":\"started\"\x7d".toUTF8.data.toList

/-- Reads the bytes that are given, and gives the cursor after them. -/
def reads (cursor : String) : List UInt8 → Decoder
  | [] => .done (some cursor)
  | b :: bs => .read fun next => if next = some b then reads cursor bs else .done none

/-- serde_json, of this record. -/
def recordSerde : Serde where
  from_slice bytes :=
    if bytes = record ∨ bytes = record ++ [newline] then
      some (.obj [("__CURSOR", .str "s=1"), ("__REALTIME_TIMESTAMP", .str "1000000"),
        ("MESSAGE", .str "started")])
    else none
  cursorRecord := reads "s=1" record

/-- The record in two buffers, without its newline. -/
def unterminated : Reader UInt8 := ⟨[record.take 20, record.drop 20], by decide⟩

/-- The only record of a stream is cut off before its newline: its cursor is taken and its entry is not. -/
theorem entry_lost : ∃ got, (read_command recordSerde plainLibrary true unterminated).1 = some got ∧
    got.last_cursor = some "s=1" ∧
    got ≠ claimed recordSerde plainLibrary ((records newline unterminated.rest).take BATCH_SIZE) := by
  have hgot : ((read_command recordSerde plainLibrary true unterminated).1.map fun got =>
    (got.entries.length, got.last_cursor)) = some (0, some "s=1") := by decide
  have hclaimed : (claimed recordSerde plainLibrary
        ((records newline unterminated.rest).take BATCH_SIZE)).entries.length = 1 := by
    decide
  obtain ⟨got, hout, hread⟩ := Option.map_eq_some_iff.1 hgot
  obtain ⟨hentries, hcursor⟩ := Prod.mk.inj hread
  refine ⟨got, hout, hcursor, fun h => ?_⟩
  rw [h, hclaimed] at hentries
  exact absurd hentries (by decide)

end JournalBatch
