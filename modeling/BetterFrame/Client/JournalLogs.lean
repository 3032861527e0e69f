import Mathlib
import BetterFrame.Lib.Json
import BetterFrame.Lib.Run

/-!
# Uploading the journal

`journal_logs.rs`, with `scrub_with_truncation` of `diagnostic_logs.rs`: the log entry of a journal
record, the batch that is read from the journal, and the loop that uploads batches and stores the
cursor, while the journal grows, the device is paired again and the process restarts. The journal is
what `journalctl` shows at priority info. `journal_upload` says when nothing is lost, nothing leaks
and the cursor advances.
-/

namespace JournalLogs

open Machine Text

/-! ### Log entries -/

/-- What the regex and time libraries do: redaction leaves something of every text. -/
structure Library where
  auth : String → String
  url : String → String
  secret : String → String
  /-- `from_unix_timestamp_nanos`, formatted by RFC 3339 -/
  format : Int → Option String
  auth_ne : ∀ s, s ≠ "" → auth s ≠ ""
  url_ne : ∀ s, s ≠ "" → url s ≠ ""
  secret_ne : ∀ s, s ≠ "" → secret s ≠ ""

variable (lib : Library)

/-- How many UTF-16 units a character has. -/
def len_utf16 (c : Char) : Nat := if c.toNat < 0x10000 then 1 else 2

/-- The characters that fit, and the length counted up to the first that does not. -/
def clip (length : Nat) : List Char → List Char × Nat
  | [] => ([], length)
  | c :: cs =>
    if length + len_utf16 c ≤ 16384 then
      let (clipped, total) := clip (length + len_utf16 c) cs
      (c :: clipped, total)
    else ([], length + len_utf16 c)

/-- The message without secrets and within its length, and whether it was longer. -/
def scrub_with_truncation (message : String) : String × Bool :=
  let (clipped, length) := clip 0 (lib.secret (lib.url (lib.auth message))).toList
  (String.ofList clipped, 16384 < length)

/-- The length of a UTF-8 sequence by its first byte, 0 of a byte that starts none. -/
def utf8Width (b : Nat) : Nat :=
  if b < 0x80 then 1
  else if 0xc2 ≤ b ∧ b ≤ 0xdf then 2
  else if 0xe0 ≤ b ∧ b ≤ 0xef then 3
  else if 0xf0 ≤ b ∧ b ≤ 0xf4 then 4
  else 0

/-- Whether `c` may be the second byte after `b`. -/
def isSecond (b c : Nat) : Bool :=
  if b = 0xe0 then 0xa0 ≤ c ∧ c ≤ 0xbf
  else if b = 0xed then 0x80 ≤ c ∧ c ≤ 0x9f
  else if b = 0xf0 then 0x90 ≤ c ∧ c ≤ 0xbf
  else if b = 0xf4 then 0x80 ≤ c ∧ c ≤ 0x8f
  else 0x80 ≤ c ∧ c ≤ 0xbf

/-- The bytes after `b` that continue its sequence. -/
def continuation (b : Nat) : List Nat → List Nat
  | [] => []
  | c :: cs =>
    if utf8Width b < 2 ∨ isSecond b c = false then []
    else c :: (cs.take (utf8Width b - 2)).takeWhile fun c => 0x80 ≤ c && c ≤ 0xbf

def scalarOf (b : Nat) (tail : List Nat) : Char :=
  let head := match tail.length with
    | 0 => b
    | 1 => b - 0xc0
    | 2 => b - 0xe0
    | _ => b - 0xf0
  Char.ofNat (tail.foldl (fun n c => n * 64 + (c - 0x80)) head)

/-- `String::from_utf8_lossy`: a sequence that is not UTF-8 becomes one replacement character. -/
def from_utf8_lossy : List Nat → List Char
  | [] => []
  | b :: bs =>
    let tail := continuation b bs
    (if utf8Width b = tail.length + 1 then scalarOf b tail else Char.ofNat 0xfffd) ::
      from_utf8_lossy (bs.drop tail.length)
termination_by bs => bs.length

/-- `parse` of an unsigned integer. -/
def parseUnsigned (s : String) : Option Nat :=
  let digits := match s.toList with
    | '+' :: cs => cs
    | cs => cs
  if digits ≠ [] ∧ digits.all isDigit then some (digitsValue digits) else none

def parseI128 (s : String) : Option Int :=
  let value := match s.toList with
    | '-' :: cs => if cs ≠ [] ∧ cs.all isDigit then some (-(digitsValue cs : Int)) else none
    | _ => (parseUnsigned s).map Int.ofNat
  value.filter fun n => -2 ^ 127 ≤ n ∧ n < 2 ^ 127

def parseU8 (s : String) : Option Nat := (parseUnsigned s).filter (· ≤ 255)

def as_str (record : Json) (key : String) : Option String := (record.get? key).bind Json.asStr?

/-- `as_u64`, of a byte. -/
def asByte : Json → Option Nat
  | .num n => if n.lit.all isDigit ∧ digitsValue n.lit ≤ 255 then some (digitsValue n.lit) else none
  | _ => none

/-- The message, which may be given as bytes. -/
def messageText (record : Json) : String :=
  match record.get? "MESSAGE" with
  | some (.str text) => text
  | some (.arr values) =>
    match values.mapM asByte with
    | some bytes => String.ofList (from_utf8_lossy bytes)
    | none => String.intercalate "\n" (values.filterMap Json.asStr?)
  | _ => "[Journal message unavailable]"

/-- The time of a record, in the format of entries. -/
def timestamp (record : Json) : Option String := do
  let micros ← (as_str record "__REALTIME_TIMESTAMP").bind parseI128
  let nanos := micros * 1000
  if -2 ^ 127 ≤ nanos ∧ nanos < 2 ^ 127 then lib.format nanos else none

/-- The level for a priority of syslog. -/
def level (record : Json) : String :=
  match ((as_str record "PRIORITY").bind parseU8).getD 6 with
  | 0 | 1 | 2 | 3 => "error"
  | 4 => "warn"
  | 7 => "debug"
  | _ => "info"

/-- An entry as it is sent. -/
structure LogEntry where
  event_id : String
  logged_at : String
  level : String
  message : String
  truncated : Bool
  context : List (String × String)

/-- The fields that become context, and their names there. -/
def contextFields : List (String × String) :=
  [("_BOOT_ID", "boot_id"), ("_SYSTEMD_UNIT", "unit"), ("_PID", "pid"), ("_COMM", "process"),
    ("_HOSTNAME", "host"), ("SYSLOG_IDENTIFIER", "identifier")]

/-- The entry of a record; without a cursor or a time there is none. -/
def entry (record : Json) : Option LogEntry := do
  let cursor ← as_str record "__CURSOR"
  let logged_at ← timestamp lib record
  let (message, truncated) := scrub_with_truncation lib (messageText record)
  return {
    event_id := s!"journal:{cursor}"
    logged_at
    level := level record
    message
    truncated
    context := ("source", "os") :: contextFields.filterMap fun (input, output) =>
      (as_str record input).map fun value => (output, String.ofList (value.toList.take 256)) }

/-! ### The journal -/

/-- A line of `journalctl`, `size` bytes with its newline, and the JSON it is, if it is any. -/
structure Line where
  size : Nat
  json : Option Json

namespace Line

def cursor (line : Line) : Option String := line.json.bind (as_str · "__CURSOR")

/-- The line is longer than a record may be. -/
def oversized (line : Line) : Bool := 1024 * 1024 < line.size

/-- What a line adds to a batch. Of an oversized one only the cursor is read. -/
def log (line : Line) : Option LogEntry :=
  if line.oversized then none else (line.json.bind (entry lib)).filter (·.message ≠ "")

end Line

/-- A line that can be read has the record's cursor. -/
structure Record where
  cursor : String
  time : Nat
  line : Line
  named : ∀ c, line.cursor = some c → c = cursor

/-- What the server knows a record by. -/
def Record.event_id (r : Record) : String := s!"journal:{r.cursor}"

def BATCH_SIZE : Nat := 100

/-- The entries of a batch and the last cursor in it. -/
def read_command (lines : List Line) : List LogEntry × Option String :=
  let batch := lines.take BATCH_SIZE
  (batch.filterMap (·.log lib), (batch.filterMap (·.cursor)).getLast?)

/-- What is left of the journal after a cursor. -/
def after (cursor : Option String) (journal : List Record) : List Record :=
  match cursor with
  | none => journal
  | some c => (journal.dropWhile (·.cursor ≠ c)).tail

/-! ### The loop -/

/-- Where entries are sent, and for whom. -/
structure Destination where
  server : String
  key : String
  kiosk_id : String

/-- The kiosk at its server, which the position in the journal is kept for. -/
def Destination.owner (dest : Destination) : String := s!"{dest.server}|{dest.kiosk_id}"

/-- `journal-cursor.json`, `since` in seconds. -/
structure State where
  owner : Option String
  cursor : Option String
  since : Option Nat

def State.empty : State := ⟨none, none, none⟩

/-- Where the loop is. -/
inductive Phase where
  | idle
  | changed (dest : Destination)
  | queried (dest : Destination) (cursor : Option String)
  | owned (dest : Destination)
  | batch (dest : Destination) (entries : List LogEntry) (cursor : Option String)
  | uploaded (dest : Destination) (cursor : Option String)

/-- A request with the event `event_id`, sent to `owner` when the first `bound` records were from
before its pairing. -/
structure Sent where
  owner : String
  event_id : String
  bound : Nat

/-- `clock` is in microseconds. `last` is the last owner of the device, `repaired` that it has had
another, `bound` how many records an owner's pairing came after. `start`, `fileStart` and
`queryStart` are how many records there were when the owner in the state, in the file and in a query
was taken over, `current` that the file is of the same takeover as the state, `due` that an unread
record with a cursor was there when the batch was read. -/
structure World where
  clock : Nat
  journal : List Record
  device : Option Destination
  phase : Phase
  state : State
  file : State
  last : Option String
  repaired : Bool
  bound : String → Nat
  start : Nat
  fileStart : Nat
  queryStart : Nat
  current : Bool
  due : Bool
  sent : List Sent
  acked : List (String × String)

/-- Each step of the loop, with what its commands, requests and writes of the state file come to.
`hides` is an identity that cannot be read. -/
inductive Label where
  | passes (micros : Nat)
  | appends (record : Record)
  | pairs (dest : Destination)
  | hides
  | restarts (readable : Bool)
  | polls (written : Bool)
  | queries (ok parsed : Bool)
  | adopts (written : Bool)
  | reads (ok : Bool)
  | uploads (ok : Bool)
  | commits (written : Bool)

namespace World

variable (w : World)

def init (clock : Nat) : World where
  clock
  journal := []
  device := none
  phase := .idle
  state := .empty
  file := .empty
  last := none
  repaired := false
  bound := fun _ => 0
  start := 0
  fileStart := 0
  queryStart := 0
  current := true
  due := false
  sent := []
  acked := []

def seconds : Nat := w.clock / 1000000

/-- `write_encrypted` of the state. -/
def write (written : Bool) : World :=
  if written then { w with file := w.state, fileStart := w.start, current := true } else w

/-- Another owner takes over. -/
def adopt (state : State) (start : Nat) (written : Bool) : World :=
  { w with state, start, current := false }.write written

/-- The 24 hours that are kept, and the time since which the owner may see records. -/
def cutoff : Nat := max (w.seconds - 86400) (w.state.since.getD 0)

/-- The records after the cursor, and not before the cutoff. -/
def unread : List Record := (after w.state.cursor w.journal).filter fun r => w.cutoff * 1000000 ≤ r.time

def pair (dest : Destination) : World :=
  { w with
    device := some dest
    last := some dest.owner
    repaired := w.repaired || (w.last.isSome && w.last ≠ some dest.owner)
    bound := fun owner =>
      if owner = dest.owner ∧ w.last.isSome ∧ w.last ≠ some dest.owner then w.journal.length
      else w.bound owner }

end World

def step (w : World) : Label → Option World
  | .passes micros => some { w with clock := w.clock + micros }
  | .appends record =>
    if record.time = w.clock ∧ ∀ r ∈ w.journal, r.time < record.time ∧ r.cursor ≠ record.cursor then
      some { w with journal := w.journal ++ [record] }
    else none
  | .pairs dest => some (w.pair dest)
  | .hides => some { w with device := none }
  | .restarts readable =>
    some (if readable then { w with phase := .idle, state := w.file, start := w.fileStart, current := true }
      else { w with phase := .idle, state := .empty, start := 0, current := false })
  | .polls written =>
    match w.phase, w.device with
    | .idle, none => some w
    | .idle, some dest =>
      some (if w.state.owner = some dest.owner then { w with phase := .owned dest }
        -- Re-pairing must not send the previous owner's journal history to the new tenant.
        else if w.state.owner.isSome then { w with phase := .changed dest }
        else { w.adopt { State.empty with owner := some dest.owner } 0 written with phase := .owned dest })
    | _, _ => none
  | .queries ok parsed =>
    match w.phase with
    | .changed dest =>
      some (if ok then
        { w with
          phase := .queried dest (if parsed then w.journal.getLast?.map (·.cursor) else none)
          queryStart := w.journal.length }
      else { w with phase := .idle })
    | _ => none
  | .adopts written =>
    match w.phase with
    | .queried dest cursor =>
      some { w.adopt ⟨some dest.owner, cursor, some w.seconds⟩ w.queryStart written with
        phase := .owned dest }
    | _ => none
  | .reads ok =>
    match w.phase with
    | .owned dest =>
      some (if ok then
        let (entries, cursor) := read_command lib (w.unread.map (·.line))
        { w with phase := .batch dest entries cursor, due := w.unread.any fun r => r.line.cursor.isSome }
      -- A cursor may have been vacuumed. Replay the retained window.
      else { w with phase := .idle, state := { w.state with cursor := none } })
    | _ => none
  | .uploads ok =>
    match w.phase with
    | .batch dest entries cursor =>
      let sent := entries.map fun log => ⟨dest.owner, log.event_id, w.bound dest.owner⟩
      let acked := if ok then entries.map fun log => (dest.owner, log.event_id) else []
      some { w with
        phase := if entries.isEmpty ∨ ok then .uploaded dest cursor else .idle
        sent := sent ++ w.sent
        acked := acked ++ w.acked }
    | _ => none
  | .commits written =>
    match w.phase with
    | .uploaded _ cursor =>
      let w := { w with phase := .idle }
      some (match cursor with
        | some c => { w with state := { w.state with cursor := some c } }.write written
        | none => w)
    | _ => none

/-! ### What is promised -/

variable {lib} in
/-- A record that is worth uploading: its line is not too long, and has a cursor, a timestamp and a
message. -/
def Record.Good (lib : Library) (r : Record) : Prop :=
  r.line.size ≤ 1024 * 1024 ∧ ∃ json, r.line.json = some json ∧ (as_str json "__CURSOR").isSome ∧
    (timestamp lib json).isSome ∧ messageText json ≠ ""

/-- Older than the 24 hours that are kept. -/
def World.Expired (w : World) (r : Record) : Prop := r.time < (w.seconds - 86400) * 1000000

/-- What the owner's stored cursor has passed is acknowledged, if it is good and not expired. -/
def World.Acknowledged (lib : Library) (w : World) (state : State) (start : Nat) : Prop :=
  ∀ owner, state.owner = some owner → ∀ r ∈ w.journal.drop start, r.Good lib →
    r ∈ after state.cursor w.journal ∨ (owner, r.event_id) ∈ w.acked ∨ w.Expired r

/-- Nothing was sent to an owner that is from before its pairing. -/
def World.Confined (w : World) : Prop :=
  ∀ x ∈ w.sent, ∀ r ∈ w.journal.take x.bound, r.event_id ≠ x.event_id

/-- A batch that was read where there was an unread record with a cursor advances the cursor. -/
def World.Advances (lib : Library) (w : World) : Prop :=
  ∀ written w', step lib w (.commits written) = some w' → w.due →
    ∃ r ∈ after w.state.cursor w.journal, w'.state.cursor = some r.cursor

/-- The records from before an owner's pairing are from before the second `since`. -/
def World.Apart (w : World) (owner : String) (since : Option Nat) : Prop :=
  ∀ r ∈ w.journal.take (w.bound owner), ∃ t, since = some t ∧ r.time < t * 1000000

/-- The owner of the device changes only when the loop has noticed one that is not the new one; a
process restarts with what was stored since the last takeover, or before there was a second owner;
nothing is written between the query of a takeover and the second of its `since`, and the cursor is
missing or dropped only where the records from before the pairing are from an earlier second; a
hundred lines without a cursor are not in the way of one with a cursor. -/
def Undisturbed (w : World) : Label → Prop
  | .pairs dest =>
    w.last = none ∨ w.last = some dest.owner ∨ ∃ owner, w.state.owner = some owner ∧ owner ≠ dest.owner
  | .restarts readable => w.repaired = false ∨ readable = true ∧ w.current = true
  | .adopts _ => ∀ dest cursor, w.phase = .queried dest cursor →
    w.bound dest.owner ≤ w.queryStart ∧ (∀ r ∈ w.journal.drop w.queryStart, w.seconds * 1000000 ≤ r.time) ∧
      (cursor = none → w.Apart dest.owner (some w.seconds))
  | .reads false => ∀ dest, w.phase = .owned dest → w.Apart dest.owner w.state.since
  | .reads true =>
    (w.unread.any fun r => r.line.cursor.isSome) → (w.unread.take BATCH_SIZE).any fun r =>
      r.line.cursor.isSome
  | _ => True

/-! ### Entries -/

section Entries

variable {lib} {r : Record}

theorem ne_empty_iff {s : String} : s ≠ "" ↔ s.toList ≠ [] := by
  rw [ne_eq, ← String.toList_inj]
  rfl

/-- Of a text something is left. -/
theorem scrub_ne {message : String} (h : message ≠ "") : (scrub_with_truncation lib message).1 ≠ "" := by
  have hredacted := ne_empty_iff.1 (lib.secret_ne _ (lib.url_ne _ (lib.auth_ne _ h)))
  have hclip : ∀ cs : List Char, cs ≠ [] → (clip 0 cs).1 ≠ [] := by
    rintro (_ | ⟨c, cs⟩) hcs
    · exact absurd rfl hcs
    · have hfits : 0 + len_utf16 c ≤ 16384 := by
        unfold len_utf16
        split <;> omega
      rw [clip, if_pos hfits]
      exact List.cons_ne_nil _ _
  rw [ne_empty_iff]
  simpa [scrub_with_truncation] using hclip _ hredacted

theorem log_of_good (h : r.Good lib) : ∃ log, r.line.log lib = some log ∧ log.event_id = r.event_id := by
  obtain ⟨hsize, json, hjson, hcursor, htime, hmessage⟩ := h
  obtain ⟨c, hc⟩ := Option.isSome_iff_exists.1 hcursor
  obtain ⟨t, ht⟩ := Option.isSome_iff_exists.1 htime
  have hname : c = r.cursor := r.named c (by simp [Line.cursor, hjson, hc])
  have hsmall : r.line.oversized = false := by simpa [Line.oversized] using hsize
  have hentry : ∃ log, entry lib json = some log ∧ log.event_id = s!"journal:{c}" ∧ log.message ≠ "" := by
    simp only [entry, hc, ht, Option.bind_eq_bind, Option.bind_some, Option.pure_def]
    exact ⟨_, rfl, rfl, scrub_ne hmessage⟩
  obtain ⟨log, hlog, hid, hne⟩ := hentry
  refine ⟨log, ?_, by rw [hid, hname]; rfl⟩
  rw [Line.log, hsmall, if_neg Bool.false_ne_true, hjson, Option.bind_some, hlog]
  exact Option.filter_some_pos (by simpa using hne)

theorem event_id_of_log {log : LogEntry} (h : r.line.log lib = some log) : log.event_id = r.event_id := by
  unfold Line.log at h
  split at h
  · cases h
  · obtain ⟨hentry, _⟩ := Option.filter_eq_some_iff.1 h
    obtain ⟨json, hjson, hentry⟩ := Option.bind_eq_some_iff.1 hentry
    simp only [entry, Option.bind_eq_bind, Option.bind_eq_some_iff, Option.pure_def] at hentry
    obtain ⟨c, hc, t, _, hlog⟩ := hentry
    have hname : c = r.cursor := r.named c (by simp [Line.cursor, hjson, hc])
    obtain rfl := Option.some.inj hlog
    simp only [Record.event_id, hname]

theorem event_id_inj {a b : Record} (h : a.event_id = b.event_id) : a.cursor = b.cursor := by
  have h : "journal:" ++ a.cursor = "journal:" ++ b.cursor := h
  exact String.append_right_inj _ |>.1 h

end Entries

/-! ### The rest of the journal -/

section After

variable {journal pre post : List Record} {r : Record} {cursor : Option String}

theorem after_suffix (cursor : Option String) (journal : List Record) :
    ∃ pre, journal = pre ++ after cursor journal := by
  cases cursor with
  | none => exact ⟨[], rfl⟩
  | some c =>
    have hsuffix : after (some c) journal <:+ journal :=
      (List.tail_suffix _).trans (List.dropWhile_suffix _)
    obtain ⟨pre, hpre⟩ := hsuffix
    exact ⟨pre, hpre.symm⟩

theorem mem_of_mem_after (h : r ∈ after cursor journal) : r ∈ journal := by
  obtain ⟨pre, hpre⟩ := after_suffix cursor journal
  rw [hpre]
  exact List.mem_append_right _ h

theorem after_split (hnodup : (journal.map (·.cursor)).Nodup) (h : journal = pre ++ r :: post) :
    after (some r.cursor) journal = post := by
  subst h
  have hpre : ∀ x ∈ pre, decide (x.cursor ≠ r.cursor) = true := by
    intro x hx
    rw [List.map_append, List.nodup_append] at hnodup
    exact decide_eq_true (hnodup.2.2 _ (List.mem_map_of_mem hx) _ (List.mem_map_of_mem List.mem_cons_self))
  rw [after, List.dropWhile_append_of_pos hpre, List.dropWhile_cons_of_neg (by simp)]
  rfl

theorem after_append (hknown : ∀ c, cursor = some c → ∃ x ∈ journal, x.cursor = c) :
    after cursor (journal ++ post) = after cursor journal ++ post := by
  cases cursor with
  | none => rfl
  | some c =>
    obtain ⟨x, hx, hc⟩ := hknown c rfl
    have hne : journal.dropWhile (·.cursor ≠ c) ≠ [] := by
      intro hnil
      have := List.dropWhile_eq_nil_iff.1 hnil x hx
      simp [hc] at this
    have happend : (journal ++ post).dropWhile (·.cursor ≠ c) = journal.dropWhile (·.cursor ≠ c) ++ post := by
      rw [List.dropWhile_append, if_neg]
      simpa using hne
    rw [after, happend, List.tail_append_of_ne_nil hne]
    rfl

theorem getLast?_filterMap {α β : Type} {f : α → Option β} {l : List α} {b : β}
    (h : (l.filterMap f).getLast? = some b) :
    ∃ pre a post, l = pre ++ a :: post ∧ f a = some b := by
  obtain ⟨a, ha, hb⟩ := List.mem_filterMap.1 (List.mem_of_getLast? h)
  obtain ⟨pre, post, hl⟩ := List.append_of_mem ha
  exact ⟨pre, a, post, hl, hb⟩

end After

/-! ### The invariant -/

/-- What a state that is stored, or will be when `pending` is uploaded, has covered. -/
structure Sound (lib : Library) (w : World) (state : State) (start : Nat) (pending : List String) : Prop where
  known : ∀ c, state.cursor = some c → ∃ r ∈ w.journal, r.cursor = c
  start_le : start ≤ w.journal.length
  clock : state.since.getD 0 * 1000000 ≤ w.clock
  times : ∀ r ∈ w.journal.drop start, state.since.getD 0 * 1000000 ≤ r.time
  covered : ∀ owner, state.owner = some owner → ∀ r ∈ w.journal.drop start, r.Good lib →
    r ∈ after state.cursor w.journal ∨ (owner, r.event_id) ∈ w.acked ∨ w.Expired r ∨ r.event_id ∈ pending

/-- The owner of a state reads nothing from before its pairing. -/
def Fenced (w : World) (state : State) : Prop :=
  ∀ owner, state.owner = some owner → ∀ r ∈ w.journal.take (w.bound owner), r ∈ after state.cursor w.journal →
    ∃ t, state.since = some t ∧ r.time < t * 1000000

/-- What the last cursor of a batch has to be. -/
structure Batched (lib : Library) (w : World) (cursor : Option String) (pending : List String) : Prop where
  sound : ∀ c, cursor = some c → Sound lib w { w.state with cursor := some c } w.start pending
  fenced : ∀ c, cursor = some c → Fenced w { w.state with cursor := some c }
  later : ∀ c, cursor = some c → ∃ r ∈ after w.state.cursor w.journal, r.cursor = c
  due : w.due → cursor.isSome

/-- What each phase of the uploader knows of the journal it read. -/
def PhaseInv (lib : Library) (w : World) : Phase → Prop
  | .idle | .changed _ => True
  | .queried _ cursor => w.queryStart ≤ w.journal.length ∧ ∀ c, cursor = some c →
    (∃ r ∈ w.journal, r.cursor = c) ∧ after (some c) w.journal = w.journal.drop w.queryStart
  | .owned dest => w.state.owner = some dest.owner
  | .batch dest entries cursor =>
    w.state.owner = some dest.owner ∧ Batched lib w cursor (entries.map (·.event_id)) ∧
    ∀ log ∈ entries, ∀ r ∈ w.journal.take (w.bound dest.owner), r.event_id ≠ log.event_id
  | .uploaded dest cursor => w.state.owner = some dest.owner ∧ Batched lib w cursor []

/-- What the state on disk, the state in memory and the loop's phase say of what was sent. -/
structure Inv (lib : Library) (w : World) : Prop where
  nodup : (w.journal.map (·.cursor)).Nodup
  times : ∀ r ∈ w.journal, r.time ≤ w.clock
  bound_le : ∀ owner, w.bound owner ≤ w.journal.length
  unrepaired : w.repaired = false → ∀ owner, w.bound owner = 0
  vacant : w.state.owner = none → w.repaired = false
  sound : Sound lib w w.state w.start []
  fenced : Fenced w w.state
  fileSound : Sound lib w w.file w.fileStart []
  fileFenced : w.current = true ∨ w.repaired = false → Fenced w w.file
  fileOwner : w.current = true → w.file.owner = w.state.owner
  phase : PhaseInv lib w w.phase
  sent : ∀ x ∈ w.sent, x.bound ≤ w.journal.length ∧ ∀ r ∈ w.journal.take x.bound, r.event_id ≠ x.event_id

/-- Time passes, the journal grows, and the server acknowledges. -/
structure Grows (w w' : World) : Prop where
  journal : ∃ new, w'.journal = w.journal ++ new ∧ ∀ r ∈ new, w.clock ≤ r.time
  clock : w.clock ≤ w'.clock
  acked : w.acked ⊆ w'.acked

section Grows

variable {lib} {w w' : World} {state : State} {start : Nat} {pending : List String} {r : Record}

theorem Grows.same (hjournal : w'.journal = w.journal) (hclock : w'.clock = w.clock)
    (hacked : w.acked ⊆ w'.acked) : Grows w w' :=
  ⟨⟨[], hjournal.trans (List.append_nil _).symm, nofun⟩, Nat.le_of_eq hclock.symm, hacked⟩

theorem Grows.expired (h : Grows w w') (hr : w.Expired r) : w'.Expired r :=
  Nat.lt_of_lt_of_le hr (Nat.mul_le_mul_right _ (Nat.sub_le_sub_right (Nat.div_le_div_right h.clock) _))

theorem Sound.grow (h : Grows w w') (hs : Sound lib w state start pending) :
    Sound lib w' state start pending := by
  obtain ⟨new, hnew, htimes⟩ := h.journal
  have hdrop : w'.journal.drop start = w.journal.drop start ++ new := by
    rw [hnew, List.drop_append_of_le_length hs.start_le]
  have hafter : after state.cursor w'.journal = after state.cursor w.journal ++ new := by
    rw [hnew, after_append hs.known]
  have hlength := hs.start_le
  refine ⟨fun c hc => ?_, ?_, Nat.le_trans hs.clock h.clock, fun r hr => ?_,
    fun owner howner r hr hgood => ?_⟩
  · obtain ⟨x, hx, hxc⟩ := hs.known c hc
    exact ⟨x, hnew ▸ List.mem_append_left _ hx, hxc⟩
  · rw [hnew, List.length_append]
    omega
  · rw [hdrop] at hr
    rcases List.mem_append.1 hr with hr | hr
    · exact hs.times r hr
    · exact Nat.le_trans hs.clock (htimes r hr)
  · rw [hdrop] at hr
    rw [hafter]
    rcases List.mem_append.1 hr with hr | hr
    · rcases hs.covered owner howner r hr hgood with h' | h' | h' | h'
      · exact .inl (List.mem_append_left _ h')
      · exact .inr (.inl (h.acked h'))
      · exact .inr (.inr (.inl (h.expired h')))
      · exact .inr (.inr (.inr h'))
    · exact .inl (List.mem_append_right _ hr)

/-- A state without a cursor has passed nothing. -/
theorem Sound.fresh (owner : Option String) : Sound lib w ⟨owner, none, none⟩ 0 [] where
  known := nofun
  start_le := Nat.zero_le _
  clock := by simp
  times := by simp
  covered _ _ _ hr _ := .inl hr

theorem take_grow (h : Grows w w') {n : Nat} (hn : n ≤ w.journal.length) :
    w'.journal.take n = w.journal.take n := by
  obtain ⟨new, hnew, _⟩ := h.journal
  rw [hnew, List.take_append_of_le_length hn]

/-- What is written later is not from before a pairing. -/
theorem mem_after_grow (h : Grows w w') (hnodup : (w'.journal.map (·.cursor)).Nodup)
    (hknown : ∀ c, state.cursor = some c → ∃ x ∈ w.journal, x.cursor = c) (hr : r ∈ w.journal)
    (hafter : r ∈ after state.cursor w'.journal) : r ∈ after state.cursor w.journal := by
  obtain ⟨new, hnew, _⟩ := h.journal
  rw [hnew, after_append hknown] at hafter
  rw [hnew, List.map_append, List.nodup_append] at hnodup
  rcases List.mem_append.1 hafter with hafter | hmem
  · exact hafter
  · exact absurd rfl (hnodup.2.2 _ (List.mem_map_of_mem hr) _ (List.mem_map_of_mem hmem))

theorem Fenced.grow (h : Grows w w') (hnodup : (w'.journal.map (·.cursor)).Nodup)
    (hle : ∀ owner, w.bound owner ≤ w.journal.length)
    (hbound : ∀ owner, state.owner = some owner → w'.bound owner = w.bound owner)
    (hknown : ∀ c, state.cursor = some c → ∃ x ∈ w.journal, x.cursor = c) (hf : Fenced w state) :
    Fenced w' state := by
  intro owner howner r hr hafter
  rw [hbound owner howner, take_grow h (hle owner)] at hr
  exact hf owner howner r hr (mem_after_grow h hnodup hknown (List.mem_of_mem_take hr) hafter)

end Grows

/-- The loop's state stays. -/
structure Steady (w w' : World) : Prop extends Grows w w' where
  state : w'.state = w.state
  start : w'.start = w.start
  queryStart : w'.queryStart = w.queryStart
  due : w'.due = w.due

/-- A step that the loop does not take. -/
structure Outside (w w' : World) : Prop extends Steady w w' where
  phase : w'.phase = w.phase
  file : w'.file = w.file
  fileStart : w'.fileStart = w.fileStart
  current : w'.current = w.current
  sent : w'.sent = w.sent

section Outside

variable {lib} {w w' : World}

theorem PhaseInv.steady (h : Steady w w') (hw : Inv lib w) (hnodup : (w'.journal.map (·.cursor)).Nodup)
    (hbound : ∀ owner, w.state.owner = some owner → w'.bound owner = w.bound owner) :
    ∀ phase, PhaseInv lib w phase → PhaseInv lib w' phase := by
  have hknown := hw.sound.known
  have hbatched : ∀ cursor pending, Batched lib w cursor pending → Batched lib w' cursor pending := by
    intro cursor pending hb
    refine ⟨fun c hc => ?_, fun c hc => ?_, fun c hc => ?_, fun hdue => hb.due (h.due ▸ hdue)⟩
    · rw [h.state, h.start]
      exact (hb.sound c hc).grow h.toGrows
    · rw [h.state]
      exact (hb.fenced c hc).grow h.toGrows hnodup hw.bound_le hbound (hb.sound c hc).known
    · obtain ⟨r, hr, hrc⟩ := hb.later c hc
      obtain ⟨new, hnew, _⟩ := h.journal
      refine ⟨r, ?_, hrc⟩
      rw [h.state, hnew, after_append hknown]
      exact List.mem_append_left _ hr
  rintro (_ | _ | ⟨dest, cursor⟩ | dest | ⟨dest, entries, cursor⟩ | ⟨dest, cursor⟩) hphase
  · trivial
  · trivial
  · obtain ⟨hle, hcursor⟩ := hphase
    obtain ⟨new, hnew, _⟩ := h.journal
    refine ⟨?_, fun c hc => ?_⟩
    · rw [h.queryStart, hnew, List.length_append]
      exact Nat.le_add_right_of_le hle
    · obtain ⟨⟨r, hr, hrc⟩, hafter⟩ := hcursor c hc
      refine ⟨⟨r, hnew ▸ List.mem_append_left _ hr, hrc⟩, ?_⟩
      rw [h.queryStart, hnew, after_append fun c' hc' => Option.some.inj hc' ▸ ⟨r, hr, hrc⟩, hafter,
        List.drop_append_of_le_length hle]
  · have hphase : w.state.owner = some dest.owner := hphase
    exact (congrArg State.owner h.state).trans hphase
  · refine ⟨(congrArg State.owner h.state).trans hphase.1, hbatched _ _ hphase.2.1, fun log hlog r hr => ?_⟩
    rw [hbound _ hphase.1, take_grow h.toGrows (hw.bound_le _)] at hr
    exact hphase.2.2 log hlog r hr
  · exact ⟨(congrArg State.owner h.state).trans hphase.1, hbatched _ _ hphase.2⟩

theorem Inv.outside {v : World} (h : Outside w v) (hw : Inv lib w) (hnodup : (v.journal.map (·.cursor)).Nodup)
    (htimes : ∀ r ∈ v.journal, r.time ≤ v.clock) (hle : ∀ owner, v.bound owner ≤ v.journal.length)
    (hbound : ∀ owner, w.state.owner = some owner ∨ v.repaired = false → v.bound owner = w.bound owner)
    (hrepaired : v.repaired = false → w.repaired = false)
    (hvacant : w.state.owner = none → v.repaired = false) :
    Inv lib v where
  nodup := hnodup
  times := htimes
  bound_le := hle
  unrepaired hr owner := (hbound owner (.inr hr)).trans (hw.unrepaired (hrepaired hr) owner)
  vacant hnone := hvacant (h.state ▸ hnone)
  sound := by
    rw [h.state, h.start]
    exact hw.sound.grow h.toGrows
  fenced := by
    rw [h.state]
    exact hw.fenced.grow h.toGrows hnodup hw.bound_le (fun owner howner => hbound owner (.inl howner))
      hw.sound.known
  fileSound := by
    rw [h.file, h.fileStart]
    exact hw.fileSound.grow h.toGrows
  fileFenced hfile := by
    rw [h.file]
    rw [h.current] at hfile
    refine (hw.fileFenced (hfile.imp_right hrepaired)).grow h.toGrows hnodup hw.bound_le
      (fun owner howner => ?_)
      hw.fileSound.known
    rcases hfile with hcurrent | hr
    · exact hbound owner (.inl (hw.fileOwner hcurrent ▸ howner))
    · exact hbound owner (.inr hr)
  fileOwner hcurrent := by
    rw [h.file, h.state]
    exact hw.fileOwner (h.current ▸ hcurrent)
  phase := by
    rw [h.phase]
    exact PhaseInv.steady h.toSteady hw hnodup (fun owner howner => hbound owner (.inl howner)) _ hw.phase
  sent x hx := by
    rw [h.sent] at hx
    obtain ⟨new, hnew, _⟩ := h.journal
    rw [take_grow h.toGrows (hw.sent x hx).1]
    refine ⟨?_, (hw.sent x hx).2⟩
    rw [hnew, List.length_append]
    exact Nat.le_add_right_of_le (hw.sent x hx).1

theorem inv_passes (hw : Inv lib w) (micros : Nat) : Inv lib { w with clock := w.clock + micros } := by
  have hgrows : Grows w { w with clock := w.clock + micros } :=
    ⟨⟨[], (List.append_nil _).symm, nofun⟩, Nat.le_add_right .., fun _ h => h⟩
  exact hw.outside ⟨⟨hgrows, rfl, rfl, rfl, rfl⟩, rfl, rfl, rfl, rfl, rfl⟩ hw.nodup
    (fun r hr => Nat.le_add_right_of_le (hw.times r hr)) hw.bound_le (fun _ _ => rfl) id hw.vacant

theorem inv_appends (hw : Inv lib w) {record : Record} (htime : record.time = w.clock)
    (hnew : ∀ r ∈ w.journal, r.time < record.time ∧ r.cursor ≠ record.cursor) :
    Inv lib { w with journal := w.journal ++ [record] } := by
  refine hw.outside (v := { w with journal := w.journal ++ [record] })
    ⟨⟨⟨⟨[record], rfl, fun r hr => ?_⟩, Nat.le_refl _, fun _ h => h⟩, rfl, rfl, rfl, rfl⟩, rfl, rfl,
      rfl, rfl, rfl⟩
    ?_ (fun r hr => ?_) (fun owner => ?_) (fun _ _ => rfl) id hw.vacant
  · obtain rfl := List.mem_singleton.1 hr
    exact Nat.le_of_eq htime.symm
  · show ((w.journal ++ [record]).map (·.cursor)).Nodup
    rw [List.map_append, List.nodup_append]
    refine ⟨hw.nodup, List.nodup_singleton _, ?_⟩
    simp only [List.map_cons, List.map_nil, List.mem_singleton, List.mem_map]
    rintro _ ⟨r, hr, rfl⟩ _ rfl
    exact (hnew r hr).2
  · rcases List.mem_append.1 hr with hr | hr
    · exact hw.times r hr
    · obtain rfl := List.mem_singleton.1 hr
      exact Nat.le_of_eq htime
  · rw [List.length_append]
    exact Nat.le_add_right_of_le (hw.bound_le owner)

theorem inv_hides (hw : Inv lib w) : Inv lib { w with device := none } := by
  have houtside : Outside w { w with device := none } :=
    ⟨⟨.same rfl rfl fun _ h => h, rfl, rfl, rfl, rfl⟩, rfl, rfl, rfl, rfl, rfl⟩
  exact hw.outside houtside hw.nodup hw.times hw.bound_le (fun _ _ => rfl) id hw.vacant

theorem inv_pairs (hw : Inv lib w) {dest : Destination}
    (hgood : w.last = none ∨ w.last = some dest.owner ∨ ∃ owner, w.state.owner = some owner ∧
      owner ≠ dest.owner) :
    Inv lib (w.pair dest) := by
  have houtside : Outside w (w.pair dest) :=
    ⟨⟨.same rfl rfl fun _ h => h, rfl, rfl, rfl, rfl⟩, rfl, rfl, rfl, rfl, rfl⟩
  have hle : ∀ owner, (w.pair dest).bound owner ≤ w.journal.length := by
    intro owner
    unfold World.pair
    dsimp only
    split
    · exact Nat.le_refl _
    · exact hw.bound_le owner
  refine hw.outside houtside hw.nodup hw.times hle (fun owner howner => if_neg ?_) (fun hr => ?_)
    fun hnone => ?_
  · rintro ⟨rfl, hsome, hne⟩
    rcases howner with howner | hr
    · rcases hgood with hlast | hlast | ⟨other, hother, hdiffers⟩
      · simp [hlast] at hsome
      · exact hne hlast
      · exact hdiffers (Option.some.inj (hother.symm.trans howner))
    · simp [World.pair, hsome, hne] at hr
  · exact (Bool.or_eq_false_iff.1 hr).1
  · rcases hgood with hlast | hlast | ⟨other, hother, _⟩
    · simp [World.pair, hlast, hw.vacant hnone]
    · simp [World.pair, hlast, hw.vacant hnone]
    · rw [hother] at hnone
      cases hnone

end Outside

/-! ### Steps of the loop -/

section Loop

variable {lib} {w w' : World} {dest : Destination}

/-- A step of the loop, by what it does to the two stored states. -/
theorem Inv.loop {v : World} (hw : Inv lib w) (hjournal : v.journal = w.journal)
    (hclock : v.clock = w.clock) (hacked : w.acked ⊆ v.acked)
    (hbound : v.bound = w.bound) (hrepaired : v.repaired = w.repaired)
    (hvacant : v.state.owner = none → w.repaired = false)
    (hsound : Sound lib w v.state v.start []) (hfenced : Fenced w v.state)
    (hfileSound : Sound lib w v.file v.fileStart [])
    (hfileFenced : v.current = true ∨ w.repaired = false → Fenced w v.file)
    (hfileOwner : v.current = true → v.file.owner = v.state.owner) (hphase : PhaseInv lib v v.phase)
    (hsent : ∀ x ∈ v.sent, x.bound ≤ w.journal.length ∧
      ∀ r ∈ w.journal.take x.bound, r.event_id ≠ x.event_id) : Inv lib v := by
  have hgrows : Grows w v := .same hjournal hclock hacked
  have hnodup : (v.journal.map (·.cursor)).Nodup := hjournal ▸ hw.nodup
  have hkeep : ∀ {state}, Fenced w state → Fenced v state := fun hf owner howner r hr hafter => by
    rw [hjournal] at hr hafter
    rw [hbound] at hr
    exact hf owner howner r hr hafter
  refine ⟨hnodup, ?_, ?_, ?_, ?_, hsound.grow hgrows, hkeep hfenced, hfileSound.grow hgrows, ?_,
    hfileOwner, hphase, ?_⟩
  · rw [hjournal, hclock]
    exact hw.times
  · rw [hjournal, hbound]
    exact hw.bound_le
  · rw [hrepaired, hbound]
    exact hw.unrepaired
  · rw [hrepaired]
    exact hvacant
  · rw [hrepaired]
    exact fun h => hkeep (hfileFenced h)
  · rw [hjournal]
    exact hsent

theorem inv_phase (hw : Inv lib w) {phase : Phase} (hphase : PhaseInv lib { w with phase } phase) :
    Inv lib { w with phase } :=
  hw.loop rfl rfl (fun _ h => h) rfl rfl hw.vacant hw.sound hw.fenced hw.fileSound hw.fileFenced
    hw.fileOwner hphase hw.sent

theorem inv_write (hw : Inv lib w) (written : Bool) : Inv lib (w.write written) := by
  cases written with
  | false => exact hw
  | true =>
    have hsteady : Steady w (w.write true) := ⟨.same rfl rfl fun _ h => h, rfl, rfl, rfl, rfl⟩
    exact hw.loop rfl rfl (fun _ h => h) rfl rfl hw.vacant hw.sound hw.fenced hw.sound
      (fun _ => hw.fenced) (fun _ => rfl)
      (PhaseInv.steady hsteady hw hw.nodup (fun _ _ => rfl) _ hw.phase) hw.sent

theorem inv_restarts (hw : Inv lib w) {readable : Bool}
    (hgood : w.repaired = false ∨ readable = true ∧ w.current = true)
    (h : step lib w (.restarts readable) = some w') : Inv lib w' := by
  obtain rfl := Option.some.inj h
  cases readable with
  | true =>
    have hcurrent : w.current = true ∨ w.repaired = false := hgood.symm.imp_left And.right
    refine hw.loop (v := { w with phase := .idle, state := w.file, start := w.fileStart, current := true })
      rfl rfl (fun _ h => h)
      rfl rfl (fun hnone => ?_) hw.fileSound (hw.fileFenced hcurrent) hw.fileSound
        (fun _ => hw.fileFenced hcurrent) (fun _ => rfl)
      trivial hw.sent
    rcases hgood with hr | ⟨_, hcurrent⟩
    · exact hr
    · exact hw.vacant ((hw.fileOwner hcurrent).symm.trans hnone)
  | false =>
    have hr : w.repaired = false := hgood.resolve_right fun h => nomatch h.1
    exact hw.loop (v := { w with phase := .idle, state := .empty, start := 0, current := false })
      rfl rfl (fun _ h => h) rfl rfl
      (fun _ => hr) (.fresh none) nofun hw.fileSound (fun _ => hw.fileFenced (.inr hr)) nofun trivial hw.sent

/-- Another owner takes over. -/
theorem inv_adopt (hw : Inv lib w) {state : State} {start : Nat} (written : Bool)
    (howner : state.owner = some dest.owner)
    (hsound : Sound lib w state start []) (hfenced : Fenced w state) :
    Inv lib { w.adopt state start written with phase := .owned dest } := by
  have hadopted : Inv lib { w with state, start, current := false, phase := .owned dest } := by
    refine hw.loop (v := { w with state, start, current := false, phase := .owned dest }) rfl rfl
      (fun _ h => h) rfl rfl
      (fun hnone => ?_) hsound hfenced hw.fileSound (fun h => hw.fileFenced (.inr (h.resolve_left nofun)))
        nofun howner hw.sent
    exact absurd (howner.symm.trans hnone) nofun
  cases written with
  | false => exact hadopted
  | true => exact inv_write hadopted true

theorem inv_polls (hw : Inv lib w) {written : Bool} (h : step lib w (.polls written) = some w') :
    Inv lib w' := by
  simp only [step] at h
  split at h
  · exact Option.some.inj h ▸ hw
  · next dest _ _ =>
    obtain rfl := Option.some.inj h
    split
    · next howner => exact inv_phase hw howner
    · split
      · exact inv_phase hw trivial
      · next hnone =>
        have hr : w.repaired = false := hw.vacant (by simpa using hnone)
        refine inv_adopt hw written rfl (.fresh _) fun owner _ r hmem => ?_
        rw [hw.unrepaired hr owner] at hmem
        cases hmem
  · cases h

theorem inv_queries (hw : Inv lib w) {ok parsed : Bool} (h : step lib w (.queries ok parsed) = some w') :
    Inv lib w' := by
  simp only [step] at h
  split at h
  · next dest _ =>
    obtain rfl := Option.some.inj h
    cases ok with
    | false => exact inv_phase hw trivial
    | true =>
      refine hw.loop (v := { w with
        phase := .queried dest (if parsed then w.journal.getLast?.map (·.cursor) else none),
            queryStart := w.journal.length })
        rfl rfl (fun _ h => h) rfl rfl hw.vacant hw.sound hw.fenced hw.fileSound hw.fileFenced hw.fileOwner
        ⟨Nat.le_refl _, fun c hc => ?_⟩ hw.sent
      cases parsed with
      | false => cases hc
      | true =>
        obtain ⟨r, hr, rfl⟩ := Option.map_eq_some_iff.1 hc
        have hsplit := (List.dropLast_append_getLast? r hr).symm
        refine ⟨⟨r, List.mem_of_getLast? hr, rfl⟩, ?_⟩
        show after (some r.cursor) w.journal = w.journal.drop w.journal.length
        rw [after_split hw.nodup hsplit, List.drop_length]
  · cases h

theorem not_mem_take_drop {m n : Nat} {journal : List Record} {r : Record}
    (hnodup : (journal.map (·.cursor)).Nodup) (hmn : m ≤ n)
    (htake : r ∈ journal.take m) : r ∉ journal.drop n := by
  intro hdrop
  have hsplit : journal = journal.take n ++ journal.drop n := (List.take_append_drop n journal).symm
  rw [hsplit, List.map_append, List.nodup_append] at hnodup
  exact absurd rfl (hnodup.2.2 _ (List.mem_map_of_mem (List.take_subset_take_left _ hmn htake)) _
    (List.mem_map_of_mem hdrop))

theorem inv_adopts (hw : Inv lib w) {written : Bool} (hgood : Undisturbed w (.adopts written))
    (h : step lib w (.adopts written) = some w') : Inv lib w' := by
  simp only [step] at h
  split at h
  · next dest cursor hphase =>
    obtain rfl := Option.some.inj h
    obtain ⟨hle, hcursor⟩ : PhaseInv lib w (.queried dest cursor) := hphase ▸ hw.phase
    obtain ⟨hbound, htimes, happart⟩ := hgood dest cursor hphase
    refine inv_adopt hw written rfl ⟨fun c hc => (hcursor c hc).1, hle, Nat.div_mul_le_self ..,
      htimes, fun _ _ r hr _ => .inl ?_⟩ ?_
    · cases cursor with
      | none => exact List.mem_of_mem_drop hr
      | some c => exact (hcursor c rfl).2 ▸ hr
    · intro owner howner r hr hafter
      obtain rfl := Option.some.inj howner
      cases cursor with
      | none => exact happart rfl r hr
      | some c =>
        rw [(hcursor c rfl).2] at hafter
        exact absurd hafter (not_mem_take_drop hw.nodup hbound hr)
  · cases h

/-- What the batch's last cursor passes is in the batch, or is not there to be read. -/
theorem batched (hw : Inv lib w) (hgood : Undisturbed w (.reads true)) {entries : List LogEntry}
    {cursor : Option String}
    (hread : read_command lib (w.unread.map (·.line)) = (entries, cursor)) {phase : Phase} :
    Batched lib { w with phase, due := w.unread.any fun r => r.line.cursor.isSome } cursor
    (entries.map (·.event_id)) := by
  obtain ⟨rfl, rfl⟩ := Prod.mk.inj hread
  have hgrows : Grows w { w with phase, due := w.unread.any fun r => r.line.cursor.isSome } :=
    .same rfl rfl fun _ h => h
  have hsplit : ∀ c, (((w.unread.map (·.line)).take BATCH_SIZE).filterMap (·.cursor)).getLast? = some c →
      ∃ r before rest pre post, c = r.cursor ∧ w.unread.take BATCH_SIZE = before ++ r :: rest ∧
        after w.state.cursor w.journal = pre ++ r :: post ∧
            pre.filter (fun r => w.cutoff * 1000000 ≤ r.time) = before := by
    intro c hc
    rw [← List.map_take] at hc
    obtain ⟨lines, line, rest, hlines, hcursor⟩ := getLast?_filterMap hc
    obtain ⟨before, tail, htake, rfl, htail⟩ := List.map_eq_append_iff.1 hlines
    obtain ⟨r, rest, rfl, rfl, rfl⟩ := List.map_eq_cons_iff.1 htail
    have hall : w.unread = before ++ r :: (rest ++ w.unread.drop BATCH_SIZE) := by
      rw [← List.cons_append, ← List.append_assoc, ← htake, List.take_append_drop]
    obtain ⟨l₁, l₂, hl, hbefore, hl₂⟩ := List.filter_eq_append_iff.1 hall
    obtain ⟨skipped, post, rfl, hskipped, _, _⟩ := List.filter_eq_cons_iff.1 hl₂
    refine ⟨r, before, rest, l₁ ++ skipped, post, r.named c hcursor, htake, ?_, ?_⟩
    · rw [hl, List.append_assoc]
    · rw [List.filter_append, hbefore, List.filter_eq_nil_iff.2 hskipped, List.append_nil]
  refine ⟨fun c hc => ?_, fun c hc => ?_, fun c hc => ?_, fun hdue => ?_⟩
  · obtain ⟨r₀, before, rest, pre, post, rfl, htake, hafter, hpre⟩ := hsplit c hc
    obtain ⟨passed, hjournal⟩ := after_suffix w.state.cursor w.journal
    have hmem : r₀ ∈ w.journal := mem_of_mem_after (hafter ▸ List.mem_append_right _ List.mem_cons_self)
    have hparts : w.journal = (passed ++ pre) ++ r₀ :: post := by
      rw [List.append_assoc, ← hafter]
      exact hjournal
    have hnext : after (some r₀.cursor) w.journal = post := after_split hw.nodup hparts
    refine Sound.grow hgrows ⟨fun c hc => Option.some.inj hc ▸ ⟨r₀, hmem, rfl⟩, hw.sound.start_le,
      hw.sound.clock, hw.sound.times, fun owner howner r hr hgood => ?_⟩
    rcases hw.sound.covered owner howner r hr hgood with h | h | h | h
    · by_cases hexpired : w.Expired r
      · exact .inr (.inr (.inl hexpired))
      · show r ∈ after (some r₀.cursor) w.journal ∨ _
        rw [hnext]
        have hkept : w.cutoff * 1000000 ≤ r.time := by
          have hwindow : (w.seconds - 86400) * 1000000 ≤ r.time := Nat.le_of_not_lt hexpired
          have hsince := hw.sound.times r hr
          rcases max_choice (w.seconds - 86400) (w.state.since.getD 0) with hmax | hmax
          · exact (congrArg (· * 1000000 ≤ r.time) hmax).mpr hwindow
          · exact (congrArg (· * 1000000 ≤ r.time) hmax).mpr hsince
        have hlog : r ∈ w.unread.take BATCH_SIZE → r.event_id ∈
            (((w.unread.map (·.line)).take BATCH_SIZE).filterMap (·.log lib)).map (·.event_id) := by
          intro hbatch
          obtain ⟨log, hlog, hid⟩ := log_of_good hgood
          rw [← List.map_take]
          exact List.mem_map.2 ⟨log, List.mem_filterMap.2 ⟨r.line, List.mem_map_of_mem hbatch, hlog⟩, hid⟩
        rw [hafter] at h
        rcases List.mem_append.1 h with h | h
        · refine .inr (.inr (.inr (hlog ?_)))
          rw [htake, ← hpre]
          exact List.mem_append_left _ (List.mem_filter.2 ⟨h, by simpa using hkept⟩)
        · rcases List.mem_cons.1 h with rfl | h
          · exact .inr (.inr (.inr (hlog (htake ▸ List.mem_append_right _ List.mem_cons_self))))
          · exact .inl h
    · exact .inr (.inl h)
    · exact .inr (.inr (.inl h))
    · cases h
  · obtain ⟨r₀, before, rest, pre, post, rfl, htake, hafter, hpre⟩ := hsplit c hc
    obtain ⟨passed, hjournal⟩ := after_suffix w.state.cursor w.journal
    have hparts : w.journal = (passed ++ pre) ++ r₀ :: post := by
      rw [List.append_assoc, ← hafter]
      exact hjournal
    have hnext : after (some r₀.cursor) w.journal = post := after_split hw.nodup hparts
    intro owner howner r hr hmem
    refine hw.fenced owner howner r hr ?_
    rw [hafter]
    exact List.mem_append_right _ (List.mem_cons_of_mem _ (hnext ▸ hmem))
  · obtain ⟨r₀, _, _, pre, post, rfl, _, hafter, _⟩ := hsplit c hc
    refine ⟨r₀, ?_, rfl⟩
    show r₀ ∈ after w.state.cursor w.journal
    rw [hafter]
    exact List.mem_append_right _ List.mem_cons_self
  · obtain ⟨r, hr, hcursor⟩ := List.any_eq_true.1 (hgood hdue)
    obtain ⟨c, hc⟩ := Option.isSome_iff_exists.1 hcursor
    rw [← List.map_take]
    refine List.getLast?_isSome.2 (List.ne_nil_of_mem (a := c) ?_)
    exact List.mem_filterMap.2 ⟨r.line, List.mem_map_of_mem hr, hc⟩

/-- A batch has nothing from before its owner's pairing. -/
theorem batch_confined (hw : Inv lib w) {owner : String} (howner : w.state.owner = some owner) :
    ∀ log ∈ (read_command lib (w.unread.map (·.line))).1, ∀ r ∈ w.journal.take (w.bound owner),
    r.event_id ≠ log.event_id := by
  intro log hlog r hr heq
  rw [read_command, ← List.map_take] at hlog
  obtain ⟨line, hline, hlog⟩ := List.mem_filterMap.1 hlog
  obtain ⟨r', hr', rfl⟩ := List.mem_map.1 hline
  obtain ⟨hafter, hkept⟩ := List.mem_filter.1 (List.mem_of_mem_take hr')
  have hcursor : r.cursor = r'.cursor := event_id_inj (heq.trans (event_id_of_log hlog))
  obtain rfl : r = r' := List.inj_on_of_nodup_map hw.nodup (List.mem_of_mem_take hr)
    (mem_of_mem_after hafter) hcursor
  obtain ⟨t, ht, hbefore⟩ := hw.fenced owner howner r hr hafter
  have hsince : t ≤ w.cutoff := by
    have hget : w.state.since.getD 0 = t := by rw [ht]; rfl
    exact hget ▸ Nat.le_max_right ..
  have hkept : w.cutoff * 1000000 ≤ r.time := by simpa using hkept
  exact absurd (Nat.lt_of_lt_of_le hbefore (Nat.mul_le_mul_right _ hsince)) (Nat.not_lt_of_le hkept)

theorem inv_reads (hw : Inv lib w) {ok : Bool} (hgood : Undisturbed w (.reads ok))
    (h : step lib w (.reads ok) = some w') :
    Inv lib w' := by
  simp only [step] at h
  split at h
  · next dest hphase =>
    obtain rfl := Option.some.inj h
    have howner : w.state.owner = some dest.owner := by
      have := hw.phase
      rwa [hphase] at this
    cases ok with
    | true =>
      let read := read_command lib (w.unread.map (·.line))
      exact hw.loop (v := { w with
        phase := .batch dest read.1 read.2, due := w.unread.any fun r => r.line.cursor.isSome })
        rfl rfl (fun _ h => h) rfl rfl hw.vacant hw.sound hw.fenced hw.fileSound hw.fileFenced hw.fileOwner
        ⟨howner, batched hw hgood rfl, batch_confined hw howner⟩ hw.sent
    | false =>
      refine hw.loop (v := { w with phase := .idle, state := { w.state with cursor := none } }) rfl
        rfl (fun _ h => h) rfl rfl
        hw.vacant ⟨nofun, hw.sound.start_le, hw.sound.clock, hw.sound.times,
          fun owner howner r hr _ => .inl ?_⟩
        (fun owner howner' r hr _ => ?_) hw.fileSound hw.fileFenced hw.fileOwner trivial hw.sent
      · exact List.mem_of_mem_drop hr
      · obtain rfl := Option.some.inj (howner.symm.trans howner')
        exact hgood dest hphase r hr
  · cases h

theorem inv_uploads (hw : Inv lib w) {ok : Bool} (h : step lib w (.uploads ok) = some w') : Inv lib w' := by
  simp only [step] at h
  split at h
  · next dest entries cursor hphase =>
    obtain ⟨howner, hbatched, hconfined⟩ : PhaseInv lib w (.batch dest entries cursor) := hphase ▸ hw.phase
    obtain rfl := Option.some.inj h
    have hacked : ∀ event ∈ w.acked, event ∈ (if ok then entries.map fun log => (dest.owner, log.event_id)
          else []) ++ w.acked :=
      fun _ hmem => List.mem_append_right _ hmem
    have hsent : ∀ x ∈ entries.map (fun log =>
      (⟨dest.owner, log.event_id, w.bound dest.owner⟩ : Sent)) ++ w.sent,
        x.bound ≤ w.journal.length ∧ ∀ r ∈ w.journal.take x.bound, r.event_id ≠ x.event_id := by
      intro x hx
      rcases List.mem_append.1 hx with hx | hx
      · obtain ⟨log, hlog, rfl⟩ := List.mem_map.1 hx
        exact ⟨hw.bound_le _, hconfined log hlog⟩
      · exact hw.sent x hx
    refine hw.loop (v := { w with
      phase := if entries.isEmpty ∨ ok then .uploaded dest cursor else .idle
      sent := entries.map (fun log => ⟨dest.owner, log.event_id, w.bound dest.owner⟩) ++ w.sent
      acked := (if ok then entries.map fun log => (dest.owner, log.event_id) else []) ++ w.acked })
      rfl rfl hacked rfl rfl hw.vacant hw.sound hw.fenced hw.fileSound hw.fileFenced hw.fileOwner ?_ hsent
    dsimp only
    split
    · next hdone =>
      refine ⟨howner, fun c hc => ?_, hbatched.fenced, hbatched.later, hbatched.due⟩
      have hs := hbatched.sound c hc
      -- What was pending is acknowledged, and of nothing nothing is pending.
      refine ⟨hs.known, hs.start_le, hs.clock, hs.times, fun owner howner' r hr hgood => ?_⟩
      rcases hs.covered owner howner' r hr hgood with h | h | h | h
      · exact .inl h
      · exact .inr (.inl (hacked _ h))
      · exact .inr (.inr (.inl h))
      · obtain ⟨log, hlog, hid⟩ := List.mem_map.1 h
        obtain rfl : dest.owner = owner := Option.some.inj (howner.symm.trans howner')
        have hok : ok = true := hdone.resolve_left fun hempty => by
          rw [List.isEmpty_iff.1 hempty] at hlog
          cases hlog
        refine .inr (.inl (List.mem_append_left _ ?_))
        rw [hok, if_pos rfl]
        exact List.mem_map.2 ⟨log, hlog, by rw [hid]⟩
    · trivial
  · cases h

theorem inv_commits (hw : Inv lib w) {written : Bool} (h : step lib w (.commits written) = some w') :
    Inv lib w' := by
  simp only [step] at h
  split at h
  · next dest cursor hphase =>
    obtain ⟨howner, hbatched⟩ : PhaseInv lib w (.uploaded dest cursor) := hphase ▸ hw.phase
    obtain rfl := Option.some.inj h
    cases cursor with
    | none => exact inv_phase hw trivial
    | some c =>
      refine inv_write (w := { w with phase := .idle, state := { w.state with cursor := some c } }) ?_ written
      exact hw.loop (v := { w with phase := .idle, state := { w.state with cursor := some c } }) rfl
        rfl (fun _ h => h) rfl rfl
        hw.vacant (hbatched.sound c rfl) (hbatched.fenced c rfl) hw.fileSound hw.fileFenced
          hw.fileOwner trivial hw.sent
  · cases h

theorem inv_step {l : Label} (hgood : Undisturbed w l) (h : step lib w l = some w') (hw : Inv lib w) :
    Inv lib w' := by
  cases l with
  | passes micros => exact Option.some.inj h ▸ inv_passes hw micros
  | appends record =>
    simp only [step] at h
    split at h
    · next hnew => exact Option.some.inj h ▸ inv_appends hw hnew.1 hnew.2
    · cases h
  | pairs dest => exact Option.some.inj h ▸ inv_pairs hw hgood
  | hides => exact Option.some.inj h ▸ inv_hides hw
  | restarts readable => exact inv_restarts hw hgood h
  | polls written => exact inv_polls hw h
  | queries ok parsed => exact inv_queries hw h
  | adopts written => exact inv_adopts hw hgood h
  | reads ok => exact inv_reads hw hgood h
  | uploads ok => exact inv_uploads hw h
  | commits written => exact inv_commits hw h

theorem inv_init (clock : Nat) : Inv lib (.init clock) where
  nodup := List.nodup_nil
  times := nofun
  bound_le _ := Nat.le_refl _
  unrepaired _ _ := rfl
  vacant _ := rfl
  sound := .fresh none
  fenced := nofun
  fileSound := .fresh none
  fileFenced _ := nofun
  fileOwner _ := rfl
  phase := trivial
  sent := nofun

theorem Inv.advances (hw : Inv lib w) : w.Advances lib := by
  intro written w' h hdue
  simp only [step] at h
  split at h
  · next dest cursor hphase =>
    obtain ⟨_, hbatched⟩ : PhaseInv lib w (.uploaded dest cursor) := hphase ▸ hw.phase
    obtain ⟨c, rfl⟩ := Option.isSome_iff_exists.1 (hbatched.due hdue)
    obtain ⟨r, hr, rfl⟩ := hbatched.later c rfl
    refine ⟨r, hr, ?_⟩
    obtain rfl := Option.some.inj h
    cases written <;> rfl
  · cases h

end Loop

/-- In an undisturbed run nothing is lost, nothing leaks, and the cursor advances. -/
theorem journal_upload (lib : Library) (clock : Nat) {labels : List Label} {w : World}
    (h : run (step lib) (.init clock) labels = some w)
    (hgood : Along (step lib) Undisturbed (.init clock) labels) :
    (w.Acknowledged lib w.state w.start ∧ w.Acknowledged lib w.file w.fileStart) ∧ w.Confined ∧
    w.Advances lib := by
  have hw : Inv lib w := Along.inv (fun _ _ _ hgood h => inv_step hgood h) hgood h (inv_init clock)
  have hcovered : ∀ {state start}, Sound lib w state start [] → w.Acknowledged lib state start := by
    intro state start hs owner howner r hr hgood
    rcases hs.covered owner howner r hr hgood with h | h | h | h
    · exact .inl h
    · exact .inr (.inl h)
    · exact .inr (.inr h)
    · cases h
  exact ⟨⟨hcovered hw.sound, hcovered hw.fileSound⟩, fun x hx => (hw.sent x hx).2, hw.advances⟩

/-- Libraries that redact nothing. -/
def plainLibrary : Library where
  auth := id
  url := id
  secret := id
  format nanos := some (toString nanos)
  auth_ne _ h := h
  url_ne _ h := h
  secret_ne _ h := h

def note : Record where
  cursor := "s=1"
  time := 1000000
  line := ⟨64, some (.obj [("__CURSOR", .str "s=1"), ("__REALTIME_TIMESTAMP", .str "1000000"),
    ("MESSAGE", .str "started")])⟩
  named _ h := (Option.some.inj h).symm

def first : Destination := ⟨"https://a", "key", "1"⟩

def second : Destination := ⟨"https://b", "key", "2"⟩

/-- A record is uploaded to the first owner, and the second takes over. -/
def takeover : List Label :=
  [.pairs first, .passes 1000000, .appends note, .polls true, .reads true, .uploads true,
    .commits true, .passes 2000000,
    .pairs second, .polls true, .queries true true, .adopts true, .reads true, .uploads true]

theorem journal_upload_takeover : ∃ w, run (step plainLibrary) (.init 0) takeover = some w ∧
    (w.Acknowledged plainLibrary w.state w.start ∧ w.Acknowledged plainLibrary w.file w.fileStart) ∧
    w.Confined ∧ w.Advances plainLibrary := by
  refine ⟨_, rfl, journal_upload plainLibrary 0 (show run _ _ takeover = _ from rfl) ?_⟩
  have hadopt : ∀ w : World, w.phase = .queried second (some "s=1") → w.bound second.owner ≤ w.queryStart →
      w.journal.drop w.queryStart = [] → Undisturbed w (.adopts true) := by
    intro w hphase hbound hdrop dest cursor hphase'
    obtain ⟨rfl, rfl⟩ := Phase.queried.inj (hphase.symm.trans hphase')
    exact ⟨hbound, fun r hr => absurd hr (hdrop ▸ List.not_mem_nil), nofun⟩
  refine ⟨.inl rfl, trivial, trivial, trivial, fun _ => rfl, trivial, trivial, trivial,
    .inr (.inr ⟨first.owner, rfl, by decide⟩),
    trivial, trivial, hadopt _ rfl (by decide) rfl, ?_, trivial, trivial⟩
  exact fun h => h

/-- The state file cannot be written, the process restarts, and the first owner's record is sent to
the second. -/
theorem record_leaked : ∃ w, run (step plainLibrary) (.init 0)
    [.pairs first, .passes 1000000, .appends note, .polls false, .pairs second, .restarts true,
    .polls true, .reads true, .uploads true] = some w ∧ ¬ w.Confined := by
  refine ⟨_, rfl, fun h => ?_⟩
  exact h ⟨second.owner, note.event_id, 1⟩ (List.mem_cons_self ..) note (List.mem_cons_self ..) rfl

end JournalLogs
