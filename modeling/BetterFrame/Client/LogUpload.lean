import Mathlib.Data.Nat.Digits.Defs
import BetterFrame.Client.JournalLogs

/-!
# Which log entries the server takes (diagnostic_logs.rs, kiosk-logs.ts)

The entries of the journal and of the application, and `parseKioskLogs`, which refuses a batch for
one bad entry. `upload_accepted_iff` says which batches it takes. Lengths are counted in UTF-16
units on the server.
-/

namespace LogUpload

open JournalLogs
open Json (escChar)

/-! ### The server -/

/-- The length `String.length` of the server counts. -/
def utf16 (cs : List Char) : Nat := (cs.map len_utf16).sum

/-- anyvali's string, of `min` to `max` units. -/
def string (min max : Nat) : Json → Option String
  | .str s => if min ≤ utf16 s.toList ∧ utf16 s.toList ≤ max then some s else none
  | _ => none

/-- A schema field with a default: an absent field parses as the default. -/
def withDefault {α : Type} (d : α) (schema : Json → Option α) (field : Option Json) : Option α :=
  field.elim (some d) schema

/-- An optional schema field: an absent field parses as `none`. -/
def optional {α : Type} (schema : Json → Option α) (field : Option Json) : Option (Option α) :=
  field.elim (some none) fun j => (schema j).map some

/-- An entry as the server reads it. -/
structure KioskLogEntry where
  level : String
  message : String
  context : Json
  logged_at : Option String
  event_id : Option String

/-- The schema of one entry. -/
def kioskLogEntry (j : Json) : Option KioskLogEntry :=
  match j with
  | .obj _ => do
    let level ← withDefault "info" (string 0 16) (j.get? "level")
    let message ← withDefault "" (string 0 16384) (j.get? "message")
    let logged_at ← optional (string 0 64) (j.get? "logged_at")
    let event_id ← optional (string 1 256) (j.get? "event_id")
    return ⟨level, message, (j.get? "context").getD (.obj []), logged_at, event_id⟩
  | _ => none

/-- The schema of the request's body: the list of entries. -/
def kioskLogsBody (raw : Json) : Option (List KioskLogEntry) :=
  match raw with
  | .obj _ =>
    match raw.get? "entries" with
    | none => some []
    | some (.arr entries) => if entries.length ≤ 100 then entries.mapM kioskLogEntry else none
    | some _ => none
  | _ => none

/-- `Number.isFinite(Date.parse(..))` and `toISOString` -/
structure Dates where
  finite : String → Bool
  toISOString : String → String

/-- A row of `kiosk_logs`. -/
structure Row where
  level : String
  message : String
  context : Json
  logged_at : Option String
  event_id : Option String

/-- Why a request is refused: by the schema, or with a status of its own. -/
inductive Refusal where
  | schema
  | status (statusMessage : String)

section Server

variable (dates : Dates)

/-- A missing or empty time is not looked at. -/
def loggedAt (entry : KioskLogEntry) : Option String := entry.logged_at.filter (· ≠ "")

/-- Levels the server does not know are stored as `info`. -/
def levelOf (level : String) : String := if level ∈ ["debug", "info", "warn", "error"] then level else "info"

/-- The checks on one entry after the schema, and the row it becomes. -/
def parseEntry (entry : KioskLogEntry) : Except Refusal Row :=
  if entry.message = "" then .error (.status "log message is required")
  else if (loggedAt entry).any fun at_ => !dates.finite at_ then .error (.status "invalid log timestamp")
  else
    match entry.context with
    | .obj ms =>
      if utf16 (Json.obj ms).text > 8192 then
        .error (.status "log context must be an object up to 8192 characters")
      else .ok
        { level := levelOf entry.level
          message := entry.message
          context := .obj ms
          logged_at := (loggedAt entry).map dates.toISOString
          event_id := entry.event_id }
    | _ => .error (.status "log context must be an object up to 8192 characters")

/-- The server's validation of a batch: the schema, the count, then every entry. -/
def parseKioskLogs (raw : Json) : Except Refusal (List Row) :=
  match kioskLogsBody raw with
  | none => .error .schema
  | some [] => .error (.status "entries must contain 1–100 logs")
  | some entries => entries.mapM (parseEntry dates)

end Server

/-! ### The client -/

/-- A log entry as serde writes it. -/
def logJson (event_id logged_at level message : String) (context : List (String × Json)) : Json :=
  .obj [("event_id", .str event_id), ("logged_at", .str logged_at), ("level", .str level),
    ("message", .str message), ("context", .obj context)]

/-- A journal entry as it is sent. -/
def sent (log : LogEntry) : Json :=
  logJson log.event_id log.logged_at log.level log.message
    (("truncated", .bool log.truncated) :: log.context.map fun field => (field.1, .str field.2))

inductive Level where
  | error
  | warn
  | info

def Level.as_str : Level → String
  | .error => "error"
  | .warn => "warn"
  | .info => "info"

/-- An application message, with the numbers of its event and the constants of the build it comes from. -/
structure AppMessage where
  stamp : Int
  pid : Nat
  /-- The time the entry is dated, a little after the stamp. -/
  nanos : Int
  text : String
  text_ne : text ≠ ""
  stamp_fits : stamp.natAbs < 2 ^ 127
  pid_fits : pid < 2 ^ 32

/-- A message as the client makes it, with what bounds its parts. -/
structure Event extends AppMessage where
  sequence : Nat
  level : Level
  target : String
  version : String
  sequence_fits : sequence < 2 ^ 64
  target_short : target.length ≤ 256
  version_short : version.length ≤ 256

section Client

variable (lib : Library)

/-- `now()` -/
def now (nanos : Int) : String := (lib.format nanos).getD ""

/-- The entry of `on_event`. -/
def eventEntry (e : Event) : Json :=
  let (message, truncated) := scrub_with_truncation lib e.text
  logJson s!"app:{e.stamp}:{e.pid}:{e.sequence}" (now lib e.nanos) e.level.as_str message
    [("source", .str "app"), ("truncated", .bool truncated), ("target", .str e.target),
      ("platform", .str "linux"), ("version", .str e.version), ("pid", .ofInt e.pid)]

/-- The entry of the panic hook. -/
def panicEntry (e : AppMessage) : Json :=
  let (message, truncated) := scrub_with_truncation lib e.text
  logJson s!"panic:{e.stamp}:{e.pid}" (now lib e.nanos) "error" message
    [("source", .str "app"), ("platform", .str "linux"), ("pid", .ofInt e.pid),
      ("truncated", .bool truncated)]

/-- An entry of either path. A journal entry has a message and a cursor of at most 200 characters. -/
inductive Upload where
  | journal (record : Json) (log : LogEntry) (accepted : entry lib record = some log)
    (message : log.message ≠ "")
    (cursor : ∀ c, as_str record "__CURSOR" = some c → c.length ≤ 200)
  | event (e : Event)
  | panic (e : AppMessage)

variable {lib}

/-- The entry an upload puts on the wire. -/
def Upload.entry : Upload lib → Json
  | .journal _ log _ _ _ => sent log
  | .event e => eventEntry lib e
  | .panic e => panicEntry lib e

/-- The request's body. -/
def body (batch : List (Upload lib)) : Json := .obj [("entries", .arr (batch.map Upload.entry))]

end Client

/-! ### Which entries fit -/

section Fits

variable (lib : Library)

/-- The message after redaction. -/
def scrubbed (message : String) : List Char := (lib.secret (lib.url (lib.auth message))).toList

/-- The units of the members for the fields of a record, each cut to 256 characters and then escaped. -/
def metadataUnits (record : Json) : Nat :=
  (contextFields.map fun field =>
    ((as_str record field.1).map fun value => field.2.length + 6 +
      utf16 ((value.toList.take 256).flatMap escChar)).getD 0).sum

/-- The units of the context of a record. -/
def contextUnits (record : Json) : Nat :=
  (if 16384 < utf16 (scrubbed lib (messageText record)) then 32 else 33) + metadataUnits record

variable {lib}

/-- The cursor and the metadata of a journal record are short enough, in the server's units. -/
def Upload.Fits : Upload lib → Prop
  | .journal record _ _ _ _ =>
    (∀ c, as_str record "__CURSOR" = some c → utf16 c.toList ≤ 248) ∧ contextUnits lib record ≤ 8192
  | .event _ => True
  | .panic _ => True

/-- The time library gives RFC 3339, which is short and which `Date.parse` reads. -/
structure Documented (lib : Library) (dates : Dates) : Prop where
  short : ∀ nanos s, lib.format nanos = some s → s.length ≤ 32
  parsed : ∀ nanos s, lib.format nanos = some s → dates.finite s = true

/-- What is asked of scrubbing. -/
structure Clipped (lib : Library) (message : String) : Prop where
  units : utf16 (scrub_with_truncation lib message).1.toList ≤ 16384
  isPrefix : (scrub_with_truncation lib message).1.toList <+: scrubbed lib message
  flagged : (scrub_with_truncation lib message).2 = true ↔
    (scrub_with_truncation lib message).1.toList ≠ scrubbed lib message

end Fits

/-! ### Units -/

section Units

variable {cs ds : List Char}

@[simp] theorem utf16_nil : utf16 [] = 0 := rfl

@[simp] theorem utf16_cons (c : Char) (cs : List Char) : utf16 (c :: cs) = len_utf16 c + utf16 cs :=
  List.sum_cons

@[simp] theorem utf16_append : utf16 (cs ++ ds) = utf16 cs + utf16 ds := by
  rw [utf16, List.map_append, List.sum_append]
  rfl

theorem len_utf16_pos (c : Char) : 0 < len_utf16 c := by
  unfold len_utf16
  split_ifs <;> omega

theorem len_utf16_le (c : Char) : len_utf16 c ≤ 2 := by
  unfold len_utf16
  split_ifs <;> omega

theorem utf16_le (cs : List Char) : utf16 cs ≤ 2 * cs.length := by
  induction cs with
  | nil => exact Nat.le_refl 0
  | cons c cs ih =>
    have hc := len_utf16_le c
    rw [utf16_cons, List.length_cons]
    omega

theorem length_flatMap_escChar_le (cs : List Char) : (cs.flatMap escChar).length ≤ 6 * cs.length := by
  have hchar : ∀ c, (escChar c).length ≤ 6 := by
    intro c
    rcases Json.escChar_head c with h | ⟨as, h, hlength⟩
    · rw [h]
      exact Nat.le_add_left 1 5
    · rw [h, List.length_cons]
      omega
  induction cs with
  | nil => exact Nat.le_refl 0
  | cons c cs ih =>
    have hc := hchar c
    rw [List.flatMap_cons, List.length_append, List.length_cons]
    omega

/-- Of a clip that has `n` units before it. -/
theorem clip_spec (n : Nat) (hn : n ≤ 16384) (cs : List Char) :
    (clip n cs).1 <+: cs ∧ n + utf16 (clip n cs).1 ≤ 16384 ∧ (16384 < (clip n cs).2 ↔ 16384 < n + utf16 cs) ∧
      (16384 < (clip n cs).2 ↔ (clip n cs).1 ≠ cs) := by
  induction cs generalizing n with
  | nil =>
    have hnot : ¬ 16384 < n := Nat.not_lt.2 hn
    exact ⟨List.prefix_rfl, hn, Iff.rfl, iff_of_false hnot fun h => h rfl⟩
  | cons c cs ih =>
    rw [clip]
    split_ifs with hc
    · obtain ⟨hkept, hunits, htotal, hflag⟩ := ih (n + len_utf16 c) hc
      refine ⟨(List.prefix_cons_inj c).2 hkept, ?_, ?_, ?_⟩
      · rw [utf16_cons, ← Nat.add_assoc]
        exact hunits
      · rw [utf16_cons, ← Nat.add_assoc]
        exact htotal
      · exact hflag.trans (not_congr ⟨congrArg (c :: ·), fun h => (List.cons.inj h).2⟩)
    · have hover := Nat.not_le.1 hc
      refine ⟨List.nil_prefix, hn, iff_of_true hover ?_, iff_of_true hover (List.cons_ne_nil c cs).symm⟩
      rw [utf16_cons]
      omega

theorem clipped (lib : Library) (message : String) : Clipped lib message := by
  obtain ⟨hkept, hunits, -, hflag⟩ := clip_spec 0 (Nat.zero_le _) (scrubbed lib message)
  have hout : (scrub_with_truncation lib message).1.toList = (clip 0 (scrubbed lib message)).1 :=
    String.toList_ofList ..
  rw [Nat.zero_add] at hunits
  refine ⟨hout ▸ hunits, hout ▸ hkept, ?_⟩
  rw [hout]
  exact decide_eq_true_iff.trans hflag

theorem truncated_iff (lib : Library) (message : String) :
    (scrub_with_truncation lib message).2 = true ↔ 16384 < utf16 (scrubbed lib message) := by
  obtain ⟨-, -, htotal, -⟩ := clip_spec 0 (Nat.zero_le _) (scrubbed lib message)
  rw [Nat.zero_add] at htotal
  exact decide_eq_true_iff.trans htotal

end Units

/-! ### Which entries are taken -/

section Taken

variable {dates : Dates}

/-- The server takes the entry. -/
def Taken (dates : Dates) (j : Json) : Prop := ∃ checked, kioskLogEntry j = some checked ∧
  ∃ row, parseEntry dates checked = .ok row

theorem mapM_some_iff {α β : Type} {f : α → Option β} {l : List α} : (∃ r, l.mapM f = some r) ↔
    ∀ a ∈ l, ∃ b, f a = some b := by
  induction l with
  | nil => simp
  | cons a l ih =>
    rw [List.forall_mem_cons, ← ih, List.mapM_cons]
    constructor
    · rintro ⟨r, hr⟩
      obtain ⟨b, hb, hr⟩ := Option.bind_eq_some_iff.1 hr
      obtain ⟨bs, hbs, -⟩ := Option.bind_eq_some_iff.1 hr
      exact ⟨⟨b, hb⟩, bs, hbs⟩
    · rintro ⟨⟨b, hb⟩, bs, hbs⟩
      exact ⟨b :: bs, by rw [hb, hbs]; rfl⟩

theorem mapM_ok_iff {ε α β : Type} {f : α → Except ε β} {l : List α} : (∃ r, l.mapM f = .ok r) ↔
    ∀ a ∈ l, ∃ b, f a = .ok b := by
  induction l with
  | nil => simp [pure, Except.pure]
  | cons a l ih =>
    rw [List.forall_mem_cons, ← ih, List.mapM_cons]
    cases ha : f a with
    | error e => simp [bind, Except.bind]
    | ok b =>
      cases hl : l.mapM f with
      | error e => simp [bind, Except.bind]
      | ok bs => simp [bind, Except.bind, pure, Except.pure]

theorem mem_of_mapM {α β : Type} {f : α → Option β} {l : List α} {r : List β} (h : l.mapM f = some r) :
    ∀ b, b ∈ r ↔ ∃ a ∈ l, f a = some b := by
  induction l generalizing r with
  | nil =>
    obtain rfl := Option.some.inj h
    simp
  | cons a l ih =>
    rw [List.mapM_cons] at h
    obtain ⟨b, hb, h⟩ := Option.bind_eq_some_iff.1 h
    obtain ⟨bs, hbs, h⟩ := Option.bind_eq_some_iff.1 h
    obtain rfl := Option.some.inj h
    intro c
    rw [List.mem_cons, ih hbs, List.exists_mem_cons_iff, hb, Option.some_inj, eq_comm]

theorem parse_iff {entries : List Json} (hne : entries ≠ []) (hmax : entries.length ≤ 100) :
    (∃ rows, parseKioskLogs dates (.obj [("entries", .arr entries)]) = .ok rows) ↔
    ∀ j ∈ entries, Taken dates j := by
  have hbody : kioskLogsBody (.obj [("entries", .arr entries)]) = entries.mapM kioskLogEntry := if_pos hmax
  have hparse : ∀ {c cs}, entries.mapM kioskLogEntry = some (c :: cs) →
      parseKioskLogs dates (.obj [("entries", .arr entries)]) = (c :: cs).mapM (parseEntry dates) :=
        fun h => by
    rw [parseKioskLogs, hbody, h]
  constructor
  · rintro ⟨rows, hrows⟩ j hj
    rcases hchecked : entries.mapM kioskLogEntry with _ | _ | ⟨c, cs⟩
    · rw [parseKioskLogs, hbody, hchecked] at hrows
      cases hrows
    · rw [parseKioskLogs, hbody, hchecked] at hrows
      cases hrows
    · obtain ⟨checked, hj'⟩ := mapM_some_iff.1 ⟨_, hchecked⟩ j hj
      rw [hparse hchecked] at hrows
      exact ⟨checked, hj', mapM_ok_iff.1 ⟨rows, hrows⟩ checked
        ((mem_of_mapM hchecked checked).2 ⟨j, hj, hj'⟩)⟩
  · intro h
    obtain ⟨checked, hchecked⟩ := mapM_some_iff.2 fun j hj => (h j hj).imp fun _ hj' => hj'.1
    obtain ⟨j, js, rfl⟩ := List.exists_cons_of_ne_nil hne
    obtain ⟨first, hfirst, -⟩ := h j (List.mem_cons_self ..)
    rcases checked with _ | ⟨c, cs⟩
    · exact absurd ((mem_of_mapM hchecked first).2 ⟨j, List.mem_cons_self .., hfirst⟩) List.not_mem_nil
    · rw [hparse hchecked]
      refine mapM_ok_iff.2 fun e he => ?_
      obtain ⟨j', hj', he'⟩ := (mem_of_mapM hchecked e).1 he
      obtain ⟨e', hsame, row, hrow⟩ := h j' hj'
      obtain rfl := Option.some.inj (he'.symm.trans hsame)
      exact ⟨row, hrow⟩

theorem string_iff {min max : Nat} {s t : String} : string min max (.str s) = some t ↔
    (min ≤ utf16 s.toList ∧ utf16 s.toList ≤ max) ∧ s = t := by
  rw [string]
  split_ifs with h
  · simp [h]
  · simp [h]

/-- The schema's part. -/
theorem logJson_checked {event_id logged_at level message : String} {context : List (String × Json)}
    {checked : KioskLogEntry} :
    kioskLogEntry (logJson event_id logged_at level message context) = some checked ↔
      ((1 ≤ utf16 event_id.toList ∧ utf16 event_id.toList ≤ 256) ∧ utf16 logged_at.toList ≤ 64 ∧
        utf16 level.toList ≤ 16 ∧
        utf16 message.toList ≤ 16384) ∧
        checked = ⟨level, message, .obj context, some logged_at, some event_id⟩ := by
  have hshape : kioskLogEntry (logJson event_id logged_at level message context) =
      (string 0 16 (.str level)).bind fun level => (string 0 16384 (.str message)).bind fun message =>
        ((string 0 64 (.str logged_at)).map some).bind fun logged_at =>
            ((string 1 256 (.str event_id)).map some).bind fun event_id =>
          some ⟨level, message, .obj context, logged_at, event_id⟩ := rfl
  rw [hshape]
  simp only [Option.bind_eq_some_iff, Option.map_eq_some_iff, string_iff]
  constructor
  · rintro ⟨l, ⟨⟨-, hl⟩, rfl⟩, m, ⟨⟨-, hm⟩, rfl⟩, t, ⟨t', ⟨⟨-, ht⟩, rfl⟩, rfl⟩, e,
      ⟨e', ⟨he, rfl⟩, rfl⟩, hsome⟩
    exact ⟨⟨he, ht, hl, hm⟩, (Option.some.inj hsome).symm⟩
  · rintro ⟨⟨he, ht, hl, hm⟩, rfl⟩
    exact ⟨level, ⟨⟨Nat.zero_le _, hl⟩, rfl⟩, message, ⟨⟨Nat.zero_le _, hm⟩, rfl⟩, _,
      ⟨logged_at, ⟨⟨Nat.zero_le _, ht⟩, rfl⟩, rfl⟩, _,
      ⟨event_id, ⟨he, rfl⟩, rfl⟩, rfl⟩

theorem parseEntry_ok {event_id logged_at level message : String} {context : List (String × Json)} :
    (∃ row, parseEntry dates ⟨level, message, .obj context, some logged_at, some event_id⟩ = .ok row) ↔
      message ≠ "" ∧ (logged_at ≠ "" → dates.finite logged_at = true) ∧
      utf16 (Json.obj context).text ≤ 8192 := by
  have hdated : ((loggedAt ⟨level, message, .obj context, some logged_at, some event_id⟩).any fun at_ =>
    !dates.finite at_) = true ↔ ¬ (logged_at ≠ "" → dates.finite logged_at = true) := by
    by_cases h : logged_at = ""
    · simp [loggedAt, h]
    · simp [loggedAt, h, Option.filter]
  unfold parseEntry
  dsimp only
  split_ifs with hmessage hdate hlong
  · exact iff_of_false (by simp) fun h => h.1 hmessage
  · exact iff_of_false (by simp) fun h => hdated.1 hdate h.2.1
  · exact iff_of_false (by simp) fun h => Nat.not_lt.2 h.2.2 hlong
  · exact iff_of_true ⟨_, rfl⟩ ⟨hmessage, not_not.1 (mt hdated.2 hdate), Nat.not_lt.1 hlong⟩

theorem logJson_taken {event_id logged_at level message : String} {context : List (String × Json)} :
    Taken dates (logJson event_id logged_at level message context) ↔
      (1 ≤ utf16 event_id.toList ∧ utf16 event_id.toList ≤ 256) ∧ utf16 logged_at.toList ≤ 64 ∧
      utf16 level.toList ≤ 16 ∧
        utf16 message.toList ≤ 16384 ∧ message ≠ "" ∧ (logged_at ≠ "" → dates.finite logged_at = true) ∧
        utf16 (Json.obj context).text ≤ 8192 := by
  rw [Taken]
  simp only [logJson_checked]
  constructor
  · rintro ⟨checked, ⟨⟨he, ht, hl, hm⟩, rfl⟩, hrow⟩
    exact ⟨he, ht, hl, hm, parseEntry_ok.1 hrow⟩
  · rintro ⟨he, ht, hl, hm, hrow⟩
    exact ⟨_, ⟨⟨he, ht, hl, hm⟩, rfl⟩, parseEntry_ok.2 hrow⟩

end Taken

/-! ### The client's entries -/

section Entries

variable {lib : Library} {dates : Dates}

/-- What a member of an object takes, with its colon and a comma. -/
def memberUnits (m : String × Json) : Nat := utf16 (Json.quote m.1) + utf16 m.2.text + 2

theorem utf16_members {ms : List (String × Json)} (h : ms ≠ []) :
    utf16 (Json.membersText ms) + 1 = (ms.map memberUnits).sum := by
  induction ms with
  | nil => exact absurd rfl h
  | cons m ms ih =>
    rcases ms with _ | ⟨m', ms⟩
    · simp [Json.membersText, memberUnits, len_utf16]
      omega
    · rw [List.map_cons, List.sum_cons, ← ih (List.cons_ne_nil m' ms), memberUnits]
      simp [Json.membersText, len_utf16]
      omega

theorem utf16_obj {ms : List (String × Json)} (h : ms ≠ []) :
    utf16 (Json.obj ms).text = 1 + (ms.map memberUnits).sum := by
  rw [← utf16_members h, Json.text]
  simp [len_utf16]

theorem utf16_quote (s : String) : utf16 (Json.quote s) = 2 + utf16 (s.toList.flatMap escChar) := by
  simp [Json.quote, len_utf16]
  omega

theorem entry_cases {record : Json} {log : LogEntry} (h : entry lib record = some log) :
    ∃ c t, as_str record "__CURSOR" = some c ∧ timestamp lib record = some t ∧ log =
      { event_id := s!"journal:{c}"
        logged_at := t
        level := level record
        message := (scrub_with_truncation lib (messageText record)).1
        truncated := (scrub_with_truncation lib (messageText record)).2
        context := ("source", "os") :: contextFields.filterMap fun (input, output) =>
          (as_str record input).map fun value => (output, String.ofList (value.toList.take 256)) } := by
  simp only [entry, Option.bind_eq_bind, Option.bind_eq_some_iff, Option.pure_def] at h
  obtain ⟨c, hc, t, ht, hlog⟩ := h
  exact ⟨c, t, hc, ht, (Option.some.inj hlog).symm⟩

theorem metadata_units (record : Json) (fields : List (String × String))
    (hname : ∀ field ∈ fields, utf16 (Json.quote field.2) = field.2.length + 2) :
    ((fields.filterMap fun (input, output) =>
        (as_str record input).map fun value => (output, String.ofList (value.toList.take 256))).map
      fun field => memberUnits (field.1, .str field.2)).sum =
    (fields.map fun field =>
      ((as_str record field.1).map fun value => field.2.length + 6 +
        utf16 ((value.toList.take 256).flatMap escChar)).getD 0).sum := by
  induction fields with
  | nil => rfl
  | cons field fields ih =>
    obtain ⟨hfield, hfields⟩ := List.forall_mem_cons.1 hname
    rw [List.map_cons, List.sum_cons, ← ih hfields]
    rcases hvalue : as_str record field.1 with _ | value
    · rw [List.filterMap_cons_none (by simp [hvalue])]
      simp
    · rw [List.filterMap_cons_some (by simp only [hvalue]; rfl), List.map_cons, List.sum_cons,
        memberUnits, hfield]
      simp only [Json.text, utf16_quote, String.toList_ofList, Option.map_some, Option.getD_some]
      omega

theorem journal_context (record : Json) (log : LogEntry) (h : entry lib record = some log) :
    utf16 (Json.obj (("truncated", .bool log.truncated) :: log.context.map fun field =>
      (field.1, .str field.2))).text = contextUnits lib record := by
  obtain ⟨c, t, -, -, rfl⟩ := entry_cases h
  have htotal : ∀ (b : Bool) (ms : List (String × Json)),
      utf16 (Json.obj (("truncated", .bool b) :: ("source", .str "os") :: ms)).text = (if b then 32
            else 33) + (ms.map memberUnits).sum := by
    intro b ms
    have hsource : memberUnits ("source", .str "os") = 14 := rfl
    have hflag : memberUnits ("truncated", .bool b) = if b then 17 else 18 := by cases b <;> rfl
    rw [utf16_obj (List.cons_ne_nil _ _), List.map_cons, List.sum_cons, List.map_cons, List.sum_cons,
      hsource, hflag]
    cases b <;> simp <;> omega
  refine (htotal _ _).trans ?_
  rw [contextUnits, List.map_map]
  refine congrArg₂ (· + ·) ?_ (metadata_units record contextFields (by decide))
  by_cases hlong : 16384 < utf16 (scrubbed lib (messageText record))
  · rw [if_pos hlong, if_pos ((truncated_iff lib _).2 hlong)]
  · rw [if_neg hlong, if_neg (mt (truncated_iff lib _).1 hlong)]

theorem level_short (record : Json) : utf16 (JournalLogs.level record).toList ≤ 16 := by
  unfold JournalLogs.level
  split
  all_goals decide

theorem short_of_format (hlib : Documented lib dates) {nanos : Int} {t : String}
    (h : lib.format nanos = some t) :
    utf16 t.toList ≤ 64 ∧ (t ≠ "" → dates.finite t = true) := by
  have hlength : t.toList.length ≤ 32 := hlib.short nanos t h
  have hunits := utf16_le t.toList
  exact ⟨by omega, fun _ => hlib.parsed nanos t h⟩

theorem sent_taken (hlib : Documented lib dates) {record : Json} {log : LogEntry}
    (h : entry lib record = some log) (hne : log.message ≠ "") :
    Taken dates (sent log) ↔ (∀ c, as_str record "__CURSOR" = some c → utf16 c.toList ≤ 248) ∧
    contextUnits lib record ≤ 8192 := by
  rw [sent, logJson_taken, journal_context record log h]
  obtain ⟨c, t, hc, ht, rfl⟩ := entry_cases h
  have hid : utf16 (s!"journal:{c}").toList = 8 + utf16 c.toList := by
    rw [show (s!"journal:{c}").toList = "journal:".toList ++ c.toList from String.toList_append ..,
      utf16_append]
    rfl
  obtain ⟨nanos, hnanos⟩ : ∃ nanos, lib.format nanos = some t := by
    simp only [timestamp, Option.bind_eq_bind, Option.bind_eq_some_iff] at ht
    obtain ⟨micros, -, ht⟩ := ht
    split_ifs at ht
    exact ⟨_, ht⟩
  obtain ⟨hshort, hfinite⟩ := short_of_format hlib hnanos
  dsimp only
  rw [hid]
  constructor
  · rintro ⟨⟨-, hle⟩, -, -, -, -, -, hcontext⟩
    refine ⟨fun c' hc' => ?_, hcontext⟩
    obtain rfl := Option.some.inj (hc.symm.trans hc')
    omega
  · rintro ⟨hcursor, hcontext⟩
    have hle := hcursor c hc
    exact ⟨⟨by omega, by omega⟩, hshort, level_short record, (clipped lib _).units, hne, hfinite, hcontext⟩

theorem now_short (hlib : Documented lib dates) (nanos : Int) :
    utf16 (now lib nanos).toList ≤ 64 ∧ (now lib nanos ≠ "" → dates.finite (now lib nanos) = true) := by
  rcases h : lib.format nanos with _ | t
  · rw [now, h]
    exact ⟨Nat.zero_le _, fun hne => absurd rfl hne⟩
  · rw [now, h]
    exact short_of_format hlib h

theorem length_toString_nat {n k : Nat} (hk : 0 < k) (h : n < 10 ^ k) :
    (toString n).toList.length ≤ k := Nat.repr_length n k hk h

theorem length_toString_int {n : Int} {k : Nat} (hk : 0 < k) (h : n.natAbs < 10 ^ k) :
    (toString n).toList.length ≤ k + 1 := by
  cases n with
  | ofNat n => exact Nat.le_succ_of_le (length_toString_nat hk h)
  | negSucc n =>
    have hdigits : (toString (n + 1)).toList.length ≤ k := length_toString_nat hk h
    have htext : (toString (Int.negSucc n)).toList = '-' :: (toString (n + 1)).toList :=
      (congrArg String.toList (show toString (Int.negSucc n) = "-" ++ toString (n + 1) from rfl)).trans
        (String.toList_append ..)
    rw [htext, List.length_cons]
    omega

theorem pid_units {pid : Nat} (h : pid < 2 ^ 32) : utf16 (Json.ofInt pid).text ≤ 20 := by
  have hdigits : (Nat.toDigits 10 pid).length ≤ 10 := Nat.toDigits_length 10 pid 10 (by decide) (by omega)
  have hunits := utf16_le (Json.ofInt pid).text
  have htext : (Json.ofInt pid).text = Nat.toDigits 10 pid := rfl
  rw [htext] at hunits ⊢
  omega

theorem quote_units {s : String} (h : s.length ≤ 256) : utf16 (Json.quote s) ≤ 3074 := by
  have hunits := utf16_le (s.toList.flatMap escChar)
  have hescaped := length_flatMap_escChar_le s.toList
  have hlength : s.toList.length ≤ 256 := h
  rw [utf16_quote]
  omega

/-- An event's id begins with a letter and is made of numbers. -/
theorem id_units {tag : String} {rest : List Char} (htag : 1 ≤ tag.toList.length ∧ tag.toList.length ≤ 8)
    (hrest : rest.length ≤ 100) :
    1 ≤ utf16 (tag.toList ++ rest) ∧ utf16 (tag.toList ++ rest) ≤ 256 := by
  obtain ⟨c, cs, hcs⟩ := List.exists_cons_of_length_pos htag.1
  have hunits := utf16_le (tag.toList ++ rest)
  have hpos := len_utf16_pos c
  rw [List.length_append] at hunits
  refine ⟨?_, by omega⟩
  rw [hcs, List.cons_append, utf16_cons]
  omega

theorem bool_units (b : Bool) : utf16 (Json.bool b).text ≤ 5 := by cases b <;> decide

theorem member_units {k : String} {v : Json} {n : Nat} (hk : utf16 (Json.quote k) ≤ 12)
    (hv : utf16 v.text ≤ n) : memberUnits (k, v) ≤ n + 14 := by
  show utf16 (Json.quote k) + utf16 v.text + 2 ≤ n + 14
  omega

theorem event_taken (hlib : Documented lib dates) (e : Event) : Taken dates (eventEntry lib e) := by
  have hstamp := length_toString_int (by decide : 0 < 39) (Nat.lt_of_lt_of_le e.stamp_fits (by decide))
  have hpid := length_toString_nat (by decide : 0 < 10) (Nat.lt_of_lt_of_le e.pid_fits (by decide))
  have hsequence := length_toString_nat (by decide : 0 < 20) (Nat.lt_of_lt_of_le e.sequence_fits (by decide))
  have hid : (s!"app:{e.stamp}:{e.pid}:{e.sequence}").toList = "app:".toList ++ ((toString e.stamp).toList ++
      (':' :: ((toString e.pid).toList ++ (':' :: (toString e.sequence).toList)))) := by
    simp only [String.toList_append, List.append_assoc]
    rfl
  obtain ⟨hshort, hfinite⟩ := now_short hlib e.nanos
  have hcontext : utf16 (Json.obj [("source", .str "app"),
    ("truncated", .bool (scrub_with_truncation lib e.text).2), ("target", .str e.target),
      ("platform", .str "linux"), ("version", .str e.version), ("pid", .ofInt e.pid)]).text ≤ 8192 := by
    have hsource : memberUnits ("source", .str "app") ≤ 5 + 14 := member_units (by decide) (by decide)
    have hflag : memberUnits ("truncated", .bool (scrub_with_truncation lib e.text).2) ≤ 5 + 14 :=
      member_units (by decide) (bool_units _)
    have htarget : memberUnits ("target", .str e.target) ≤ 3074 + 14 :=
      member_units (by decide) (quote_units e.target_short)
    have hplatform : memberUnits ("platform", .str "linux") ≤ 7 + 14 := member_units (by decide) (by decide)
    have hversion : memberUnits ("version", .str e.version) ≤ 3074 + 14 :=
      member_units (by decide) (quote_units e.version_short)
    have hpid : memberUnits ("pid", .ofInt e.pid) ≤ 20 + 14 := member_units (by decide) (pid_units e.pid_fits)
    rw [utf16_obj (List.cons_ne_nil _ _)]
    simp only [List.map_cons, List.map_nil, List.sum_cons, List.sum_nil]
    omega
  rw [eventEntry, logJson_taken]
  refine ⟨?_, hshort, by cases e.level <;> decide, (clipped lib
    _).units, scrub_ne e.text_ne, hfinite, hcontext⟩
  rw [hid]
  exact id_units (by decide) (by simp only [List.length_append, List.length_cons]; omega)

theorem panic_taken (hlib : Documented lib dates) (e : AppMessage) : Taken dates (panicEntry lib e) := by
  have hstamp := length_toString_int (by decide : 0 < 39) (Nat.lt_of_lt_of_le e.stamp_fits (by decide))
  have hpid := length_toString_nat (by decide : 0 < 10) (Nat.lt_of_lt_of_le e.pid_fits (by decide))
  have hid : (s!"panic:{e.stamp}:{e.pid}").toList = "panic:".toList ++
      ((toString e.stamp).toList ++ (':' :: (toString e.pid).toList)) := by
    simp only [String.toList_append, List.append_assoc]
    rfl
  obtain ⟨hshort, hfinite⟩ := now_short hlib e.nanos
  have hcontext : utf16 (Json.obj [("source", .str "app"), ("platform", .str "linux"), ("pid", .ofInt e.pid),
      ("truncated", .bool (scrub_with_truncation lib e.text).2)]).text ≤ 8192 := by
    have hsource : memberUnits ("source", .str "app") ≤ 5 + 14 := member_units (by decide) (by decide)
    have hflag : memberUnits ("truncated", .bool (scrub_with_truncation lib e.text).2) ≤ 5 + 14 :=
      member_units (by decide) (bool_units _)
    have hplatform : memberUnits ("platform", .str "linux") ≤ 7 + 14 := member_units (by decide) (by decide)
    have hpid : memberUnits ("pid", .ofInt e.pid) ≤ 20 + 14 := member_units (by decide) (pid_units e.pid_fits)
    rw [utf16_obj (List.cons_ne_nil _ _)]
    simp only [List.map_cons, List.map_nil, List.sum_cons, List.sum_nil]
    omega
  rw [panicEntry, logJson_taken]
  refine ⟨?_, hshort, by decide, (clipped lib _).units, scrub_ne e.text_ne, hfinite, hcontext⟩
  rw [hid]
  exact id_units (by decide) (by simp only [List.length_append, List.length_cons]; omega)

theorem upload_taken (hlib : Documented lib dates) (u : Upload lib) : Taken dates u.entry ↔ u.Fits := by
  cases u with
  | journal record log accepted message cursor => exact sent_taken hlib accepted message
  | event e => exact iff_of_true (event_taken hlib e) trivial
  | panic e => exact iff_of_true (panic_taken hlib e) trivial

theorem batch_taken (hlib : Documented lib dates) {batch : List (Upload lib)} (hne : batch ≠ [])
    (hmax : batch.length ≤ 100) :
    (∃ rows, parseKioskLogs dates (body batch) = .ok rows) ↔ ∀ u ∈ batch, u.Fits := by
  rw [body, parse_iff (by simpa using hne) (by simpa using hmax), List.forall_mem_map]
  exact forall₂_congr fun u _ => upload_taken hlib u

/-- The server takes a batch of up to a hundred entries exactly when the cursors and the metadata of
its journal records are short enough, and a message is cut where it no longer fits. -/
theorem upload_accepted_iff (hlib : Documented lib dates) {batch : List (Upload lib)}
    (hne : batch ≠ []) (hmax : batch.length ≤ 100) :
    ((∃ rows, parseKioskLogs dates (body batch) = .ok rows) ↔ ∀ u ∈ batch, u.Fits) ∧
    ∀ message, Clipped lib message :=
  ⟨batch_taken hlib hne hmax, clipped lib⟩

end Entries

/-! ### Two records -/

/-- Libraries that redact nothing and know one second. -/
def oneSecond : Library :=
  { plainLibrary with format := fun nanos => if nanos = 1000000000 then some "1970-01-01T00:00:01Z"
  else none }

def oneDate : Dates := ⟨fun s => s = "1970-01-01T00:00:01Z", fun _ => "1970-01-01T00:00:01.000Z"⟩

theorem documented : Documented oneSecond oneDate := by
  have hformat : ∀ nanos s, oneSecond.format nanos = some s → s = "1970-01-01T00:00:01Z" := by
    intro nanos s h
    have h : (if nanos = 1000000000 then some "1970-01-01T00:00:01Z" else none) = some s := h
    split_ifs at h
    exact (Option.some.inj h).symm
  refine ⟨fun nanos s h => ?_, fun nanos s h => ?_⟩
  · rw [hformat nanos s h]
    decide
  · rw [hformat nanos s h]
    rfl

/-- A record of a unit whose name and other fields are `field`. -/
def recordOf (field : String) : Json :=
  .obj [("__CURSOR", .str "s=1"), ("__REALTIME_TIMESTAMP", .str "1000000"),
    ("MESSAGE", .str "started"), ("_BOOT_ID", .str field),
    ("_SYSTEMD_UNIT", .str field), ("_PID", .str field), ("_COMM", .str field),
      ("_HOSTNAME", .str field), ("SYSLOG_IDENTIFIER", .str field)]

def logOf (field : String) : LogEntry where
  event_id := "journal:s=1"
  logged_at := "1970-01-01T00:00:01Z"
  level := "info"
  message := "started"
  truncated := false
  context := ("source", "os") :: contextFields.map fun names =>
    (names.2, String.ofList (field.toList.take 256))

theorem entry_recordOf (field : String) : entry oneSecond (recordOf field) = some (logOf field) := by
  have hcursor : as_str (recordOf field) "__CURSOR" = some "s=1" := rfl
  have hmicros : as_str (recordOf field) "__REALTIME_TIMESTAMP" = some "1000000" := rfl
  have hparsed : parseI128 "1000000" = some 1000000 := by decide
  have htime : timestamp oneSecond (recordOf field) = some "1970-01-01T00:00:01Z" := by
    rw [timestamp, hmicros, Option.bind_some, hparsed]
    rfl
  have hscrub : scrub_with_truncation oneSecond "started" = ("started", false) := by decide
  have hmessage : messageText (recordOf field) = "started" := rfl
  have hlevel : JournalLogs.level (recordOf field) = "info" := rfl
  rw [entry, hcursor, htime, hmessage, hscrub, hlevel]
  rfl

def journalUpload (field : String) : Upload oneSecond :=
  .journal (recordOf field) (logOf field) (entry_recordOf field) (by simp [logOf]) (fun c hc => by
    obtain rfl : "s=1" = c := Option.some.inj hc
    decide)

theorem upload_accepted_iff_unit :
    ∃ rows, parseKioskLogs oneDate (body [journalUpload "kiosk.service"]) = .ok rows := by
  refine (upload_accepted_iff documented (List.cons_ne_nil _ _) (by decide)).1.2 fun u hu => ?_
  obtain rfl := List.mem_singleton.1 hu
  refine ⟨fun c hc => ?_, by decide⟩
  obtain rfl : "s=1" = c := Option.some.inj hc
  decide

theorem metadataUnits_recordOf (field : String) :
    metadataUnits (recordOf field) = 71 + 6 * utf16 ((field.toList.take 256).flatMap escChar) := by
  have hget : ∀ names ∈ contextFields, as_str (recordOf field) names.1 = some field := by
    simp only [contextFields, List.forall_mem_cons]
    exact ⟨rfl, rfl, rfl, rfl, rfl, rfl, List.forall_mem_nil _⟩
  have hsum : ∀ n, (contextFields.map fun names => names.2.length + 6 + n).sum = 71 + 6 * n := by
    intro n
    show 7 + 6 + n + (4 + 6 + n + (3 + 6 + n + (7 + 6 + n + (4 + 6 + n + (10 + 6 + n + 0))))) = 71 + 6 * n
    omega
  rw [metadataUnits, ← hsum]
  refine congrArg List.sum (List.map_congr_left fun names hnames => ?_)
  rw [hget names hnames, Option.map_some, Option.getD_some]

theorem utf16_replicate_escChar (n : Nat) (c : Char) :
    utf16 ((List.replicate n c).flatMap escChar) = n * utf16 (escChar c) := by
  induction n with
  | zero => simp
  | succ n ih => rw [List.replicate_succ, List.flatMap_cons, utf16_append, ih, Nat.succ_mul, Nat.add_comm]

/-- Fields of control characters, which JSON writes in six characters each. -/
theorem upload_refused : ¬ ∃ rows, parseKioskLogs oneDate
    (body [journalUpload (String.ofList (List.replicate 256 (Char.ofNat 1)))]) = .ok rows := by
  have hescaped :
      utf16 (((String.ofList (List.replicate 256 (Char.ofNat 1))).toList.take 256).flatMap escChar) =
        256 * 6 := by
    rw [String.toList_ofList, List.take_replicate, utf16_replicate_escChar]
    rfl
  have hlong : ¬ contextUnits oneSecond (recordOf (String.ofList (List.replicate 256 (Char.ofNat 1)))) ≤
      8192 := by
    rw [contextUnits, metadataUnits_recordOf, hescaped]
    omega
  generalize String.ofList (List.replicate 256 (Char.ofNat 1)) = field at hlong ⊢
  rw [batch_taken documented (List.cons_ne_nil _ _) (by simp)]
  exact fun h => hlong (h _ (List.mem_singleton_self _)).2

end LogUpload
