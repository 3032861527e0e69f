import Mathlib
import BetterFrame.Lib.Rolling
import BetterFrame.Lib.Run
import BetterFrame.Client.JournalLogs

/-!
# Uploading the application's own log

`AppLogLayer` of `diagnostic_logs.rs`: tracing events and panics go into a rolling queue, the
uploader spools the queue to a file and sends it in batches, `insertKioskLogs` stores what arrives.
Devices are paired again, requests are lost or arrive late, files cannot be read or written and the
process ends anywhere. `entries_confined` says that no entry reaches a second owner, `entries_kept`
what becomes of every entry of one owner, `ten_rounds_deliver` that ten rounds empty the queue.
-/

namespace AppLogs

open Machine Rolling
open JournalLogs (Destination Library scrub_with_truncation)

def BATCH_SIZE : Nat := 100

def QUEUE_SIZE : Nat := 1000

/-! ### Entries -/

/-- The levels of a tracing event. -/
inductive Level where
  | error | warn | info | debug | trace
deriving DecidableEq

/-- `as_str` in lower case. -/
def Level.name : Level → String
  | .error => "error"
  | .warn => "warn"
  | .info => "info"
  | .debug => "debug"
  | .trace => "trace"

/-- The build's own constants. -/
structure Build where
  platform : String
  version : String

/-- `origin` is the target and the version, which a panic's entry is without. -/
structure Entry where
  event_id : String
  logged_at : String
  level : String
  message : String
  truncated : Bool
  origin : Option (String × String)
  platform : String
  pid : Nat
deriving DecidableEq

/-- A tracing event, with the time it is logged at in nanoseconds and as text. -/
structure Event where
  target : String
  level : Level
  message : String
  stamp : Int
  logged_at : String

/-- A panic as it is displayed. -/
structure Panic where
  message : String
  stamp : Int
  logged_at : String

section
variable (lib : Library) (build : Build)

/-- `on_event`, up to the queue. -/
def Event.entry (event : Event) (pid sequence : Nat) : Option Entry :=
  if "betterframe".toList.isPrefixOf event.target.toList = false ∨ event.level = .debug ∨
    event.level = .trace then none
  else if event.message = "" then none
  else
    let (message, truncated) := scrub_with_truncation lib event.message
    some {
      event_id := s!"app:{event.stamp}:{pid}:{sequence}"
      logged_at := event.logged_at
      level := event.level.name
      message
      truncated
      origin := some (event.target, build.version)
      platform := build.platform
      pid }

/-- The entry of a panic. -/
def Panic.entry (panic : Panic) (pid : Nat) : Entry :=
  let (message, truncated) := scrub_with_truncation lib panic.message
  { event_id := s!"panic:{panic.stamp}:{pid}"
    logged_at := panic.logged_at
    level := "error"
    message
    truncated
    origin := none
    platform := build.platform
    pid }

end

/-! ### The device and the server -/

/-- A batch on its way, and whether the server has it. -/
structure Request where
  dest : Destination
  batch : List Entry
  arrived : Bool

/-- A process. `owner` is the uploader's own, which the panic hook reads as `saved_owner`. -/
structure Process where
  pid : Nat
  sequence : Nat
  queue : List Entry
  owner : Option String
  restored : Bool
  sending : Option Request

def Process.start (pid : Nat) : Process := ⟨pid, 0, [], none, false, none⟩

/-- `app-logs.json`. -/
structure Spool where
  owner : String
  entries : List Entry

/-- A row of `kiosk_logs`, at a server. The kiosk is the one whose key came with the request. -/
structure Row where
  server : String
  kiosk_id : String
  entry : Entry
deriving DecidableEq

/-- The kiosk that the row is of, at its server. -/
def Row.owner (row : Row) : String := s!"{row.server}|{row.kiosk_id}"

/-- What `ON CONFLICT (kiosk_id, event_id)` compares, at a server. -/
structure Key where
  server : String
  kiosk_id : String
  event_id : String
deriving DecidableEq

/-- The columns that the table has one row for. -/
def Row.key (row : Row) : Key := ⟨row.server, row.kiosk_id, row.entry.event_id⟩

/-- `INSERT … ON CONFLICT DO NOTHING` of one row. -/
def insertRow (rows : List Row) (row : Row) : List Row := if row.key ∈ rows.map (·.key) then rows
  else rows ++ [row]

def insertKioskLogs (rows : List Row) (dest : Destination) (entries : List Entry) : List Row :=
  entries.foldl (fun rows entry => insertRow rows ⟨dest.server, dest.kiosk_id, entry⟩) rows

/-- `recorded` is every entry that came into a queue, `live` those of this process, `spooled` those
that were written to the file, `claimed` the owner under which an entry was recorded or taken up,
`sent` the owner it was sent to, `stored` every row there ever was. `lost` are the requests that the
uploader no longer waits for. -/
structure World where
  process : Process
  file : Option Spool
  lost : List Request
  rows : List Row
  recorded : List Entry
  live : List Entry
  spooled : List Entry
  claimed : List (String × Entry)
  sent : List (String × Entry)
  stored : List Row

/-- `contended` is a queue that someone else has locked. -/
inductive Label where
  | event (event : Event) (contended : Bool)
  | panics (panic : Panic) (contended written : Bool)
  | pass (dest : Option Destination) (readable written : Bool)
  | arrives
  | replies (ok written : Bool)
  | arrivesLate (index : Nat)
  | restarts (pid : Nat)
  | purges (count : Nat)

namespace World

variable (w : World)

def init (pid : Nat) : World := ⟨.start pid, none, [], [], [], [], [], [], [], []⟩

/-- The spool of the owner, which may fail to be written. -/
def write (owner : String) (entries : List Entry) (written : Bool) : World :=
  if written then { w with file := some ⟨owner, entries⟩, spooled := w.spooled ++ entries } else w

/-- An entry comes into the queue. -/
def record (entry : Entry) (queue : List Entry) : World :=
  { w with
    process := { w.process with queue }
    recorded := w.recorded ++ [entry]
    live := w.live ++ [entry]
    claimed := (w.process.owner.toList.map fun owner => (owner, entry)) ++ w.claimed }

/-- The queue that a pass for `owner` goes on with. -/
def takeUp (owner : String) (readable : Bool) : List Entry :=
  let queue := if w.process.owner.any (· ≠ owner) then [] else w.process.queue
  let saved := match w.file with
    | some spool =>
      if w.process.restored = false ∧ readable = true ∧ spool.owner = owner then spool.entries else []
    | none => []
  trim QUEUE_SIZE (trim QUEUE_SIZE saved ++ queue)

/-- A request arrives at the server. -/
def store (r : Request) : World :=
  let rows := insertKioskLogs w.rows r.dest r.batch
  { w with rows, stored := w.stored ++ rows }

end World

section
variable (lib : Library) (build : Build)

/-- A tracing event comes into the queue, unless that is locked. -/
def onEvent (w : World) (event : Event) (contended : Bool) : World :=
  match event.entry lib build w.process.pid w.process.sequence with
  | none => w
  | some entry =>
    let w := { w with process := { w.process with sequence := w.process.sequence + 1 } }
    if contended then w else w.record entry (push QUEUE_SIZE w.process.queue entry)

/-- A panic comes into the queue and the spool, where the owner is known. -/
def onPanic (w : World) (panic : Panic) (contended written : Bool) : World :=
  match contended, w.process.owner with
  | false, some owner =>
    let entry := panic.entry lib build w.process.pid
    let w := w.record entry (trim QUEUE_SIZE (w.process.queue ++ [entry]))
    w.write owner w.process.queue written
  | _, _ => w

/-- The queue is `dest`'s from now on and its first entries are sent. -/
def World.send (w : World) (dest : Destination) (queue : List Entry) : World :=
  let batch := queue.take BATCH_SIZE
  { w with
    process := { w.process with
      queue
      owner := some dest.owner
      restored := true
      sending := if batch = [] then none else some ⟨dest, batch, false⟩ }
    claimed := queue.map (fun entry => (dest.owner, entry)) ++ w.claimed
    sent := batch.map (fun entry => (dest.owner, entry)) ++ w.sent }

/-- One turn of the uploader, up to the answer to its request. -/
def pass (w : World) (dest : Destination) (readable written : Bool) : World :=
  let queue := w.takeUp dest.owner readable
  -- A rolling queue bounds disk and memory when offline.
  if queue = [] then w.send dest queue else (w.send dest queue).write dest.owner queue written

/-- The queue without what was sent. Entries may have been evicted while the request was in flight. -/
def unsent (queue batch : List Entry) : List Entry :=
  queue.filter fun entry => entry.event_id ∉ batch.map (·.event_id)

/-- A request that the server refuses, in `parseKioskLogs` or because the insert fails, never
arrives and its reply is `replies false`. `purges` is `purgeOldKioskLogs`, which deletes rows by
their age: the oldest ones and no others. -/
def step (w : World) : Label → Option World
  | .event event contended => some (onEvent lib build w event contended)
  | .panics panic contended written => some (onPanic lib build w panic contended written)
  | .pass none _ _ => if w.process.sending.isSome then none else some w
  | .pass (some dest) readable written =>
    if w.process.sending.isSome then none else some (pass w dest readable written)
  | .arrives =>
    match w.process.sending with
    | some r =>
      some { w.store r with process := { w.process with sending := some { r with arrived := true } } }
    | none => none
  | .replies true written =>
    match w.process.sending with
    | some ⟨dest, batch, true⟩ =>
      let queue := unsent w.process.queue batch
      some ({ w with process := { w.process with queue, sending := none } }.write dest.owner queue written)
    | _ => none
  | .replies false _ =>
    match w.process.sending with
    | some r => some { w with process := { w.process with sending := none }, lost := w.lost ++ [r] }
    | none => none
  | .arrivesLate index => (w.lost[index]?).map w.store
  | .restarts pid =>
    some { w with process := .start pid, live := [], lost := w.lost ++ w.process.sending.toList }
  | .purges count => some { w with rows := w.rows.drop count }

end

namespace World

/-- What the file holds. -/
def saved (w : World) : List Entry := (w.file.map (·.entries)).getD []

variable (w : World)

@[simp] theorem write_process {owner entries written} :
    (w.write owner entries written).process = w.process := by
  unfold write; split <;> rfl

@[simp] theorem write_recorded {owner entries written} :
    (w.write owner entries written).recorded = w.recorded := by
  unfold write; split <;> rfl

@[simp] theorem write_claimed {owner entries written} :
    (w.write owner entries written).claimed = w.claimed := by
  unfold write; split <;> rfl

@[simp] theorem write_sent {owner entries written} : (w.write owner entries written).sent = w.sent := by
  unfold write; split <;> rfl

theorem write_file {owner entries written spool} (h : (w.write owner entries written).file = some spool) :
    w.file = some spool ∨ spool = ⟨owner, entries⟩ := by
  unfold write at h
  split at h
  · exact .inr (Option.some.inj h).symm
  · exact .inl h

end World

section Steps

variable {lib : Library} {build : Build} {w w' : World} {written : Bool}

theorem step_pass {dest : Option Destination} {readable : Bool}
    (hs : step lib build w (.pass dest readable written) = some w') :
    dest = none ∧ w' = w ∨ ∃ d, dest = some d ∧ w' = pass w d readable written := by
  cases dest with
  | none =>
    simp only [step] at hs
    split_ifs at hs
    exact .inl ⟨rfl, (Option.some.inj hs).symm⟩
  | some d =>
    simp only [step] at hs
    split_ifs at hs
    exact .inr ⟨d, rfl, (Option.some.inj hs).symm⟩

theorem step_arrives (hs : step lib build w .arrives = some w') : ∃ r, w.process.sending = some r ∧
    w' = { w.store r with process := { w.process with sending := some { r with arrived := true } } } := by
  simp only [step] at hs
  split at hs
  · rename_i r hr
    exact ⟨r, hr, (Option.some.inj hs).symm⟩
  · cases hs

theorem step_replied (hs : step lib build w (.replies true written) = some w') : ∃ dest batch,
    w.process.sending = some ⟨dest, batch, true⟩ ∧
      w' = { w with
        process := { w.process with queue := unsent w.process.queue batch, sending := none } }.write
          dest.owner
        (unsent w.process.queue batch) written := by
  simp only [step] at hs
  split at hs
  · rename_i dest batch hr
    exact ⟨dest, batch, hr, (Option.some.inj hs).symm⟩
  · cases hs

theorem step_unanswered (hs : step lib build w (.replies false written) = some w') :
    ∃ r, w.process.sending = some r ∧
    w' = { w with process := { w.process with sending := none }, lost := w.lost ++ [r] } := by
  simp only [step] at hs
  split at hs
  · rename_i r hr
    exact ⟨r, hr, (Option.some.inj hs).symm⟩
  · cases hs

end Steps

/-! ### No entry reaches a second owner -/

section Confined

variable {lib : Library} {build : Build} {w w' : World} {l : Label}

/-- The ids of new entries (time, process and sequence number) are new. -/
def Fresh (lib : Library) (build : Build) (w : World) : Label → Prop
  | .event event false => ∀ entry ∈ event.entry lib build w.process.pid w.process.sequence,
      ∀ e ∈ w.recorded, e.event_id ≠ entry.event_id
  | .panics panic false _ => ∀ e ∈ w.recorded, e.event_id ≠ (panic.entry lib build w.process.pid).event_id
  | _ => True

instance : Decidable (Fresh lib build w l) :=
  match l with
  | .event _ false => inferInstanceAs (Decidable (∀ entry ∈ _, ∀ e ∈ w.recorded, _))
  | .panics _ false _ => inferInstanceAs (Decidable (∀ e ∈ w.recorded, _))
  | .event _ true | .panics _ true
    _ | .pass .. | .arrives | .replies .. | .arrivesLate .. | .restarts .. | .purges .. =>
    .isTrue trivial

/-- What was recorded or taken up for an owner is not taken up for another. -/
structure Claimed (w : World) : Prop where
  unique : ∀ a b e e', (a, e) ∈ w.claimed → (b, e') ∈ w.claimed → e.event_id = e'.event_id → a = b
  known : ∀ a e, (a, e) ∈ w.claimed → e ∈ w.recorded
  recorded : ∀ e ∈ w.process.queue, e ∈ w.recorded
  owned : ∀ owner, w.process.owner = some owner → ∀ e ∈ w.process.queue, (owner, e) ∈ w.claimed
  unowned : w.process.owner = none → ∀ e ∈ w.process.queue, ∀ a e', (a, e') ∈ w.claimed →
    e'.event_id ≠ e.event_id
  file : ∀ spool, w.file = some spool → ∀ e ∈ spool.entries, (spool.owner, e) ∈ w.claimed
  sending : ∀ r, w.process.sending = some r → w.process.owner = some r.dest.owner
  sent : ∀ p ∈ w.sent, p ∈ w.claimed

theorem Claimed.init {pid : Nat} : Claimed (.init pid) := by
  constructor <;> simp [World.init, Process.start]

theorem Claimed.write {owner : String} {entries : List Entry} {written : Bool} (h : Claimed w)
    (he : ∀ e ∈ entries, (owner, e) ∈ w.claimed) : Claimed (w.write owner entries written) where
  unique := by simpa using h.unique
  known := by simpa using h.known
  recorded := by simpa using h.recorded
  owned := by simpa using h.owned
  unowned := by simpa using h.unowned
  file := by
    intro spool hs e hmem
    rw [World.write_claimed]
    rcases w.write_file hs with hs | rfl
    · exact h.file spool hs e hmem
    · exact he e hmem
  sending := by simpa using h.sending
  sent := by simpa using h.sent

theorem Claimed.record {entry : Entry} {queue : List Entry} (h : Claimed w)
    (hnew : ∀ e ∈ w.recorded, e.event_id ≠ entry.event_id)
    (hq : ∀ e ∈ queue, e ∈ w.process.queue ∨ e = entry) :
    Claimed (w.record entry queue) := by
  have hmem : ∀ a e, (a, e) ∈ (w.record entry queue).claimed ↔
      (w.process.owner = some a ∧ e = entry) ∨ (a, e) ∈ w.claimed := by
    intro a e
    simp only [World.record, List.mem_append, List.mem_map, Option.mem_toList, Prod.mk.injEq]
    constructor
    · rintro (⟨b, hb, rfl, rfl⟩ | h)
      exacts [.inl ⟨hb, rfl⟩, .inr h]
    · rintro (⟨hb, rfl⟩ | h)
      exacts [.inl ⟨a, hb, rfl, rfl⟩, .inr h]
  constructor
  · intro a b e e' ha hb heq
    rcases (hmem a e).1 ha with ⟨hao, rfl⟩ | hac <;> rcases (hmem b e').1 hb with ⟨hbo, rfl⟩ | hbc
    · exact Option.some.inj (hao.symm.trans hbo)
    · exact absurd heq.symm (hnew e' (h.known b e' hbc))
    · exact absurd heq (hnew e (h.known a e hac))
    · exact h.unique a b e e' hac hbc heq
  · intro a e he
    rcases (hmem a e).1 he with ⟨_, rfl⟩ | he
    · exact List.mem_append_right _ (List.mem_singleton_self e)
    · exact List.mem_append_left _ (h.known a e he)
  · intro e he
    rcases hq e he with he | rfl
    · exact List.mem_append_left _ (h.recorded e he)
    · exact List.mem_append_right _ (List.mem_singleton_self e)
  · intro owner ho e he
    rcases hq e he with he | rfl
    · exact (hmem owner e).2 (.inr (h.owned owner ho e he))
    · exact (hmem owner e).2 (.inl ⟨ho, rfl⟩)
  · intro ho e he a e' ha
    rcases (hmem a e').1 ha with ⟨hao, _⟩ | hac
    · exact absurd (ho.symm.trans hao) nofun
    rcases hq e he with he | rfl
    · exact h.unowned ho e he a e' hac
    · exact hnew e' (h.known a e' hac)
  · exact fun spool hs e he => (hmem _ _).2 (.inr (h.file spool hs e he))
  · exact h.sending
  · exact fun p hp => (hmem p.1 p.2).2 (.inr (h.sent p hp))

/-- What a pass goes on with is the old queue, of the same owner or of none, and what the owner's
file holds. -/
theorem mem_takeUp {owner : String} {readable : Bool} {e : Entry} (he : e ∈ w.takeUp owner readable) :
    (e ∈ w.process.queue ∧ ∀ old, w.process.owner = some old → old = owner) ∨
      ∃ spool, w.file = some spool ∧ spool.owner = owner ∧ e ∈ spool.entries := by
  rw [World.takeUp] at he
  rcases List.mem_append.1 (mem_trim he) with he | he
  · right
    have he := mem_trim he
    rcases hf : w.file with _ | spool
    · rw [hf] at he; exact absurd he List.not_mem_nil
    · rw [hf] at he
      dsimp only at he
      split_ifs at he with hr
      · exact ⟨spool, rfl, hr.2.2, he⟩
      · exact absurd he List.not_mem_nil
  · left
    split_ifs at he with ho
    · exact absurd he List.not_mem_nil
    · refine ⟨he, fun old hold => ?_⟩
      simpa [hold] using ho

theorem Claimed.takeUp {owner : String} {readable : Bool} {e e' : Entry} {a : String} (h : Claimed w)
    (he : e ∈ w.takeUp owner readable) (ha : (a, e') ∈ w.claimed) (heq : e'.event_id = e.event_id) :
    a = owner := by
  rcases mem_takeUp he with ⟨hq, ho⟩ | ⟨spool, hf, rfl, hs⟩
  · rcases hp : w.process.owner with _ | old
    · exact absurd heq (h.unowned hp e hq a e' ha)
    · rw [← ho old hp]
      exact h.unique a old e' e ha (h.owned old hp e hq) heq
  · exact h.unique a spool.owner e' e ha (h.file spool hf e hs) heq

theorem Claimed.send {dest : Destination} {queue : List Entry} (h : Claimed w)
    (hknown : ∀ e ∈ queue, e ∈ w.recorded)
    (hown : ∀ e ∈ queue, ∀ a e', (a, e') ∈ w.claimed → e'.event_id = e.event_id → a = dest.owner) :
    Claimed (w.send dest queue) := by
  have hmem : ∀ a e, (a, e) ∈ (w.send dest queue).claimed ↔ (a = dest.owner ∧ e ∈ queue) ∨
      (a, e) ∈ w.claimed := by
    intro a e
    simp only [World.send, List.mem_append, List.mem_map, Prod.mk.injEq]
    constructor
    · rintro (⟨e', he, rfl, rfl⟩ | h)
      exacts [.inl ⟨rfl, he⟩, .inr h]
    · rintro (⟨rfl, he⟩ | h)
      exacts [.inl ⟨e, he, rfl, rfl⟩, .inr h]
  constructor
  · intro a b e e' ha hb heq
    rcases (hmem a e).1 ha with ⟨rfl, hae⟩ | hac <;> rcases (hmem b e').1 hb with ⟨rfl, hbe⟩ | hbc
    · rfl
    · exact (hown e hae b e' hbc heq.symm).symm
    · exact hown e' hbe a e hac heq
    · exact h.unique a b e e' hac hbc heq
  · intro a e he
    rcases (hmem a e).1 he with ⟨_, he⟩ | he
    · exact hknown e he
    · exact h.known a e he
  · exact hknown
  · rintro owner ⟨⟩ e he
    exact (hmem _ e).2 (.inl ⟨rfl, he⟩)
  · rintro ⟨⟩
  · exact fun spool hs e he => (hmem _ e).2 (.inr (h.file spool hs e he))
  · intro r hr
    simp only [World.send] at hr
    split_ifs at hr
    cases hr
    rfl
  · rintro ⟨a, e⟩ hp
    rcases List.mem_append.1 hp with hp | hp
    · obtain ⟨e', he, heq⟩ := List.mem_map.1 hp
      cases heq
      exact (hmem _ e).2 (.inl ⟨rfl, List.mem_of_mem_take he⟩)
    · exact (hmem a e).2 (.inr (h.sent _ hp))

theorem Claimed.pass {dest : Destination} {readable written : Bool} (h : Claimed w) :
    Claimed (pass w dest readable written) := by
  unfold AppLogs.pass
  have hknown : ∀ e ∈ w.takeUp dest.owner readable, e ∈ w.recorded := by
    intro e he
    rcases mem_takeUp he with ⟨hq, _⟩ | ⟨spool, hf, _, hs⟩
    · exact h.recorded e hq
    · exact h.known spool.owner e (h.file spool hf e hs)
  have hsent := h.send hknown fun e he a e' ha heq => h.takeUp he ha heq
  generalize w.takeUp dest.owner readable = queue at hsent ⊢
  dsimp only
  split_ifs
  · exact hsent
  · exact hsent.write fun e he => hsent.owned dest.owner rfl e he

theorem Claimed.panics {panic : Panic} {contended written : Bool} (h : Claimed w)
    (hf : Fresh lib build w (.panics panic contended written)) :
    Claimed (onPanic lib build w panic contended written) := by
  unfold onPanic
  split
  · rename_i owner ho
    have hq : ∀ e ∈ trim QUEUE_SIZE (w.process.queue ++ [panic.entry lib build w.process.pid]),
        e ∈ w.process.queue ∨ e = panic.entry lib build w.process.pid := fun e he => by
          simpa using mem_trim he
    have hr := h.record hf hq
    dsimp only
    generalize trim QUEUE_SIZE (w.process.queue ++ [panic.entry lib build w.process.pid]) = queue at hr ⊢
    exact hr.write fun e he => hr.owned owner ho e he
  · exact h

theorem Claimed.event {event : Event} {contended : Bool} (h : Claimed w)
    (hf : Fresh lib build w (.event event contended)) :
    Claimed (onEvent lib build w event contended) := by
  unfold onEvent
  split
  · exact h
  · rename_i entry he
    cases contended with
    | true => exact { h with }
    | false =>
      refine Claimed.record (w :=
        { w with process := { w.process with sequence := w.process.sequence + 1 } }) { h with } ?_ ?_
      · exact hf entry he
      · intro e hmem
        simpa using push_sublist.subset hmem

theorem Claimed.step {l : Label} (h : Claimed w) (hf : Fresh lib build w l)
    (hs : step lib build w l = some w') : Claimed w' := by
  cases l with
  | event event contended => cases hs; exact h.event hf
  | panics panic contended written => cases hs; exact h.panics hf
  | pass dest readable written =>
    obtain ⟨_, rfl⟩ | ⟨dest, _, hw⟩ := step_pass hs
    exacts [h, hw ▸ h.pass]
  | arrives =>
    obtain ⟨r, hr, rfl⟩ := step_arrives hs
    exact { h with sending := by rintro _ ⟨⟩; exact h.sending r hr }
  | replies ok written =>
    cases ok with
    | true =>
      obtain ⟨dest, batch, hr, rfl⟩ := step_replied hs
      have hq : ∀ e ∈ unsent w.process.queue batch, e ∈ w.process.queue :=
        fun e he => List.mem_of_mem_filter he
      refine Claimed.write ⟨h.unique, h.known, fun e he => h.recorded e (hq e he), ?_, ?_, h.file,
        nofun, h.sent⟩ ?_
      · exact fun owner ho e he => h.owned owner ho e (hq e he)
      · exact fun ho e he => h.unowned ho e (hq e he)
      · exact fun e he => h.owned _ (h.sending _ hr) e (hq e he)
    | false =>
      obtain ⟨r, _, rfl⟩ := step_unanswered hs
      exact { h with sending := nofun }
  | arrivesLate index =>
    simp only [AppLogs.step, Option.map_eq_some_iff] at hs
    obtain ⟨r, _, rfl⟩ := hs
    exact { h with }
  | restarts pid =>
    cases hs
    exact ⟨h.unique, h.known, nofun, nofun, nofun, h.file, nofun, h.sent⟩
  | purges count => cases hs; exact { h with }

/-- An entry that was recorded, restored or sent under one owner of the device is sent to no other. -/
theorem entries_confined {pid : Nat} {ls : List Label} {a b : String} {e e' : Entry}
    (hrun : run (step lib build) (.init pid) ls = some w)
    (hgood : Along (step lib build) (Fresh lib build) (.init pid) ls)
    (ha : (a, e) ∈ w.claimed) (hb : (b, e') ∈ w.sent) (hid : e.event_id = e'.event_id) : a = b := by
  have h : Claimed w := hgood.inv (fun _ _ _ hf hs h => Claimed.step h hf hs) hrun .init
  exact h.unique a b e e' ha (h.sent _ hb) hid

def plainBuild : Build := ⟨"linux", "1.0.0"⟩

def boot : Event := ⟨"betterframe_client", .info, "up", 1, "1"⟩

def oldHome : Destination := ⟨"s", "k", "a"⟩

def newHome : Destination := ⟨"s", "l", "b"⟩

/-- The device logs, goes to another home, logs again and returns. -/
def moves : List Label :=
  [.event boot false, .pass (some oldHome) true true, .arrives, .replies true true,
    .event { boot with stamp := 2 } false,
    .pass (some newHome) true true, .event { boot with stamp := 3 } false,
      .pass (some newHome) true true, .arrives,
    .replies false true, .restarts 8, .pass (some oldHome) true true]

theorem entries_confined_moves : ∃ w, run (step JournalLogs.plainLibrary plainBuild)
    (.init 7) moves = some w ∧ w.sent.length = 2 ∧
    ∀ a e p, (a, e) ∈ w.claimed → p ∈ w.sent → e.event_id = p.2.event_id → a = p.1 := by
  have hany : (run (step JournalLogs.plainLibrary plainBuild) (.init 7) moves).any
      (·.sent.length = 2) = true := by decide
  obtain ⟨w, hrun, hw⟩ := (Option.any_eq_true _ _).1 hany
  exact ⟨w, hrun, by simpa using hw, fun a e p ha hb hid => entries_confined hrun (by decide) ha hb hid⟩

end Confined

/-! ### What becomes of every entry -/

section Kept

variable {lib : Library} {build : Build} {w w' : World} {l : Label} {o : String}

/-- A row of it was stored for one of `o`'s kiosks. -/
def World.Delivered (w : World) (o : String) (e : Entry) : Prop := ∃ row ∈ w.stored, row.owner = o ∧
  row.entry = e

/-- The device stays `o`'s, its storage works and the ids of new entries are new. -/
def Steady (lib : Library) (build : Build) (o : String) (w : World) (l : Label) : Prop :=
  Fresh lib build w l ∧
    match l with
    | .panics _ _ written => written = true
    | .pass (some dest) readable written => dest.owner = o ∧ readable = true ∧ written = true
    | .replies _ written => written = true
    | _ => True

instance : Decidable (Steady lib build o w l) :=
  match l with
  | .panics .. | .replies .. => inferInstanceAs (Decidable (_ ∧ _ = _))
  | .pass (some _) .. => inferInstanceAs (Decidable (_ ∧ _ = _ ∧ _ = _ ∧ _ = _))
  | .event .. | .pass none .. | .arrives | .arrivesLate .. | .restarts .. | .purges .. =>
    inferInstanceAs (Decidable (_ ∧ True))

/-- The rows of the server: no two with one key, and all of recorded entries. -/
structure Rows (w : World) : Prop where
  ids : (w.recorded.map (·.event_id)).Nodup
  keys : (w.rows.map (·.key)).Nodup
  rows : ∀ row ∈ w.rows, row ∈ w.stored
  stored : ∀ row ∈ w.stored, row.entry ∈ w.recorded

theorem insertRow_nodup {rows : List Row} {row : Row} (h : (rows.map (·.key)).Nodup) :
    ((insertRow rows row).map (·.key)).Nodup := by
  unfold insertRow
  split_ifs with hk
  · exact h
  · rw [List.map_append, List.nodup_append]
    refine ⟨h, List.nodup_singleton _, ?_⟩
    rintro a ha b hb rfl
    simp only [List.map_cons, List.map_nil, List.mem_singleton] at hb
    exact hk (hb ▸ ha)

theorem mem_insertRow {rows : List Row} {row r : Row} (h : r ∈ insertRow rows row) : r ∈ rows ∨ r = row := by
  unfold insertRow at h
  split_ifs at h
  · exact .inl h
  · simpa using h

theorem insertRow_sublist {rows : List Row} {row : Row} : rows.Sublist (insertRow rows row) := by
  unfold insertRow
  split_ifs
  · exact .refl _
  · exact List.sublist_append_left rows [row]

theorem key_mem_insertRow {rows : List Row} {row : Row} : row.key ∈ (insertRow rows row).map (·.key) := by
  unfold insertRow
  split_ifs with hk
  · exact hk
  · simp

section Insert

variable {rows : List Row} {dest : Destination} {entries : List Entry}

theorem insertKioskLogs_cons {entry : Entry} :
    insertKioskLogs rows dest (entry :: entries) =
      insertKioskLogs (insertRow rows ⟨dest.server, dest.kiosk_id, entry⟩) dest entries := rfl

theorem insertKioskLogs_sublist : rows.Sublist (insertKioskLogs rows dest entries) := by
  induction entries generalizing rows with
  | nil => exact .refl _
  | cons entry entries ih => exact insertRow_sublist.trans ih

theorem insertKioskLogs_nodup (h : (rows.map (·.key)).Nodup) :
    ((insertKioskLogs rows dest entries).map (·.key)).Nodup := by
  induction entries generalizing rows with
  | nil => exact h
  | cons entry entries ih => exact ih (insertRow_nodup h)

theorem mem_insertKioskLogs {row : Row} (h : row ∈ insertKioskLogs rows dest entries) :
    row ∈ rows ∨ row.owner = dest.owner ∧ row.entry ∈ entries := by
  induction entries generalizing rows with
  | nil => exact .inl h
  | cons entry entries ih =>
    rcases ih h with h | ⟨ho, he⟩
    · rcases mem_insertRow h with h | rfl
      · exact .inl h
      · exact .inr ⟨rfl, List.mem_cons_self⟩
    · exact .inr ⟨ho, List.mem_cons_of_mem _ he⟩

/-- Every entry of the batch has a row, this one or an earlier one with its id. -/
theorem exists_insertKioskLogs {e : Entry} (he : e ∈ entries) :
    ∃ row ∈ insertKioskLogs rows dest entries, row.owner = dest.owner ∧ row.entry.event_id = e.event_id := by
  induction entries generalizing rows with
  | nil => exact absurd he List.not_mem_nil
  | cons entry entries ih =>
    rcases List.mem_cons.1 he with rfl | he
    · have hmem : Row.key ⟨dest.server, dest.kiosk_id, e⟩ ∈
          (insertRow rows ⟨dest.server, dest.kiosk_id, e⟩).map (·.key) :=
        key_mem_insertRow
      obtain ⟨row, hrow, hkey⟩ := List.mem_map.1 hmem
      simp only [Row.key, Key.mk.injEq] at hkey
      rw [insertKioskLogs_cons]
      refine ⟨row, insertKioskLogs_sublist.subset hrow, ?_, hkey.2.2⟩
      rw [Row.owner, hkey.1, hkey.2.1, Destination.owner]
    · exact ih he

end Insert

theorem Rows.unique (h : Rows w) {e e' : Entry} (he : e ∈ w.recorded) (he' : e' ∈ w.recorded)
    (heq : e.event_id = e'.event_id) :
    e = e' := List.inj_on_of_nodup_map h.ids he he' heq

/-- A request that arrives delivers its batch. -/
theorem Rows.store {r : Request} (h : Rows w) (hr : ∀ e ∈ r.batch, e ∈ w.recorded) :
    Rows (w.store r) ∧ ∀ e ∈ r.batch, (w.store r).Delivered r.dest.owner e := by
  have hrows : Rows (w.store r) := by
    refine ⟨h.ids, insertKioskLogs_nodup h.keys, fun row hrow => List.mem_append_right _ hrow, ?_⟩
    intro row hrow
    rcases List.mem_append.1 hrow with hrow | hrow
    · exact h.stored row hrow
    · rcases mem_insertKioskLogs hrow with hrow | ⟨_, he⟩
      · exact h.stored row (h.rows row hrow)
      · exact hr _ he
  refine ⟨hrows, fun e he => ?_⟩
  have hexists : ∃ row ∈ insertKioskLogs w.rows r.dest r.batch, row.owner = r.dest.owner ∧
      row.entry.event_id = e.event_id :=
    exists_insertKioskLogs he
  obtain ⟨row, hrow, ho, hid⟩ := hexists
  have hmem : row ∈ (w.store r).stored := List.mem_append_right _ hrow
  exact ⟨row, hmem, ho, h.unique (hrows.stored row hmem) (hr e he) hid⟩

theorem World.Delivered.store {r : Request} {e : Entry} (h : w.Delivered o e) : (w.store r).Delivered o e :=
  let ⟨row, hrow, h⟩ := h; ⟨row, List.mem_append_left _ hrow, h⟩

/-- What is promised of an entry: it is where `kept` says, a row was stored of it, or a full queue
of entries came after it. -/
def World.Promised (w : World) (o : String) (e : Entry) (kept : Prop) : Prop :=
  kept ∨ w.Delivered o e ∨ Outnumbered QUEUE_SIZE w.recorded e

/-- What this process recorded is in the queue, what was written to the file is there, and in the
queue once it is restored. -/
structure Kept (o : String) (w : World) : Prop where
  live : ∀ e ∈ w.live, w.Promised o e (e ∈ w.process.queue)
  spooled : ∀ e ∈ w.spooled, w.Promised o e (e ∈ w.saved ∧ (w.process.restored = true → e ∈ w.process.queue))

/-- The queue and the file are parts of the history, the queue behind the file until it is restored. -/
structure Ordered (o : String) (w : World) : Prop where
  owner : ∀ owner, w.process.owner = some owner → owner = o
  restored : w.process.restored = w.process.owner.isSome
  file : ∀ spool, w.file = some spool → spool.owner = o
  queue : w.process.queue.Sublist w.recorded
  saved : w.saved.Sublist w.recorded
  behind : w.process.restored = false → (w.saved ++ w.process.queue).Sublist w.recorded
  short : w.process.queue.length ≤ QUEUE_SIZE
  savedShort : w.saved.length ≤ QUEUE_SIZE

/-- Requests carry recorded entries to `o`, and those that have arrived have delivered them. -/
structure Carried (o : String) (w : World) : Prop where
  sending : ∀ r, w.process.sending = some r →
    r.dest.owner = o ∧ (∀ e ∈ r.batch, e ∈ w.recorded) ∧ (r.arrived = true → ∀ e ∈ r.batch, w.Delivered o e)
  lost : ∀ r ∈ w.lost, ∀ e ∈ r.batch, e ∈ w.recorded
  begun : ∀ r, w.process.sending = some r → w.process.restored = true

/-- The whole invariant for the entries of the owner `o`. -/
structure Sound (o : String) (w : World) : Prop extends Rows w, Kept o w, Ordered o w, Carried o w

theorem World.Promised.imp {e : Entry} {kept kept' : Prop} (h : w.Promised o e kept)
    (hk : kept → w'.Promised o e kept')
    (hd : w.Delivered o e → w'.Delivered o e)
    (hn : Outnumbered QUEUE_SIZE w.recorded e → Outnumbered QUEUE_SIZE w'.recorded e) :
    w'.Promised o e kept' := by
  rcases h with h | h | h
  exacts [hk h, .inr (.inl (hd h)), .inr (.inr (hn h))]

theorem Sound.init {pid : Nat} : Sound o (.init pid) := by
  refine ⟨?_, ?_, ?_, ?_⟩ <;> constructor <;> simp [World.init, Process.start, World.saved]

/-- The queue goes to the file. -/
theorem Sound.write (h : Sound o w) (hr : w.process.restored = true) :
    Sound o (w.write o w.process.queue true) := by
  have hsaved : (w.write o w.process.queue true).saved = w.process.queue := rfl
  refine ⟨⟨h.ids, h.keys, h.rows, h.stored⟩, ⟨h.live, ?_⟩, ?_, ⟨h.sending, h.lost, h.begun⟩⟩
  · intro e he
    rw [hsaved]
    rcases List.mem_append.1 he with he | he
    · exact (h.spooled e he).imp (fun hk => .inl ⟨hk.2 hr, fun _ => hk.2 hr⟩) id id
    · exact .inl ⟨he, fun _ => he⟩
  · refine ⟨h.owner, h.restored, ?_, h.queue, hsaved ▸ h.queue, ?_, h.short, hsaved ▸ h.short⟩
    · rintro _ ⟨⟩; rfl
    · exact fun hf => absurd (hr.symm.trans hf) nofun

/-- A new entry comes into the queue, which gives up only what is outnumbered. -/
theorem Sound.record {entry : Entry} {queue : List Entry} (h : Sound o w)
    (hnew : ∀ e ∈ w.recorded, e.event_id ≠ entry.event_id)
    (hq : queue.Sublist (w.process.queue ++ [entry])) (hmem : entry ∈ queue)
    (hshort : queue.length ≤ QUEUE_SIZE)
    (hkeep : ∀ e ∈ w.process.queue, e ∈ queue ∨ Outnumbered QUEUE_SIZE (w.recorded ++ [entry]) e) :
    Sound o (w.record entry queue) := by
  have hle : ∀ e ∈ w.recorded, e ∈ (w.record entry queue).recorded := fun e he => List.mem_append_left _ he
  have hkept : ∀ e, w.Promised o e (e ∈ w.process.queue) →
      (w.record entry queue).Promised o e (e ∈ queue) := by
    refine fun e hp => hp.imp (fun hk => ?_) id Outnumbered.append
    rcases hkeep e hk with hk | hk
    exacts [.inl hk, .inr (.inr hk)]
  refine ⟨⟨?_, h.keys, h.rows, fun row hrow => hle _ (h.stored row hrow)⟩, ⟨?_, ?_⟩, ?_,
    ⟨?_, fun r hr e he => hle e (h.lost r hr e he), h.begun⟩⟩
  · rw [World.record, List.map_append, List.nodup_append]
    refine ⟨h.ids, List.nodup_singleton _, ?_⟩
    rintro a ha b hb rfl
    obtain ⟨e, he, rfl⟩ := List.mem_map.1 ha
    exact hnew e he (List.mem_singleton.1 hb)
  · intro e he
    rcases List.mem_append.1 he with he | he
    · exact hkept e (h.live e he)
    · exact .inl (List.mem_singleton.1 he ▸ hmem)
  · intro e he
    refine (h.spooled e he).imp (fun hk => ?_) id Outnumbered.append
    rcases hr : w.process.restored with _ | _
    · exact .inl ⟨hk.1, fun hf => absurd (hr.symm.trans hf) nofun⟩
    · rcases hkeep e (hk.2 hr) with hq | hn
      exacts [.inl ⟨hk.1, fun _ => hq⟩, .inr (.inr hn)]
  · refine ⟨h.owner, h.restored, h.file, hq.trans (h.queue.append (.refl _)),
      h.saved.trans (List.sublist_append_left _ _), ?_, hshort,
      h.savedShort⟩
    intro hr
    refine ((List.Sublist.refl _).append hq).trans ?_
    rw [← List.append_assoc]
    exact (h.behind hr).append (.refl _)
  · intro r hr
    obtain ⟨ho, hb, ha⟩ := h.sending r hr
    exact ⟨ho, fun e he => hle e (hb e he), ha⟩

theorem Sound.event {event : Event} {contended : Bool} (h : Sound o w)
    (hf : Fresh lib build w (.event event contended)) :
    Sound o (onEvent lib build w event contended) := by
  unfold onEvent
  split
  · exact h
  · rename_i entry he
    have hs : Sound o { w with process := { w.process with sequence := w.process.sequence + 1 } } :=
      { h with }
    cases contended with
    | true => exact hs
    | false =>
      refine hs.record (hf entry he) push_sublist mem_push (length_push_le (by decide) h.short)
        fun e hmem => ?_
      exact mem_push_or h.queue hmem

theorem Sound.panics {panic : Panic} {contended : Bool} (h : Sound o w)
    (hf : Fresh lib build w (.panics panic contended true)) :
    Sound o (onPanic lib build w panic contended true) := by
  unfold onPanic
  split
  · rename_i owner howner
    obtain rfl := h.owner owner howner
    have hr : w.process.restored = true := by rw [h.restored, howner]; rfl
    set entry := panic.entry lib build w.process.pid
    have hq : (w.process.queue ++ [entry]).Sublist (w.recorded ++ [entry]) := h.queue.append (.refl _)
    have hall : (w.process.queue ++ [entry] ++ []).Sublist (w.recorded ++ [entry]) := by rwa [List.append_nil]
    have hs := h.record hf trim_sublist (mem_trim_append (by decide)) length_trim_le fun e he =>
      mem_trim_or hall (List.mem_append_left _ he)
    dsimp only
    generalize trim QUEUE_SIZE (w.process.queue ++ [entry]) = queue at hs ⊢
    exact hs.write hr
  · exact h

theorem Sound.takeUp_eq (h : Sound o w) :
    w.takeUp o true = trim QUEUE_SIZE
    (trim QUEUE_SIZE (if w.process.restored then [] else w.saved) ++ w.process.queue) := by
  have hq : (if w.process.owner.any (· ≠ o) then [] else w.process.queue) = w.process.queue := by
    rcases ho : w.process.owner with _ | owner
    · rfl
    · simp [h.owner owner ho]
  rw [World.takeUp, hq]
  rcases hf : w.file with _ | spool
  · simp [World.saved, hf]
  · cases w.process.restored <;> simp [World.saved, hf, h.file spool hf]

theorem Sound.history (h : Sound o w) :
    (trim QUEUE_SIZE (if w.process.restored then [] else w.saved) ++ w.process.queue).Sublist w.recorded := by
  rcases hr : w.process.restored with _ | _
  · exact (trim_sublist.append (.refl _)).trans (h.behind hr)
  · simpa [trim] using h.queue

/-- A pass goes on with everything of the queue and of the file that is not outnumbered. -/
theorem Sound.takeUp {e : Entry} (h : Sound o w)
    (hmem : e ∈ w.process.queue ∨ w.process.restored = false ∧ e ∈ w.saved) :
    e ∈ w.takeUp o true ∨ Outnumbered QUEUE_SIZE w.recorded e := by
  have hall := h.history
  rw [← List.append_nil (_ ++ _)] at hall
  rw [h.takeUp_eq]
  rcases hmem with hmem | ⟨hr, hmem⟩
  · exact mem_trim_or hall (List.mem_append_right _ hmem)
  · rw [hr, if_neg nofun] at hall ⊢
    rcases mem_trim_or (h.behind hr) hmem with hmem | hn
    exacts [mem_trim_or hall (List.mem_append_left _ hmem), .inr hn]

theorem Sound.send {dest : Destination} {queue : List Entry} (h : Sound o w) (ho : dest.owner = o)
    (hq : queue.Sublist w.recorded) (hshort : queue.length ≤ QUEUE_SIZE)
    (hkeep : ∀ e, e ∈ w.process.queue ∨ w.process.restored = false ∧ e ∈ w.saved →
      e ∈ queue ∨ Outnumbered QUEUE_SIZE w.recorded e) : Sound o (w.send dest queue) := by
  refine ⟨⟨h.ids, h.keys, h.rows, h.stored⟩, ⟨?_, ?_⟩,
    ⟨?_, rfl, h.file, hq, h.saved, nofun, hshort, h.savedShort⟩, ⟨?_, h.lost, fun _ _ => rfl⟩⟩
  · intro e he
    refine (h.live e he).imp (fun hk => ?_) id id
    rcases hkeep e (.inl hk) with hk | hn
    exacts [.inl hk, .inr (.inr hn)]
  · intro e he
    refine (h.spooled e he).imp (fun hk => ?_) id id
    have hmem : e ∈ w.process.queue ∨ w.process.restored = false ∧ e ∈ w.saved := by
      rcases hr : w.process.restored with _ | _
      exacts [.inr ⟨rfl, hk.1⟩, .inl (hk.2 hr)]
    rcases hkeep e hmem with hq | hn
    exacts [.inl ⟨hk.1, fun _ => hq⟩, .inr (.inr hn)]
  · rintro _ ⟨⟩; exact ho
  · intro r hr
    simp only [World.send] at hr
    split_ifs at hr
    cases hr
    exact ⟨ho, fun e he => hq.subset (List.mem_of_mem_take he), nofun⟩

theorem Sound.pass {dest : Destination} (h : Sound o w) (ho : dest.owner = o) :
    Sound o (pass w dest true true) := by
  subst ho
  unfold AppLogs.pass
  have hq : (w.takeUp dest.owner true).Sublist w.recorded := h.takeUp_eq ▸ trim_sublist.trans h.history
  have hs := h.send rfl hq length_trim_le fun e he => h.takeUp he
  generalize w.takeUp dest.owner true = queue at hs ⊢
  dsimp only
  split_ifs
  · exact hs
  · exact hs.write rfl

theorem Sound.arrives {r : Request} (h : Sound o w) (hr : ∀ e ∈ r.batch, e ∈ w.recorded) :
    Sound o (w.store r) :=
  ⟨(h.toRows.store hr).1, ⟨fun e he => (h.live e he).imp .inl .store id,
    fun e he => (h.spooled e he).imp .inl .store id⟩,
    { h.toOrdered with },
    ⟨fun r' hr' => ⟨(h.sending r' hr').1, (h.sending r' hr').2.1, fun ha e he =>
      ((h.sending r' hr').2.2 ha e he).store⟩, h.lost, h.begun⟩⟩

/-- What the answer to a request takes out of the queue has been delivered. -/
theorem Sound.replied {dest : Destination} {batch : List Entry} (h : Sound o w)
    (hr : w.process.sending = some ⟨dest, batch, true⟩) :
    Sound o { w with
      process := { w.process with queue := unsent w.process.queue batch, sending := none } } := by
  obtain ⟨_, hb, hd⟩ := h.sending _ hr
  have hsub : (unsent w.process.queue batch).Sublist w.process.queue := List.filter_sublist
  have hkeep : ∀ e ∈ w.process.queue, e ∈ unsent w.process.queue batch ∨ w.Delivered o e := by
    intro e he
    by_cases hm : e.event_id ∈ batch.map (·.event_id)
    · obtain ⟨e', he', hid⟩ := List.mem_map.1 hm
      obtain rfl := h.unique (hb e' he') (h.queue.subset he) hid
      exact .inr (hd rfl e' he')
    · exact .inl (List.mem_filter.2 ⟨he, by simpa using hm⟩)
  refine ⟨⟨h.ids, h.keys, h.rows, h.stored⟩, ⟨?_, ?_⟩, ?_, ⟨nofun, h.lost, nofun⟩⟩
  · intro e he
    refine (h.live e he).imp (fun hk => ?_) id id
    rcases hkeep e hk with hk | hk
    exacts [.inl hk, .inr (.inl hk)]
  · intro e he
    refine (h.spooled e he).imp (fun hk => ?_) id id
    rcases hp : w.process.restored with _ | _
    · exact .inl ⟨hk.1, nofun⟩
    · rcases hkeep e (hk.2 hp) with hq | hq
      exacts [.inl ⟨hk.1, fun _ => hq⟩, .inr (.inl hq)]
  · exact ⟨h.owner, h.restored, h.file, hsub.trans h.queue, h.saved,
      fun hp => ((List.Sublist.refl _).append hsub).trans (h.behind hp), hsub.length_le.trans h.short,
        h.savedShort⟩

theorem Sound.restarts {pid : Nat} (h : Sound o w) :
    Sound o { w with process := .start pid, live := [], lost := w.lost ++ w.process.sending.toList } := by
  refine ⟨⟨h.ids, h.keys, h.rows, h.stored⟩, ⟨nofun, ?_⟩, ?_, ⟨nofun, ?_, nofun⟩⟩
  · exact fun e he => (h.spooled e he).imp (fun hk => .inl ⟨hk.1, nofun⟩) id id
  · refine ⟨nofun, rfl, h.file, List.nil_sublist _, h.saved, fun _ => ?_, Nat.zero_le _, h.savedShort⟩
    exact (List.append_nil _).symm ▸ h.saved
  · intro r hr
    rcases List.mem_append.1 hr with hr | hr
    · exact h.lost r hr
    · exact (h.sending r (Option.mem_toList.1 hr)).2.1

theorem Sound.step {l : Label} (h : Sound o w) (hg : Steady lib build o w l)
    (hs : step lib build w l = some w') : Sound o w' := by
  obtain ⟨hf, hg⟩ := hg
  cases l with
  | event event contended => cases hs; exact h.event hf
  | panics panic contended written =>
    cases hs
    subst hg
    exact h.panics hf
  | pass dest readable written =>
    obtain ⟨_, rfl⟩ | ⟨dest, rfl, hw⟩ := step_pass hs
    · exact h
    · obtain ⟨ho, rfl, rfl⟩ := hg
      exact hw ▸ h.pass ho
  | arrives =>
    obtain ⟨r, hr, rfl⟩ := step_arrives hs
    obtain ⟨ho, hb, _⟩ := h.sending r hr
    have ha := h.arrives hb
    refine ⟨{ ha.toRows with }, { ha.toKept with }, { ha.toOrdered with },
      ⟨?_, ha.lost, fun _ _ => h.begun r hr⟩⟩
    rintro _ ⟨⟩
    exact ⟨ho, hb, fun _ e he => ho ▸ (h.toRows.store hb).2 e he⟩
  | replies ok written =>
    subst hg
    cases ok with
    | true =>
      obtain ⟨dest, batch, hr, rfl⟩ := step_replied hs
      obtain ⟨rfl, _⟩ := h.sending _ hr
      exact (h.replied hr).write (h.begun _ hr)
    | false =>
      obtain ⟨r, hr, rfl⟩ := step_unanswered hs
      refine ⟨{ h.toRows with }, { h.toKept with }, { h.toOrdered with }, ⟨nofun, fun r' hr' => ?_, nofun⟩⟩
      rcases List.mem_append.1 hr' with hr' | hr'
      · exact h.lost r' hr'
      · exact List.mem_singleton.1 hr' ▸ (h.sending r hr).2.1
  | arrivesLate index =>
    simp only [AppLogs.step, Option.map_eq_some_iff] at hs
    obtain ⟨r, hr, rfl⟩ := hs
    exact h.arrives (h.lost r (List.mem_of_getElem? hr))
  | restarts pid => cases hs; exact h.restarts
  | purges count =>
    cases hs
    exact ⟨⟨h.ids, h.keys.sublist ((List.drop_sublist _ _).map _), fun row hrow =>
      h.rows row (List.mem_of_mem_drop hrow), h.stored⟩,
      { h.toKept with }, { h.toOrdered with }, { h.toCarried with }⟩

/-- While the device stays its owner's and its storage works, what was recorded is in the queue,
what was spooled is in the file and comes back after a restart, unless the server has stored it or a
full queue of newer entries took its place; the server stores no entry twice. -/
theorem entries_kept {pid : Nat} {ls : List Label} (hrun : run (step lib build) (.init pid) ls = some w)
    (hgood : Along (step lib build) (Steady lib build o) (.init pid) ls) :
    Kept o w ∧ (w.rows.map (·.key)).Nodup ∧ w.process.queue.length ≤ QUEUE_SIZE ∧
    w.saved.length ≤ QUEUE_SIZE := by
  have h : Sound o w := hgood.inv (fun _ _ _ hg hs h => h.step hg hs) hrun .init
  exact ⟨h.toKept, h.keys, h.short, h.savedShort⟩

/-- A request that arrives after it was given up, a restart and a panic. -/
def outage : List Label :=
  [.event boot false, .pass (some oldHome) true true, .replies false true, .restarts 8,
    .event { boot with stamp := 2 } false,
    .pass (some oldHome) true true, .arrivesLate 0, .panics ⟨"broken", 3, "3"⟩ false true,
      .replies false true]

theorem entries_kept_outage : ∃ w, run (step JournalLogs.plainLibrary plainBuild) (.init 7) outage = some w ∧
    (w.spooled.length = 6 ∧ w.rows.length = 1) ∧
    Kept oldHome.owner w ∧ (w.rows.map (·.key)).Nodup ∧ w.process.queue.length ≤ QUEUE_SIZE ∧
    w.saved.length ≤ QUEUE_SIZE := by
  have hany : (run (step JournalLogs.plainLibrary plainBuild) (.init 7) outage).any
      (fun w => w.spooled.length = 6 ∧ w.rows.length = 1) = true := by decide
  obtain ⟨w, hrun, hw⟩ := (Option.any_eq_true _ _).1 hany
  exact ⟨w, hrun, by simpa using hw, entries_kept hrun (by decide)⟩

/-! ### Rounds of the uploader -/

/-- A pass whose request arrives and is answered. -/
def round (dest : Destination) : List Label := [.pass (some dest) true true, .arrives, .replies true true]

def rounds (dest : Destination) : Nat → List Label
  | 0 => []
  | n + 1 => round dest ++ rounds dest n

theorem steady_rounds {dest : Destination} {n : Nat} :
    Along (step lib build) (Steady lib build dest.owner) w (rounds dest n) := by
  have hround : Along (step lib build) (fun _ l => l ∈ round dest) w (rounds dest n) :=
    along_labels fun l hl => by
    induction n with
    | zero => exact absurd hl List.not_mem_nil
    | succ n ih =>
      rcases List.mem_append.1 hl with hl | hl
      exacts [hl, ih hl]
  refine hround.mono fun s l hl => ?_
  rcases List.mem_cons.1 hl with rfl | hl
  · exact ⟨trivial, rfl, rfl, rfl⟩
  rcases List.mem_cons.1 hl with rfl | hl
  · exact ⟨trivial, trivial⟩
  · exact List.mem_singleton.1 hl ▸ ⟨trivial, rfl⟩

theorem length_unsent_le {queue : List Entry} {n : Nat} :
    (unsent queue (queue.take n)).length ≤ queue.length - n := by
  have hsplit : unsent queue (queue.take n) = (queue.take n).filter (fun entry =>
    entry.event_id ∉ (queue.take n).map (·.event_id)) ++
      (queue.drop n).filter fun entry => entry.event_id ∉ (queue.take n).map (·.event_id) := by
    rw [unsent, ← List.filter_append, List.take_append_drop]
  have hnil : (queue.take n).filter (fun entry => entry.event_id ∉ (queue.take n).map (·.event_id)) = [] := by
    rw [List.filter_eq_nil_iff]
    intro e he
    simpa only [decide_eq_true_eq, not_not] using List.mem_map_of_mem he
  rw [hsplit, hnil, List.nil_append, ← List.length_drop]
  exact List.length_filter_le _ _

/-- A round takes a batch out of the queue. -/
theorem round_run (lib : Library) (build : Build) {dest : Destination} (hw : w.process.sending = none)
    (hq : w.takeUp dest.owner true ≠ []) :
    ∃ w', run (step lib build) w (round dest) = some w' ∧ w'.process.sending = none ∧
    w'.process.restored = true ∧
      w'.process.queue.length ≤ (w.takeUp dest.owner true).length - BATCH_SIZE ∧
      w'.recorded = w.recorded ∧ w'.live = w.live ∧ ∀ e ∈ w.spooled, e ∈ w'.spooled := by
  have hpass : step lib build w (.pass (some dest) true true) = some (pass w dest true true) := by
    simp only [step, hw, Option.isSome_none]
    rfl
  simp only [AppLogs.pass, if_neg hq] at hpass
  generalize w.takeUp dest.owner true = queue at hpass hq ⊢
  have hbatch : queue.take BATCH_SIZE ≠ [] := by simpa [BATCH_SIZE] using hq
  set v := (w.send dest queue).write dest.owner queue true
  have hv : v.process = (w.send dest queue).process := World.write_process ..
  have hsending : v.process.sending = some ⟨dest, queue.take BATCH_SIZE, false⟩ := by
    rw [hv]
    exact if_neg hbatch
  have harrives : step lib build v .arrives = some { v.store ⟨dest, queue.take BATCH_SIZE, false⟩ with
      process := { v.process with sending := some ⟨dest, queue.take BATCH_SIZE, true⟩ } } := by
    simp only [step, hsending]
  refine ⟨_, run_cons.2 ⟨_, hpass, run_cons.2 ⟨_, harrives, run_cons.2 ⟨_, rfl, rfl⟩⟩⟩, rfl, ?_, ?_,
    rfl, rfl, fun e he => ?_⟩
  · show v.process.restored = true
    rw [hv]; rfl
  · show (unsent v.process.queue _).length ≤ _
    rw [hv]
    exact length_unsent_le
  · exact List.mem_append_left _ (List.mem_append_left _ he)

/-- As many rounds as the queue has batches deliver everything that is not outnumbered. -/
theorem Sound.rounds (lib : Library) (build : Build) {dest : Destination} (n : Nat)
    (h : Sound dest.owner w) (hw : w.process.sending = none)
    (hn : (w.takeUp dest.owner true).length ≤ BATCH_SIZE * n) :
    ∃ m ≤ n, ∃ w', run (AppLogs.step lib build) w (rounds dest m) = some w' ∧
    w'.takeUp dest.owner true = [] ∧ w'.recorded = w.recorded ∧
      w'.live = w.live ∧ ∀ e ∈ w.spooled, e ∈ w'.spooled := by
  induction n generalizing w with
  | zero =>
    refine ⟨0, le_refl 0, w, rfl, List.length_eq_zero_iff.1 (by omega), rfl, rfl, fun e he => he⟩
  | succ n ih =>
    by_cases hq : w.takeUp dest.owner true = []
    · exact ⟨0, Nat.zero_le _, w, rfl, hq, rfl, rfl, fun e he => he⟩
    obtain ⟨v, hrun, hv, hr, hlen, hrec, hlive, hsp⟩ := round_run lib build hw hq
    have hs : Sound dest.owner v := (steady_rounds (n := 1)).inv (fun _ _ _ hg hs h => h.step hg hs)
      (by rw [AppLogs.rounds, AppLogs.rounds, List.append_nil]; exact hrun) h
    have hshort : (v.takeUp dest.owner true).length ≤ BATCH_SIZE * n := by
      rw [hs.takeUp_eq, hr, if_pos rfl]
      refine trim_sublist.length_le.trans ?_
      have hnil : trim QUEUE_SIZE ([] : List Entry) = [] := List.drop_nil
      rw [hnil, List.nil_append]
      rw [Nat.mul_succ] at hn
      omega
    obtain ⟨m, hm, u, hu, hnil, hrec', hlive', hsp'⟩ := ih hs hv hshort
    exact ⟨m + 1, Nat.succ_le_succ hm, u, run_append.2 ⟨v, hrun, hu⟩, hnil, hrec'.trans hrec,
      hlive'.trans hlive, fun e he => hsp' e (hsp e he)⟩

/-- From wherever such a run has come to, ten rounds at most deliver every entry that is not outnumbered. -/
theorem ten_rounds_deliver {pid : Nat} {ls : List Label} {dest : Destination}
    (hrun : run (step lib build) (.init pid) ls = some w)
    (hgood : Along (step lib build) (Steady lib build dest.owner) (.init pid) ls)
    (hw : w.process.sending = none) :
    ∃ m ≤ 10, ∃ w', run (step lib build) w (rounds dest m) = some w' ∧
      ∀ e, e ∈ w.live ∨ e ∈ w.spooled → w'.Delivered dest.owner e ∨ Outnumbered QUEUE_SIZE w.recorded e := by
  have h : Sound dest.owner w := hgood.inv (fun _ _ _ hg hs h => h.step hg hs) hrun .init
  have hn : (w.takeUp dest.owner true).length ≤ BATCH_SIZE * 10 := by rw [h.takeUp_eq]; exact length_trim_le
  obtain ⟨m, hm, w', hrun', hnil, hrec, hlive, hsp⟩ := h.rounds lib build 10 hw hn
  have h' : Sound dest.owner w' := steady_rounds.inv (fun _ _ _ hg hs h => h.step hg hs) hrun' h
  have hgone : ∀ e kept, w'.Promised dest.owner e kept →
      (kept → e ∈ w'.process.queue ∨ w'.process.restored = false ∧ e ∈ w'.saved) →
      w'.Delivered dest.owner e ∨ Outnumbered QUEUE_SIZE w.recorded e := by
    intro e kept hp hkept
    rcases hp with hp | hp | hp
    · rcases h'.takeUp (hkept hp) with he | hn
      · exact absurd (hnil ▸ he) List.not_mem_nil
      · exact .inr (hrec ▸ hn)
    · exact .inl hp
    · exact .inr (hrec ▸ hp)
  refine ⟨m, hm, w', hrun', ?_⟩
  rintro e (he | he)
  · exact hgone e _ (h'.live e (hlive ▸ he)) .inl
  · refine hgone e _ (h'.spooled e (hsp e he)) fun hk => ?_
    rcases hr : w'.process.restored with _ | _
    exacts [.inr ⟨rfl, hk.1⟩, .inl (hk.2 hr)]

theorem ten_rounds_deliver_outage : ∃ w, run (step JournalLogs.plainLibrary plainBuild)
    (.init 7) outage = some w ∧
    ∃ m ≤ 10, ∃ w', run (step JournalLogs.plainLibrary plainBuild) w (rounds oldHome m) = some w' ∧
      ∀ e, e ∈ w.live ∨ e ∈ w.spooled → w'.Delivered oldHome.owner e ∨
      Outnumbered QUEUE_SIZE w.recorded e := by
  have hany : (run (step JournalLogs.plainLibrary plainBuild) (.init 7) outage).any
      (·.process.sending.isNone) = true := by
    decide
  obtain ⟨w, hrun, hw⟩ := (Option.any_eq_true _ _).1 hany
  exact ⟨w, hrun, ten_rounds_deliver hrun (by decide) (Option.isNone_iff_eq_none.1 hw)⟩

end Kept

end AppLogs
