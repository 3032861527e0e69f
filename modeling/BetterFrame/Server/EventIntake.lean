import BetterFrame.Lib.Json
import BetterFrame.Lib.OrdMap
import BetterFrame.Lib.Run

/-!
# Event intake of the HTTP API

`POST /api/kiosk/event` and `POST /api/iobox/event` (`service-api-http/index.ts`). Both handlers look
a dedup key up in a cache of the process, put the key there, and only then await the insert into
`event_log`, which may fail; the kiosk handler tries once more without the camera when the insert
broke a foreign key. A handler runs without a break from `Date.now()` to the `await` of its insert,
so requests interleave at the inserts and at the answers: those are the steps of `Intake.step`.
-/

namespace EventIntake

/-- The two routes that events come in by. -/
inductive Route where
  | kiosk
  | iobox
deriving DecidableEq

/-- The authenticated kiosk's id and the validated body of `POST /api/kiosk/event`. -/
structure KioskEvent where
  kiosk_id : String
  topic : String
  source_type : String
  camera_id : Option String
  property_op : Option String
  payload : Json

/-- What the ioBOX handler reads of the ioBOX's row. -/
structure IoBox where
  id : String
  serial : String
  assigned_display_id : Option String
  route_mode : String

/-- The validated body of `POST /api/iobox/event`, with the ioBOX that sent it. -/
structure IoBoxEvent where
  box : IoBox
  event_id : Option String
  topic : String
  kind : String
  action : Option String
  code : Option String
  value : Option Json
  display_id : Option String
  payload : Json
  route : Option String

/-- The argument of `repo.insertEvent`. -/
structure EventInput where
  source_kiosk_id : Option String
  source_camera_id : Option String
  source_iobox_id : Option String
  ingress_path : String
  source_type : String
  topic : String
  property_op : Option String
  payload : Json
  forwarded_to_nodered : Bool

/-- Events of the same kiosk, camera, topic and source count as repeated. -/
def KioskEvent.dedupKey (e : KioskEvent) : String :=
  e.kiosk_id ++ ":" ++ e.camera_id.getD "0" ++ ":" ++ e.topic ++ ":" ++
    (Json.orElse (e.payload.get? "source") (.str "")).stringify

/-- The row the kiosk handler inserts, with the camera or, after a foreign-key failure, without it. -/
def KioskEvent.input (e : KioskEvent) (withCamera : Bool) : EventInput where
  source_kiosk_id := some e.kiosk_id
  source_camera_id := if withCamera then e.camera_id else none
  source_iobox_id := none
  ingress_path := "/api/kiosk/event"
  source_type := e.source_type
  topic := e.topic
  property_op := e.property_op
  payload := e.payload
  forwarded_to_nodered := false

/-- An ioBOX event is deduplicated only when it carries a non-empty event id. -/
def IoBoxEvent.dedupKey (e : IoBoxEvent) : Option String :=
  match e.event_id with
  | none => none
  | some id => if id = "" then none else some (e.box.id ++ ":" ++ id)

/-- The display of the event, or else the one the box is assigned to. -/
def IoBoxEvent.displayId (e : IoBoxEvent) : Option String := e.display_id <|> e.box.assigned_display_id

/-- The payload as it is stored. -/
def IoBoxEvent.rowPayload (e : IoBoxEvent) : Json :=
  .obj <| [("event_id", Json.ofOption .str e.event_id), ("iobox_id", .str e.box.id),
    ("serial", .str e.box.serial), ("display_id", Json.ofOption .str e.displayId), ("kind", .str e.kind),
    ("action", Json.ofOption .str e.action), ("code", Json.ofOption .str e.code),
    ("value", Json.orElse e.value .null), ("route", .str (e.route.getD e.box.route_mode))].foldl
    (fun ms p => Json.assign ms p.1 p.2) e.payload.spread

def IoBoxEvent.input (e : IoBoxEvent) : EventInput where
  source_kiosk_id := none
  source_camera_id := none
  source_iobox_id := some e.box.id
  ingress_path := "/api/iobox/event"
  source_type := "io"
  topic := e.topic
  property_op := e.action
  payload := e.rowPayload
  forwarded_to_nodered := false

/-- An event, with what its route reads of it. -/
inductive Event where
  | kiosk (e : KioskEvent)
  | iobox (e : IoBoxEvent)

namespace Event

def route : Event → Route
  | .kiosk _ => .kiosk
  | .iobox _ => .iobox

def dedupKey : Event → Option String
  | .kiosk e => some e.dedupKey
  | .iobox e => e.dedupKey

def input : Event → Bool → EventInput
  | .kiosk e, withCamera => e.input withCamera
  | .iobox e, _ => e.input

end Event

/-! ### The caches -/

abbrev DedupCache := OrdMap String Nat

/-- How long a key counts as seen, in ms. -/
def Route.window : Route → Nat
  | .kiosk => 2000
  | .iobox => 60000

/-- How old an entry is when a trim drops it, in ms. -/
def Route.trimAge : Route → Nat
  | .kiosk => 5000
  | .iobox => 120000

/-- Whether the key was seen within the window. The ioBOX handler tests `lastSeen` for truth, so an
entry of time 0 is no entry. -/
def Route.seen (route : Route) (cache : DedupCache) (key : String) (now : Nat) : Bool :=
  match route, cache.get? key with
  | _, none => false
  | .kiosk, some lastSeen => now - lastSeen < route.window
  | .iobox, some lastSeen => lastSeen ≠ 0 && now - lastSeen < route.window

/-- Puts the key into the cache, and drops the old entries once there are more than 10 000. -/
def Route.remember (route : Route) (cache : DedupCache) (key : String) (now : Nat) : DedupCache :=
  let cache := cache.set key now
  if 10000 < cache.size then cache.filter fun _ ts => now ≤ ts + route.trimAge else cache

theorem Route.seen_elim {route : Route} {cache : DedupCache} {key : String} {now : Nat}
    (h : route.seen cache key now) : ∃ lastSeen, cache.get? key = some lastSeen ∧
    now - lastSeen < route.window := by
  rcases hc : cache.get? key with _ | lastSeen
  · simp [seen, hc] at h
  · refine ⟨lastSeen, rfl, ?_⟩
    cases route <;> simp_all [seen]

theorem Route.remember_elim {route : Route} {cache : DedupCache} {key k : String} {now t : Nat}
    (h : (route.remember cache key now).get? k = some t) : k = key ∧ t = now ∨ cache.get? k = some t := by
  have hset : (cache.set key now).get? k = some t := by
    unfold remember at h
    dsimp only at h
    split at h
    · exact (OrdMap.get?_filter.1 h).1
    · exact h
  rw [OrdMap.get?_set] at hset
  split at hset
  · next hk => exact .inl ⟨hk, (Option.some.inj hset).symm⟩
  · exact .inr hset

/-! ### Requests and rows -/

/-- Where the handler of a request stands. -/
inductive Phase where
  /-- It awaits `repo.insertEvent`. -/
  | inserting
  /-- It awaits the second insert, without the camera. -/
  | retrying
  /-- Its row is in and it goes on to the answer. -/
  | stored (event_id : Nat)
  /-- Answered `{ ok: true, event_id }`. -/
  | answered (event_id : Nat)
  /-- Answered `{ ok: true, event_id: null, deduplicated: true }`. -/
  | deduplicated
  /-- It threw, or the process died under it. -/
  | failed
deriving DecidableEq

/-- The answer is positive. -/
def Phase.ok : Phase → Bool
  | .answered _ | .deduplicated => true
  | _ => false

/-- A request with an event, and how far it is. -/
structure Request where
  id : Nat
  event : Event
  /-- What `Date.now()` said in the handler. -/
  received : Nat
  /-- The process start the handler ran under. -/
  boot : Nat
  phase : Phase

/-- A row of `event_log`, with the request that inserted it. -/
structure EventLog where
  id : Nat
  request : Nat
  input : EventInput

/-- The caches of the process, the requests and the stored events. -/
structure Intake where
  now : Nat
  boot : Nat
  eventDedupCache : DedupCache
  ioBoxEventDedupCache : DedupCache
  requests : List Request
  event_log : List EventLog

namespace Intake

def init (now : Nat) : Intake := ⟨now, 0, .empty, .empty, [], []⟩

def cache (s : Intake) : Route → DedupCache
  | .kiosk => s.eventDedupCache
  | .iobox => s.ioBoxEventDedupCache

def setCache (s : Intake) (cache : DedupCache) : Route → Intake
  | .kiosk => { s with eventDedupCache := cache }
  | .iobox => { s with ioBoxEventDedupCache := cache }

def addRequest (s : Intake) (e : Event) (phase : Phase) : Intake :=
  { s with requests := s.requests ++ [⟨s.requests.length, e, s.now, s.boot, phase⟩] }

def setPhase (s : Intake) (i : Nat) (phase : Phase) : Intake :=
  { s with requests := s.requests.map fun q => if q.id = i then { q with phase } else q }

def find? (s : Intake) (i : Nat) : Option Request := s.requests.find? fun q => q.id = i

/-- A handler from `Date.now()` to its insert. -/
def post (s : Intake) (e : Event) : Intake :=
  match e.dedupKey with
  | none => s.addRequest e .inserting
  | some key =>
    if e.route.seen (s.cache e.route) key s.now then s.addRequest e .deduplicated
    else (s.setCache (e.route.remember (s.cache e.route) key s.now) e.route).addRequest e .inserting

/-- How the database answers an insert. -/
inductive InsertResult where
  | ok
  | error (code : String)

/-- The insert is carried out. -/
def insertRow (s : Intake) (q : Request) (withCamera : Bool) : Intake :=
  let row : EventLog := ⟨s.event_log.length, q.id, q.event.input withCamera⟩
  setPhase { s with event_log := s.event_log ++ [row] } q.id (.stored row.id)

/-- The insert a handler awaits comes back. -/
def insertDone (s : Intake) (q : Request) : InsertResult → Option Intake
  | .ok =>
    match q.phase with
    | .inserting => some (s.insertRow q true)
    | .retrying => some (s.insertRow q false)
    | _ => none
  | .error code =>
    match q.phase, q.event with
    | .inserting, .kiosk _ => some (s.setPhase q.id (if code = "23503" then .retrying else .failed))
    | .inserting, .iobox _ | .retrying, _ => some (s.setPhase q.id .failed)
    | _, _ => none

/-- A handler whose row is in answers, unless what it does before the answer throws. -/
def finish (s : Intake) (q : Request) (thrown : Bool) : Option Intake :=
  match q.phase with
  | .stored event_id => some (s.setPhase q.id (if thrown then .failed else .answered event_id))
  | _ => none

/-- The process dies with the handlers it was running, and starts again with empty caches. -/
def restart (s : Intake) : Intake :=
  { s with
    boot := s.boot + 1
    eventDedupCache := .empty
    ioBoxEventDedupCache := .empty
    requests := s.requests.map fun q => if q.phase.ok then q else { q with phase := .failed } }

/-- Time passes, an event is posted, a request goes on, or the server restarts. -/
inductive Step where
  | elapse (ms : Nat)
  | post (e : Event)
  | insertDone (i : Nat) (r : InsertResult)
  | finish (i : Nat) (thrown : Bool)
  | restart

def step (s : Intake) : Step → Option Intake
  | .elapse ms => some { s with now := s.now + ms }
  | .post e => some (s.post e)
  | .insertDone i r => (s.find? i).bind fun q => s.insertDone q r
  | .finish i thrown => (s.find? i).bind fun q => s.finish q thrown
  | .restart => some s.restart

/-! ### What an answer promises -/

/-- The request `i` has a row. -/
def Stored (s : Intake) (i : Nat) : Prop := ∃ row ∈ s.event_log, row.request = i

instance {s : Intake} {i : Nat} : Decidable (s.Stored i) := inferInstanceAs (Decidable (∃ row ∈ _, _))

end Intake

/-- `q` is `r`, or has the dedup key of `r`, and came within the window that ends as `r` comes. -/
def Request.Covers (q r : Request) : Prop :=
  (q.id = r.id ∨ q.event.route = r.event.route ∧ q.event.dedupKey = r.event.dedupKey ∧
    r.event.dedupKey.isSome) ∧
    q.received ≤ r.received ∧ r.received - q.received < r.event.route.window

namespace Intake

/-- Every request answered ok is covered by one that has a row. -/
def AckedStored (s : Intake) : Prop :=
  ∀ r ∈ s.requests, r.phase.ok → ∃ q ∈ s.requests, q.Covers r ∧ s.Stored q.id

/-- `q` has the dedup key of `e` and its window is still open. -/
def Recent (s : Intake) (e : Event) (q : Request) : Prop :=
  q.event.route = e.route ∧ q.event.dedupKey = e.dedupKey ∧ e.dedupKey.isSome ∧
    s.now - q.received < e.route.window

instance {s : Intake} {e : Event} {q : Request} : Decidable (s.Recent e q) :=
  inferInstanceAs (Decidable (_ ∧ _))

/-- No request comes while, under its key, this process has an attempt in the window whose insert
failed or is still running, and none that is stored. -/
def AfterStored (s : Intake) : Step → Prop
  | .post e =>
    (∃ q ∈ s.requests, s.Recent e q ∧ q.boot = s.boot ∧ q.phase ≠ .deduplicated ∧ ¬ s.Stored q.id) →
      ∃ q ∈ s.requests, s.Recent e q ∧ s.Stored q.id
  | _ => True

instance {s : Intake} : ∀ l, Decidable (s.AfterStored l)
  | .post _ => inferInstanceAs (Decidable (_ → _))
  | .elapse _ | .insertDone _ _ | .finish _ _ | .restart => .isTrue trivial

/-- What holds in every state of a run of `AfterStored` steps. -/
structure Inv (s : Intake) : Prop where
  ids : ∀ q ∈ s.requests, ∀ r ∈ s.requests, q.id = r.id → q = r
  fresh : ∀ q ∈ s.requests, q.id < s.requests.length
  past : ∀ q ∈ s.requests, q.received ≤ s.now
  /-- A cache entry was made by an attempt of this process. -/
  cached : ∀ route k t, (s.cache route).get? k = some t → ∃ q ∈ s.requests, q.event.route = route ∧
    q.event.dedupKey = some k ∧ q.received = t ∧ q.boot = s.boot ∧ q.phase ≠ .deduplicated
  rows : ∀ q ∈ s.requests, ∀ id, q.phase = .stored id ∨ q.phase = .answered id → s.Stored q.id
  acked : s.AckedStored

theorem inv_init (now : Nat) : (init now).Inv where
  ids := by simp [init]
  fresh := by simp [init]
  past := by simp [init]
  cached := by intro route; cases route <;> simp [init, cache]
  rows := by simp [init]
  acked := by simp [init, AckedStored]

section Preservation

variable {s : Intake} {q r : Request} {i : Nat} {p : Phase} {e : Event}

theorem find?_some (h : s.find? i = some q) : q ∈ s.requests ∧ q.id = i :=
  ⟨List.mem_of_find?_eq_some h, by simpa using List.find?_some h⟩

/-- Requests whose phases change under `f`, where `f` changes nothing else, makes no request
deduplicated, and makes no request stored or answered that has no row. -/
theorem Inv.map {f : Request → Request} {boot : Nat} {k i : DedupCache} (h : s.Inv)
    (hid : ∀ q ∈ s.requests, (f q).id = q.id ∧ (f q).event = q.event ∧ (f q).received = q.received ∧
      (f q).boot = q.boot)
    (hdedup : ∀ q ∈ s.requests, (f q).phase = .deduplicated ↔ q.phase = .deduplicated)
    (hrow : ∀ q ∈ s.requests, ∀ id, (f q).phase = .stored id ∨ (f q).phase = .answered id → s.Stored q.id)
    (hcache : boot = s.boot ∧ k = s.eventDedupCache ∧ i = s.ioBoxEventDedupCache ∨ k = .empty ∧ i = .empty) :
    Inv { s with boot, eventDedupCache := k, ioBoxEventDedupCache := i, requests := s.requests.map f } where
  ids := by
    simp only [List.mem_map]
    rintro _ ⟨q, hq, rfl⟩ _ ⟨r, hr, rfl⟩ heq
    rw [(hid q hq).1, (hid r hr).1] at heq
    rw [h.ids q hq r hr heq]
  fresh := by
    simp only [List.mem_map, List.length_map]
    rintro _ ⟨q, hq, rfl⟩
    exact (hid q hq).1 ▸ h.fresh q hq
  past := by
    simp only [List.mem_map]
    rintro _ ⟨q, hq, rfl⟩
    exact (hid q hq).2.2.1 ▸ h.past q hq
  cached := by
    rcases hcache with ⟨rfl, rfl, rfl⟩ | ⟨rfl, rfl⟩
    · intro route key t ht
      obtain ⟨q, hq, h1, h2, h3, h4, h5⟩ := h.cached route key t (by cases route <;> exact ht)
      obtain ⟨-, e2, e3, e4⟩ := hid q hq
      exact ⟨f q, List.mem_map_of_mem hq, e2 ▸ h1, e2 ▸ h2, e3 ▸ h3, e4 ▸ h4, (not_congr (hdedup q hq)).2 h5⟩
    · intro route key t ht
      cases route <;> simp [cache] at ht
  rows := by
    simp only [List.mem_map]
    rintro _ ⟨q, hq, rfl⟩ id hp
    exact (hid q hq).1 ▸ hrow q hq id hp
  acked := by
    intro r hr hok
    obtain ⟨q, hq, rfl⟩ := List.mem_map.1 hr
    obtain ⟨e1, e2, e3, -⟩ := hid q hq
    -- an answer of the new state is an answer of the old one, or has a row of its own
    by_cases hd : q.phase = .deduplicated
    · obtain ⟨q', hq', hc, hs⟩ := h.acked q hq (by simp [hd, Phase.ok])
      obtain ⟨d1, d2, d3, -⟩ := hid q' hq'
      refine ⟨f q', List.mem_map_of_mem hq', ?_, d1 ▸ hs⟩
      simpa only [Request.Covers, d1, d2, d3, e1, e2, e3] using hc
    · have hs : s.Stored q.id := by
        rcases hp : (f q).phase with _ | _ | id | id | _ | _
        all_goals simp only [hp, Phase.ok, Bool.false_eq_true] at hok
        · exact hrow q hq id (.inr hp)
        · exact absurd ((hdedup q hq).1 hp) hd
      refine ⟨f q, hr, ⟨.inl rfl, le_rfl, ?_⟩, e1 ▸ hs⟩
      rw [Nat.sub_self]
      cases (f q).event.route <;> decide

theorem Inv.setPhase (h : s.Inv) (hq : q ∈ s.requests) (hd : q.phase ≠ .deduplicated) (hp : p ≠ .deduplicated)
    (hrow : ∀ id, p = .stored id ∨ p = .answered id → s.Stored q.id) : (s.setPhase q.id p).Inv := by
  refine h.map (f := fun r => if r.id = q.id then { r with phase := p }
    else r) (fun r _ => ?_) (fun r hr => ?_)
    (fun r hr id hid => ?_) (.inl ⟨rfl, rfl, rfl⟩)
  · split <;> exact ⟨rfl, rfl, rfl, rfl⟩
  · split
    · next hi => exact iff_of_false hp (h.ids r hr q hq hi ▸ hd)
    · rfl
  · split at hid
    · next hi => exact hi ▸ hrow id hid
    · exact h.rows r hr id hid

theorem Inv.addRow (h : s.Inv) (row : EventLog) : Inv { s with event_log := s.event_log ++ [row] } := by
  have hs : ∀ {i}, s.Stored i → Stored { s with event_log := s.event_log ++ [row] } i :=
    fun ⟨row, hrow, hi⟩ => ⟨row, List.mem_append_left _ hrow, hi⟩
  exact ⟨h.ids, h.fresh, h.past, fun route => by simpa [cache] using h.cached route,
    fun q hq id hp => hs (h.rows q hq id hp),
    fun r hr hok => have ⟨q, hq, hc, hst⟩ := h.acked r hr hok; ⟨q, hq, hc, hs hst⟩⟩

/-- A request joins; the caches may gain the entry it makes. -/
theorem Inv.addRequest {c : Route → DedupCache} (h : s.Inv)
    (hc : ∀ route k t, (c route).get? k = some t → (s.cache route).get? k = some t ∨
      route = e.route ∧ e.dedupKey = some k ∧ t = s.now ∧ p ≠ .deduplicated)
    (hp : ∀ id, p ≠ .stored id ∧ p ≠ .answered id)
    (hd : p = .deduplicated → ∃ q ∈ s.requests, s.Recent e q ∧ s.Stored q.id) :
    ((({ s with eventDedupCache := c .kiosk, ioBoxEventDedupCache := c .iobox } : Intake).addRequest
      e p)).Inv := by
  have hmem : ∀ {r : Request}, r ∈ s.requests ++ [⟨s.requests.length, e, s.now, s.boot, p⟩] ↔
      r ∈ s.requests ∨ r = ⟨s.requests.length, e, s.now, s.boot, p⟩ := by simp
  refine ⟨?_, ?_, ?_, fun route k t hk => ?_, ?_, ?_⟩
  · rintro q hq r hr heq
    rcases hmem.1 hq with hq | rfl <;> rcases hmem.1 hr with hr | rfl
    · exact h.ids q hq r hr heq
    · exact absurd heq (Nat.ne_of_lt (h.fresh q hq))
    · exact absurd heq.symm (Nat.ne_of_lt (h.fresh r hr))
    · rfl
  · intro q hq
    rw [show (_ : List Request).length = s.requests.length + 1 from List.length_append]
    rcases hmem.1 hq with hq | rfl
    · exact Nat.lt_succ_of_lt (h.fresh q hq)
    · exact Nat.lt_succ_self _
  · intro q hq
    rcases hmem.1 hq with hq | rfl
    · exact h.past q hq
    · exact le_rfl
  · have hk : (c route).get? k = some t := by cases route <;> exact hk
    rcases hc route k t hk with hk | ⟨rfl, hkey, rfl, hne⟩
    · obtain ⟨q, hq, hrest⟩ := h.cached route k t hk
      exact ⟨q, hmem.2 (.inl hq), hrest⟩
    · exact ⟨_, hmem.2 (.inr rfl), rfl, hkey, rfl, rfl, hne⟩
  · intro q hq id hid
    rcases hmem.1 hq with hq | rfl
    · exact h.rows q hq id hid
    · exact absurd hid (not_or.2 (hp id))
  · intro r hr hok
    rcases hmem.1 hr with hr | rfl
    · obtain ⟨q, hq, hcov, hs⟩ := h.acked r hr hok
      exact ⟨q, hmem.2 (.inl hq), hcov, hs⟩
    · have hpd : p = .deduplicated := by
        rcases p with _ | _ | id | id | _ | _
        all_goals simp only [Phase.ok, Bool.false_eq_true] at hok
        · exact absurd rfl (hp id).2
        · rfl
      obtain ⟨q, hq, ⟨h1, h2, h3, h4⟩, hs⟩ := hd hpd
      exact ⟨q, hmem.2 (.inl hq), ⟨.inr ⟨h1, h2, h3⟩, h.past q hq, h4⟩, hs⟩

theorem Inv.post (h : s.Inv) (hg : s.AfterStored (.post e)) : (s.post e).Inv := by
  unfold Intake.post
  rcases hkey : e.dedupKey with _ | key
  · exact h.addRequest (c := s.cache) (fun _ _ _ hk => .inl hk) (by simp) (by simp)
  dsimp only
  split_ifs with hseen
  · refine h.addRequest (c := s.cache) (fun _ _ _ hk => .inl hk) (by simp) fun _ => ?_
    obtain ⟨t, ht, hwin⟩ := Route.seen_elim hseen
    obtain ⟨q, hq, h1, h2, h3, h4, h5⟩ := h.cached _ _ _ ht
    have hrec : s.Recent e q := ⟨h1, h2.trans hkey.symm, by simp [hkey], h3 ▸ hwin⟩
    by_cases hst : s.Stored q.id
    · exact ⟨q, hq, hrec, hst⟩
    · exact hg ⟨q, hq, hrec, h4, h5, hst⟩
  · have := h.addRequest (p := .inserting) (e := e)
      (c := fun route => if route = e.route then route.remember (s.cache route) key s.now else s.cache route)
      (fun route k t hk => ?_) (by simp) (by simp)
    · rcases hr : e.route <;> simpa [hr, setCache, cache] using this
    · split at hk
      · next hr =>
        rcases Route.remember_elim hk with ⟨rfl, rfl⟩ | hk
        · exact .inr ⟨hr, hkey, rfl, by simp⟩
        · exact .inl hk
      · exact .inl hk

theorem Inv.insertRow {c : Bool} (h : s.Inv) (hq : q ∈ s.requests) (hd : q.phase ≠ .deduplicated) :
    (s.insertRow q c).Inv :=
  (h.addRow _).setPhase hq hd (by simp) fun _ _ =>
    ⟨_, List.mem_append_right _ (List.mem_singleton.2 rfl), rfl⟩

theorem Inv.insertDone {s' : Intake} {res : InsertResult} (h : s.Inv) (hq : q ∈ s.requests)
    (hs : s.insertDone q res = some s') : s'.Inv := by
  have hset : ∀ p, (p = Phase.retrying ∨ p = Phase.failed) → q.phase ≠ .deduplicated →
      (s.setPhase q.id p).Inv :=
    fun p hp hd => h.setPhase hq hd (by rcases hp with rfl | rfl <;> simp)
      fun id hid => by rcases hp with rfl | rfl <;> simp at hid
  cases res with
  | ok =>
    simp only [Intake.insertDone] at hs
    split at hs
    · next hp => exact Option.some.inj hs ▸ h.insertRow hq (by simp [hp])
    · next hp => exact Option.some.inj hs ▸ h.insertRow hq (by simp [hp])
    · cases hs
  | error code =>
    simp only [Intake.insertDone] at hs
    split at hs
    · next hp _ =>
      refine Option.some.inj hs ▸ hset _ ?_ (by simp [hp])
      split <;> simp
    · next hp _ => exact Option.some.inj hs ▸ hset _ (.inr rfl) (by simp [hp])
    · next hp => exact Option.some.inj hs ▸ hset _ (.inr rfl) (by simp [hp])
    · cases hs

theorem Inv.finish {s' : Intake} {thrown : Bool} (h : s.Inv) (hq : q ∈ s.requests)
    (hs : s.finish q thrown = some s') : s'.Inv := by
  unfold Intake.finish at hs
  split at hs
  · next id hp =>
    refine Option.some.inj hs ▸ h.setPhase hq (by simp [hp]) (by split <;> simp) fun _ _ =>
      h.rows q hq id (.inl hp)
  · cases hs

theorem Inv.restart (h : s.Inv) : s.restart.Inv := by
  refine h.map (fun q _ => ?_) (fun q _ => ?_) (fun q hq id hp => ?_) (.inr ⟨rfl, rfl⟩)
  · split <;> exact ⟨rfl, rfl, rfl, rfl⟩
  · rcases hp : q.phase with _ | _ | _ | _ | _ | _ <;> simp [Phase.ok, hp]
  · split at hp
    · exact h.rows q hq id hp
    · simp at hp

theorem Inv.step {s' : Intake} {l : Step} (h : s.Inv) (hg : s.AfterStored l) (hs : s.step l = some s') :
    s'.Inv := by
  cases l with
  | elapse ms =>
    cases hs
    exact ⟨h.ids, h.fresh, fun q hq => (h.past q hq).trans (Nat.le_add_right _ _),
      fun route => h.cached route, h.rows, h.acked⟩
  | post e => exact Option.some.inj hs ▸ h.post hg
  | insertDone i res =>
    obtain ⟨q, hq, hs⟩ := Option.bind_eq_some_iff.1 hs
    exact h.insertDone (find?_some hq).1 hs
  | finish i thrown =>
    obtain ⟨q, hq, hs⟩ := Option.bind_eq_some_iff.1 hs
    exact h.finish (find?_some hq).1 hs
  | restart => exact Option.some.inj hs ▸ h.restart

end Preservation

/-- A run whose requests never meet an unstored attempt acknowledges stored events only. -/
theorem acknowledged_stored {now : Nat} {ls : List Step} {s : Intake}
    (hr : Machine.run step (init now) ls = some s) (hg : Machine.Along step AfterStored (init now) ls) :
    s.AckedStored :=
  (hg.inv (fun _ _ _ hg hs h => h.step hg hs) hr (inv_init now)).acked

/-- A kiosk event whose source type the table's check constraint refuses. -/
def doorEvent : Event := .kiosk
  { kiosk_id := "k1", topic := "door", source_type := "motion", camera_id := none, property_op := none,
    payload := .obj [] }

/-- The insert fails; the device tries again once the window has passed, and a duplicate follows. -/
def lateRetry : List Step :=
  [.post doorEvent, .insertDone 0 (.error "23514"), .elapse 2000, .post doorEvent, .insertDone 1 .ok,
    .finish 1 false, .elapse 500, .post doorEvent]

theorem acknowledged_stored_lateRetry : ∃ s, Machine.run step (init 1000) lateRetry = some s ∧
    s.AckedStored :=
  have ⟨s, hs⟩ := Option.isSome_iff_exists.1 (by decide : (Machine.run step (init 1000) lateRetry).isSome)
  ⟨s, hs, acknowledged_stored hs (by decide)⟩

/-- The insert fails, and the retry half a second later is acknowledged as a duplicate of it. -/
theorem retry_of_failed_insert_dropped : ¬ ∀ now ls s,
    Machine.run step (init now) ls = some s → s.AckedStored := by
  intro h
  have hrun : (Machine.run step (init 1000) [.post doorEvent, .insertDone 0 (.error "23514"), .elapse 500,
      .post doorEvent]).map (fun s => (s.event_log.length, s.requests.map (·.phase))) =
        some (0, [.failed, .deduplicated]) := by decide
  obtain ⟨s, hs, hs'⟩ := Option.map_eq_some_iff.1 hrun
  obtain ⟨hlog, hphase⟩ := Prod.mk.inj hs'
  obtain ⟨r, hr, hrp⟩ := List.mem_map.1 (hphase ▸ (by simp) : Phase.deduplicated ∈ s.requests.map (·.phase))
  obtain ⟨q, -, -, row, hrow, -⟩ := h _ _ s hs r hr (by rw [hrp]; rfl)
  rw [List.length_eq_zero_iff.1 hlog] at hrow
  cases hrow

end Intake

end EventIntake
