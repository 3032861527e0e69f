import BetterFrame.Server.IoBoxEvents

/-!
# The actions of an ioBOX input

An input may be acted on twice over: by the firmware, which asks the local kiosk for the layouts of
the mappings it was sent (`mappingMatchesEvent`, `runLocalMappings` in `main.cpp`), and by the server,
which takes an event posted with the route `proxy` to the kiosk of its display (`mappingMatches`,
`proxyIoBoxEventToKiosk` in `service-api-http/index.ts`). Both are run here on one event over one set
of stored mappings.
-/

namespace IoBoxMappings

open EventIntake IoBoxFirmware IoBoxEvents
open World (readBody readBody_documented hallBox)

/-- `SELECT * FROM iobox_input_mappings WHERE enabled = true AND (display_id = ? OR display_id IS NULL)` -/
def listIoBoxMappingsForDisplay (stored : List IoBoxInputMapping) (displayId : String) :
    List IoBoxInputMapping :=
  stored.filter fun m => m.enabled && (m.display_id = some displayId || m.display_id = none)

/-! ### The server's matcher -/

/-- `Object.entries` -/
def entries : Json → Members
  | .obj ms => ms
  | .arr xs => xs.zipIdx.map fun (x, i) => (toString i, x)
  | .str s => s.toList.zipIdx.map fun (c, i) => (toString i, .str (String.singleton c))
  | _ => []

/-- The object `mappingMatches` is called with, read by name; `none` is `undefined`. What an object
inherits prints as nothing, but for its prototype. -/
def eventMember (topic : Option Json) (e : IoBoxEvent) : String → Option Json
  | "topic" => topic
  | "kind" => some (.str e.kind)
  | "action" => some (Json.ofOption .str e.action)
  | "code" => some (Json.ofOption .str e.code)
  | "value" => some (Json.orElse e.value .null)
  | "payload" => some e.rowPayload
  | "__proto__" => some (.obj [])
  | _ => none

/-- The mapping's kind and every key it names agree with the event. -/
def mappingMatches (mapping : IoBoxInputMapping) (event : String → Option Json) : Bool :=
  mapping.source_kind = (Json.orElse (event "kind") (.str "")).stringOf &&
    (entries mapping.match_json).all fun kv => (event kv.1).map Json.stringify = some kv.2.stringify

/-- The object the handler makes of the body it accepted. -/
def ofBody (e : IoBoxEvent) : String → Option Json := eventMember (some (.str e.topic)) e

/-- The object the handler would make of a document's own members. -/
def ofDocument (box : IoBox) (j : Json) : String → Option Json :=
  eventMember (j.get? "topic") (documentBody box j)

/-! ### The server's proxy -/

/-- The mappings the kiosk runs as it is asked for one after another, up to the first request
without an answer. -/
def requestEach (reply : IoBoxInputMapping → Reply) : List IoBoxInputMapping → List IoBoxInputMapping
  | [] => []
  | m :: ms =>
    (if (reply m).performed then [m] else []) ++ if (reply m).answered then requestEach reply ms else []

/-- What the server reads as it handles an event. -/
structure Tables where
  mappings : List IoBoxInputMapping
  /-- The kiosk of a display. -/
  kioskOf : String → Option String

/-- The mappings the server executes for an event. -/
def proxyIoBoxEventToKiosk (t : Tables) (reply : IoBoxInputMapping → Reply) (ioBoxId displayId : String)
    (event : String → Option Json) : List IoBoxInputMapping :=
  match t.kioskOf displayId with
  | none => []
  | some _ => requestEach reply <| (listIoBoxMappingsForDisplay t.mappings displayId).filter fun m =>
      (m.iobox_id = none || m.iobox_id = some ioBoxId) && mappingMatches m event

/-- The mappings run by `POST /api/iobox/event`; `seen` is the answer of the dedup cache. -/
def postEvent (t : Tables) (validate : Validate) (seen : Bool) (reply : IoBoxInputMapping → Reply)
    (box : IoBox) (j : Json) : List IoBoxInputMapping :=
  match validate box j with
  | none => []
  | some e =>
    if seen ∨ e.route.getD box.route_mode ≠ "proxy" then []
    else
      match e.displayId with
      | none | some "" => []
      | some displayId => proxyIoBoxEventToKiosk t reply box.id displayId (ofBody e)

/-- `GET /api/iobox/config`, as `pullConfig` keeps it. `target` is the key and the address of the
display's kiosk, and empty where there is none. -/
def pulledConfig (stored : List IoBoxInputMapping) (box : IoBox) (target : String × String) : Config :=
  match box.assigned_display_id with
  | none | some "" => ⟨"", "", "", []⟩
  | some displayId => ⟨displayId, target.1, target.2, listIoBoxMappingsForDisplay stored displayId⟩

/-! ### One event -/

/-- An event, and everything that decides what comes of it. -/
structure Occasion where
  tables : Tables
  box : IoBox
  target : String × String
  localKioskReachable : Bool
  eventSeq : UInt32
  millis : UInt32
  kind : String
  payload : Members
  network : Network
  /-- The server's requests to the kiosk. -/
  control : IoBoxInputMapping → Reply
  seen : Bool

namespace Occasion

variable (serializeJson : Json → String) (validate : Validate)

def config (c : Occasion) : Config := pulledConfig c.tables.mappings c.box c.target

def device (c : Occasion) : Device :=
  { Device.boot c.box.serial with
    config := c.config
    localKioskReachable := c.localKioskReachable
    eventSeq := c.eventSeq }

def emission (c : Occasion) : Emission :=
  c.device.emitIoEvent serializeJson c.network c.millis c.kind c.payload

/-- The document the device matches its mappings against. -/
def event (c : Occasion) : Members :=
  eventDocument c.box.serial c.config.assignedDisplayId (c.eventSeq + 1) c.millis c.kind c.payload

/-- The mappings that were run, on the device and then on the server. -/
def performed (c : Occasion) : List IoBoxInputMapping :=
  (c.emission serializeJson).performed ++
    if c.network.delivered then
      postEvent c.tables validate c.seen c.control c.box (.obj (c.emission serializeJson).document)
    else []

/-- The mapping is enabled and of the display the ioBOX is assigned to. -/
def ofDisplay (c : Occasion) (m : IoBoxInputMapping) : Bool :=
  match c.box.assigned_display_id with
  | none | some "" => false
  | some displayId => m.enabled && (m.display_id = some displayId || m.display_id = none)

/-- The mapping names this ioBOX or none. -/
def names (c : Occasion) (m : IoBoxInputMapping) : Bool := m.iobox_id = none || m.iobox_id = some c.box.id

/-- What the device compares with the value of a key. -/
def deviceReads (c : Occasion) : String → Json
  | "event_id" => .str (eventId c.box.serial (c.eventSeq + 1))
  | "kind" => .str c.kind
  | "display_id" => .str c.config.assignedDisplayId
  | "occurred_at_ms" => Json.ofInt c.millis.toNat
  | "payload" => .obj c.payload
  | key => (Json.get? key (.obj c.payload)).getD .null

/-- A text of the payload, and null where it has none. -/
def textOfPayload (c : Occasion) (key : String) : Json :=
  match Json.get? key (.obj c.payload) with
  | some (.str s) => .str s
  | _ => .null

/-- What the server compares with the value of a key; the payload is the one its row gets. -/
def serverReads (c : Occasion) : String → Option Json
  | "kind" => some (.str c.kind)
  | "action" => some (c.textOfPayload "action")
  | "code" => some (c.textOfPayload "code")
  | "value" => some ((Json.get? "value" (.obj c.payload)).getD .null)
  | "payload" => some (documentBody c.box (.obj (c.emission serializeJson).document)).rowPayload
  | "__proto__" => some (.obj [])
  | _ => none

/-- The mappings of the display that match are run on the local kiosk if they name this ioBOX or
none, and otherwise are not. -/
def Served (c : Occasion) : Prop :=
  ∀ m ∈ c.tables.mappings, c.ofDisplay m → m.source_kind = c.kind →
    (∀ kv ∈ asObject m.match_json, serializeJson (c.deviceReads kv.1) = serializeJson kv.2) →
    (c.names m ↔ c.localKioskReachable ∧ (c.config.localLayout m).isSome ∧ (c.network.layout m).performed)

variable {serializeJson validate} {c : Occasion} {m : IoBoxInputMapping} {key : String}

/-- The members of what is posted that the server matches against. -/
theorem get?_document (hkey : key ≠ "local_handled" ∧ key ≠ "route") :
    Json.get? key (.obj (c.emission serializeJson).document) = Json.get? key (.obj c.event) :=
  Device.get?_emitIoEvent hkey

theorem kind_document : textAt (.obj (c.emission serializeJson).document) "kind" = some c.kind := by
  rw [textAt, get?_document (by decide), event, get?_eventDocument_own (by decide)]
  rfl

theorem text_document (hkey : key = "action" ∨ key = "code") :
    Json.ofOption .str (textAt (.obj (c.emission serializeJson).document) key) = c.textOfPayload key := by
  have hne : key ≠ "local_handled" ∧ key ≠ "route" := by rcases hkey with rfl | rfl <;> decide
  rw [textAt, get?_document hne, event, get?_eventDocument_text hkey, textOfPayload]
  rcases Json.get? key (.obj c.payload) with _ | v
  · rfl
  · cases v <;> rfl

theorem value_document : Json.orElse (Json.get? "value" (.obj (c.emission serializeJson).document)) .null =
    (Json.get? "value" (.obj c.payload)).getD .null := by
  rw [get?_document (by decide), event, get?_eventDocument_value]
  rcases Json.get? "value" (.obj c.payload) with _ | v
  · rfl
  · cases v <;> rfl

theorem ofDocument_document : ofDocument c.box (.obj (c.emission serializeJson).document) key =
    c.serverReads serializeJson key := by
  simp only [ofDocument, eventMember, serverReads]
  split
  · rw [get?_document (by decide), event, eventDocument_topic]
    rfl
  · simp only [documentBody, kind_document, Option.getD_some]
  · simp only [documentBody, text_document (.inl rfl)]
  · simp only [documentBody, text_document (.inr rfl)]
  · simp only [documentBody, value_document]
  · rfl
  · rfl
  · split <;> first | rfl | contradiction

theorem matches_iff : mappingMatches m (ofDocument c.box (.obj (c.emission serializeJson).document)) ↔
    m.source_kind = c.kind ∧ ∀ kv ∈ entries m.match_json, c.serverReads serializeJson kv.1 = some kv.2 := by
  have hread : ∀ kv : String × Json,
    ((c.serverReads serializeJson kv.1).map Json.stringify = some kv.2.stringify) ↔
      c.serverReads serializeJson kv.1 = some kv.2 := by
    intro kv
    rw [← Option.map_some, (Option.map_injective Json.stringify_injective).eq_iff]
  have hkind : (Json.orElse (c.serverReads serializeJson "kind") (.str "")).stringOf = c.kind := rfl
  simp only [mappingMatches, ofDocument_document, hkind, hread, Bool.and_eq_true, decide_eq_true_eq,
    List.all_eq_true]

end Occasion

end IoBoxMappings
