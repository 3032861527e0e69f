import BetterFrame.Lib.Json
import BetterFrame.Lib.Text

/-!
# The inputs of an ioBOX

`iobox-firmware/src/main.cpp`: what `pollHardware` makes of the two pins and the serial line, the
document `emitIoEvent` builds of an input, and what `runLocalMappings` does with it on the local
kiosk. `serializeJson` is the printer of ArduinoJson, and `decode` reads the bytes of a line as text.
-/

namespace IoBoxFirmware

open Text (trimWhitespace)

/-- A row of `iobox_input_mappings`, as the server stores it and as the device was sent it. -/
structure IoBoxInputMapping where
  id : String
  iobox_id : Option String
  display_id : Option String
  source_kind : String
  match_json : Json
  target_kind : String
  action : String
  params_json : Json
  enabled : Bool
deriving DecidableEq

/-- What the configuration says, as `pullConfig` keeps it. -/
structure Config where
  assignedDisplayId : String
  assignedKioskLocalKey : String
  assignedKioskIp : String
  ioMappings : List IoBoxInputMapping

/-- The device between two calls. The serial number is in flash, the rest is in RAM. -/
structure Device where
  serialNumber : String
  config : Config
  localKioskReachable : Bool
  eventSeq : UInt32
  lastPirState : Option Bool
  lastButtonState : Option Bool
  rs485Line : List UInt8

/-- RAM as a reset leaves it. -/
def Device.boot (serialNumber : String) : Device where
  serialNumber
  config := ⟨"", "", "", []⟩
  localKioskReachable := false
  eventSeq := 0
  lastPirState := none
  lastButtonState := none
  rs485Line := []

/-- Which inputs the firmware was built for (`BF_PIR_PIN`, `BF_BUTTON_PIN`, `BF_RS485_RX_PIN`). -/
structure Pins where
  pir : Bool
  button : Bool
  rs485 : Bool

/-! ### The document of an input -/

abbrev Members := List (String × Json)

/-- `snprintf` of `"%s-%lu"` into a buffer of 40 bytes. -/
def eventId (serialNumber : String) (seq : UInt32) : String :=
  String.ofList ((serialNumber ++ "-" ++ toString seq.toNat).toList.take 39)

/-- `if (payload[key].is<const char *>()) event[key] = payload[key];` -/
def copyText (payload event : Members) (key : String) : Members :=
  match Json.get? key (.obj payload) with
  | some (.str s) => Json.assign event key (.str s)
  | _ => event

/-- `if (!payload["value"].isNull()) event["value"] = payload["value"];` -/
def copyValue (payload event : Members) : Members :=
  match Json.get? "value" (.obj payload) with
  | none | some .null => event
  | some v => Json.assign event "value" v

/-- The document as the mappings are matched against it. -/
def eventDocument (serialNumber assignedDisplayId : String) (seq millis : UInt32) (kind : String)
    (payload : Members) : Members :=
  let event : Members :=
    [("event_id", .str (eventId serialNumber seq)), ("kind", .str kind),
      ("display_id", .str assignedDisplayId),
      ("occurred_at_ms", Json.ofInt millis.toNat), ("payload", .obj payload)]
  copyValue payload (copyText payload (copyText payload event "action") "code")

section Document

variable {serialNumber display kind key : String} {seq millis : UInt32} {payload event : Members}

theorem get?_copyText {k : String} : Json.get? key (.obj (copyText payload event k)) =
    if k = key then
      match Json.get? key (.obj payload) with
      | some (.str s) => some (.str s)
      | _ => Json.get? key (.obj event)
    else Json.get? key (.obj event) := by
  unfold copyText
  by_cases hk : k = key
  · subst hk
    rw [if_pos rfl]
    split
    · rw [Json.get?_assign, if_pos rfl]
    · rfl
  · rw [if_neg hk]
    split
    · rw [Json.get?_assign, if_neg hk]
    · rfl

theorem get?_copyValue : Json.get? key (.obj (copyValue payload event)) =
    if "value" = key then
      match Json.get? key (.obj payload) with
      | none | some .null => Json.get? key (.obj event)
      | some v => some v
    else Json.get? key (.obj event) := by
  unfold copyValue
  by_cases hk : "value" = key
  · subst hk
    rw [if_pos rfl]
    split
    · rfl
    · rfl
    · rw [Json.get?_assign, if_pos rfl]
  · rw [if_neg hk]
    split
    · rfl
    · rfl
    · rw [Json.get?_assign, if_neg hk]

/-- The members the document starts with. -/
def ownMembers (serialNumber display : String) (seq millis : UInt32) (kind : String) (payload : Members) :
    Members :=
  [("event_id", .str (eventId serialNumber seq)), ("kind", .str kind), ("display_id", .str display),
    ("occurred_at_ms", Json.ofInt millis.toNat), ("payload", .obj payload)]

theorem get?_eventDocument_own (hcopied : "action" ≠ key ∧ "code" ≠ key ∧ "value" ≠ key) :
    Json.get? key (.obj (eventDocument serialNumber display seq millis kind payload)) =
      Json.get? key (.obj (ownMembers serialNumber display seq millis kind payload)) := by
  obtain ⟨ha, hc, hv⟩ := hcopied
  simp only [eventDocument, get?_copyValue, get?_copyText, if_neg ha, if_neg hc, if_neg hv, ownMembers]

/-- The firmware gives an event no topic. -/
theorem eventDocument_topic :
    Json.get? "topic" (.obj (eventDocument serialNumber display seq millis kind payload)) = none := by
  rw [get?_eventDocument_own (by decide)]
  rfl

theorem get?_eventDocument_text (hkey : key = "action" ∨ key = "code") :
    Json.get? key (.obj (eventDocument serialNumber display seq millis kind payload)) =
      match Json.get? key (.obj payload) with
      | some (.str s) => some (.str s)
      | _ => none := by
  rcases hkey with rfl | rfl
  all_goals
    simp only [eventDocument, get?_copyValue, get?_copyText, String.reduceEq, if_true, if_false]
    split <;> rfl

theorem get?_eventDocument_value :
    Json.get? "value" (.obj (eventDocument serialNumber display seq millis kind payload)) =
    match Json.get? "value" (.obj payload) with
    | none | some .null => none
    | some v => some v := by
  simp only [eventDocument, get?_copyValue, get?_copyText, String.reduceEq, if_true, if_false]
  split <;> rfl

end Document

/-! ### Mappings on the device -/

/-- The members of an object, and none of any other value (`as<JsonObject>()`). -/
def asObject : Json → Members
  | .obj ms => ms
  | _ => []

/-- `v | ""` -/
def textOr (v : Option Json) : String :=
  match v with
  | some (.str s) => s
  | _ => ""

/-- What is compared with the value of a key: the member of the event, or if it has none that of the
payload. -/
def actual (event : Members) (key : String) : Json :=
  Json.orElse (Json.get? key (.obj event))
    (((Json.get? "payload" (.obj event)).bind (Json.get? key)).getD .null)

section Actual

variable {serialNumber display kind key : String} {seq millis : UInt32} {payload : Members}

end Actual

/-- The event is of the mapping's kind, and has what the mapping asks for. -/
def mappingMatchesEvent (serializeJson : Json → String) (mapping : IoBoxInputMapping) (event : Members) :
    Bool :=
  mapping.source_kind = textOr (Json.get? "kind" (.obj event)) &&
    (asObject mapping.match_json).all fun kv => serializeJson (actual event kv.1) = serializeJson kv.2

/-- How a request to a kiosk ends: whether the kiosk did what it was asked to, and whether its
answer came back. -/
structure Reply where
  performed : Bool
  answered : Bool

/-- The layout `runLocalMapping` asks the kiosk for, if it asks at all. -/
def Config.localLayout (c : Config) (mapping : IoBoxInputMapping) : Option String :=
  if mapping.action = "layout.switch" then
    let layoutId := textOr (mapping.params_json.get? "layout_id")
    if c.assignedKioskIp = "" ∨ c.assignedKioskLocalKey = "" ∨ layoutId = "" then none else some layoutId
  else none

/-- The mappings `runLocalMappings` asks the kiosk to run. -/
def Config.asked (c : Config) (serializeJson : Json → String) (event : Members) : List IoBoxInputMapping :=
  c.ioMappings.filter fun m => m.enabled && mappingMatchesEvent serializeJson m event &&
    (c.localLayout m).isSome

/-- What comes of an event on the local kiosk before it is posted anywhere. -/
structure LocalRun where
  performed : List IoBoxInputMapping
  handled : Bool

/-- `localKioskReachable && runLocalMappings(event)` -/
def Device.runLocalMappings (d : Device) (serializeJson : Json → String) (reply : IoBoxInputMapping → Reply)
    (event : Members) : LocalRun :=
  if d.localKioskReachable then
    let asked := d.config.asked serializeJson event
    ⟨asked.filter fun m => (reply m).performed, asked.any fun m => (reply m).answered⟩
  else ⟨[], false⟩

/-! ### The local kiosk's event handler -/

/-- The body of `POST /local/iobox/event`. -/
structure LocalIoBoxEventBody where
  topic : String
  source_type : Option String
  property_op : Option String
  payload : Json

/-- A member that may be absent or null, and is a string otherwise. -/
def optionalText (j : Json) (key : String) : Option (Option String) :=
  match j.get? key with
  | none | some .null => some none
  | some (.str s) => some (some s)
  | _ => none

def LocalIoBoxEventBody.deserialize (j : Json) : Option LocalIoBoxEventBody :=
  match j.get? "topic", optionalText j "source_type", optionalText j "property_op" with
  | some (.str topic), some source_type, some property_op =>
    some ⟨topic, source_type, property_op, (j.get? "payload").getD .null⟩
  | _, _, _ => none

/-- The body `local_iobox_event_handler` forwards to the server, where it answers 202 once the
server took it. -/
def localIoBoxEvent (j : Json) : Option LocalIoBoxEventBody :=
  (LocalIoBoxEventBody.deserialize j).filter fun body => trimWhitespace body.topic ≠ ""

/-! ### Posting -/

/-- How the network treats one event: the requests of its mappings, whether the kiosk's forward of it is
taken and answered, and whether the post to the server arrives there. -/
structure Network where
  layout : IoBoxInputMapping → Reply
  forwarded : Reply
  delivered : Bool

/-- What `emitIoEvent` does besides counting the event. -/
structure Emission where
  event_id : String
  performed : List IoBoxInputMapping
  /-- What the kiosk forwards to the server. -/
  forward : Option LocalIoBoxEventBody
  /-- What is posted to the server. -/
  document : Members

/-- `event["local_handled"] = true`, where the kiosk handled the event. -/
def withHandled (event : Members) (handled : Bool) : Members :=
  if handled then Json.assign event "local_handled" (.bool true) else event

/-- An input becomes an event: it is numbered, run through the local mappings and posted. -/
def Device.emitIoEvent (d : Device) (serializeJson : Json → String) (network : Network) (millis : UInt32)
    (kind : String) (payload : Members) : Emission :=
  let seq := d.eventSeq + 1
  let event := eventDocument d.serialNumber d.config.assignedDisplayId seq millis kind payload
  let ran := d.runLocalMappings serializeJson network.layout event
  let event := withHandled event ran.handled
  let forward := if d.localKioskReachable then localIoBoxEvent (.obj event) else none
  let direct := forward.isSome && network.forwarded.answered
  { event_id := eventId d.serialNumber seq
    performed := ran.performed
    forward := forward.filter fun _ => network.forwarded.performed
    document := Json.assign event "route" (.str (if direct then "direct" else "proxy")) }

section Emission

variable {d : Device} {serializeJson : Json → String} {network : Network} {millis : UInt32}
  {kind key : String}
  {payload : Members}

theorem get?_withHandled {event : Members} {handled : Bool} (hkey : key ≠ "local_handled") :
    Json.get? key (.obj (withHandled event handled)) = Json.get? key (.obj event) := by
  unfold withHandled
  split
  · rw [Json.get?_assign, if_neg hkey.symm]
  · rfl

/-- What is posted is the document the mappings were matched against, with the route and what came
of the local run. -/
theorem Device.get?_emitIoEvent (hkey : key ≠ "local_handled" ∧ key ≠ "route") :
    Json.get? key (.obj (d.emitIoEvent serializeJson network millis kind payload).document) =
      Json.get? key (.obj (eventDocument d.serialNumber d.config.assignedDisplayId (d.eventSeq + 1)
        millis kind payload)) := by
  simp only [emitIoEvent]
  rw [Json.get?_assign, if_neg hkey.2.symm, get?_withHandled hkey.1]

theorem Device.emitIoEvent_topic :
    Json.get? "topic" (.obj (d.emitIoEvent serializeJson network millis kind payload).document) = none := by
  rw [get?_emitIoEvent (by decide), eventDocument_topic]

/-- The kiosk forwards nothing without a topic. -/
theorem localIoBoxEvent_topic {j : Json} (h : j.get? "topic" = none) : localIoBoxEvent j = none := by
  simp [localIoBoxEvent, LocalIoBoxEventBody.deserialize, h]

/-- No event is taken by the local kiosk, so every one is posted with the route `proxy`. -/
theorem Device.emitIoEvent_forward :
    (d.emitIoEvent serializeJson network millis kind payload).forward = none ∧
    Json.get? "route" (.obj (d.emitIoEvent serializeJson network millis kind payload).document) =
    some (.str "proxy") := by
  have hnone : ∀ handled, localIoBoxEvent
    (.obj (withHandled (eventDocument d.serialNumber d.config.assignedDisplayId
      (d.eventSeq + 1) millis kind payload) handled)) = none := fun handled =>
    localIoBoxEvent_topic (by rw [get?_withHandled (by decide), eventDocument_topic])
  simp only [emitIoEvent, hnone, ite_self, Option.filter_none, Option.isSome_none, Bool.false_and,
    Bool.false_eq_true, if_false, true_and]
  rw [Json.get?_assign, if_pos rfl]

end Emission

/-! ### Inputs -/

/-- An input of `pollHardware`: a level read from a pin, or a byte of the serial line. -/
inductive Input where
  | pir (high : Bool)
  | button (high : Bool)
  | serial (ch : UInt8)
deriving DecidableEq

/-- `isspace` of the C locale, by which `String::trim` goes. -/
def isSpace (b : UInt8) : Bool := b = 32 || (9 ≤ b && b ≤ 13)

def trimLine (line : List UInt8) : List UInt8 := ((line.dropWhile isSpace).reverse.dropWhile isSpace).reverse

/-- The event an input gives, if it gives one: its kind and payload. -/
def Device.eventOf (d : Device) (pins : Pins) (decode : List UInt8 → String) :
    Input → Option (String × Members)
  | .pir high =>
    if pins.pir ∧ d.lastPirState.isSome ∧ d.lastPirState ≠ some high then
      some ("presence", [("state", .str (if high then "present" else "clear"))])
    else none
  | .button high =>
    if pins.button ∧ d.lastButtonState.isSome ∧ d.lastButtonState ≠ some high then
      some ("button", [("code", .str "button_1"), ("state", .str (if high then "up" else "down"))])
    else none
  | .serial ch =>
    if pins.rs485 ∧ ch = 10 ∧ trimLine d.rs485Line ≠ [] then
      some ("rs485", [("raw", .str (decode (trimLine d.rs485Line))),
        ("code", .str (decode (trimLine d.rs485Line)))])
    else none

/-- What an input leaves behind in RAM, besides the number of its event. -/
def Device.take (d : Device) (pins : Pins) : Input → Device
  | .pir high => if pins.pir then { d with lastPirState := some high } else d
  | .button high => if pins.button then { d with lastButtonState := some high } else d
  | .serial ch =>
    if ¬ pins.rs485 ∨ ch = 13 then d
    else if ch = 10 then { d with rs485Line := [] }
    else if d.rs485Line.length < 180 then { d with rs485Line := d.rs485Line ++ [ch] }
    else { d with rs485Line := [] }

end IoBoxFirmware
