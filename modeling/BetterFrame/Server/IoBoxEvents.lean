import BetterFrame.Client.IoBoxFirmware
import BetterFrame.Lib.Run
import BetterFrame.Server.EventIntake

/-!
# Inputs of an ioBOX in the event log

The firmware of `IoBoxFirmware` against `POST /api/iobox/event` (`service-api-http/index.ts`), whose
handler is that of `EventIntake` once `validateBody(IoBoxEventBody, …)` let the body through. The
validator is a parameter, `validate`, of which `Documented` says what its schema asks for. One step is
one input of the device with what the network does to its requests, a reset, a pulled configuration,
or the server's handler coming back from its insert.
-/

namespace IoBoxEvents

open EventIntake IoBoxFirmware Machine

/-- The schema of the intake route. -/
abbrev Validate := IoBox → Json → Option IoBoxEvent

def textAt (j : Json) (key : String) : Option String := (j.get? key).bind Json.asStr?

/-- What the schema `IoBoxEventBody` makes of a document, with its defaults. -/
def documentBody (box : IoBox) (j : Json) : IoBoxEvent where
  box
  event_id := textAt j "event_id"
  topic := (textAt j "topic").getD ""
  kind := (textAt j "kind").getD "unknown"
  action := textAt j "action"
  code := textAt j "code"
  value := j.get? "value"
  display_id := textAt j "display_id"
  payload := (j.get? "payload").getD (.obj [])
  route := textAt j "route"

/-- The body is what the schema makes of the document, which has the topic the schema asks for. -/
structure Carries (box : IoBox) (j : Json) (e : IoBoxEvent) : Prop where
  body : e = documentBody box j
  topic : j.get? "topic" = some (.str e.topic)
  topic_length : 1 ≤ e.topic.length ∧ e.topic.length ≤ 512

/-- A document that passes is passed on as the schema says. -/
def Documented (validate : Validate) : Prop := ∀ box j e, validate box j = some e → Carries box j e

/-- The topic is the one member the schema has no default for. -/
theorem Documented.topic {validate : Validate} (h : Documented validate) {box : IoBox} {j : Json}
    (ht : j.get? "topic" = none) : validate box j = none := by
  rcases hv : validate box j with _ | e
  · rfl
  · exact absurd ((h box j e hv).topic) (by simp [ht])

/-! ### The device and the server -/

/-- An event the device posted. -/
structure Post where
  event_id : String
  postedAt : Nat
  /-- Whether the schema accepts its document. -/
  accepted : Bool
  delivered : Bool
  /-- The request it became on the server. -/
  request : Option Nat

/-- The device, its row on the server, and what was posted. -/
structure World where
  device : Device
  bootedAt : Nat
  /-- The ioBOX's row. -/
  box : IoBox
  /-- The kiosk of the assigned display. -/
  kiosk_id : String
  intake : Intake
  posts : List Post

/-- What the two ends are built with. -/
structure Setup where
  pins : Pins
  serializeJson : Json → String
  decode : List UInt8 → String
  validate : Validate

namespace World

def init (serialNumber : String) (box : IoBox) (kiosk_id : String) (now : Nat) : World :=
  ⟨.boot serialNumber, now, box, kiosk_id, .init now, []⟩

/-- The counter of the board, which wraps around. -/
def millis (w : World) : UInt32 := UInt32.ofNat (w.intake.now - w.bootedAt)

/-- What `local_iobox_event_handler` posts to `/api/kiosk/event`. -/
def forwarded (w : World) (body : LocalIoBoxEventBody) : Event :=
  .kiosk ⟨w.kiosk_id, body.topic, body.source_type.getD "io", none, body.property_op, body.payload⟩

/-- An event of the firmware: its commands, and the post to the intake. -/
def emit (w : World) (setup : Setup) (network : Network) (event : String × Members) : World :=
  let emission := w.device.emitIoEvent setup.serializeJson network w.millis event.1 event.2
  let intake := match emission.forward with
    | none => w.intake
    | some body => w.intake.post (w.forwarded body)
  let body := setup.validate w.box (.obj emission.document)
  let arrives := body.filter fun _ => network.delivered
  { w with
    device := { w.device with eventSeq := w.device.eventSeq + 1 }
    intake := match arrives with
      | none => intake
      | some e => intake.post (.iobox e)
    posts := w.posts ++ [{
      event_id := emission.event_id
      postedAt := w.intake.now
      accepted := body.isSome
      delivered := network.delivered
      request := arrives.map fun _ => intake.requests.length }] }

/-- What the device, the administrator and the server do. -/
inductive Step where
  | elapse (ms : Nat)
  | reboot
  | pullConfig (config : Config)
  | checkLocalKiosk (reachable : Bool)
  | input (i : Input) (network : Network)
  /-- An administrator saves the ioBOX. -/
  | editBox (assigned_display_id : Option String) (route_mode : String)
  | inserted (request : Nat)
  | finish (request : Nat) (thrown : Bool)

def step (setup : Setup) (w : World) : Step → Option World
  | .elapse ms => some { w with intake := { w.intake with now := w.intake.now + ms } }
  | .reboot => some { w with device := .boot w.device.serialNumber, bootedAt := w.intake.now }
  | .pullConfig config => some { w with device := { w.device with config } }
  | .checkLocalKiosk reachable => some { w with device := { w.device with localKioskReachable := reachable } }
  | .input i network =>
    let w' := match w.device.eventOf setup.pins setup.decode i with
      | none => w
      | some event => w.emit setup network event
    some { w' with device := w'.device.take setup.pins i }
  | .editBox assigned_display_id route_mode =>
    some { w with box := { w.box with assigned_display_id, route_mode } }
  | .inserted i => (w.intake.step (.insertDone i .ok)).map fun intake => { w with intake }
  | .finish i thrown => (w.intake.step (.finish i thrown)).map fun intake => { w with intake }

/-- No handler awaits an insert. -/
def Settled (w : World) : Prop := ∀ q ∈ w.intake.requests, q.phase ≠ .inserting ∧ q.phase ≠ .retrying

/-- Every delivered input is logged exactly once. -/
structure LoggedOnce (w : World) : Prop where
  accepted : ∀ p ∈ w.posts, p.accepted
  /-- Two inputs within the window of the server's cache have two ids. -/
  distinct : w.posts.Pairwise fun p q => q.postedAt - p.postedAt < Route.iobox.window →
    p.event_id ≠ q.event_id
  once : w.Settled → ∀ p ∈ w.posts, p.delivered →
    ∃ i, p.request = some i ∧ (w.intake.event_log.filter fun row => row.request = i).length = 1

/-- The step emits no event. -/
def Silent (setup : Setup) (w : World) : Step → Prop
  | .input i _ => w.device.eventOf setup.pins setup.decode i = none
  | _ => True

section Runs

variable {setup : Setup} {w w' : World} {l : Step} {ls : List Step}

theorem silent_posts (hs : Silent setup w l) (h : step setup w l = some w') : w'.posts = w.posts := by
  cases l with
  | input i network =>
    simp only [Silent] at hs
    simp only [step, hs, Option.some.injEq] at h
    rw [← h]
  | inserted i | finish i thrown =>
    obtain ⟨intake, -, rfl⟩ := Option.map_eq_some_iff.1 h
    rfl
  | _ => exact Option.some.inj h ▸ rfl

/-- An event the device emits is posted without a topic, so the schema refuses it. -/
theorem emit_posts (hv : Documented setup.validate) {network : Network} {event : String × Members} :
    ∃ p, (w.emit setup network event).posts = w.posts ++ [p] ∧ p.accepted = false := by
  refine ⟨_, rfl, ?_⟩
  simp only [hv.topic Device.emitIoEvent_topic, Option.isSome_none]

theorem posts_mono (h : step setup w l = some w') : w.posts <+: w'.posts := by
  cases l with
  | input i network =>
    simp only [step, Option.some.injEq] at h
    rw [← h]
    dsimp only
    split
    · exact List.prefix_rfl
    · exact List.prefix_append _ _
  | inserted i | finish i thrown =>
    obtain ⟨intake, -, rfl⟩ := Option.map_eq_some_iff.1 h
    exact List.prefix_rfl
  | _ => exact Option.some.inj h ▸ List.prefix_rfl

theorem posts_run (h : run (step setup) w ls = some w') : w.posts <+: w'.posts :=
  run_rel (R := fun w w' => w.posts <+: w'.posts) (fun _ => List.prefix_rfl)
    (fun _ _ _ => List.IsPrefix.trans) (fun _ _ _ => posts_mono) h

/-- A step that is not silent posts an event the schema refuses. -/
theorem refused_of_not_silent (hv : Documented setup.validate) (hs : ¬ Silent setup w l)
    (h : step setup w l = some w') :
    ∃ p ∈ w'.posts, p.accepted = false := by
  cases l with
  | input i network =>
    obtain ⟨event, he⟩ := Option.ne_none_iff_exists'.1 hs
    simp only [step, he, Option.some.injEq] at h
    obtain ⟨p, hp, hrefused⟩ := @emit_posts _ w hv network event
    exact ⟨p, by rw [← h]; simp only [hp]; simp, hrefused⟩
  | _ => exact absurd trivial hs

theorem silent_run (ha : Along (step setup) (Silent setup) w ls) (h : run (step setup) w ls = some w') :
    w'.posts = w.posts :=
  ha.inv (I := fun t => t.posts = w.posts) (fun _ _ _ hs h hp => (silent_posts hs h).trans hp) h rfl

theorem silent_of_accepted (hv : Documented setup.validate) (h : run (step setup) w ls = some w')
    (hall : ∀ p ∈ w'.posts, p.accepted) : Along (step setup) (Silent setup) w ls := by
  induction ls generalizing w with
  | nil => trivial
  | cons l ls ih =>
    obtain ⟨t, ht, hrest⟩ := run_cons.1 h
    refine ⟨?_, by rw [ht]; exact ih hrest⟩
    by_contra hs
    obtain ⟨p, hp, hrefused⟩ := refused_of_not_silent hv hs ht
    have hp' : p ∈ w'.posts := (posts_run hrest).subset hp
    simp [hall p hp'] at hrefused

end Runs

/-- The inputs of a run are all accepted and logged once exactly if the device never emits one. -/
theorem logged_once (setup : Setup) (hv : Documented setup.validate) (serialNumber : String) (box : IoBox)
    (kiosk_id : String) (now : Nat) (ls : List Step) (w : World)
    (hr : run (step setup) (init serialNumber box kiosk_id now) ls = some w) :
    w.LoggedOnce ↔ Along (step setup) (Silent setup) (init serialNumber box kiosk_id now) ls := by
  constructor
  · intro h
    exact silent_of_accepted hv hr h.accepted
  · intro ha
    have hnone : w.posts = [] := silent_run ha hr
    exact ⟨by simp [hnone], by simp [hnone], by simp [hnone]⟩

/-! ### A button pressed before and after a reset -/

/-- A validator that asks of a document what the schema asks of its topic, and reads the rest of it. -/
def readBody (box : IoBox) (j : Json) : Option IoBoxEvent :=
  (textAt j "topic").bind fun topic =>
    if 1 ≤ topic.length ∧ topic.length ≤ 512 then some (documentBody box j) else none

theorem readBody_documented : Documented readBody := by
  intro box j e h
  obtain ⟨topic, ht, h⟩ := Option.bind_eq_some_iff.1 h
  obtain ⟨v, hv, hs⟩ := Option.bind_eq_some_iff.1 ht
  split at h
  · next hlength =>
    obtain rfl := Option.some.inj h
    have htopic : (documentBody box j).topic = topic := by simp only [documentBody, ht, Option.getD_some]
    refine ⟨rfl, ?_, by rw [htopic]; exact hlength⟩
    cases v <;> simp only [Json.asStr?, reduceCtorEq, Option.some.injEq] at hs
    rw [htopic, ← hs, hv]
  · cases h

def buttonSetup : Setup where
  pins := ⟨false, true, false⟩
  serializeJson := Json.stringify
  decode bytes := String.ofList (bytes.map fun b => Char.ofNat b.toNat)
  validate := readBody

def hallBox : IoBox := ⟨"7f3e", "IOB-0C2F11223344", some "d1", "unknown"⟩

def delivering : Network := ⟨fun _ => ⟨false, false⟩, ⟨false, false⟩, true⟩

/-- The button is pressed, the device restarts, and five seconds later it is pressed again. -/
def pressedTwice : List Step :=
  [.input (.button true) delivering, .input (.button false) delivering, .reboot, .elapse 5000,
    .input (.button true) delivering, .input (.button false) delivering]

/-- Both presses reach the server, under one id, and neither is logged. -/
theorem pressedTwice_lost :
    ∃ w, run (step buttonSetup) (init "IOB-0C2F11223344" hallBox "k1" 1000000) pressedTwice = some w ∧
    w.posts.map (·.event_id) = ["IOB-0C2F11223344-1", "IOB-0C2F11223344-1"] ∧
    (∀ p ∈ w.posts, p.delivered ∧ p.accepted = false) ∧ w.intake.event_log.length = 0 ∧ ¬ w.LoggedOnce := by
  have hrun : run (step buttonSetup) (init "IOB-0C2F11223344" hallBox "k1" 1000000) pressedTwice =
      some _ := rfl
  refine ⟨_, hrun, ?_, ?_, ?_, ?_⟩
  · rfl
  · decide +kernel
  · rfl
  · intro h
    exact absurd (h.accepted _ (.head _)) (by decide +kernel)

/-- The button is read twice and has not moved. -/
def buttonUntouched : List Step :=
  [.input (.button true) delivering, .elapse 30, .input (.button true) delivering]

theorem logged_once_untouched :
    ∃ w, run (step buttonSetup) (init "IOB-0C2F11223344" hallBox "k1" 1000000) buttonUntouched =
    some w ∧ w.LoggedOnce := by
  have hrun : run (step buttonSetup) (init "IOB-0C2F11223344" hallBox "k1" 1000000) buttonUntouched =
      some _ := rfl
  refine ⟨_, hrun, (logged_once buttonSetup readBody_documented _ hallBox "k1" 1000000 buttonUntouched
    _ hrun).2 ?_⟩
  exact ⟨rfl, trivial, rfl, trivial⟩

end World

end IoBoxEvents
