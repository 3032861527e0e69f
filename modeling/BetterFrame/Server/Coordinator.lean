import BetterFrame.Server.PowerDispatch

/-!
# The WebSocket coordinator (plugins/service-coordinator-ws, shared/kiosk-connections.ts)

The coordinator keeps one registered connection a kiosk, the requests that wait for an answer of a
kiosk, each with a timer of its own, and a queue of messages for a kiosk that is offline. `Registry` is
the part that requests and answers share; `State` adds the sockets, the queues, the layout switches of
Android viewers whose validation is still running, and the power dispatches. A label of `step` is one
callback of the event loop: a socket that connects, closes or says something, a call of the coordinator's
interface, a timer, the answer of a validation.
-/

namespace Coordinator

open PowerDispatch
open Json (stringOf)

/-- The two kinds of closures behind a pending request: of `requestKiosk`, and of the ACK that
`sendPowerToKiosk` registers. -/
inductive Owner where
  | request
  | ack
deriving DecidableEq

/-- How a caller is told that its request has ended. -/
inductive Outcome where
  | resolved (value : Json)
  | rejected (error : String)
  | acked (accepted : Bool)

/-- What a response means to the call that waits for it. -/
def Owner.resolve : Owner → Json → Outcome
  | .request, value => .resolved value
  | .ack, value => .acked (match value with | .bool true => true | _ => false)

/-- What a failure means to the call that waits for it. -/
def Owner.reject : Owner → String → Outcome
  | .request, error => .rejected error
  | .ack, _ => .acked false

abbrev Pending := PendingPowerResponse Owner

/-- `timers` are the armed timers with what each of them rejects, `issued` the request ids that have been
drawn, and `settled` the requests that have been resolved or rejected, in that order. -/
structure Registry where
  connectedKiosks : String → Option KioskConnection
  pendingRequests : OrdMap String Pending
  timers : List (String × Owner)
  issued : List String
  settled : List (String × Outcome)

namespace Registry

/-- Deletes the entry of a request and clears its timer. -/
def drop (id : String) (r : Registry) : Registry :=
  { r with pendingRequests := r.pendingRequests.erase id, timers := r.timers.filter (·.1 ≠ id) }

/-- The call's outcome, once its timer and entry are gone. -/
def settle (id : String) (outcome : Outcome) (r : Registry) : Registry :=
  { r.drop id with settled := r.settled ++ [(id, outcome)] }

/-- Arms the timer of a request and adds its entry. -/
def add (id : String) (pending : Pending) (r : Registry) : Registry :=
  { r with pendingRequests := r.pendingRequests.set id pending, timers := r.timers ++ [(id, pending.owner)] }

def issue (id : String) (r : Registry) : Registry := { r with issued := r.issued ++ [id] }

/-- Rejects every request that waits for an answer from the socket. -/
def rejectSocket (socket : Nat) (error : String) (r : Registry) : Registry :=
  r.pendingRequests.entries.foldl
    (fun r e => if e.2.socket ≠ socket then r else r.settle e.1 (e.2.owner.reject error)) r

end Registry

/-- A layout switch that waits for `validateViewerLayout`. `answer` is what has come, a rejected promise
being `none`. -/
structure Validation where
  kioskId : String
  ws : Nat
  message : Json
  answer : Option (Option Bool)

/-- A payload written to a socket; `validation` is the number of the validation that let it pass. -/
structure Written where
  ws : Nat
  payload : String
  validation : Option Nat

/-- The sockets, the queues, the requests that wait and what was written. -/
structure State where
  registry : Registry
  upgrades : Nat
  readyState : Nat → Nat
  offlineQueues : String → List String
  validations : List Validation
  activeViewerPower : List Nat
  calls : List (Option Dispatch)
  written : List Written

def MESSAGE_QUEUE_CAP : Nat := 100

/-! ### Messages to a kiosk -/

/-- `androidViewerCommandAllowed` (shared/android-viewer.ts) without its `power` argument. -/
def androidViewerCommandAllowed (message : Json) (assignedLayoutIds : List String) : Bool :=
  let type := match message.get? "type" with
    | none => "undefined"
    | some v => stringOf v
  if ["reload-bundle", "ping", "connected"].contains type then true
  else if ["standby", "wake"].contains type then false
  else typeOf message = some "layout-switch" && match message.get? "layout_id" with
    | some (.str layoutId) => assignedLayoutIds.contains layoutId
    | _ => false

/-! ### Messages of a kiosk -/

/-- The messages that answer a request by its id. -/
def proxyResponses : List String :=
  ["onvif-soap-response", "camera-proxy-response", "onvif-action-response", "rotate-local-key-response",
    "iobox-control-response", "operator-enrollment-response", "operator-stations-response",
    "operator-station-revoke-response"]

def errorOf (message : Json) : String := ((message.get? "error").bind Json.asStr?).getD ""

namespace State

def isOpen (s : State) (ws : Nat) : Bool := s.readyState ws = 1

/-- Sends the payload, or queues it for a kiosk that is offline. `throws` says that `ws.send` throws. -/
def transmit (s : State) (kioskId : String) (message : Json) (queueWhenOffline throws : Bool) :
    State × Bool :=
  match (s.registry.connectedKiosks kioskId).filter fun k => s.isOpen k.ws with
  | none =>
    if queueWhenOffline then
      let q := s.offlineQueues kioskId ++ [message.stringify]
      let q := if MESSAGE_QUEUE_CAP < q.length then q.tail else q
      ({ s with offlineQueues := Function.update s.offlineQueues kioskId q }, false)
    else (s, false)
  | some k =>
    if throws then (s, false)
    else ({ s with written := s.written ++ [⟨k.ws, message.stringify, none⟩] }, true)

/-- Sends to the registered socket, or queues when there is none. -/
def sendToKiosk (s : State) (kioskId : String) (message : Json) (queueWhenOffline throws : Bool) :
    State × Bool :=
  if isPowerType message then (s, false)
  else
    match (s.registry.connectedKiosks kioskId).filter (·.validateViewerLayout) with
    | none => s.transmit kioskId message queueWhenOffline throws
    | some k =>
      let layoutId := ((message.get? "layout_id").bind Json.asStr?).getD ""
      if !androidViewerCommandAllowed message [layoutId] then (s, false)
      else if typeOf message = some "layout-switch" then
        if s.isOpen k.ws then
          ({ s with validations := s.validations ++ [⟨kioskId, k.ws, message, none⟩] }, true)
        else (s, false)
      else s.transmit kioskId message queueWhenOffline throws

/-- Whether the socket of the validation is still the registered open one. -/
def passes (s : State) (v : Validation) : Bool :=
  (s.registry.connectedKiosks v.kioskId).any (·.ws = v.ws) && s.isOpen v.ws

/-- The answer of the validation number `j`. -/
def validated (s : State) (j : Nat) (answer : Option Bool) (v : Validation) : State :=
  let s := { s with validations := s.validations.set j { v with answer := some answer } }
  if answer = some true && s.passes v then
    { s with written := s.written ++ [⟨v.ws, v.message.stringify, some j⟩] } else s

/-- The queued messages up to the first that does not parse. -/
def parsed : List String → List Json
  | [] => []
  | text :: queue =>
    match Json.parse text with
    | none => []
    | some message => message :: parsed queue

/-- `throws k` says that the `k`-th of these sends throws. -/
def drainOfflineQueue (s : State) (kioskId : String) (throws : Nat → Bool) : State :=
  match (s.registry.connectedKiosks kioskId).filter fun k => s.isOpen k.ws with
  | none => s
  | some _ =>
    let s := (parsed (s.offlineQueues kioskId)).zipIdx.foldl
      (fun s m => (s.sendToKiosk kioskId m.1 false (throws m.2)).1) s
    { s with offlineQueues := Function.update s.offlineQueues kioskId [] }

/-! ### Requests -/

/-- A request that waits for the display's answer. -/
def requestKiosk (s : State) (kioskId : String) (message : Json) (requestId : String) (throws : Bool) :
    State :=
  let s := { s with registry := s.registry.issue requestId }
  match (s.registry.connectedKiosks kioskId).filter fun k => s.isOpen k.ws with
  | none => { s with registry := s.registry.settle requestId (.rejected "kiosk is not connected") }
  | some k =>
    let s := { s with registry := s.registry.add requestId ⟨kioskId, k.ws, none, .request⟩ }
    let r := s.sendToKiosk kioskId (withRequestId message requestId) false throws
    if r.2 then r.1
    else { r.1 with registry := r.1.registry.settle requestId (.rejected "kiosk is not connected") }

/-- The timer of a request. -/
def expire (s : State) (requestId : String) (owner : Owner) : State :=
  { s with registry := s.registry.settle requestId (owner.reject "kiosk request timed out") }

/-! ### Sockets -/

/-- The socket starts to close, unless it is closed. -/
def terminate (s : State) (ws : Nat) : State :=
  { s with readyState := Function.update s.readyState ws (if s.readyState ws = 3 then 3 else 2) }

/-- What becomes of the connection that a new socket replaces. -/
def replace (s : State) (previous : Option KioskConnection) (ws : Nat) : State :=
  match previous.filter fun p => p.ws ≠ ws with
  | none => s
  | some p => terminate { s with registry := s.registry.rejectSocket p.ws "kiosk connection replaced" } p.ws

def connectedMessage (kioskId : String) : Json :=
  .obj [("type", .str "connected"), ("kiosk_id", .str kioskId)]

/-- A new connection takes the place of the registered one, and gets the queue. -/
def upgrade (s : State) (kioskId : String) (ws : Nat) (viewer : Bool) (throws : Nat → Bool) : State :=
  let connection : KioskConnection := ⟨s.upgrades, ws, viewer, viewer⟩
  let registry := { s.registry with
      connectedKiosks := Function.update s.registry.connectedKiosks kioskId (some connection) }
  let s' : State :=
    State.replace { s with registry := registry, upgrades := s.upgrades + 1 }
      (s.registry.connectedKiosks kioskId) ws
  let s' : State := { s' with written := s'.written ++ [⟨ws, (connectedMessage kioskId).stringify, none⟩] }
  s'.drainOfflineQueue kioskId throws

/-- The close event of a socket of the kiosk. -/
def close (s : State) (kioskId : String) (ws : Nat) : State :=
  match (s.registry.connectedKiosks kioskId).filter fun k => k.ws = ws with
  | none => s
  | some _ =>
    let registry := { s.registry with
        connectedKiosks := Function.update s.registry.connectedKiosks kioskId none }
    { s with registry := registry.rejectSocket ws "kiosk disconnected" }

/-- A message of a socket of the kiosk. `owns` is `ownsPowerSession(..) && powerSampleAllowed(..)`. -/
def onMessage (s : State) (kioskId : String) (ws : Nat) (msg : Json) (owns : Bool) : State :=
  match (s.registry.connectedKiosks kioskId).filter fun k => k.ws = ws with
  | none => s
  | some k =>
    if typeOf msg = some "pong" then s
    else if typeOf msg = some "power-result" then
      if !owns then s
      else
        match acceptPowerResult s.registry.pendingRequests kioskId ws msg with
        | none => s
        | some (rest, pending, accepted) =>
          { s with registry := { s.registry with
              pendingRequests := rest
              timers := s.registry.timers.filter (·.1 ≠ requestIdOf msg)
              settled := s.registry.settled ++ [(requestIdOf msg, pending.owner.resolve (.bool accepted))] } }
    else if k.validateViewerLayout then s
    else if (typeOf msg).any proxyResponses.contains then
      match s.registry.pendingRequests.get? (requestIdOf msg) with
      | none => s
      | some pending =>
        if pending.responseType.isSome || pending.kioskId ≠ kioskId || pending.socket ≠ ws then s
        else
          let outcome := if errorOf msg = "" then pending.owner.resolve msg
            else pending.owner.reject (errorOf msg)
          { s with registry := s.registry.settle (requestIdOf msg) outcome }
    else s

/-! ### Power -/

def dispatch (s : State) (i : Nat) : Option Dispatch := s.calls[i]?.join

/-- The dispatch still has the registered, open socket. -/
def current (s : State) (d : Dispatch) : Bool :=
  s.registry.connectedKiosks d.captured.kioskId = some d.captured.connection && s.isOpen d.ws

/-- Carries out one effect of a dispatch for the connection of the kiosk. -/
def perform (c : Captured) (s : State) : Effect → State
  | .register requestId =>
    { s with registry := (s.registry.issue requestId).add requestId ⟨c.kioskId, c.connection.ws,
      some "power-result", .ack⟩ }
  | .write ws payload => { s with written := s.written ++ [⟨ws, payload, none⟩] }
  | .release ws => { s with activeViewerPower := s.activeViewerPower.filter (· ≠ ws) }
  | .cancel requestId => { s with registry := s.registry.drop requestId }
  | .resolve _ => s

/-- A power message goes to the connection captured now, if any. -/
def sendPowerToKiosk (s : State) (kioskId : String) (message : Json) (throws : Bool) : State :=
  match captures s.registry.connectedKiosks s.readyState s.activeViewerPower kioskId message with
  | none => { s with calls := s.calls ++ [none] }
  | some connection =>
    let c : Captured := ⟨kioskId, connection, message, true⟩
    let r := Dispatch.begin c throws
    let active := if connection.validateViewerLayout then connection.ws :: s.activeViewerPower
      else s.activeViewerPower
    r.2.foldl (perform c) { s with activeViewerPower := active, calls := s.calls ++
      [some (Dispatch.traced r)] }

/-- The call number `i` is told `e`. -/
def tell (s : State) (i : Nat) (e : Event) : Option State := do
  let d ← s.dispatch i
  let r ← d.react (s.current d) e
  some (r.2.foldl (perform d.captured) { s with calls := s.calls.set i (some (Dispatch.traced r)) })

/-- What the ACK of the call number `i` has been settled with. -/
def ackResult (s : State) (i : Nat) : Option Bool := do
  let d ← s.dispatch i
  let id ← d.cancelAck
  match s.registry.settled.find? fun e => e.1 = id with
  | some (_, .acked accepted) => some accepted
  | _ => none

end State

/-- What a socket, a caller or a power call does. -/
inductive Label where
  | upgrade (kioskId : String) (ws : Nat) (viewer : Bool) (throws : Nat → Bool)
  | close (kioskId : String) (ws : Nat)
  | message (kioskId : String) (ws : Nat) (msg : Json) (owns : Bool)
  | requestKiosk (kioskId : String) (message : Json) (requestId : String) (throws : Bool)
  | sendToKiosk (kioskId : String) (message : Json) (queueWhenOffline throws : Bool)
  | sendPowerToKiosk (kioskId : String) (message : Json) (throws : Bool)
  | validatedPower (i : Nat) (answer : Option Bool) (requestId : String) (fault : Option Fault)
  | wrotePower (i : Nat) (error : Bool)
  | timedOutPower (i : Nat)
  | ackedPower (i : Nat)
  | validatedLayout (j : Nat) (answer : Option Bool)
  | expire (requestId : String)
  | ready (ws readyState : Nat)

def step (s : State) : Label → Option State
  | .upgrade kioskId ws viewer throws => some (s.upgrade kioskId ws viewer throws)
  | .close kioskId ws => some (s.close kioskId ws)
  | .message kioskId ws msg owns => some (s.onMessage kioskId ws msg owns)
  | .requestKiosk kioskId message requestId throws =>
    if requestId ∈ s.registry.issued then none else some (s.requestKiosk kioskId message requestId throws)
  | .sendToKiosk kioskId message queueWhenOffline throws =>
    some (s.sendToKiosk kioskId message queueWhenOffline throws).1
  | .sendPowerToKiosk kioskId message throws => some (s.sendPowerToKiosk kioskId message throws)
  | .validatedPower i answer requestId fault =>
    if requestId ∈ s.registry.issued then none else s.tell i (.validated answer requestId fault)
  | .wrotePower i error => s.tell i (.callback error)
  | .timedOutPower i => s.tell i .timeout
  | .ackedPower i => (s.ackResult i).bind fun accepted => s.tell i (.acked (some accepted))
  | .validatedLayout j answer => do
    let v ← s.validations[j]?
    if v.answer.isSome then none else some (s.validated j answer v)
  | .expire requestId =>
    (s.registry.timers.find? fun t => t.1 = requestId).map fun t => s.expire requestId t.2
  | .ready ws readyState => some { s with readyState := Function.update s.readyState ws readyState }

/-! ### What sending does -/

namespace State

variable {s : State} {kioskId : String} {message : Json} {queueWhenOffline throws : Bool} {ws : Nat}

/-- The connection of the kiosk, when its socket is open. -/
def online (s : State) (kioskId : String) : Option KioskConnection :=
  (s.registry.connectedKiosks kioskId).filter fun k => s.isOpen k.ws

theorem online_eq_some {k : KioskConnection} :
    s.online kioskId = some k ↔ s.registry.connectedKiosks kioskId = some k ∧ s.isOpen k.ws = true :=
  Option.filter_eq_some_iff

/-- What a message to a kiosk can come to. -/
inductive Sends (s : State) (kioskId : String) (message : Json) : State × Bool → Prop
  | refused : Sends s kioskId message (s, false)
  | queued (queues : String → List String) :
    Sends s kioskId message ({ s with offlineQueues := queues }, false)
  | wrote (k : KioskConnection) (hk : s.online kioskId = some k) (hnot : k.validateViewerLayout = true →
    typeOf message ≠ some "layout-switch") :
    Sends s kioskId message ({ s with written := s.written ++ [⟨k.ws, message.stringify, none⟩] }, true)
  | accepted (k : KioskConnection) (hk : s.online kioskId = some k) (hviewer : k.validateViewerLayout = true)
      (hswitch : typeOf message = some "layout-switch") :
    Sends s kioskId message
      ({ s with validations := s.validations ++ [⟨kioskId, k.ws, message, none⟩] }, true)

theorem transmit_sends (hnot : ∀ k, s.registry.connectedKiosks kioskId = some k →
    k.validateViewerLayout = true →
    typeOf message ≠ some "layout-switch") : Sends s kioskId message
    (s.transmit kioskId message queueWhenOffline throws) := by
  unfold transmit
  split
  · split
    · exact .queued _
    · exact .refused
  · next k hk =>
    split
    · exact .refused
    · exact .wrote k hk (hnot k (online_eq_some.1 hk).1)

theorem sendToKiosk_sends (s : State) (kioskId : String) (message : Json) (queueWhenOffline throws : Bool) :
    Sends s kioskId message (s.sendToKiosk kioskId message queueWhenOffline throws) := by
  unfold sendToKiosk
  split
  · exact .refused
  split
  · next hnone =>
    refine transmit_sends fun k hk hv => ?_
    rw [hk, Option.filter_some, hv] at hnone
    cases hnone
  · next k hk =>
    obtain ⟨hk, hv⟩ := Option.filter_eq_some_iff.1 hk
    dsimp only
    split
    · exact .refused
    split
    · next hswitch =>
      split
      · next hopen => exact .accepted k (online_eq_some.2 ⟨hk, hopen⟩) hv hswitch
      · exact .refused
    · next hswitch => exact transmit_sends fun _ _ _ => hswitch

theorem Sends.registry {r : State × Bool} (h : Sends s kioskId message r) : r.1.registry = s.registry := by
  cases h <;> rfl

/-- Whatever sending one message keeps, draining a queue keeps. -/
theorem drain_inv {I : State → Prop}
    (hI : ∀ (t : State) message throws, I t → I (t.sendToKiosk kioskId message false throws).1)
    (drained : Nat → Bool) (ms : List (Json × Nat)) (h : I s) :
    I (ms.foldl (fun s m => (s.sendToKiosk kioskId m.1 false (drained m.2)).1) s) := by
  induction ms generalizing s with
  | nil => exact h
  | cons m ms ih => exact ih (hI s m.1 (drained m.2) h)

theorem drainOfflineQueue_registry {drained : Nat → Bool} :
    (s.drainOfflineQueue kioskId drained).registry = s.registry := by
  unfold drainOfflineQueue
  split
  · rfl
  · exact drain_inv (I := fun t => t.registry = s.registry)
      (fun t message throws ht => (sendToKiosk_sends t kioskId message false throws).registry.trans ht)
        drained _ rfl

end State

end Coordinator
