import BetterFrame.Lib.Json
import BetterFrame.Lib.OrdMap
import BetterFrame.Lib.Run

/-!
# Power commands to kiosks (shared/power-dispatch.ts)

`dispatchPower` captures the connection of a kiosk and then waits: for `validateViewerPower`, for the
callback of the socket write, for the ACK of a viewer, for its timer. What happens on each of these is
a reaction of the `Dispatch`, the closure of one call; `step` lets the reactions of any number of calls,
the replacement of connections and the closing of sockets come in any order. A socket and a connection
object are numbers; what a dispatch has done is its `trace`.
-/

namespace PowerDispatch

/-- A `KioskConnection`: `ref` is the identity of the object, and of its two validators only whether
they are set. -/
structure KioskConnection where
  ref : Nat
  ws : Nat
  validateViewerPower : Bool
  validateViewerLayout : Bool
deriving DecidableEq

/-- What the closure of a call has captured. -/
structure Captured where
  kioskId : String
  connection : KioskConnection
  message : Json
  registerAck : Bool

/-- What a dispatch does to the sockets, the set of viewers and its caller. -/
inductive Effect where
  | register (requestId : String)
  | write (ws : Nat) (payload : String)
  | release (ws : Nat)
  | cancel (requestId : String)
  | resolve (sent : Bool)
deriving DecidableEq

/-- The state of one call. `validation`, `ack` and `callback` say that the answer of the validator, the
result of the ACK and the callback of the write are still to come. -/
structure Dispatch where
  captured : Captured
  settled : Bool
  timer : Bool
  cancelAck : Option String
  written : Bool
  accepted : Bool
  validation : Bool
  ack : Bool
  callback : Bool
  trace : List Effect

/-- What can throw. -/
inductive Fault where
  | registerAck
  | send
deriving DecidableEq

/-- What a call can be told. An answer `none` is a rejected promise; `requestId` is what `randomUUID`
gives to the call that goes on, and `fault` says which of the calls it then makes throws. -/
inductive Event where
  | validated (answer : Option Bool) (requestId : String) (fault : Option Fault)
  | acked (answer : Option Bool)
  | callback (error : Bool)
  | timeout

def typeOf (message : Json) : Option String := (message.get? "type").bind Json.asStr?

def isPowerType (message : Json) : Bool := typeOf message = some "standby" || typeOf message = some "wake"

def withRequestId (message : Json) (requestId : String) : Json :=
  .obj (Json.assign message.spread "request_id" (.str requestId))

namespace Dispatch

def viewer (d : Dispatch) : Bool := d.captured.connection.validateViewerLayout

def ws (d : Dispatch) : Nat := d.captured.connection.ws

/-- The dispatch is settled, once, and what it holds released. -/
def finish (d : Dispatch) (sent : Bool) : Dispatch × List Effect :=
  if d.settled then (d, [])
  else ({ d with settled := true, timer := false },
    (if d.viewer then [.release d.ws] else []) ++ d.cancelAck.toList.map .cancel ++ [.resolve sent])

/-- The write to the socket, whose callback is awaited. -/
def send (d : Dispatch) (payload : Json) (throws : Bool) : Dispatch × List Effect :=
  let d := { d with callback := true }
  if throws then ((d.finish false).1, .write d.ws payload.stringify :: (d.finish false).2)
  else (d, [.write d.ws payload.stringify])

/-- What follows the validation. `current` is `stillCurrent` less the check of `settled`. -/
def proceed (d : Dispatch) (current : Bool) (requestId : String) (fault : Option Fault) :
    Dispatch × List Effect :=
  if d.settled || !current then d.finish false
  else if !d.viewer then d.send d.captured.message (fault = some .send)
  else if !d.captured.registerAck || fault = some .registerAck then d.finish false
  else
    let d := { d with cancelAck := some requestId, ack := true }
    let r := d.send (withRequestId d.captured.message requestId) (fault = some .send)
    (r.1, .register requestId :: r.2)

/-- The answer of the layout's validation, after which the acknowledgement is awaited. -/
def onValidated (d : Dispatch) (current : Bool) (answer : Option Bool) (requestId : String)
    (fault : Option Fault) :
    Dispatch × List Effect :=
  let d := { d with validation := false }
  if answer = some true then d.proceed current requestId fault else d.finish false

/-- The device's acknowledgement, after which the message is sent. -/
def onAck (d : Dispatch) (current : Bool) (answer : Option Bool) : Dispatch × List Effect :=
  let d := { d with ack := false }
  if answer ≠ some true || d.settled || !current then d.finish false
  else
    let d := { d with accepted := true }
    if d.written then d.finish true else (d, [])

/-- The socket's callback ends the dispatch. -/
def onCallback (d : Dispatch) (current error : Bool) : Dispatch × List Effect :=
  let d := { d with callback := false }
  if error || d.settled || !current then d.finish false
  else
    let d := { d with written := true }
    if !d.viewer || d.accepted then d.finish true else (d, [])

/-- The reaction of the call, when it waits for the event. -/
def react (d : Dispatch) (current : Bool) : Event → Option (Dispatch × List Effect)
  | .validated answer requestId fault =>
    if d.validation then some (d.onValidated current answer requestId fault) else none
  | .acked answer => if d.ack then some (d.onAck current answer) else none
  | .callback error => if d.callback then some (d.onCallback current error) else none
  | .timeout => if d.timer then some ({ d with timer := false }.finish false) else none

/-- The closure right after it has armed its timer. -/
def start (c : Captured) : Dispatch := ⟨c, false, true, none, false, false, false, false, false, []⟩

/-- The part of the call that runs before it first waits. -/
def begin (c : Captured) (throws : Bool) : Dispatch × List Effect :=
  let d := start c
  if d.viewer then
    if !c.connection.validateViewerPower then d.finish false else ({ d with validation := true }, [])
  else d.proceed true "" (if throws then some .send else none)

end Dispatch

/-- The connection that a call takes; a call that takes none is answered `Promise.resolve(false)`. -/
def captures (connections : String → Option KioskConnection) (readyState : Nat → Nat)
    (activeViewerPower : List Nat)
    (kioskId : String) (message : Json) : Option KioskConnection := do
  let connection ← connections kioskId
  if readyState connection.ws ≠ 1 || !isPowerType message then none
  else if connection.validateViewerLayout && activeViewerPower.contains connection.ws then none
  else some connection

/-- The connections, and the dispatches under way. -/
structure State where
  connections : String → Option KioskConnection
  readyState : Nat → Nat
  activeViewerPower : List Nat
  calls : List (Option Dispatch)

/-- A call begins or goes on, or a connection changes. -/
inductive Label where
  | call (kioskId : String) (message : Json) (registerAck throws : Bool)
  | event (i : Nat) (e : Event)
  | connect (kioskId : String) (connection : KioskConnection)
  | disconnect (kioskId : String)
  | ready (ws readyState : Nat)

/-- The dispatch of the call number `i`, when the call took a connection. -/
def State.dispatch (s : State) (i : Nat) : Option Dispatch := s.calls[i]?.join

/-- The dispatch still has the registered, open socket. -/
def State.current (s : State) (d : Dispatch) : Bool :=
  s.connections d.captured.kioskId = some d.captured.connection && s.readyState d.ws = 1

/-- Keeps the effects in the dispatch's own history. -/
def Dispatch.traced (r : Dispatch × List Effect) : Dispatch := { r.1 with trace := r.1.trace ++ r.2 }

/-- The sockets with a power command under way, after the effects. -/
def released (activeViewerPower : List Nat) (out : List Effect) : List Nat :=
  activeViewerPower.filter fun ws => .release ws ∉ out

/-- A new call, with the connection it captured. -/
def dispatchPower (s : State) (kioskId : String) (message : Json) (registerAck throws : Bool) : State :=
  match captures s.connections s.readyState s.activeViewerPower kioskId message with
  | none => { s with calls := s.calls ++ [none] }
  | some connection =>
    let active := if connection.validateViewerLayout then connection.ws :: s.activeViewerPower
      else s.activeViewerPower
    let r := Dispatch.begin ⟨kioskId, connection, message, registerAck⟩ throws
    { s with activeViewerPower := released active r.2, calls := s.calls ++ [some (Dispatch.traced r)] }

def step (s : State) : Label → Option State
  | .call kioskId message registerAck throws => some (dispatchPower s kioskId message registerAck throws)
  | .event i e => do
    let d ← s.dispatch i
    let r ← d.react (s.current d) e
    some { s with
      activeViewerPower := released s.activeViewerPower r.2,
      calls := s.calls.set i (some (Dispatch.traced r)) }
  | .connect kioskId connection =>
    some { s with connections := Function.update s.connections kioskId (some connection) }
  | .disconnect kioskId => some { s with connections := Function.update s.connections kioskId none }
  | .ready ws readyState => some { s with readyState := Function.update s.readyState ws readyState }

/-- A request that awaits a power result. -/
structure PendingPowerResponse (ρ : Type) where
  kioskId : String
  socket : Nat
  responseType : Option String
  owner : ρ

def requestIdOf (message : Json) : String := ((message.get? "request_id").bind Json.asStr?).getD ""

/-- The requests that stay pending, the one that the message resolves, and what it is resolved with. -/
def acceptPowerResult {ρ : Type} (pendingRequests : OrdMap String (PendingPowerResponse ρ))
    (kioskId : String) (socket : Nat)
    (message : Json) : Option (OrdMap String (PendingPowerResponse ρ) × PendingPowerResponse ρ × Bool) := do
  let pending ← pendingRequests.get? (requestIdOf message)
  if typeOf message ≠ some "power-result" ∨ pending.responseType ≠ some "power-result" ∨
    pending.kioskId ≠ kioskId ∨ pending.socket ≠ socket then none
  else
    match message.get? "accepted" with
    | some (.bool accepted) => some (pendingRequests.erase (requestIdOf message), pending, accepted)
    | _ => none

/-! ### One call -/

/-- The effect reaches the device or waits for it. -/
def Effect.Opens : Effect → Prop
  | .register _ | .write _ _ => True
  | .release _ | .cancel _ | .resolve _ => False

namespace Dispatch

/-- What a call does when it settles. -/
def closing (d : Dispatch) (sent : Bool) : List Effect :=
  (if d.viewer then [.release d.ws] else []) ++ d.cancelAck.toList.map .cancel ++ [.resolve sent]

/-- What the call writes. -/
def payload (d : Dispatch) : Json :=
  match d.cancelAck with
  | none => d.captured.message
  | some requestId => withRequestId d.captured.message requestId

/-- What is so of a call at any time. -/
structure Sound (d : Dispatch) : Prop where
  running : d.settled = false → d.timer = true ∧ ∀ e ∈ d.trace, e.Opens
  ended : d.settled = true → ∃ done sent, d.trace = done ++ d.closing sent ∧ (∀ e ∈ done, e.Opens) ∧
    (sent = true → d.written = true ∧ (d.viewer = true → d.accepted = true))
  registered : ∀ requestId, .register requestId ∈ d.trace ↔ d.cancelAck = some requestId
  viewer : d.cancelAck.isSome → d.viewer = true
  acked : d.ack = true ∨ d.accepted = true → d.cancelAck.isSome
  sent : d.callback = true ∨ d.written = true →
    .write d.ws d.payload.stringify ∈ d.trace ∧ (d.viewer = true → d.cancelAck.isSome)
  fresh : d.validation = true → d.cancelAck = none ∧ d.written = false ∧ d.callback = false

variable {d d' : Dispatch} {current error throws sent : Bool} {answer : Option Bool} {requestId : String}
  {fault : Option Fault} {payload : Json} {c : Captured} {r : Dispatch × List Effect} {e : Event}

theorem finish_of_settled (h : d.settled = true) : d.finish sent = (d, []) := if_pos h

theorem finish_of_running (h : d.settled = false) :
    d.finish sent = ({ d with settled := true, timer := false }, d.closing sent) := by
  unfold finish
  rw [h]
  rfl

theorem finish_written : (d.finish sent).1.written = d.written := by unfold finish; split <;> rfl

theorem finish_accepted : (d.finish sent).1.accepted = d.accepted := by unfold finish; split <;> rfl

theorem finish_cancelAck : (d.finish sent).1.cancelAck = d.cancelAck := by unfold finish; split <;> rfl

theorem finish_trace {trace : List Effect} :
    Dispatch.finish { d with trace := trace } sent = ({ (d.finish sent).1 with trace := trace },
    (d.finish sent).2) := by
  unfold Dispatch.finish
  split <;> rfl

theorem finish_fst_trace : (d.finish sent).1.trace = d.trace := by
  unfold Dispatch.finish
  split <;> rfl

theorem send_trace {trace : List Effect} :
    Dispatch.send { d with trace := trace } payload throws =
      ({ (d.send payload throws).1 with trace := trace }, (d.send payload throws).2) := by
  unfold Dispatch.send
  cases throws
  · rfl
  · simp only [if_true]
    rw [finish_trace (d := { d with callback := true })]
    rfl

theorem send_fst_trace : (d.send payload throws).1.trace = d.trace := by
  unfold Dispatch.send
  split
  · exact finish_fst_trace
  · rfl

theorem Sound.traced_nil (h : d.Sound) : (traced (d, [])).Sound := by
  show Sound { d with trace := d.trace ++ [] }
  rw [List.append_nil]
  exact h

theorem register_notin_closing : .register requestId ∉ d.closing sent := by
  cases hv : d.viewer <;> simp [closing, hv]

theorem Sound.finish (h : d.Sound)
    (hsent : sent = true → d.written = true ∧ (d.viewer = true → d.accepted = true)) :
    (traced (d.finish sent)).Sound := by
  rcases hs : d.settled with _ | _
  · rw [finish_of_running hs]
    obtain ⟨-, hopens⟩ := h.running hs
    exact {
      running := fun hne => (by cases hne)
      ended := fun _ => ⟨d.trace, sent, rfl, hopens, hsent⟩
      registered := fun requestId =>
        (List.mem_append.trans (or_iff_left register_notin_closing)).trans (h.registered requestId)
      viewer := h.viewer
      acked := h.acked
      sent := fun hc => ⟨List.mem_append_left _ (h.sent hc).1, (h.sent hc).2⟩
      fresh := h.fresh }
  · rw [finish_of_settled hs]
    exact h.traced_nil

/-- An unsettled call that writes its payload. -/
theorem Sound.send (h : d.Sound) (hs : d.settled = false) (hp : payload = d.payload)
    (hv : d.viewer = true → d.cancelAck.isSome)
    (hfresh : d.validation = false) : (traced (d.send payload throws)).Sound := by
  obtain ⟨htimer, hopens⟩ := h.running hs
  have hsent : Sound { d with callback := true, trace := d.trace ++ [.write d.ws payload.stringify] } := {
    running := fun _ => ⟨htimer, fun e he => by
      rcases List.mem_append.1 he with he | he
      · exact hopens e he
      · rw [List.mem_singleton.1 he]
        trivial⟩
    ended := fun h => absurd (hs.symm.trans h) (by decide)
    registered := fun requestId => by
      rw [← h.registered requestId, List.mem_append]
      exact or_iff_left fun hmem => (by cases List.mem_singleton.1 hmem)
    viewer := h.viewer
    acked := h.acked
    sent := fun _ => ⟨List.mem_append_right _ (hp ▸ List.mem_singleton_self _), hv⟩
    fresh := fun hf => absurd (hfresh.symm.trans hf) (by decide) }
  unfold Dispatch.send
  cases throws
  · exact hsent
  · have hfinish : (traced (Dispatch.finish _ false)).Sound := hsent.finish fun h => nomatch h
    rw [finish_of_running (by exact hs)] at hfinish
    show Sound (Dispatch.traced (_, _ :: _))
    rw [finish_of_running (by exact hs)]
    simp only [traced, List.append_assoc, List.singleton_append] at hfinish ⊢
    exact hfinish

theorem Sound.proceed (h : d.Sound) (hv : d.validation = false) (hack : d.cancelAck = none)
    (hc : d.written = false) (hb : d.callback = false) :
    (traced (d.proceed current requestId fault)).Sound := by
  have hfail : (traced (d.finish false)).Sound := h.finish (fun h => nomatch h)
  unfold Dispatch.proceed
  split
  · exact hfail
  next hgo =>
  have hs : d.settled = false := by
    rcases hs : d.settled with _ | _
    · rfl
    · simp [hs] at hgo
  split
  · next hdesktop =>
    have hdesktop : d.viewer = false := by simpa using hdesktop
    refine h.send hs ?_ (fun hv => absurd (hdesktop.symm.trans hv) (by decide)) hv
    rw [payload, hack]
  next hviewer =>
  have hviewer : d.viewer = true := by simpa using hviewer
  split
  · exact hfail
  obtain ⟨htimer, hopens⟩ := h.running hs
  have hregistered : Sound { d with cancelAck := some requestId, ack := true, trace := d.trace ++
    [.register requestId] } := {
    running := fun _ => ⟨htimer, fun e he => by
      rcases List.mem_append.1 he with he | he
      · exact hopens e he
      · rw [List.mem_singleton.1 he]
        trivial⟩
    ended := fun h => absurd (hs.symm.trans h) (by decide)
    registered := fun id => by
      have hnone : .register id ∉ d.trace := fun hmem => by
        have := (h.registered id).1 hmem
        rw [hack] at this
        cases this
      rw [List.mem_append, or_iff_right hnone, List.mem_singleton]
      simp [eq_comm]
    viewer := fun _ => hviewer
    acked := fun _ => rfl
    sent := fun hsent => by
      rcases hsent with hsent | hsent
      · exact absurd (hb.symm.trans hsent) (by decide)
      · exact absurd (hc.symm.trans hsent) (by decide)
    fresh := fun hf => absurd (hv.symm.trans hf) (by decide) }
  have hsend : (traced (Dispatch.send _ (withRequestId d.captured.message requestId)
        (fault = some .send))).Sound :=
    hregistered.send hs rfl (fun _ => rfl) hv
  rw [send_trace (d := { d with cancelAck := some requestId, ack := true })] at hsend
  simp only [traced, send_fst_trace, List.append_assoc, List.singleton_append] at hsend ⊢
  exact hsend

/-- Noting that an answer has come keeps the call sound. -/
theorem Sound.heard {validation ack callback : Bool} (h : d.Sound)
    (hv : validation = true → d.validation = true)
    (ha : ack = true → d.ack = true) (hc : callback = true → d.callback = true) :
    Sound { d with validation := validation, ack := ack, callback := callback } where
  running := h.running
  ended := h.ended
  registered := h.registered
  viewer := h.viewer
  acked := fun hor => h.acked (hor.imp ha id)
  sent := fun hor => h.sent (hor.imp hc id)
  fresh := fun hf => by
    obtain ⟨hack, hw, hb⟩ := h.fresh (hv hf)
    refine ⟨hack, hw, ?_⟩
    show callback = false
    cases callback
    · rfl
    · exact absurd (hb.symm.trans (hc rfl)) (by decide)

theorem start_sound (c : Captured) : (start c).Sound where
  running := fun _ => ⟨rfl, fun _ he => absurd he List.not_mem_nil⟩
  ended := fun h => nomatch h
  registered := fun _ => ⟨fun h => absurd h List.not_mem_nil, fun h => nomatch h⟩
  viewer := fun h => nomatch h
  acked := fun h => by rcases h with h | h <;> cases h
  sent := fun h => by rcases h with h | h <;> cases h
  fresh := fun h => nomatch h

theorem begin_sound (c : Captured) (throws : Bool) : (traced (Dispatch.begin c throws)).Sound := by
  unfold Dispatch.begin
  dsimp only
  split
  · split
    · exact (start_sound c).finish fun h => nomatch h
    · exact {
        running := fun _ => ⟨rfl, fun _ he => absurd he List.not_mem_nil⟩
        ended := fun h => nomatch h
        registered := fun _ => ⟨fun h => absurd h List.not_mem_nil, fun h => nomatch h⟩
        viewer := fun h => nomatch h
        acked := fun h => by rcases h with h | h <;> cases h
        sent := fun h => by rcases h with h | h <;> cases h
        fresh := fun _ => ⟨rfl, rfl, rfl⟩ }
  · exact (start_sound c).proceed rfl rfl rfl rfl

/-- Every reaction keeps a call sound. -/
theorem Sound.react (h : d.Sound) (hr : d.react current e = some r) : (traced r).Sound := by
  cases e with
  | validated answer requestId fault =>
    obtain ⟨hv, hr⟩ := Option.ite_none_right_eq_some.1 hr
    obtain rfl := Option.some.inj hr
    have hheard : Sound { d with validation := false } := h.heard (fun h => nomatch h) id id
    obtain ⟨hack, hw, hb⟩ := h.fresh hv
    unfold onValidated
    dsimp only
    split
    · exact hheard.proceed rfl hack hw hb
    · exact hheard.finish fun h => nomatch h
  | acked answer =>
    obtain ⟨ha, hr⟩ := Option.ite_none_right_eq_some.1 hr
    obtain rfl := Option.some.inj hr
    have hsome : d.cancelAck.isSome := h.acked (.inl ha)
    have hheard : Sound { d with ack := false } := h.heard id (fun h => nomatch h) id
    unfold onAck
    dsimp only
    split
    · exact hheard.finish fun h => nomatch h
    have haccepted : Sound { d with ack := false, accepted := true } :=
      { hheard with
        ended := fun hs => by
          obtain ⟨done, sent, htrace, hopens, htrue⟩ := h.ended hs
          exact ⟨done, sent, htrace, hopens, fun ht => ⟨(htrue ht).1, fun _ => rfl⟩⟩
        acked := fun _ => hsome }
    split
    · next hw => exact haccepted.finish fun _ => ⟨hw, fun _ => rfl⟩
    · exact haccepted.traced_nil
  | callback error =>
    obtain ⟨hc, hr⟩ := Option.ite_none_right_eq_some.1 hr
    obtain rfl := Option.some.inj hr
    have hsent := h.sent (.inl hc)
    have hheard : Sound { d with callback := false } := h.heard id id (fun h => nomatch h)
    unfold onCallback
    dsimp only
    split
    · exact hheard.finish fun h => nomatch h
    have hwritten : Sound { d with callback := false, written := true } :=
      { hheard with
        ended := fun hs => by
          obtain ⟨done, sent, htrace, hopens, htrue⟩ := h.ended hs
          exact ⟨done, sent, htrace, hopens, fun ht => ⟨rfl, (htrue ht).2⟩⟩
        sent := fun _ => hsent
        fresh := fun hv => absurd ((h.fresh hv).2.2.symm.trans hc) (by decide) }
    split
    · next hdone =>
      refine hwritten.finish fun _ => ⟨rfl, fun hv => ?_⟩
      rcases Bool.or_eq_true_iff.1 hdone with hdesktop | ha
      · rw [hv] at hdesktop
        cases hdesktop
      · exact ha
    · exact hwritten.traced_nil
  | timeout =>
    obtain ⟨ht, hr⟩ := Option.ite_none_right_eq_some.1 hr
    obtain rfl := Option.some.inj hr
    by_cases hs : d.settled = true
    · rw [finish_of_settled (by exact hs)]
      exact Sound.traced_nil { h with running := fun hn => absurd (hs.symm.trans hn) (by decide) }
    · have hs : d.settled = false := by simpa using hs
      have hfinish : (traced (d.finish false)).Sound := h.finish fun h => nomatch h
      rw [finish_of_running hs] at hfinish
      rw [finish_of_running (by exact hs)]
      exact hfinish

/-- What a piece of a call leaves alone: the captured call stays, a settled call stays settled, and the
socket of a viewer is released exactly when the call settles. -/
structure Continues (d : Dispatch) (r : Dispatch × List Effect) : Prop where
  captured : r.1.captured = d.captured
  settled : d.settled = true → r.1.settled = true
  releases : ∀ ws, .release ws ∈ r.2 ↔ d.viewer = true ∧ ws = d.ws ∧ d.settled = false ∧ r.1.settled = true

theorem Continues.of (h : Continues d' r) (hc : d'.captured = d.captured) (hs : d'.settled = d.settled) :
    Continues d r where
  captured := h.captured.trans hc
  settled := fun hd => h.settled (hs.trans hd)
  releases := fun ws => by
    have hreleases := h.releases ws
    rwa [viewer, Dispatch.ws, hc, hs] at hreleases

/-- An effect other than a release. -/
theorem Continues.cons {x : Effect} (h : Continues d r) (hne : ∀ ws, x ≠ .release ws) :
    Continues d (r.1, x :: r.2) where
  captured := h.captured
  settled := h.settled
  releases := fun ws => (List.mem_cons.trans (or_iff_right (Ne.symm (hne ws)))).trans (h.releases ws)

theorem continues_self (d : Dispatch) : Continues d (d, []) where
  captured := rfl
  settled := id
  releases := fun ws => ⟨fun h => absurd h List.not_mem_nil,
    fun h => absurd (h.2.2.1.symm.trans h.2.2.2) (by decide)⟩

theorem finish_continues (d : Dispatch) (sent : Bool) : Continues d (d.finish sent) := by
  by_cases hs : d.settled = true
  · rw [finish_of_settled hs]
    exact continues_self d
  · have hs : d.settled = false := by simpa using hs
    rw [finish_of_running hs]
    refine ⟨rfl, fun _ => rfl, fun ws => ?_⟩
    rcases hv : d.viewer with _ | _ <;> simp [closing, hv, hs]

theorem send_continues (d : Dispatch) (payload : Json) (throws : Bool) :
    Continues d (d.send payload throws) := by
  have hwrite (ws : Nat) : Effect.write d.ws payload.stringify ≠ .release ws := fun h => nomatch h
  unfold send
  cases throws
  · exact ((continues_self { d with callback := true }).cons hwrite).of rfl rfl
  · exact ((finish_continues { d with callback := true } false).cons hwrite).of rfl rfl

theorem proceed_continues (d : Dispatch) (current : Bool) (requestId : String) (fault : Option Fault) :
    Continues d (d.proceed current requestId fault) := by
  unfold proceed
  split
  · exact finish_continues d false
  split
  · exact send_continues d _ _
  split
  · exact finish_continues d false
  · exact ((send_continues { d with cancelAck := some requestId, ack := true } _ _).cons
      (x := .register requestId) fun _ h => (by cases h)).of rfl rfl

theorem react_continues (hr : d.react current e = some r) : Continues d r := by
  cases e with
  | validated answer requestId fault =>
    obtain ⟨-, hr⟩ := Option.ite_none_right_eq_some.1 hr
    obtain rfl := Option.some.inj hr
    unfold onValidated
    dsimp only
    split
    · exact (proceed_continues _ current requestId fault).of rfl rfl
    · exact (finish_continues _ false).of rfl rfl
  | acked answer =>
    obtain ⟨-, hr⟩ := Option.ite_none_right_eq_some.1 hr
    obtain rfl := Option.some.inj hr
    unfold onAck
    dsimp only
    split
    · exact (finish_continues _ false).of rfl rfl
    split
    · exact (finish_continues _ true).of rfl rfl
    · exact (continues_self _).of rfl rfl
  | callback error =>
    obtain ⟨-, hr⟩ := Option.ite_none_right_eq_some.1 hr
    obtain rfl := Option.some.inj hr
    unfold onCallback
    dsimp only
    split
    · exact (finish_continues _ false).of rfl rfl
    split
    · exact (finish_continues _ true).of rfl rfl
    · exact (continues_self _).of rfl rfl
  | timeout =>
    obtain ⟨-, hr⟩ := Option.ite_none_right_eq_some.1 hr
    obtain rfl := Option.some.inj hr
    exact (finish_continues _ false).of rfl rfl

/-! ### Where the flags come from -/

theorem send_written : (d.send payload throws).1.written = d.written := by
  unfold send
  split
  · exact finish_written
  · rfl

theorem send_accepted : (d.send payload throws).1.accepted = d.accepted := by
  unfold send
  split
  · exact finish_accepted
  · rfl

theorem send_cancelAck : (d.send payload throws).1.cancelAck = d.cancelAck := by
  unfold send
  split
  · exact finish_cancelAck
  · rfl

theorem proceed_written : (d.proceed current requestId fault).1.written = d.written := by
  unfold proceed
  split
  · exact finish_written
  split
  · exact send_written
  split
  · exact finish_written
  · exact send_written

theorem proceed_accepted : (d.proceed current requestId fault).1.accepted = d.accepted := by
  unfold proceed
  split
  · exact finish_accepted
  split
  · exact send_accepted
  split
  · exact finish_accepted
  · exact send_accepted

/-- A registration is made by a call that is still waiting, on a connection that is still current. -/
theorem proceed_registers {id : String} (h : (d.proceed current requestId fault).1.cancelAck = some id)
    (hne : d.cancelAck ≠ some id) : id = requestId ∧ d.settled = false ∧ current = true := by
  unfold proceed at h
  split at h
  · exact absurd (finish_cancelAck.symm.trans h) hne
  next hgo =>
  split at h
  · exact absurd (send_cancelAck.symm.trans h) hne
  split at h
  · exact absurd (finish_cancelAck.symm.trans h) hne
  · have hid : some requestId = some id := send_cancelAck.symm.trans h
    simp only [Bool.or_eq_true, Bool.not_eq_true', not_or, Bool.not_eq_true, Bool.not_eq_false] at hgo
    exact ⟨(Option.some.inj hid).symm, hgo⟩

theorem react_written (hr : d.react current e = some r) (hn : d.written = false) (h : r.1.written = true) :
    e = .callback false ∧ d.settled = false ∧ current = true := by
  cases e with
  | validated answer requestId fault =>
    obtain ⟨-, hr⟩ := Option.ite_none_right_eq_some.1 hr
    obtain rfl := Option.some.inj hr
    have hw : (d.onValidated current answer requestId fault).1.written = d.written := by
      unfold onValidated
      dsimp only
      split
      · exact proceed_written
      · exact finish_written
    rw [hw, hn] at h
    cases h
  | acked answer =>
    obtain ⟨-, hr⟩ := Option.ite_none_right_eq_some.1 hr
    obtain rfl := Option.some.inj hr
    have hw : (d.onAck current answer).1.written = d.written := by
      unfold onAck
      dsimp only
      split
      · exact finish_written
      split
      · exact finish_written
      · rfl
    rw [hw, hn] at h
    cases h
  | callback error =>
    obtain ⟨-, hr⟩ := Option.ite_none_right_eq_some.1 hr
    obtain rfl := Option.some.inj hr
    unfold onCallback at h
    dsimp only at h
    split at h
    · rw [finish_written, hn] at h
      cases h
    · next hgo =>
      simp only [Bool.or_eq_true, Bool.not_eq_true', not_or, Bool.not_eq_true, Bool.not_eq_false] at hgo
      exact ⟨by rw [hgo.1.1], hgo.1.2, hgo.2⟩
  | timeout =>
    obtain ⟨-, hr⟩ := Option.ite_none_right_eq_some.1 hr
    obtain rfl := Option.some.inj hr
    rw [finish_written, hn] at h
    cases h

theorem react_accepted (hr : d.react current e = some r) (hn : d.accepted = false) (h : r.1.accepted = true) :
    e = .acked (some true) ∧ d.settled = false ∧ current = true := by
  cases e with
  | validated answer requestId fault =>
    obtain ⟨-, hr⟩ := Option.ite_none_right_eq_some.1 hr
    obtain rfl := Option.some.inj hr
    have ha : (d.onValidated current answer requestId fault).1.accepted = d.accepted := by
      unfold onValidated
      dsimp only
      split
      · exact proceed_accepted
      · exact finish_accepted
    rw [ha, hn] at h
    cases h
  | acked answer =>
    obtain ⟨-, hr⟩ := Option.ite_none_right_eq_some.1 hr
    obtain rfl := Option.some.inj hr
    unfold onAck at h
    dsimp only at h
    split at h
    · rw [finish_accepted, hn] at h
      cases h
    · next hgo =>
      simp only [Bool.or_eq_true, Bool.not_eq_true', not_or, Bool.not_eq_true, Bool.not_eq_false, ne_eq,
        decide_eq_false_iff_not, not_not] at hgo
      exact ⟨by rw [hgo.1.1], hgo.1.2, hgo.2⟩
  | callback error =>
    obtain ⟨-, hr⟩ := Option.ite_none_right_eq_some.1 hr
    obtain rfl := Option.some.inj hr
    have ha : (d.onCallback current error).1.accepted = d.accepted := by
      unfold onCallback
      dsimp only
      split
      · exact finish_accepted
      split
      · exact finish_accepted
      · rfl
    rw [ha, hn] at h
    cases h
  | timeout =>
    obtain ⟨-, hr⟩ := Option.ite_none_right_eq_some.1 hr
    obtain rfl := Option.some.inj hr
    rw [finish_accepted, hn] at h
    cases h

theorem react_registers {id : String} (hr : d.react current e = some r) (hne : d.cancelAck ≠ some id)
    (h : r.1.cancelAck = some id) : (∃ fault, e = .validated (some true) id fault) ∧
    d.settled = false ∧ current = true := by
  cases e with
  | validated answer requestId fault =>
    obtain ⟨-, hr⟩ := Option.ite_none_right_eq_some.1 hr
    obtain rfl := Option.some.inj hr
    unfold onValidated at h
    dsimp only at h
    split at h
    · next ha =>
      obtain ⟨rfl, hgo⟩ := proceed_registers h hne
      exact ⟨⟨fault, by rw [ha]⟩, hgo⟩
    · exact absurd (finish_cancelAck.symm.trans h) hne
  | acked answer =>
    obtain ⟨-, hr⟩ := Option.ite_none_right_eq_some.1 hr
    obtain rfl := Option.some.inj hr
    have hc : (d.onAck current answer).1.cancelAck = d.cancelAck := by
      unfold onAck
      dsimp only
      split
      · exact finish_cancelAck
      split
      · exact finish_cancelAck
      · rfl
    exact absurd (hc.symm.trans h) hne
  | callback error =>
    obtain ⟨-, hr⟩ := Option.ite_none_right_eq_some.1 hr
    obtain rfl := Option.some.inj hr
    have hc : (d.onCallback current error).1.cancelAck = d.cancelAck := by
      unfold onCallback
      dsimp only
      split
      · exact finish_cancelAck
      split
      · exact finish_cancelAck
      · rfl
    exact absurd (hc.symm.trans h) hne
  | timeout =>
    obtain ⟨-, hr⟩ := Option.ite_none_right_eq_some.1 hr
    obtain rfl := Option.some.inj hr
    exact absurd (finish_cancelAck.symm.trans h) hne

/-! ### Registrations -/

/-- No ACK is registered. -/
def Quiet (out : List Effect) : Prop := ∀ id, .register id ∉ out

theorem finish_quiet (d : Dispatch) (sent : Bool) : Quiet (d.finish sent).2 := by
  intro id hmem
  by_cases hs : d.settled = true
  · rw [finish_of_settled hs] at hmem
    cases hmem
  · rw [finish_of_running (by simpa using hs)] at hmem
    exact register_notin_closing hmem

theorem send_effects (d : Dispatch) (payload : Json) (throws : Bool) :
    ∃ rest, (d.send payload throws).2 = .write d.ws payload.stringify :: rest ∧ Quiet rest := by
  unfold send
  cases throws
  · exact ⟨[], rfl, fun id hmem => absurd hmem List.not_mem_nil⟩
  · exact ⟨_, rfl, finish_quiet { d with callback := true } false⟩

theorem send_quiet (d : Dispatch) (payload : Json) (throws : Bool) : Quiet (d.send payload throws).2 := by
  obtain ⟨rest, hrest, hq⟩ := send_effects d payload throws
  rw [hrest]
  intro id hmem
  rcases List.mem_cons.1 hmem with h | h
  · cases h
  · exact hq id h

theorem proceed_effects (d : Dispatch) (current : Bool) (requestId : String) (fault : Option Fault) :
    Quiet (d.proceed current requestId fault).2 ∨ d.settled = false ∧ current = true ∧ d.viewer = true ∧
      ∃ rest, (d.proceed current requestId fault).2 = .register requestId ::
        .write d.ws (withRequestId d.captured.message requestId).stringify :: rest ∧ Quiet rest := by
  unfold proceed
  split
  · exact .inl (finish_quiet d false)
  next hgo =>
  split
  · exact .inl (send_quiet d _ _)
  next hviewer =>
  split
  · exact .inl (finish_quiet d false)
  · simp only [Bool.or_eq_true, Bool.not_eq_true', not_or, Bool.not_eq_true, Bool.not_eq_false] at hgo hviewer
    obtain ⟨rest, hrest, hq⟩ := send_effects { d with cancelAck := some requestId, ack := true }
      (withRequestId d.captured.message requestId) (fault = some .send)
    exact .inr ⟨hgo.1, hgo.2, hviewer, rest, congrArg _ hrest, hq⟩

theorem begin_quiet (c : Captured) (throws : Bool) : Quiet (Dispatch.begin c throws).2 := by
  unfold Dispatch.begin
  dsimp only
  split
  · split
    · exact finish_quiet _ _
    · exact fun id hmem => absurd hmem List.not_mem_nil
  · next hdesktop =>
    rcases proceed_effects (start c) true "" (if throws then some .send else none) with h | ⟨-, -, hv, -⟩
    · exact h
    · exact absurd hv hdesktop

/-- Only a validation that comes in time makes a call register for an ACK, and it registers first of all. -/
theorem react_effects (hr : d.react current e = some r) :
    Quiet r.2 ∨ ∃ requestId fault rest, e = .validated (some true) requestId fault ∧
    d.settled = false ∧ current = true ∧
      r.2 = .register requestId :: .write d.ws (withRequestId d.captured.message requestId).stringify ::
      rest ∧ Quiet rest := by
  cases e with
  | validated answer requestId fault =>
    obtain ⟨-, hr⟩ := Option.ite_none_right_eq_some.1 hr
    obtain rfl := Option.some.inj hr
    unfold onValidated
    dsimp only
    split
    · next ha =>
      rcases proceed_effects { d with validation := false } current requestId fault with h | ⟨hs,
        hc, -, rest, hrest, hq⟩
      · exact .inl h
      · exact .inr ⟨requestId, fault, rest, by rw [ha], hs, hc, hrest, hq⟩
    · exact .inl (finish_quiet _ _)
  | acked answer =>
    obtain ⟨-, hr⟩ := Option.ite_none_right_eq_some.1 hr
    obtain rfl := Option.some.inj hr
    left
    unfold onAck
    dsimp only
    split
    · exact finish_quiet _ _
    split
    · exact finish_quiet _ _
    · exact fun id hmem => absurd hmem List.not_mem_nil
  | callback error =>
    obtain ⟨-, hr⟩ := Option.ite_none_right_eq_some.1 hr
    obtain rfl := Option.some.inj hr
    left
    unfold onCallback
    dsimp only
    split
    · exact finish_quiet _ _
    split
    · exact finish_quiet _ _
    · exact fun id hmem => absurd hmem List.not_mem_nil
  | timeout =>
    obtain ⟨-, hr⟩ := Option.ite_none_right_eq_some.1 hr
    obtain rfl := Option.some.inj hr
    exact .inl (finish_quiet _ _)

theorem begin_continues (c : Captured) (throws : Bool) : Continues (start c) (Dispatch.begin c throws) := by
  unfold Dispatch.begin
  dsimp only
  split
  · split
    · exact finish_continues _ false
    · exact (continues_self { start c with validation := true }).of rfl rfl
  · exact proceed_continues _ _ _ _

theorem begin_written (c : Captured) (throws : Bool) : (Dispatch.begin c throws).1.written = false := by
  unfold Dispatch.begin
  dsimp only
  split
  · split
    · exact finish_written
    · rfl
  · exact proceed_written

theorem begin_accepted (c : Captured) (throws : Bool) : (Dispatch.begin c throws).1.accepted = false := by
  unfold Dispatch.begin
  dsimp only
  split
  · split
    · exact finish_accepted
    · rfl
  · exact proceed_accepted

/-- Only a viewer registers for an ACK, and never before its validation. -/
theorem begin_cancelAck (c : Captured) (throws : Bool) : (Dispatch.begin c throws).1.cancelAck = none := by
  by_cases hv : (start c).viewer = true
  · unfold Dispatch.begin
    dsimp only
    rw [if_pos hv]
    split
    · exact finish_cancelAck
    · rfl
  · refine Option.eq_none_iff_forall_ne_some.2 fun requestId hr => hv ?_
    have hviewer : (Dispatch.begin c throws).1.viewer = true :=
      (begin_sound c throws).viewer (Option.isSome_of_eq_some hr)
    rw [viewer, (begin_continues c throws).captured] at hviewer
    exact hviewer

end Dispatch

/-! ### All calls -/

variable {s s' s₀ : State} {l : Label} {ls : List Label} {i j : Nat} {d d' : Dispatch}
  {kioskId : String} {message : Json}
  {connection : KioskConnection}

theorem captures_eq_some (h : captures s.connections s.readyState s.activeViewerPower kioskId
    message = some connection) :
    s.connections kioskId = some connection ∧ s.readyState connection.ws = 1 ∧
      (connection.validateViewerLayout = true → connection.ws ∉ s.activeViewerPower) := by
  unfold captures at h
  obtain ⟨c, hc, h⟩ := Option.bind_eq_some_iff.1 h
  split at h
  · cases h
  next hopen =>
  split at h
  · cases h
  next hfree =>
  obtain rfl := Option.some.inj h
  simp only [Bool.or_eq_true, decide_eq_true_eq, not_or, not_not] at hopen
  refine ⟨hc, hopen.1, fun hv hmem => hfree ?_⟩
  rw [hv, List.contains_iff_mem.2 hmem]
  rfl

theorem join_append (calls : List (Option Dispatch)) (x : Option Dispatch) (i : Nat) :
    (calls ++ [x])[i]?.join = if i = calls.length then x else calls[i]?.join := by
  rcases Nat.lt_trichotomy i calls.length with hi | rfl | hi
  · rw [List.getElem?_append_left hi, if_neg (by omega)]
  · simp
  · have hout : (calls ++ [x]).length ≤ i := by
      rw [List.length_append, List.length_singleton]
      omega
    rw [List.getElem?_eq_none hout, if_neg (by omega), List.getElem?_eq_none (by omega)]

theorem join_set {calls : List (Option Dispatch)} {k : Nat} (hd : calls[k]?.join = some d)
    (x : Option Dispatch) (i : Nat) :
    (calls.set k x)[i]?.join = if i = k then x else calls[i]?.join := by
  have hlt : k < calls.length := by
    by_contra hge
    rw [List.getElem?_eq_none (by omega)] at hd
    cases hd
  by_cases hik : i = k
  · subst hik
    simp [hlt]
  · rw [List.getElem?_set_ne (Ne.symm hik), if_neg hik]

/-- The calls that a step makes or moves on. -/
theorem dispatch_cases (h : step s l = some s') (hd : s'.dispatch i = some d') :
    s.dispatch i = some d' ∨
    (∃ c throws, l = .call c.kioskId c.message c.registerAck throws ∧ i = s.calls.length ∧
      captures s.connections s.readyState s.activeViewerPower c.kioskId c.message = some c.connection ∧
      d' = Dispatch.traced (Dispatch.begin c throws)) ∨
    ∃ e d r, l = .event i e ∧ s.dispatch i = some d ∧ d.react (s.current d) e = some r ∧
    d' = Dispatch.traced r := by
  cases l with
  | call kioskId message registerAck throws =>
    obtain rfl := Option.some.inj h
    unfold dispatchPower at hd
    split at hd
    · unfold State.dispatch at hd ⊢
      rw [join_append] at hd
      split at hd
      · cases hd
      · exact .inl hd
    · next connection hc =>
      unfold State.dispatch at hd ⊢
      rw [join_append] at hd
      split at hd
      · next hi =>
          exact .inr (.inl ⟨⟨kioskId, connection, message, registerAck⟩, throws, rfl, hi, hc,
            (Option.some.inj hd).symm⟩)
      · exact .inl hd
  | event k e =>
    obtain ⟨d, hk, h⟩ := Option.bind_eq_some_iff.1 h
    obtain ⟨r, hr, h⟩ := Option.bind_eq_some_iff.1 h
    obtain rfl := Option.some.inj h
    unfold State.dispatch at hd ⊢
    rw [join_set hk] at hd
    split at hd
    · next hik =>
      subst hik
      exact .inr (.inr ⟨e, d, r, rfl, hk, hr, (Option.some.inj hd).symm⟩)
    · exact .inl hd
  | connect kioskId connection =>
    obtain rfl := Option.some.inj h
    exact .inl hd
  | disconnect kioskId =>
    obtain rfl := Option.some.inj h
    exact .inl hd
  | ready ws readyState =>
    obtain rfl := Option.some.inj h
    exact .inl hd

/-- A dispatch that holds its socket. -/
def State.Holds (s : State) (i ws : Nat) : Prop :=
  ∃ d, s.dispatch i = some d ∧ d.viewer = true ∧ d.ws = ws ∧ d.settled = false

/-- A viewer is in the set while one dispatch holds its socket, and no two do. -/
structure Inv (s : State) : Prop where
  sound : ∀ i d, s.dispatch i = some d → d.Sound
  active : ∀ ws, ws ∈ s.activeViewerPower ↔ ∃ i, s.Holds i ws
  alone : ∀ i j ws, s.Holds i ws → s.Holds j ws → i = j

theorem Inv.sound_step (hi : Inv s) (h : step s l = some s') (hd : s'.dispatch i = some d') : d'.Sound := by
  rcases dispatch_cases h hd with hold | ⟨c, throws, -, -, -, rfl⟩ | ⟨e, d, r, -, hold, hr, rfl⟩
  · exact hi.sound _ _ hold
  · exact Dispatch.begin_sound c throws
  · exact (hi.sound _ _ hold).react hr

theorem mem_released {active : List Nat} {out : List Effect} {ws : Nat} :
    ws ∈ released active out ↔ ws ∈ active ∧ .release ws ∉ out := by
  simp [released, List.mem_filter]

/-- A call takes the socket of a viewer that no other call holds. -/
theorem Inv.call (hi : Inv s) {throws registerAck : Bool} :
    Inv (dispatchPower s kioskId message registerAck throws) := by
  have hstep : step s (.call kioskId message registerAck throws) =
      some (dispatchPower s kioskId message registerAck throws) := rfl
  have hsound (i : Nat) (d : Dispatch) (hd : State.dispatch _ i = some d) : d.Sound := hi.sound_step hstep hd
  unfold dispatchPower at hsound ⊢
  split at hsound
  · have hholds (i ws : Nat) : State.Holds { s with calls := s.calls ++ [none] } i ws ↔ s.Holds i ws := by
      unfold State.Holds State.dispatch
      rw [join_append]
      split
      · next hn => simp [hn]
      · rfl
    refine ⟨hsound, fun ws => ?_, fun i j ws hi' hj =>
      hi.alone i j ws ((hholds i ws).1 hi') ((hholds j ws).1 hj)⟩
    simp only [hholds]
    exact hi.active ws
  next connection hc =>
  obtain ⟨-, -, hfree⟩ := captures_eq_some hc
  dsimp only at hsound ⊢
  generalize hr : Dispatch.begin ⟨kioskId, connection, message, registerAck⟩ throws = r at *
  obtain ⟨hcaptured, -, hreleases⟩ :
      Dispatch.Continues (Dispatch.start ⟨kioskId, connection, message, registerAck⟩) r :=
    hr ▸ Dispatch.begin_continues _ _
  generalize hs' : ({ s with
      activeViewerPower := released (if connection.validateViewerLayout then connection.ws ::
        s.activeViewerPower
        else s.activeViewerPower) r.2
      calls := s.calls ++ [some (Dispatch.traced r)] } : State) = s' at *
  have hviewer : (Dispatch.traced r).viewer = connection.validateViewerLayout :=
    congrArg (·.connection.validateViewerLayout) hcaptured
  have hws : (Dispatch.traced r).ws = connection.ws := congrArg (·.connection.ws) hcaptured
  have hself (ws : Nat) : s'.Holds s.calls.length ws ↔
      connection.validateViewerLayout = true ∧ ws = connection.ws ∧ r.1.settled = false := by
    subst hs'
    unfold State.Holds State.dispatch
    rw [join_append, if_pos rfl]
    constructor
    · rintro ⟨d, hd, hv, hw, hn⟩
      obtain rfl := Option.some.inj hd
      exact ⟨hviewer ▸ hv, hw ▸ hws, hn⟩
    · rintro ⟨hv, rfl, hn⟩
      exact ⟨_, rfl, hviewer.trans hv, hws, hn⟩
  have hother (j ws : Nat) (hj : j ≠ s.calls.length) : s'.Holds j ws ↔ s.Holds j ws := by
    subst hs'
    unfold State.Holds State.dispatch
    rw [join_append, if_neg hj]
  have hold (j ws : Nat) (h : s.Holds j ws) : j ≠ s.calls.length := by
    rintro rfl
    obtain ⟨d, hd, -⟩ := h
    rw [State.dispatch, List.getElem?_eq_none (Nat.le_refl _)] at hd
    cases hd
  have hnot (j : Nat) (hv : connection.validateViewerLayout = true) : ¬ s.Holds j connection.ws := fun h =>
    hfree hv ((hi.active _).2 ⟨j, h⟩)
  have hactive (ws : Nat) : ws ∈ s'.activeViewerPower ↔
      (connection.validateViewerLayout = true ∧ ws = connection.ws ∨ ws ∈ s.activeViewerPower) ∧
          .release ws ∉ r.2 := by
    subst hs'
    rw [mem_released]
    refine and_congr_left fun _ => ?_
    cases connection.validateViewerLayout <;> simp
  refine ⟨hsound, fun ws => ?_, fun i j ws hi' hj => ?_⟩
  · rw [hactive, hi.active, hreleases]
    constructor
    · rintro ⟨⟨hv, rfl⟩ | ⟨j, hj⟩, hn⟩
      · refine ⟨s.calls.length, (hself _).2 ⟨hv, rfl, ?_⟩⟩
        simpa using fun hset => hn ⟨hv, rfl, rfl, hset⟩
      · exact ⟨j, (hother j ws (hold j ws hj)).2 hj⟩
    · rintro ⟨j, hj⟩
      by_cases hjn : j = s.calls.length
      · subst hjn
        obtain ⟨hv, rfl, hn⟩ := (hself ws).1 hj
        exact ⟨.inl ⟨hv, rfl⟩, fun h => by
          rw [hn] at h
          cases h.2.2.2⟩
      · have hj := (hother j ws hjn).1 hj
        refine ⟨.inr ⟨j, hj⟩, ?_⟩
        rintro ⟨hv, rfl, -⟩
        exact hnot j hv hj
  · by_cases hin : i = s.calls.length <;> by_cases hjn : j = s.calls.length
    · rw [hin, hjn]
    · subst hin
      obtain ⟨hv, rfl, -⟩ := (hself ws).1 hi'
      exact absurd ((hother j _ hjn).1 hj) (hnot j hv)
    · subst hjn
      obtain ⟨hv, rfl, -⟩ := (hself ws).1 hj
      exact absurd ((hother i _ hin).1 hi') (hnot i hv)
    · exact hi.alone i j ws ((hother i ws hin).1 hi') ((hother j ws hjn).1 hj)

/-- The socket of a viewer leaves the set in the step that settles its dispatch. -/
theorem Inv.event (hi : Inv s) {e : Event} {r : Dispatch × List Effect} (hk : s.dispatch i = some d)
    (hr : d.react (s.current d) e = some r)
    (hsound : ∀ j d, State.dispatch { s with calls := s.calls.set i (some (Dispatch.traced r)) } j =
      some d → d.Sound) :
    Inv { s with
      activeViewerPower := released s.activeViewerPower r.2
      calls := s.calls.set i (some (Dispatch.traced r)) } := by
  obtain ⟨hcaptured, hsettled, hreleases⟩ := Dispatch.react_continues hr
  have hviewer : (Dispatch.traced r).viewer = d.viewer :=
    congrArg (·.connection.validateViewerLayout) hcaptured
  have hws : (Dispatch.traced r).ws = d.ws := congrArg (·.connection.ws) hcaptured
  generalize hs' : ({ s with
      activeViewerPower := released s.activeViewerPower r.2
      calls := s.calls.set i (some (Dispatch.traced r)) } : State) = s'
  have hself (ws : Nat) : s'.Holds i ws ↔ s.Holds i ws ∧ r.1.settled = false := by
    subst hs'
    unfold State.Holds State.dispatch
    rw [join_set hk, if_pos rfl]
    constructor
    · rintro ⟨d', hd', hv, hw, hn⟩
      obtain rfl := Option.some.inj hd'
      refine ⟨⟨d, hk, hviewer ▸ hv, hws ▸ hw, ?_⟩, hn⟩
      by_contra hd
      have := hsettled (by simpa using hd)
      rw [show r.1.settled = false from hn] at this
      cases this
    · rintro ⟨⟨d', hd', hv, hw, hn⟩, hr⟩
      obtain rfl := Option.some.inj (hk.symm.trans hd')
      exact ⟨_, rfl, hviewer.trans hv, hws.trans hw, hr⟩
  have hother (j ws : Nat) (hj : j ≠ i) : s'.Holds j ws ↔ s.Holds j ws := by
    subst hs'
    unfold State.Holds State.dispatch
    rw [join_set hk, if_neg hj]
  have hback (j ws : Nat) (h : s'.Holds j ws) : s.Holds j ws := by
    by_cases hj : j = i
    · subst hj
      exact ((hself ws).1 h).1
    · exact (hother j ws hj).1 h
  have hrelease (ws : Nat) : .release ws ∈ r.2 ↔ s.Holds i ws ∧ r.1.settled = true := by
    rw [hreleases ws]
    constructor
    · rintro ⟨hv, rfl, hn, hr⟩
      exact ⟨⟨d, hk, hv, rfl, hn⟩, hr⟩
    · rintro ⟨⟨d', hd', hv, rfl, hn⟩, hr⟩
      obtain rfl := Option.some.inj (hk.symm.trans hd')
      exact ⟨hv, rfl, hn, hr⟩
  refine ⟨fun j d hd => hsound j d (by subst hs'; exact hd), fun ws => ?_, fun j k ws hj hk =>
    hi.alone j k ws (hback j ws hj) (hback k ws hk)⟩
  have hactive : ws ∈ s'.activeViewerPower ↔ ws ∈ s.activeViewerPower ∧ .release ws ∉ r.2 := by
    subst hs'
    exact mem_released
  rw [hactive, hi.active, hrelease]
  constructor
  · rintro ⟨⟨j, hj⟩, hn⟩
    refine ⟨j, ?_⟩
    by_cases hji : j = i
    · subst hji
      exact (hself ws).2 ⟨hj, by simpa using fun hr => hn ⟨hj, hr⟩⟩
    · exact (hother j ws hji).2 hj
  · rintro ⟨j, hj⟩
    refine ⟨⟨j, hback j ws hj⟩, fun ⟨hheld, hr⟩ => ?_⟩
    obtain rfl := hi.alone j i ws (hback j ws hj) hheld
    rw [((hself ws).1 hj).2] at hr
    cases hr

theorem Inv.step (hi : Inv s) (h : step s l = some s') : Inv s' := by
  have hsound : ∀ i d, s'.dispatch i = some d → d.Sound := fun i d hd => hi.sound_step h hd
  cases l with
  | call kioskId message registerAck throws =>
    obtain rfl := Option.some.inj h
    exact hi.call
  | event k e =>
    obtain ⟨d, hk, h⟩ := Option.bind_eq_some_iff.1 h
    obtain ⟨r, hr, h⟩ := Option.bind_eq_some_iff.1 h
    obtain rfl := Option.some.inj h
    exact hi.event hk hr hsound
  | connect kioskId connection =>
    obtain rfl := Option.some.inj h
    exact ⟨hsound, hi.active, hi.alone⟩
  | disconnect kioskId =>
    obtain rfl := Option.some.inj h
    exact ⟨hsound, hi.active, hi.alone⟩
  | ready ws readyState =>
    obtain rfl := Option.some.inj h
    exact ⟨hsound, hi.active, hi.alone⟩

/-! ### Where a confirmation comes from -/

/-- The call still waits, its timer has not fired, and the connection that it has captured is the
registered one and open. -/
def InTime (s : State) (i : Nat) (c : Captured) : Prop :=
  (∃ d, s.dispatch i = some d ∧ d.captured = c ∧ d.settled = false ∧ d.timer = true) ∧
    s.connections c.kioskId = some c.connection ∧ s.readyState c.connection.ws = 1

theorem current_iff : s.current d = true ↔
    s.connections d.captured.kioskId = some d.captured.connection ∧ s.readyState d.ws = 1 := by
  simp [State.current]

/-- No call has been made yet. -/
def State.Fresh (s : State) : Prop := s.calls = [] ∧ s.activeViewerPower = []

theorem Fresh.dispatch (h : s.Fresh) (i : Nat) : s.dispatch i = none := by
  rw [State.dispatch, h.1]
  rfl

theorem Fresh.inv (h : s.Fresh) : Inv s where
  sound := fun i d hd => by
    rw [Fresh.dispatch h] at hd
    cases hd
  active := fun ws => by
    rw [h.2]
    refine ⟨fun hmem => absurd hmem List.not_mem_nil, ?_⟩
    rintro ⟨i, d, hd, -⟩
    rw [Fresh.dispatch h] at hd
    cases hd
  alone := fun i j ws hi => by
    obtain ⟨d, hd, -⟩ := hi
    rw [Fresh.dispatch h] at hd
    cases hd

theorem run_invariant (h0 : s₀.Fresh) (h : Machine.run step s₀ ls = some s) : Inv s :=
  Machine.run_inv (fun _ _ _ hstep hi => hi.step hstep) h (Fresh.inv h0)

/-- What a call has been told only while it was waiting in time. -/
theorem told_in_time {F : Dispatch → Prop} {E : Event → Prop} (htrace : ∀ r, F (Dispatch.traced r) → F r.1)
    (hbegin : ∀ c throws, ¬ F (Dispatch.begin c throws).1)
    (hreact : ∀ d current e r, Dispatch.react d current e = some r → ¬ F d → F r.1 → E e ∧
      d.settled = false ∧ current = true)
    (h0 : s₀.Fresh) (h : Machine.run step s₀ ls = some s) (hd : s.dispatch i = some d) (hF : F d) :
    Machine.Took step (fun t l => (∃ e, l = .event i e ∧ E e) ∧ InTime t i d.captured) s₀ ls := by
  refine Machine.took_of_run (I := Inv) (P := fun t => ∃ d', t.dispatch i = some d' ∧
    d'.captured = d.captured ∧ F d')
    (fun _ _ _ hstep hi => hi.step hstep) (fun t l t' hi hstep hn => ?_) h (Fresh.inv h0) ?_ ⟨d, hd, rfl, hF⟩
  · rintro ⟨d', hd', hc, hF'⟩
    rcases dispatch_cases hstep hd' with hold | ⟨c, throws, -, -, -, rfl⟩ | ⟨e, x, r, rfl, hx, hr, rfl⟩
    · exact absurd ⟨d', hold, hc, hF'⟩ hn
    · exact absurd (htrace _ hF') (hbegin c throws)
    · have hcaptured : x.captured = d.captured := (Dispatch.react_continues hr).captured.symm.trans hc
      obtain ⟨hE, hopen, hcurrent⟩ := hreact x _ e r hr (fun hF => hn ⟨x, hx, hcaptured, hF⟩) (htrace _ hF')
      refine ⟨⟨e, rfl, hE⟩, ⟨x, hx, hcaptured, hopen, ((hi.sound i x hx).running hopen).1⟩, ?_⟩
      rw [← hcaptured]
      exact current_iff.1 hcurrent
  · rintro ⟨d', hd', -⟩
    rw [Fresh.dispatch h0] at hd'
    cases hd'

theorem captured_at_call (h0 : s₀.Fresh) (h : Machine.run step s₀ ls = some s) (hd : s.dispatch i = some d) :
    Machine.Took step (fun t l =>
      ∃ throws, l = .call d.captured.kioskId d.captured.message d.captured.registerAck throws ∧
      i = t.calls.length ∧ t.connections d.captured.kioskId = some d.captured.connection ∧
      t.readyState d.captured.connection.ws = 1) s₀ ls := by
  refine Machine.took_of_run (I := Inv) (P := fun t => ∃ d', t.dispatch i = some d' ∧
    d'.captured = d.captured)
    (fun _ _ _ hstep hi => hi.step hstep) (fun t l t' hi hstep hn => ?_) h (Fresh.inv h0) ?_ ⟨d, hd, rfl⟩
  · rintro ⟨d', hd', hc⟩
    rcases dispatch_cases hstep hd' with hold | ⟨c, throws, rfl, rfl, htook, rfl⟩ | ⟨e, x, r, rfl,
      hx, hr, rfl⟩
    · exact absurd ⟨d', hold, hc⟩ hn
    · obtain rfl : c = d.captured := (Dispatch.begin_continues c throws).captured.symm.trans hc
      obtain ⟨hconnection, hready, -⟩ := captures_eq_some htook
      exact ⟨throws, rfl, rfl, hconnection, hready⟩
    · exact absurd ⟨x, hx, (Dispatch.react_continues hr).captured.symm.trans hc⟩ hn
  · rintro ⟨d', hd', -⟩
    rw [Fresh.dispatch h0] at hd'
    cases hd'

namespace Dispatch

/-- The promise of the call is settled. -/
def Resolved (d : Dispatch) : Prop := ∃ sent, .resolve sent ∈ d.trace

theorem not_mem_of_opens {effects : List Effect} {sent : Bool} (h : ∀ e ∈ effects, e.Opens) :
    .resolve sent ∉ effects :=
  fun hmem => h _ hmem

theorem Sound.resolved_iff (h : d.Sound) : d.Resolved ↔ d.settled = true := by
  constructor
  · rintro ⟨sent, hmem⟩
    by_contra hs
    exact not_mem_of_opens (h.running (by simpa using hs)).2 hmem
  · intro hs
    obtain ⟨done, sent, htrace, -⟩ := h.ended hs
    exact ⟨sent, by rw [htrace]; simp [closing]⟩

theorem resolve_mem_closing {a b : Bool} : .resolve a ∈ d.closing b ↔ a = b := by
  cases hv : d.viewer <;> simp [closing, hv]

/-- Nothing follows the settling of the promise. -/
theorem Sound.nothing_after (h : d.Sound) {done rest : List Effect} {sent : Bool}
    (htrace : d.trace = done ++ .resolve sent :: rest) :
    rest = [] := by
  obtain ⟨pre, sent', hpre, hopens, -⟩ := h.ended ((h.resolved_iff).1 ⟨sent, by rw [htrace]; simp⟩)
  have hfront : ∀ a, .resolve a ∉ d.trace.dropLast := by
    intro a
    rw [hpre, closing, ← List.append_assoc, List.dropLast_concat]
    intro hmem
    rcases List.mem_append.1 hmem with hmem | hmem
    · exact not_mem_of_opens hopens hmem
    · cases hv : d.viewer <;> simp [hv] at hmem
  rcases List.eq_nil_or_concat rest with rfl | ⟨rest, last, rfl⟩
  · rfl
  · refine absurd ?_ (hfront sent)
    rw [htrace, List.concat_eq_append, ← List.cons_append, ← List.append_assoc, List.dropLast_concat]
    simp

theorem Sound.true_of_resolved (h : d.Sound) (hmem : .resolve true ∈ d.trace) :
    d.written = true ∧ (d.viewer = true → d.accepted = true) := by
  obtain ⟨done, sent, htrace, hopens, htrue⟩ := h.ended ((h.resolved_iff).1 ⟨true, hmem⟩)
  rw [htrace] at hmem
  rcases List.mem_append.1 hmem with hmem | hmem
  · exact absurd hmem (not_mem_of_opens hopens)
  · exact htrue (resolve_mem_closing.1 hmem).symm

theorem Sound.cancelled (h : d.Sound) (hr : d.Resolved) (requestId : String)
    (hc : d.cancelAck = some requestId) :
    .cancel requestId ∈ d.trace := by
  obtain ⟨done, sent, htrace, -⟩ := h.ended (h.resolved_iff.1 hr)
  rw [htrace]
  simp [closing, hc]

end Dispatch

/-! ### The promise of a call -/

/-- What a run has made true of the call number `i`. -/
structure Truthful (s₀ : State) (ls : List Label) (s : State) (i : Nat) (d : Dispatch) : Prop where
  captured : Machine.Took step (fun t l =>
    ∃ throws, l = .call d.captured.kioskId d.captured.message d.captured.registerAck throws ∧
      i = t.calls.length ∧
      t.connections d.captured.kioskId = some d.captured.connection ∧
        t.readyState d.captured.connection.ws = 1) s₀ ls
  once : ∀ done sent rest, d.trace = done ++ .resolve sent :: rest → rest = []
  settles : d.Resolved ∨ ∃ s' d', step s (.event i .timeout) = some s' ∧ s'.dispatch i = some d' ∧
    .resolve false ∈ d'.trace
  written : .resolve true ∈ d.trace → .write d.captured.connection.ws d.payload.stringify ∈ d.trace ∧
    Machine.Took step (fun t l => (∃ e, l = .event i e ∧ e = .callback false) ∧ InTime t i d.captured) s₀ ls
  acknowledged : .resolve true ∈ d.trace → d.captured.connection.validateViewerLayout = true →
    ∃ requestId, .register requestId ∈ d.trace ∧ d.payload = withRequestId d.captured.message requestId ∧
      Machine.Took step (fun t l =>
        (∃ e, l = .event i e ∧ ∃ fault, e = .validated (some true) requestId fault) ∧
          InTime t i d.captured) s₀ ls ∧
      Machine.Took step (fun t l => (∃ e, l = .event i e ∧ e = .acked (some true)) ∧
        InTime t i d.captured) s₀ ls
  alone : d.captured.connection.validateViewerLayout = true → ¬ d.Resolved → ∀ j d', s.dispatch j = some d' →
    d'.captured.connection.validateViewerLayout = true →
      d'.captured.connection.ws = d.captured.connection.ws →
    ¬ d'.Resolved → j = i
  released : ∀ ws, ws ∈ s.activeViewerPower ↔ ∃ j d', s.dispatch j = some d' ∧
    d'.captured.connection.validateViewerLayout = true ∧ d'.captured.connection.ws = ws ∧ ¬ d'.Resolved
  cancelled : d.Resolved → ∀ requestId, .register requestId ∈ d.trace → .cancel requestId ∈ d.trace

theorem Inv.holds_iff (hi : Inv s) {ws : Nat} : s.Holds i ws ↔ ∃ d, s.dispatch i = some d ∧
    d.captured.connection.validateViewerLayout = true ∧ d.captured.connection.ws = ws ∧ ¬ d.Resolved := by
  refine exists_congr fun d => and_congr_right fun hd => and_congr_right fun _ => and_congr_right fun _ => ?_
  rw [(hi.sound i d hd).resolved_iff]
  simp

/-- The timer settles a call that nothing else has settled. -/
theorem timeout_settles (hi : Inv s) (hd : s.dispatch i = some d) (hn : ¬ d.Resolved) :
    ∃ s' d', step s (.event i .timeout) = some s' ∧ s'.dispatch i = some d' ∧ .resolve false ∈ d'.trace := by
  have hsound := hi.sound i d hd
  have hs : d.settled = false := by simpa using fun h => hn (hsound.resolved_iff.2 h)
  obtain ⟨r, hr, hfalse⟩ : ∃ r, d.react (s.current d) .timeout = some r ∧
      .resolve false ∈ (Dispatch.traced r).trace := by
    refine ⟨_, if_pos (hsound.running hs).1, ?_⟩
    rw [Dispatch.finish_of_running (by exact hs)]
    exact List.mem_append_right _ (Dispatch.resolve_mem_closing.2 rfl)
  refine ⟨{ s with
    activeViewerPower := released s.activeViewerPower r.2
    calls := s.calls.set i (some (Dispatch.traced r)) },
    Dispatch.traced r, ?_, ?_, hfalse⟩
  · show Option.bind (s.dispatch i) _ = _
    rw [hd, Option.bind_some, hr]
    rfl
  · rw [State.dispatch, join_set hd, if_pos rfl]

/-- An answer goes to the request whose id it carries, when it comes from the kiosk and the very socket that
the request waits for; the request is then gone. -/
structure Answers {ρ : Type} (pending : OrdMap String (PendingPowerResponse ρ)) (kioskId : String)
    (socket : Nat) (message : Json)
    (pending' : OrdMap String (PendingPowerResponse ρ)) (p : PendingPowerResponse ρ) (accepted : Bool) :
    Prop where
  entry : pending.get? (requestIdOf message) = some p
  power : p.responseType = some "power-result" ∧ typeOf message = some "power-result"
  kiosk : p.kioskId = kioskId
  sameSocket : p.socket = socket
  value : message.get? "accepted" = some (.bool accepted)
  rest : pending' = pending.erase (requestIdOf message)

theorem acceptPowerResult_answers {ρ : Type} {pending pending' : OrdMap String (PendingPowerResponse ρ)}
    {socket : Nat} {p : PendingPowerResponse ρ} {accepted : Bool}
    (h : acceptPowerResult pending kioskId socket message = some (pending', p, accepted)) :
    Answers pending kioskId socket message pending' p accepted := by
  unfold acceptPowerResult at h
  obtain ⟨q, hq, h⟩ := Option.bind_eq_some_iff.1 h
  split at h
  · cases h
  next hall =>
  simp only [not_or, not_not] at hall
  obtain ⟨htype, hclass, hkiosk, hsocket⟩ := hall
  split at h
  · next b hb =>
    obtain ⟨rfl, rfl, rfl⟩ : _ ∧ _ ∧ _ := by simpa [eq_comm] using h
    exact ⟨hq, ⟨hclass, htype⟩, hkiosk, hsocket, hb, rfl⟩
  · cases h

/-- The confirmation of power: a call is settled exactly once, it is settled with `true` only by what has
happened to it in time, and it owns the socket of its viewer until then. -/
theorem power_confirms_what_happened (h0 : s₀.Fresh) (h : Machine.run step s₀ ls = some s)
    (hd : s.dispatch i = some d) :
    Truthful s₀ ls s i d ∧
      ∀ (ρ : Type) (pending pending' : OrdMap String
        (PendingPowerResponse ρ)) kioskId socket message p accepted,
        acceptPowerResult pending kioskId socket message = some (pending', p, accepted) →
          Answers pending kioskId socket message pending' p accepted := by
  have hi := run_invariant h0 h
  have hsound := hi.sound i d hd
  refine ⟨?_, fun _ _ _ _ _ _ _ _ => acceptPowerResult_answers⟩
  exact {
    captured := captured_at_call h0 h hd
    once := fun _ _ _ => hsound.nothing_after
    settles := by
      by_cases hr : d.Resolved
      · exact .inl hr
      · exact .inr (timeout_settles hi hd hr)
    written := fun htrue => by
      have hw := (hsound.true_of_resolved htrue).1
      exact ⟨(hsound.sent (.inr hw)).1,
        told_in_time (F := fun d => d.written = true) (E := fun e => e = .callback false)
        (fun _ => id) (fun c throws => by simp [Dispatch.begin_written])
        (fun _ _ _ _ hr hn => Dispatch.react_written hr (by simpa using hn)) h0 h hd hw⟩
    acknowledged := fun htrue hviewer => by
      have ha := (hsound.true_of_resolved htrue).2 hviewer
      obtain ⟨requestId, hack⟩ := Option.isSome_iff_exists.1 (hsound.acked (.inr ha))
      refine ⟨requestId, (hsound.registered _).2 hack, by rw [Dispatch.payload, hack], ?_, ?_⟩
      · exact told_in_time (F := fun d => d.cancelAck = some requestId)
          (E := fun e => ∃ fault, e = .validated (some true) requestId fault) (fun _ => id)
          (fun c throws => by simp [Dispatch.begin_cancelAck]) (fun _ _ _ _ => Dispatch.react_registers)
            h0 h hd hack
      · exact told_in_time (F := fun d => d.accepted = true) (E := fun e => e = .acked (some true))
          (fun _ => id)
          (fun c throws => by simp [Dispatch.begin_accepted])
          (fun _ _ _ _ hr hn => Dispatch.react_accepted hr (by simpa using hn)) h0 h hd ha
    alone := fun hv hn j d' hd' hv' hws hn' =>
      hi.alone j i _ (hi.holds_iff.2 ⟨d', hd', hv', hws, hn'⟩) (hi.holds_iff.2 ⟨d, hd, hv, rfl, hn⟩)
    released := fun ws => by
      rw [hi.active]
      exact exists_congr fun j => hi.holds_iff
    cancelled := fun hr requestId hmem => hsound.cancelled hr requestId ((hsound.registered _).1 hmem) }

/-- A viewer that accepts before the callback of the write has come. -/
theorem power_confirms_accepted :
    let s₀ : State := ⟨fun _ => some ⟨0, 7, true, true⟩, fun _ => 1, [], []⟩
    let ls : List Label := [.call "kiosk" (.obj [("type", .str "wake")]) true false,
      .event 0 (.validated (some true) "request" none), .event 0 (.acked (some true)),
        .event 0 (.callback false)]
    ∃ s d, s.dispatch 0 = some d ∧ .resolve true ∈ d.trace ∧ Truthful s₀ ls s 0 d := by
  refine ⟨_, _, rfl, ?_, (power_confirms_what_happened ⟨rfl, rfl⟩ rfl rfl).1⟩
  decide +kernel

end PowerDispatch
