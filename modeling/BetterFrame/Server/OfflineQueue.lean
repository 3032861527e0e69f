import BetterFrame.Lib.Run
import BetterFrame.Server.RequestCorrelation

/-!
# The offline queue of a kiosk

`History` runs the coordinator and keeps a ledger of the `sendToKiosk` calls for one kiosk beside
it. `offline_queue_kept` says that what calls and drains write, and what is queued, are the calls of
the ledger in their order.
-/

namespace OfflineQueue

open Coordinator
open PowerDispatch (KioskConnection isPowerType typeOf)

/-! ### The ledger -/

/-- What a call came to: it returned true, or its payload was queued and is waiting, was drained or
was evicted. -/
inductive Fate where
  | refused
  | returned
  | queued
  | drained
  | evicted
deriving DecidableEq

/-- The message reached a socket. -/
def Fate.written : Fate → Bool
  | .returned | .drained => true
  | _ => false

/-- A call to send to the kiosk, and what became of it. -/
structure Call where
  payload : String
  fate : Fate
deriving DecidableEq

def Call.drain (c : Call) : Call := if c.fate = .queued then { c with fate := .drained } else c

def waiting (calls : List Call) : List Call := calls.filter fun c => c.fate = .queued

def written (calls : List Call) : List Call := calls.filter fun c => c.fate.written

/-- The oldest queued message gives way. -/
def evictOldest : List Call → List Call
  | [] => []
  | c :: calls => if c.fate = .queued then { c with fate := .evicted } :: calls else c :: evictOldest calls

/-- The oldest of more than 100 waiting calls is evicted. -/
def enqueue (calls : List Call) (payload : String) : List Call :=
  let calls := calls ++ [⟨payload, .queued⟩]
  if MESSAGE_QUEUE_CAP < (waiting calls).length then evictOldest calls else calls

/-- Nothing is written before what waits longer. -/
def Ordered (calls : List Call) : Prop := calls.Pairwise fun c later => c.fate = .queued →
  later.fate.written = false

variable {calls : List Call} {c : Call} {payload : String}

theorem waiting_append {calls' : List Call} : waiting (calls ++ calls') = waiting calls ++
    waiting calls' := List.filter_append ..

theorem written_append {calls' : List Call} : written (calls ++ calls') = written calls ++
    written calls' := List.filter_append ..

theorem waiting_cons : waiting (c :: calls) = if c.fate = .queued then c :: waiting calls
    else waiting calls := by
  simp [waiting, List.filter_cons]

theorem written_cons : written (c :: calls) = if c.fate.written then c :: written calls
    else written calls := List.filter_cons ..

theorem waiting_evictOldest : waiting (evictOldest calls) = (waiting calls).tail := by
  induction calls with
  | nil => rfl
  | cons c calls ih =>
    unfold evictOldest
    split
    · next hc => simp [waiting_cons, hc]
    · next hc => simpa [waiting_cons, hc] using ih

theorem written_evictOldest : written (evictOldest calls) = written calls := by
  induction calls with
  | nil => rfl
  | cons c calls ih =>
    unfold evictOldest
    split
    · next hc => simp [written_cons, hc, Fate.written]
    · rw [written_cons, written_cons, ih]

theorem written_mem_evictOldest (hc : c ∈ evictOldest calls) (hw : c.fate.written) : c ∈ calls := by
  have hmem : c ∈ written (evictOldest calls) := List.mem_filter.2 ⟨hc, hw⟩
  rw [written_evictOldest] at hmem
  exact (List.mem_filter.1 hmem).1

theorem Ordered.evictOldest (h : Ordered calls) : Ordered (evictOldest calls) := by
  induction calls with
  | nil => exact h
  | cons c calls ih =>
    obtain ⟨hc, hcalls⟩ := List.pairwise_cons.1 h
    unfold OfflineQueue.evictOldest
    split
    · exact List.pairwise_cons.2 ⟨fun _ _ hqueued => (nomatch hqueued), hcalls⟩
    · refine List.pairwise_cons.2 ⟨fun later hlater hqueued => ?_, ih hcalls⟩
      by_contra hwritten
      rw [Bool.not_eq_false] at hwritten
      rw [hc later (written_mem_evictOldest hlater hwritten) hqueued] at hwritten
      cases hwritten

theorem Ordered.append (h : Ordered calls) (hc : c.fate.written → waiting calls = []) :
    Ordered (calls ++ [c]) := by
  refine List.pairwise_append.2 ⟨h, List.pairwise_singleton _ _, fun a ha b hb hqueued => ?_⟩
  obtain rfl := List.mem_singleton.1 hb
  by_contra hwritten
  rw [Bool.not_eq_false] at hwritten
  have hmem : a ∈ waiting calls := List.mem_filter.2 ⟨ha, by simpa using hqueued⟩
  rw [hc hwritten] at hmem
  cases hmem

theorem waiting_enqueue :
    waiting (enqueue calls payload) =
      let q : List Call := waiting calls ++ [⟨payload, .queued⟩]
      if MESSAGE_QUEUE_CAP < q.length then q.tail else q := by
  have happend : waiting (calls ++ [⟨payload, .queued⟩]) = waiting calls ++ [⟨payload, .queued⟩] :=
    waiting_append
  unfold enqueue
  dsimp only
  rw [← happend]
  split
  · exact waiting_evictOldest
  · rfl

theorem written_enqueue : written (enqueue calls payload) = written calls := by
  have happend : written (calls ++ [⟨payload, .queued⟩]) = written calls :=
    written_append.trans (List.append_nil _)
  unfold enqueue
  dsimp only
  split
  · exact written_evictOldest.trans happend
  · exact happend

theorem Ordered.enqueue (h : Ordered calls) (payload : String) : Ordered (enqueue calls payload) := by
  have happend : Ordered (calls ++ [⟨payload, .queued⟩]) := h.append fun hw => nomatch hw
  unfold OfflineQueue.enqueue
  dsimp only
  split
  · exact happend.evictOldest
  · exact happend

theorem waiting_drain : waiting (calls.map Call.drain) = [] := by
  refine List.filter_eq_nil_iff.2 fun c hc => ?_
  obtain ⟨c', -, rfl⟩ := List.mem_map.1 hc
  unfold Call.drain
  split
  · simp
  · next hnot => simpa using hnot

/-- A drain writes what waits after all that has been written. -/
theorem written_drain (h : Ordered calls) :
    (written (calls.map Call.drain)).map (·.payload) = (written calls).map (·.payload) ++
    (waiting calls).map (·.payload) := by
  induction calls with
  | nil => rfl
  | cons c calls ih =>
    obtain ⟨hc, hcalls⟩ := List.pairwise_cons.1 h
    have ih := ih hcalls
    rw [List.map_cons, written_cons, written_cons, waiting_cons]
    by_cases hqueued : c.fate = .queued
    · have hnone : written calls = [] := List.filter_eq_nil_iff.2 fun later hlater => by
        simp [hc later hlater hqueued]
      rw [hnone] at ih
      simpa [Call.drain, hqueued, Fate.written, hnone] using ih
    · have hsame : c.drain = c := if_neg hqueued
      rw [hsame, if_neg hqueued]
      split
      · simp [ih]
      · exact ih

theorem Ordered.drain : Ordered (calls.map Call.drain) := by
  refine List.pairwise_map.2 (List.pairwise_of_forall fun c later hqueued => ?_)
  unfold Call.drain at hqueued
  split at hqueued
  · cases hqueued
  · next hnot => exact absurd hqueued hnot

/-! ### Runs with their ledger -/

/-- `sockets` are those that connected as the kiosk, `delivered` what the calls and the drains have
written. -/
structure History where
  state : State
  sockets : List Nat
  calls : List Call
  delivered : List Written

variable (kioskId : String)

def note (s : State) (calls : List Call) (message : Json) (queueWhenOffline throws : Bool) : List Call :=
  if (s.sendToKiosk kioskId message queueWhenOffline throws).2 then calls ++ [⟨message.stringify, .returned⟩]
  else if queueWhenOffline && !isPowerType message && (s.online kioskId).isNone then
    enqueue calls message.stringify
  else calls ++ [⟨message.stringify, .refused⟩]

namespace History

/-- The first message to a socket that connects is its greeting. -/
def after (h : History) (s' : State) : Label → History
  | .sendToKiosk id message queueWhenOffline throws =>
    if id = kioskId then
      { h with
        state := s'
        calls := note kioskId h.state h.calls message queueWhenOffline throws
        delivered := h.delivered ++ s'.written.drop h.state.written.length }
    else { h with state := s' }
  | .upgrade id ws _ _ =>
    if id = kioskId then
      { state := s'
        sockets := ws :: h.sockets
        calls := if s'.offlineQueues kioskId = [] then h.calls.map Call.drain else h.calls
        delivered := h.delivered ++ s'.written.drop (h.state.written.length + 1) }
    else { h with state := s' }
  | _ => { h with state := s' }

def step (h : History) (l : Label) : Option History := (Coordinator.step h.state l).map fun s' =>
  h.after kioskId s' l

end History

/-- The kiosk is not an Android viewer, an upgrade hands over a socket that is open already, a
socket does not become open again, and an open socket takes what is sent. -/
def Usual (s : State) : Label → Prop
  | .upgrade id ws viewer throws =>
    id = kioskId → viewer = false ∧ 1 ≤ s.readyState ws ∧ ∀ n, throws n = false
  | .sendToKiosk id _ _ throws => id = kioskId → throws = false
  | .ready ws readyState => s.readyState ws ≤ readyState
  | _ => True

/-! ### What the callbacks leave alone -/

section Frame

variable {s s' : State} {kioskId} {id : String} {message : Json} {queueWhenOffline throws : Bool}

theorem rejectSocket_connected (r : Registry) (socket : Nat) (error : String) :
    (r.rejectSocket socket error).connectedKiosks = r.connectedKiosks := by
  have hfold : ∀ (es : List (String × Pending)) (t : Registry),
      (es.foldl (fun r e => if e.2.socket ≠ socket then r else r.settle e.1 (e.2.owner.reject error))
        t).connectedKiosks =
        t.connectedKiosks := by
    intro es
    induction es with
    | nil => exact fun _ => rfl
    | cons e es ih =>
      intro t
      rw [List.foldl_cons, ih]
      split <;> rfl
  exact hfold _ r

/-- The connections, the queues and the sockets stay as they are. -/
structure Same (s s' : State) : Prop where
  connected : s'.registry.connectedKiosks = s.registry.connectedKiosks
  queues : s'.offlineQueues = s.offlineQueues
  ready : s'.readyState = s.readyState

theorem Same.refl (s : State) : Same s s := ⟨rfl, rfl, rfl⟩

theorem Same.after {t : State} (h : Same s' t) (h' : Same s s') : Same s t :=
  ⟨h.connected.trans h'.connected, h.queues.trans h'.queues, h.ready.trans h'.ready⟩

theorem transmit_other (hid : id ≠ kioskId ∨ queueWhenOffline = false) :
    (s.transmit id message queueWhenOffline throws).1.offlineQueues kioskId = s.offlineQueues kioskId := by
  unfold State.transmit
  split
  · split
    · next hqueue =>
      refine Function.update_of_ne (fun heq => ?_) _ _
      rcases hid with hne | hfalse
      · exact hne heq.symm
      · simp [hfalse] at hqueue
    · rfl
  · split <;> rfl

theorem transmit_ready : (s.transmit id message queueWhenOffline throws).1.readyState = s.readyState := by
  unfold State.transmit
  split
  · split <;> rfl
  · split <;> rfl

theorem sendToKiosk_other (hid : id ≠ kioskId ∨ queueWhenOffline = false) :
    (s.sendToKiosk id message queueWhenOffline throws).1.offlineQueues kioskId = s.offlineQueues kioskId := by
  unfold State.sendToKiosk
  split
  · rfl
  split
  · exact transmit_other hid
  · dsimp only
    split
    · rfl
    split
    · split <;> rfl
    · exact transmit_other hid

theorem sendToKiosk_ready :
    (s.sendToKiosk id message queueWhenOffline throws).1.readyState = s.readyState := by
  unfold State.sendToKiosk
  split
  · rfl
  split
  · exact transmit_ready
  · dsimp only
    split
    · rfl
    split
    · split <;> rfl
    · exact transmit_ready

theorem same_sendToKiosk : Same s (s.sendToKiosk id message false throws).1 where
  connected := congrArg Registry.connectedKiosks (State.sendToKiosk_sends s id message false throws).registry
  queues := funext fun _ => sendToKiosk_other (.inr rfl)
  ready := sendToKiosk_ready

theorem same_perform {c : PowerDispatch.Captured} {out : List PowerDispatch.Effect} :
    Same s (out.foldl (State.perform c) s) := by
  induction out generalizing s with
  | nil => exact .refl s
  | cons e out ih =>
    refine Same.after ih ?_
    cases e <;> exact ⟨rfl, rfl, rfl⟩

theorem same_tell {i : Nat} {e : PowerDispatch.Event} (h : s.tell i e = some s') : Same s s' := by
  obtain ⟨d, -, h⟩ := Option.bind_eq_some_iff.1 h
  obtain ⟨r, -, h⟩ := Option.bind_eq_some_iff.1 h
  obtain rfl := Option.some.inj h
  exact Same.after same_perform ⟨rfl, rfl, rfl⟩

theorem same_requestKiosk {requestId : String} : Same s (s.requestKiosk id message requestId throws) := by
  unfold State.requestKiosk
  dsimp only
  split
  · exact ⟨rfl, rfl, rfl⟩
  · next k hk =>
    generalize hr : State.sendToKiosk _ id (PowerDispatch.withRequestId message requestId) false throws = r
    have hsent : Same s r.1 := by
      rw [← hr]
      exact Same.after same_sendToKiosk ⟨rfl, rfl, rfl⟩
    split
    · exact hsent
    · exact ⟨hsent.connected, hsent.queues, hsent.ready⟩

theorem same_sendPowerToKiosk : Same s (s.sendPowerToKiosk id message throws) := by
  unfold State.sendPowerToKiosk
  split
  · exact ⟨rfl, rfl, rfl⟩
  · exact Same.after same_perform ⟨rfl, rfl, rfl⟩

theorem same_onMessage {ws : Nat} {owns : Bool} : Same s (s.onMessage id ws message owns) := by
  unfold State.onMessage
  split
  · exact .refl s
  split
  · exact .refl s
  split
  · split
    · exact .refl s
    split <;> exact ⟨rfl, rfl, rfl⟩
  split
  · exact .refl s
  split
  · split
    · exact .refl s
    dsimp only
    split <;> exact ⟨rfl, rfl, rfl⟩
  · exact .refl s

end Frame

/-! ### Sends and drains of a kiosk that is not a viewer -/

section Plain

variable {s : State} {kioskId} {message : Json} {queueWhenOffline : Bool}

theorem sendToKiosk_plain (hplain : ∀ k, s.registry.connectedKiosks kioskId = some k →
    k.validateViewerLayout = false) (message : Json) (queueWhenOffline throws : Bool) :
    s.sendToKiosk kioskId message queueWhenOffline throws =
      if isPowerType message then (s, false) else s.transmit kioskId message queueWhenOffline throws := by
  have hnone : (s.registry.connectedKiosks kioskId).filter (·.validateViewerLayout) = none := by
    refine Option.filter_eq_none_iff.2 fun k hk => ?_
    simp [hplain k hk]
  unfold State.sendToKiosk
  rw [hnone]

theorem transmit_online {k : KioskConnection} (hk : s.online kioskId = some k) :
    s.transmit kioskId message queueWhenOffline false =
    ({ s with written := s.written ++ [⟨k.ws, message.stringify, none⟩] }, true) := by
  have hk : (s.registry.connectedKiosks kioskId).filter (fun k => s.isOpen k.ws) = some k := hk
  unfold State.transmit
  rw [hk]
  rfl

theorem parsed_stringify (messages : List Json) : State.parsed (messages.map Json.stringify) = messages := by
  induction messages with
  | nil => rfl
  | cons message messages ih => simp only [List.map_cons, State.parsed, Json.parse_stringify, ih]

/-- A drain writes what is queued. -/
theorem drain_plain {k : KioskConnection} {messages : List Json} {throws : Nat → Bool}
    (hk : s.online kioskId = some k)
    (hplain : k.validateViewerLayout = false) (hqueue : s.offlineQueues kioskId = messages.map Json.stringify)
    (hpower : ∀ message ∈ messages, isPowerType message = false) (hthrows : ∀ n, throws n = false) :
    s.drainOfflineQueue kioskId throws =
      { s with
        written := s.written ++ messages.map fun message => ⟨k.ws, message.stringify, none⟩
        offlineQueues := Function.update s.offlineQueues kioskId [] } := by
  have hsend : ∀ (messages : List (Json × Nat)) (t : State), t.registry = s.registry →
    t.readyState = s.readyState → (∀ m ∈ messages, isPowerType m.1 = false) →
      messages.foldl (fun s m => (s.sendToKiosk kioskId m.1 false (throws m.2)).1) t =
        { t with written := t.written ++ messages.map fun m => ⟨k.ws, m.1.stringify, none⟩ } := by
    intro messages
    induction messages with
    | nil => exact fun t _ _ _ => by simp
    | cons m messages ih =>
      intro t hregistry hready hpower
      have honline : t.online kioskId = some k := by
        rw [← hk]
        unfold State.online State.isOpen
        rw [hregistry, hready]
      have hstep : (t.sendToKiosk kioskId m.1 false (throws m.2)).1 = { t with written := t.written ++
            [⟨k.ws, m.1.stringify, none⟩] } := by
        have hplain' : ∀ k', t.registry.connectedKiosks kioskId = some k' →
            k'.validateViewerLayout = false := fun k' hk' => by
          rw [hregistry, (State.online_eq_some.1 hk).1] at hk'
          exact Option.some.inj hk' ▸ hplain
        rw [sendToKiosk_plain hplain', hpower m List.mem_cons_self, hthrows, if_neg Bool.false_ne_true,
          transmit_online honline]
      rw [List.foldl_cons, hstep, ih _ (by exact hregistry) (by exact hready) fun m' hm' =>
        hpower m' (List.mem_cons_of_mem _ hm')]
      simp
  have hk' : (s.registry.connectedKiosks kioskId).filter (fun k => s.isOpen k.ws) = some k := hk
  unfold State.drainOfflineQueue
  rw [hk']
  dsimp only
  rw [hqueue, parsed_stringify, hsend _ s rfl rfl fun m hm => hpower m.1 (List.fst_mem_of_mem_zipIdx hm)]
  have hfst : messages.zipIdx.map (fun m => (⟨k.ws, m.1.stringify, none⟩ : Written)) =
      messages.map fun message => ⟨k.ws, message.stringify, none⟩ := by
    rw [← List.zipIdx_map_fst 0 messages, List.map_map, List.zipIdx_map_fst]
    rfl
  rw [hfst]

end Plain

section Upgrade

variable {s : State} {kioskId} {id : String} {ws : Nat} {viewer : Bool} {throws : Nat → Bool}

/-- The state in which an upgrade drains the queue. -/
structure Greeted (s t : State) (id : String) (ws : Nat) (viewer : Bool) : Prop where
  connected : t.registry.connectedKiosks = Function.update s.registry.connectedKiosks id
    (some ⟨s.upgrades, ws, viewer, viewer⟩)
  queues : t.offlineQueues = s.offlineQueues
  written : ∃ w, t.written = s.written ++ [w]
  ready : ∀ socket, s.readyState socket ≤ t.readyState socket ∨ 2 ≤ t.readyState socket
  socket : t.readyState ws = s.readyState ws

theorem upgrade_greeted (s : State) (id : String) (ws : Nat) (viewer : Bool) (throws : Nat → Bool) :
    ∃ t, Greeted s t id ws viewer ∧ s.upgrade id ws viewer throws = t.drainOfflineQueue id throws := by
  refine ⟨_, ?_, rfl⟩
  unfold State.replace
  split
  · exact ⟨rfl, rfl, ⟨_, rfl⟩, fun _ => .inl le_rfl, rfl⟩
  · next p hp =>
    have hne : p.ws ≠ ws := by simpa using (Option.filter_eq_some_iff.1 hp).2
    refine ⟨rejectSocket_connected _ _ _, rfl, ⟨_, rfl⟩, fun socket => ?_, Function.update_of_ne hne.symm _ _⟩
    show _ ≤ Function.update s.readyState p.ws (if s.readyState p.ws = 3 then 3 else 2) socket ∨
      2 ≤ Function.update s.readyState p.ws (if s.readyState p.ws = 3 then 3 else 2) socket
    by_cases hsocket : socket = p.ws
    · subst hsocket
      rw [Function.update_self]
      right
      split <;> omega
    · rw [Function.update_of_ne hsocket]
      exact .inl le_rfl

theorem drain_ready : (s.drainOfflineQueue id throws).readyState = s.readyState := by
  unfold State.drainOfflineQueue
  split
  · rfl
  · exact State.drain_inv (I := fun t => t.readyState = s.readyState) (fun _ _ _ ht =>
      sendToKiosk_ready.trans ht) throws _ rfl

theorem drain_other (hid : id ≠ kioskId) :
    (s.drainOfflineQueue id throws).offlineQueues kioskId = s.offlineQueues kioskId := by
  unfold State.drainOfflineQueue
  split
  · rfl
  · refine (Function.update_of_ne hid.symm _ _).trans ?_
    exact State.drain_inv (I := fun t => t.offlineQueues kioskId = s.offlineQueues kioskId)
      (fun _ _ _ ht => (sendToKiosk_other (.inl hid)).trans ht) throws _ rfl

end Upgrade

/-! ### The invariant -/

/-- The queue holds what waits, and the sockets were given what was written, in the order of the
calls. -/
structure Inv (h : History) : Prop where
  queue : h.state.offlineQueues kioskId = (waiting h.calls).map (·.payload)
  delivered : h.delivered.map (·.payload) = (written h.calls).map (·.payload)
  sockets : ∀ w ∈ h.delivered, w.ws ∈ h.sockets
  ordered : Ordered h.calls
  texts : ∀ c ∈ waiting h.calls, ∃ message : Json, c.payload = message.stringify ∧ isPowerType message = false
  connection : ∀ k, h.state.registry.connectedKiosks kioskId = some k → k.validateViewerLayout = false ∧
    k.ws ∈ h.sockets ∧
    1 ≤ h.state.readyState k.ws ∧ (h.state.readyState k.ws = 1 → waiting h.calls = [])

variable {kioskId} {h h' : History} {s' : State} {l : Label}

namespace Inv

/-- Nothing but the connection and the sockets has changed, and no socket became open. -/
theorem frame (hi : Inv kioskId h) (hqueue : s'.offlineQueues kioskId = h.state.offlineQueues kioskId)
    (hconnected : ∀ k, s'.registry.connectedKiosks kioskId = some k →
      h.state.registry.connectedKiosks kioskId = some k)
    (hready : ∀ ws, h.state.readyState ws ≤ s'.readyState ws ∨ 2 ≤ s'.readyState ws) :
    Inv kioskId { h with state := s' } where
  queue := hqueue.trans hi.queue
  delivered := hi.delivered
  sockets := hi.sockets
  ordered := hi.ordered
  texts := hi.texts
  connection := by
    intro k hk
    obtain ⟨hplain, hsocket, hopened, hopen⟩ := hi.connection k (hconnected k hk)
    have hle := hready k.ws
    exact ⟨hplain, hsocket, by dsimp only; omega, fun hone => hopen (by dsimp only at hone; omega)⟩

theorem same (hi : Inv kioskId h) (hsame : Same h.state s') : Inv kioskId { h with state := s' } :=
  hi.frame (by rw [hsame.queues]) (fun k hk => by rwa [hsame.connected] at hk) fun ws =>
    .inl (by rw [hsame.ready])

theorem refused (hi : Inv kioskId h) (payload : String) :
    Inv kioskId { h with calls := h.calls ++ [⟨payload, .refused⟩] } := by
  have hwaiting : waiting (h.calls ++ [⟨payload, .refused⟩]) = waiting h.calls :=
    waiting_append.trans (List.append_nil _)
  have hwritten : written (h.calls ++ [⟨payload, .refused⟩]) = written h.calls :=
    written_append.trans (List.append_nil _)
  exact {
    queue := hi.queue.trans (by rw [hwaiting])
    delivered := hi.delivered.trans (by rw [hwritten])
    sockets := hi.sockets
    ordered := hi.ordered.append fun hw => nomatch hw
    texts := by
      rw [hwaiting]
      exact hi.texts
    connection := by
      rw [hwaiting]
      exact hi.connection }

/-- The kiosk's socket is open, so nothing waits. -/
theorem returned (hi : Inv kioskId h) {k : KioskConnection} (hk : h.state.online kioskId = some k)
    (payload : String) :
    Inv kioskId { h with
      state := { h.state with written := h.state.written ++ [⟨k.ws, payload, none⟩] }
      calls := h.calls ++ [⟨payload, .returned⟩]
      delivered := h.delivered ++ [⟨k.ws, payload, none⟩] } := by
  obtain ⟨hregistered, hopen⟩ := State.online_eq_some.1 hk
  obtain ⟨-, hsocket, -, hempty⟩ := hi.connection k hregistered
  have hempty := hempty (by simpa [State.isOpen] using hopen)
  have hwaiting : waiting (h.calls ++ [⟨payload, .returned⟩]) = waiting h.calls :=
    waiting_append.trans (List.append_nil _)
  have hwritten : written (h.calls ++ [⟨payload, .returned⟩]) = written h.calls ++ [⟨payload, .returned⟩] :=
    written_append
  exact {
    queue := hi.queue.trans (by rw [hwaiting])
    delivered := by
      rw [hwritten, List.map_append, List.map_append, hi.delivered]
      rfl
    sockets := by
      intro w hw
      rcases List.mem_append.1 hw with hw | hw
      · exact hi.sockets w hw
      · rw [List.mem_singleton.1 hw]
        exact hsocket
    ordered := hi.ordered.append fun _ => hempty
    texts := by
      rw [hwaiting]
      exact hi.texts
    connection := by
      rw [hwaiting]
      exact hi.connection }

theorem queued (hi : Inv kioskId h) (hoffline : h.state.online kioskId = none) {message : Json}
    (hpower : isPowerType message = false) :
    Inv kioskId { h with
      state := (h.state.transmit kioskId message true false).1
      calls := enqueue h.calls message.stringify } := by
  have hoff : (h.state.registry.connectedKiosks kioskId).filter (fun k => h.state.isOpen k.ws) = none :=
    hoffline
  have hnew : (h.state.transmit kioskId message true false).1.offlineQueues kioskId =
      (waiting (enqueue h.calls message.stringify)).map (·.payload) := by
    unfold State.transmit
    rw [hoff]
    simp only [if_true, Function.update_self, hi.queue, waiting_enqueue, List.length_append,
      List.length_map, List.length_singleton]
    split <;> simp
  have hregistry : (h.state.transmit kioskId message true false).1.registry = h.state.registry := by
    unfold State.transmit
    rw [hoff]
    rfl
  exact {
    queue := hnew
    delivered := hi.delivered.trans (by rw [written_enqueue])
    sockets := hi.sockets
    ordered := hi.ordered.enqueue _
    texts := by
      intro c hc
      have hmem : c ∈ waiting h.calls ++ [⟨message.stringify, .queued⟩] := by
        rw [waiting_enqueue] at hc
        dsimp only at hc
        split at hc
        · exact List.mem_of_mem_tail hc
        · exact hc
      rcases List.mem_append.1 hmem with hold | hnew
      · exact hi.texts c hold
      · rw [List.mem_singleton.1 hnew]
        exact ⟨message, rfl, hpower⟩
    connection := by
      intro k hk
      dsimp only at hk ⊢
      rw [hregistry] at hk
      rw [transmit_ready]
      obtain ⟨hplain, hsocket, hopened, -⟩ := hi.connection k hk
      refine ⟨hplain, hsocket, hopened, fun hone => ?_⟩
      have honline : h.state.online kioskId = some k :=
        State.online_eq_some.2 ⟨hk, by simpa [State.isOpen] using hone⟩
      rw [hoffline] at honline
      cases honline }

theorem called (hi : Inv kioskId h) (message : Json) (queueWhenOffline : Bool) :
    Inv kioskId (h.after kioskId (h.state.sendToKiosk kioskId message queueWhenOffline false).1
      (.sendToKiosk kioskId message queueWhenOffline false)) := by
  have hsend := sendToKiosk_plain (fun k hk => (hi.connection k hk).1) message queueWhenOffline false
  rw [History.after, if_pos rfl, note, hsend]
  by_cases hpower : isPowerType message = true
  · simpa [hpower] using hi.refused message.stringify
  rw [Bool.not_eq_true] at hpower
  simp only [hpower, Bool.false_eq_true, if_false]
  cases honline : h.state.online kioskId with
  | some k =>
    rw [transmit_online honline]
    simpa using hi.returned honline message.stringify
  | none =>
    have hoff : (h.state.registry.connectedKiosks kioskId).filter (fun k => h.state.isOpen k.ws) = none :=
      honline
    have hfalse : (h.state.transmit kioskId message queueWhenOffline false).2 = false := by
      unfold State.transmit
      rw [hoff]
      dsimp only
      split <;> rfl
    have hwritten : (h.state.transmit kioskId message queueWhenOffline false).1.written =
        h.state.written := by
      unfold State.transmit
      rw [hoff]
      dsimp only
      split <;> rfl
    cases queueWhenOffline with
    | true => simpa [hfalse, hwritten] using hi.queued honline hpower
    | false =>
      have hstate : (h.state.transmit kioskId message false false).1 = h.state := by
        unfold State.transmit
        rw [hoff]
        rfl
      simpa [hfalse, hwritten, hstate] using hi.refused message.stringify

/-- What waits are texts of messages. -/
theorem messages (hi : Inv kioskId h) : ∃ messages : List Json, (waiting h.calls).map
    (·.payload) = messages.map Json.stringify ∧
    ∀ message ∈ messages, isPowerType message = false := by
  have hall : ∀ calls : List Call, (∀ c ∈ calls, ∃ message : Json, c.payload = message.stringify ∧
    isPowerType message = false) →
      ∃ messages : List Json, calls.map (·.payload) = messages.map Json.stringify ∧
          ∀ message ∈ messages, isPowerType message = false := by
    intro calls
    induction calls with
    | nil => exact fun _ => ⟨[], rfl, List.forall_mem_nil _⟩
    | cons c calls ih =>
      intro hcalls
      obtain ⟨message, hmessage, hpower⟩ := hcalls c List.mem_cons_self
      obtain ⟨messages, hmessages, hpowers⟩ := ih fun c' hc' => hcalls c' (List.mem_cons_of_mem _ hc')
      exact ⟨message :: messages, by simp [hmessage, hmessages], List.forall_mem_cons.2 ⟨hpower, hpowers⟩⟩
  exact hall _ hi.texts

/-- The kiosk's new socket `ws` has been written what waited, or nothing waits for it to be open. -/
theorem drained (hi : Inv kioskId h) {ws : Nat} {k : KioskConnection} {delivered : List Written}
    (hk : s'.registry.connectedKiosks kioskId = some k) (hws : k.ws = ws)
    (hplain : k.validateViewerLayout = false)
    (hready : 1 ≤ s'.readyState ws) (hqueue : s'.offlineQueues kioskId = [])
    (hdelivered : delivered.map (·.payload) = (waiting h.calls).map (·.payload))
    (hsockets : ∀ w ∈ delivered, w.ws = ws) :
    Inv kioskId ⟨s', ws :: h.sockets, h.calls.map Call.drain, h.delivered ++ delivered⟩ where
  queue := by rw [hqueue, waiting_drain]; rfl
  delivered := by rw [written_drain hi.ordered, List.map_append, hi.delivered, hdelivered]
  sockets := by
    intro w hw
    rcases List.mem_append.1 hw with hw | hw
    · exact List.mem_cons_of_mem _ (hi.sockets w hw)
    · rw [hsockets w hw]
      exact List.mem_cons_self
  ordered := .drain
  texts := by
    rw [waiting_drain]
    exact fun _ hc => nomatch hc
  connection := by
    intro k' hk'
    obtain rfl := Option.some.inj (hk.symm.trans hk')
    exact ⟨hplain, hws ▸ List.mem_cons_self, hws ▸ hready, fun _ => waiting_drain⟩

theorem upgraded (hi : Inv kioskId h) {ws : Nat} {throws : Nat → Bool} (hws : 1 ≤ h.state.readyState ws)
    (hthrows : ∀ n, throws n = false) :
    Inv kioskId (h.after kioskId (h.state.upgrade kioskId ws false throws)
      (.upgrade kioskId ws false throws)) := by
  obtain ⟨t, ht, hupgrade⟩ := upgrade_greeted h.state kioskId ws false throws
  rw [History.after, if_pos rfl, hupgrade]
  obtain ⟨greeting, hgreeting⟩ := ht.written
  have hk : t.registry.connectedKiosks kioskId = some ⟨h.state.upgrades, ws, false, false⟩ := by
    rw [ht.connected, Function.update_self]
  have hqueue : t.offlineQueues kioskId = (waiting h.calls).map (·.payload) := by rw [ht.queues, hi.queue]
  have hdrop : ∀ ws : List Written, (t.written ++ ws).drop (h.state.written.length + 1) = ws := fun ws =>
    List.drop_left' (by simp [hgreeting])
  by_cases hopen : t.isOpen ws
  · obtain ⟨messages, hmessages, hpower⟩ := hi.messages
    rw [drain_plain (State.online_eq_some.2 ⟨hk, hopen⟩) rfl (hqueue.trans hmessages) hpower hthrows]
    simp only [Function.update_self, if_true, hdrop]
    refine hi.drained hk rfl rfl (by rw [ht.socket]; exact hws) (Function.update_self ..) ?_ ?_
    · rw [hmessages, List.map_map]
      rfl
    · intro w hw
      obtain ⟨message, -, rfl⟩ := List.mem_map.1 hw
      rfl
  · have hdrain : t.drainOfflineQueue kioskId throws = t := by
      have hoff : (t.registry.connectedKiosks kioskId).filter (fun k => t.isOpen k.ws) = none := by
        rw [hk, Option.filter_some, if_neg hopen]
      unfold State.drainOfflineQueue
      rw [hoff]
    have hnone := hdrop []
    rw [List.append_nil] at hnone
    rw [hdrain, hnone]
    split
    · next hempty =>
        exact hi.drained hk rfl rfl (by rw [ht.socket]; exact hws) hempty
          (by rw [← hqueue, hempty]; rfl) fun _ hw => nomatch hw
    · rw [List.append_nil]
      exact {
        queue := hqueue
        delivered := hi.delivered
        sockets := fun w hw => List.mem_cons_of_mem _ (hi.sockets w hw)
        ordered := hi.ordered
        texts := hi.texts
        connection := by
          intro k' hk'
          obtain rfl := Option.some.inj (hk.symm.trans hk')
          exact ⟨rfl, List.mem_cons_self, by
              rw [ht.socket]; exact hws, fun hone => absurd (by simpa [State.isOpen] using hone) hopen⟩ }

/-- Another kiosk's upgrade. -/
theorem upgraded_other (hi : Inv kioskId h) {id : String} (hid : id ≠ kioskId) {ws : Nat}
    {viewer : Bool} {throws : Nat → Bool} :
    Inv kioskId { h with state := h.state.upgrade id ws viewer throws } := by
  obtain ⟨t, ht, hupgrade⟩ := upgrade_greeted h.state id ws viewer throws
  rw [hupgrade]
  refine hi.frame ((drain_other hid).trans (by rw [ht.queues])) (fun k hk => ?_) fun socket => ?_
  · rw [State.drainOfflineQueue_registry, ht.connected, Function.update_of_ne hid.symm] at hk
    exact hk
  · rw [drain_ready]
    exact ht.ready socket

theorem closed (hi : Inv kioskId h) (id : String) (ws : Nat) :
    Inv kioskId { h with state := h.state.close id ws } := by
  unfold State.close
  split
  · exact hi
  · refine hi.frame rfl (fun k hk => ?_) fun _ => .inl le_rfl
    rw [rejectSocket_connected] at hk
    dsimp only at hk
    by_cases hid : kioskId = id
    · rw [hid, Function.update_self] at hk
      cases hk
    · rwa [Function.update_of_ne hid] at hk

theorem step (hi : Inv kioskId h) (hl : Usual kioskId h.state l)
    (hstep : History.step kioskId h l = some h') : Inv kioskId h' := by
  obtain ⟨s', hs', rfl⟩ := Option.map_eq_some_iff.1 hstep
  cases l with
  | upgrade id ws viewer throws =>
    obtain rfl := Option.some.inj hs'
    by_cases hid : id = kioskId
    · subst hid
      obtain ⟨rfl, hws, hthrows⟩ := hl rfl
      exact hi.upgraded hws hthrows
    · rw [History.after, if_neg hid]
      exact hi.upgraded_other hid
  | sendToKiosk id message queueWhenOffline throws =>
    obtain rfl := Option.some.inj hs'
    by_cases hid : id = kioskId
    · subst hid
      obtain rfl := hl rfl
      exact hi.called message queueWhenOffline
    · rw [History.after, if_neg hid]
      refine hi.frame (sendToKiosk_other (.inl hid)) (fun k hk => ?_) fun ws =>
        .inl (by rw [sendToKiosk_ready])
      rwa [(State.sendToKiosk_sends h.state id message queueWhenOffline throws).registry] at hk
  | close id ws =>
    obtain rfl := Option.some.inj hs'
    exact hi.closed id ws
  | message id ws msg owns =>
    obtain rfl := Option.some.inj hs'
    exact hi.same same_onMessage
  | requestKiosk id message requestId throws =>
    obtain ⟨-, hs'⟩ := Option.ite_none_left_eq_some.1 hs'
    obtain rfl := Option.some.inj hs'
    exact hi.same same_requestKiosk
  | sendPowerToKiosk id message throws =>
    obtain rfl := Option.some.inj hs'
    exact hi.same same_sendPowerToKiosk
  | validatedPower i answer requestId fault =>
    obtain ⟨-, hs'⟩ := Option.ite_none_left_eq_some.1 hs'
    exact hi.same (same_tell hs')
  | wrotePower i error => exact hi.same (same_tell hs')
  | timedOutPower i => exact hi.same (same_tell hs')
  | ackedPower i =>
    obtain ⟨accepted, -, hs'⟩ := Option.bind_eq_some_iff.1 hs'
    exact hi.same (same_tell hs')
  | validatedLayout j answer =>
    obtain ⟨v, -, hs'⟩ := Option.bind_eq_some_iff.1 hs'
    obtain ⟨-, hs'⟩ := Option.ite_none_left_eq_some.1 hs'
    obtain rfl := Option.some.inj hs'
    refine hi.same ?_
    unfold State.validated
    dsimp only
    split <;> exact ⟨rfl, rfl, rfl⟩
  | expire requestId =>
    obtain ⟨t, -, rfl⟩ := Option.map_eq_some_iff.1 hs'
    exact hi.same ⟨rfl, rfl, rfl⟩
  | ready ws readyState =>
    obtain rfl := Option.some.inj hs'
    refine hi.frame rfl (fun _ hk => hk) fun socket => .inl ?_
    dsimp only
    by_cases hsocket : socket = ws
    · subst hsocket
      rw [Function.update_self]
      exact hl
    · rw [Function.update_of_ne hsocket]

end Inv

/-- Over every run in which nothing is sent to the kiosk before it starts: what the calls and the
drains wrote are, in order, the calls that returned true or were queued and drained, the queue is
the calls that wait, and no call was written before one that still waits. -/
theorem offline_queue_kept {s₀ : State} {ls : List Label} (hqueue : s₀.offlineQueues kioskId = [])
    (hconnected : s₀.registry.connectedKiosks kioskId = none)
    (husual : Machine.Along (History.step kioskId) (fun h l => Usual kioskId h.state l) ⟨s₀, [], [], []⟩ ls)
    (hrun : Machine.run (History.step kioskId) ⟨s₀, [], [], []⟩ ls = some h) :
    h.delivered.map (·.payload) = (h.calls.filter fun c => c.fate.written).map (·.payload) ∧
      (∀ w ∈ h.delivered, w.ws ∈ h.sockets) ∧
      h.state.offlineQueues kioskId = (h.calls.filter fun c => c.fate = .queued).map (·.payload) ∧
      h.calls.Pairwise fun c later => c.fate = .queued → later.fate.written = false := by
  have hstart : Inv kioskId ⟨s₀, [], [], []⟩ := {
    queue := hqueue
    delivered := rfl
    sockets := fun _ hw => nomatch hw
    ordered := .nil
    texts := fun _ hc => nomatch hc
    connection := fun k hk => by rw [hconnected] at hk; cases hk }
  have hi := husual.inv (fun _ _ _ hl hstep hi => Inv.step hi hl hstep) hrun hstart
  exact ⟨hi.delivered, hi.sockets, hi.queue, hi.ordered⟩

namespace Reconnect

def message (type : String) : Json := .obj [("type", .str type)]

/-- Nothing has connected. -/
def start : State := ⟨.empty, 0, fun _ => 0, fun _ => [], [], [], [], []⟩

/-- The first socket is half closed when the third message is sent, and its close event comes after
the second one's upgrade. -/
def labels : List Label :=
  [.sendToKiosk "kiosk" (message "reload-bundle") true false, .ready 7 1,
    .upgrade "kiosk" 7 false fun _ => false,
    .sendToKiosk "kiosk" (message "ping") false false, .ready 7 2,
      .sendToKiosk "kiosk" (message "layout-switch") true false,
    .ready 8 1, .upgrade "kiosk" 8 false fun _ => false, .close "kiosk" 7,
      .sendToKiosk "kiosk" (message "ping") true false]

theorem offline_queue_kept_reconnect :
    ∃ h, Machine.run (History.step "kiosk") ⟨start, [], [], []⟩ labels = some h ∧
    h.delivered.map (·.ws) = [7, 7, 8, 8] ∧ h.delivered.map (·.payload) = (written h.calls).map
    (·.payload) := by
  have husual : Machine.Along (History.step "kiosk") (fun h l => Usual "kiosk" h.state l) ⟨start,
        [], [], []⟩ labels := by
    refine ⟨fun _ => rfl, ?_, fun _ => ⟨rfl, ?_, fun _ => rfl⟩, fun _ => rfl, ?_, fun _ => rfl, ?_,
      fun _ => ⟨rfl, ?_, fun _ => rfl⟩, trivial, fun _ => rfl, trivial⟩
    all_goals
      show (_ : Nat) ≤ _
      decide +kernel
  have hrun : (Machine.run (History.step "kiosk") ⟨start, [], [], []⟩ labels).isSome := by decide +kernel
  obtain ⟨h, hh⟩ := Option.isSome_iff_exists.1 hrun
  have hkept := offline_queue_kept rfl rfl husual hh
  have hsockets : (Machine.run (History.step "kiosk") ⟨start, [], [], []⟩ labels).map
      (fun h => h.delivered.map (·.ws)) = some [7, 7, 8, 8] := by
    decide +kernel
  rw [hh] at hsockets
  exact ⟨h, hh, Option.some.inj hsockets, hkept.1⟩

end Reconnect

end OfflineQueue
