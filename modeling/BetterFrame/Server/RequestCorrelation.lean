import BetterFrame.Server.Coordinator

/-!
# Requests to kiosks and their answers

`Moves` says once what each callback of the coordinator can do to the registry. The invariant `Sound`
(each pending request has its timer, nothing is both pending and settled, nothing is settled twice) and
`Current` (a pending request waits for the registered socket of its kiosk) follow from it, and so does
where every pending request and every settled one comes from.
-/

namespace Coordinator

open PowerDispatch

namespace Registry

variable {r : Registry} {id id' : String} {p p' : Pending} {outcome : Outcome} {socket : Nat} {error : String}

/-- The type a response must have. -/
def responseTypeOf : Owner → Option String
  | .request => none
  | .ack => some "power-result"

/-- Timers, requests and settlements agree: what is pending has one timer, and nothing is settled
twice. -/
structure Sound (r : Registry) : Prop where
  timers : ∀ id owner, (id, owner) ∈ r.timers ↔ ∃ p, r.pendingRequests.get? id = some p ∧ p.owner = owner
  classes : ∀ id p, r.pendingRequests.get? id = some p → p.responseType = responseTypeOf p.owner
  once : (r.settled.map Prod.fst).Nodup
  apart : ∀ id, id ∈ r.settled.map Prod.fst → r.pendingRequests.get? id = none
  issued : ∀ id, id ∉ r.issued → r.pendingRequests.get? id = none ∧ id ∉ r.settled.map Prod.fst

/-- Every pending request waits for the registered socket of its kiosk. -/
def Current (r : Registry) : Prop :=
  ∀ id p, r.pendingRequests.get? id = some p → ∃ k, r.connectedKiosks p.kioskId = some k ∧ k.ws = p.socket

theorem get?_drop : (r.drop id).pendingRequests.get? id' = if id' = id then none
    else r.pendingRequests.get? id' := by
  show (r.pendingRequests.erase id).get? id' = _
  split
  · next h => rw [h, OrdMap.get?_erase_self]
  · next h => exact OrdMap.get?_erase_of_ne h

theorem get?_drop_some (h : (r.drop id).pendingRequests.get? id' = some p) :
    id' ≠ id ∧ r.pendingRequests.get? id' = some p := by
  rw [get?_drop] at h
  split at h
  · cases h
  · next hne => exact ⟨hne, h⟩

theorem Sound.drop (h : r.Sound) (id : String) : (r.drop id).Sound where
  timers := fun id' owner => by
    show (id', owner) ∈ r.timers.filter (·.1 ≠ id) ↔ _
    rw [get?_drop, List.mem_filter, h.timers]
    by_cases hne : id' = id <;> simp [hne]
  classes := fun id' p hp => h.classes id' p (get?_drop_some hp).2
  once := h.once
  apart := fun id' hid => by rw [get?_drop, h.apart id' hid, ite_self]
  issued := fun id' hid => by
    obtain ⟨hnone, hsettled⟩ := h.issued id' hid
    exact ⟨by rw [get?_drop, hnone, ite_self], hsettled⟩

theorem Current.drop (h : r.Current) (id : String) : (r.drop id).Current :=
  fun id' p hp => h id' p (get?_drop_some hp).2

theorem Sound.settle (h : r.Sound) (hissued : id ∈ r.issued) (hid : id ∉ r.settled.map Prod.fst) :
    (r.settle id outcome).Sound := by
  have hdrop := h.drop id
  have hmem (id' : String) : id' ∈ (r.settle id outcome).settled.map Prod.fst ↔
      id' ∈ r.settled.map Prod.fst ∨ id' = id := by
    show id' ∈ (r.settled ++ [(id, outcome)]).map Prod.fst ↔ _
    simp
  exact {
    timers := hdrop.timers
    classes := hdrop.classes
    once := by
      show ((r.settled ++ [(id, outcome)]).map Prod.fst).Nodup
      rw [List.map_append, List.nodup_append]
      refine ⟨h.once, List.nodup_singleton _, fun a ha b hb hab => ?_⟩
      rw [hab, List.mem_singleton.1 hb] at ha
      exact hid ha
    apart := fun id' hid' => by
      rcases (hmem id').1 hid' with hold | rfl
      · exact hdrop.apart id' hold
      · exact (get?_drop (r := r)).trans (if_pos rfl)
    issued := fun id' hid' => by
      obtain ⟨hnone, hsettled⟩ := hdrop.issued id' hid'
      refine ⟨hnone, fun hor => ?_⟩
      rcases (hmem id').1 hor with hold | rfl
      · exact hsettled hold
      · exact hid' hissued }

theorem Sound.pending_issued (h : r.Sound) (hp : r.pendingRequests.get? id = some p) : id ∈ r.issued := by
  by_contra hid
  rw [(h.issued id hid).1] at hp
  cases hp

theorem Sound.pending_unsettled (h : r.Sound) (hp : r.pendingRequests.get? id = some p) :
    id ∉ r.settled.map Prod.fst := by
  intro hid
  rw [h.apart id hid] at hp
  cases hp

theorem Sound.settle_pending (h : r.Sound) (hp : r.pendingRequests.get? id = some p) :
    (r.settle id outcome).Sound :=
  h.settle (h.pending_issued hp) (h.pending_unsettled hp)

theorem Sound.issue (h : r.Sound) (id : String) : (r.issue id).Sound where
  timers := h.timers
  classes := h.classes
  once := h.once
  apart := h.apart
  issued := fun id' hid' => h.issued id' fun hmem => hid' (List.mem_append_left _ hmem)

theorem mem_issue : id ∈ (r.issue id).issued := List.mem_append_right _ (List.mem_singleton_self _)

theorem get?_add : (r.add id p).pendingRequests.get? id' = if id' = id then some p
    else r.pendingRequests.get? id' :=
  OrdMap.get?_set

/-- A fresh request that has been issued becomes pending. -/
theorem Sound.add (h : r.Sound) (hissued : id ∈ r.issued) (hnone : r.pendingRequests.get? id = none)
    (hid : id ∉ r.settled.map Prod.fst) (hclass : p.responseType = responseTypeOf p.owner) :
    (r.add id p).Sound where
  timers := fun id' owner => by
    show (id', owner) ∈ r.timers ++ [(id, p.owner)] ↔ _
    rw [get?_add, List.mem_append, h.timers, List.mem_singleton, Prod.mk.injEq]
    by_cases hne : id' = id
    · subst hne
      simp [hnone, eq_comm]
    · simp [hne]
  classes := fun id' q hq => by
    rw [get?_add] at hq
    split at hq
    · exact Option.some.inj hq ▸ hclass
    · exact h.classes id' q hq
  once := h.once
  apart := fun id' hid' => by
    have hne : id' ≠ id := by
      rintro rfl
      exact hid hid'
    rw [get?_add, if_neg hne]
    exact h.apart id' hid'
  issued := fun id' hid' => by
    have hne : id' ≠ id := by
      rintro rfl
      exact hid' hissued
    rw [get?_add, if_neg hne]
    exact h.issued id' hid'

theorem Current.add (h : r.Current) (hk : ∃ k, r.connectedKiosks p.kioskId = some k ∧ k.ws = p.socket) :
    (r.add id p).Current := by
  intro id' q hq
  rw [get?_add] at hq
  split at hq
  · exact Option.some.inj hq ▸ hk
  · exact h id' q hq

/-- What rejecting the requests of a socket does: they are settled, and all others stay. -/
structure Rejected (socket : Nat) (error : String) (r r' : Registry) : Prop where
  sound : r'.Sound
  connected : r'.connectedKiosks = r.connectedKiosks
  rest : ∀ id p, r'.pendingRequests.get? id = some p ↔ r.pendingRequests.get? id = some p ∧ p.socket ≠ socket
  settled : ∀ e ∈ r'.settled, e ∈ r.settled ∨ ∃ owner, e.2 = Owner.reject owner error

theorem Sound.rejectSocket (h : r.Sound) (socket : Nat) (error : String) :
    Rejected socket error r (r.rejectSocket socket error) := by
  have hfold : ∀ (es : List (String × Pending)) (t : Registry), t.Sound → (es.map Prod.fst).Nodup →
      (∀ e ∈ es, t.pendingRequests.get? e.1 = some e.2) →
      let t' := es.foldl (fun r e => if e.2.socket ≠ socket then r
        else r.settle e.1 (e.2.owner.reject error)) t
      t'.Sound ∧ t'.connectedKiosks = t.connectedKiosks ∧
        (∀ id p, t'.pendingRequests.get? id = some p ↔ t.pendingRequests.get? id = some p ∧
          ((id, p) ∈ es → p.socket ≠ socket)) ∧
        ∀ e ∈ t'.settled, e ∈ t.settled ∨ ∃ owner, e.2 = Owner.reject owner error := by
    intro es
    induction es with
    | nil => exact fun t ht _ _ => ⟨ht, rfl, fun id p => by simp, fun e he => .inl he⟩
    | cons e es ih =>
      intro t ht hnodup hes
      obtain ⟨hnot, hnodup⟩ := List.nodup_cons.1 hnodup
      have he := hes e (List.mem_cons_self ..)
      rw [List.foldl_cons]
      by_cases hs : e.2.socket = socket
      · rw [if_neg (not_not.2 hs)]
        have hrest : ∀ x ∈ es, (t.settle e.1 (e.2.owner.reject error)).pendingRequests.get? x.1 =
            some x.2 := fun x hx =>
          (get?_drop (r := t)).trans
            ((if_neg fun heq => hnot (List.mem_map.2 ⟨x, hx, heq⟩)).trans
            (hes x (List.mem_cons_of_mem _ hx)))
        have hsettle : (t.settle e.1 (e.2.owner.reject error)).Sound := ht.settle_pending he
        obtain ⟨hsound, hconnected, hget, hsettled⟩ := ih _ hsettle hnodup hrest
        refine ⟨hsound, hconnected, fun id p => ?_, fun x hx => ?_⟩
        · rw [hget, show (t.settle e.1 (e.2.owner.reject error)).pendingRequests.get? id =
            _ from get?_drop (r := t)]
          by_cases hid : id = e.1
          · subst hid
            rw [if_pos rfl]
            constructor
            · rintro ⟨h, -⟩
              cases h
            · rintro ⟨hp, hn⟩
              obtain rfl := Option.some.inj (hp.symm.trans he)
              exact absurd hs (hn (List.mem_cons_self ..))
          · have hne : (id, p) ≠ e := fun heq => hid (congrArg Prod.fst heq)
            rw [if_neg hid, List.mem_cons, or_iff_right hne]
        · rcases hsettled x hx with hx | hx
          · rcases List.mem_append.1 hx with hx | hx
            · exact .inl hx
            · exact .inr ⟨e.2.owner, by rw [List.mem_singleton.1 hx]⟩
          · exact .inr hx
      · rw [if_pos hs]
        obtain ⟨hsound, hconnected, hget, hsettled⟩ :=
          ih t ht hnodup fun x hx => hes x (List.mem_cons_of_mem _ hx)
        refine ⟨hsound, hconnected, fun id p => ?_, hsettled⟩
        rw [hget]
        refine and_congr_right fun hp => ?_
        rw [List.mem_cons]
        constructor
        · rintro hn (rfl | hmem)
          · exact hs
          · exact hn hmem
        · exact fun hn hmem => hn (.inr hmem)
  obtain ⟨hsound, hconnected, hget, hsettled⟩ := hfold r.pendingRequests.entries r h r.pendingRequests.nodup
    fun e he => OrdMap.get?_eq_some.2 he
  refine ⟨hsound, hconnected, fun id p => ?_, hsettled⟩
  rw [Registry.rejectSocket, hget]
  exact and_congr_right fun hp => ⟨fun hn => hn (OrdMap.get?_eq_some.1 hp), fun hn _ => hn⟩

end Registry

/-! ### What a step does to the registry -/

/-- A message that answers a pending request, and what the request is settled with: a response of the class
that the request waits for. -/
inductive Responds (p : Pending) (msg : Json) : Outcome → Prop
  | proxy (hclass : p.responseType = none) (htype : (typeOf msg).any proxyResponses.contains = true) :
    Responds p msg (if errorOf msg = "" then p.owner.resolve msg else p.owner.reject (errorOf msg))
  | power (hclass : p.responseType = some "power-result") (htype : typeOf msg = some "power-result")
    (accepted : Bool)
      (haccepted : msg.get? "accepted" = some (.bool accepted)) : Responds p msg
        (p.owner.resolve (.bool accepted))

/-- The message has been written to the socket, or is a layout switch for it that is being validated. -/
def State.Carries (s : State) (ws : Nat) (message : Json) : Prop :=
  (∃ w ∈ s.written, w.ws = ws ∧ w.payload = message.stringify) ∨ ∃ v ∈ s.validations, v.ws = ws ∧
    v.message = message

/-- The entry of a request: any response type will do. -/
def requestEntry (kioskId : String) (k : KioskConnection) : Pending := ⟨kioskId, k.ws, none, .request⟩

/-- The entry of a power acknowledgement. -/
def ackEntry (c : Captured) : Pending := ⟨c.kioskId, c.connection.ws, some "power-result", .ack⟩

def Registry.connect (kioskId : String) (k : Option KioskConnection) (r : Registry) : Registry :=
  { r with connectedKiosks := Function.update r.connectedKiosks kioskId k }

def Registry.dropAll (ids : List String) (r : Registry) : Registry := ids.foldl (fun r id => r.drop id) r

/-- What a step from `s` to `s'` does to the registry. -/
inductive Moves (s s' : State) : Label → Prop
  | dropped (l : Label) (ids : List String) (hr : s'.registry = s.registry.dropAll ids) : Moves s s' l
  | connected {kioskId : String} {ws : Nat} {viewer : Bool} {throws : Nat →
    Bool} {k : KioskConnection} (hws : k.ws = ws)
      (hprevious : ∀ p, s.registry.connectedKiosks kioskId = some p → p.ws = ws)
      (hr : s'.registry = s.registry.connect kioskId (some k)) :
        Moves s s' (.upgrade kioskId ws viewer throws)
  | replaced {kioskId : String} {ws : Nat} {viewer : Bool} {throws : Nat →
    Bool} {k p : KioskConnection} (hws : k.ws = ws)
      (hp : s.registry.connectedKiosks kioskId = some p)
      (hr : s'.registry = (s.registry.connect kioskId (some k)).rejectSocket p.ws
        "kiosk connection replaced") :
    Moves s s' (.upgrade kioskId ws viewer throws)
  | closed {kioskId : String} {k : KioskConnection} (hk : s.registry.connectedKiosks kioskId = some k)
      (hr : s'.registry = (s.registry.connect kioskId none).rejectSocket k.ws "kiosk disconnected") :
    Moves s s' (.close kioskId k.ws)
  | answered {msg : Json} {owns : Bool} {p : Pending} {outcome : Outcome}
      (hp : s.registry.pendingRequests.get? (requestIdOf msg) = some p) (hresponds : Responds p msg outcome)
      (hr : s'.registry = s.registry.settle (requestIdOf msg) outcome) :
        Moves s s' (.message p.kioskId p.socket msg owns)
  | offline {kioskId : String} {message : Json} {id : String} {throws : Bool} (hnew : id ∉ s.registry.issued)
      (hr : s'.registry = (s.registry.issue id).settle id (.rejected "kiosk is not connected")) :
    Moves s s' (.requestKiosk kioskId message id throws)
  | unsent {kioskId : String} {message : Json} {id : String} {throws : Bool} {k : KioskConnection}
      (hnew : id ∉ s.registry.issued) (hk : s.online kioskId = some k)
      (hr : s'.registry = ((s.registry.issue id).add id (requestEntry kioskId k)).settle id
        (.rejected "kiosk is not connected")) : Moves s s' (.requestKiosk kioskId message id throws)
  | requested {kioskId : String} {message : Json} {id : String} {throws : Bool} {k : KioskConnection}
      (hnew : id ∉ s.registry.issued) (hk : s.online kioskId = some k)
        (hcarries : s'.Carries k.ws (withRequestId message id))
      (hr : s'.registry = (s.registry.issue id).add id (requestEntry kioskId k)) :
    Moves s s' (.requestKiosk kioskId message id throws)
  | registered {i : Nat} {id : String} {fault : Option Fault} {d : Dispatch} {ids : List String}
      (hnew : id ∉ s.registry.issued) (hd : s.dispatch i = some d) (hc : s.current d = true)
      (hcarries : s'.Carries d.captured.connection.ws (withRequestId d.captured.message id))
      (hr : s'.registry = ((s.registry.issue id).add id (ackEntry d.captured)).dropAll ids) :
    Moves s s' (.validatedPower i (some true) id fault)
  | expired {id : String} {owner : Owner} (htimer : (id, owner) ∈ s.registry.timers)
      (hr : s'.registry = s.registry.settle id (owner.reject "kiosk request timed out")) :
        Moves s s' (.expire id)

variable {s s' s₀ : State} {l : Label} {ls : List Label} {id : String} {p : Pending}

theorem Moves.same (hr : s'.registry = s.registry) : Moves s s' l := .dropped l [] hr

/-- Effects without a registration only drop entries. -/
theorem perform_quiet {c : Captured} {out : List Effect} (h : Dispatch.Quiet out) (s : State) :
    ∃ ids, (out.foldl (State.perform c) s).registry = s.registry.dropAll ids := by
  induction out generalizing s with
  | nil => exact ⟨[], rfl⟩
  | cons e out ih =>
    obtain ⟨ids, hids⟩ := ih (fun id hid => h id (List.mem_cons_of_mem _ hid)) (State.perform c s e)
    rw [List.foldl_cons]
    cases e with
    | register id => exact absurd (List.mem_cons_self ..) (h id)
    | write ws payload => exact ⟨ids, hids⟩
    | release ws => exact ⟨ids, hids⟩
    | cancel id => exact ⟨id :: ids, hids⟩
    | resolve sent => exact ⟨ids, hids⟩

/-- What has been written stays written. -/
theorem perform_written {c : Captured} {w : Written} {out : List Effect} (h : w ∈ s.written) :
    w ∈ (out.foldl (State.perform c) s).written := by
  induction out generalizing s with
  | nil => exact h
  | cons e out ih =>
    rw [List.foldl_cons]
    refine ih ?_
    cases e with
    | write ws payload => exact List.mem_append_left _ h
    | _ => exact h

theorem tell_moves {i : Nat} {e : Event} (h : s.tell i e = some s') :
    (∃ ids, s'.registry = s.registry.dropAll ids) ∨ ∃ d id fault ids, e = .validated (some true) id fault ∧
      s.dispatch i = some d ∧ s.current d = true ∧
      s'.Carries d.captured.connection.ws (withRequestId d.captured.message id) ∧
      s'.registry = ((s.registry.issue id).add id (ackEntry d.captured)).dropAll ids := by
  obtain ⟨d, hd, h⟩ := Option.bind_eq_some_iff.1 h
  obtain ⟨r, hr, h⟩ := Option.bind_eq_some_iff.1 h
  obtain rfl := Option.some.inj h
  rcases Dispatch.react_effects hr with hq | ⟨id, fault, rest, rfl, -, hc, hrest, hq⟩
  · obtain ⟨ids, hids⟩ := perform_quiet (c := d.captured) hq
      { s with calls := s.calls.set i (some (Dispatch.traced r)) }
    exact .inl ⟨ids, hids⟩
  · rw [hrest, List.foldl_cons, List.foldl_cons]
    generalize ht : State.perform d.captured (State.perform d.captured
      { s with calls := s.calls.set i (some (Dispatch.traced r)) } (.register id))
      (.write d.ws (withRequestId d.captured.message id).stringify) = t
    have hreg : t.registry = (s.registry.issue id).add id (ackEntry d.captured) := by
      rw [← ht]
      rfl
    have hwritten : ⟨d.ws, (withRequestId d.captured.message id).stringify, none⟩ ∈ t.written := by
      rw [← ht]
      exact List.mem_append_right _ (List.mem_singleton_self _)
    obtain ⟨ids, hids⟩ := perform_quiet (c := d.captured) hq t
    rw [hreg] at hids
    exact .inr ⟨d, id, fault, ids, rfl, hd, hc, .inl ⟨_, perform_written hwritten, rfl, rfl⟩, hids⟩

theorem onMessage_moves (s : State) (kioskId : String) (ws : Nat) (msg : Json) (owns : Bool) :
    Moves s (s.onMessage kioskId ws msg owns) (.message kioskId ws msg owns) := by
  unfold State.onMessage
  split
  · exact .same rfl
  next k hk =>
  split
  · exact .same rfl
  split
  · split
    · exact .same rfl
    split
    · exact .same rfl
    · next rest p accepted haccept =>
      obtain ⟨hp, ⟨hclass, htype⟩, rfl, rfl, haccepted, rfl⟩ := acceptPowerResult_answers haccept
      exact .answered hp (.power hclass htype accepted haccepted) rfl
  split
  · exact .same rfl
  split
  · next htype =>
    split
    · exact .same rfl
    next p hp =>
    split
    · exact .same rfl
    next hall =>
    simp only [Bool.or_eq_true, decide_eq_true_eq, not_or, not_not, Bool.not_eq_true,
      Option.isSome_eq_false_iff, Option.isNone_iff_eq_none] at hall
    obtain ⟨⟨hclass, rfl⟩, rfl⟩ := hall
    exact .answered hp (.proxy hclass htype) rfl
  · exact .same rfl

theorem requestKiosk_moves (kioskId : String) (message : Json) (throws : Bool)
    (hnew : id ∉ s.registry.issued) :
    Moves s (s.requestKiosk kioskId message id throws) (.requestKiosk kioskId message id throws) := by
  unfold State.requestKiosk
  dsimp only
  split
  · exact .offline hnew rfl
  next k hk =>
  have hk : s.online kioskId = some k := hk
  generalize hs :
    ({ s with registry := (s.registry.issue id).add id ⟨kioskId, k.ws, none, .request⟩ } : State) = t
  have hsends := State.sendToKiosk_sends t kioskId (withRequestId message id) false throws
  generalize t.sendToKiosk kioskId (withRequestId message id) false throws = r at hsends ⊢
  have ht : t.registry = (s.registry.issue id).add id (requestEntry kioskId k) := by rw [← hs]; rfl
  have hreg : r.1.registry = (s.registry.issue id).add id (requestEntry kioskId k) := hsends.registry.trans ht
  have honline : t.online kioskId = s.online kioskId := by rw [← hs]; rfl
  split
  · next hsent =>
    refine .requested hnew hk ?_ hreg
    cases hsends with
    | refused => cases hsent
    | queued => cases hsent
    | wrote k' hk' =>
      obtain rfl := Option.some.inj (hk'.symm.trans (honline.trans hk))
      exact .inl ⟨_, List.mem_append_right _ (List.mem_singleton_self _), rfl, rfl⟩
    | accepted k' hk' =>
      obtain rfl := Option.some.inj (hk'.symm.trans (honline.trans hk))
      exact .inr ⟨_, List.mem_append_right _ (List.mem_singleton_self _), rfl, rfl⟩
  · refine .unsent hnew hk ?_
    show r.1.registry.settle id _ = _
    rw [hreg]

theorem upgrade_moves (s : State) (kioskId : String) (ws : Nat) (viewer : Bool) (throws : Nat → Bool) :
    Moves s (s.upgrade kioskId ws viewer throws) (.upgrade kioskId ws viewer throws) := by
  unfold State.upgrade State.replace
  dsimp only
  split
  · next hprevious =>
    refine .connected (k := ⟨s.upgrades, ws, viewer, viewer⟩) rfl (fun p hp => ?_)
      State.drainOfflineQueue_registry
    rw [hp] at hprevious
    simpa using hprevious
  · next p hp =>
      exact .replaced (k := ⟨s.upgrades, ws, viewer, viewer⟩) rfl (Option.filter_eq_some_iff.1 hp).1
        State.drainOfflineQueue_registry

theorem step_moves (h : step s l = some s') : Moves s s' l := by
  cases l with
  | upgrade kioskId ws viewer throws =>
    obtain rfl := Option.some.inj h
    exact upgrade_moves s kioskId ws viewer throws
  | close kioskId ws =>
    obtain rfl := Option.some.inj h
    unfold State.close
    split
    · exact .same rfl
    · next k hk =>
      obtain ⟨hregistered, hws⟩ := Option.filter_eq_some_iff.1 hk
      obtain rfl := of_decide_eq_true hws
      exact .closed hregistered rfl
  | message kioskId ws msg owns =>
    obtain rfl := Option.some.inj h
    exact onMessage_moves s kioskId ws msg owns
  | requestKiosk kioskId message requestId throws =>
    obtain ⟨hnew, h⟩ := Option.ite_none_left_eq_some.1 h
    obtain rfl := Option.some.inj h
    exact requestKiosk_moves kioskId message throws hnew
  | sendToKiosk kioskId message queueWhenOffline throws =>
    obtain rfl := Option.some.inj h
    exact .same (State.sendToKiosk_sends s kioskId message queueWhenOffline throws).registry
  | sendPowerToKiosk kioskId message throws =>
    obtain rfl := Option.some.inj h
    unfold State.sendPowerToKiosk
    split
    · exact .same rfl
    · next connection hc =>
      obtain ⟨ids, hids⟩ := perform_quiet (c := ⟨kioskId, connection, message, true⟩)
        (Dispatch.begin_quiet _ throws) _
      exact .dropped _ ids hids
  | validatedPower i answer requestId fault =>
    obtain ⟨hnew, h⟩ := Option.ite_none_left_eq_some.1 h
    rcases tell_moves h with ⟨ids, hids⟩ | ⟨d, id, fault', ids, he, hd, hc, hcarries, hids⟩
    · exact .dropped _ ids hids
    · cases he
      exact .registered hnew hd hc hcarries hids
  | wrotePower i error =>
    rcases tell_moves h with ⟨ids, hids⟩ | ⟨d, id, fault', ids, he, -⟩
    · exact .dropped _ ids hids
    · cases he
  | timedOutPower i =>
    rcases tell_moves h with ⟨ids, hids⟩ | ⟨d, id, fault', ids, he, -⟩
    · exact .dropped _ ids hids
    · cases he
  | ackedPower i =>
    obtain ⟨accepted, -, h⟩ := Option.bind_eq_some_iff.1 h
    rcases tell_moves h with ⟨ids, hids⟩ | ⟨d, id, fault', ids, he, -⟩
    · exact .dropped _ ids hids
    · cases he
  | validatedLayout j answer =>
    obtain ⟨v, -, h⟩ := Option.bind_eq_some_iff.1 h
    obtain ⟨-, h⟩ := Option.ite_none_left_eq_some.1 h
    obtain rfl := Option.some.inj h
    refine .same ?_
    unfold State.validated
    dsimp only
    split <;> rfl
  | expire requestId =>
    obtain ⟨⟨id, owner⟩, ht, rfl⟩ := Option.map_eq_some_iff.1 h
    obtain rfl : id = requestId := by simpa using List.find?_some ht
    exact .expired (List.mem_of_find?_eq_some ht) rfl
  | ready ws readyState =>
    obtain rfl := Option.some.inj h
    exact .same rfl

/-! ### The invariant -/

namespace Registry

variable {r : Registry} {kioskId : String} {k p : KioskConnection} {error : String}

theorem Sound.dropAll (h : r.Sound) (ids : List String) : (r.dropAll ids).Sound := by
  induction ids generalizing r with
  | nil => exact h
  | cons id ids ih => exact ih (h.drop id)

theorem Current.dropAll (h : r.Current) (ids : List String) : (r.dropAll ids).Current := by
  induction ids generalizing r with
  | nil => exact h
  | cons id ids ih => exact ih (h.drop id)

theorem Sound.connect (h : r.Sound) (kioskId : String) (k : Option KioskConnection) :
    (r.connect kioskId k).Sound :=
  ⟨h.timers, h.classes, h.once, h.apart, h.issued⟩

/-- The socket of a kiosk is registered again. -/
theorem Current.connect_same (h : r.Current) (hprevious : ∀ p, r.connectedKiosks kioskId = some p →
    p.ws = k.ws) :
    (r.connect kioskId (some k)).Current := by
  intro id q hq
  obtain ⟨x, hx, hws⟩ := h id q hq
  show ∃ y, Function.update r.connectedKiosks kioskId (some k) q.kioskId = some y ∧ y.ws = q.socket
  by_cases hid : q.kioskId = kioskId
  · rw [hid] at hx ⊢
    exact ⟨k, Function.update_self .., (hprevious x hx).symm.trans hws⟩
  · exact ⟨x, by rw [Function.update_of_ne hid]; exact hx, hws⟩

/-- The connection of a kiosk goes, and the requests that waited for its socket with it. -/
theorem Current.connect_reject (hs : r.Sound) (h : r.Current) (hp : r.connectedKiosks kioskId = some p)
    (new : Option KioskConnection) : ((r.connect kioskId new).rejectSocket p.ws error).Current := by
  have hrejected := (hs.connect kioskId new).rejectSocket p.ws error
  intro id q hq
  obtain ⟨hq, hne⟩ := (hrejected.rest id q).1 hq
  obtain ⟨x, hx, hws⟩ := h id q hq
  rw [hrejected.connected]
  refine ⟨x, ?_, hws⟩
  show Function.update r.connectedKiosks kioskId new q.kioskId = some x
  rw [Function.update_of_ne, hx]
  intro hid
  rw [hid, hp] at hx
  exact hne ((Option.some.inj hx) ▸ hws.symm)

end Registry

/-- The registry is sound, and what is pending is so on a socket that is registered. -/
structure Inv (s : State) : Prop where
  sound : s.registry.Sound
  current : s.registry.Current

theorem online_registered {kioskId : String} {k : KioskConnection} (h : s.online kioskId = some k) :
    ∃ x, s.registry.connectedKiosks kioskId = some x ∧ x.ws = k.ws :=
  ⟨k, (State.online_eq_some.1 h).1, rfl⟩

theorem current_iff {d : Dispatch} : s.current d = true ↔
    s.registry.connectedKiosks d.captured.kioskId = some d.captured.connection ∧ s.isOpen d.ws = true := by
  simp [State.current]

/-- A request that has just been issued under a new id can become pending. -/
theorem Inv.add_new (h : Inv s) (hnew : id ∉ s.registry.issued)
    (hclass : p.responseType = Registry.responseTypeOf p.owner)
    (hk : ∃ k, s.registry.connectedKiosks p.kioskId = some k ∧ k.ws = p.socket) :
    ((s.registry.issue id).add id p).Sound ∧ ((s.registry.issue id).add id p).Current := by
  obtain ⟨hnone, hunsettled⟩ := h.sound.issued id hnew
  exact ⟨(h.sound.issue id).add Registry.mem_issue hnone hunsettled hclass,
    Registry.Current.add (r := s.registry.issue id) h.current hk⟩

theorem Inv.moves (h : Inv s) (hm : Moves s s' l) : Inv s' := by
  suffices hgoal : s'.registry.Sound ∧ s'.registry.Current from ⟨hgoal.1, hgoal.2⟩
  cases hm with
  | dropped l ids hr =>
    rw [hr]
    exact ⟨h.sound.dropAll ids, h.current.dropAll ids⟩
  | connected hws hprevious hr =>
    rw [hr]
    exact ⟨h.sound.connect _ _, h.current.connect_same fun p hp => (hprevious p hp).trans hws.symm⟩
  | replaced hws hp hr =>
    rw [hr]
    exact ⟨((h.sound.connect _ _).rejectSocket _ _).sound,
      Registry.Current.connect_reject h.sound h.current hp _⟩
  | closed hk hr =>
    rw [hr]
    exact ⟨((h.sound.connect _ _).rejectSocket _ _).sound,
      Registry.Current.connect_reject h.sound h.current hk _⟩
  | answered hp hresponds hr =>
    rw [hr]
    exact ⟨h.sound.settle_pending hp, h.current.drop _⟩
  | offline hnew hr =>
    rw [hr]
    exact ⟨(h.sound.issue _).settle Registry.mem_issue (h.sound.issued _ hnew).2,
      Registry.Current.drop (r := s.registry.issue _) h.current _⟩
  | unsent hnew hk hr =>
    rw [hr]
    obtain ⟨hsound, hcurrent⟩ := h.add_new hnew (p := requestEntry _ _) rfl (online_registered hk)
    exact ⟨hsound.settle_pending (Registry.get?_add.trans (if_pos rfl)), hcurrent.drop _⟩
  | requested hnew hk hcarries hr =>
    rw [hr]
    exact h.add_new hnew (p := requestEntry _ _) rfl (online_registered hk)
  | registered hnew hd hc hcarries hr =>
    rw [hr]
    obtain ⟨hsound, hcurrent⟩ := h.add_new hnew (p := ackEntry _) rfl ⟨_, (current_iff.1 hc).1, rfl⟩
    exact ⟨hsound.dropAll _, hcurrent.dropAll _⟩
  | expired htimer hr =>
    rw [hr]
    obtain ⟨p, hp, -⟩ := (h.sound.timers _ _).1 htimer
    exact ⟨h.sound.settle_pending hp, h.current.drop _⟩

/-! ### Where the pending and the settled requests come from -/

/-- The step in which the request of an entry is sent on the registered open socket of its kiosk. -/
inductive Sent (id : String) (p : Pending) (s : State) : Label → Prop
  | request {message : Json} {throws : Bool} {k : KioskConnection} {s' : State}
    (hk : s.online p.kioskId = some k)
      (hsocket : k.ws = p.socket) (hclass : p.responseType = none)
      (hstep : step s (.requestKiosk p.kioskId message id throws) = some s')
      (hcarries : s'.Carries p.socket (withRequestId message id)) :
        Sent id p s (.requestKiosk p.kioskId message id throws)
  | power {i : Nat} {fault : Option Fault} {d : Dispatch} {s' : State} (hd : s.dispatch i = some d)
      (hk : s.online p.kioskId = some d.captured.connection) (hsocket : d.captured.connection.ws = p.socket)
      (hclass : p.responseType = some "power-result")
        (hstep : step s (.validatedPower i (some true) id fault) = some s')
      (hcarries : s'.Carries p.socket (withRequestId d.captured.message id)) :
        Sent id p s (.validatedPower i (some true) id fault)

theorem Registry.get?_dropAll {r : Registry} {ids : List String}
    (h : (r.dropAll ids).pendingRequests.get? id = some p) :
    r.pendingRequests.get? id = some p := by
  induction ids generalizing r with
  | nil => exact h
  | cons id' ids ih => exact (Registry.get?_drop_some (ih h)).2

theorem Registry.settled_dropAll {r : Registry} {ids : List String} :
    (r.dropAll ids).settled = r.settled := by
  induction ids generalizing r with
  | nil => rfl
  | cons id' ids ih => exact ih

theorem Moves.sent (hi : Inv s) (hstep : step s l = some s')
    (h : s'.registry.pendingRequests.get? id = some p) :
    s.registry.pendingRequests.get? id = some p ∨ Sent id p s l := by
  cases step_moves hstep with
  | dropped l ids hr =>
    rw [hr] at h
    exact .inl (Registry.get?_dropAll h)
  | connected hws hprevious hr =>
    rw [hr] at h
    exact .inl h
  | replaced hws hp hr =>
    rw [hr] at h
    exact .inl (((hi.sound.connect _ _).rejectSocket _ _).rest _ _ |>.1 h).1
  | closed hk hr =>
    rw [hr] at h
    exact .inl (((hi.sound.connect _ _).rejectSocket _ _).rest _ _ |>.1 h).1
  | answered hp hresponds hr =>
    rw [hr] at h
    exact .inl (Registry.get?_drop_some h).2
  | offline hnew hr =>
    rw [hr] at h
    exact .inl (Registry.get?_drop_some h).2
  | unsent hnew hk hr =>
    rw [hr] at h
    obtain ⟨hne, h⟩ := Registry.get?_drop_some h
    rw [Registry.get?_add, if_neg hne] at h
    exact .inl h
  | requested hnew hk hcarries hr =>
    rw [hr, Registry.get?_add] at h
    split at h
    · next heq =>
      subst heq
      obtain rfl := Option.some.inj h
      exact .inr (.request hk rfl rfl hstep hcarries)
    · exact .inl h
  | registered hnew hd hc hcarries hr =>
    rw [hr] at h
    have hadded := Registry.get?_dropAll h
    rw [Registry.get?_add] at hadded
    split at hadded
    · next heq =>
      subst heq
      obtain rfl := Option.some.inj hadded
      exact .inr (.power hd (State.online_eq_some.2 (current_iff.1 hc)) rfl rfl hstep hcarries)
    · exact .inl hadded
  | expired htimer hr =>
    rw [hr] at h
    exact .inl (Registry.get?_drop_some h).2

/-- What a request can be settled with when it has not been answered. -/
def Outcome.Refusal : Outcome → Prop
  | .resolved _ => False
  | .rejected _ => True
  | .acked accepted => accepted = false

theorem Owner.reject_refusal (owner : Owner) (error : String) : (owner.reject error).Refusal := by
  cases owner with
  | request => trivial
  | ack => rfl

/-- The step in which a pending request gets its answer. -/
inductive Answered (id : String) (outcome : Outcome) (s : State) : Label → Prop
  | mk {p : Pending} {msg : Json} {owns : Bool} (hp : s.registry.pendingRequests.get? id = some p)
    (hid : requestIdOf msg = id)
      (hresponds : Responds p msg outcome) : Answered id outcome s (.message p.kioskId p.socket msg owns)

theorem Moves.settled {outcome : Outcome} (hi : Inv s) (hm : Moves s s' l)
    (h : (id, outcome) ∈ s'.registry.settled)
    (hn : ¬ outcome.Refusal) : (id, outcome) ∈ s.registry.settled ∨ Answered id outcome s l := by
  have hsettle {r : Registry} {id' : String} {o : Outcome} (ho : o.Refusal)
    (hr : r.settled = s.registry.settled)
      (h : (id, outcome) ∈ (r.settle id' o).settled) : (id, outcome) ∈ s.registry.settled := by
    rcases List.mem_append.1 h with h | h
    · rwa [hr] at h
    · cases List.mem_singleton.1 h
      exact absurd ho hn
  have hreject {socket : Nat} {error kioskId : String} {k : Option KioskConnection}
      (h : (id, outcome) ∈ ((s.registry.connect kioskId k).rejectSocket socket error).settled) :
      (id, outcome) ∈ s.registry.settled := by
    rcases ((hi.sound.connect kioskId k).rejectSocket socket error).settled _ h with h | ⟨owner, ho⟩
    · exact h
    · have ho : outcome = owner.reject error := ho
      exact absurd (ho ▸ owner.reject_refusal error) hn
  cases hm with
  | dropped l ids hr =>
    rw [hr, Registry.settled_dropAll] at h
    exact .inl h
  | connected hws hprevious hr =>
    rw [hr] at h
    exact .inl h
  | replaced hws hp hr =>
    rw [hr] at h
    exact .inl (hreject h)
  | closed hk hr =>
    rw [hr] at h
    exact .inl (hreject h)
  | answered hp hresponds hr =>
    rw [hr] at h
    rcases List.mem_append.1 h with h | h
    · exact .inl h
    · cases List.mem_singleton.1 h
      exact .inr (.mk hp rfl hresponds)
  | offline hnew hr =>
    rw [hr] at h
    exact .inl (hsettle (show Outcome.Refusal (.rejected _) from trivial) rfl h)
  | unsent hnew hk hr =>
    rw [hr] at h
    exact .inl (hsettle (show Outcome.Refusal (.rejected _) from trivial) rfl h)
  | requested hnew hk hcarries hr =>
    rw [hr] at h
    exact .inl h
  | registered hnew hd hc hcarries hr =>
    rw [hr, Registry.settled_dropAll] at h
    exact .inl h
  | expired htimer hr =>
    rw [hr] at h
    exact .inl (hsettle (Owner.reject_refusal _ _) rfl h)

/-! ### Runs -/

def Registry.empty : Registry := ⟨fun _ => none, .empty, [], [], []⟩

theorem inv_of_empty (h0 : s₀.registry = .empty) : Inv s₀ where
  sound := by
    rw [h0]
    exact {
      timers := fun id owner => ⟨fun h => absurd h List.not_mem_nil, fun ⟨p, hp, _⟩ => nomatch hp⟩
      classes := fun id p hp => nomatch hp
      once := List.nodup_nil
      apart := fun id h => absurd h List.not_mem_nil
      issued := fun id _ => ⟨rfl, List.not_mem_nil⟩ }
  current := by
    rw [h0]
    exact fun id p hp => nomatch hp

theorem run_invariant (h0 : s₀.registry = .empty) (h : Machine.run step s₀ ls = some s) : Inv s :=
  Machine.run_inv (fun _ _ _ hstep hi => hi.moves (step_moves hstep)) h (inv_of_empty h0)

theorem sent_of_pending (h0 : s₀.registry = .empty) (h : Machine.run step s₀ ls = some s)
    (hp : s.registry.pendingRequests.get? id = some p) : Machine.Took step (Sent id p) s₀ ls := by
  refine Machine.took_of_run (I := Inv) (P := fun t => t.registry.pendingRequests.get? id = some p)
    (fun _ _ _ hstep hi => hi.moves (step_moves hstep)) (fun t l t' hi hstep hn hpt => ?_) h
      (inv_of_empty h0) ?_ hp
  · exact (Moves.sent hi hstep hpt).resolve_left hn
  · rw [h0]
    exact fun h => nomatch h

/-- The request has been answered by the message: it came on the socket of the entry `p` from the kiosk of the
entry while the request was pending, and before that the request was sent on this socket. -/
def AnsweredBy (s₀ : State) (ls : List Label) (id : String) (p : Pending) (msg : Json) : Prop :=
  ∃ before owns after t, ls = before ++ .message p.kioskId p.socket msg owns :: after ∧
    Machine.run step s₀ before = some t ∧ t.registry.pendingRequests.get? id = some p ∧ requestIdOf msg = id ∧
    Machine.Took step (Sent id p) s₀ before

theorem answered_of_settled {outcome : Outcome} (h0 : s₀.registry = .empty)
    (h : Machine.run step s₀ ls = some s)
    (ho : (id, outcome) ∈ s.registry.settled) (hn : ¬ outcome.Refusal) :
    ∃ p msg, AnsweredBy s₀ ls id p msg ∧ Responds p msg outcome ∧
    p.responseType = Registry.responseTypeOf p.owner := by
  have htook : Machine.Took step (Answered id outcome) s₀ ls := by
    refine Machine.took_of_run (I := Inv) (P := fun t => (id, outcome) ∈ t.registry.settled)
      (fun _ _ _ hstep hi => hi.moves (step_moves hstep)) (fun t l t' hi hstep hnt hpt => ?_) h
        (inv_of_empty h0) ?_ ho
    · exact (Moves.settled hi (step_moves hstep) hpt hn).resolve_left hnt
    · rw [h0]
      exact List.not_mem_nil
  obtain ⟨before, l, after, t, rfl, ht, hp, hid, hresponds⟩ := htook
  next p msg owns =>
  exact ⟨p, msg, ⟨before, owns, after, t, rfl, ht, hp, hid, sent_of_pending h0 ht hp⟩, hresponds,
    (run_invariant h0 ht).sound.classes id p hp⟩

/-- What every run makes true of the requests. -/
structure Correlated (s₀ : State) (ls : List Label) (s : State) : Prop where
  registered : ∀ id p, s.registry.pendingRequests.get? id = some p →
    ∃ k, s.registry.connectedKiosks p.kioskId = some k ∧ k.ws = p.socket
  once : (s.registry.settled.map Prod.fst).Nodup
  removed : ∀ id ∈ s.registry.settled.map Prod.fst,
    s.registry.pendingRequests.get? id = none ∧ ∀ owner, (id, owner) ∉ s.registry.timers
  timers : ∀ id, (s.registry.pendingRequests.get? id).isSome ↔ ∃ owner, (id, owner) ∈ s.registry.timers
  resolved : ∀ id v, (id, .resolved v) ∈ s.registry.settled → ∃ p, AnsweredBy s₀ ls id p v ∧
    p.responseType = none ∧ (typeOf v).any proxyResponses.contains = true
  confirmed : ∀ id, (id, .acked true) ∈ s.registry.settled → ∃ p msg, AnsweredBy s₀ ls id p msg ∧
    p.responseType = some "power-result" ∧ typeOf msg = some "power-result" ∧
      msg.get? "accepted" = some (.bool true)
  replaced : ∀ kioskId ws, (∀ k, s.registry.connectedKiosks kioskId = some k → k.ws ≠ ws) →
    step s (.close kioskId ws) = some s

theorem owner_of_class {owner : Owner} {responseType : Option String}
    (h : responseType = Registry.responseTypeOf owner) :
    (responseType = none → owner = .request) ∧ (responseType = some "power-result" → owner = .ack) := by
  subst h
  cases owner with
  | request => exact ⟨fun _ => rfl, fun h => nomatch h⟩
  | ack => exact ⟨fun h => (by cases h), fun _ => rfl⟩

theorem Responds.resolved {v msg : Json} (h : Responds p msg (.resolved v))
    (hc : p.responseType = Registry.responseTypeOf p.owner) :
    v = msg ∧ p.responseType = none ∧ (typeOf v).any proxyResponses.contains = true := by
  generalize ho : Outcome.resolved v = outcome at h
  cases h with
  | proxy hclass htype =>
    rw [(owner_of_class hc).1 hclass] at ho
    split at ho
    · cases ho
      exact ⟨rfl, hclass, htype⟩
    · cases ho
  | power hclass htype accepted haccepted =>
    rw [(owner_of_class hc).2 hclass] at ho
    cases ho

theorem Responds.confirmed {msg : Json} (h : Responds p msg (.acked true))
    (hc : p.responseType = Registry.responseTypeOf p.owner) :
    p.responseType = some "power-result" ∧ typeOf msg = some "power-result" ∧
    msg.get? "accepted" = some (.bool true) := by
  generalize ho : Outcome.acked true = outcome at h
  cases h with
  | proxy hclass htype =>
    rw [(owner_of_class hc).1 hclass] at ho
    split at ho <;> cases ho
  | power hclass htype accepted haccepted =>
    rw [(owner_of_class hc).2 hclass] at ho
    cases accepted with
    | true => exact ⟨hclass, htype, haccepted⟩
    | false => cases ho

theorem requests_correlated (h0 : s₀.registry = .empty) (h : Machine.run step s₀ ls = some s) :
    Correlated s₀ ls s := by
  have hi := run_invariant h0 h
  have htimers (id : String) : (s.registry.pendingRequests.get? id).isSome ↔
      ∃ owner, (id, owner) ∈ s.registry.timers := by
    simp only [hi.sound.timers, Option.isSome_iff_exists]
    constructor
    · rintro ⟨p, hp⟩
      exact ⟨p.owner, p, hp, rfl⟩
    · rintro ⟨_, p, hp, -⟩
      exact ⟨p, hp⟩
  exact {
    registered := hi.current
    once := hi.sound.once
    removed := fun id hid => by
      have hnone := hi.sound.apart id hid
      refine ⟨hnone, fun owner hmem => ?_⟩
      have := (htimers id).2 ⟨owner, hmem⟩
      rw [hnone] at this
      cases this
    timers := htimers
    resolved := fun id v hmem => by
      obtain ⟨p, msg, hby, hresponds, hc⟩ := answered_of_settled h0 h hmem not_false
      obtain ⟨rfl, hclass⟩ := hresponds.resolved hc
      exact ⟨p, hby, hclass⟩
    confirmed := fun id hmem => by
      obtain ⟨p, msg, hby, hresponds, hc⟩ := answered_of_settled h0 h hmem (fun h => by cases h)
      exact ⟨p, msg, hby, hresponds.confirmed hc⟩
    replaced := fun kioskId ws hne => by
      show some (s.close kioskId ws) = some s
      unfold State.close
      split
      · rfl
      · next k hk =>
        obtain ⟨hk, hws⟩ := Option.filter_eq_some_iff.1 hk
        exact absurd (of_decide_eq_true hws) (hne k hk) }

/-- A kiosk connects, is asked, and answers. -/
theorem requests_correlated_answer :
    let s₀ : State := ⟨.empty, 0, fun _ => 1, fun _ => [], [], [], [], []⟩
    let answer : Json := .obj [("type", .str "onvif-action-response"), ("request_id", .str "request")]
    let ls : List Label := [.upgrade "kiosk" 7 false (fun _ => false),
      .requestKiosk "kiosk" (.obj [("type", .str "onvif-action")]) "request" false,
        .message "kiosk" 7 answer false]
    ∃ s, ("request", .resolved answer) ∈ s.registry.settled ∧ Correlated s₀ ls s := by
  refine ⟨_, ?_, requests_correlated rfl rfl⟩
  exact List.mem_singleton_self _

end Coordinator
