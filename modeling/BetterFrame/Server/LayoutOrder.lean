import BetterFrame.Server.Coordinator
import Mathlib.Data.List.Sort

/-!
# The order of layout switches on the socket of an Android viewer

`sendToKiosk` accepts a layout switch for a viewer by asking `validateViewerLayout`, and the answer writes
it: each accepted switch is a validation of its own, in the order in which they were sent, and nothing
orders the answers. When no switch is answered with `true` after a later one of the same socket has been,
the switches that are written are in the order of the accepted ones; two answers the other way round are
enough to leave the earlier layout on the screen.
-/

namespace Coordinator

open PowerDispatch

namespace State

/-- The layout switches written to the socket, each as the number of its validation. -/
def delivered (s : State) (ws : Nat) : List Nat :=
  s.written.filterMap fun w => if w.ws = ws then w.validation else none

/-- The layout switches accepted for the socket, in the order in which they were sent. -/
def accepted (s : State) (ws : Nat) : List Nat :=
  (List.range s.validations.length).filter fun j => (s.validations[j]?).any (·.ws = ws)

end State

/-- When a validation answers `true` while its socket is the registered open one, no later one of the same
socket has answered `true` before. -/
def InOrder (s : State) : Label → Prop
  | .validatedLayout j answer => ∀ v, s.validations[j]? = some v → answer = some true → s.passes v = true →
      ∀ j' v', s.validations[j']? = some v' → j < j' → v'.ws = v.ws → v'.answer ≠ some (some true)
  | _ => True

variable {s s' s₀ t : State} {l : Label} {ls : List Label} {kioskId : String} {message : Json} {ws : Nat}

/-- No layout switch is written; new validations may be asked for. -/
def Grows (s s' : State) : Prop :=
  (∀ ws, s'.delivered ws = s.delivered ws) ∧ ∃ asked, s'.validations = s.validations ++ asked

theorem Grows.refl (s : State) : Grows s s := ⟨fun _ => rfl, [], (List.append_nil _).symm⟩

theorem Grows.trans (h : Grows s t) (h' : Grows t s') : Grows s s' := by
  obtain ⟨hw, vs, hv⟩ := h
  obtain ⟨hw', vs', hv'⟩ := h'
  exact ⟨fun ws => (hw' ws).trans (hw ws), vs ++ vs', by rw [hv', hv, List.append_assoc]⟩

theorem Grows.of_eq (hw : s'.written = s.written) (hv : s'.validations = s.validations) : Grows s s' :=
  ⟨fun ws => by rw [State.delivered, hw]; rfl, [], by rw [hv, List.append_nil]⟩

/-- A payload that no validation has let pass. -/
theorem Grows.write {payload : String} (hw : s'.written = s.written ++ [⟨ws, payload, none⟩])
    (hv : s'.validations = s.validations) : Grows s s' := by
  refine ⟨fun ws' => ?_, [], by rw [hv, List.append_nil]⟩
  rw [State.delivered, hw, List.filterMap_append]
  simp [State.delivered]

theorem Sends.grows {r : State × Bool} (h : State.Sends s kioskId message r) : Grows s r.1 := by
  cases h with
  | refused => exact .refl s
  | queued queues => exact .of_eq rfl rfl
  | wrote k => exact .write rfl rfl
  | accepted k => exact ⟨fun _ => rfl, _, rfl⟩

theorem sendToKiosk_grows (s : State) (kioskId : String) (message : Json) (queue throws : Bool) :
    Grows s (s.sendToKiosk kioskId message queue throws).1 :=
  Sends.grows (State.sendToKiosk_sends s kioskId message queue throws)

theorem drainOfflineQueue_grows (s : State) (kioskId : String) (throws : Nat → Bool) :
    Grows s (s.drainOfflineQueue kioskId throws) := by
  unfold State.drainOfflineQueue
  split
  · exact .refl s
  · have hdrained := State.drain_inv (I := Grows s) (fun t message throws ht =>
      ht.trans (sendToKiosk_grows t kioskId message false throws))
      throws (State.parsed (s.offlineQueues kioskId)).zipIdx (Grows.refl s)
    exact hdrained.trans (.of_eq rfl rfl)

theorem perform_grows (c : Captured) (out : List Effect) (s : State) :
    Grows s (out.foldl (State.perform c) s) := by
  induction out generalizing s with
  | nil => exact .refl s
  | cons e out ih =>
    rw [List.foldl_cons]
    refine Grows.trans ?_ (ih _)
    cases e with
    | write ws payload => exact .write rfl rfl
    | _ => exact .of_eq rfl rfl

theorem tell_grows {i : Nat} {e : Event} (h : s.tell i e = some s') : Grows s s' := by
  obtain ⟨d, hd, h⟩ := Option.bind_eq_some_iff.1 h
  obtain ⟨r, hr, h⟩ := Option.bind_eq_some_iff.1 h
  obtain rfl := Option.some.inj h
  exact .trans (.of_eq rfl rfl) (perform_grows d.captured r.2 _)

theorem upgrade_grows (s : State) (kioskId : String) (ws : Nat) (viewer : Bool) (throws : Nat → Bool) :
    Grows s (s.upgrade kioskId ws viewer throws) := by
  unfold State.upgrade State.replace
  dsimp only
  refine Grows.trans ?_ (drainOfflineQueue_grows _ kioskId throws)
  split <;> exact .write rfl rfl

theorem requestKiosk_grows (s : State) (kioskId : String) (message : Json) (id : String) (throws : Bool) :
    Grows s (s.requestKiosk kioskId message id throws) := by
  unfold State.requestKiosk
  dsimp only
  split
  · exact .of_eq rfl rfl
  · next k hk =>
    have hsent := sendToKiosk_grows
      { s with registry := (s.registry.issue id).add id ⟨kioskId, k.ws, none, .request⟩ } kioskId
      (withRequestId message id) false throws
    have hgrows : Grows s _ := .trans (.of_eq rfl rfl) hsent
    split
    · exact hgrows
    · exact hgrows.trans (.of_eq rfl rfl)

theorem onMessage_grows (s : State) (kioskId : String) (ws : Nat) (msg : Json) (owns : Bool) :
    Grows s (s.onMessage kioskId ws msg owns) := by
  unfold State.onMessage
  split
  · exact .refl s
  split
  · exact .refl s
  split
  · split
    · exact .refl s
    split <;> exact .of_eq rfl rfl
  split
  · exact .refl s
  split
  · split
    · exact .refl s
    split
    · exact .refl s
    · exact .of_eq rfl rfl
  · exact .refl s

/-- Only the answer of a validation writes a layout switch, and it writes its own. -/
theorem step_layouts (h : step s l = some s') :
    Grows s s' ∨ ∃ j answer v, l = .validatedLayout j answer ∧ s.validations[j]? = some v ∧ v.answer = none ∧
      s'.validations = s.validations.set j { v with answer := some answer } ∧
      (s'.written = s.written ∨ answer = some true ∧ s.passes v = true ∧
        s'.written = s.written ++ [⟨v.ws, v.message.stringify, some j⟩]) := by
  cases l with
  | upgrade kioskId ws viewer throws =>
    obtain rfl := Option.some.inj h
    exact .inl (upgrade_grows s kioskId ws viewer throws)
  | close kioskId ws =>
    obtain rfl := Option.some.inj h
    left
    unfold State.close
    split <;> exact .of_eq rfl rfl
  | message kioskId ws msg owns =>
    obtain rfl := Option.some.inj h
    exact .inl (onMessage_grows s kioskId ws msg owns)
  | requestKiosk kioskId message requestId throws =>
    obtain ⟨-, h⟩ := Option.ite_none_left_eq_some.1 h
    obtain rfl := Option.some.inj h
    exact .inl (requestKiosk_grows s kioskId message requestId throws)
  | sendToKiosk kioskId message queueWhenOffline throws =>
    obtain rfl := Option.some.inj h
    exact .inl (sendToKiosk_grows s kioskId message queueWhenOffline throws)
  | sendPowerToKiosk kioskId message throws =>
    obtain rfl := Option.some.inj h
    left
    unfold State.sendPowerToKiosk
    split
    · exact .of_eq rfl rfl
    · exact .trans (.of_eq rfl rfl) (perform_grows _ _ _)
  | validatedPower i answer requestId fault =>
    obtain ⟨-, h⟩ := Option.ite_none_left_eq_some.1 h
    exact .inl (tell_grows h)
  | wrotePower i error => exact .inl (tell_grows h)
  | timedOutPower i => exact .inl (tell_grows h)
  | ackedPower i =>
    obtain ⟨accepted, -, h⟩ := Option.bind_eq_some_iff.1 h
    exact .inl (tell_grows h)
  | validatedLayout j answer =>
    obtain ⟨v, hv, h⟩ := Option.bind_eq_some_iff.1 h
    obtain ⟨hnone, h⟩ := Option.ite_none_left_eq_some.1 h
    obtain rfl := Option.some.inj h
    right
    refine ⟨j, answer, v, rfl, hv, by simpa using hnone, ?_, ?_⟩
    · unfold State.validated
      dsimp only
      split <;> rfl
    · unfold State.validated
      dsimp only
      split
      · next hpass =>
        obtain ⟨ha, hp⟩ := (Bool.and_eq_true_iff).1 hpass
        exact .inr ⟨of_decide_eq_true ha, hp, rfl⟩
      · exact .inl rfl
  | expire requestId =>
    obtain ⟨timer, -, rfl⟩ := Option.map_eq_some_iff.1 h
    exact .inl (.of_eq rfl rfl)
  | ready ws readyState =>
    obtain rfl := Option.some.inj h
    exact .inl (.of_eq rfl rfl)

/-- Every switch that has been written was answered with `true`, and they were written in order. -/
structure Ordered (s : State) : Prop where
  answered : ∀ ws j, j ∈ s.delivered ws → ∃ v, s.validations[j]? = some v ∧ v.ws = ws ∧
    v.answer = some (some true)
  sorted : ∀ ws, (s.delivered ws).Pairwise (· < ·)

theorem Ordered.grows (h : Ordered s) (hg : Grows s s') : Ordered s' := by
  obtain ⟨hdelivered, asked, hasked⟩ := hg
  refine ⟨fun ws j hj => ?_, fun ws => by rw [hdelivered]; exact h.sorted ws⟩
  obtain ⟨v, hv, hws, ha⟩ := h.answered ws j (hdelivered ws ▸ hj)
  obtain ⟨hlt, -⟩ := List.getElem?_eq_some_iff.1 hv
  exact ⟨v, by rw [hasked, List.getElem?_append_left hlt, hv], hws, ha⟩

theorem Ordered.answer {j : Nat} {answer : Option Bool} {v : Validation} (h : Ordered s)
    (hin : InOrder s (.validatedLayout j answer))
    (hv : s.validations[j]? = some v) (hnone : v.answer = none)
    (hvalidations : s'.validations = s.validations.set j { v with answer := some answer })
    (hwritten : s'.written = s.written ∨ answer = some true ∧ s.passes v = true ∧
      s'.written = s.written ++ [⟨v.ws, v.message.stringify, some j⟩]) : Ordered s' := by
  obtain ⟨hlt, -⟩ := List.getElem?_eq_some_iff.1 hv
  -- a validation that has let its switch pass has been answered before
  have hne {ws k : Nat} (hk : k ∈ s.delivered ws) : k ≠ j := by
    rintro rfl
    obtain ⟨v', hv', -, ha⟩ := h.answered ws k hk
    obtain rfl := Option.some.inj (hv.symm.trans hv')
    rw [hnone] at ha
    cases ha
  have hold {ws k : Nat} (hk : k ∈ s.delivered ws) : ∃ v, s'.validations[k]? = some v ∧ v.ws = ws ∧
      v.answer = some (some true) := by
    obtain ⟨v', hv', hws, ha⟩ := h.answered ws k hk
    exact ⟨v', by rw [hvalidations, List.getElem?_set_ne (hne hk).symm, hv'], hws, ha⟩
  rcases hwritten with hwritten | ⟨rfl, hpass, hwritten⟩
  · have hdelivered (ws : Nat) : s'.delivered ws = s.delivered ws := by rw [State.delivered, hwritten]; rfl
    exact ⟨fun ws k hk => hold (hdelivered ws ▸ hk), fun ws => by rw [hdelivered]; exact h.sorted ws⟩
  have hdelivered (ws : Nat) : s'.delivered ws = s.delivered ws ++ if v.ws = ws then [j] else [] := by
    rw [State.delivered, hwritten, List.filterMap_append]
    by_cases hws : v.ws = ws <;> simp [State.delivered, hws]
  refine ⟨fun ws k hk => ?_, fun ws => ?_⟩
  · rw [hdelivered, List.mem_append] at hk
    rcases hk with hk | hk
    · exact hold hk
    · obtain ⟨hws, hk⟩ : v.ws = ws ∧ k = j := by
        split at hk
        · next hws => exact ⟨hws, List.mem_singleton.1 hk⟩
        · cases hk
      subst hk
      exact ⟨{ v with answer := some (some true) }, by rw [hvalidations,
        List.getElem?_set_self hlt], hws, rfl⟩
  · rw [hdelivered]
    split
    · next hws =>
      subst hws
      refine List.pairwise_append.2 ⟨h.sorted v.ws, List.pairwise_singleton .., fun k hk k' hk' => ?_⟩
      rw [List.mem_singleton.1 hk']
      by_contra hge
      obtain ⟨v', hv', hws, ha⟩ := h.answered v.ws k hk
      have := hne hk
      exact hin v hv rfl hpass k v' hv' (by omega) hws ha
    · rw [List.append_nil]
      exact h.sorted ws

theorem Ordered.step (h : Ordered s) (hin : InOrder s l) (hstep : step s l = some s') : Ordered s' := by
  rcases step_layouts hstep with hg | ⟨j, answer, v, rfl, hv, hnone, hvalidations, hwritten⟩
  · exact h.grows hg
  · exact h.answer hin hv hnone hvalidations hwritten

theorem Ordered.sublist (h : Ordered s) (ws : Nat) : (s.delivered ws).Sublist (s.accepted ws) := by
  have hsorted : (s.accepted ws).Pairwise (· ≤ ·) :=
    (List.pairwise_le_range).sublist List.filter_sublist
  refine List.sublist_of_subperm_of_pairwise ?_ ((h.sorted ws).imp Nat.le_of_lt) hsorted
  refine List.subperm_of_subset ((h.sorted ws).imp Nat.ne_of_lt) fun j hj => ?_
  obtain ⟨v, hv, hws, -⟩ := h.answered ws j hj
  obtain ⟨hlt, -⟩ := List.getElem?_eq_some_iff.1 hv
  exact List.mem_filter.2 ⟨List.mem_range.2 hlt, by simp [hv, hws]⟩

/-- Layout switches whose validations answer in order are written in order. -/
theorem layouts_in_order (hwritten : s₀.written = []) (hin : Machine.Along step InOrder s₀ ls)
    (h : Machine.run step s₀ ls = some s) (ws : Nat) : (s.delivered ws).Sublist (s.accepted ws) := by
  refine Ordered.sublist (hin.inv (fun _ _ _ hin hstep h => h.step hin hstep) h ?_) ws
  exact ⟨fun ws j hj => by simp [State.delivered, hwritten] at hj, fun ws => by simp [State.delivered,
    hwritten]⟩

/-- Nobody is connected yet. -/
def offline : State := ⟨⟨fun _ => none, .empty, [], [], []⟩, 0, fun _ => 1, fun _ => [], [], [], [], []⟩

def layoutSwitch (layoutId : String) : Json :=
  .obj [("type", .str "layout-switch"), ("layout_id", .str layoutId)]

/-- A viewer connects and is sent two layouts, whose validations are answered in the order `order`. -/
def twoSwitches (order : List Nat) : List Label :=
  [.upgrade "viewer" 7 true (fun _ => false), .sendToKiosk "viewer" (layoutSwitch "first") true false,
    .sendToKiosk "viewer" (layoutSwitch "second") true false] ++ order.map fun j =>
      .validatedLayout j (some true)

theorem layouts_in_order_two : ∃ s, Machine.run step offline (twoSwitches [0, 1]) = some s ∧
    s.delivered 7 = [0, 1] ∧ (s.delivered 7).Sublist (s.accepted 7) := by
  have hrun : Machine.run step offline (twoSwitches [0, 1]) = some _ := rfl
  have hin : Machine.Along step InOrder offline (twoSwitches [0, 1]) := by
    refine ⟨trivial, trivial, trivial, fun v hv _ _ j' v' hv' hlt _ => ?_,
      fun v hv _ _ j' v' hv' hlt _ => ?_, trivial⟩
    · match j', hlt with
      | 1, _ =>
        obtain rfl := Option.some.inj hv'
        exact fun h => nomatch h
      | _ + 2, _ => cases hv'
    · match j', hlt with
      | _ + 2, _ => cases hv'
  exact ⟨_, hrun, rfl, layouts_in_order rfl hin hrun 7⟩

/-- The second layout is validated first, and the first one is what stays on the screen. -/
theorem layouts_out_of_order : ∃ s, Machine.run step offline (twoSwitches [1, 0]) = some s ∧
    s.accepted 7 = [0, 1] ∧ s.delivered 7 = [1, 0] ∧ ¬ (s.delivered 7).Sublist (s.accepted 7) ∧
    s.written.getLast?.map Written.payload = some (layoutSwitch "first").stringify :=
  ⟨_, rfl, rfl, rfl, by decide +kernel, rfl⟩

end Coordinator
