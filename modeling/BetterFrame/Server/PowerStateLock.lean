import BetterFrame.Lib.Run
import Mathlib.Logic.Function.Basic

/-!
# The power-state lock

`withPowerStateLock` for any calls in any async contexts. A step is what runs without an `await` in
between: a call up to its first one, the start of the work once the promise before it resolved, the
settling of the work, and the `finally` block. `lock_correct` says of every run that the lock is a
mutex for each kiosk, first come first served, and that it leaves nothing behind.
-/

namespace PowerStateLock

/-- How far a call is. -/
inductive Phase (R : Type) where
  /-- Awaits `previous`. -/
  | waiting
  | running
  /-- The promise of the work has settled. -/
  | settled (outcome : R)
  /-- The promise of the call has settled, and `next` is resolved. -/
  | finished (outcome : R)
deriving DecidableEq

/-- A call, and the one whose end it awaits. -/
structure Call (K R : Type) where
  kioskId : K
  /-- The call whose work makes this one. -/
  parent : Option Nat
  /-- `held.getStore()` -/
  current : List K
  previous : Option Nat
  phase : Phase R
deriving DecidableEq

/-- The calls in the order in which they were made; a promise `next` is named by its call. -/
structure State (K R : Type) where
  calls : List (Call K R)
  mutations : K → Option Nat

/-- A call is made, starts, has its work settled, or ends. -/
inductive Label (K R : Type) where
  | call (parent : Option Nat) (kioskId : K)
  | start (id : Nat)
  | settle (id : Nat) (outcome : R)
  | finish (id : Nat)
deriving DecidableEq

variable {K R : Type} [DecidableEq K]

/-- The call holds the kiosk's lock already. -/
def Call.nested (c : Call K R) : Bool := c.kioskId ∈ c.current

/-- The store in the work of a call. -/
def Call.held (c : Call K R) : List K := if c.nested then c.current else c.current ++ [c.kioskId]

namespace State

def init : State K R := ⟨[], fun _ => none⟩

/-- Whether the promise `next` of a call has resolved. -/
def released (s : State K R) (id : Nat) : Bool :=
  match s.calls[id]? with
  | some ⟨_, _, _, _, .finished _⟩ => true
  | _ => false

def setPhase (s : State K R) (id : Nat) (phase : Phase R) : State K R :=
  { s with calls := s.calls.modify id fun c => { c with phase := phase } }

/-- The context of a call: none, or that of a work whose promise has not settled. -/
def context (s : State K R) : Option Nat → Option (List K)
  | none => some []
  | some parent =>
    match s.calls[parent]? with
    | some c => if c.phase matches .running then some c.held else none
    | none => none

/-- A call waits for the mutation before it, unless it is nested. -/
def withPowerStateLock (s : State K R) (parent : Option Nat) (kioskId : K) (current : List K) : State K R :=
  if kioskId ∈ current then { s with calls := s.calls ++ [⟨kioskId, parent, current, none, .running⟩] }
  else
    { calls := s.calls ++ [⟨kioskId, parent, current, s.mutations kioskId, .waiting⟩]
      mutations := Function.update s.mutations kioskId (some s.calls.length) }

/-- `release(); if (mutations.get(kioskId) === next) mutations.delete(kioskId);` for a call that is
not nested -/
def finally' (s : State K R) (id : Nat) (c : Call K R) (outcome : R) : State K R :=
  let s' := s.setPhase id (.finished outcome)
  if c.nested then s'
  else if s'.mutations c.kioskId = some id then
    { s' with mutations := Function.update s'.mutations c.kioskId none } else s'

end State

def step (s : State K R) : Label K R → Option (State K R)
  | .call parent kioskId => (s.context parent).map (s.withPowerStateLock parent kioskId)
  | .start id =>
    match s.calls[id]? with
    | some ⟨_, _, _, previous, .waiting⟩ =>
      if previous.all s.released then some (s.setPhase id .running) else none
    | _ => none
  | .settle id outcome =>
    match s.calls[id]? with
    | some ⟨_, _, _, _, .running⟩ => some (s.setPhase id (.settled outcome))
    | _ => none
  | .finish id =>
    match s.calls[id]? with
    | some ⟨kioskId, parent, current, previous, .settled outcome⟩ =>
      some (s.finally' id ⟨kioskId, parent, current, previous, .settled outcome⟩ outcome)
    | _ => none

/-! ### What the lock is for -/

namespace State

/-- The call has returned. -/
def Finished (s : State K R) (i : Nat) : Prop := ∃ c r, s.calls[i]? = some c ∧ c.phase = .finished r

/-- The call `i` is one for the kiosk `k` that takes the lock. -/
def Queued (s : State K R) (k : K) (i : Nat) : Prop := ∃ c, s.calls[i]? = some c ∧ c.kioskId = k ∧
  c.nested = false

/-- The work of the call `i` has been started. -/
def Started (s : State K R) (i : Nat) : Prop := ∃ c, s.calls[i]? = some c ∧ c.phase ≠ .waiting

/-- The work of the call `i` runs under the lock of `k`. -/
inductive Holds (s : State K R) : Nat → K → Prop where
  | own {i : Nat} {c : Call K R} (h : s.calls[i]? = some c) : Holds s i c.kioskId
  | outer {i p : Nat} {c : Call K R} {k : K} (h : s.calls[i]? = some c) (hparent : c.parent = some p)
    (hholds : Holds s p k) : Holds s i k

/-- At most one call has the lock of a kiosk, and they get it in the order in which they were made. -/
def Exclusive (s : State K R) : Prop := ∀ k i j, s.Queued k i → s.Queued k j → i < j → s.Started j →
  s.Finished i

/-- A call by a work that runs under the lock of its kiosk was started when it was made. -/
def Reentrant (s : State K R) : Prop := ∀ i c p, s.calls[i]? = some c → c.parent = some p →
  s.Holds p c.kioskId → s.Started i

/-- A call waits only for those for its kiosk that were made before it. -/
def Progress (s : State K R) : Prop := ∀ k i, s.Queued k i → ¬ s.Started i →
  (∀ j, s.Queued k j → j < i → s.Finished j) → ∃ s', step s (.start i) = some s'

/-- A work that has settled, whether it resolved or rejected, gives the lock back. -/
def Releases (s : State K R) : Prop := ∀ i c r, s.calls[i]? = some c → c.phase = .settled r →
  ∃ s', step s (.finish i) = some s' ∧ s'.Finished i

/-- Nothing is left of calls that are over. -/
def Cleared (s : State K R) : Prop := (∀ i c, s.calls[i]? = some c → s.Finished i) → ∀ k, s.mutations k = none

/-- What a call has settled with, if it has. -/
def outcome (s : State K R) (i : Nat) : List R :=
  match (s.calls[i]?).map Call.phase with
  | some (.settled r) | some (.finished r) => [r]
  | _ => []

end State

/-- What the work of a call has settled with in a run. -/
def settled (i : Nat) (ls : List (Label K R)) : List R :=
  ls.filterMap fun
    | .settle j r => if j = i then some r else none
    | _ => none

/-- What the lock promises. -/
structure Correct (s : State K R) (ls : List (Label K R)) : Prop where
  exclusive : s.Exclusive
  reentrant : s.Reentrant
  progress : s.Progress
  releases : s.Releases
  cleared : s.Cleared
  own : ∀ i, s.outcome i = settled i ls

/-! ### The chain of promises -/

namespace State

section Phases

variable {s : State K R} {i j p : Nat} {k : K} {c d : Call K R} {phase : Phase R}

omit [DecidableEq K] in
theorem get_setPhase : (s.setPhase i phase).calls[j]? = some d ↔
    ∃ c, s.calls[j]? = some c ∧ d = { c with phase := if i = j then phase else c.phase } := by
  simp only [setPhase, List.getElem?_modify, Option.map_eq_map, Option.map_eq_some_iff]
  constructor
  · rintro ⟨c, hc, rfl⟩
    exact ⟨c, hc, by split <;> rfl⟩
  · rintro ⟨c, hc, rfl⟩
    exact ⟨c, hc, by split <;> rfl⟩

omit [DecidableEq K] in
@[simp] theorem mutations_setPhase : (s.setPhase i phase).mutations = s.mutations := rfl

theorem queued_setPhase : (s.setPhase i phase).Queued k j ↔ s.Queued k j := by
  constructor
  · rintro ⟨d, hd, hk, hn⟩
    obtain ⟨c, hc, rfl⟩ := get_setPhase.mp hd
    exact ⟨c, hc, hk, hn⟩
  · rintro ⟨c, hc, hk, hn⟩
    exact ⟨_, get_setPhase.mpr ⟨c, hc, rfl⟩, hk, hn⟩

omit [DecidableEq K] in
theorem finished_of_ne (hij : i ≠ j) : (s.setPhase i phase).Finished j ↔ s.Finished j := by
  constructor
  · rintro ⟨d, r, hd, h⟩
    obtain ⟨c, hc, rfl⟩ := get_setPhase.mp hd
    exact ⟨c, r, hc, by simpa [hij] using h⟩
  · rintro ⟨c, r, hc, h⟩
    exact ⟨_, r, get_setPhase.mpr ⟨c, hc, rfl⟩, by simpa [hij] using h⟩

omit [DecidableEq K] in
theorem finished_setPhase (h : ¬ s.Finished i) (hj : s.Finished j) : (s.setPhase i phase).Finished j := by
  rcases eq_or_ne i j with rfl | hne
  · exact absurd hj h
  · exact (finished_of_ne hne).mpr hj

omit [DecidableEq K] in
theorem not_finished (hc : s.calls[i]? = some c) (h : ∀ r, c.phase ≠ .finished r) : ¬ s.Finished i := by
  rintro ⟨d, r, hd, hr⟩
  obtain rfl : c = d := Option.some.inj (hc.symm.trans hd)
  exact h r hr

/-- The calls for a kiosk form a chain, each awaiting the one before it. -/
structure Chain (s : State K R) : Prop where
  behind : ∀ (j : Nat) (c : Call K R) (p : Nat), s.calls[j]? = some c → c.previous = some p →
    s.Queued c.kioskId p ∧ p < j
  first : ∀ (i j : Nat) (c : Call K R), s.calls[j]? = some c → c.nested = false →
    s.Queued c.kioskId i → i < j → s.Finished i ∨ ∃ p, c.previous = some p ∧ i ≤ p
  waited : ∀ (j : Nat) (c : Call K R) (p : Nat), s.calls[j]? = some c → c.previous = some p →
    c.phase ≠ .waiting → s.Finished p
  nested : ∀ (j : Nat) (c : Call K R), s.calls[j]? = some c → c.nested = true → c.phase ≠ .waiting
  held : ∀ (j : Nat) (c : Call K R) (p : Nat), s.calls[j]? = some c → c.parent = some p →
    p < j ∧ ∃ d, s.calls[p]? = some d ∧ c.current = d.held

/-- The map holds the last call for each kiosk until that one is over. -/
structure Tails (s : State K R) : Prop where
  last : ∀ k i, s.mutations k = some i → s.Queued k i ∧ ¬ s.Finished i ∧ ∀ j, s.Queued k j → j ≤ i
  idle : ∀ k, s.mutations k = none → ∀ j, s.Queued k j → s.Finished j

theorem Chain.setPhase (h : s.Chain) (hc : s.calls[i]? = some c) (hrunning : ¬ s.Finished i)
    (hphase : phase ≠ .waiting)
    (hprevious : ∀ p, c.previous = some p → s.Finished p) : (s.setPhase i phase).Chain := by
  constructor
  · intro j d p hd hp
    obtain ⟨e, he, rfl⟩ := get_setPhase.mp hd
    rw [queued_setPhase]
    exact h.behind j e p he hp
  · intro k j d hd hn hk hlt
    obtain ⟨e, he, rfl⟩ := get_setPhase.mp hd
    rcases h.first k j e he hn (queued_setPhase.mp hk) hlt with hf | hp
    · exact Or.inl (finished_setPhase hrunning hf)
    · exact Or.inr hp
  · intro j d p hd hp hw
    obtain ⟨e, he, rfl⟩ := get_setPhase.mp hd
    refine finished_setPhase hrunning ?_
    by_cases hij : i = j
    · subst hij
      obtain rfl : c = e := Option.some.inj (hc.symm.trans he)
      exact hprevious p hp
    · exact h.waited j e p he hp (by simpa [hij] using hw)
  · intro j d hd hn
    obtain ⟨e, he, rfl⟩ := get_setPhase.mp hd
    simp only
    split
    · exact hphase
    · exact h.nested j e he hn
  · intro j d p hd hp
    obtain ⟨e, he, rfl⟩ := get_setPhase.mp hd
    obtain ⟨hlt, f, hf, hheld⟩ := h.held j e p he hp
    exact ⟨hlt, _, get_setPhase.mpr ⟨f, hf, rfl⟩, hheld⟩

/-- While no call ends, the last ones stay the last ones. -/
theorem Tails.setPhase (h : s.Tails) (hrunning : ¬ s.Finished i) (hphase : ∀ r, phase ≠ .finished r) :
    (s.setPhase i phase).Tails := by
  have hfinished : ∀ j, (s.setPhase i phase).Finished j → s.Finished j := by
    intro j hj
    rcases eq_or_ne i j with rfl | hne
    · obtain ⟨d, r, hd, hr⟩ := hj
      obtain ⟨e, he, rfl⟩ := get_setPhase.mp hd
      exact absurd (by simpa using hr) (hphase r)
    · exact (finished_of_ne hne).mp hj
  constructor
  · intro k j hj
    obtain ⟨hq, hf, hlast⟩ := h.last k j hj
    exact ⟨queued_setPhase.mpr hq, fun hf' => hf (hfinished j hf'),
      fun l hl => hlast l (queued_setPhase.mp hl)⟩
  · intro k hk j hj
    exact finished_setPhase hrunning (h.idle k hk j (queued_setPhase.mp hj))

omit [DecidableEq K] in
theorem Finished.started (h : s.Finished i) : s.Started i := by
  obtain ⟨c, r, hc, hr⟩ := h
  exact ⟨c, hc, by rw [hr]; exact nofun⟩

/-- Where a work has been started all calls for the kiosk made before it are over. -/
theorem Chain.exclusive (h : s.Chain) : s.Exclusive := by
  intro k i j
  induction j using Nat.strongRecOn generalizing i with
  | _ j ih =>
    rintro hi ⟨c, hc, rfl, hn⟩ hlt ⟨c', hc', hstarted⟩
    obtain rfl : c = c' := Option.some.inj (hc.symm.trans hc')
    rcases h.first i j c hc hn hi hlt with hf | ⟨p, hp, hle⟩
    · exact hf
    · have hfp := h.waited j c p hc hp hstarted
      rcases Nat.eq_or_lt_of_le hle with rfl | hip
      · exact hfp
      · obtain ⟨hq, hpj⟩ := h.behind j c p hc hp
        exact ih p hpj i hi hq hip hfp.started

theorem Queued.unique {k' : K} (h : s.Queued k i) (h' : s.Queued k' i) : k = k' := by
  obtain ⟨c, hc, rfl, -⟩ := h
  obtain ⟨d, hd, rfl, -⟩ := h'
  rw [Option.some.inj (hc.symm.trans hd)]

/-! ### The steps -/

theorem Chain.finally' (h : s.Chain) (hc : s.calls[i]? = some c) {r : R} (hphase : c.phase = .settled r) :
    (s.finally' i c r).Chain := by
  have hrunning : ¬ s.Finished i := not_finished hc fun r' hr' => by cases hphase.symm.trans hr'
  have hchain : (s.setPhase i (.finished r)).Chain :=
    h.setPhase hc hrunning nofun fun p hp => h.waited i c p hc hp (by rw [hphase]; exact nofun)
  unfold State.finally'
  split
  · exact hchain
  · simp only
    split
    · exact ⟨hchain.behind, hchain.first, hchain.waited, hchain.nested, hchain.held⟩
    · exact hchain

/-- When a call is over and was the last one for its kiosk, so are all the others for it. -/
theorem Tails.finally' (h : s.Tails) (hchain : s.Chain) (hc : s.calls[i]? = some c) {r : R}
    (hphase : c.phase = .settled r) :
    (s.finally' i c r).Tails := by
  have hrunning : ¬ s.Finished i := not_finished hc fun r' hr' => by cases hphase.symm.trans hr'
  have hfinished : (s.setPhase i (.finished r)).Finished i := ⟨_, r, get_setPhase.mpr ⟨c, hc, rfl⟩, by simp⟩
  -- the last call for a kiosk stays, unless it is this one
  have hlast : ∀ k j, s.mutations k = some j → j ≠ i →
      (s.setPhase i (.finished r)).Queued k j ∧ ¬ (s.setPhase i (.finished r)).Finished j ∧
        ∀ l, (s.setPhase i (.finished r)).Queued k l → l ≤ j := by
    intro k j hj hne
    obtain ⟨hq, hf, hlast⟩ := h.last k j hj
    exact ⟨queued_setPhase.mpr hq, fun hf' => hf ((finished_of_ne (Ne.symm hne)).mp hf'),
      fun l hl => hlast l (queued_setPhase.mp hl)⟩
  have hidle : ∀ k, s.mutations k = none → ∀ j, (s.setPhase i (.finished r)).Queued k j →
      (s.setPhase i (.finished r)).Finished j :=
    fun k hk j hj => finished_setPhase hrunning (h.idle k hk j (queued_setPhase.mp hj))
  unfold State.finally'
  by_cases hnested : c.nested = true
  · rw [if_pos hnested]
    refine ⟨fun k j hj => hlast k j hj ?_, hidle⟩
    rintro rfl
    obtain ⟨⟨d, hd, -, hn⟩, -⟩ := h.last k j hj
    rw [Option.some.inj (hc.symm.trans hd)] at hnested
    exact absurd hn (by simp [hnested])
  · have hqueued : s.Queued c.kioskId i := ⟨c, hc, rfl, by simpa using hnested⟩
    rw [if_neg hnested]
    split
    · rename_i hmutations
      have hmutations : s.mutations c.kioskId = some i := hmutations
      constructor
      · intro k j hj
        by_cases hk : k = c.kioskId
        · simp [hk] at hj
        · have hold : s.mutations k = some j := by simpa [Function.update_of_ne hk] using hj
          refine hlast k j hold ?_
          rintro rfl
          exact hk ((h.last k _ hold).1.unique hqueued)
      · intro k hk j hj
        by_cases hkiosk : k = c.kioskId
        · subst hkiosk
          have hj : s.Queued c.kioskId j := queued_setPhase.mp hj
          rcases Nat.eq_or_lt_of_le ((h.last _ i hmutations).2.2 j hj) with rfl | hlt
          · exact hfinished
          · exact finished_setPhase hrunning
              (hchain.exclusive _ j i hj hqueued hlt ⟨c, hc, by rw [hphase]; exact nofun⟩)
        · have hk : s.mutations k = none := by simpa [Function.update_of_ne hkiosk] using hk
          exact hidle k hk j hj
    · rename_i hmutations
      refine ⟨fun k j hj => hlast k j hj ?_, hidle⟩
      rintro rfl
      exact hmutations ((h.last k j hj).1.unique hqueued ▸ hj)

end Phases

section Calls

variable {s : State K R} {i j : Nat} {k : K} {c d : Call K R} {mutations : K →
  Option Nat} {parent : Option Nat} {current : List K}

omit [DecidableEq K] in
theorem get_append : (s.calls ++ [c])[j]? = some d ↔ s.calls[j]? = some d ∨ j = s.calls.length ∧ c = d := by
  rw [List.getElem?_append]
  split
  · have hne : j ≠ s.calls.length := by omega
    simp [hne]
  · rename_i hle
    rw [List.getElem?_eq_none (by omega : s.calls.length ≤ j)]
    rcases Nat.eq_or_lt_of_le (Nat.not_lt.mp hle) with rfl | hlt
    · simp
    · have hne : j ≠ s.calls.length := by omega
      rw [List.getElem?_eq_none (by simp; omega)]
      simp [hne]

omit [DecidableEq K] in
theorem get_lt (h : s.calls[j]? = some c) : j < s.calls.length := (List.getElem?_eq_some_iff.mp h).1

omit [DecidableEq K] in
theorem finished_append (h : ∀ r, c.phase ≠ .finished r) :
    (State.mk (s.calls ++ [c]) mutations).Finished j ↔ s.Finished j := by
  constructor
  · rintro ⟨d, r, hd, hr⟩
    rcases get_append.mp hd with hd | ⟨-, rfl⟩
    · exact ⟨d, r, hd, hr⟩
    · exact absurd hr (h r)
  · rintro ⟨d, r, hd, hr⟩
    exact ⟨d, r, get_append.mpr (Or.inl hd), hr⟩

theorem queued_append : (State.mk (s.calls ++ [c]) mutations).Queued k j ↔
    s.Queued k j ∨ j = s.calls.length ∧ c.kioskId = k ∧ c.nested = false := by
  constructor
  · rintro ⟨d, hd, hk, hn⟩
    rcases get_append.mp hd with hd | ⟨hj, rfl⟩
    · exact Or.inl ⟨d, hd, hk, hn⟩
    · exact Or.inr ⟨hj, hk, hn⟩
  · rintro (⟨d, hd, hk, hn⟩ | ⟨hj, hk, hn⟩)
    · exact ⟨d, get_append.mpr (Or.inl hd), hk, hn⟩
    · exact ⟨c, get_append.mpr (Or.inr ⟨hj, rfl⟩), hk, hn⟩

/-- A call whose promise before it is that of the last call for its kiosk, if one is not over. -/
theorem Chain.append (h : s.Chain) (ht : s.Tails) (hphase : ∀ r, c.phase ≠ .finished r)
    (hprevious : c.previous = if c.nested then none else s.mutations c.kioskId)
    (hnested : c.phase ≠ .waiting ↔ c.nested = true)
    (hheld : ∀ p, c.parent = some p → ∃ d, s.calls[p]? = some d ∧ c.current = d.held) :
    (State.mk (s.calls ++ [c]) mutations).Chain := by
  constructor
  · intro j d p hd hp
    rw [queued_append]
    rcases get_append.mp hd with hd | ⟨rfl, rfl⟩
    · obtain ⟨hq, hlt⟩ := h.behind j d p hd hp
      exact ⟨Or.inl hq, hlt⟩
    · rw [hprevious] at hp
      split at hp
      · cases hp
      · obtain ⟨hq, -, -⟩ := ht.last _ p hp
        obtain ⟨e, he, -⟩ := hq
        exact ⟨Or.inl (ht.last _ p hp).1, get_lt he⟩
  · intro i j d hd hn hi hlt
    rw [finished_append hphase]
    rcases get_append.mp hd with hd | ⟨rfl, rfl⟩
    · have hi : s.Queued d.kioskId i := (queued_append.mp hi).resolve_right fun h => by
        have := get_lt hd
        omega
      exact h.first i j d hd hn hi hlt
    · have hi : s.Queued c.kioskId i := (queued_append.mp hi).resolve_right fun h => by omega
      rw [hprevious, hn, if_neg Bool.false_ne_true]
      cases hm : s.mutations c.kioskId with
      | none => exact Or.inl (ht.idle _ hm i hi)
      | some p => exact Or.inr ⟨p, rfl, (ht.last _ p hm).2.2 i hi⟩
  · intro j d p hd hp hw
    rw [finished_append hphase]
    rcases get_append.mp hd with hd | ⟨rfl, rfl⟩
    · exact h.waited j d p hd hp hw
    · rw [hprevious, if_pos (hnested.mp hw)] at hp
      cases hp
  · intro j d hd hn
    rcases get_append.mp hd with hd | ⟨rfl, rfl⟩
    · exact h.nested j d hd hn
    · exact hnested.mpr hn
  · intro j d p hd hp
    rcases get_append.mp hd with hd | ⟨rfl, rfl⟩
    · obtain ⟨hlt, e, he, heq⟩ := h.held j d p hd hp
      exact ⟨hlt, e, get_append.mpr (Or.inl he), heq⟩
    · obtain ⟨e, he, heq⟩ := hheld p hp
      exact ⟨get_lt he, e, get_append.mpr (Or.inl he), heq⟩

theorem Tails.append (h : s.Tails) (hphase : ∀ r, c.phase ≠ .finished r)
    (hother : ∀ k, ¬ (c.kioskId = k ∧ c.nested = false) → mutations k = s.mutations k)
    (hkiosk : c.nested = false → mutations c.kioskId = some s.calls.length) :
    (State.mk (s.calls ++ [c]) mutations).Tails := by
  constructor
  · intro k i hi
    by_cases hk : c.kioskId = k ∧ c.nested = false
    · obtain ⟨rfl, hn⟩ := hk
      obtain rfl : s.calls.length = i := Option.some.inj ((hkiosk hn).symm.trans hi)
      refine ⟨queued_append.mpr (Or.inr ⟨rfl, rfl, hn⟩), ?_, fun j hj => ?_⟩
      · rw [finished_append hphase]
        rintro ⟨d, r, hd, -⟩
        exact absurd (get_lt hd) (Nat.lt_irrefl _)
      · rcases queued_append.mp hj with ⟨d, hd, -⟩ | ⟨hj, -⟩
        · exact Nat.le_of_lt (get_lt hd)
        · exact Nat.le_of_eq hj
    · obtain ⟨hq, hf, hlast⟩ := h.last k i (hother k hk ▸ hi)
      exact ⟨queued_append.mpr (Or.inl hq), fun hf' => hf ((finished_append hphase).mp hf'),
        fun j hj => hlast j ((queued_append.mp hj).resolve_right fun hj => hk hj.2)⟩
  · intro k hi j hj
    rw [finished_append hphase]
    by_cases hk : c.kioskId = k ∧ c.nested = false
    · obtain ⟨rfl, hn⟩ := hk
      cases (hkiosk hn).symm.trans hi
    · exact h.idle k (hother k hk ▸ hi) j ((queued_append.mp hj).resolve_right fun hj => hk hj.2)

end Calls

/-- Calls for one kiosk form a chain, and the map has its last one. -/
structure Inv (s : State K R) : Prop where
  chain : s.Chain
  tails : s.Tails

theorem inv_init : (init : State K R).Inv :=
  ⟨⟨fun _ _ _ h => by simp [init] at h, fun _ _ _ h => by simp [init] at h, fun _ _ _ h => by
      simp [init] at h, fun _ _ h => by simp [init] at h, fun _ _ _ h => by simp [init] at h⟩,
    ⟨fun _ _ h => by simp [init] at h, fun k _ j hj => by
      obtain ⟨c, hc, -⟩ := hj
      simp [init] at hc⟩⟩

variable {s s' : State K R}

theorem context_eq_some {p : Nat} {current : List K} :
    s.context (some p) = some current ↔ ∃ d, s.calls[p]? = some d ∧ d.phase = .running ∧
    current = d.held := by
  unfold State.context
  cases hp : s.calls[p]? with
  | none => simp only [hp, reduceCtorEq, false_and, exists_false]
  | some d =>
    simp only [hp, Option.some.injEq, exists_eq_left']
    cases d.phase <;> simp [eq_comm (a := current)]

omit [DecidableEq K] in
theorem released_iff {i : Nat} : s.released i = true ↔ s.Finished i := by
  unfold State.released Finished
  cases hi : s.calls[i]? with
  | none => simp
  | some c =>
    obtain ⟨kioskId, parent, current, previous, phase⟩ := c
    cases phase <;> simp

/-- What each step finds and does. -/
theorem step_start {i : Nat} : step s (.start i) = some s' ↔ ∃ c, s.calls[i]? = some c ∧ c.phase = .waiting ∧
    (∀ p, c.previous = some p → s.Finished p) ∧ s.setPhase i .running = s' := by
  simp only [step]
  cases hi : s.calls[i]? with
  | none => simp
  | some c =>
    obtain ⟨kioskId, parent, current, previous, phase⟩ := c
    cases phase <;> cases previous <;> simp [released_iff]

theorem step_settle {i : Nat} {r : R} : step s (.settle i r) = some s' ↔
    ∃ c, s.calls[i]? = some c ∧ c.phase = .running ∧ s.setPhase i (.settled r) = s' := by
  simp only [step]
  cases hi : s.calls[i]? with
  | none => simp
  | some c =>
    obtain ⟨kioskId, parent, current, previous, phase⟩ := c
    cases phase <;> simp

theorem step_finish {i : Nat} : step s (.finish i) = some s' ↔
    ∃ c r, s.calls[i]? = some c ∧ c.phase = .settled r ∧ s.finally' i c r = s' := by
  simp only [step]
  cases hi : s.calls[i]? with
  | none => simp
  | some c =>
    obtain ⟨kioskId, parent, current, previous, phase⟩ := c
    cases phase <;> simp

theorem inv_call (h : s.Inv) {parent : Option Nat} {kioskId : K} {current : List K}
    (hcontext : s.context parent = some current) :
    (s.withPowerStateLock parent kioskId current).Inv := by
  have hheld : ∀ p, parent = some p → ∃ d, s.calls[p]? = some d ∧ current = d.held := by
    rintro p rfl
    obtain ⟨d, hd, -, rfl⟩ := context_eq_some.mp hcontext
    exact ⟨d, hd, rfl⟩
  unfold State.withPowerStateLock
  split
  · rename_i hin
    have hnested : Call.nested (R := R) ⟨kioskId, parent, current, none, .running⟩ = true := by
      simpa [Call.nested] using hin
    refine ⟨h.chain.append h.tails nofun ?_ ?_ hheld, h.tails.append nofun (fun k _ => rfl) fun hn => ?_⟩
    · rw [hnested]
      rfl
    · simp [hnested]
    · cases hnested.symm.trans hn
  · rename_i hout
    have hnested : Call.nested (R := R) ⟨kioskId, parent, current, s.mutations kioskId, .waiting⟩ =
        false := by
      simpa [Call.nested] using hout
    refine ⟨h.chain.append h.tails nofun ?_ ?_ hheld, h.tails.append nofun (fun k hk => ?_) fun _ => ?_⟩
    · rw [hnested]
      rfl
    · simp [hnested]
    · exact Function.update_of_ne (fun heq => hk ⟨heq.symm, hnested⟩) _ _
    · exact Function.update_self _ _ _

theorem inv_step {l : Label K R} (hs : step s l = some s') (h : s.Inv) : s'.Inv := by
  cases l with
  | call parent kioskId =>
    obtain ⟨current, hcontext, rfl⟩ := Option.map_eq_some_iff.mp hs
    exact inv_call h hcontext
  | start i =>
    obtain ⟨c, hc, hwaiting, hprevious, rfl⟩ := step_start.mp hs
    have hrunning : ¬ s.Finished i := not_finished hc fun r hr => by cases hwaiting.symm.trans hr
    exact ⟨h.chain.setPhase hc hrunning nofun hprevious, h.tails.setPhase hrunning nofun⟩
  | settle i r =>
    obtain ⟨c, hc, hphase, rfl⟩ := step_settle.mp hs
    have hrunning : ¬ s.Finished i := not_finished hc fun r hr => by cases hphase.symm.trans hr
    exact ⟨h.chain.setPhase hc hrunning nofun fun p hp =>
      h.chain.waited i c p hc hp (by rw [hphase]; exact nofun),
      h.tails.setPhase hrunning nofun⟩
  | finish i =>
    obtain ⟨c, r, hc, hphase, rfl⟩ := step_finish.mp hs
    exact ⟨h.chain.finally' hc hphase, h.tails.finally' h.chain hc hphase⟩

/-! ### Every run -/

theorem mem_held {i : Nat} {k : K} (hchain : s.Chain) (h : s.Holds i k) : ∃ c, s.calls[i]? = some c ∧
    k ∈ c.held := by
  induction h with
  | own hc =>
    refine ⟨_, hc, ?_⟩
    unfold Call.held
    split
    · rename_i hnested
      simpa [Call.nested] using hnested
    · simp
  | @outer i p c k hc hparent _ ih =>
    obtain ⟨d, hd, hk⟩ := ih
    obtain ⟨-, e, he, hcurrent⟩ := hchain.held i c p hc hparent
    obtain rfl : d = e := Option.some.inj (hd.symm.trans he)
    refine ⟨c, hc, ?_⟩
    unfold Call.held
    split
    · rwa [hcurrent]
    · exact List.mem_append_left _ (hcurrent ▸ hk)

theorem Inv.reentrant (h : s.Inv) : s.Reentrant := by
  intro i c p hc hparent hholds
  obtain ⟨d, hd, hk⟩ := mem_held h.chain hholds
  obtain ⟨-, e, he, hcurrent⟩ := h.chain.held i c p hc hparent
  obtain rfl : d = e := Option.some.inj (hd.symm.trans he)
  exact ⟨c, hc, h.chain.nested i c hc (by simpa [Call.nested, hcurrent] using hk)⟩

theorem Inv.progress (h : s.Inv) : s.Progress := by
  rintro k i ⟨c, hc, rfl, hn⟩ hwaiting hbefore
  refine ⟨_, step_start.mpr ⟨c, hc, ?_, fun p hp => ?_, rfl⟩⟩
  · by_contra hphase
    exact hwaiting ⟨c, hc, hphase⟩
  · obtain ⟨hq, hlt⟩ := h.chain.behind i c p hc hp
    exact hbefore p hq hlt

theorem finished_finally' {i : Nat} {c : Call K R} {r : R} (hc : s.calls[i]? = some c) :
    (s.finally' i c r).Finished i := by
  have h : (s.setPhase i (.finished r)).Finished i := ⟨_, r, get_setPhase.mpr ⟨c, hc, rfl⟩, by simp⟩
  unfold State.finally'
  split
  · exact h
  · simp only
    split <;> exact h

theorem releases (s : State K R) : s.Releases :=
  fun _ _ _ hc hphase => ⟨_, step_finish.mpr ⟨_, _, hc, hphase, rfl⟩, finished_finally' hc⟩

theorem Inv.cleared (h : s.Inv) : s.Cleared := by
  intro hall k
  cases hm : s.mutations k with
  | none => rfl
  | some i =>
    obtain ⟨⟨c, hc, -⟩, hf, -⟩ := h.tails.last k i hm
    exact absurd (hall i c hc) hf

end State

section Outcomes

variable {s s' : State K R} {i : Nat} {l : Label K R} {ls : List (Label K R)}

open State

omit [DecidableEq K] in
theorem outcome_setPhase {j : Nat} {c : Call K R} {phase : Phase R} (hc : s.calls[j]? = some c) :
    (s.setPhase j phase).outcome i =
      if j = i then (match phase with | .settled r | .finished r => [r] | _ => []) else s.outcome i := by
  simp only [State.outcome, setPhase, List.getElem?_modify]
  by_cases hij : j = i
  · subst hij
    simp [hc]
    cases phase <;> rfl
  · simp [hij]

theorem outcome_finally' {j : Nat} {c : Call K R} {r : R} (hc : s.calls[j]? = some c)
    (hphase : c.phase = .settled r) :
    (s.finally' j c r).outcome i = s.outcome i := by
  have h : (s.setPhase j (.finished r)).outcome i = s.outcome i := by
    rw [outcome_setPhase hc]
    split
    · rename_i hij
      simp [State.outcome, ← hij, hc, hphase]
    · rfl
  unfold State.finally'
  split
  · exact h
  · simp only
    split <;> exact h

omit [DecidableEq K] in
theorem outcome_append {c : Call K R} {mutations : K → Option Nat} (hsettled : ∀ r, c.phase ≠ .settled r)
    (hfinished : ∀ r, c.phase ≠ .finished r) :
    (State.mk (s.calls ++ [c]) mutations).outcome i = s.outcome i := by
  rcases Nat.lt_trichotomy i s.calls.length with hlt | rfl | hlt
  · simp [State.outcome, List.getElem?_append_left hlt]
  · cases hphase : c.phase with
    | waiting => simp [State.outcome, hphase]
    | running => simp [State.outcome, hphase]
    | settled r => exact absurd hphase (hsettled r)
    | finished r => exact absurd hphase (hfinished r)
  · have hnone : (s.calls ++ [c])[i]? = none := List.getElem?_eq_none (by simp; omega)
    simp [State.outcome, hnone, List.getElem?_eq_none (Nat.le_of_lt hlt)]

theorem outcome_step (hs : step s l = some s') : s'.outcome i = s.outcome i ++ settled i [l] := by
  cases l with
  | call parent kioskId =>
    obtain ⟨current, -, rfl⟩ := Option.map_eq_some_iff.mp hs
    have hnone : settled i [Label.call (R := R) parent kioskId] = [] := rfl
    rw [hnone, List.append_nil]
    unfold State.withPowerStateLock
    split
    · exact outcome_append nofun nofun
    · exact outcome_append nofun nofun
  | start j =>
    obtain ⟨c, hc, hphase, -, rfl⟩ := step_start.mp hs
    rw [outcome_setPhase hc]
    split
    · rename_i hij
      simp [State.outcome, ← hij, hc, hphase, settled]
    · simp [settled]
  | settle j r =>
    obtain ⟨c, hc, hphase, rfl⟩ := step_settle.mp hs
    rw [outcome_setPhase hc]
    split
    · rename_i hij
      simp [State.outcome, ← hij, hc, hphase, settled]
    · rename_i hij
      simp [settled, hij]
  | finish j =>
    obtain ⟨c, r, hc, hphase, rfl⟩ := step_finish.mp hs
    simpa [settled] using outcome_finally' hc hphase

theorem outcome_run (hr : Machine.run step s ls = some s') : s'.outcome i = s.outcome i ++ settled i ls := by
  induction ls generalizing s with
  | nil =>
    obtain rfl := Option.some.inj hr
    simp [settled]
  | cons l ls ih =>
    obtain ⟨t, ht, hr⟩ := Machine.run_cons.mp hr
    rw [ih hr, outcome_step ht, List.append_assoc]
    simp only [settled, ← List.filterMap_append, List.singleton_append]

end Outcomes

/-- In every run the lock is a mutex for each kiosk, first come first served, that lets a work in
again under its own lock, and of which nothing is left when all calls are over. -/
theorem lock_correct (ls : List (Label K R)) (s : State K R)
    (hr : Machine.run step State.init ls = some s) : Correct s ls := by
  have h : s.Inv := Machine.run_inv (fun _ _ _ hs h => State.inv_step hs h) hr State.inv_init
  refine ⟨h.chain.exclusive, h.reentrant, h.progress, State.releases s, h.cleared, fun i => ?_⟩
  simpa [State.outcome, State.init] using outcome_run (i := i) hr

/-- Two calls for one kiosk; the first one's work calls for the same kiosk again and rejects. -/
theorem lock_correct_rejected : ∃ s : State Nat (Except String Unit),
    Machine.run step State.init
    [.call none 7, .start 0, .call none 7, .call (some 0) 7, .settle 2 (.ok ()), .finish 2,
      .settle 0 (.error "no answer"), .finish 0, .start 1] = some s ∧
    Correct s [.call none 7, .start 0, .call none 7, .call (some 0) 7, .settle 2 (.ok ()), .finish 2,
      .settle 0 (.error "no answer"), .finish 0, .start 1] :=
  ⟨_, rfl, lock_correct _ _ rfl⟩

end PowerStateLock
