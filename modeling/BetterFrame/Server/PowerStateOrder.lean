import BetterFrame.Lib.OrdMap
import BetterFrame.Lib.Run
import Mathlib.Data.List.Dedup
import Mathlib.Data.List.Perm.Subperm

/-!
# The order of power reports

`shared/power-state-order.ts`: per kiosk the session (a process of the viewer) whose reports count, the
socket that owns it, the revision that reports must have reached, and the sessions it has replaced. A record
without an owner runs out; every function may drop such a record when it meets it, and `prune` sweeps all of
them. `Becomes` and `Swept` say once what a call can do to the record of one kiosk, and the four laws are read
off them.
-/

namespace PowerStateOrder

open Machine

/-- The power session that a report is of, and its revision. -/
structure PowerSample where
  sessionId : String
  revision : Int
deriving DecidableEq

/-- What is kept of a kiosk. -/
structure PowerSession where
  sessionId : String
  revision : Int
  owner : Option Nat
  expiresAt : Nat
  retired : OrdMap String Nat
deriving DecidableEq

def HISTORY_MS : Nat := 30 * 60000
def MAX_OWNERLESS : Nat := 4096
def MAX_RETIRED : Nat := 8

abbrev Sessions := OrdMap String PowerSession

structure State where
  sessions : Sessions
  nextSweep : Nat
deriving DecidableEq

/-- A record that no socket owns and whose time is over. -/
def PowerSession.Lapsed (now : Nat) (c : PowerSession) : Prop := c.owner = none ∧ c.expiresAt ≤ now

instance {now : Nat} {c : PowerSession} : Decidable (c.Lapsed now) := inferInstanceAs (Decidable (_ ∧ _))

/-- The records that a sweep at `now` keeps only as long as there is room. -/
def ownerless (now : Nat) (sessions : Sessions) : List (String × PowerSession) :=
  sessions.entries.filter fun e => e.2.owner = none ∧ now < e.2.expiresAt

/-- The sessions without owner beyond the limit, the first to expire. -/
def surplus (now : Nat) (sessions : Sessions) : List (String × PowerSession) :=
  let ownerless := ownerless now sessions
  if MAX_OWNERLESS < ownerless.length then
    (ownerless.mergeSort fun a b => a.2.expiresAt ≤ b.2.expiresAt).take (ownerless.length - MAX_OWNERLESS)
  else []

/-- Drops what lapsed and what is beyond the limits, at most once a period. -/
def prune (now : Nat) (capacityMayIncrease : Bool) (s : State) : State :=
  if now < s.nextSweep ∧ capacityMayIncrease = false then s
  else
    let live := s.sessions.filter fun _ value => ¬ value.Lapsed now
    ⟨live.filter fun id _ => id ∉ (surplus now s.sessions).map Prod.fst, now + 60000⟩

/-- The session of the kiosk, dropped when it lapsed. -/
def currentSession (kioskId : String) (now : Nat) (s : State) : Option PowerSession × State :=
  match s.sessions.get? kioskId with
  | none => (none, s)
  | some current =>
    if current.Lapsed now then (none, { s with sessions := s.sessions.erase kioskId })
    else (some current, s)

/-- The history of a session that `sample` opens after `previous`: what has not run out, and `previous`. -/
def retire (previous : Option PowerSession) (sample : PowerSample) (now : Nat) : OrdMap String Nat :=
  let retired := (previous.elim OrdMap.empty PowerSession.retired).filter fun id expires =>
    id ≠ sample.sessionId ∧ now < expires
  match previous with
  | none => retired
  | some previous =>
    if previous.sessionId ≠ sample.sessionId then retired.set previous.sessionId (now + HISTORY_MS)
    else retired

/-- The record that `replaceSession` puts in the place of `previous`. -/
def placed (previous : Option PowerSession) (sample : PowerSample) (owner : Option Nat) (now : Nat) :
    PowerSession where
  sessionId := sample.sessionId
  revision :=
    match previous with
    | none => sample.revision
    | some previous =>
      if previous.sessionId = sample.sessionId then max previous.revision sample.revision else sample.revision
  owner := owner
  expiresAt := now + HISTORY_MS
  retired := (retire previous sample now).dropOldest MAX_RETIRED

/-- `replaceSession` up to its sweep. -/
def install (kioskId : String) (sample : PowerSample) (owner : Option Nat) (now : Nat) (s : State) : State :=
  let (previous, s) := currentSession kioskId now s
  { s with sessions := s.sessions.set kioskId (placed previous sample owner now) }

/-- A new boot: the sessions before it are retired. -/
def replaceSession (kioskId : String) (sample : PowerSample) (owner : Option Nat) (now : Nat) (s : State) :
    State :=
  let previous := (currentSession kioskId now s).1
  prune now (owner = none ∧ (previous = none ∨ previous.any (·.owner.isSome)))
    (install kioskId sample owner now s)

/-- `delete previous.owner; previous.expiresAt = now + HISTORY_MS`. -/
def PowerSession.release (c : PowerSession) (now : Nat) : PowerSession :=
  { c with owner := none, expiresAt := now + HISTORY_MS }

/-- `bindPowerSession` without a sample, up to its sweep. -/
def disown (kioskId : String) (now : Nat) (s : State) : State :=
  let (previous, s) := currentSession kioskId now s
  match previous with
  | none => s
  | some previous => { s with sessions := s.sessions.set kioskId (previous.release now) }

/-- A connection with a sample starts its session, one without takes the owner from it. -/
def bindPowerSession (kioskId : String) (owner : Nat) (sample : Option PowerSample) (now : Nat)
    (s : State) : State :=
  match sample with
  | none => prune now ((currentSession kioskId now s).1.any (·.owner.isSome)) (disown kioskId now s)
  | some sample => replaceSession kioskId sample (some owner) now s

/-- `unbindPowerSession` up to its sweep. -/
def unown (kioskId : String) (owner : Nat) (now : Nat) (s : State) : State :=
  match s.sessions.get? kioskId with
  | none => s
  | some current =>
    if current.owner = some owner then { s with sessions := s.sessions.set kioskId (current.release now) }
    else s

/-- The clock is read twice, at `first` and at `now`. -/
def unbindPowerSession (kioskId : String) (owner : Nat) (first now : Nat) (s : State) : State :=
  if (s.sessions.get? kioskId).any (·.owner = some owner) then prune now true (unown kioskId owner first s)
  else s

def hasPowerSession (kioskId : String) (now : Nat) (s : State) : Bool × State :=
  let (current, s) := currentSession kioskId now s
  (current.isSome, s)

/-- Whether a sample is of the current session and newer than what was accepted. -/
def powerSampleAllowed (kioskId : String) (sample : Option PowerSample) (now : Nat) (s : State) :
    Bool × State :=
  let (current, s) := currentSession kioskId now s
  match sample, current with
  | some sample, some current =>
    (current.sessionId = sample.sessionId ∧ current.revision ≤ sample.revision, s)
  | _, _ => (false, s)

/-- A live socket's session and a retired one are not replaced. -/
def heartbeatPowerSampleAllowed (kioskId : String) (sample : Option PowerSample) (now : Nat) (s : State) :
    Bool × State :=
  match sample with
  | none => (false, s)
  | some sample =>
    let (current, s) := currentSession kioskId now s
    match current with
    | none => (true, replaceSession kioskId { sample with revision := -1 } none now s)
    | some current =>
      if current.sessionId = sample.sessionId then (current.revision ≤ sample.revision, s)
      else if current.owner.isSome ∨ now < (current.retired.get? sample.sessionId).getD 0 then (false, s)
      else (true, replaceSession kioskId { sample with revision := -1 } none now s)

/-- Records the sample as accepted. -/
def advancePowerSample (kioskId : String) (sample : PowerSample) (now : Nat) (s : State) : State :=
  let (current, s) := currentSession kioskId now s
  match current with
  | none => s
  | some current =>
    let (allowed, s) := powerSampleAllowed kioskId (some sample) now s
    if allowed then
      { s with
        sessions := s.sessions.set kioskId { current with
          revision := sample.revision, expiresAt := now + HISTORY_MS } }
    else s

/-! ### Runs -/

/-- The calls to the store. -/
inductive Call where
  | bind (kioskId : String) (owner : Nat) (sample : Option PowerSample)
  | unbind (kioskId : String) (owner : Nat) (first : Nat)
  | has (kioskId : String)
  | allowed (kioskId : String) (sample : Option PowerSample)
  | heartbeatAllowed (kioskId : String) (sample : Option PowerSample)
  | advance (kioskId : String) (sample : PowerSample)
deriving DecidableEq

def Call.run (now : Nat) (s : State) : Call → State
  | .bind kioskId owner sample => bindPowerSession kioskId owner sample now s
  | .unbind kioskId owner first => unbindPowerSession kioskId owner first now s
  | .has kioskId => (hasPowerSession kioskId now s).2
  | .allowed kioskId sample => (powerSampleAllowed kioskId sample now s).2
  | .heartbeatAllowed kioskId sample => (heartbeatPowerSampleAllowed kioskId sample now s).2
  | .advance kioskId sample => advancePowerSample kioskId sample now s

/-- The time at which a call first reads the clock, when `now` is the last. -/
def Call.first (now : Nat) : Call → Nat
  | .unbind _ _ first => first
  | _ => now

/-- The store and the clock. -/
structure System where
  state : State
  clock : Nat
deriving DecidableEq

/-- A call, and when it is made. -/
structure Label where
  now : Nat
  call : Call
deriving DecidableEq

/-- The clock does not run backwards. -/
def step (s : System) (l : Label) : Option System :=
  if s.clock ≤ l.call.first l.now ∧ l.call.first l.now ≤ l.now then some ⟨l.call.run l.now s.state, l.now⟩
  else none

def init : System := ⟨⟨.empty, 0⟩, 0⟩

/-! ### The record of one kiosk -/

/-- The record that still counts at `now`. -/
def live (now : Nat) (r : Option PowerSession) : Option PowerSession :=
  r.bind fun c => if c.Lapsed now then none else some c

section Record

variable {k k' : String} {now : Nat} {c c' : PowerSession} {r : Option PowerSession} {sample : PowerSample}
  {owner : Option Nat} {s : State}

theorem live_eq_some : live now r = some c ↔ r = some c ∧ ¬ c.Lapsed now := by
  rcases r with _ | d
  · simp [live]
  · by_cases h : d.Lapsed now
    · simp only [live, Option.bind_some, h, if_true, reduceCtorEq, Option.some.injEq, false_iff,
        not_and, not_not]
      exact fun hd => hd ▸ h
    · simp only [live, Option.bind_some, h, if_false, Option.some.injEq, iff_self_and]
      exact fun hd => hd ▸ h

theorem currentSession_fst : (currentSession k now s).1 = live now (s.sessions.get? k) := by
  unfold currentSession live
  rcases s.sessions.get? k with _ | c
  · rfl
  · by_cases h : c.Lapsed now <;> simp [h]

theorem currentSession_get? :
    (currentSession k now s).2.sessions.get? k' =
      if k' = k then live now (s.sessions.get? k) else s.sessions.get? k' := by
  unfold currentSession live
  rcases hk : s.sessions.get? k with _ | c
  · by_cases he : k' = k
    · simp [he, hk]
    · simp [he]
  by_cases h : c.Lapsed now
  · by_cases he : k' = k
    · simp [he, h]
    · simp [h, he, OrdMap.get?_erase_of_ne he]
  · by_cases he : k' = k
    · simp [he, h, hk]
    · simp [h, he]

theorem install_get? :
    (install k sample owner now s).sessions.get? k' =
      if k' = k then some (placed (live now (s.sessions.get? k)) sample owner now)
      else s.sessions.get? k' := by
  simp only [install, OrdMap.get?_set, currentSession_fst, currentSession_get?]
  by_cases he : k' = k <;> simp [he]

theorem disown_get? :
    (disown k now s).sessions.get? k' =
      if k' = k then (live now (s.sessions.get? k)).map (·.release now) else s.sessions.get? k' := by
  unfold disown
  dsimp only
  rw [currentSession_fst]
  rcases hl : live now (s.sessions.get? k) with _ | c
  · simp [currentSession_get?, hl]
  · by_cases he : k' = k
    · simp [he]
    · simp [he, OrdMap.get?_set_of_ne he, currentSession_get?]

/-- What a sweep does to a record: a record without an owner may go, and goes only when it has
lapsed as long as there is room for the others. -/
def Swept (now : Nat) (sessions : Sessions) : Option PowerSession → Option PowerSession → Prop
  | r, none =>
    ∀ c, r = some c → c.owner = none ∧ ((ownerless now sessions).length ≤ MAX_OWNERLESS → c.Lapsed now)
  | r, some c => r = some c

theorem Swept.refl {sessions : Sessions} : Swept now sessions r r := by
  cases r with
  | none => exact fun _ h => nomatch h
  | some _ => rfl

theorem mem_surplus {sessions : Sessions} {e : String × PowerSession} (h : e ∈ surplus now sessions) :
    MAX_OWNERLESS < (ownerless now sessions).length ∧ e ∈ sessions.entries ∧ e.2.owner = none := by
  unfold surplus at h
  dsimp only at h
  split at h
  · next hroom =>
    have he := List.mem_mergeSort.1 (List.mem_of_mem_take h)
    obtain ⟨hmem, howner⟩ := List.mem_filter.1 he
    exact ⟨hroom, hmem, (of_decide_eq_true howner).1⟩
  · cases h

theorem prune_swept {mayIncrease : Bool} :
    Swept now s.sessions (s.sessions.get? k) ((prune now mayIncrease s).sessions.get? k) := by
  unfold prune
  split
  · exact Swept.refl
  dsimp only
  generalize hlive : ((s.sessions.filter fun _ value => ¬ value.Lapsed now).filter
    fun id _ => id ∉ (surplus now s.sessions).map Prod.fst) = swept
  rcases hk : swept.get? k with _ | c
  · intro c hc
    by_cases hl : c.Lapsed now
    · exact ⟨hl.1, fun _ => hl⟩
    have hsurplus : k ∈ (surplus now s.sessions).map Prod.fst := by
      by_contra hnot
      have hkept : swept.get? k = some c := by
        rw [← hlive, OrdMap.get?_filter, OrdMap.get?_filter]
        exact ⟨⟨hc, decide_eq_true hl⟩, decide_eq_true hnot⟩
      rw [hk] at hkept
      cases hkept
    obtain ⟨e, he, rfl⟩ := List.mem_map.1 hsurplus
    obtain ⟨hroom, hmem, howner⟩ := mem_surplus he
    rw [OrdMap.get?_eq_some.2 hmem] at hc
    obtain rfl := Option.some.inj hc
    exact ⟨howner, fun hle => absurd hroom (Nat.not_lt.2 hle)⟩
  · rw [← hlive, OrdMap.get?_filter, OrdMap.get?_filter] at hk
    exact hk.1.1

end Record

/-- The sessions that the sweep of a call finds. -/
def Call.unswept (now : Nat) (s : State) : Call → State
  | .bind kioskId _ none => disown kioskId now s
  | .bind kioskId owner (some sample) => install kioskId sample (some owner) now s
  | .unbind kioskId owner first => unown kioskId owner first s
  | .heartbeatAllowed kioskId (some sample) =>
    let current := currentSession kioskId now s
    if (heartbeatPowerSampleAllowed kioskId (some sample) now s).1 ∧
      current.1.all (·.sessionId ≠ sample.sessionId) then
      install kioskId { sample with revision := -1 } none now current.2
    else current.2
  | call => call.run now s

/-- What a call of which `clock` and `now` bound the readings of the clock makes of the record of
the kiosk `k`, its sweep apart. -/
inductive Becomes (clock now : Nat) (k : String) (call : Call) : Option PowerSession →
    Option PowerSession → Prop
  | same (r) : Becomes clock now k call r r
  | lapsed (r) : Becomes clock now k call r (live now r)
  | released (c) (t) (ht : clock ≤ t) (hnow : t ≤ now) : Becomes clock now k call (some c)
    (some (c.release t))
  | advanced (c) (revision) (hlive : ¬ c.Lapsed now) (hrevision : c.revision ≤ revision) :
    Becomes clock now k call (some c) (some { c with revision := revision, expiresAt := now + HISTORY_MS })
  | bound (r) (o) (sample) (hcall : call = .bind k o (some sample)) :
    Becomes clock now k call r (some (placed (live now r) sample (some o) now))
  | baseline (r) (sample : PowerSample) (hfree : ∀ c, live now r = some c → c.sessionId ≠ sample.sessionId ∧
      c.owner = none ∧ (c.retired.get? sample.sessionId).getD 0 ≤ now) :
    Becomes clock now k call r (some (placed (live now r) sample none now))

section Call

variable {k k' : String} {clock now first : Nat} {c : PowerSession} {r : Option PowerSession}
  {sample : PowerSample}
  {o : Nat} {call : Call} {s : State}

theorem live_live : live now (live now r) = live now r := by
  refine Option.ext fun c => ?_
  rw [live_eq_some, live_eq_some]
  constructor
  · exact And.left
  · exact fun h => ⟨h, h.2⟩

theorem currentSession_becomes :
    Becomes clock now k call (s.sessions.get? k) ((currentSession k' now s).2.sessions.get? k) := by
  rw [currentSession_get?]
  split
  · next he => exact he ▸ .lapsed _
  · exact .same _

theorem bind_becomes :
    Becomes clock now k (.bind k' o (some sample)) (s.sessions.get? k)
      ((install k' sample (some o) now s).sessions.get? k) := by
  rw [install_get?]
  split
  · next he => exact he ▸ .bound _ o sample rfl
  · exact .same _

theorem disown_becomes (hclock : clock ≤ now) :
    Becomes clock now k call (s.sessions.get? k) ((disown k' now s).sessions.get? k) := by
  rw [disown_get?]
  split
  · next he =>
    subst he
    rcases hl : live now (s.sessions.get? k) with _ | c
    · have h : Becomes clock now k call (s.sessions.get? k) (live now (s.sessions.get? k)) := .lapsed _
      rwa [hl] at h
    · rw [(live_eq_some.1 hl).1]
      exact .released c now hclock (Nat.le_refl _)
  · exact .same _

theorem unown_becomes (hclock : clock ≤ first) (hnow : first ≤ now) :
    Becomes clock now k call (s.sessions.get? k) ((unown k' o first s).sessions.get? k) := by
  unfold unown
  rcases hk : s.sessions.get? k' with _ | c
  · exact .same _
  dsimp only
  split
  · rw [OrdMap.get?_set]
    split
    · next he =>
      rw [he, hk]
      exact .released c first hclock hnow
    · exact .same _
  · exact .same _

theorem powerSampleAllowed_snd {sample : Option PowerSample} :
    (powerSampleAllowed k sample now s).2 = (currentSession k now s).2 := by
  unfold powerSampleAllowed
  dsimp only
  split <;> rfl

theorem powerSampleAllowed_iff :
    (powerSampleAllowed k (some sample) now s).1 = true ↔
      ∃ c, live now (s.sessions.get? k) = some c ∧ c.sessionId = sample.sessionId ∧
      c.revision ≤ sample.revision := by
  unfold powerSampleAllowed
  dsimp only
  rw [currentSession_fst]
  rcases live now (s.sessions.get? k) with _ | c <;> simp

theorem advance_becomes :
    Becomes clock now k call (s.sessions.get? k) ((advancePowerSample k' sample now s).sessions.get? k) := by
  unfold advancePowerSample
  dsimp only
  rcases hl : (currentSession k' now s).1 with _ | c
  · exact currentSession_becomes
  dsimp only
  rw [currentSession_fst] at hl
  split
  · next hallowed =>
    obtain ⟨d, hd, -, hrevision⟩ := powerSampleAllowed_iff.1 hallowed
    rw [currentSession_get?, if_pos rfl, live_live, hl] at hd
    obtain rfl := Option.some.inj hd
    rw [powerSampleAllowed_snd, OrdMap.get?_set]
    split
    · next he =>
      obtain ⟨hc, hlive⟩ := live_eq_some.1 hl
      rw [he, hc]
      exact .advanced c _ hlive hrevision
    · next hne =>
      rw [currentSession_get?, if_neg hne, currentSession_get?, if_neg hne]
      exact .same _
  · rw [powerSampleAllowed_snd, currentSession_get?, currentSession_get?, currentSession_get?]
    split
    · next he =>
      rw [if_pos rfl, live_live, he]
      exact .lapsed _
    · exact .same _

/-- A heartbeat is allowed by the current session, or places a session that neither a socket nor the
history bars. -/
theorem heartbeat_allowed_iff :
    (heartbeatPowerSampleAllowed k (some sample) now s).1 = true ↔
      (∃ c, live now (s.sessions.get? k) = some c ∧ c.sessionId = sample.sessionId ∧
        c.revision ≤ sample.revision) ∨
      ∀ c, live now (s.sessions.get? k) = some c → c.sessionId ≠ sample.sessionId ∧ c.owner = none ∧
        (c.retired.get? sample.sessionId).getD 0 ≤ now := by
  unfold heartbeatPowerSampleAllowed
  dsimp only
  rw [currentSession_fst]
  rcases live now (s.sessions.get? k) with _ | c
  · simp
  by_cases he : c.sessionId = sample.sessionId
  · simp [he]
  by_cases hb : c.owner.isSome ∨ now < (c.retired.get? sample.sessionId).getD 0
  · simp only [he, hb, if_true, if_false, Bool.false_eq_true, false_iff, Option.some.injEq]
    rintro (⟨d, rfl, h, -⟩ | h)
    · exact he h
    · obtain ⟨-, howner, hle⟩ := h c rfl
      rw [howner] at hb
      simp at hb
      omega
  · simp only [he, hb, if_false, true_iff]
    refine .inr fun d hd => ?_
    obtain rfl := Option.some.inj hd
    rw [not_or] at hb
    exact ⟨he, by simpa using hb.1, Nat.not_lt.1 hb.2⟩

theorem heartbeat_becomes (hallowed : (heartbeatPowerSampleAllowed k' (some sample) now s).1 = true)
    (hnew : (currentSession k' now s).1.all (·.sessionId ≠ sample.sessionId) = true) :
    Becomes clock now k call (s.sessions.get? k)
      ((install k' { sample with revision := -1 } none now (currentSession k' now s).2).sessions.get? k) := by
  rw [install_get?, currentSession_get?, currentSession_get?, if_pos rfl, live_live]
  split
  · next he =>
    subst he
    rw [currentSession_fst] at hnew
    refine .baseline _ { sample with revision := -1 } fun c hc => ?_
    rcases heartbeat_allowed_iff.1 hallowed with ⟨d, hd, hsame, -⟩ | h
    · rw [hd] at hnew
      exact absurd hsame (by simpa using hnew)
    · exact h c hc
  · exact .same _

theorem unown_of_ne (h : ¬ (s.sessions.get? k).any (·.owner = some o) = true) : unown k o first s = s := by
  unfold unown
  rcases hk : s.sessions.get? k with _ | c
  · rfl
  · rw [hk, Option.any_some, decide_eq_true_eq] at h
    exact if_neg h

/-- The sweep that ends a call. -/
theorem run_swept :
    Swept now (call.unswept now s).sessions ((call.unswept now s).sessions.get? k)
    ((call.run now s).sessions.get? k) := by
  cases call with
  | bind k' owner sample =>
    cases sample with
    | none => exact prune_swept
    | some sample => exact prune_swept
  | unbind k' owner first =>
    show Swept now (unown k' owner first s).sessions _
      ((unbindPowerSession k' owner first now s).sessions.get? k)
    unfold unbindPowerSession
    split
    · exact prune_swept
    next hne =>
    rw [show (Call.unbind k' owner first).unswept now s = unown k' owner first s from rfl, unown_of_ne hne]
    exact Swept.refl
  | heartbeatAllowed k' sample =>
    cases sample with
    | none => exact Swept.refl
    | some sample =>
      show Swept now _ _ ((heartbeatPowerSampleAllowed k' (some sample) now s).2.sessions.get? k)
      unfold Call.unswept heartbeatPowerSampleAllowed
      dsimp only
      generalize currentSession k' now s = current
      obtain ⟨_ | c, after⟩ := current
      · simp only [Option.all_none, and_self, if_true]
        exact prune_swept
      by_cases he : c.sessionId = sample.sessionId
      · simp only [he, Option.all_some, ne_eq, not_true_eq_false, decide_false, and_false, if_false, if_true,
          Bool.false_eq_true]
        exact Swept.refl
      by_cases hb : c.owner.isSome ∨ now < (c.retired.get? sample.sessionId).getD 0
      · simp only [he, hb, if_true, if_false, Bool.false_eq_true, false_and]
        exact Swept.refl
      · simp only [he, hb, if_false, Option.all_some, ne_eq, not_false_eq_true, decide_true,
          and_self, if_true]
        exact prune_swept
  | has | allowed | advance => exact Swept.refl

/-- Everything a call can do to the record of the kiosk `k`. -/
theorem unswept_becomes (hclock : clock ≤ call.first now) (hnow : call.first now ≤ now) :
    Becomes clock now k call (s.sessions.get? k) ((call.unswept now s).sessions.get? k) := by
  cases call with
  | bind k' owner sample =>
    cases sample with
    | none => exact disown_becomes hclock
    | some sample => exact bind_becomes
  | unbind k' owner first => exact unown_becomes hclock hnow
  | has k' => exact currentSession_becomes
  | allowed k' sample =>
    show Becomes clock now k _ _ ((powerSampleAllowed k' sample now s).2.sessions.get? k)
    rw [powerSampleAllowed_snd]
    exact currentSession_becomes
  | heartbeatAllowed k' sample =>
    cases sample with
    | none => exact .same _
    | some sample =>
      unfold Call.unswept
      dsimp only
      split
      · next h => exact heartbeat_becomes h.1 h.2
      · exact currentSession_becomes
  | advance k' sample => exact advance_becomes

end Call

/-! ### The history of a session -/

/-- What holds of a record when the clock was last read at `clock`. -/
structure PowerSession.Sound (clock : Nat) (c : PowerSession) : Prop where
  bounded : c.retired.size ≤ MAX_RETIRED
  current : c.retired.get? c.sessionId = none
  outlived : c.owner = none → ∀ e ∈ c.retired.entries, e.2 ≤ c.expiresAt
  recent : ∀ e ∈ c.retired.entries, e.2 ≤ clock + HISTORY_MS

section Sound

variable {k sid : String} {clock now : Nat} {c p : PowerSession} {r r' : Option PowerSession}
  {sample : PowerSample}
  {owner : Option Nat} {call : Call}

theorem mem_retire {e : String × Nat} (h : e ∈ (retire r sample now).entries) :
    e.1 ≠ sample.sessionId ∧ (e.2 = now + HISTORY_MS ∨ ∃ p, r = some p ∧ e ∈ p.retired.entries) := by
  have hkept {m : OrdMap String Nat}
    (h : e ∈ (m.filter fun id expires => id ≠ sample.sessionId ∧ now < expires).entries) :
      e.1 ≠ sample.sessionId ∧ e ∈ m.entries := by
    obtain ⟨hmem, hp⟩ := List.mem_filter.1 h
    exact ⟨(of_decide_eq_true hp).1, hmem⟩
  rcases r with _ | p
  · exact absurd (hkept h).2 List.not_mem_nil
  unfold retire at h
  dsimp only [Option.elim] at h
  split at h
  · next hne =>
    have he := OrdMap.get?_eq_some.2 h
    rw [OrdMap.get?_set] at he
    split at he
    · next heq =>
      rw [heq]
      exact ⟨hne, .inl (Option.some.inj he).symm⟩
    · exact (hkept (OrdMap.get?_eq_some.1 he)).imp_right fun h => .inr ⟨p, rfl, h⟩
  · exact (hkept h).imp_right fun h => .inr ⟨p, rfl, h⟩

theorem placed_sound (hclock : clock ≤ now) (h : ∀ c, r = some c → c.Sound clock) :
    (placed r sample owner now).Sound now := by
  have hexpiry (e) (he : e ∈ (placed r sample owner now).retired.entries) : e.2 ≤ now + HISTORY_MS := by
    rcases (mem_retire (OrdMap.mem_dropOldest he)).2 with he | ⟨p, hp, he⟩
    · exact Nat.le_of_eq he
    · have := (h p hp).recent e he
      omega
  refine ⟨OrdMap.size_dropOldest, OrdMap.get?_eq_none.2 fun v hv => ?_, fun _ => hexpiry, hexpiry⟩
  exact (mem_retire (OrdMap.mem_dropOldest hv)).1 rfl

theorem Becomes.sound (hb : Becomes clock now k call r r') (hclock : clock ≤ now)
    (h : ∀ c, r = some c → c.Sound clock) :
    ∀ c, r' = some c → c.Sound now := by
  have hlater (c) (hc : r = some c) : c.Sound now :=
    have hs := h c hc
    ⟨hs.bounded, hs.current, hs.outlived, fun e he => Nat.le_trans (hs.recent e he) (by omega)⟩
  have hlive (c) (hc : live now r = some c) : c.Sound clock := h c (live_eq_some.1 hc).1
  cases hb with
  | same => exact hlater
  | lapsed => exact fun c hc => hlater c (live_eq_some.1 hc).1
  | released c t ht hnow =>
    rintro _ ⟨⟩
    obtain ⟨hbounded, hcurrent, -, hrecent⟩ := h c rfl
    refine ⟨hbounded, hcurrent, fun _ e he => ?_, (hlater c rfl).recent⟩
    have := hrecent e he
    show e.2 ≤ t + HISTORY_MS
    omega
  | advanced c revision _ _ =>
    rintro _ ⟨⟩
    obtain ⟨hbounded, hcurrent, -, hrecent⟩ := hlater c rfl
    exact ⟨hbounded, hcurrent, fun _ => hrecent, hrecent⟩
  | bound _ o sample _ =>
    rintro _ ⟨⟩
    exact placed_sound hclock hlive
  | baseline _ sample _ =>
    rintro _ ⟨⟩
    exact placed_sound hclock hlive

end Sound

/-- Every session is sound at the time of the clock. -/
def Sound (s : System) : Prop := ∀ k c, s.state.sessions.get? k = some c → c.Sound s.clock

section Step

variable {k sid : String} {s s' : System} {l : Label} {ls : List Label}

/-- Everything a step can do to the record of the kiosk `k`. -/
theorem step_becomes (h : step s l = some s') (k : String) :
    s.clock ≤ l.now ∧ s'.clock = l.now ∧ ∃ r, Becomes s.clock l.now k l.call (s.state.sessions.get? k) r ∧
      Swept l.now (l.call.unswept l.now s.state).sessions r (s'.state.sessions.get? k) := by
  unfold step at h
  split at h
  · next hclock =>
    obtain rfl := Option.some.inj h
    exact ⟨Nat.le_trans hclock.1 hclock.2, rfl, _, unswept_becomes hclock.1 hclock.2, run_swept⟩
  · cases h

theorem Swept.eq {now : Nat} {sessions : Sessions} {r : Option PowerSession} {c : PowerSession}
    (h : Swept now sessions r (some c)) : r = some c := h

theorem step_sound (h : step s l = some s') (hs : Sound s) : Sound s' := by
  intro k c hc
  obtain ⟨hclock, hnow, r, hb, hw⟩ := step_becomes h k
  rw [hc] at hw
  exact hnow ▸ hb.sound hclock (hs k) c hw.eq

theorem run_sound (hr : run step init ls = some s) : Sound s :=
  run_inv (fun _ _ _ => step_sound) hr fun _ _ h => nomatch h

end Step

/-! ### Revisions -/

/-- The kiosk's current session at `now`. -/
def System.current (s : System) (k : String) (now : Nat) : Option String :=
  (currentSession k now s.state).1.map (·.sessionId)

/-- At the call `l` the session `sid` is still the current one of the kiosk. -/
def Stays (k sid : String) (s : System) (l : Label) : Prop := s.current k l.now = some sid

/-- Reports of the session must have reached the revision `revision`. -/
def Floor (k sid : String) (revision : Int) (s : System) : Prop :=
  ∀ c, s.state.sessions.get? k = some c → c.sessionId = sid → revision ≤ c.revision

section Revisions

variable {k sid : String} {now : Nat} {revision : Int} {c : PowerSession} {sample : PowerSample}
  {s s' : System}
  {l : Label} {ls : List Label}

theorem current_eq_some :
    s.current k now = some sid ↔ ∃ c, live now (s.state.sessions.get? k) = some c ∧ c.sessionId = sid := by
  rw [System.current, currentSession_fst, Option.map_eq_some_iff]

theorem Becomes.floor {clock : Nat} {call : Call} {r r' : Option PowerSession}
    (hb : Becomes clock now k call r r')
    (hl : live now r = some c) (hsid : c.sessionId = sid) (hc : revision ≤ c.revision) :
    ∀ c', r' = some c' → c'.sessionId = sid → revision ≤ c'.revision := by
  have hr := (live_eq_some.1 hl).1
  cases hb with
  | same =>
    intro c' hc' _
    rwa [← Option.some.inj (hr.symm.trans hc')]
  | lapsed =>
    intro c' hc' _
    rwa [← Option.some.inj (hl.symm.trans hc')]
  | released c₀ t _ _ =>
    rintro _ ⟨⟩ _
    cases hr
    exact hc
  | advanced c₀ revision' _ hle =>
    rintro _ ⟨⟩ _
    cases hr
    exact Int.le_trans hc hle
  | bound _ o sample _ =>
    rintro _ ⟨⟩ heq
    have heq : c.sessionId = sample.sessionId := hsid.trans heq.symm
    simp only [placed, hl, heq, if_true]
    omega
  | baseline _ sample hfree =>
    rintro _ ⟨⟩ heq
    exact absurd (hsid.trans heq.symm) (hfree c hl).1

/-- As long as the session stays the current one, its revision does not fall. -/
theorem step_floor (h : step s l = some s') (hl : Stays k sid s l) (hf : Floor k sid revision s) :
    Floor k sid revision s' := by
  obtain ⟨c, hc, hsid⟩ := current_eq_some.1 hl
  obtain ⟨-, -, r, hb, hw⟩ := step_becomes h k
  intro c' hc' hsid'
  rw [hc'] at hw
  exact hb.floor hc hsid (hf c (live_eq_some.1 hc).1 hsid) c' hw.eq hsid'

theorem run_floor (ha : Along step (Stays k sid) s ls) (hr : run step s ls = some s')
    (hf : Floor k sid revision s) :
    Floor k sid revision s' :=
  ha.inv (fun _ _ _ hl h => step_floor h hl) hr hf

/-- A report that counts sets the floor for the reports after it. -/
theorem advance_floor (h : step s ⟨now, .advance k sample⟩ = some s')
    (hallowed : (powerSampleAllowed k (some sample) now s.state).1 = true) :
    Floor k sample.sessionId sample.revision s' := by
  unfold step at h
  split at h
  · obtain rfl := Option.some.inj h
    intro c hc _
    obtain ⟨d, hd, hsid, hle⟩ := powerSampleAllowed_iff.1 hallowed
    have hset : (advancePowerSample k sample now s.state).sessions.get? k =
        some { d with revision := sample.revision, expiresAt := now + HISTORY_MS } := by
      unfold advancePowerSample
      dsimp only
      rw [currentSession_fst, hd]
      dsimp only
      rw [if_pos, OrdMap.get?_set_self]
      exact powerSampleAllowed_iff.2 ⟨d, by rw [currentSession_get?, if_pos rfl, live_live, hd], hsid, hle⟩
    obtain rfl := Option.some.inj (hset.symm.trans hc)
    exact Int.le_refl _
  · cases h

/-- A report of the current session that is allowed has reached the floor. -/
theorem floor_le (hf : Floor k sample.sessionId revision s) (hl : s.current k now = some sample.sessionId)
    (hallowed : (powerSampleAllowed k (some sample) now s.state).1 = true ∨
      (heartbeatPowerSampleAllowed k (some sample) now s.state).1 = true) : revision ≤ sample.revision := by
  obtain ⟨c, hc, hsid⟩ := current_eq_some.1 hl
  have hle : c.revision ≤ sample.revision := by
    rcases hallowed with h | h
    · obtain ⟨d, hd, -, hle⟩ := powerSampleAllowed_iff.1 h
      rwa [Option.some.inj (hc.symm.trans hd)]
    · rcases heartbeat_allowed_iff.1 h with ⟨d, hd, -, hle⟩ | hnew
      · rwa [Option.some.inj (hc.symm.trans hd)]
      · exact absurd hsid (hnew c hc).1
  exact Int.le_trans (hf c (live_eq_some.1 hc).1 hsid) hle

end Revisions

/-! ### Retired sessions -/

/-- The session of the kiosk that a step at `now` has replaced by another. -/
def retirement (k : String) (now : Nat) (s s' : System) : Option String :=
  match s.current k now, s'.current k now with
  | some sid, some sid' => if sid = sid' then none else some sid
  | _, _ => none

/-- The sessions of the kiosk that are replaced in the run of `ls` from `s`. -/
def retirements (k : String) : System → List Label → List String
  | _, [] => []
  | s, l :: ls =>
    match step s l with
    | none => []
    | some s' => (retirement k l.now s s').toList ++ retirements k s' ls

/-- `bindPowerSession` installs the session. -/
def Label.Rebinds (k sid : String) (l : Label) : Prop :=
  ∃ owner sample, l.call = .bind k owner (some sample) ∧ sample.sessionId = sid

/-- Each kiosk without an owner has its place in the store. -/
def Capacity (s : System) (l : Label) : Prop :=
  (ownerless l.now (l.call.unswept l.now s.state).sessions).length ≤ MAX_OWNERLESS

instance {s : System} {l : Label} : Decidable (Capacity s l) := inferInstanceAs (Decidable (_ ≤ _))

/-- The record of a kiosk keeps `sid` from coming back before `expiry`; since `sid` was replaced,
only sessions of `late` were. -/
def Bars (sid : String) (expiry : Nat) (late : List String) (r : Option PowerSession) : Prop :=
  ∃ c l₁ l₂, r = some c ∧ c.sessionId ≠ sid ∧ c.retired.entries = l₁ ++ (sid, expiry) :: l₂ ∧
    ∀ e ∈ l₂, e.1 ∈ late

section Retired

variable {k sid : String} {clock now expiry : Nat} {late ids : List String} {c p : PowerSession}
  {r r' : Option PowerSession} {sample : PowerSample} {owner : Option Nat} {call : Call}
    {s s' : System} {l : Label}
  {ls : List Label}

theorem retirement_eq_some :
    retirement k now s s' = some sid ↔
      s.current k now = some sid ∧ ∃ sid', s'.current k now = some sid' ∧ sid ≠ sid' := by
  unfold retirement
  rcases s.current k now with _ | a
  · simp
  rcases s'.current k now with _ | b
  · simp
  by_cases h : a = b
  · subst h
    simp only [if_true, reduceCtorEq, Option.some.injEq, false_iff]
    rintro ⟨rfl, _, rfl, hne⟩
    exact hne rfl
  · simp only [h, if_false, Option.some.injEq]
    constructor
    · rintro rfl
      exact ⟨rfl, b, rfl, h⟩
    · exact And.left

/-- The keys after an entry of the history are distinct, so they are at most as many as the distinct
names among which they are found. -/
theorem length_after_le {m : OrdMap String Nat} {l₁ l₂ : List (String × Nat)} {e : String × Nat}
    (h : m.entries = l₁ ++ e :: l₂) (hids : ∀ e ∈ l₂, e.1 ∈ ids) : l₂.length ≤ ids.dedup.length := by
  have hnodup : (l₂.map Prod.fst).Nodup :=
    m.nodup.sublist ((h ▸ (List.sublist_append_of_sublist_right (List.sublist_cons_self ..))).map _)
  have hsub : l₂.map Prod.fst ⊆ ids.dedup := by
    intro id hid
    obtain ⟨e, he, rfl⟩ := List.mem_map.1 hid
    exact List.mem_dedup.2 (hids e he)
  simpa using (List.Nodup.subperm hnodup hsub).length_le

/-- The history after a session that replaces another. -/
theorem retire_entries (now : Nat) (hp : p.Sound clock) (hne : p.sessionId ≠ sample.sessionId) :
    (retire (some p) sample now).entries =
      (p.retired.filter fun id expires => id ≠ sample.sessionId ∧ now < expires).entries ++
        [(p.sessionId, now + HISTORY_MS)] := by
  unfold retire
  dsimp only [Option.elim]
  rw [if_pos hne, OrdMap.entries_set_of_none]
  rw [OrdMap.get?_eq_none]
  exact fun v hv => OrdMap.get?_eq_none.1 hp.current v (List.mem_of_mem_filter hv)

/-- A session that is replaced is barred from then on. -/
theorem placed_bars_previous (hp : p.Sound clock) (hne : p.sessionId ≠ sample.sessionId) :
    Bars p.sessionId (now + HISTORY_MS) [] (some (placed (some p) sample owner now)) := by
  obtain ⟨l, hl⟩ := OrdMap.dropOldest_keeps (retire_entries now hp hne)
    (show ([] : List _).length < MAX_RETIRED by decide)
  exact ⟨_, l, [], rfl, Ne.symm hne, hl, fun e he => absurd he List.not_mem_nil⟩

/-- A session stays barred until eight others have been replaced after it. -/
theorem placed_bars (hp : p.Sound clock) (hb : Bars sid expiry late (some p)) (hsid : sample.sessionId ≠ sid)
    (hnow : now < expiry) (hlate : ∀ id ∈ late, id ∈ ids)
    (hid : p.sessionId ≠ sample.sessionId → p.sessionId ∈ ids)
    (hids : ids.dedup.length < MAX_RETIRED) :
    Bars sid expiry ids (some (placed (some p) sample owner now)) := by
  obtain ⟨_, l₁, l₂, ⟨⟩, -, hentries, hl₂⟩ := hb
  have hsplit : (p.retired.filter fun id expires => id ≠ sample.sessionId ∧ now < expires).entries =
      (l₁.filter fun e => e.1 ≠ sample.sessionId ∧ now < e.2) ++
        (sid, expiry) :: l₂.filter fun e => e.1 ≠ sample.sessionId ∧ now < e.2 := by
    show (p.retired.entries.filter fun e => e.1 ≠ sample.sessionId ∧ now < e.2) = _
    rw [hentries, List.filter_append, List.filter_cons_of_pos (by simpa using ⟨Ne.symm hsid, hnow⟩)]
  have hkept (e) (he : e ∈ l₂.filter fun e => e.1 ≠ sample.sessionId ∧ now < e.2) : e.1 ∈ ids :=
    hlate _ (hl₂ e (List.mem_of_mem_filter he))
  by_cases hne : p.sessionId = sample.sessionId
  · have hretire : retire (some p) sample now =
        p.retired.filter fun id expires => id ≠ sample.sessionId ∧ now < expires := if_neg (not_not.2 hne)
    rw [← hretire] at hsplit
    obtain ⟨l, hl⟩ := OrdMap.dropOldest_keeps hsplit (Nat.lt_of_le_of_lt (length_after_le hsplit hkept) hids)
    exact ⟨_, l, _, rfl, hsid, hl, hkept⟩
  · have hretire := retire_entries now hp hne
    rw [hsplit, List.append_assoc, List.cons_append] at hretire
    have hafter (e) (he : e ∈ (l₂.filter fun e => e.1 ≠ sample.sessionId ∧ now < e.2) ++
        [(p.sessionId, now + HISTORY_MS)]) : e.1 ∈ ids := by
      rcases List.mem_append.1 he with he | he
      · exact hkept e he
      · rw [List.mem_singleton.1 he]
        exact hid hne
    obtain ⟨l, hl⟩ := OrdMap.dropOldest_keeps hretire
      (Nat.lt_of_le_of_lt (length_after_le hretire hafter) hids)
    exact ⟨_, l, _, rfl, hsid, hl, hafter⟩

/-- A record is not run out while one of the sessions it has replaced is barred. -/
theorem PowerSession.Sound.not_lapsed (hs : c.Sound clock) (he : (sid, expiry) ∈ c.retired.entries)
    (hnow : now < expiry) :
    ¬ c.Lapsed now := by
  rintro ⟨howner, hle⟩
  have : expiry ≤ c.expiresAt := hs.outlived howner _ he
  omega

theorem placed_not_lapsed : ¬ (placed r sample owner now).Lapsed now := by
  rintro ⟨-, h⟩
  have h : now + HISTORY_MS ≤ now := h
  have : 0 < HISTORY_MS := by decide
  omega

theorem Bars.mem (hb : Bars sid expiry late r) : ∃ c, r = some c ∧ (sid, expiry) ∈ c.retired.entries := by
  obtain ⟨c, l₁, l₂, hc, -, hentries, -⟩ := hb
  exact ⟨c, hc, by rw [hentries]; simp⟩

theorem Bars.mono {late' : List String} (hb : Bars sid expiry late r) (h : ∀ id ∈ late, id ∈ late') :
    Bars sid expiry late' r := by
  obtain ⟨c, l₁, l₂, hc, hne, hentries, hl₂⟩ := hb
  exact ⟨c, l₁, l₂, hc, hne, hentries, fun e he => h _ (hl₂ e he)⟩

theorem Bars.live_eq (hb : Bars sid expiry late r) (hs : ∀ c, r = some c → c.Sound clock)
    (hnow : now < expiry) :
    live now r = r := by
  obtain ⟨c, rfl, he⟩ := hb.mem
  exact live_eq_some.2 ⟨rfl, (hs c rfl).not_lapsed he hnow⟩

/-- A call leaves a kiosk that bars a session with a record that no sweep has to drop. -/
theorem Becomes.keeps (hb : Becomes clock now k call r r') (hr : Bars sid expiry late r)
    (hs : ∀ c, r = some c → c.Sound clock) (hs' : ∀ c, r' = some c → c.Sound now) (hnow : now < expiry) :
    ∃ c, r' = some c ∧ ¬ c.Lapsed now := by
  have hlive := hr.live_eq hs hnow
  obtain ⟨p, rfl, hp⟩ := hr.mem
  cases hb with
  | same => exact ⟨p, rfl, (hs p rfl).not_lapsed hp hnow⟩
  | lapsed => exact ⟨p, hlive, (hs p rfl).not_lapsed hp hnow⟩
  | released c t _ _ => exact ⟨_, rfl, (hs' _ rfl).not_lapsed hp hnow⟩
  | advanced c revision _ _ => exact ⟨_, rfl, (hs' _ rfl).not_lapsed hp hnow⟩
  | bound _ o sample _ => exact ⟨_, rfl, placed_not_lapsed⟩
  | baseline _ sample _ => exact ⟨_, rfl, placed_not_lapsed⟩

/-- One call on a kiosk that bars `sid`: it still does, if `sid` is not bound again. -/
theorem Becomes.bars (hb : Becomes clock now k call r r') (hr : Bars sid expiry late r)
    (hs : ∀ c, r = some c → c.Sound clock) (hnow : now < expiry)
    (hcall : ∀ o sample, call = .bind k o (some sample) → sample.sessionId ≠ sid)
    (hlate : ∀ id ∈ late, id ∈ ids)
    (hids : ∀ c c', r = some c → r' = some c' → c.sessionId ≠ c'.sessionId → c.sessionId ∈ ids)
    (hlen : ids.dedup.length < MAX_RETIRED) : Bars sid expiry ids r' := by
  have hlive := hr.live_eq hs hnow
  have hr' := hr.mono hlate
  obtain ⟨p, rfl, hp⟩ := hr.mem
  cases hb with
  | same => exact hr'
  | lapsed => exact hlive.symm ▸ hr'
  | released =>
    obtain ⟨_, l₁, l₂, ⟨⟩, hne, hentries, hl₂⟩ := hr'
    exact ⟨_, l₁, l₂, rfl, hne, hentries, hl₂⟩
  | advanced =>
    obtain ⟨_, l₁, l₂, ⟨⟩, hne, hentries, hl₂⟩ := hr'
    exact ⟨_, l₁, l₂, rfl, hne, hentries, hl₂⟩
  | bound _ o sample hbind =>
    rw [hlive] at hids ⊢
    exact placed_bars (hs p rfl) hr (hcall o sample hbind) hnow hlate (hids p _ rfl rfl) hlen
  | baseline _ sample hfree =>
    have hsid : sample.sessionId ≠ sid := by
      rintro rfl
      have := (hfree p hlive).2.2
      rw [OrdMap.get?_eq_some.2 hp, Option.getD_some] at this
      omega
    rw [hlive] at hids ⊢
    exact placed_bars (hs p rfl) hr hsid hnow hlate (hids p _ rfl rfl) hlen

theorem current_of_live (hc : s.state.sessions.get? k = some c) (hl : ¬ c.Lapsed now) :
    s.current k now = some c.sessionId :=
  current_eq_some.2 ⟨c, live_eq_some.2 ⟨hc, hl⟩, rfl⟩

theorem step_bars (h : step s l = some s') (hs : Sound s) (hroom : Capacity s l) (hnow : l.now < expiry)
    (hl : ¬ l.Rebinds k sid) (hb : Bars sid expiry late (s.state.sessions.get? k))
    (hlen : (late ++ (retirement k l.now s s').toList).dedup.length < MAX_RETIRED) :
    Bars sid expiry (late ++ (retirement k l.now s s').toList) (s'.state.sessions.get? k) := by
  obtain ⟨hclock, -, r, hbec, hw⟩ := step_becomes h k
  obtain ⟨c', rfl, hlive'⟩ := hbec.keeps hb (hs k) (hbec.sound hclock (hs k)) hnow
  have hkept : s'.state.sessions.get? k = some c' := by
    rcases hk : s'.state.sessions.get? k with _ | d
    · rw [hk] at hw
      exact absurd ((hw c' rfl).2 hroom) hlive'
    · rw [hk] at hw
      exact hw.eq.symm
  rw [hkept]
  refine hbec.bars hb (hs k) hnow (fun o sample hbind hsid => hl ⟨o, sample, hbind, hsid⟩)
    (fun id hid => List.mem_append_left _ hid) ?_ hlen
  rintro c _ hc ⟨⟩ hne
  obtain ⟨p, hp, he⟩ := hb.mem
  obtain rfl := Option.some.inj (hc.symm.trans hp)
  have hretired : retirement k l.now s s' = some c.sessionId := retirement_eq_some.2
    ⟨current_of_live hc ((hs k c hc).not_lapsed he hnow), _, current_of_live hkept hlive', hne⟩
  rw [hretired]
  simp

/-- The session that a step has replaced is barred. -/
theorem retirement_bars (h : step s l = some s') (hs : Sound s) (hr : retirement k l.now s s' = some sid) :
    Bars sid (l.now + HISTORY_MS) [] (s'.state.sessions.get? k) := by
  obtain ⟨hsid, sid', hsid', hne⟩ := retirement_eq_some.1 hr
  obtain ⟨c, hc, rfl⟩ := current_eq_some.1 hsid
  obtain ⟨c', hc', rfl⟩ := current_eq_some.1 hsid'
  obtain ⟨hc₀, hlive⟩ := live_eq_some.1 hc
  obtain ⟨hc₀', -⟩ := live_eq_some.1 hc'
  obtain ⟨hclock, -, r, hb, hw⟩ := step_becomes h k
  rw [hc₀'] at hw ⊢
  rw [hw.eq, hc₀] at hb
  have hlive : live l.now (some c) = some c := live_eq_some.2 ⟨rfl, hlive⟩
  generalize hr' : some c' = r' at hb
  cases hb with
  | same => exact absurd (congrArg _ (Option.some.inj hr')) (Ne.symm hne)
  | lapsed => exact absurd (congrArg _ (Option.some.inj (hr'.trans hlive))) (Ne.symm hne)
  | released => exact absurd (congrArg PowerSession.sessionId (Option.some.inj hr')) (Ne.symm hne)
  | advanced => exact absurd (congrArg PowerSession.sessionId (Option.some.inj hr')) (Ne.symm hne)
  | bound _ o sample _ =>
    rw [Option.some.inj hr', hlive] at hne
    rw [hlive]
    exact placed_bars_previous (hs k c hc₀) hne
  | baseline _ sample _ =>
    rw [Option.some.inj hr', hlive] at hne
    rw [hlive]
    exact placed_bars_previous (hs k c hc₀) hne

theorem dedup_length_le_of_append {a b : List String} : a.dedup.length ≤ (a ++ b).dedup.length :=
  (List.Nodup.subperm (List.nodup_dedup a) fun _ h =>
    List.mem_dedup.2 (List.mem_append_left _ (List.mem_dedup.1 h))).length_le

/-- A barred session stays barred through a run that neither binds it again nor replaces eight others. -/
theorem run_bars (ha : Along step (fun s l => Capacity s l ∧ l.now < expiry ∧ ¬ l.Rebinds k sid) s ls)
    (hr : run step s ls = some s') (hs : Sound s) (hb : Bars sid expiry late (s.state.sessions.get? k))
    (hlen : (late ++ retirements k s ls).dedup.length < MAX_RETIRED) :
    Bars sid expiry (late ++ retirements k s ls) (s'.state.sessions.get? k) := by
  induction ls generalizing s late with
  | nil =>
    obtain rfl := Option.some.inj hr
    exact hb.mono fun id hid => List.mem_append_left _ hid
  | cons l ls ih =>
    obtain ⟨t, ht, hr⟩ := run_cons.1 hr
    obtain ⟨⟨hroom, hnow, hl⟩, ha⟩ := ha.cons ht
    have hsplit : late ++ retirements k s (l :: ls) =
        (late ++ (retirement k l.now s t).toList) ++ retirements k t ls := by
      rw [retirements, ht, List.append_assoc]
    rw [hsplit] at hlen ⊢
    have hstep := step_bars ht hs hroom hnow hl hb (Nat.lt_of_le_of_lt dedup_length_le_of_append hlen)
    exact ih ha hr (step_sound ht hs) hstep hlen

/-- A heartbeat of a barred session is refused. -/
theorem heartbeat_barred (hb : Bars sample.sessionId expiry late (s.state.sessions.get? k)) (hs : Sound s)
    (hnow : now < expiry) : (heartbeatPowerSampleAllowed k (some sample) now s.state).1 = false := by
  have hlive := hb.live_eq (hs k) hnow
  obtain ⟨c, _, _, hc, hne, -, -⟩ := id hb
  obtain ⟨c', hc', he⟩ := hb.mem
  obtain rfl := Option.some.inj (hc.symm.trans hc')
  rw [hc] at hlive
  refine Bool.eq_false_iff.2 fun hallowed => ?_
  rw [heartbeat_allowed_iff, hc, hlive] at hallowed
  rcases hallowed with ⟨d, hd, hsame, -⟩ | hfree
  · exact hne (Option.some.inj hd ▸ hsame)
  · have := (hfree c rfl).2.2
    rw [OrdMap.get?_eq_some.2 he, Option.getD_some] at this
    omega

end Retired

/-! ### The laws of a run -/

/-- In the run of `ls`: while a session stays the current one, a report of it that is allowed after
`ls` has at least the revision of every report of it that was recorded before. -/
def RevisionsOrdered (ls : List Label) (s : System) : Prop :=
  ∀ k now sample pre mid t, ls = pre ++ ⟨now, .advance k sample⟩ :: mid → run step init pre = some t →
    (powerSampleAllowed k (some sample) now t.state).1 = true →
    Along step (Stays k sample.sessionId) t (⟨now, .advance k sample⟩ :: mid) →
    ∀ now' report, s.clock ≤ now' → report.sessionId = sample.sessionId →
      s.current k now' = some sample.sessionId →
      (powerSampleAllowed k (some report) now' s.state).1 = true ∨
        (heartbeatPowerSampleAllowed k (some report) now' s.state).1 = true →
      sample.revision ≤ report.revision

/-- In the run of `ls`: a session that was replaced at `l.now` does not come back by a heartbeat for
`HISTORY_MS`, unless a socket has bound it or eight others of the kiosk have been replaced since. -/
def RetiredBarred (ls : List Label) (s : System) : Prop :=
  ∀ k sid pre l mid t u, ls = pre ++ l :: mid → run step init pre = some t → step t l = some u →
    retirement k l.now t u = some sid → (∀ l' ∈ mid, ¬ l'.Rebinds k sid) →
    (retirements k u mid).dedup.length < MAX_RETIRED →
    ∀ now' revision, s.clock ≤ now' → now' < l.now + HISTORY_MS →
      (heartbeatPowerSampleAllowed k (some ⟨sid, revision⟩) now' s.state).1 = false

section Laws

variable {k : String} {now : Nat} {c : PowerSession} {sample : PowerSample} {s s' : System}
  {l : Label} {ls : List Label}

theorem step_clock (h : step s l = some s') : l.now ≤ s'.clock :=
  Nat.le_of_eq (step_becomes h "").2.1.symm

theorem step_clock_le (h : step s l = some s') : s.clock ≤ s'.clock := by
  obtain ⟨hclock, hnow, -⟩ := step_becomes h ""
  omega

/-- The clock of a run is at the end what it is at most at every step. -/
theorem run_clock (hr : run step s ls = some s') : s.clock ≤ s'.clock ∧ ∀ l ∈ ls, l.now ≤ s'.clock := by
  induction ls generalizing s with
  | nil => exact ⟨Nat.le_of_eq (congrArg _ (Option.some.inj hr)), fun l hl => absurd hl List.not_mem_nil⟩
  | cons l ls ih =>
    obtain ⟨t, ht, hr⟩ := run_cons.1 hr
    obtain ⟨hle, hall⟩ := ih hr
    refine ⟨Nat.le_trans (step_clock_le ht) hle, fun l' hl' => ?_⟩
    rcases List.mem_cons.1 hl' with rfl | hl'
    · exact Nat.le_trans (step_clock ht) hle
    · exact hall l' hl'

theorem revisions_ordered (hr : run step init ls = some s) : RevisionsOrdered ls s := by
  rintro k now sample pre mid t rfl hpre hadvance hstays now' report - hsid hcurrent hallowed
  obtain ⟨t', ht', hr⟩ := run_append.1 hr
  obtain rfl := Option.some.inj (hpre.symm.trans ht')
  obtain ⟨u, hu, hr⟩ := run_cons.1 hr
  have hfloor := run_floor (hstays.cons hu).2 hr (advance_floor hu hadvance)
  rw [← hsid] at hfloor hcurrent
  exact floor_le hfloor hcurrent hallowed

theorem retired_barred (hroom : Along step Capacity init ls) (hr : run step init ls = some s) :
    RetiredBarred ls s := by
  rintro k sid pre l mid t u rfl hpre hstep hretired hbind hlen now' revision hnow hnow'
  obtain ⟨t', ht', hr⟩ := run_append.1 hr
  obtain rfl := Option.some.inj (hpre.symm.trans ht')
  obtain ⟨u', hu', hr⟩ := run_cons.1 hr
  obtain rfl := Option.some.inj (hstep.symm.trans hu')
  have hsound := run_sound hpre
  have hmid := ((hroom.append hpre).2.cons hstep).2
  have hgood : Along step (fun s l' => Capacity s l' ∧ l'.now < l.now + HISTORY_MS ∧
        ¬ l'.Rebinds k sid) u mid := by
    refine (Along.labels (p := fun l' => l'.now < l.now + HISTORY_MS ∧ ¬ l'.Rebinds k sid)
      (fun l' hl' => ?_) hmid).mono
      fun _ _ h => ⟨h.2, h.1⟩
    have := (run_clock hr).2 l' hl'
    exact ⟨by omega, hbind l' hl'⟩
  have hbars := run_bars hgood hr (step_sound hstep hsound) (retirement_bars hstep hsound hretired) hlen
  exact heartbeat_barred hbars (run_sound (run_append.2 ⟨t, hpre, run_cons.2 ⟨u, hstep, hr⟩⟩)) hnow'

/-- A heartbeat of another session than the owned one is refused. -/
theorem heartbeat_owned (hc : (currentSession k now s.state).1 = some c) (ho : c.owner.isSome)
    (hne : c.sessionId ≠ sample.sessionId) :
    (heartbeatPowerSampleAllowed k (some sample) now s.state).1 = false := by
  rw [currentSession_fst] at hc
  refine Bool.eq_false_iff.2 fun hallowed => ?_
  rw [heartbeat_allowed_iff, hc] at hallowed
  rcases hallowed with ⟨d, hd, hsame, -⟩ | hfree
  · exact hne (Option.some.inj hd ▸ hsame)
  · rw [(hfree c rfl).2.1] at ho
    cases ho

/-- The order of power reports, in every run that leaves each kiosk without an owner its place in
the store. -/
theorem power_reports_ordered (hroom : Along step Capacity init ls) (hr : run step init ls = some s) :
    RevisionsOrdered ls s ∧ RetiredBarred ls s ∧
      (∀ k now sample c, (currentSession k now s.state).1 = some c → c.owner.isSome →
        c.sessionId ≠ sample.sessionId →
        (heartbeatPowerSampleAllowed k (some sample) now s.state).1 = false) ∧
      ∀ k c, s.state.sessions.get? k = some c →
        (c.owner = none → ∀ id expires, c.retired.get? id = some expires → expires ≤ c.expiresAt) ∧
          c.retired.size ≤ MAX_RETIRED ∧ c.retired.contains c.sessionId = false := by
  refine ⟨revisions_ordered hr, retired_barred hroom hr, fun k now sample c hc ho hne =>
    heartbeat_owned hc ho hne, ?_⟩
  intro k c hc
  obtain ⟨hbounded, hcurrent, houtlived, -⟩ := run_sound hr k c hc
  refine ⟨fun ho id expires he => houtlived ho (id, expires) (OrdMap.get?_eq_some.1 he), hbounded, ?_⟩
  rw [OrdMap.contains, hcurrent]
  rfl

/-- A reboot: the viewer comes back as the process `b`, and its socket closes. -/
def reboot : List Label :=
  [⟨0, .bind "kiosk" 1 (some ⟨"a", 0⟩)⟩, ⟨10, .advance "kiosk" ⟨"a", 3⟩⟩,
    ⟨60000, .bind "kiosk" 2 (some ⟨"b", 0⟩)⟩, ⟨70000, .unbind "kiosk" 2 70000⟩]

theorem power_reports_ordered_reboot :
    ∃ s, run step init reboot = some s ∧ Along step Capacity init reboot ∧ RevisionsOrdered reboot s ∧
      (heartbeatPowerSampleAllowed "kiosk" (some ⟨"a", 9⟩) 80000 s.state).1 = false := by
  have hroom : Along step Capacity init reboot := by decide +kernel
  obtain ⟨hrevisions, hbarred, -⟩ := power_reports_ordered hroom rfl
  refine ⟨_, rfl, hroom, hrevisions,
    hbarred "kiosk" "a" (reboot.take 2) ⟨60000, .bind "kiosk" 2 (some ⟨"b", 0⟩)⟩
    [⟨70000, .unbind "kiosk" 2 70000⟩] _ _ rfl rfl rfl rfl ?_ (by decide +kernel) 80000 9 ?_ ?_⟩
  · rintro l hl ⟨o, sample, hbind, -⟩
    rw [List.mem_singleton.1 hl] at hbind
    cases hbind
  · show 70000 ≤ 80000
    omega
  · show 80000 < 60000 + 30 * 60000
    omega

end Laws

end PowerStateOrder
