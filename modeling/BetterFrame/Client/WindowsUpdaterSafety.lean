import BetterFrame.Lib.Run
import BetterFrame.Client.WindowsUpdater

/-!
# The Windows updater strands no display

`Allowed` says of each event what must have happened before it, and `Inv` ties the journal and the
attempt history on disk to the log. Every operation of `tick` and of `apply` keeps the invariant, and
so does a crash between any two (`Inv.step`).
-/

namespace WindowsUpdater

open Crash

/-! ### What the log says -/

/-- The event is a write of the journal. -/
def Event.isJournal : Event → Bool
  | .journal .. => true
  | _ => false

/-- The events under the journal that was written last. -/
def sinceJournal (log : List Event) : List Event := log.takeWhile fun e => !e.isJournal

/-- Author, previous and candidate of the journal that was written last. -/
def lastJournal (log : List Event) : Option (String × Artifact × Artifact) :=
  log.findSome? fun
    | .journal author previous candidate _ => some (author, previous, candidate)
    | _ => none

/-- The moment that the journal has noted for the latest installation under it. -/
def lastStart (log : List Event) : Option Int :=
  (sinceJournal log).findSome? fun
    | .installing started => some started
    | _ => none

/-- The candidate was run under the journal that was written last. -/
def Ran (log : List Event) : Prop := ∃ file key, .msiCandidate file key ∈ sinceJournal log

/-- The installed package may be a candidate that is not confirmed. -/
def atRisk : List Event → Bool
  | [] => false
  | .msiCandidate .. :: _ => true
  | .restored :: _ => false
  | .healthy .. :: _ => false
  | _ :: log => atRisk log

/-- The version and push request that an event is about. -/
def Event.about : Event → Option (String × Option String)
  | .offer version request => some (version, request)
  | .journal _ _ candidate request => some (candidate.version, request)
  | _ => none

/-- The events since the offered version or push request was another one. -/
def stretch (offer : String × Option String) (log : List Event) : List Event :=
  log.takeWhile fun e => e.about.all (· = offer)

def journals (log : List Event) : Nat := log.countP Event.isJournal

/-- What must have happened before an event. -/
def Allowed (P : Platform) (log : List Event) : Event → Prop
  | .journal author previous candidate request =>
    previous.version = author ∧ UpdatePolicy.is_version_upgrade P.semver candidate.version author = true ∧
      log.head? = some (.offer candidate.version request) ∧
        journals (stretch (candidate.version, request) log) < 3
  | .msiCandidate file key =>
    (∃ author previous candidate, lastJournal log = some (author, previous, candidate) ∧
      verify_file P file candidate key = .ok ()) ∧
    .rolledBack ∉ sinceJournal log ∧
    ∃ saved rest, log = .checked (some saved) saved.cancellation :: .stopped :: rest
  | .msiPrevious file key =>
    ∃ author previous candidate, lastJournal log = some (author, previous, candidate) ∧
      verify_file P file previous key = .ok ()
  | .removed =>
    (∃ health started now, .healthy health started now ∈ sinceJournal log) ∨ .restored ∈ sinceJournal log
  | .healthy health started now =>
    (∃ author previous candidate h, lastJournal log = some (author, previous, candidate) ∧ health = some h ∧
      h.version = candidate.version ∧ started ≤ h.at_ ∧ h.at_ ≤ now + 60) ∧
    lastStart log = some started ∧ Ran log
  | _ => True

/-- Every event of the history was allowed by those before it. -/
def Lawful (P : Platform) : List Event → Prop
  | [] => True
  | e :: log => Allowed P log e ∧ Lawful P log

/-- The journal on disk is the one that was written last; while it waits for the display's report,
its `started` is that of the latest installation, which has run the candidate. -/
def JournalKept (pending : Option Pending) (log : List Event) : Prop :=
  match pending with
  | none => lastJournal log = none ∨ .removed ∈ sinceJournal log
  | some p =>
    (∃ author, lastJournal log = some (author, p.previous, p.candidate)) ∧ .removed ∉ sinceJournal log ∧
    (.rolledBack ∈ sinceJournal log → p.stage = .rollback) ∧
    (p.stage = .awaitingHealth → lastStart log = some p.started ∧ Ran log)

/-- The attempts on disk cover the journals since the offer last changed. -/
def Counted (attempts : Option Attempts) (log : List Event) : Prop :=
  ∀ version request, 0 < journals (stretch (version, request) log) →
    ∃ a, attempts = some a ∧ a.version = version ∧ (request.isSome → a.request = request) ∧
      journals (stretch (version, request) log) ≤ a.count

/-- The log is lawful, and the journal and the attempts on disk are what it says. -/
structure Inv (P : Platform) (s : World) : Prop where
  lawful : Lawful P s.log
  pending : JournalKept s.pending s.log
  risk : atRisk s.log = true → s.pending.isSome = true
  attempts : Counted s.attempts s.log

/-- The journal, the attempts and the log are as they were. -/
structure Same (s t : World) : Prop where
  pending : t.pending = s.pending
  attempts : t.attempts = s.attempts
  log : t.log = s.log

/-- `Same`, and the installers too. -/
structure SameFiles (s t : World) : Prop extends Same s t where
  previous_msi : t.previous_msi = s.previous_msi
  candidate_msi : t.candidate_msi = s.candidate_msi

section Basics

variable {P : Platform} {s t u : World} {log : List Event} {e : Event}

@[simp] theorem sinceJournal_cons (he : e.isJournal = false) :
    sinceJournal (e :: log) = e :: sinceJournal log := by
  simp [sinceJournal, he]

@[simp] theorem sinceJournal_journal {author : String} {previous candidate : Artifact}
    {request : Option String} :
    sinceJournal (.journal author previous candidate request :: log) = [] := rfl

theorem lastJournal_cons (he : e.isJournal = false) : lastJournal (e :: log) = lastJournal log := by
  cases e <;> first | rfl | cases he

theorem lastStart_cons (he : e.isJournal = false) (hstart : ∀ t, e ≠ .installing t) :
    lastStart (e :: log) = lastStart log := by
  unfold lastStart
  rw [sinceJournal_cons he, List.findSome?_cons]
  cases e with
  | installing t => exact absurd rfl (hstart t)
  | _ => rfl

theorem Ran.cons (h : Ran log) (he : e.isJournal = false) : Ran (e :: log) := by
  obtain ⟨file, key, hmem⟩ := h
  exact ⟨file, key, by rw [sinceJournal_cons he]; exact List.mem_cons_of_mem _ hmem⟩

theorem stretch_cons {offer : String × Option String} (he : e.about = none) :
    stretch offer (e :: log) = e :: stretch offer log := by
  simp [stretch, he]

theorem stretch_cons_self {offer : String × Option String} (he : e.about = some offer) :
    stretch offer (e :: log) = e :: stretch offer log := by
  simp [stretch, he]

theorem stretch_cons_other {offer offer' : String × Option String} (he : e.about = some offer')
    (h : offer' ≠ offer) :
    stretch offer (e :: log) = [] := by
  simp [stretch, he, h]

theorem journals_cons (he : e.isJournal = false) : journals (e :: log) = journals log := by
  simp [journals, he]

theorem Same.refl (s : World) : Same s s := ⟨rfl, rfl, rfl⟩

theorem Same.trans (h : Same s t) (h' : Same t u) : Same s u :=
  ⟨h'.pending.trans h.pending, h'.attempts.trans h.attempts, h'.log.trans h.log⟩

theorem Inv.same (h : Inv P s) (hs : Same s t) : Inv P t := by
  obtain ⟨hp, ha, hl⟩ := hs
  exact ⟨hl ▸ h.lawful, hp ▸ hl ▸ h.pending, hp ▸ hl ▸ h.risk, ha ▸ hl ▸ h.attempts⟩

/-- A program that only looks. -/
theorem Inv.keeps {ε α : Type} {x : Prog ε World α} {Q : α → World → Prop} (hx : Keeps Same x) (h : Inv P s)
    (hQ : ∀ a t, Same s t → Q a t) : wp (Inv P) x Q (fun _ => Inv P) s :=
  hx.wp hQ (fun _ _ => h.same) fun _ => h.same

end Basics

/-! ### Programs that leave the journal, the attempts and the log alone -/

section Keeps

variable {P : Platform} {build : Build} {ε α β : Type}

theorem look_keeps : Keeps Same (look : Prog ε World Outside) := .look .refl fun _ _ _ => ⟨rfl, rfl, rfl⟩

theorem keeps_bind {x : Prog ε World α} {f : α → Prog ε World β} (hx : Keeps Same x)
    (hf : ∀ a, Keeps Same (f a)) :
    Keeps Same (x >>= f) := .bind (fun _ _ _ => Same.trans) hx hf

theorem keeps_pure {a : α} : Keeps Same (pure a : Prog ε World α) := .pure .refl

theorem keeps_throw {e : ε} : Keeps Same (Prog.throw e : Prog ε World α) := .throw .refl

theorem liftExcept_keeps {f : String → ε} {r : Except String α} : Keeps Same (liftExcept f r) := by
  rcases r with e | a
  · exact keeps_throw
  · exact keeps_pure

theorem endpoint_keeps {origin : String} : Keeps Same (endpoint P origin) := by
  unfold endpoint
  split
  · exact keeps_pure
  · exact keeps_throw

theorem public_check_keeps {origin : String} {policy : UpdatePolicy.Policy} {current : String} :
    Keeps Same (public_check P origin policy current) := by
  refine keeps_bind endpoint_keeps fun _ => keeps_bind look_keeps fun o => ?_
  split
  · exact keeps_throw
  · split
    · exact keeps_throw
    · exact keeps_pure

theorem recover_keeps {identity : Identity} {policy : Option UpdatePolicy.Policy} {current : String} :
    Keeps Same (recover P identity policy current) := by
  unfold recover
  split
  · exact keeps_throw
  · exact public_check_keeps

theorem check_keeps {identity : Identity} {policy : Option UpdatePolicy.Policy} {current : String} :
    Keeps Same (check P identity policy current) := by
  unfold check
  split
  · exact keeps_throw
  split
  · exact recover_keeps
  refine keeps_bind endpoint_keeps fun _ => keeps_bind look_keeps fun o => ?_
  split
  · exact recover_keeps
  · split
    · exact keeps_pure
    · exact keeps_throw
    · exact recover_keeps

theorem downloadResponse_keeps {identity : Identity} {info : Artifact} :
    Keeps Same (downloadResponse P identity info) := by
  refine keeps_bind endpoint_keeps fun _ => keeps_bind look_keeps fun o => ?_
  dsimp only
  split
  · exact keeps_pure
  · refine keeps_bind look_keeps fun o => ?_
    split
    · exact keeps_throw
    · exact keeps_pure

theorem download_keeps {identity : Identity} {info : Artifact} {key : String} {publish : File → World → World}
    (hpublish : ∀ bytes s, Same s (publish bytes s)) : Keeps Same (download P identity info key publish) := by
  refine keeps_bind downloadResponse_keeps fun response => ?_
  dsimp only
  split
  · exact keeps_throw
  split
  · exact keeps_throw
  split
  · exact keeps_throw
  · exact keeps_bind liftExcept_keeps fun _ => .write .refl (hpublish _)

theorem findIdentity_keeps : Keeps Same (findIdentity P) := by
  refine keeps_bind look_keeps fun o => ?_
  split
  · refine keeps_bind endpoint_keeps fun _ => keeps_bind (.write .refl fun _ => ⟨rfl, rfl, rfl⟩) fun _ =>
      keeps_pure
  · exact .read .refl

theorem writePolicy_keeps {policy : UpdatePolicy.Policy} {cancellation : Option String} :
    Keeps Same (writePolicy policy cancellation) := .write .refl fun _ => ⟨rfl, rfl, rfl⟩

theorem recheck_keeps {offer : Offer} : Keeps Same (recheck P build offer) := by
  refine keeps_bind look_keeps fun o => ?_
  split
  · exact keeps_pure
  refine keeps_bind check_keeps fun fresh => keeps_bind look_keeps fun o => ?_
  split
  · exact keeps_pure
  refine keeps_bind look_keeps fun o => ?_
  split
  · exact keeps_pure
  refine keeps_bind ?_ fun _ => keeps_bind look_keeps fun o => ?_
  · split
    · exact writePolicy_keeps
    · exact keeps_pure
  · split <;> exact keeps_pure

theorem fetchCandidate_keeps {offer : Offer} {key : String} : Keeps Same (fetchCandidate P offer key) :=
  keeps_bind (download_keeps fun _ _ => ⟨rfl, rfl, rfl⟩) fun _ => keeps_bind (.read .refl) fun _ =>
    liftExcept_keeps

end Keeps

/-! ### The events one by one -/

section Events

variable {P : Platform} {s t : World} {log : List Event} {e : Event} {pending : Option Pending}
  {attempts : Option Attempts} {p q : Pending}

/-- An event that says nothing of the journal. -/
theorem JournalKept.cons (h : JournalKept pending log) (he : e.isJournal = false) (hremoved : e ≠ .removed)
    (hrolled : e ≠ .rolledBack) (hstart : ∀ t, e ≠ .installing t) : JournalKept pending (e :: log) := by
  rcases pending with _ | p
  · refine h.imp (fun hl => (lastJournal_cons he).trans hl) fun hr => ?_
    rw [sinceJournal_cons he]
    exact List.mem_cons_of_mem _ hr
  · obtain ⟨⟨author, hl⟩, hr, hst, hwaits⟩ := h
    refine ⟨⟨author, (lastJournal_cons he).trans hl⟩, ?_, fun hmem => hst ?_, fun hstage => ?_⟩
    · rw [sinceJournal_cons he, List.mem_cons, not_or]
      exact ⟨hremoved.symm, hr⟩
    · rw [sinceJournal_cons he, List.mem_cons] at hmem
      exact hmem.resolve_left hrolled.symm
    · obtain ⟨hlast, hran⟩ := hwaits hstage
      exact ⟨(lastStart_cons he hstart).trans hlast, hran.cons he⟩

theorem Counted.cons (h : Counted attempts log) (he : e.about = none) (hj : e.isJournal = false) :
    Counted attempts (e :: log) := by
  intro version request
  rw [stretch_cons he, journals_cons hj]
  exact h version request

theorem Counted.offer {version : String} {request : Option String} (h : Counted attempts log) :
    Counted attempts (.offer version request :: log) := by
  intro v r hpos
  by_cases heq : (version, request) = (v, r)
  · obtain ⟨rfl, rfl⟩ := Prod.mk.inj heq
    rw [stretch_cons_self rfl, journals_cons rfl] at hpos ⊢
    exact h version request hpos
  · rw [stretch_cons_other rfl heq] at hpos
    exact absurd hpos (Nat.lt_irrefl 0)

/-- An event that neither puts the installation at risk nor says anything of the journal. -/
theorem Inv.event (h : Inv P s) (hallowed : Allowed P s.log e) (he : e.isJournal = false)
    (habout : e.about = none)
    (hremoved : e ≠ .removed) (hrolled : e ≠ .rolledBack) (hstart : ∀ t, e ≠ .installing t)
    (hrisk : atRisk (e :: s.log) = true → s.pending.isSome = true) : Inv P { s with log := e :: s.log } :=
  ⟨⟨hallowed, h.lawful⟩, h.pending.cons he hremoved hrolled hstart, hrisk, h.attempts.cons habout he⟩

theorem Inv.offer (h : Inv P s) (version : String) (request : Option String) :
    Inv P { s with log := .offer version request :: s.log } :=
  ⟨⟨trivial, h.lawful⟩, h.pending.cons rfl (by simp) (by simp) (by simp), h.risk, h.attempts.offer⟩

/-- The journal is written again, at a stage from which it can be written. -/
theorem Inv.writePending (h : Inv P s) (hp : s.pending = some p) (hprevious : q.previous = p.previous)
    (hcandidate : q.candidate = p.candidate) (hstage : .rolledBack ∈ sinceJournal s.log → q.stage = .rollback)
    (hwaits : q.stage = .awaitingHealth → lastStart s.log = some q.started ∧ Ran s.log) :
    Inv P { s with pending := some q } := by
  have hkept := h.pending
  rw [hp] at hkept
  obtain ⟨⟨author, hl⟩, hr, -⟩ := hkept
  have hl : lastJournal s.log = some (author, q.previous, q.candidate) := by
    rw [hprevious, hcandidate]; exact hl
  exact ⟨h.lawful, ⟨⟨author, hl⟩, hr, hstage, hwaits⟩, fun _ => rfl, h.attempts⟩

/-- The journal is written again with the moment at which an installation starts. -/
theorem Inv.writeStarted (h : Inv P s) (hp : s.pending = some p) (hprevious : q.previous = p.previous)
    (hcandidate : q.candidate = p.candidate) (hlive : .rolledBack ∉ sinceJournal s.log)
    (hran : q.stage = .awaitingHealth → Ran s.log) :
    Inv P { s with pending := some q, log := .installing q.started :: s.log } := by
  have hkept := h.pending
  rw [hp] at hkept
  obtain ⟨⟨author, hl⟩, hr, -⟩ := hkept
  refine ⟨⟨trivial, h.lawful⟩,
    ⟨⟨author, ?_⟩, ?_, fun hmem => ?_, fun hstage => ⟨?_, (hran hstage).cons rfl⟩⟩, fun _ => rfl,
    h.attempts.cons rfl rfl⟩
  · rw [lastJournal_cons rfl, hprevious, hcandidate]
    exact hl
  · rw [sinceJournal_cons rfl, List.mem_cons, not_or]
    exact ⟨by simp, hr⟩
  · rw [sinceJournal_cons rfl, List.mem_cons] at hmem
    exact absurd (hmem.resolve_left (by simp)) hlive
  · rw [lastStart, sinceJournal_cons rfl]
    rfl

theorem Inv.writeRollback (h : Inv P s) (hp : s.pending = some p) (hprevious : q.previous = p.previous)
    (hcandidate : q.candidate = p.candidate) :
    Inv P { s with pending := some { q with stage := .rollback }, log := .rolledBack :: s.log } := by
  have hkept := h.pending
  rw [hp] at hkept
  obtain ⟨⟨author, hl⟩, hr, -⟩ := hkept
  refine ⟨⟨trivial, h.lawful⟩, ⟨⟨author, ?_⟩, ?_, fun _ => rfl, nofun⟩, fun _ => rfl, h.attempts.cons rfl rfl⟩
  · rw [lastJournal_cons rfl, hprevious, hcandidate]
    exact hl
  · rw [sinceJournal_cons rfl, List.mem_cons, not_or]
    exact ⟨by simp, hr⟩

/-- The display reports the version of the journal's candidate, since the moment that the journal
has noted. -/
theorem Inv.allowed_healthy (h : Inv P s) (hp : s.pending = some p) (hcandidate : p.candidate = q.candidate)
    (hstart : lastStart s.log = some q.started) (hran : Ran s.log) {o : Outside}
    (hhealthy : healthy o q = true) :
    Allowed P s.log (.healthy o.health q.started o.now) := by
  have hkept := h.pending
  rw [hp] at hkept
  obtain ⟨⟨author, hlast⟩, -, -⟩ := hkept
  unfold healthy at hhealthy
  split at hhealthy
  · cases hhealthy
  · next health hhealth =>
    simp only [Bool.and_eq_true, decide_eq_true_eq] at hhealthy
    obtain ⟨⟨hversion, hsince⟩, hnow⟩ := hhealthy
    exact ⟨⟨author, p.previous, p.candidate, health, hlast,
      hhealth, by rw [hcandidate]; exact hversion, hsince, hnow⟩, hstart, hran⟩

theorem Inv.removePending (h : Inv P s) (hallowed : Allowed P s.log .removed) (hrisk : atRisk s.log = false) :
    Inv P { s with pending := none, log := .removed :: s.log } := by
  refine ⟨⟨hallowed, h.lawful⟩, .inr ?_, fun hr => ?_, h.attempts.cons rfl rfl⟩
  · rw [sinceJournal_cons rfl]
    exact List.mem_cons_self ..
  · rw [show atRisk (.removed :: s.log) = atRisk s.log from rfl, hrisk] at hr
    cases hr

end Events

/-! ### The service -/

section Tick

variable {P : Platform} {build : Build} {s : World} {p q : Pending}

theorem wp_liftExcept {ε α : Type} {f : String → ε} {r : Except String α} {C : World → Prop}
    {Q : α → World → Prop}
    {E : ε → World → Prop} (hok : ∀ a, r = .ok a → Q a s) (herr : ∀ e, E (f e) s) :
    wp C (liftExcept f r) Q E s := by
  rcases r with e | a
  · exact wp_throw (herr _)
  · exact wp_pure (hok a rfl)

theorem handOverRollback_inv (h : Inv P s) (hp : s.pending = some p) (hprevious : q.previous = p.previous)
    (hcandidate : q.candidate = p.candidate) :
    wp (Inv P) (handOverRollback q) (fun _ => Inv P) (fun _ => Inv P) s := by
  refine wp_bind (wp_write ?_ h h)
  have h' := h.writeRollback hp hprevious hcandidate
  exact wp_bind (wp_write (wp_pure h') h' h')

theorem tickPending_inv (h : Inv P s) (hp : s.pending = some p) :
    wp (Inv P) (tickPending build p) (fun _ => Inv P) (fun _ => Inv P) s := by
  unfold tickPending
  split
  · next hstage =>
    refine wp_bind (h.keeps look_keeps fun o t ht => ?_)
    have h := h.same ht
    have hp : t.pending = some p := ht.pending.trans hp
    split
    · -- a healthy display confirms the candidate
      next hhealthy =>
      have hkept := h.pending
      rw [hp] at hkept
      obtain ⟨hstart, hran⟩ := hkept.2.2.2 hstage.1
      have h' := h.event (h.allowed_healthy hp rfl hstart hran hhealthy) rfl rfl (by simp) (by simp)
        (by simp) (fun hr => by cases hr)
      refine wp_bind (wp_note ?_ h)
      refine wp_bind (wp_write ?_ h' h')
      refine wp_pure (h'.removePending (.inl ⟨o.health, p.started, o.now, ?_⟩) rfl)
      rw [sinceJournal_cons rfl]
      exact List.mem_cons_self ..
    · refine wp_bind (h.keeps look_keeps fun o t ht => ?_)
      have h := h.same ht
      have hp : t.pending = some p := ht.pending.trans hp
      split
      · exact wp_pure h
      · refine wp_bind (h.keeps look_keeps fun o t ht => ?_)
        have h := h.same ht
        have hp : t.pending = some p := ht.pending.trans hp
        have hkept := h.pending
        rw [hp] at hkept
        have h' := h.writePending (q := { p with health_started := some (p.health_started.getD o.now) })
          hp rfl rfl
          hkept.2.2.1 hkept.2.2.2
        refine wp_bind (wp_write ?_ h h)
        refine wp_bind (h'.keeps look_keeps fun o t ht => ?_)
        split
        · exact wp_pure (h'.same ht)
        · exact handOverRollback_inv (h'.same ht) ht.pending rfl rfl
  · exact handOverRollback_inv h hp rfl rfl

/-- The attempts that a tick counts cover the journals since the offer last changed. -/
structure Covers (a : Attempts) (offer : Offer) (log : List Event) : Prop where
  version : a.version = offer.candidate.version
  request : offer.push_request.isSome → a.request = offer.push_request
  journals : journals (stretch (offer.candidate.version, offer.push_request) log) ≤ a.count

theorem Counted.covers {attempts : Option Attempts} {log : List Event} (h : Counted attempts log)
    (offer : Offer)
    {a : Attempts} (ha : attempts = some a ∨ attempts = none) : Covers (offer.attempts a) offer log := by
  have hcount := h offer.candidate.version offer.push_request
  -- a journal since the offer last changed was counted by these attempts
  have hthis : 0 < journals (stretch (offer.candidate.version, offer.push_request) log) →
      a.version = offer.candidate.version ∧ (offer.push_request.isSome → a.request = offer.push_request) ∧
        journals (stretch (offer.candidate.version, offer.push_request) log) ≤ a.count := by
    intro hpos
    obtain ⟨a', ha', hfacts⟩ := hcount hpos
    rcases ha with ha | ha
    · obtain rfl := Option.some.inj (ha.symm.trans ha')
      exact hfacts
    · rw [ha] at ha'
      cases ha'
  unfold Offer.attempts
  split
  · next hreset =>
    refine ⟨rfl, fun _ => rfl, Nat.le_of_not_lt fun hpos => ?_⟩
    obtain ⟨hversion, hrequest, -⟩ := hthis hpos
    exact hreset.elim (fun hne => hne hversion) fun hne => hne.2 (hrequest hne.1)
  · next hsame =>
    simp only [not_or, not_and] at hsame
    refine ⟨not_not.1 hsame.1, fun hr => not_not.1 (hsame.2 hr), ?_⟩
    rcases Nat.eq_zero_or_pos
      (journals (stretch (offer.candidate.version, offer.push_request) log)) with h0 | hpos
    · omega
    · exact (hthis hpos).2.2

theorem readAttempts_inv {Q : Attempts → World → Prop} (h : Inv P s)
    (hQ : ∀ a, s.attempts = some a ∨ s.attempts = none → Q a s) :
    wp (Inv P) readAttempts Q (fun _ => Inv P) s := by
  refine wp_bind (wp_get ?_ h)
  split
  · next hnone => exact wp_pure (hQ _ (.inr hnone))
  · next a ha =>
    refine wp_bind (wp_read ?_ (wp_throw h) h)
    rw [ha]
    exact wp_pure (hQ a (.inl ha))

/-- What a tick goes on with after `findOffer`. -/
structure Offer.Ready (P : Platform) (build : Build) (offer : Offer) (t : World) : Prop where
  pending : t.pending = none
  last : t.log.head? = some (.offer offer.candidate.version offer.push_request)
  upgrade : UpdatePolicy.is_version_upgrade P.semver offer.candidate.version build.VERSION = true

theorem findOffer_inv (h : Inv P s) (hp : s.pending = none) :
    wp (Inv P) (findOffer P build) (fun r t => Inv P t ∧ ∀ offer, r = .inr offer → offer.Ready P build t)
      (fun _ => Inv P) s := by
  have hstop : ∀ {t : World} {delay : Nat}, Same s t → wp (Inv P) (pure (.inl delay) : Tick (Nat ⊕ Offer))
      (fun r t => Inv P t ∧ ∀ offer, r = .inr offer → offer.Ready P build t) (fun _ => Inv P) t :=
    fun ht => wp_pure ⟨h.same ht, fun _ hr => by cases hr⟩
  refine wp_bind (h.keeps findIdentity_keeps fun found t ht => ?_)
  split
  · exact hstop ht
  split
  · exact hstop ht
  refine wp_bind ((h.same ht).keeps look_keeps fun o u hu => ?_)
  have ht := ht.trans hu
  refine wp_bind ((h.same ht).keeps (.read .refl) fun saved u hu => ?_)
  have ht := ht.trans hu
  refine wp_bind ((h.same ht).keeps check_keeps fun offered u hu => ?_)
  have ht := ht.trans hu
  refine wp_bind ((h.same ht).keeps look_keeps fun o' u hu => ?_)
  have ht := ht.trans hu
  split
  · exact hstop ht
  refine wp_bind ((h.same ht).keeps ?_ fun _ u hu => ?_)
  · split
    · exact writePolicy_keeps
    · exact keeps_pure
  have ht := ht.trans hu
  split
  · exact wp_throw (h.same ht)
  split
  · exact hstop ht
  refine wp_bind ((h.same ht).keeps look_keeps fun o' u hu => ?_)
  have ht := ht.trans hu
  split
  · exact hstop ht
  split
  · exact wp_throw (h.same ht)
  next candidate _ =>
  have h := h.same ht
  refine wp_bind (wp_liftExcept (fun _ hvalid => ?_) fun _ => h)
  have hupgrade : UpdatePolicy.is_version_upgrade P.semver candidate.version build.VERSION = true := by
    unfold validate_offer at hvalid
    split at hvalid
    · cases hvalid
    · next hup => simpa using hup
  refine wp_bind (wp_note (wp_pure ⟨h.offer _ _, fun offer hr => ?_⟩) h)
  cases hr
  exact ⟨ht.pending.trans hp, rfl, hupgrade⟩

/-- The rollback artifact has the version of this build. -/
theorem fetchPrevious_inv {offer : Offer} {key : String} (h : Inv P s) :
    wp (Inv P) (fetchPrevious P build offer key)
    (fun previous t => Same s t ∧ previous.version = build.VERSION)
      (fun _ => Inv P) s := by
  refine wp_bind (h.keeps public_check_keeps fun found t ht => ?_)
  split
  · exact wp_throw (h.same ht)
  split
  · exact wp_throw (h.same ht)
  next previous _ hversion =>
  refine wp_bind (wp_liftExcept (fun _ _ => ?_) fun _ => h.same ht)
  refine wp_bind ((h.same ht).keeps (.read .refl) fun file u hu => ?_)
  have ht := ht.trans hu
  refine wp_bind ((h.same ht).keeps ?_ fun _ u hu => ?_)
  · split
    · exact keeps_pure
    · exact download_keeps fun _ _ => ⟨rfl, rfl, rfl⟩
  have ht := ht.trans hu
  refine wp_bind ((h.same ht).keeps (.read .refl) fun file u hu => ?_)
  have ht := ht.trans hu
  exact wp_bind (wp_liftExcept (fun _ _ => wp_pure ⟨ht, not_not.1 hversion⟩) fun _ => h.same ht)

theorem beginInstall_inv {offer : Offer} {attempts : Attempts} {previous : Artifact} (h : Inv P s)
    (hready : offer.Ready P build s) (hcovers : Covers attempts offer s.log) (hlimit : attempts.count < 3)
    (hprevious : previous.version = build.VERSION) :
    wp (Inv P) (beginInstall build offer attempts previous) (fun _ => Inv P) (fun _ => Inv P) s := by
  have hlast := hready.last
  obtain ⟨rest, hlog⟩ : ∃ rest, s.log = .offer offer.candidate.version offer.push_request :: rest := by
    rcases hl : s.log with _ | ⟨e, rest⟩
    · simp [hl] at hlast
    · exact ⟨rest, by simpa [hl] using hlast⟩
  have hcount := hcovers.journals
  refine wp_bind (h.keeps look_keeps fun o t ht => ?_)
  have h := h.same ht
  -- only journals of this very offer are counted now
  have hcounted : ∀ version request, 0 < journals (stretch (version, request) t.log) →
      (version, request) = (offer.candidate.version, offer.push_request) := by
    intro version request hpos
    by_contra hne
    rw [ht.log, hlog, stretch_cons_other rfl fun heq => hne heq.symm] at hpos
    exact absurd hpos (Nat.lt_irrefl 0)
  have h' : Inv P { t with
      attempts := some { attempts with count := attempts.count + 1, retry_at := o.now + 1800 } } := by
    refine ⟨h.lawful, h.pending, h.risk, fun version request hpos => ?_⟩
    obtain ⟨rfl, rfl⟩ := Prod.mk.inj (hcounted version request hpos)
    refine ⟨_, rfl, hcovers.version, hcovers.request, ?_⟩
    show journals (stretch _ t.log) ≤ attempts.count + 1
    rw [ht.log]
    omega
  refine wp_bind (wp_write ?_ h h)
  refine wp_bind (h'.keeps look_keeps fun o' u hu => ?_)
  have hlog' : u.log = s.log := hu.log.trans ht.log
  have h'' : Inv P { u with
      pending := some ⟨previous, offer.candidate, .installing, o'.now, none, []⟩
      log := .journal build.VERSION previous offer.candidate offer.push_request :: u.log } := by
    refine ⟨⟨⟨hprevious, hready.upgrade, by rw [hlog']; exact hlast, ?_⟩, (h'.same hu).lawful⟩,
      ⟨⟨_, rfl⟩, ?_, ?_, nofun⟩, fun _ => rfl, fun version request hpos => ?_⟩
    · rw [hlog']
      omega
    · simp
    · simp
    · by_cases heq : (offer.candidate.version, offer.push_request) = (version, request)
      · obtain ⟨rfl, rfl⟩ := Prod.mk.inj heq
        refine ⟨_, hu.attempts, hcovers.version, hcovers.request, ?_⟩
        rw [stretch_cons_self rfl, hlog']
        have hstep : journals (.journal build.VERSION previous offer.candidate offer.push_request ::
            stretch (offer.candidate.version, offer.push_request) s.log) =
            journals (stretch (offer.candidate.version, offer.push_request) s.log) + 1 :=
              List.countP_cons_of_pos rfl
        show _ ≤ attempts.count + 1
        omega
      · rw [stretch_cons_other rfl heq] at hpos
        exact absurd hpos (Nat.lt_irrefl 0)
  refine wp_bind (wp_write ?_ (h'.same hu) (h'.same hu))
  exact wp_bind (wp_write (wp_pure h'') h'' h'')

theorem Offer.Ready.same {offer : Offer} {t : World} (h : offer.Ready P build s) (ht : Same s t) :
    offer.Ready P build t := ⟨ht.pending.trans h.pending, by rw [ht.log]; exact h.last, h.upgrade⟩

theorem tickOffer_inv (h : Inv P s) (hp : s.pending = none) :
    wp (Inv P) (tickOffer P build) (fun _ => Inv P) (fun _ => Inv P) s := by
  refine wp_bind ((findOffer_inv h hp).mono (fun found t hfound => ?_) (fun _ _ h => h) fun _ h => h)
  obtain ⟨h, hoffer⟩ := hfound
  split
  · exact wp_pure h
  next offer =>
  have hready := hoffer offer rfl
  refine wp_bind (readAttempts_inv h fun a ha => ?_)
  have hcovers := h.attempts.covers offer ha
  refine wp_bind (h.keeps look_keeps fun o u ht => ?_)
  split
  · exact wp_pure (h.same ht)
  next hopen =>
  split
  · exact wp_throw (h.same ht)
  refine wp_bind ((fetchPrevious_inv (h.same ht)).mono (fun previous u hprevious => ?_)
    (fun _ _ h => h) fun _ h => h)
  obtain ⟨hu, hversion⟩ := hprevious
  have ht := ht.trans hu
  refine wp_bind ((h.same ht).keeps fetchCandidate_keeps fun _ u hu => ?_)
  have ht := ht.trans hu
  refine wp_bind ((h.same ht).keeps recheck_keeps fun stop u hu => ?_)
  have ht := ht.trans hu
  split
  · exact wp_pure (h.same ht)
  · exact beginInstall_inv (h.same ht) (hready.same ht) (by rw [ht.log]; exact hcovers)
      (Nat.lt_of_not_le fun hle => hopen (.inl hle)) hversion

theorem tick_inv (h : Inv P s) : wp (Inv P) (tick P build) (fun _ => Inv P) (fun _ => Inv P) s := by
  refine wp_bind (wp_get ?_ h)
  split
  · next p hp =>
    refine wp_bind (wp_read ?_ (wp_throw h) h)
    rw [hp]
    exact tickPending_inv h hp
  · next hp => exact tickOffer_inv h hp

end Tick

/-! ### The helper -/

section Apply

variable {P : Platform} {key : String} {p q : Pending} {s t : World}

theorem SameFiles.refl (s : World) : SameFiles s s := ⟨.refl s, rfl, rfl⟩

theorem wp_look {ε : Type} {C : World → Prop} {Q : Outside → World → Prop} {E : ε → World → Prop}
    (hQ : ∀ o t, SameFiles s t → Q o t) (hC : C s) : wp C look Q E s :=
  Crash.wp_look (hQ _ _ (.refl s)) (fun _ _ _ => hQ _ _ ⟨⟨rfl, rfl, rfl⟩, rfl, rfl⟩) hC

/-- The helper works on the journal of `p` and has verified the previous installer. -/
structure Ready (P : Platform) (key : String) (p : Pending) (t : World) : Prop where
  inv : Inv P t
  pending : ∃ q, t.pending = some q ∧ q.previous = p.previous ∧ q.candidate = p.candidate
  previous : verify_file P t.previous_msi p.previous key = .ok ()

theorem Ready.same (h : Ready P key p s) (hs : SameFiles s t) : Ready P key p t :=
  ⟨h.inv.same hs.toSame, by rw [hs.pending]; exact h.pending, by rw [hs.previous_msi]; exact h.previous⟩

theorem Ready.fails (h : Ready P key p s) (hprevious : q.previous = p.previous)
    (hcandidate : q.candidate = p.candidate) :
    Ready P key q s :=
  ⟨h.inv, by rw [hprevious, hcandidate]; exact h.pending, by rw [hprevious]; exact h.previous⟩

/-- Besides, the update was not given up yet, and its candidate was run if the journal says so. -/
structure Installing (P : Platform) (key : String) (p : Pending) (t : World) :
    Prop extends Ready P key p t where
  live : .rolledBack ∉ sinceJournal t.log
  ran : p.stage = .awaitingHealth → Ran t.log

theorem Installing.same (h : Installing P key p s) (hs : SameFiles s t) : Installing P key p t :=
  ⟨h.toReady.same hs, by rw [hs.log]; exact h.live, by rw [hs.log]; exact h.ran⟩

/-- The helper has noted in the journal when its installation has started. -/
structure Started (P : Platform) (key : String) (p : Pending) (t : World) :
    Prop extends Installing P key p t where
  started : lastStart t.log = some p.started

theorem Started.same (h : Started P key p s) (hs : SameFiles s t) : Started P key p t :=
  ⟨h.toInstalling.same hs, by rw [hs.log]; exact h.started⟩

theorem Installing.start (h : Installing P key p s) (hprevious : q.previous = p.previous)
    (hcandidate : q.candidate = p.candidate) (hstage : q.stage = p.stage) :
    Started P key q { s with pending := some q, log := .installing q.started :: s.log } := by
  obtain ⟨q', hq', hp, hc⟩ := h.pending
  have hran : q.stage = .awaitingHealth → Ran s.log := fun hq => h.ran (hstage.symm.trans hq)
  refine ⟨⟨⟨h.inv.writeStarted hq' (hprevious.trans hp.symm) (hcandidate.trans hc.symm) h.live hran,
    ⟨q, rfl, rfl, rfl⟩, ?_⟩, ?_, fun hq => (hran hq).cons rfl⟩, ?_⟩
  · rw [hprevious]
    exact h.previous
  · rw [sinceJournal_cons rfl, List.mem_cons, not_or]
    exact ⟨by simp, h.live⟩
  · rw [lastStart, sinceJournal_cons rfl]
    rfl

/-- The journal is written again, with the same artifacts and the same start. -/
theorem Started.write (h : Started P key p s) (hprevious : q.previous = p.previous)
    (hcandidate : q.candidate = p.candidate) (hstarted : q.started = p.started)
    (hran : q.stage = .awaitingHealth → Ran s.log) : Started P key q { s with pending := some q } := by
  obtain ⟨q', hq', hp, hc⟩ := h.pending
  have hstart : lastStart s.log = some q.started := h.started.trans (congrArg some hstarted.symm)
  refine ⟨⟨⟨h.inv.writePending hq' (hprevious.trans hp.symm) (hcandidate.trans hc.symm)
    (fun hr => absurd hr h.live)
    fun hq => ⟨hstart, hran hq⟩, ⟨q, rfl, rfl, rfl⟩, ?_⟩, h.live, hran⟩, hstart⟩
  rw [hprevious]
  exact h.previous

theorem Started.event {e : Event} (h : Started P key p s) (hallowed : Allowed P s.log e)
    (he : e.isJournal = false) (habout : e.about = none) (hremoved : e ≠ .removed) (hrolled : e ≠ .rolledBack)
    (hstart : ∀ t, e ≠ .installing t) : Started P key p { s with log := e :: s.log } := by
  obtain ⟨q, hq, hfacts⟩ := h.pending
  refine ⟨⟨⟨h.inv.event hallowed he habout hremoved hrolled hstart fun _ => Option.isSome_of_eq_some hq,
    ⟨q, hq, hfacts⟩,
    h.previous⟩, ?_, fun hp => (h.ran hp).cons he⟩, (lastStart_cons he hstart).trans h.started⟩
  rw [sinceJournal_cons he, List.mem_cons, not_or]
  exact ⟨hrolled.symm, h.live⟩

theorem rollback_inv (h : Ready P key p s) :
    wp (Inv P) (rollback p key) (fun _ => Inv P) (fun _ => Inv P) s := by
  obtain ⟨q, hq, hprevious, hcandidate⟩ := h.pending
  have hkept := h.inv.pending
  rw [hq] at hkept
  obtain ⟨⟨author, hlast⟩, -, -⟩ := hkept
  have h₁ := h.inv.writeRollback (q := p) hq hprevious.symm hcandidate.symm
  have hlast₁ : lastJournal (.rolledBack :: s.log) = some (author, p.previous, p.candidate) := by
    rw [lastJournal_cons rfl, hlast, hprevious, hcandidate]
  refine wp_bind (wp_write ?_ h.inv h.inv)
  refine wp_bind (wp_write ?_ h₁ h₁)
  have h₂ := h₁.event (e := .msiPrevious s.previous_msi key) ⟨author, p.previous, p.candidate,
    hlast₁, h.previous⟩
    rfl rfl (by simp) (by simp) (by simp) fun _ => rfl
  refine wp_bind (wp_note ?_ h₁)
  -- from here on the previous package is the one that is installed
  have h₃ := h₂.event (e := .restored) trivial rfl rfl (by simp) (by simp) (by simp) fun hr => by cases hr
  refine wp_bind (wp_write ?_ h₂ h₂)
  refine wp_bind (wp_write ?_ h₃ h₃)
  refine wp_write (h₃.removePending (.inr ?_) rfl) h₃ h₃
  rw [sinceJournal_cons rfl]
  exact List.mem_cons_self ..

theorem awaitHealth_inv (n : Nat) (h : Started P key p s) (hstage : p.stage = .awaitingHealth) :
    wp (Inv P) (awaitHealth p n) (fun _ => Inv P) (fun e => Ready P key e.2) s := by
  induction n generalizing s with
  | zero => exact wp_throw h.toReady
  | succ n ih =>
    refine wp_bind (wp_look (fun o t ht => ?_) h.inv)
    have h := h.same ht
    split
    · next hhealthy =>
      obtain ⟨q, hq, -, hqc⟩ := h.pending
      have h' := h.event (h.inv.allowed_healthy hq hqc h.started (h.ran hstage) hhealthy) rfl rfl
        (by simp) (by simp) (by simp)
      refine wp_bind (wp_note ?_ h.inv)
      refine wp_write (h'.inv.removePending (.inl ⟨o.health, p.started, o.now, ?_⟩) rfl) h'.toReady h'.inv
      rw [sinceJournal_cons rfl]
      exact List.mem_cons_self ..
    · refine wp_bind (wp_look (fun o t ht => ?_) h.inv)
      have h := h.same ht
      split
      · exact wp_pure h.inv
      · exact ih h

/-- An installation that fails leaves the helper ready to roll back. -/
theorem install_inv (h : Installing P key p s) :
    wp (Inv P) (install P p key) (fun _ => Inv P) (fun e => Ready P key e.2) s := by
  refine wp_bind (wp_read_or (fun file hfile => ?_) h.inv)
  refine wp_bind (wp_liftExcept (fun _ hverify => ?_) fun _ => h.toReady)
  have hverify : verify_file P s.candidate_msi p.candidate key = .ok () := by
    rcases hfile with rfl | rfl
    · exact hverify
    · cases hverify
  refine wp_bind (wp_read_or (fun file' _ => ?_) h.inv)
  refine wp_bind (wp_liftExcept (fun _ _ => ?_) fun _ => h.toReady)
  refine wp_bind (wp_look (fun o₁ t₁ ht₁ => ?_) h.inv)
  have h := h.same ht₁
  refine wp_bind (wp_look (fun o₂ t₂ ht₂ => ?_) h.inv)
  have h := h.same ht₂
  have hmsi : t₂.candidate_msi = s.candidate_msi := ht₂.candidate_msi.trans ht₁.candidate_msi
  -- the sessions are written down, the clients are stopped, and their sessions are written down too
  have h₃ := h.start (q := { p with sessions := o₁.sessions, started := o₂.now }) rfl rfl rfl
  refine wp_bind (wp_write ?_ (h.fails rfl rfl) h.inv)
  refine wp_bind (wp_write ?_ h₃.toReady h₃.inv)
  have h₄ := h₃.event (e := .stopped) trivial rfl rfl (by simp) (by simp) (by simp)
  refine wp_bind (wp_note ?_ h₃.inv)
  refine wp_bind (wp_look (fun o₅ t₅ ht₅ => ?_) h₄.inv)
  have h₅ := h₄.same ht₅
  have h₆ := h₅.write (q := { p with
    sessions := o₁.sessions ++ o₅.sessions.filter (· ∉ o₁.sessions), started := o₂.now }) rfl rfl rfl h₅.ran
  refine wp_bind (wp_write ?_ (h₅.fails rfl rfl) h₅.inv)
  refine wp_bind (wp_look (fun o₇ t₇ ht₇ => ?_) h₆.inv)
  have h₇ := h₆.same ht₇
  refine wp_bind (wp_read_or (fun saved _ => ?_) h₇.inv)
  have h₈ := h₇.event (e := .checked saved o₇.cancellation) trivial rfl rfl (by simp) (by simp) (by simp)
  refine wp_bind (wp_note ?_ h₇.inv)
  split
  · exact wp_throw h₈.toReady
  next hpolicy =>
  -- the saved policy is there and has the token that was read
  obtain ⟨policy, rfl, htoken⟩ : ∃ policy, saved = some policy ∧ policy.cancellation = o₇.cancellation := by
    rcases saved with _ | policy
    · simp at hpolicy
    · exact ⟨policy, rfl, by simpa using hpolicy⟩
  have hmsi₇ : t₇.candidate_msi = s.candidate_msi := by
    rw [ht₇.candidate_msi, ← hmsi]; exact ht₅.candidate_msi
  have hlog₇ : t₇.log = .stopped :: .installing o₂.now :: t₂.log := ht₇.log.trans ht₅.log
  obtain ⟨q, hq, -, hqc⟩ := h₈.pending
  have hkept := h₈.inv.pending
  rw [hq] at hkept
  obtain ⟨⟨author, hlast⟩, -, -⟩ := hkept
  have hallowed : Allowed P (.checked (some policy) o₇.cancellation :: t₇.log)
      (.msiCandidate t₇.candidate_msi key) :=
    ⟨⟨author, _, q.candidate, hlast, by rw [hmsi₇, hqc]; exact hverify⟩, h₈.live,
      policy, .installing o₂.now :: t₂.log, by rw [htoken, hlog₇]⟩
  have h₉ := h₈.event hallowed rfl rfl (by simp) (by simp) (by simp)
  have hran : Ran (.msiCandidate t₇.candidate_msi key :: .checked (some policy) o₇.cancellation :: t₇.log) :=
    ⟨_, _, by rw [sinceJournal_cons rfl]; exact List.mem_cons_self⟩
  refine wp_bind (wp_note ?_ h₈.inv)
  refine wp_bind (wp_write ?_ h₉.toReady h₉.inv)
  refine wp_bind (wp_write ?_ h₉.toReady h₉.inv)
  refine wp_bind (wp_write ?_ h₉.toReady h₉.inv)
  refine wp_bind (wp_write ?_ h₉.toReady h₉.inv)
  have hx := h₉.write (q := { p with
    sessions := o₁.sessions ++ o₅.sessions.filter (· ∉ o₁.sessions), started := o₂.now,
    stage := .awaitingHealth }) rfl rfl rfl
    fun _ => hran
  refine wp_bind (wp_write ?_ (h₉.fails rfl rfl) h₉.inv)
  refine wp_bind (wp_look (fun o t ht => ?_) hx.inv)
  have hx := hx.same ht
  split
  · exact wp_pure hx.inv
  refine wp_bind (wp_look (fun o t ht => ?_) hx.inv)
  have hx := hx.same ht
  have hy := hx.write (q := { p with
    sessions := o₁.sessions ++ o₅.sessions.filter (· ∉ o₁.sessions), started := o₂.now,
    stage := .awaitingHealth,
    health_started := some o.now }) rfl rfl rfl hx.ran
  refine wp_bind (wp_write ?_ (hx.fails rfl rfl) hx.inv)
  exact awaitHealth_inv 150 hy rfl

theorem apply_inv {build : Build} (h : Inv P s) :
    wp (Inv P) (apply P build) (fun _ => Inv P) (fun _ => Inv P) s := by
  refine wp_bind (wp_read_or (fun found hfound => ?_) h)
  split
  · exact wp_throw h
  next p =>
  have hp : s.pending = some p := by simpa [eq_comm] using hfound
  split
  · exact wp_throw h
  next key _ =>
  refine wp_bind (wp_read_or (fun file hfile => ?_) h)
  refine wp_bind (wp_liftExcept (fun _ hverify => ?_) fun _ => h)
  have hverify : verify_file P s.previous_msi p.previous key = .ok () := by
    rcases hfile with rfl | rfl
    · exact hverify
    · cases hverify
  refine wp_bind (wp_read_or (fun file' _ => ?_) h)
  refine wp_bind (wp_liftExcept (fun _ _ => ?_) fun _ => h)
  have hready : Ready P key p s := ⟨h, ⟨p, hp, rfl, rfl⟩, hverify⟩
  split
  · exact rollback_inv hready
  next hstage =>
  have hkept := h.pending
  rw [hp] at hkept
  have hinstalling : Installing P key p s :=
    ⟨hready, fun hr => hstage (hkept.2.2.1 hr), fun hp => (hkept.2.2.2 hp).2⟩
  exact wp_orElse ((install_inv hinstalling).mono (fun _ _ h => h) (fun e t h => rollback_inv h) fun _ h => h)

end Apply

/-! ### Runs -/

theorem Inv.init (P : Platform) (outside : Outside) (previous_msi candidate_msi : Option File)
    (policy : Option SavedPolicy) : Inv P (init outside previous_msi candidate_msi policy) := by
  refine ⟨trivial, .inl rfl, fun h => ?_, fun _ _ h => ?_⟩
  · cases h
  · cases h

theorem Inv.step {P : Platform} {s s' : World} {a : Action} (h : Inv P s) (hstep : step P s a = some s') :
    Inv P s' := by
  cases a with
  | tick build script plan =>
    obtain rfl := Option.some.inj hstep
    have h : Inv P { s with script } := h.same ⟨rfl, rfl, rfl⟩
    exact (tick_inv h).world plan
  | apply build script plan =>
    obtain rfl := Option.some.inj hstep
    have h : Inv P { s with script } := h.same ⟨rfl, rfl, rfl⟩
    exact (apply_inv h).world plan
  | outside o =>
    obtain rfl := Option.some.inj hstep
    exact h.same ⟨rfl, rfl, rfl⟩

/-! ### Safety -/

section Safety

variable {P : Platform} {s s' : World} {log newer older : List Event} {e : Event}

theorem Lawful.allowed (h : Lawful P (newer ++ e :: older)) : Allowed P older e ∧ Lawful P older := by
  induction newer with
  | nil => exact h
  | cons e' newer ih => exact ih h.2

theorem Lawful.lastJournal {author : String} {previous candidate : Artifact} (h : Lawful P log)
    (hlast : lastJournal log = some (author, previous, candidate)) :
    previous.version = author ∧ UpdatePolicy.is_version_upgrade P.semver candidate.version author = true := by
  induction log with
  | nil => cases hlast
  | cons e log ih =>
    cases e with
    | journal author' previous' candidate' request =>
      cases hlast
      exact ⟨h.1.1, h.1.2.1⟩
    | _ => exact ih h.2 hlast

/-- At most three journals are written while the offered version and the push request stay the same. -/
theorem Lawful.journals_le {offer : String × Option String} {events : List Event}
    (h : Lawful P (events ++ older))
    (hsame : ∀ e ∈ events, e.about.all (· = offer)) : journals events ≤ 3 := by
  induction events with
  | nil => exact Nat.zero_le _
  | cons e events ih =>
    have hrest := ih h.2 fun e' he' => hsame e' (List.mem_cons_of_mem _ he')
    rcases hj : e.isJournal with _ | _
    · rw [journals_cons hj]
      exact hrest
    · cases e with
      | journal author previous candidate request =>
        obtain ⟨-, -, -, hlimit⟩ := h.1
        have hoffer : (candidate.version, request) = offer := by
          simpa [Event.about] using hsame _ (List.mem_cons_self ..)
        have hlimit : journals (stretch offer (events ++ older)) < 3 := by rw [← hoffer]; exact hlimit
        have hprefix : journals events ≤ journals (stretch offer (events ++ older)) := by
          unfold stretch
          rw [List.takeWhile_append_of_pos fun e' he' => hsame e' (List.mem_cons_of_mem _ he')]
          unfold journals
          rw [List.countP_append]
          exact Nat.le_add_right _ _
        have hcons : journals (.journal author previous candidate request :: events) = journals events + 1 :=
          List.countP_cons_of_pos rfl
        omega
      | _ => cases hj

end Safety

/-- What holds of the log and of the journal in every state. -/
structure Safe (P : Platform) (s : World) : Prop where
  /-- A candidate that is run was verified, and is an upgrade of the version that wrote the journal. -/
  candidate : ∀ newer older file key, s.log = newer ++ .msiCandidate file key :: older →
    ∃ author previous candidate, lastJournal older = some (author, previous, candidate) ∧
      verify_file P file candidate key = .ok () ∧
      UpdatePolicy.is_version_upgrade P.semver candidate.version author = true
  /-- A rollback runs the verified installer of just that version. -/
  previous : ∀ newer older file key, s.log = newer ++ .msiPrevious file key :: older →
    ∃ author previous candidate, lastJournal older = some (author, previous, candidate) ∧
      verify_file P file previous key = .ok () ∧ previous.version = author
  /-- While a candidate may be installed that is not confirmed, there is a journal. -/
  journal : atRisk s.log = true → s.pending.isSome = true
  removed : ∀ newer older, s.log = newer ++ .removed :: older →
    (∃ health started now, .healthy health started now ∈ sinceJournal older) ∨ .restored ∈ sinceJournal older
  /-- A confirmation reports the version of the candidate, which was run under this journal, from a
  moment between the start of the latest installation under it and a minute from now. -/
  confirmed : ∀ newer older health started now, s.log = newer ++ .healthy health started now :: older →
    (∃ author previous candidate h, lastJournal older = some (author, previous, candidate) ∧ health = some h ∧
      h.version = candidate.version ∧ started ≤ h.at_ ∧ h.at_ ≤ now + 60) ∧
    lastStart older = some started ∧ Ran older
  /-- An update that was given up is not installed again. -/
  abandoned : ∀ newer older file key, s.log = newer ++ .msiCandidate file key :: older →
    .rolledBack ∉ sinceJournal older
  /-- The cancellation token is the saved one once the clients are stopped. -/
  cancellation : ∀ newer older file key, s.log = newer ++ .msiCandidate file key :: older →
    ∃ saved rest, older = .checked (some saved) saved.cancellation :: .stopped :: rest
  limit : ∀ newer events older offer, s.log = newer ++ (events ++ older) →
    (∀ e ∈ events, e.about.all (· = offer)) → journals events ≤ 3

theorem Inv.safe {P : Platform} {s : World} (h : Inv P s) : Safe P s where
  candidate newer older file key hlog := by
    obtain ⟨⟨⟨author, previous, candidate, hlast, hverify⟩, -⟩, hlawful⟩ := (hlog ▸ h.lawful).allowed
    exact ⟨author, previous, candidate, hlast, hverify, (hlawful.lastJournal hlast).2⟩
  previous newer older file key hlog := by
    obtain ⟨⟨author, previous, candidate, hlast, hverify⟩, hlawful⟩ := (hlog ▸ h.lawful).allowed
    exact ⟨author, previous, candidate, hlast, hverify, (hlawful.lastJournal hlast).1⟩
  journal := h.risk
  removed newer older hlog := (hlog ▸ h.lawful).allowed.1
  confirmed newer older health started now hlog := (hlog ▸ h.lawful).allowed.1
  abandoned newer older file key hlog := (hlog ▸ h.lawful).allowed.1.2.1
  cancellation newer older file key hlog := (hlog ▸ h.lawful).allowed.1.2.2
  limit newer events older offer hlog hsame := by
    have hlawful : Lawful P (events ++ older) := by
      have h := h.lawful
      rw [hlog] at h
      clear hlog
      induction newer with
      | nil => exact h
      | cons e newer ih => exact ih h.2
    exact hlawful.journals_le hsame

/-- Whatever ticks and helpers run in whatever order, and wherever each of them dies. -/
theorem updater_safe (P : Platform) (outside : Outside) (previous_msi candidate_msi : Option File)
    (policy : Option SavedPolicy) (actions : List Action) (s : World)
    (hrun : Machine.run (step P) (init outside previous_msi candidate_msi policy) actions = some s) :
    Safe P s :=
  (Machine.run_inv (fun _ _ _ hstep h => Inv.step h hstep) hrun
    (Inv.init P outside previous_msi candidate_msi policy)).safe

/-- Versions are the lengths of their texts, and every signature is good. -/
def plainPlatform : Platform where
  semver := ⟨Nat, fun text => some text.toList.length, fun a b => a < b, UpdatePolicy.length_lt_irrefl,
    UpdatePolicy.length_lt_trans⟩
  sha256 bytes := if bytes.length = 1 then "sha-1" else "sha-2"
  verify_strict _ _ _ := true
  msi_property bytes property :=
    if property = "UpgradeCode" then some "\x7bC57DAC79-D926-492A-800D-190630390291\x7d"
    else if property = "BF_UPDATE_TARGET" then some TARGET
    else some (if bytes.length = 1 then "1" else "11")
  discovery_probe _ := true
  local_time _ _ := some (0, 0)

def release (version sha256 : String) (size_bytes : Nat) : Artifact :=
  ⟨"r", version, sha256, "", size_bytes, "/api/firmware/public/download/r"⟩

/-- A server that has the releases `1` and `11`, the second of which the display then reports. -/
def releasesOutside : Outside where
  now := 0
  cancellation := none
  health := some ⟨"11", 1⟩
  state := some ⟨"s", none, false⟩
  sessions := [1]
  send request :=
    some ⟨200, 0,
      some ⟨false, some (if request.query.any (· == ("version", "1")) then release "1" "sha-1" 1
        else release "11" "sha-2" 2), none, none⟩,
      [0, 0]⟩

theorem updater_safe_confirmed :
    ∃ s, atRisk s.log = false ∧ journals s.log = 1 ∧ Safe plainPlatform s := by
  have hany : (Machine.run (step plainPlatform)
      (init releasesOutside (some [0]) none
        (some ⟨⟨"s", ⟨"always", [], "UTC"⟩, "stable", none, "stable", none⟩, none⟩))
      [.tick ⟨"1", some "key"⟩ [] [], .apply ⟨"1", some "key"⟩ [] []]).any (fun s => !atRisk s.log &&
          journals s.log == 1) = true := by
    decide +kernel
  obtain ⟨s, hrun, hs⟩ := (Option.any_eq_true _ _).1 hany
  rw [Bool.and_eq_true, Bool.not_eq_true', beq_iff_eq] at hs
  exact ⟨s, hs.1, hs.2, updater_safe plainPlatform _ _ _ _ _ s hrun⟩

end WindowsUpdater
