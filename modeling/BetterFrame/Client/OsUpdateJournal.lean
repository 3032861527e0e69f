import BetterFrame.Lib.Run
import BetterFrame.Client.OsUpdate

/-!
# The record of an update tells the truth

`Allowed` says of each event what must have happened before it, and `Inv` ties the record on disk to the
log. A pass works on a record of its own (`Own`), which nothing else changes until the next boot. The
attempt file is taken along: while it can be used (`counted`) its counts cover the installations that
were started.
-/

namespace OsUpdate

open Crash UpdateDownload UpdateGuard

/-! ### What the log says -/

/-- The boot an event happened in. -/
def Event.boot : Event → Option Boot
  | .installing _ boot => some boot
  | .install _ boot _ => some boot
  | .report _ _ boot _ => some boot
  | _ => none

/-- What the pass that began last has found. -/
def lastPass (log : List Event) : Option (Bool × Option Journal) :=
  log.findSome? fun
    | .pass force found => some (force, found)
    | _ => none

/-- The pass that began last was forced or has found no record that blocks it. -/
def Admitted (log : List Event) : Prop :=
  ∃ force found, lastPass log = some (force, found) ∧
    (force = false → ∀ journal, found = some journal → journal.blocks_apply = false)

/-- What must have happened before an event; `honest` is that no rollback is reported of the version that
runs. -/
def Allowed (P : Platform) (honest : Prop) (log : List Event) : Event → Prop
  | .download _ => Admitted log
  | .install info boot file =>
    Admitted log ∧ UpdatePolicy.is_version_upgrade P.semver info.version boot.version = true ∧
      ∃ bytes, file = some bytes ∧ bytes.length = info.size_bytes ∧ P.sha256 bytes = info.sha256
  | .report version .confirmed boot healthy => version = boot.version ∧ healthy = true
  | .report version .rolled_back boot _ =>
    (∃ boot', .installing version boot' ∈ log ∧ boot'.id ≠ boot.id) ∧ (honest → version ≠ boot.version)
  | _ => True

/-- Every event of the history was allowed by those before it. -/
def Lawful (P : Platform) (honest : Prop) : List Event → Prop
  | [] => True
  | e :: log => Allowed P honest log e ∧ Lawful P honest log

/-- What holds of the record on disk. -/
structure Recorded (s : World) (journal : Journal) : Prop where
  boot : ∃ boot ∈ s.boot :: s.past, boot.id = journal.boot_id
  installing : journal.stage ≠ .downloading → journal.stage ≠ .failed →
    ∃ boot, .installing journal.version boot ∈ s.log ∧ boot.id = journal.boot_id
  later : journal.stage = .rolledBack ∨ journal.stage = .confirmed → journal.boot_id ≠ s.boot.id

/-- `counted`: the attempt file can be used; `g` is what it was. -/
structure Inv (P : Platform) (honest counted : Prop) (g : Guard) (s : World) : Prop where
  lawful : Lawful P honest s.log
  fresh : ((s.boot :: s.past).map Boot.id).Nodup
  boots : ∀ e ∈ s.log, ∀ boot, e.boot = some boot → boot ∈ s.boot :: s.past
  journal : ∀ journal, s.journal = some journal → Recorded s journal
  covers : counted → Covers "os" s.guard
  only : counted → Only "os" g s.guard

/-- All but the machine outside and the health of the boot is as it was. -/
structure Still (s t : World) : Prop where
  journal : t.journal = s.journal
  boot : t.boot = s.boot
  past : t.past = s.past
  bundles : t.bundles = s.bundles
  guard : t.guard = s.guard
  log : t.log = s.log

/-- An event of a pass that says nothing of an installation. -/
def Mild (boot : Boot) (e : Event) : Prop :=
  (∃ version, e = .download version) ∨
    ∃ version healthy, e = .report version .failed boot healthy ∨
      e = .report version .pending_reboot boot healthy

/-- All but the download is as it was, and the log has mild events. -/
structure Loose (s t : World) : Prop where
  journal : t.journal = s.journal
  boot : t.boot = s.boot
  past : t.past = s.past
  guard : t.guard = s.guard
  log : ∃ events, t.log = events ++ s.log ∧ ∀ e ∈ events, Mild s.boot e

/-- `Loose`, and the download is as it was too. -/
structure Quiet (s t : World) : Prop extends Loose s t where
  bundles : t.bundles = s.bundles

section Basics

variable {P : Platform} {honest counted : Prop} {g : Guard} {s t u : World} {log : List Event} {e : Event}

theorem Still.refl (s : World) : Still s s := ⟨rfl, rfl, rfl, rfl, rfl, rfl⟩

theorem Still.trans (h : Still s t) (h' : Still t u) : Still s u :=
  ⟨h'.journal.trans h.journal, h'.boot.trans h.boot, h'.past.trans h.past, h'.bundles.trans h.bundles,
    h'.guard.trans h.guard, h'.log.trans h.log⟩

theorem Loose.refl (s : World) : Loose s s := ⟨rfl, rfl, rfl, rfl, [], rfl, by simp⟩

theorem Loose.trans (h : Loose s t) (h' : Loose t u) : Loose s u := by
  obtain ⟨events, hl, hm⟩ := h.log
  obtain ⟨events', hl', hm'⟩ := h'.log
  refine ⟨h'.journal.trans h.journal, h'.boot.trans h.boot, h'.past.trans h.past, h'.guard.trans h.guard,
    events' ++ events, by rw [hl', hl, List.append_assoc], fun e he => ?_⟩
  rcases List.mem_append.1 he with he | he
  · exact h.boot ▸ hm' e he
  · exact hm e he

theorem Quiet.refl (s : World) : Quiet s s := ⟨.refl s, rfl⟩

theorem Quiet.trans (h : Quiet s t) (h' : Quiet t u) : Quiet s u :=
  ⟨h.toLoose.trans h'.toLoose, h'.bundles.trans h.bundles⟩

theorem Still.quiet (h : Still s t) : Quiet s t :=
  ⟨⟨h.journal, h.boot, h.past, h.guard, [], h.log, by simp⟩, h.bundles⟩

theorem lastPass_append {events : List Event} {boot : Boot} (hm : ∀ e ∈ events, Mild boot e) :
    lastPass (events ++ log) = lastPass log := by
  induction events with
  | nil => rfl
  | cons e events ih =>
    have he : lastPass (e :: (events ++ log)) = lastPass (events ++ log) := by
      rcases hm e (List.mem_cons_self ..) with ⟨_, rfl⟩ | ⟨_, _, rfl | rfl⟩ <;> rfl
    rw [List.cons_append, he]
    exact ih fun e' he' => hm e' (List.mem_cons_of_mem _ he')

theorem Lawful.append {events : List Event} {boot : Boot} (h : Lawful P honest log) (ha : Admitted log)
    (hm : ∀ e ∈ events, Mild boot e) : Lawful P honest (events ++ log) := by
  induction events with
  | nil => exact h
  | cons e events ih =>
    have hrest : ∀ e' ∈ events, Mild boot e' := fun e' he' => hm e' (List.mem_cons_of_mem _ he')
    refine ⟨?_, ih hrest⟩
    rcases hm e (List.mem_cons_self ..) with ⟨_, rfl⟩ | ⟨_, _, rfl | rfl⟩
    · obtain ⟨force, found, hl, hb⟩ := ha
      exact ⟨force, found, (lastPass_append hrest).trans hl, hb⟩
    · trivial
    · trivial

theorem Recorded.mono {journal : Journal} (h : Recorded s journal) (hb : t.boot = s.boot)
    (hp : t.past = s.past) (hl : ∀ e ∈ s.log, e ∈ t.log) : Recorded t journal := by
  obtain ⟨hboot, hi, hlater⟩ := h
  refine ⟨by rw [hb, hp]; exact hboot, fun h1 h2 => ?_, by rw [hb]; exact hlater⟩
  obtain ⟨boot, hmem, hid⟩ := hi h1 h2
  exact ⟨boot, hl _ hmem, hid⟩

theorem Inv.loose (h : Inv P honest counted g s) (ha : Admitted s.log) (hl : Loose s t) :
    Inv P honest counted g t := by
  obtain ⟨events, hlog, hm⟩ := hl.log
  refine ⟨?_, by rw [hl.boot, hl.past]; exact h.fresh, fun e he boot hboot => ?_, fun journal hj => ?_,
    by rw [hl.guard]; exact h.covers, by rw [hl.guard]; exact h.only⟩
  · rw [hlog]
    exact h.lawful.append ha hm
  · rw [hl.boot, hl.past]
    rw [hlog] at he
    rcases List.mem_append.1 he with he | he
    · rcases hm e he with ⟨_, rfl⟩ | ⟨_, _, rfl | rfl⟩
      · cases hboot
      · cases hboot
        exact List.mem_cons_self ..
      · cases hboot
        exact List.mem_cons_self ..
    · exact h.boots e he boot hboot
  · rw [hl.journal] at hj
    refine (h.journal journal hj).mono hl.boot hl.past fun e he => ?_
    rw [hlog]
    exact List.mem_append_right _ he

theorem Inv.still (h : Inv P honest counted g s) (hs : Still s t) : Inv P honest counted g t := by
  obtain ⟨hj, hb, hp, -, hg, hl⟩ := hs
  exact ⟨hl ▸ h.lawful, by rw [hb, hp]; exact h.fresh, by rw [hl, hb, hp]; exact h.boots,
    fun journal hjournal => (h.journal journal (hj ▸ hjournal)).mono hb hp fun e he => by rw [hl]; exact he,
    by rw [hg]; exact h.covers, by rw [hg]; exact h.only⟩

/-- An event of the present boot. -/
theorem Inv.event (h : Inv P honest counted g s) (ha : Allowed P honest s.log e)
    (hboot : ∀ boot, e.boot = some boot → boot = s.boot) :
    Inv P honest counted g { s with log := e :: s.log } := by
  refine ⟨⟨ha, h.lawful⟩, h.fresh, fun e' he' boot hb => ?_, fun journal hj => ?_, h.covers, h.only⟩
  · rcases List.mem_cons.1 he' with rfl | he'
    · exact hboot boot hb ▸ List.mem_cons_self ..
    · exact h.boots e' he' boot hb
  · exact (h.journal journal hj).mono rfl rfl fun e he => List.mem_cons_of_mem _ he

/-- A new record. -/
theorem Inv.write {journal : Journal} (h : Inv P honest counted g s) (hj : Recorded s journal) :
    Inv P honest counted g { s with journal := some journal } := by
  refine ⟨h.lawful, h.fresh, h.boots, fun journal' hj' => ?_, h.covers, h.only⟩
  cases hj'
  exact hj.mono rfl rfl fun _ h => h

theorem Inv.guard {g' : Guard} (h : Inv P honest counted g s) (hcovers : counted → Covers "os" g')
    (honly : counted → Only "os" s.guard g') : Inv P honest counted g { s with guard := g' } :=
  ⟨h.lawful, h.fresh, h.boots, fun journal hj => (h.journal journal hj).mono rfl rfl fun _ h => h, hcovers,
    fun hc => (h.only hc).trans (honly hc)⟩

end Basics

/-! ### Operations one by one -/

section Operations

variable {ε : Type} {C : World → Prop} {s t : World}

theorem wp_look {Q : Outside → World → Prop} {E : ε → World → Prop} (hQ : ∀ o t, Still s t → Q o t)
    (hC : C s) :
    wp C look Q E s :=
  Crash.wp_look (hQ _ _ (.refl s)) (fun _ _ _ => hQ _ _ ⟨rfl, rfl, rfl, rfl, rfl, rfl⟩) hC

theorem wp_boot_is_confirmed {Q : Bool → World → Prop} {E : ε → World → Prop}
    (hQ : ∀ t, Still s t → Q t.healthy t) (hC : ∀ t, Still s t → C t) : wp C boot_is_confirmed Q E s := by
  refine wp_bind (wp_look (fun o t ht => ?_) (hC s (.refl s)))
  have hu : Still s { t with healthy := t.healthy || o.confirmed } := ht.trans ⟨rfl, rfl, rfl, rfl, rfl, rfl⟩
  exact wp_bind (wp_note (wp_get (hQ _ hu) (hC _ hu)) (hC t ht))

theorem wp_readJournal {Q : Option Journal → World → Prop} {E : String → World → Prop} (hQ : Q s.journal s)
    (hE : E "Read OS update record: io error" s) (hC : C s) : wp C readJournal Q E s :=
  wp_op hQ hE hC hC

theorem wp_writeJournal {journal : Journal} {events : Boot → List Event} {Q : Unit → World → Prop}
    {E : String → World → Prop} (hQ : Q () { s with journal := some journal, log := events s.boot ++ s.log })
    (hE : E "io error" { s with journal := some journal, log := events s.boot ++ s.log })
    (hE' : E "io error" s)
    (hC : C s) (hC' : C { s with journal := some journal, log := events s.boot ++ s.log }) :
    wp C (writeJournal journal events) Q E s :=
  wp_bind (wp_write (wp_write hQ hE hC') hE' hC)

/-- A report that confirms nothing. -/
theorem wp_sendReport {version : String} {state : State} {Q : Bool → World → Prop} {E : ε → World → Prop}
    (hstate : state ≠ .confirmed) (hC : C s)
    (h : ∀ t, Still { s with log := .report version state s.boot s.healthy :: s.log } t → C t ∧ ∀ b, Q b t) :
    wp C (sendReport version state) Q E s := by
  refine wp_bind (wp_note ?_ hC)
  refine wp_bind (wp_look (fun o t ht => ?_) (h _ (.refl _)).1)
  rw [if_neg fun hc => hstate hc.2]
  exact wp_pure ((h t ht).2 _)

/-- A program on the attempt file, which is only spoken of while it can be used. -/
theorem wp_guarded (counted : Prop) {α : Type} {x : Prog ε Guard α} {Q : α → World → Prop}
    {E : ε → World → Prop}
    (hcounted : counted → wp (fun g => C { s with guard := g }) x (fun a g => Q a { s with guard := g })
      (fun e g => E e { s with guard := g }) s.guard)
    (hfree : ¬ counted → ∀ g, C { s with guard := g } ∧ (∀ a, Q a { s with guard := g }) ∧
      ∀ e, E e { s with guard := g }) :
    wp C (guarded x) Q E s := by
  by_cases hc : counted
  · exact wp_zoom (hcounted hc)
  · have hkeeps : Keeps (fun s t => ∃ g, t = { s with guard := g }) (guarded x) := .zoom fun _ g => ⟨g, rfl⟩
    refine hkeeps.wp ?_ ?_ ?_
    · rintro a _ ⟨g, rfl⟩
      exact (hfree hc g).2.1 a
    · rintro e _ ⟨g, rfl⟩
      exact (hfree hc g).2.2 e
    · rintro _ ⟨g, rfl⟩
      exact (hfree hc g).1

theorem mild_report {version : String} {state : State} {boot : Boot} {healthy : Bool}
    (hstate : state = .failed ∨ state = .pending_reboot) : Mild boot (.report version state boot healthy) :=
  .inr ⟨version, healthy, by rcases hstate with rfl | rfl <;> simp⟩

theorem wp_report_applied {key : Option String} {version : String} {state : State} {Q : Unit → World → Prop}
    {E : ε → World → Prop} (hstate : state = .failed ∨ state = .pending_reboot)
    (hQ : ∀ t, Quiet s t → Q () t) (hC : C s) :
    wp C (report_applied key version state) Q E s := by
  unfold report_applied
  split
  · exact wp_pure (hQ s (.refl s))
  · refine wp_note (hQ _ ⟨⟨rfl, rfl, rfl, rfl, [_], rfl, fun e he => ?_⟩, rfl⟩) hC
    rw [List.mem_singleton.1 he]
    exact mild_report hstate

end Operations

/-! ### Reports -/

section Reports

variable {P : Platform} {honest counted : Prop} {g : Guard} {s t : World} {journal : Journal}
  {healthy : Bool} {ε : Type}

theorem reconcile_same {id running : String} (h : journal.boot_id = id) :
    journal.reconcile id running healthy = journal :=
  if_pos h

/-- What a reconciled record says of an attempt that the boot may have decided. -/
theorem reconcile_facts (journal : Journal) (healthy : Bool) (id running : String) :
    (journal.reconcile id running healthy).version = journal.version ∧
    (journal.reconcile id running healthy).boot_id = journal.boot_id ∧
    ((journal.reconcile id running healthy).stage = .rolledBack → journal.stage = .rolledBack ∨
      journal.version ≠ running) ∧
    (journal.boot_id ≠ id → (journal.reconcile id running healthy).stage = .confirmed ∨
      (journal.reconcile id running healthy).stage = .pendingReboot → journal.version = running) := by
  unfold Journal.reconcile
  split
  · next h => exact ⟨rfl, rfl, .inl, fun hne => absurd h hne⟩
  split
  · split
    · next hv =>
      refine ⟨rfl, rfl, fun h => ?_, fun _ _ => hv⟩
      dsimp only at h
      split at h <;> cases h
    · next hv =>
      refine ⟨rfl, rfl, fun _ => .inr hv, fun _ h => ?_⟩
      rcases h with h | h <;> cases h
  · next hs =>
      exact ⟨rfl, rfl, .inl, fun _ h =>
        absurd (h.elim (fun h => .inr (.inr h)) fun h => .inr (.inl h)) hs⟩

theorem Recorded.reconcile (h : Recorded s journal) (healthy : Bool) :
    Recorded s (journal.reconcile s.boot.id s.boot.version healthy) := by
  unfold Journal.reconcile
  split
  · exact h
  next hid =>
  split
  · next hs =>
    have hi := h.installing (by rcases hs with hs | hs | hs <;> simp [hs])
      (by rcases hs with hs | hs | hs <;> simp [hs])
    split
    · exact ⟨h.boot, fun _ _ => hi, fun _ => hid⟩
    · exact ⟨h.boot, fun _ _ => hi, fun _ => hid⟩
  · exact h

/-- A report on a record of another boot, or on none. -/
theorem sendConfirmed_inv {version : String} (h : Inv P honest counted g s) (hv : version = s.boot.version)
    (hh : s.healthy = true) {E : ε → World → Prop} (hE : ∀ e t, Inv P honest counted g t → E e t) :
    wp (Inv P honest counted g) (sendReport version .confirmed) (fun _ => Inv P honest counted g) E s := by
  have hevent : Inv P honest counted g { s with log := .report version .confirmed s.boot s.healthy ::
        s.log } :=
    h.event ⟨hv, hh⟩ fun boot hb => by cases hb; rfl
  refine wp_bind (wp_note ?_ h)
  refine wp_bind (wp_look (fun o t ht => ?_) hevent)
  have ht := hevent.still ht
  split
  · refine wp_bind (wp_guarded counted (fun hc => ?_) fun hc g' => ?_)
    · have hput : ∀ g', Succeeded "os" version t.guard g' →
          Inv P honest counted g { t with guard := g' } := fun g' hs =>
        ht.guard (fun hc => (ht.covers hc).success hs) fun _ => hs.only
      exact wp_record_success (ht.covers hc).usable ht fun g' hs => ⟨hput g' hs, wp_pure (hput g' hs)⟩
    · have hput : Inv P honest counted g { t with guard := g' } :=
        ht.guard (fun hc' => absurd hc' hc) fun hc' => absurd hc' hc
      exact ⟨hput, fun _ => wp_pure hput, fun e => hE e _ hput⟩
  · exact wp_pure ht

theorem reportJournal_inv {id : String} (h : Inv P honest counted g s) (hid : id = s.boot.id)
    (hj : Recorded s (journal.reconcile id s.boot.version healthy))
    (hhonest : honest → journal.stage = .rolledBack → journal.version ≠ s.boot.version)
    {E : String → World → Prop} (hE : ∀ e t, Inv P honest counted g t → E e t) :
    wp (Inv P honest counted g) (reportJournal (journal.reconcile id s.boot.version healthy) id)
      (fun _ => Inv P honest counted g) E s := by
  obtain ⟨hversion, hboot, hrolled, hconfirm⟩ :=
    reconcile_facts journal healthy id s.boot.version
  generalize journal.reconcile id s.boot.version healthy = j at *
  have hwrite : Inv P honest counted g { s with journal := some j } := h.write hj
  -- the record says that this boot runs the update
  have hconfirmed : j.version = s.boot.version → j.boot_id ≠ s.boot.id → j.stage ≠ .downloading →
    j.stage ≠ .failed →
      wp (Inv P honest counted g) (reportJournal.confirm j) (fun _ => Inv P honest counted g) E s := by
    intro hv hother h1 h2
    refine wp_bind (wp_boot_is_confirmed (fun t ht => ?_) fun t ht => h.still ht)
    have hinv := h.still ht
    have hjt : Recorded t j := hj.mono ht.boot ht.past fun e he => by rw [ht.log]; exact he
    split
    · next hh =>
      have hnew : Recorded t { j with stage := .confirmed, error := none } :=
        ⟨hjt.boot, fun _ _ => hjt.installing h1 h2, fun _ => by rw [ht.boot]; exact hother⟩
      have hw := hinv.write hnew
      refine wp_bind (wp_writeJournal ?_ (hE _ _ hw) (hE _ _ hinv) hinv hw)
      exact sendConfirmed_inv hw (by rw [ht.boot]; exact hv) hh hE
    · exact wp_pure hinv
  have hreport : ∀ state, state ≠ .confirmed →
    Allowed P honest s.log (.report j.version state s.boot s.healthy) →
      wp (Inv P honest counted g) (do
        writeJournal j fun _ => []
        sendReport j.version state) (fun _ => Inv P honest counted g) E s := by
    intro state hstate ha
    refine wp_bind (wp_writeJournal ?_ (hE _ _ hwrite) (hE _ _ h) h hwrite)
    refine wp_sendReport hstate hwrite fun t ht => ?_
    have hevent : Inv P honest counted g
        { s with journal := some j, log := .report j.version state s.boot s.healthy :: s.log } :=
      hwrite.event ha fun boot hb => by cases hb; rfl
    exact ⟨hevent.still ht, fun _ => hevent.still ht⟩
  unfold reportJournal
  rcases hs : j.stage with _ | _ | _ | _ | _ | _
  · exact wp_pure h
  · exact wp_pure h
  · dsimp only
    split
    · exact wp_pure h
    · next hne =>
      rw [hid] at hne hconfirm
      exact hconfirmed (hversion.trans (hconfirm (hboot ▸ hne) (.inr hs))) hne (by simp [hs]) (by simp [hs])
  · exact hreport .failed (by simp) trivial
  · refine hreport .rolled_back (by simp) ⟨?_, fun hh => ?_⟩
    · obtain ⟨boot, hmem, hb⟩ := hj.installing (by simp [hs]) (by simp [hs])
      exact ⟨boot, hmem, hb ▸ hj.later (.inl hs)⟩
    · rw [hversion]
      exact (hrolled hs).elim (hhonest hh) fun h => h
  · have hne := hj.later (.inr hs)
    rw [hid] at hconfirm
    exact hconfirmed (hversion.trans (hconfirm (hboot ▸ hne) (.inl hs))) hne (by simp [hs]) (by simp [hs])

theorem report_inv {E : ε → World → Prop} (h : Inv P honest counted g s)
    (hhonest : honest → ∀ journal, s.journal = some journal → journal.stage = .rolledBack →
      journal.version ≠ s.boot.version) :
    wp (Inv P honest counted g) report_confirmed (fun _ => Inv P honest counted g) E s := by
  refine wp_orElse ?_
  have hE : ∀ (e : String) t, Inv P honest counted g t →
      wp (Inv P honest counted g) (pure false : Prog ε World Bool) (fun _ => Inv P honest counted g) E t :=
    fun _ _ h => wp_pure h
  refine wp_bind (wp_get ?_ h)
  refine wp_bind (wp_read_or (fun id hid => ?_) h)
  split
  · exact wp_pure h
  next hne =>
  have hid : id = s.boot.id := hid.resolve_right fun h => hne (.inr h)
  refine wp_bind (wp_readJournal ?_ (hE "" s h) h)
  rcases hj : s.journal with _ | journal
  · refine wp_bind (wp_boot_is_confirmed (fun t ht => ?_) fun t ht => h.still ht)
    have hinv := h.still ht
    split
    · next hh => exact sendConfirmed_inv hinv (by rw [ht.boot]) hh hE
    · exact wp_pure hinv
  · refine wp_bind (wp_boot_is_confirmed (fun t ht => ?_) fun t ht => h.still ht)
    have hinv := h.still ht
    have hrec := hinv.journal journal (ht.journal.trans hj)
    have hboot : s.boot = t.boot := ht.boot.symm
    rw [hboot] at hid ⊢
    refine reportJournal_inv hinv hid ?_ (fun hh hs => ?_) hE
    · rw [hid]
      exact hrec.reconcile _
    · rw [← hboot]
      exact hhonest hh journal hj hs

end Reports

/-! ### The record of a pass -/

/-- The record is that of the pass for `info`, made on this boot. -/
def Own (info : UpdateInfo) (s : World) : Prop :=
  ∃ journal, s.journal = some journal ∧ journal.version = info.version ∧ journal.boot_id = s.boot.id ∧
    journal.stage ≠ .rolledBack ∧ journal.stage ≠ .confirmed

section Own

variable {P : Platform} {info : UpdateInfo} {key : Option String} {s t u : World} {ε α β : Type}

theorem Own.loose (h : Own info s) (hl : Loose s t) : Own info t := by
  obtain ⟨journal, hj, hrest⟩ := h
  exact ⟨journal, hl.journal.trans hj, by rw [hl.boot]; exact hrest⟩

/-- A report while a pass is at work leaves the record and the attempt file alone. -/
theorem report_own {E : ε → World → Prop} (h : Own info s) :
    wp (Quiet s) report_confirmed (fun _ => Quiet s) E s := by
  obtain ⟨journal, hj, -, hboot, hrolled, hconfirmed⟩ := h
  have hE : ∀ (e : String) t, Quiet s t →
      wp (Quiet s) (pure false : Prog ε World Bool) (fun _ => Quiet s) E t :=
    fun _ _ h => wp_pure h
  refine wp_orElse (wp_bind (wp_get ?_ (.refl s)))
  refine wp_bind (wp_read_or (fun id hid => ?_) (.refl s))
  split
  · exact wp_pure (.refl s)
  next hne =>
  have hid : journal.boot_id = id := hboot.trans (hid.resolve_right fun h => hne (.inr h)).symm
  refine wp_bind (wp_readJournal ?_ (hE "" s (.refl s)) (.refl s))
  rw [hj]
  refine wp_bind (wp_boot_is_confirmed (fun t ht => ?_) fun t ht => ht.quiet)
  rw [reconcile_same hid]
  have hq := ht.quiet
  have hjt : t.journal = some journal := ht.journal.trans hj
  unfold reportJournal
  rcases hs : journal.stage with _ | _ | _ | _ | _ | _
  · exact wp_pure hq
  · exact wp_pure hq
  · dsimp only
    rw [if_pos hid]
    exact wp_pure hq
  · have hw : Quiet s { t with journal := some journal } :=
      hq.trans ⟨⟨hjt.symm, rfl, rfl, rfl, [], rfl, by simp⟩, rfl⟩
    refine wp_bind (wp_writeJournal ?_ (hE "io error" _ hw) (hE "io error" _ hq) hq hw)
    refine wp_sendReport (by simp) hw fun u hu => ?_
    have hsent : Quiet s u := by
      refine hw.trans (Quiet.trans ?_ hu.quiet)
      exact ⟨⟨rfl, rfl, rfl, rfl, [_], rfl, fun e he => List.mem_singleton.1 he ▸ mild_report (.inl rfl)⟩,
        rfl⟩
    exact ⟨hsent, fun _ => hsent⟩
  · exact absurd hs hrolled
  · exact absurd hs hconfirmed

/-- `x` leaves all but the download alone while the record is the pass's own. -/
def Works (info : UpdateInfo) (x : Prog ε World α) : Prop := Keeps (fun s t => Own info s → Loose s t) x

/-- `x` leaves the download alone too. -/
def Watches (info : UpdateInfo) (x : Prog ε World α) : Prop := Keeps (fun s t => Own info s → Quiet s t) x

theorem Works.bind {x : Prog ε World α} {f : α → Prog ε World β} (hx : Works info x)
    (hf : ∀ a, Works info (f a)) :
    Works info (x >>= f) :=
  Keeps.bind (fun _ _ _ h h' ho => (h ho).trans (h' (ho.loose (h ho)))) hx hf

theorem Watches.pure {a : α} : Watches info (pure a : Prog ε World α) := Keeps.pure fun s _ => .refl s

theorem Watches.works {x : Prog ε World α} (hx : Watches info x) : Works info x :=
  fun s plan ho => (hx s plan ho).toLoose

theorem Works.pure {a : α} : Works info (pure a : Prog ε World α) := Watches.pure.works

theorem Works.throw {e : ε} : Works info (Prog.throw e : Prog ε World α) := Keeps.throw fun s _ => .refl s

theorem look_watches : Watches info (look : Prog ε World Outside) :=
  .look (fun s _ => .refl s) fun _ _ _ _ => ⟨⟨rfl, rfl, rfl, rfl, [], rfl, by simp⟩, rfl⟩

theorem others_wp {C : World → Prop} {E : ε → World → Prop} (h : Own info s) (hC : ∀ t, Quiet s t → C t) :
    wp C others (fun _ => Quiet s) E s := by
  have htimes : ∀ (n : Nat) (t : World), Quiet s t →
      wp C (reportTimes n : Prog ε World Unit) (fun _ => Quiet s) E t := by
    intro n
    induction n with
    | zero => exact fun t ht => wp_pure ht
    | succ n ih =>
      intro t ht
      refine wp_bind ((report_own (h.loose ht.toLoose)).mono (fun _ u hu => ih u (ht.trans hu))
        (fun _ _ h => h) ?_)
      exact fun u hu => hC u (ht.trans hu)
  exact wp_bind (wp_look (fun o t ht => htimes _ t ht.quiet) (hC s (.refl s)))

theorem others_watches : Watches info (others : Prog ε World Unit) := fun s plan ho =>
  (others_wp (C := Quiet s) (E := fun _ => Quiet s) ho fun _ h => h).world plan

/-- A change of the download. -/
theorem setBundle_works {f : World → Option Bytes} {e : ε} :
    Works info (.write (fun s => s.setBundle info.release_id (f s)) e) :=
  .write (fun s _ => .refl s) fun _ _ => ⟨rfl, rfl, rfl, rfl, [], rfl, by simp⟩

theorem removeBundle_works : Works info (removeBundle info) :=
  Keeps.orElse (fun _ _ _ h h' ho => (h ho).trans (h' (ho.loose (h ho)))) setBundle_works fun _ => Works.pure

theorem stream_works {downloaded : Nat} {chunks : List Chunk} :
    Works info (stream info downloaded chunks) := by
  induction chunks generalizing downloaded with
  | nil => exact .pure
  | cons chunk chunks ih =>
    unfold stream
    split
    · exact removeBundle_works.bind fun _ => .throw
    split
    · exact .pure
    · exact .pure
    · exact setBundle_works.bind fun _ => ih

theorem downloadAttempt_works {last : Bool} : Works info (downloadAttempt key info last) := by
  refine Works.bind (Keeps.get fun s _ => .refl s) fun existing => ?_
  split
  · exact .pure
  refine look_watches.works.bind fun o => Works.bind ?_ fun _ => ?_
  · refine .op (fun s _ => ?_) (fun s _ => ?_) (fun s _ => .refl s) fun s _ => .refl s <;>
      exact ⟨rfl, rfl, rfl, rfl, [_], rfl, by simp [Mild]⟩
  split
  · split
    · exact .throw
    split
    · exact .throw
    · exact .pure
  · split
    · exact .throw
    refine setBundle_works.bind fun _ => stream_works.bind fun ⟨complete, downloaded⟩ => ?_
    dsimp only
    split
    · exact .pure
    split
    · exact .throw
    · exact .pure

theorem downloadBundle_works (n : Nat) : Works info (downloadBundle key info n) := by
  induction n with
  | zero => exact .pure
  | succ n ih =>
    refine others_watches.works.bind fun _ => downloadAttempt_works.bind fun complete => ?_
    split
    · exact .pure
    · exact ih

end Own

/-! ### A pass -/

/-- A pass that may go on to download and to install. -/
structure Busy (P : Platform) (honest counted : Prop) (g : Guard) (info : UpdateInfo) (s : World) : Prop
    extends Inv P honest counted g s where
  own : Own info s
  admitted : Admitted s.log
  upgrade : UpdatePolicy.is_version_upgrade P.semver info.version s.boot.version = true

/-- The pass is counted, and it has not started an installation. -/
def Reserved (info : UpdateInfo) (g : Guard) : Prop :=
  replaced "os" info.version g.history < failures g.state "os" info.version ∧
    replaced "os" info.version g.history < ATTEMPT_LIMIT

/-- The file that is installed is the one that was offered. -/
def Checked (P : Platform) (info : UpdateInfo) (s : World) : Prop :=
  ∃ bytes, s.bundles info.release_id = some bytes ∧ bytes.length = info.size_bytes ∧
    P.sha256 bytes = info.sha256

section Pass

variable {P : Platform} {honest counted : Prop} {g : Guard} {info : UpdateInfo} {key : Option String}
  {s t : World}
  {force : Bool}

theorem Busy.loose (h : Busy P honest counted g info s) (hl : Loose s t) :
    Busy P honest counted g info t := by
  refine ⟨h.toInv.loose h.admitted hl, h.own.loose hl, ?_, by rw [hl.boot]; exact h.upgrade⟩
  obtain ⟨events, hlog, hm⟩ := hl.log
  obtain ⟨force, found, hlast, hblocks⟩ := h.admitted
  exact ⟨force, found, by rw [hlog, lastPass_append hm]; exact hlast, hblocks⟩

theorem Busy.works {α : Type} {x : Prog String World α} {Q : α → World → Prop} {E : String → World → Prop}
    (h : Busy P honest counted g info s) (hx : Works info x) (hQ : ∀ a t, Loose s t → Q a t)
    (hE : ∀ e t, Loose s t → E e t) : wp (Inv P honest counted g) x Q E s :=
  Keeps.wp hx (fun a t hl => hQ a t (hl h.own)) (fun e t hl => hE e t (hl h.own)) fun _ hl =>
    (h.loose (hl h.own)).toInv

theorem Busy.others {Q : Unit → World → Prop} {E : String → World → Prop} (h : Busy P honest counted g info s)
    (hQ : ∀ t, Quiet s t → Q () t) : wp (Inv P honest counted g) others Q E s :=
  (others_wp h.own fun _ hq => (h.loose hq.toLoose).toInv).mono (fun _ t => hQ t) (fun _ _ h => h)
    fun _ h => h

theorem verifyBundle_wp (h : Busy P honest counted g info s) :
    wp (Inv P honest counted g) (verifyBundle P info) (fun _ t => t = s ∧ Checked P info s)
    (fun _ => Loose s) s := by
  have hremove : ∀ e : String,
    wp (Inv P honest counted g) (do removeBundle info; .throw e : Prog String World Unit)
      (fun _ t => t = s ∧ Checked P info s) (fun _ => Loose s) s := fun e =>
    wp_bind (h.works removeBundle_works (fun _ _ hl => wp_throw hl) fun _ _ hl => hl)
  refine wp_bind (wp_get ?_ h.toInv)
  split
  · exact hremove _
  next hlength =>
  refine wp_bind (wp_op ?_ ⟨rfl, rfl, rfl, rfl, [], rfl, by simp⟩ h.toInv h.toInv)
  dsimp only
  rcases hfile : s.bundles info.release_id with _ | bytes
  · exact .refl s
  show wp _ _ _ _ s
  split
  · exact hremove _
  next hsha =>
  refine wp_pure ⟨rfl, bytes, hfile, ?_, not_not.1 hsha⟩
  rw [hfile] at hlength
  exact not_not.1 hlength

theorem beforeInstall_wp (h : Busy P honest counted g info s) :
    wp (Inv P honest counted g) (beforeInstall key info) (fun _ => Quiet s) (fun _ => Loose s) s := by
  have hlook : ∀ {t : World} {Q : Outside → World → Prop} {E : String → World → Prop}, Quiet s t →
      (∀ o u, Quiet s u → Q o u) → wp (Inv P honest counted g) look Q E t := fun ht hQ =>
    wp_look (fun o u hu => hQ o u (ht.trans hu.quiet)) (h.loose ht.toLoose).toInv
  have hremove : ∀ {t : World}, Loose s t → ∀ e : String,
      wp (Inv P honest counted g) (do removeBundle info; .throw e : Prog String World Unit)
        (fun _ => Quiet s) (fun _ => Loose s) t := fun ht e =>
    wp_bind ((h.loose ht).works removeBundle_works (fun _ _ hl => wp_throw (ht.trans hl)) fun _ _ hl =>
      ht.trans hl)
  refine wp_bind (hlook (.refl s) fun o t ht => ?_)
  split
  · exact hremove ht.toLoose _
  refine wp_bind (hlook ht fun o t ht => ?_)
  split
  · exact wp_throw ht.toLoose
  refine wp_bind (hlook ht fun o t ht => ?_)
  split
  · refine wp_bind (wp_report_applied (.inl rfl) (fun u hu => ?_) (h.loose ht.toLoose).toInv)
    exact hremove (ht.trans hu).toLoose _
  refine wp_bind (hlook ht fun o t ht => ?_)
  split
  · exact wp_throw ht.toLoose
  · exact wp_pure ht

/-- The stages that a pass records. -/
theorem save_stage_wp (stage : Stage) (error : Option String) (h : Busy P honest counted g info s)
    (hstage : stage = .installing ∨ stage = .failed ∨
      stage = .pendingReboot ∧ ∃ journal, s.journal = some journal ∧ journal.stage = .installing) :
    wp (Inv P honest counted g) (save_stage stage error)
      (fun _ t => Busy P honest counted g info t ∧ t.guard = s.guard ∧ t.bundles = s.bundles ∧
        ∃ journal, t.journal = some journal ∧ journal.stage = stage)
      (fun e t => Busy P honest counted g info t ∧ t.guard = s.guard ∧ is_deferred e = false) s := by
  refine wp_bind (wp_readJournal ?_ ⟨h, rfl, by decide⟩ h.toInv)
  obtain ⟨journal, hj, hversion, hboot, hrolled, hconfirmed⟩ := h.own
  rw [hj]
  have hrec := h.journal journal hj
  -- the record is made together with its event
  have hnew : Busy P honest counted g info { s with
      journal := some { journal with stage, error }
      log := (if stage = .installing then [.installing journal.version s.boot] else []) ++ s.log } := by
    have hown : Own info { s with
        journal := some { journal with stage, error }
        log := (if stage = .installing then [.installing journal.version s.boot] else []) ++ s.log } := by
      refine ⟨_, rfl, hversion, hboot, ?_, ?_⟩ <;> rcases hstage with rfl | rfl | ⟨rfl, -⟩ <;> simp
    rcases hstage with rfl | rfl | ⟨rfl, journal', hj', hs⟩
    · have hevent := h.toInv.event (e := .installing journal.version s.boot) trivial fun boot hb => by
        cases hb; rfl
      refine ⟨hevent.write ⟨hrec.boot, fun _ _ => ⟨s.boot, List.mem_cons_self .., hboot.symm⟩, by simp⟩,
        hown, ?_, h.upgrade⟩
      obtain ⟨force, found, hlast, hb⟩ := h.admitted
      exact ⟨force, found, hlast, hb⟩
    · exact ⟨h.toInv.write ⟨hrec.boot, fun _ hf => absurd rfl hf, by simp⟩, hown, h.admitted, h.upgrade⟩
    · rw [hj] at hj'
      cases hj'
      refine ⟨h.toInv.write ⟨hrec.boot, fun _ _ => ?_, by simp⟩, hown, h.admitted, h.upgrade⟩
      exact hrec.installing (by simp [hs]) (by simp [hs])
  exact wp_writeJournal ⟨hnew, rfl, rfl, _, rfl, rfl⟩ ⟨hnew, rfl, by decide⟩ ⟨h, rfl, by decide⟩
    h.toInv hnew.toInv

end Pass

/-! ### Installation -/

/-- The error with which the server defers a download is no other error's text. -/
theorem not_deferred {error : String} {c : Char} (h : error.toList.head? = some c) (hc : c ≠ 'u') :
    is_deferred error = false := by
  refine decide_eq_false fun heq => hc ?_
  have hd : DEFERRED.toList.head? = some 'u' := by decide
  rw [heq, hd] at h
  exact (Option.some.inj h).symm

section Install

variable {P : Platform} {honest counted : Prop} {g : Guard} {info : UpdateInfo} {key : Option String}
  {s t : World}

/-- The installation may have been started. -/
def Ended (P : Platform) (honest counted : Prop) (g : Guard) (info : UpdateInfo) (s : World) (error : String)
    (t : World) : Prop :=
  Busy P honest counted g info t ∧ (is_deferred error = true → t.guard = s.guard)

theorem Ended.deferred {error : String} (h : Busy P honest counted g info t)
    (he : is_deferred error = false) :
    Ended P honest counted g info s error t :=
  ⟨h, fun hd => by rw [he] at hd; cases hd⟩

theorem spawn_busy (h : Busy P honest counted g info s) (hr : counted → Reserved info s.guard)
    (hchecked : Checked P info s) :
    Busy P honest counted g info { s with
      log := .install info s.boot (s.bundles info.release_id) :: s.log
      guard := { s.guard with history := .replaced "os" info.version :: s.guard.history } } := by
  have hevent : Inv P honest counted g { s with log := .install info s.boot (s.bundles info.release_id) ::
        s.log } :=
    h.toInv.event ⟨h.admitted, h.upgrade, hchecked⟩ fun boot hb => by cases hb; rfl
  refine ⟨hevent.guard (fun hc => ?_) fun _ => .mark (.inl rfl), h.own, ?_, h.upgrade⟩
  · exact (h.covers hc).replaced (hr hc).1 (hr hc).2
  · obtain ⟨force, found, hlast, hb⟩ := h.admitted
    exact ⟨force, found, hlast, hb⟩

theorem install_wp (h : Busy P honest counted g info s) (hr : counted → Reserved info s.guard)
    (hchecked : Checked P info s) (hinstalling : ∃ journal, s.journal = some journal ∧
      journal.stage = .installing) :
    wp (Inv P honest counted g) (install key info) (fun _ => Inv P honest counted g)
      (Ended P honest counted g info s) s := by
  refine wp_bind (wp_look (fun o t ht => ?_) h.toInv)
  have hb := h.loose ht.quiet.toLoose
  have hguard : t.guard = s.guard := ht.guard
  have hcheck : Checked P info t := by unfold Checked; rw [ht.bundles]; exact hchecked
  have hstart := spawn_busy hb (by rw [hguard]; exact hr) hcheck
  have hinstalling : ∃ journal, t.journal = some journal ∧ journal.stage = .installing := by
    rw [ht.journal]
    exact hinstalling
  -- RAUC is at work
  have hothers : ∀ {Q : Unit → World → Prop}, (∀ u, Busy P honest counted g info u →
      (∃ journal, u.journal = some journal ∧ journal.stage = .installing) → Q () u) →
      wp (Inv P honest counted g) others Q (Ended P honest counted g info s) _ := fun hQ =>
    hstart.others fun u hu => hQ u (hstart.loose hu.toLoose) (by rw [hu.journal]; exact hinstalling)
  have hend : ∀ {u : World} {error : String}, Busy P honest counted g info u → is_deferred error = false →
      wp (Inv P honest counted g) (.throw error) (fun _ : Unit => Inv P honest counted g)
          (Ended P honest counted g info s) u :=
    fun hu he => wp_throw (Ended.deferred hu he)
  split
  · next error _ =>
    have hwp := save_stage_wp .failed (some ("rauc spawn: " ++ error)) hb (.inr (.inl rfl))
    refine wp_bind (wp_orElse (hwp.mono (fun _ u hu => ?_) (fun e u hu => ?_) fun _ h => h))
    · exact wp_throw ⟨hu.1, fun _ => hu.2.1.trans hguard⟩
    · exact wp_throw ⟨hu.1, fun _ => hu.2.1.trans hguard⟩
  · refine wp_bind (wp_note (wp_bind (hothers fun u hu _ => ?_)) hb.toInv)
    refine hend hu (not_deferred ?_ (by decide : 'R' ≠ 'u'))
    simp [String.toList_append]
  · refine wp_bind (wp_note (wp_bind (hothers fun u hu _ => ?_)) hb.toInv)
    refine wp_bind (wp_report_applied (.inl rfl) (fun v hv => ?_) hu.toInv)
    refine hend (hu.loose hv.toLoose) (not_deferred ?_ (by decide : 'r' ≠ 'u'))
    simp [String.toList_append]
  · refine wp_bind (wp_note (wp_bind (hothers fun u hu hj => ?_)) hb.toInv)
    have hremove : wp (Inv P honest counted g) (removeBundle info) (fun _ => Loose u)
        (Ended P honest counted g info s) u :=
      wp_ignore (wp_write ⟨rfl, rfl, rfl, rfl, [], rfl, by simp⟩ (.refl u) hu.toInv)
    refine wp_bind (hremove.mono (fun _ v hv => ?_) (fun _ _ h => h) fun _ h => h)
    refine wp_bind (wp_report_applied (.inr rfl) (fun w hw => ?_) (hu.loose hv).toInv)
    have hbusy := hu.loose (hv.trans hw.toLoose)
    rw [← hv.journal, ← hw.journal] at hj
    refine wp_bind ((save_stage_wp _ _ hbusy (.inr (.inr ⟨rfl, hj⟩))).mono (fun _ x hx => ?_)
      (fun e x hx => ?_) fun _ h => h)
    · refine wp_bind (hx.1.others fun y hy =>
        wp_bind (wp_look (fun o z hz => ?_) (hx.1.loose hy.toLoose).toInv))
      have hbusy := (hx.1.loose hy.toLoose).loose hz.quiet.toLoose
      refine wp_bind (wp_report_applied (.inl rfl) (fun w hw => ?_) hbusy.toInv)
      refine hend (hbusy.loose hw.toLoose) (not_deferred ?_ (by decide : 'O' ≠ 'u'))
      simp [String.toList_append]
    · exact .deferred hx.1 hx.2.2

theorem apply_inner_wp (h : Busy P honest counted g info s) (hr : counted → Reserved info s.guard) :
    wp (Inv P honest counted g) (apply_inner P key info) (fun _ => Inv P honest counted g)
      (Ended P honest counted g info s) s := by
  have hends : ∀ {e : String} {t : World}, Loose s t → Ended P honest counted g info s e t := fun ht =>
    ⟨h.loose ht, fun _ => ht.guard⟩
  have hupgrade : wp (Inv P honest counted g) (ensure_upgrade P info) (fun _ t => t = s)
      (Ended P honest counted g info s) s := by
    refine wp_bind (wp_get ?_ h.toInv)
    split
    · exact wp_pure rfl
    · exact wp_throw (hends (.refl s))
  refine wp_bind (hupgrade.mono ?_ (fun _ _ h => h) fun _ h => h)
  rintro - _ rfl
  refine wp_bind (wp_write ?_ (hends (.refl _)) h.toInv)
  refine wp_bind (h.works (downloadBundle_works 5) (fun _ t ht => ?_) fun e t ht => hends ht)
  have hbusy := h.loose ht
  refine wp_bind ((verifyBundle_wp hbusy).mono ?_ (fun e u hu => hends (ht.trans hu)) fun _ h => h)
  rintro - _ ⟨rfl, hchecked⟩
  refine wp_bind (hbusy.others fun u hu => ?_)
  have hq := ht.trans hu.toLoose
  refine wp_bind ((beforeInstall_wp (h.loose hq)).mono (fun _ v hv => ?_) (fun e v hv =>
    hends (hq.trans hv)) fun _ h => h)
  have hq' := hq.trans hv.toLoose
  refine wp_bind ((save_stage_wp _ _ (h.loose hq') (.inl rfl)).mono (fun _ w hw => ?_)
    (fun e w hw => ⟨hw.1, fun _ => hw.2.1.trans hq'.guard⟩) fun _ h => h)
  obtain ⟨hbusy', hguard, hbundles, hinstalling⟩ := hw
  have hcheck : Checked P info w := by
    unfold Checked
    rw [hbundles, hv.bundles, hu.bundles]
    exact hchecked
  have hsame : w.guard = _ := hguard.trans hq'.guard
  refine (install_wp hbusy' (by rw [hsame]; exact hr) hcheck hinstalling).mono (fun _ _ h => h)
    (fun e x hx => ?_) fun _ h => h
  exact ⟨hx.1, fun hd => (hx.2 hd).trans hsame⟩

end Install

/-! ### The whole pass -/

section Tracked

variable {P : Platform} {honest counted : Prop} {g : Guard} {info : UpdateInfo} {key : Option String}
  {s t : World}
  {id : String} {force : Bool}

theorem checkBlocked_wp {journal : Journal} {log : List Event} (h : Inv P honest counted g s)
    (hlog : s.log = .pass force (some journal) :: log) :
    wp (Inv P honest counted g) (checkBlocked journal force) (fun _ t => Still s t ∧ Admitted s.log)
    (fun _ => Still s) s := by
  have hadmitted : (force = false → journal.blocks_apply = false) → Admitted s.log := fun hb =>
    ⟨force, some journal, by rw [hlog]; rfl, fun hf j hj => by cases hj; exact hb hf⟩
  unfold checkBlocked
  split
  · next hb => exact wp_pure ⟨.refl s, hadmitted fun _ => by simpa using hb⟩
  split
  · next hf =>
    have ha := hadmitted fun h => by rw [h] at hf; cases hf
    refine wp_bind (wp_look (fun o t ht => ?_) h)
    split
    · exact wp_throw ht
    · exact wp_pure ⟨ht, ha⟩
  · exact wp_throw (.refl s)

theorem reconcileJournal_wp (h : Inv P honest counted g s) (hid : id = s.boot.id) :
    wp (Inv P honest counted g) (reconcileJournal id force)
      (fun _ t => Inv P honest counted g t ∧ Admitted t.log ∧ t.boot = s.boot ∧ t.guard = s.guard)
      (fun _ t => Inv P honest counted g t ∧ t.guard = s.guard) s := by
  refine wp_bind (wp_readJournal ?_ ⟨h, rfl⟩ h)
  rcases hj : s.journal with _ | journal
  · refine wp_note ⟨h.event trivial fun boot hb => (by cases hb), ?_, rfl, rfl⟩ h
    exact ⟨force, none, rfl, fun _ _ h => by cases h⟩
  refine wp_bind (wp_get (wp_bind (wp_boot_is_confirmed (fun t ht => ?_) fun t ht => h.still ht)) h)
  have hinv := h.still ht
  have hrec := (hinv.journal journal (ht.journal.trans hj)).reconcile t.healthy
  rw [ht.boot, ← hid] at hrec
  generalize journal.reconcile id s.boot.version t.healthy = j at *
  have hnew : Inv P honest counted g { t with journal := some j, log := .pass force (some j) :: t.log } :=
    (hinv.event (e := .pass force (some j)) trivial fun boot hb => (by cases hb)).write
      (hrec.mono rfl rfl fun e he => List.mem_cons_of_mem _ he)
  refine wp_bind (wp_writeJournal ?_ ⟨hnew, ht.guard⟩ ⟨hinv, ht.guard⟩ hinv hnew)
  refine (checkBlocked_wp hnew rfl).mono (fun _ u hu => ?_) (fun _ u hu => ?_) fun _ h => h
  · exact ⟨hnew.still hu.1, by rw [hu.1.log]; exact hu.2, hu.1.boot.trans ht.boot, hu.1.guard.trans ht.guard⟩
  · exact ⟨hnew.still hu, hu.guard.trans ht.guard⟩

/-- The counts after the reservation, and those before it. -/
def Counts (info : UpdateInfo) (before after : Guard) : Prop :=
  Reserved info after ∧ failures before.state "os" info.version < ATTEMPT_LIMIT ∧
    ∃ error, after.state = addFailure before.state "os" info.version error

theorem reserve_wp (h : Inv P honest counted g s) (ha : Admitted s.log) (hid : id = s.boot.id)
    (hupgrade : UpdatePolicy.is_version_upgrade P.semver info.version s.boot.version = true)
    (hforce : counted → force = false) :
    wp (Inv P honest counted g) (reserve info id force)
      (fun _ t => Busy P honest counted g info t ∧ (counted → Counts info s.guard t.guard))
      (fun _ t => Inv P honest counted g t ∧ (counted → t.guard.state = s.guard.state)) s := by
  have hfree : ∀ {t : World}, Inv P honest counted g t → ¬ counted →
      ∀ g', Inv P honest counted g { t with guard := g' } :=
    fun ht hc g' => ht.guard (fun hc' => absurd hc' hc) fun hc' => absurd hc' hc
  -- the pass may start only below the limit
  have hblocked : wp (Inv P honest counted g)
    (guarded (blocked "os" info.version force) : Prog String World (Option Nat))
      (fun n t => Inv P honest counted g t ∧ t.log = s.log ∧ t.boot = s.boot ∧ t.past = s.past ∧
        (counted → t.guard = s.guard ∧ (n = none → failures s.guard.state "os" info.version < ATTEMPT_LIMIT)))
      (fun _ t => Inv P honest counted g t ∧ (counted → t.guard.state = s.guard.state)) s := by
    refine wp_guarded counted (fun hc => ?_) fun hc g' => ?_
    · refine wp_blocked (h.covers hc).usable (fun n hn =>
        ⟨h, rfl, rfl, rfl, fun _ => ⟨rfl, fun hnone => ?_⟩⟩) h
      exact hn hnone (hforce hc)
    · have := hfree h hc g'
      exact ⟨this, fun _ => ⟨this, rfl, rfl, rfl, fun hc' => absurd hc' hc⟩,
        fun _ => ⟨this, fun hc' => absurd hc' hc⟩⟩
  refine wp_bind (hblocked.mono ?_ (fun _ _ h => h) fun _ h => h)
  rintro n t ⟨ht, hlog, hboot, hpast, hcount⟩
  have hsame : counted → t.guard.state = s.guard.state := fun hc => congrArg Guard.state (hcount hc).1
  split
  · exact wp_throw ⟨ht, hsame⟩
  have hnew : Inv P honest counted g
      { t with journal := some ⟨info.version, info.release_id, id, .downloading, none⟩ } := by
    refine ht.write ⟨⟨t.boot, List.mem_cons_self .., by rw [hboot, hid]⟩, fun h => absurd rfl h, by simp⟩
  refine wp_bind (wp_writeJournal ?_ ⟨hnew, hsame⟩ ⟨ht, hsame⟩ ht hnew)
  have hbusy : ∀ g', Inv P honest counted g
      { t with journal := some ⟨info.version, info.release_id, id, .downloading, none⟩, guard := g' } →
      Busy P honest counted g info
        { t with journal := some ⟨info.version, info.release_id, id, .downloading, none⟩, guard := g' } :=
          fun g' hg' =>
    ⟨hg', ⟨_, rfl, rfl, by rw [hid, ← hboot], by simp, by simp⟩, by rw [← hlog] at ha; exact ha,
      by rw [← hboot] at hupgrade; exact hupgrade⟩
  refine wp_bind (wp_guarded counted (fun hc => ?_) fun hc g' => ?_)
  · obtain ⟨hguard, hlimit⟩ := hcount hc
    have hlimit := hlimit rfl
    have hcovers := hnew.covers hc
    refine wp_record_attempt hcovers.usable hnew fun error => ?_
    have hadd : Inv P honest counted g { t with
        journal := some ⟨info.version, info.release_id, id, .downloading, none⟩
        guard := { t.guard with state := addFailure t.guard.state "os" info.version error } } :=
      hnew.guard (fun _ => hcovers.addFailure) fun _ => .addFailure
    refine ⟨hadd, fun n => wp_pure ⟨hbusy _ hadd, fun _ => ⟨⟨?_, ?_⟩, hlimit, error, by rw [hguard]⟩⟩⟩
    · have hle := hcovers.count info.version
      show replaced "os" info.version t.guard.history < failures
        (addFailure t.guard.state "os" info.version error) "os" info.version
      rw [failures_addFailure_self]
      have hmax : ATTEMPT_LIMIT ≤ U32_MAX := by decide
      rw [← hguard] at hlimit
      have hle : replaced "os" info.version t.guard.history ≤ failures t.guard.state "os" info.version := hle
      omega
    · have hle : replaced "os" info.version t.guard.history ≤ failures t.guard.state "os" info.version :=
        hcovers.count info.version
      rw [← hguard] at hlimit
      exact Nat.lt_of_le_of_lt hle hlimit
  · have := hfree hnew hc g'
    exact ⟨this, fun _ => wp_pure ⟨hbusy g' this, fun hc' => absurd hc' hc⟩,
      fun _ => ⟨this, fun hc' => absurd hc' hc⟩⟩

theorem noteFailure_wp {error : String} (h : Busy P honest counted g info s) :
    wp (Inv P honest counted g) (noteFailure error) (fun _ => Busy P honest counted g info)
      (fun e t => Inv P honest counted g t ∧ is_deferred e = false) s := by
  refine wp_bind (wp_readJournal ?_ ⟨h.toInv, by decide⟩ h.toInv)
  obtain ⟨journal, hj, hversion, hboot, hrolled, hconfirmed⟩ := h.own
  rw [hj]
  have hrec := h.journal journal hj
  dsimp only
  have hstages : ∀ stage : Stage, stage = (if journal.stage = .installing ∨
    journal.stage = .pendingReboot then
      journal.stage else .failed) → (stage = .failed ∨ stage = journal.stage ∧ stage ≠ .downloading) := by
    rintro _ rfl
    split
    · next hs => exact .inr ⟨rfl, by rcases hs with hs | hs <;> simp [hs]⟩
    · exact .inl rfl
  generalize (if journal.stage = .installing ∨ journal.stage = .pendingReboot then journal.stage
    else .failed) = stage at *
  have hnew : ∀ e, Busy P honest counted g info
      { s with journal := some { journal with stage, error := e } } := by
    intro e
    rcases hstages stage rfl with rfl | ⟨rfl, hs⟩
    · exact ⟨h.toInv.write ⟨hrec.boot, fun _ hf => absurd rfl hf, by simp⟩,
        ⟨_, rfl, hversion, hboot, by simp, by simp⟩, h.admitted, h.upgrade⟩
    · exact ⟨h.toInv.write ⟨hrec.boot, hrec.installing, hrec.later⟩,
        ⟨_, rfl, hversion, hboot, hrolled, hconfirmed⟩,
        h.admitted, h.upgrade⟩
  exact wp_writeJournal (hnew _) ⟨(hnew _).toInv, by decide⟩ ⟨h.toInv, by decide⟩ h.toInv (hnew _).toInv

theorem afterError_wp {error : String} (h : Busy P honest counted g info s)
    (hr : is_deferred error = true → counted → Reserved info s.guard) :
    wp (Inv P honest counted g) (afterError key info error) (fun _ => Inv P honest counted g)
      (fun e t => Inv P honest counted g t ∧ (counted → is_deferred e = true →
        t.guard.state = refund_entry s.guard.state (UpdateGuard.key "os" info.version) ∧
        is_deferred error = true)) s := by
  unfold afterError
  split
  · next hd =>
    refine wp_bind (wp_guarded counted (fun hc => ?_) fun hc g' => ?_)
    · have hcovers := h.covers hc
      have hrefund : Inv P honest counted g { s with
          guard := { s.guard with
              state := refund_entry s.guard.state (UpdateGuard.key "os" info.version) } } :=
        h.toInv.guard (fun _ => hcovers.refund (hr hd hc).1) fun _ => .refund
      exact wp_refund_attempt hcovers.usable h.toInv hrefund (wp_throw ⟨hrefund, fun _ _ => ⟨rfl, hd⟩⟩)
    · have : Inv P honest counted g { s with guard := g' } :=
        h.toInv.guard (fun hc' => absurd hc' hc) fun hc' => absurd hc' hc
      exact ⟨this, fun _ => wp_throw ⟨this, fun hc' => absurd hc' hc⟩,
        fun _ => ⟨this, fun hc' => absurd hc' hc⟩⟩
  · next hd =>
    refine wp_bind (h.others fun t ht => wp_bind ?_)
    refine (noteFailure_wp (h.loose ht.toLoose)).mono (fun _ u hu => ?_) (fun e u hu => ?_) fun _ h => h
    · refine wp_bind (wp_report_applied (.inl rfl) (fun v hv => ?_) hu.toInv)
      exact wp_throw ⟨(hu.loose hv.toLoose).toInv, fun _ he => absurd he hd⟩
    · exact ⟨hu.1, fun _ he => by rw [hu.2] at he; cases he⟩

/-- A pass keeps the invariant, and one that the server deferred leaves every count as it was. -/
theorem apply_tracked_wp (h : Inv P honest counted g s) (hforce : counted → force = false) :
    wp (Inv P honest counted g) (apply_tracked P key info force) (fun _ => Inv P honest counted g)
      (fun e t => Inv P honest counted g t ∧ (counted → is_deferred e = true →
        ∀ kind version, failures t.guard.state kind version = failures s.guard.state kind version)) s := by
  have hstill : ∀ {t : World} {e : String}, Still s t → Inv P honest counted g t ∧
    (counted → is_deferred e = true →
      ∀ kind version, failures t.guard.state kind version = failures s.guard.state kind version) := fun ht =>
    ⟨h.still ht, fun _ _ _ _ => by rw [ht.guard]⟩
  refine wp_bind (wp_look (fun o t ht => ?_) h)
  have hinv := h.still ht
  split
  · exact wp_throw (hstill ht)
  refine wp_bind (wp_bind (wp_get ?_ hinv))
  split
  swap
  · exact wp_throw (hstill ht)
  next hupgrade =>
  refine wp_pure (wp_bind (wp_read_or (fun id hid => ?_) hinv))
  split
  · exact wp_throw (hstill ht)
  next hne =>
  have hid : id = t.boot.id := hid.resolve_right hne
  refine wp_bind ((reconcileJournal_wp hinv hid).mono ?_ (fun e u hu => ?_) fun _ h => h)
  swap
  · exact ⟨hu.1, fun _ _ _ _ => by rw [hu.2, ht.guard]⟩
  rintro - u ⟨hu, hadmitted, hboot, hguard⟩
  have hguard : u.guard = s.guard := hguard.trans ht.guard
  refine wp_bind ((reserve_wp hu hadmitted (hid.trans (by rw [hboot])) (by rw [hboot]; exact hupgrade)
    hforce).mono ?_
    (fun e v hv => ?_) fun _ h => h)
  swap
  · exact ⟨hv.1, fun hc _ _ _ => by rw [hv.2 hc, hguard]⟩
  rintro - v ⟨hbusy, hcounts⟩
  refine wp_orElse ((apply_inner_wp hbusy fun hc => (hcounts hc).1).mono (fun _ _ h => h)
    (fun e w hw => ?_) fun _ h => h)
  have hr : is_deferred e = true → counted → Reserved info w.guard := fun hd hc => by
    rw [hw.2 hd]
    exact (hcounts hc).1
  refine (afterError_wp hw.1 hr).mono (fun _ _ h => h) (fun e' x hx =>
    ⟨hx.1, fun hc hd' kind version => ?_⟩) fun _ h => h
  obtain ⟨hstate, hd⟩ := hx.2 hc hd'
  obtain ⟨-, hlimit, error, hadd⟩ := hcounts hc
  have hmax : ATTEMPT_LIMIT < U32_MAX := by decide
  rw [hstate, hw.2 hd, hadd, failures_refunded (Nat.lt_trans hlimit hmax), hguard]

end Tracked

/-! ### A pass that is refused -/

section Refused

variable {P : Platform} {info : UpdateInfo} {key : Option String} {s : World}

/-- Nothing has happened but that the record was read. -/
def Refused (s t : World) : Prop := t.log = s.log ∨ ∃ found, t.log = .pass false found :: s.log

theorem apply_tracked_refused {journal : Journal} (hj : s.journal = some journal)
    (hblocks : ∀ healthy, (journal.reconcile s.boot.id s.boot.version healthy).blocks_apply = true) :
    wp (Refused s) (apply_tracked P key info false) (fun _ => Refused s) (fun _ => Refused s) s := by
  have hstill : ∀ {t : World}, Still s t → Refused s t := fun ht => .inl ht.log
  refine wp_bind (wp_look (fun o t ht => ?_) (hstill (.refl s)))
  split
  · exact wp_throw (hstill ht)
  refine wp_bind (wp_bind (wp_get ?_ (hstill ht)))
  split
  swap
  · exact wp_throw (hstill ht)
  refine wp_pure (wp_bind (wp_read_or (fun id hid => ?_) (hstill ht)))
  split
  · exact wp_throw (hstill ht)
  next hne =>
  have hid : id = s.boot.id := (hid.resolve_right hne).trans (by rw [ht.boot])
  refine wp_bind (wp_bind (wp_readJournal ?_ (hstill ht) (hstill ht)))
  rw [ht.journal, hj]
  refine wp_bind (wp_get (wp_bind (wp_boot_is_confirmed (fun u hu => ?_) fun u hu => hstill (ht.trans hu)))
    (hstill ht))
  have hu := ht.trans hu
  have hb : (journal.reconcile id t.boot.version u.healthy).blocks_apply = true := by
    rw [hid, ht.boot]
    exact hblocks u.healthy
  generalize journal.reconcile id t.boot.version u.healthy = j at *
  have hread : ∀ (w : World), w.log = .pass false (some j) :: u.log → Refused s w := fun w hw =>
    .inr ⟨some j, by rw [hw, hu.log]⟩
  refine wp_bind (wp_writeJournal ?_ (hread _ rfl) (hstill hu) (hstill hu) (hread _ rfl))
  unfold checkBlocked
  simp only [hb, Bool.not_true, Bool.false_eq_true, if_false]
  exact wp_throw (hread _ rfl)

end Refused

/-! ### Runs -/

/-- A pass is automatic, and the attempt file can be used. -/
def Action.automatic : Action → Bool
  | .apply _ _ force env => !force && env.usable
  | .applyPublic _ env => env.usable
  | .report env => env.usable
  | .boot .. => true

/-- No report is sent while the record says that the version which runs was rolled back. -/
def Truthful (s : World) : Action → Bool
  | .report _ =>
    s.journal.all fun journal => !(journal.stage = .rolledBack && journal.version = s.boot.version)
  | _ => true

section Runs

variable {P : Platform} {honest counted : Prop} {g : Guard} {s s' : World} {a : Action}

theorem Inv.enter {env : Env} (h : Inv P honest counted g s) (hu : counted → env.usable = true) :
    Inv P honest counted g (s.enter env) := by
  have hsame : counted → { s.guard with usable := env.usable } = s.guard := fun hc => by
    have := (h.covers hc).usable
    rw [hu hc, ← this]
  have hguard : Inv P honest counted g { s with guard := { s.guard with usable := env.usable } } :=
    h.guard (fun hc => by rw [hsame hc]; exact h.covers hc) fun hc => by rw [hsame hc]; exact .refl _ _
  exact hguard.still ⟨rfl, rfl, rfl, rfl, rfl, rfl⟩

theorem Inv.boot {id version : String} (h : Inv P honest counted g s)
    (hid : id ∉ (s.boot :: s.past).map Boot.id) :
    Inv P honest counted g { s with boot := ⟨id, version⟩, past := s.boot :: s.past, healthy := false } := by
  refine ⟨h.lawful, List.nodup_cons.2 ⟨hid, h.fresh⟩, fun e he boot hb =>
    List.mem_cons_of_mem _ (h.boots e he boot hb),
    fun journal hj => ?_, h.covers, h.only⟩
  obtain ⟨⟨boot, hmem, hboot⟩, hi, -⟩ := h.journal journal hj
  refine ⟨⟨boot, List.mem_cons_of_mem _ hmem, hboot⟩, hi, fun _ heq => hid ?_⟩
  rw [← show journal.boot_id = id from heq, ← hboot]
  exact List.mem_map_of_mem hmem

theorem Inv.step (h : Inv P honest counted g s) (hauto : counted → a.automatic = true)
    (hhonest : honest → Truthful s a = true) (hstep : step P s a = some s') : Inv P honest counted g s' := by
  cases a with
  | apply key info force env =>
    obtain rfl := Option.some.inj hstep
    have hforce : counted → force = false := fun hc => by simpa using (Bool.and_eq_true_iff.1 (hauto hc)).1
    have hu : counted → env.usable = true := fun hc => (Bool.and_eq_true_iff.1 (hauto hc)).2
    refine wp.world (C := Inv P honest counted g) ?_ env.plan
    exact (apply_tracked_wp (h.enter hu) hforce).mono (fun _ _ h => h) (fun _ _ h => h.1) fun _ h => h
  | applyPublic info env =>
    obtain rfl := Option.some.inj hstep
    refine wp.world (C := Inv P honest counted g) ?_ env.plan
    exact (apply_tracked_wp (h.enter hauto) fun _ => rfl).mono (fun _ _ h => h) (fun _ _ h => h.1)
      fun _ h => h
  | report env =>
    obtain rfl := Option.some.inj hstep
    refine wp.world (C := Inv P honest counted g) (report_inv (h.enter hauto) fun hh journal hj hs hv =>
      ?_) env.plan
    have := hhonest hh
    simp only [Truthful, show s.journal = some journal from hj, Option.all_some, hs,
      show journal.version = s.boot.version from hv] at this
    simp at this
  | boot id version =>
    simp only [OsUpdate.step] at hstep
    split at hstep
    · cases hstep
    · next hfresh =>
      cases hstep
      exact h.boot fun hmem => hfresh (.inr hmem)

theorem Inv.init (P : Platform) (honest counted : Prop) (boot : Boot) (bundles : String → Option Bytes)
    (guard : Guard) (outside : Outside) (hcovers : counted → Covers "os" guard) :
    Inv P honest counted guard (init boot bundles guard outside) :=
  ⟨trivial, by
      simp [OsUpdate.init], fun _ he => (by cases he), fun _ hj => (by cases hj), hcovers,
      fun _ => .refl _ _⟩

end Runs

/-! ### The truth -/

section Truth

variable {P : Platform} {honest : Prop} {s : World} {newer older log : List Event} {e : Event}

theorem Lawful.allowed (h : Lawful P honest (newer ++ e :: older)) : Allowed P honest older e := by
  induction newer with
  | nil => exact h.1
  | cons e' newer ih => exact ih h.2

theorem Lawful.mem (h : Lawful P honest log) (he : e ∈ log) : ∃ older, (∀ e' ∈ older, e' ∈ log) ∧
    Allowed P honest older e := by
  obtain ⟨newer, older, rfl⟩ := List.append_of_mem he
  exact ⟨older, fun e' he' => List.mem_append_right _ (List.mem_cons_of_mem _ he'), h.allowed⟩

end Truth

/-- RAUC was started wherever the installation of `version` was put on record. -/
def HandedOver (version : String) (log : List Event) : Prop :=
  ∀ boot, .installing version boot ∈ log → ∃ info file, .install info boot file ∈ log ∧ info.version = version

/-- What holds of the log in every state. -/
structure Truth (P : Platform) (s : World) : Prop where
  /-- A confirmation is of the version that runs, on a healthy boot, and never on that of its installation. -/
  confirmed : ∀ version boot healthy, .report version .confirmed boot healthy ∈ s.log →
    version = boot.version ∧ healthy = true ∧
      ∀ info boot' file, .install info boot' file ∈ s.log → info.version = version → boot'.id ≠ boot.id
  /-- A rollback is of another version than the one that runs, whose installation an earlier boot
  has on record. -/
  rolledBack : ∀ newer older version boot healthy, s.log = newer ++
    .report version .rolled_back boot healthy :: older →
    version ≠ boot.version ∧ (∃ boot', .installing version boot' ∈ older ∧ boot'.id ≠ boot.id) ∧
      (HandedOver version older →
        ∃ info boot' file, .install info boot' file ∈ older ∧ info.version = version ∧ boot'.id ≠ boot.id)
  /-- A pass that is not forced neither downloads nor installs where the reconciled record blocks it. -/
  download : ∀ newer older version, s.log = newer ++ .download version :: older → Admitted older
  admitted : ∀ newer older info boot file, s.log = newer ++ .install info boot file :: older → Admitted older
  /-- What is installed is an upgrade of the version that runs, and the file is the one that was offered. -/
  install : ∀ info boot file, .install info boot file ∈ s.log →
    UpdatePolicy.is_version_upgrade P.semver info.version boot.version = true ∧
      ∃ bytes, file = some bytes ∧ bytes.length = info.size_bytes ∧ P.sha256 bytes = info.sha256
  refused : ∀ journal, s.journal = some journal →
    (∀ healthy, (journal.reconcile s.boot.id s.boot.version healthy).blocks_apply = true) →
      ∀ t info env, (∃ key, step P s (.apply key info false env) = some t) ∨
        step P s (.applyPublic info env) = some t → Refused s t

theorem Inv.truth {P : Platform} {honest counted : Prop} {g : Guard} {s : World}
    (h : Inv P honest counted g s) (hh : honest) : Truth P s where
  confirmed version boot healthy hmem := by
    obtain ⟨-, -, hv, hhealthy⟩ := h.lawful.mem hmem
    refine ⟨hv, hhealthy, fun info boot' file hinstall hversion hid => ?_⟩
    obtain ⟨-, -, -, hupgrade, -⟩ := h.lawful.mem hinstall
    -- both boots are the same, so the version would be an upgrade of itself
    have hsame : boot' = boot :=
      List.inj_on_of_nodup_map h.fresh (h.boots _ hinstall _ rfl) (h.boots _ hmem _ rfl) hid
    rw [hversion, hsame, hv, UpdatePolicy.is_version_upgrade_irrefl] at hupgrade
    cases hupgrade
  rolledBack newer older version boot healthy hlog := by
    obtain ⟨⟨boot', hmem, hid⟩, hne⟩ := (hlog ▸ h.lawful).allowed
    refine ⟨hne hh, ⟨boot', hmem, hid⟩, fun hover => ?_⟩
    obtain ⟨info, file, hinstall, hv⟩ := hover boot' hmem
    exact ⟨info, boot', file, hinstall, hv, hid⟩
  download newer older version hlog := (hlog ▸ h.lawful).allowed
  admitted newer older info boot file hlog := (hlog ▸ h.lawful).allowed.1
  install info boot file hmem := by
    obtain ⟨-, -, -, h⟩ := h.lawful.mem hmem
    exact h
  refused journal hj hblocks t info env hstep := by
    have hj' : (s.enter env).journal = some journal := hj
    rcases hstep with ⟨key, hstep⟩ | hstep
    · obtain rfl := Option.some.inj hstep
      exact (apply_tracked_refused hj' hblocks).world env.plan
    · obtain rfl := Option.some.inj hstep
      exact (apply_tracked_refused hj' hblocks).world env.plan

/-- Whatever passes, crashes, boots and reports follow one another, while no report is sent of a rollback of
the version that runs. -/
theorem record_tells_truth (P : Platform) (boot : Boot) (bundles : String → Option Bytes) (guard : Guard)
    (outside : Outside) (actions : List Action) (s : World)
    (hrun : Machine.run (step P) (init boot bundles guard outside) actions = some s)
    (htruthful : Machine.Along (step P) (fun s a => Truthful s a = true)
      (init boot bundles guard outside) actions) :
    Truth P s := by
  have hinv : Inv P True False guard s :=
    htruthful.inv (fun _ _ _ hgood hstep h => Inv.step h (fun hc => hc.elim) (fun _ => hgood) hstep) hrun
      (Inv.init P True False boot bundles guard outside fun hc => hc.elim)
  exact hinv.truth trivial

/-- Versions are the lengths of their texts. -/
def plainPlatform : Platform where
  semver := ⟨Nat, fun text => some text.toList.length, fun a b => a < b, UpdatePolicy.length_lt_irrefl,
    UpdatePolicy.length_lt_trans⟩
  sha256 bytes := if bytes.length = 2 then "sha-2" else "sha"

/-- RAUC installs, every boot gets healthy, and the server takes every report. -/
def plainOutside : Outside where
  enabled := true
  net := ⟨false, fun _ => some ⟨200, [⟨false, some [0, 0]⟩]⟩⟩
  canceled := false
  installer_idle := true
  service := none
  rauc := .succeeded
  confirmed := true
  reports := 0
  delivered := true
  detail := ""

def plainEnv : Env := ⟨[], true, []⟩

def plainInit : World := init ⟨"a", "1"⟩ (fun _ => none) ⟨.empty, true, []⟩ plainOutside

def offer : Action := .apply "key" ⟨"release", "11", "sha-2", 2, "/11"⟩ false plainEnv

/-- An update that is installed, booted and confirmed. -/
theorem record_tells_truth_confirmed :
    ∃ s, Machine.run (step plainPlatform) plainInit [offer, .boot "b" "11", .report plainEnv] = some s ∧
      s.log.head? = some (.report "11" .confirmed ⟨"b", "11"⟩ true) ∧ Truth plainPlatform s := by
  obtain ⟨s, hrun, hlog, htruthful⟩ :
      ∃ s, Machine.run (step plainPlatform) plainInit [offer, .boot "b" "11", .report plainEnv] = some s ∧
        s.log.head? = some (.report "11" .confirmed ⟨"b", "11"⟩ true) ∧
        Machine.Along (step plainPlatform) (fun s a => Truthful s a = true) plainInit
          [offer, .boot "b" "11", .report plainEnv] :=
    ⟨_, rfl, rfl, ⟨rfl, rfl, rfl, trivial⟩⟩
  exact ⟨s, hrun, hlog, record_tells_truth plainPlatform ⟨"a", "1"⟩ (fun _ => none) ⟨.empty, true,
    []⟩ plainOutside
    [offer, .boot "b" "11", .report plainEnv] s hrun htruthful⟩

/-- The slot of an update that was rolled back is booted once more, and runs while its rollback is
reported. -/
theorem record_tells_rollback_of_running :
    ∃ s, Machine.run (step plainPlatform) plainInit
        [offer, .boot "b" "1", .report plainEnv, .boot "c" "11", .report plainEnv] = some s ∧
      s.boot.version = "11" ∧ s.log.head? = some (.report "11" .rolled_back ⟨"c", "11"⟩ true) ∧
      ¬ Truth plainPlatform s := by
  obtain ⟨s, hrun, hversion, hlog⟩ :
      ∃ s, Machine.run (step plainPlatform) plainInit
          [offer, .boot "b" "1", .report plainEnv, .boot "c" "11", .report plainEnv] = some s ∧
        s.boot.version = "11" ∧ s.log.head? = some (.report "11" .rolled_back ⟨"c", "11"⟩ true) :=
    ⟨_, rfl, rfl, rfl⟩
  refine ⟨s, hrun, hversion, hlog, fun h => ?_⟩
  obtain ⟨older, hlog⟩ := List.head?_eq_some_iff.1 hlog
  exact (h.rolledBack [] older "11" ⟨"c", "11"⟩ true hlog).1 rfl

end OsUpdate
