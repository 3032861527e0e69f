import BetterFrame.Lib.Run
import BetterFrame.Server.Version

/-!
# Reports of system updates

`reconcileOsUpdateReport` of `shared/os-update-status.ts`, and the two routes that store what it returns.
Reports come in any order, late and more than once; `Reconciled` is what holds of every run of them.
-/

namespace OsUpdateStatus

open Text Version

/-- What a kiosk reports of an update. -/
inductive State where
  | installed
  | pending_reboot
  | confirmed
  | rolled_back
  | failed
deriving DecidableEq

/-- A report of a kiosk. -/
structure Report where
  version : String
  state : State
  error : Option String
deriving DecidableEq

/-- The columns of the kiosk. -/
structure Record where
  os_update_last_attempt_version : Option String
  os_update_state : State
  os_update_last_error : Option String
deriving DecidableEq

/-- The states in which the confirmation of another version does not settle the target. -/
def State.awaits : State → Bool
  | .installed | .pending_reboot | .failed | .rolled_back => true
  | .confirmed => false

/-- A report that repeats the record is no news. -/
def unlessRecorded (previous : Record) (target : String) (report : Report) : Option Report :=
  if report.version = target ∧ report.state = previous.os_update_state ∧
    report.error = previous.os_update_last_error then
    none
  else some report

/-- What is stored of a report, or nothing when it is stale. -/
def reconcileOsUpdateReport (previous : Record) (report : Report) : Option Report :=
  match truthy previous.os_update_last_attempt_version with
  | none => some report
  | some target =>
    let state := previous.os_update_state
    if report.version ≠ target then
      if report.state = .confirmed ∧ state.awaits then
        if isVersionUpgrade report.version target then some report
        else if (truthy previous.os_update_last_error).isSome then none
        else some ⟨target, state,
          some ("Running OS " ++ report.version ++ " has not confirmed update " ++ target ++
          ". Awaiting the device's update result.")⟩
      else if isVersionUpgrade target report.version then none
      else unlessRecorded previous target report
    else if state = .confirmed ∧ report.state ≠ .confirmed ∧ report.state ≠ .rolled_back then none
    else unlessRecorded previous target report

/-- `recordKioskOsUpdateAttempt`, where there is something to record. -/
def applyReport (previous : Record) (report : Report) : Record :=
  match reconcileOsUpdateReport previous report with
  | none => previous
  | some report => ⟨some report.version, report.state, report.error⟩

def applyReports (previous : Record) (reports : List Report) : Record := reports.foldl applyReport previous

/-! ### One report -/

/-- A report that is recorded as it came: it is of the target, whose confirmation only a rollback
undoes, or of a newer version. -/
def Accepted (previous : Record) (target : String) (report : Report) : Prop :=
  report.version = target ∧ (previous.os_update_state = .confirmed →
      report.state = .confirmed ∨ report.state = .rolled_back) ∨
    isVersionUpgrade report.version target = true

/-- A confirmation of an older version, of which only a message is recorded. -/
structure Noted (previous : Record) (target : String) (report : Report) : Prop where
  version : report.version ≠ target
  older : ¬ isVersionUpgrade report.version target = true
  report : report.state = .confirmed
  awaits : previous.os_update_state.awaits = true
  silent : truthy previous.os_update_last_error = none

section Step

variable {versions : List String} {target : String} {previous : Record} {report : Report}

theorem unlessRecorded_cases : unlessRecorded previous target report = none ∨
    unlessRecorded previous target report = some report := by
  unfold unlessRecorded
  split
  · exact .inl rfl
  · exact .inr rfl

theorem reconcile_cases (hd : Distinct versions) (ht : previous.os_update_last_attempt_version = some target)
    (hmem : target ∈ versions) (hreport : report.version ∈ versions) :
    reconcileOsUpdateReport previous report = none ∨
      (reconcileOsUpdateReport previous report = some report ∧ Accepted previous target report) ∨
      (Noted previous target report ∧ ∃ error,
        reconcileOsUpdateReport previous report = some ⟨target, previous.os_update_state, some error⟩ ∧
        error ≠ "") := by
  have hne : target ≠ "" := by
    rintro rfl
    exact absurd (hd.parses "" hmem) (by decide)
  unfold reconcileOsUpdateReport
  rw [truthy_eq_some.2 ⟨ht, hne⟩]
  dsimp only
  split
  · next hv =>
    split
    · next hc =>
      split
      · next hup => exact .inr (.inl ⟨rfl, .inr hup⟩)
      split
      · exact .inl rfl
      next hup herror =>
      refine .inr (.inr ⟨⟨hv, hup, hc.1, hc.2, by simpa using herror⟩, _, rfl, fun he => ?_⟩)
      have := congrArg String.toList he
      simp [String.toList_append] at this
    split
    · exact .inl rfl
    next hup =>
    have hnewer := (hd.total hreport hmem hv).resolve_right hup
    exact unlessRecorded_cases.imp_right fun h => .inl ⟨h, .inr hnewer⟩
  next hv =>
  split
  · exact .inl rfl
  next hlate =>
  refine unlessRecorded_cases.imp_right fun h => .inl ⟨h, .inl ⟨not_not.1 hv, fun hs => ?_⟩⟩
  by_contra hstate
  rw [not_or] at hstate
  exact hlate ⟨hs, hstate⟩

/-- The record after a report. -/
theorem applyReport_cases (hd : Distinct versions)
    (ht : previous.os_update_last_attempt_version = some target)
    (hmem : target ∈ versions) (hreport : report.version ∈ versions) :
    applyReport previous report = previous ∨
      (applyReport previous report = ⟨some report.version, report.state, report.error⟩ ∧
        Accepted previous target report) ∨ (Noted previous target report ∧ ∃ error,
        applyReport previous report = ⟨some target, previous.os_update_state, some error⟩ ∧ error ≠ "") := by
  unfold applyReport
  rcases reconcile_cases hd ht hmem hreport with h | ⟨h, ha⟩ | ⟨hn, error, h, he⟩
  · rw [h]
    exact .inl rfl
  · rw [h]
    exact .inr (.inl ⟨rfl, ha⟩)
  · rw [h]
    exact .inr (.inr ⟨hn, error, rfl, he⟩)

/-- The same report once more is no news. -/
theorem applyReport_idem (hd : Distinct versions) (ht : previous.os_update_last_attempt_version = some target)
    (hmem : target ∈ versions) (hreport : report.version ∈ versions) :
    applyReport (applyReport previous report) report = applyReport previous report := by
  rcases applyReport_cases hd ht hmem hreport with h | ⟨h, -⟩ | ⟨hn, error, h, he⟩
  · rw [h, h]
  · rw [h]
    have hagain : reconcileOsUpdateReport ⟨some report.version, report.state, report.error⟩ report = none ∨
        reconcileOsUpdateReport ⟨some report.version, report.state, report.error⟩ report = some report := by
      unfold reconcileOsUpdateReport
      split
      · exact .inr rfl
      next target' ht' =>
      obtain rfl : report.version = target' := Option.some.inj (truthy_eq_some.1 ht').1
      rw [if_neg (not_not.2 rfl)]
      split
      · exact .inl rfl
      · exact unlessRecorded_cases
    unfold applyReport
    rcases hagain with h | h <;> rw [h]
  · have hne : target ≠ "" := by
      rintro rfl
      exact absurd (hd.parses "" hmem) (by decide)
    have hnone : reconcileOsUpdateReport ⟨some target, previous.os_update_state, some error⟩ report =
        none := by
      unfold reconcileOsUpdateReport
      rw [truthy_eq_some.2 ⟨rfl, hne⟩]
      dsimp only
      rw [if_pos hn.version, if_pos ⟨hn.report, hn.awaits⟩, if_neg hn.older, truthy_eq_some.2 ⟨rfl, he⟩]
      rfl
    rw [h]
    unfold applyReport
    rw [hnone]

/-- The target is kept or replaced by a newer one. -/
theorem applyReport_target (hd : Distinct versions)
    (ht : previous.os_update_last_attempt_version = some target)
    (hmem : target ∈ versions) (hreport : report.version ∈ versions) :
    ∃ target' ∈ versions, (applyReport previous report).os_update_last_attempt_version = some target' ∧
      (target' = target ∨ isVersionUpgrade target' target = true) := by
  rcases applyReport_cases hd ht hmem hreport with h | ⟨h, ha⟩ | ⟨-, error, h, -⟩
  · exact ⟨target, hmem, by rw [h]; exact ht, .inl rfl⟩
  · exact ⟨report.version, hreport, by rw [h], ha.imp_left And.left⟩
  · exact ⟨target, hmem, by rw [h], .inl rfl⟩

end Step

/-! ### Runs of reports -/

/-- What holds of a record and the report that comes next. -/
structure Sticky (previous : Record) (target : String) (report : Report) : Prop where
  /-- A confirmed version stays confirmed. -/
  confirmed : previous.os_update_state = .confirmed →
    applyReport previous report = ⟨some target, .confirmed,
      (applyReport previous report).os_update_last_error⟩ ∨
      (report.version = target ∧ report.state = .rolled_back) ∨ isVersionUpgrade report.version target = true
  /-- A confirmation of an older version says nothing of the target. -/
  older : report.state = .confirmed → isVersionUpgrade target report.version = true →
    (applyReport previous report).os_update_last_attempt_version = some target ∧
      (applyReport previous report).os_update_state = previous.os_update_state
  twice : applyReport (applyReport previous report) report = applyReport previous report

section Runs

variable {versions : List String} {target : String} {previous : Record} {report : Report}
  {reports : List Report}

theorem sticky (hd : Distinct versions) (ht : previous.os_update_last_attempt_version = some target)
    (hmem : target ∈ versions) (hreport : report.version ∈ versions) : Sticky previous target report where
  confirmed hs := by
    rcases applyReport_cases hd ht hmem hreport with h | ⟨h, ⟨hv, hstate⟩ | hup⟩ | ⟨hn, -⟩
    · rw [h, ← ht, ← hs]
      exact .inl rfl
    · rw [h]
      rcases hstate hs with hstate | hstate
      · rw [hv, hstate]
        exact .inl rfl
      · exact .inr (.inl ⟨hv, hstate⟩)
    · exact .inr (.inr hup)
    · have := hn.awaits
      rw [hs] at this
      cases this
  older hs hold := by
    have hnew := hd.asymm hmem hreport hold
    have hne : report.version ≠ target := by
      rintro rfl
      rw [hold] at hnew
      cases hnew
    rcases applyReport_cases hd ht hmem hreport with h | ⟨h, ⟨hv, -⟩ | hup⟩ | ⟨-, error, h, -⟩
    · rw [h]
      exact ⟨ht, rfl⟩
    · exact absurd hv hne
    · rw [hup] at hnew
      cases hnew
    · rw [h]
      exact ⟨rfl, rfl⟩
  twice := applyReport_idem hd ht hmem hreport

/-- A run keeps the target or moves it forward. -/
theorem applyReports_target (hd : Distinct versions)
    (ht : previous.os_update_last_attempt_version = some target)
    (hmem : target ∈ versions) (hreports : ∀ r ∈ reports, r.version ∈ versions) :
    ∃ target' ∈ versions, (applyReports previous reports).os_update_last_attempt_version = some target' ∧
      (target' = target ∨ isVersionUpgrade target' target = true) := by
  induction reports generalizing previous target with
  | nil => exact ⟨target, hmem, ht, .inl rfl⟩
  | cons report reports ih =>
    obtain ⟨next, hnext, hrecord, hle⟩ :=
      applyReport_target hd ht hmem (hreports report (List.mem_cons_self ..))
    obtain ⟨last, hlast, hrecord', hle'⟩ :=
      ih hrecord hnext fun r hr => hreports r (List.mem_cons_of_mem _ hr)
    refine ⟨last, hlast, hrecord', ?_⟩
    rcases hle with rfl | hle
    · exact hle'
    · rcases hle' with rfl | hle'
      · exact .inr hle
      · exact .inr (hd.trans hlast hnext hmem hle' hle)

/-- In every run of reports the target only moves forward, and each report meets `Sticky` in the
record that it finds. -/
theorem reports_reconciled (previous : Record) (target : String) (reports : List Report)
    (ht : previous.os_update_last_attempt_version = some target)
    (hd : Distinct (target :: reports.map Report.version)) :
    (∀ before after rest, reports = before ++ after ++ rest →
      ∃ v w, (applyReports previous before).os_update_last_attempt_version = some v ∧
        (applyReports previous (before ++ after)).os_update_last_attempt_version = some w ∧
        (w = v ∨ isVersionUpgrade w v = true)) ∧
      ∀ before report rest, reports = before ++ report :: rest →
        ∃ v, (applyReports previous before).os_update_last_attempt_version = some v ∧
          Sticky (applyReports previous before) v report := by
  have hmem : ∀ r ∈ reports, r.version ∈ target :: reports.map Report.version := fun r hr =>
    List.mem_cons_of_mem _ (List.mem_map_of_mem hr)
  have htarget : target ∈ target :: reports.map Report.version := List.mem_cons_self ..
  constructor
  · intro before after rest hreports
    have hbefore : ∀ r ∈ before, r.version ∈ target :: reports.map Report.version := fun r hr =>
      hmem r (by rw [hreports]; simp [hr])
    have hafter : ∀ r ∈ after, r.version ∈ target :: reports.map Report.version := fun r hr =>
      hmem r (by rw [hreports]; simp [hr])
    obtain ⟨v, hv, hrecord, -⟩ := applyReports_target hd ht htarget hbefore
    obtain ⟨w, -, hrecord', hle⟩ := applyReports_target hd hrecord hv hafter
    refine ⟨v, w, hrecord, ?_, hle⟩
    rw [applyReports, List.foldl_append]
    exact hrecord'
  · intro before report rest hreports
    have hbefore : ∀ r ∈ before, r.version ∈ target :: reports.map Report.version := fun r hr =>
      hmem r (by rw [hreports]; simp [hr])
    obtain ⟨v, hv, hrecord, -⟩ := applyReports_target hd ht htarget hbefore
    exact ⟨v, hrecord, sticky hd hrecord hv (hmem report (by rw [hreports]; simp))⟩

/-- A late confirmation of the old slot, a rollback and the next release. -/
theorem reports_reconciled_late :
    applyReports ⟨some "1.0.0", .confirmed, none⟩
        [⟨"0.9.0", .confirmed, none⟩, ⟨"1.0.0", .rolled_back, none⟩, ⟨"1.0.1", .pending_reboot, none⟩] =
        ⟨some "1.0.1", .pending_reboot, none⟩ ∧
      ∃ v, (applyReports ⟨some "1.0.0", .confirmed, none⟩ []).os_update_last_attempt_version = some v ∧
        Sticky (applyReports ⟨some "1.0.0", .confirmed, none⟩ []) v ⟨"0.9.0", .confirmed, none⟩ := by
  refine ⟨by decide, ?_⟩
  refine (reports_reconciled ⟨some "1.0.0", .confirmed, none⟩ "1.0.0"
    [⟨"0.9.0", .confirmed, none⟩, ⟨"1.0.0", .rolled_back, none⟩, ⟨"1.0.1", .pending_reboot, none⟩] rfl
    ⟨by decide, ?_⟩).2 [] _ _ rfl
  have hdiffer : ∀ v ∈ ["1.0.0", "0.9.0", "1.0.0", "1.0.1"], ∀ w ∈ ["1.0.0", "0.9.0", "1.0.0", "1.0.1"],
    v ≠ w →
      ((parseVersion v).bind fun x => (parseVersion w).map (compareVersions x)) ≠ some .eq := by decide
  intro v hv w hw hne x y hx hy heq
  exact hdiffer v hv w hw hne (by rw [hx, hy, ← heq]; rfl)

end Runs

end OsUpdateStatus
