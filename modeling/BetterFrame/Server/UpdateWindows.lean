import BetterFrame.Client.UpdatePolicy
import BetterFrame.Lib.Json

/-!
# Weekly update windows

`shared/update-schedule.ts`, and that the client's `Schedule::allows` gives the same answer.
`Number` is a parameter: it says which integer, if any, a value's number is. `allowsNow_agrees` is
the law of both over the circle of a week's minutes.
-/

namespace UpdateWindows

open Text

/-- A window of one weekday. -/
structure UpdateScheduleWindow where
  day : Nat
  start : String
  «end» : String

inductive Mode where
  | always
  | windows
deriving DecidableEq

/-- When updates may be applied. -/
structure UpdateSchedule where
  mode : Mode
  windows : List UpdateScheduleWindow

def DEFAULT_UPDATE_SCHEDULE : UpdateSchedule := ⟨.always, []⟩

/-- The groups of `/^([01]\d|2[0-3]):([0-5]\d)$/`. -/
def timeGroups (value : String) : Option (List Char × List Char) :=
  match value.toList with
  | [a, b, ':', c, d] =>
    if ((a = '0' ∨ a = '1') ∧ isDigit b ∨ a = '2' ∧ '0' ≤ b ∧ b ≤ '3') ∧ ('0' ≤ c ∧ c ≤ '5') ∧
      isDigit d then some ([a, b], [c, d])
    else none
  | _ => none

/-- Minutes since midnight. -/
def parseMinutes (value : String) : Option Nat :=
  (timeGroups value).map fun groups => digitsValue groups.1 * 60 + digitsValue groups.2

def isObject : Json → Bool
  | .obj _ | .arr _ => true
  | _ => false

def text : Option Json → String
  | some (.str s) => s
  | _ => ""

variable (number : Option Json → Option Int)

/-- A window of the stored form, or nothing when it is not acceptable. -/
def normalizeWindow (raw : Json) : Option UpdateScheduleWindow :=
  if isObject raw then
    let start := text (raw.get? "start")
    let stop := text (raw.get? "end")
    match number (raw.get? "day") with
    | none => none
    | some day =>
      if day < 0 ∨ day > 6 then none
      else if timeGroups start = none ∨ timeGroups stop = none ∨ start = stop then none
      else some ⟨day.toNat, start, stop⟩
  else none

/-- The schedule of the stored form, with defaults for what is missing. -/
def normalizeUpdateSchedule (raw : Option Json) : UpdateSchedule :=
  match raw with
  | none => DEFAULT_UPDATE_SCHEDULE
  | some raw =>
    match raw.get? "mode" with
    | some (.str "windows") =>
      let windows := match raw.get? "windows" with
        | some (.arr windows) => windows.filterMap (normalizeWindow number)
        | _ => []
      if windows.length > 0 then ⟨.windows, windows⟩ else DEFAULT_UPDATE_SCHEDULE
    | _ => DEFAULT_UPDATE_SCHEDULE

/-- The window covers the minute; one that ends before it starts runs over midnight. -/
def UpdateScheduleWindow.allows (window : UpdateScheduleWindow) (day minute : Nat) : Bool :=
  match parseMinutes window.start, parseMinutes window.end with
  | some start, some stop =>
    if start = stop then false
    else if start < stop then window.day = day ∧ minute ≥ start ∧ minute < stop
    else (window.day = day ∧ minute ≥ start) ∨ ((window.day + 1) % 7 = day ∧ minute < stop)
  | _, _ => false

/-- The schedule's answer at a day and minute. -/
def updateScheduleAllowsNow (schedule : UpdateSchedule) (day minute : Nat) : Bool :=
  if schedule.mode = .always then true else schedule.windows.any (·.allows day minute)

/-- The schedule as the device gets it. -/
def UpdateSchedule.received (schedule : UpdateSchedule) (timezone : String) : UpdatePolicy.Schedule where
  mode := match schedule.mode with
    | .always => "always"
    | .windows => "windows"
  windows := schedule.windows.map fun window => ⟨window.day, window.start, window.end⟩
  timezone := timezone

/-- The minutes of the week from `start` on, until the next time that the day's minute is `stop`. -/
def Arc (start stop minuteOfWeek : Nat) : Prop :=
  ∃ i, (∀ k, 0 < k → k ≤ i → (start + k) % 1440 ≠ stop) ∧ minuteOfWeek = (start + i) % 10080

/-- The minute of the week lies in the arc of the window. -/
def UpdateScheduleWindow.Covers (window : UpdateScheduleWindow) (minuteOfWeek : Nat) : Prop :=
  ∃ start stop, parseMinutes window.start = some start ∧ parseMinutes window.end = some stop ∧
    Arc (window.day * 1440 + start) stop minuteOfWeek

/-! ### Times of the day -/

variable {number} {value : String} {window : UpdateScheduleWindow} {day minute start stop : Nat}

theorem le_iff_toNat {c d : Char} : c ≤ d ↔ c.toNat ≤ d.toNat := Char.le_def.trans UInt32.le_iff_toNat_le

theorem isDigit_iff {c : Char} : isDigit c = true ↔ 48 ≤ c.toNat ∧ c.toNat ≤ 57 := by
  rw [isDigit, Bool.and_eq_true, decide_eq_true_eq, decide_eq_true_eq, le_iff_toNat, le_iff_toNat]
  rfl

/-- What the expression matches is what the bytes say. -/
theorem matches_iff {a b c d : Char} :
    ((a = '0' ∨ a = '1') ∧ isDigit b ∨ a = '2' ∧ '0' ≤ b ∧ b ≤ '3') ∧ ('0' ≤ c ∧ c ≤ '5') ∧ isDigit d ↔
      [a, b, c, d].all isDigit ∧ digitsValue [a, b] < 24 ∧ digitsValue [c, d] < 60 := by
  have hvalue : ∀ x y : Char, digitsValue [x, y] = (x.toNat - 48) * 10 + (y.toNat - 48) :=
    fun x y => by simp [digitsValue]
  simp only [List.all_cons, List.all_nil, Bool.and_true, Bool.and_eq_true, isDigit_iff, hvalue,
    le_iff_toNat, ← Char.toNat_inj]
  have h0 : '0'.toNat = 48 := rfl
  have h1 : '1'.toNat = 49 := rfl
  have h2 : '2'.toNat = 50 := rfl
  have h3 : '3'.toNat = 51 := rfl
  have h5 : '5'.toNat = 53 := rfl
  omega

theorem parseMinutes_eq (value : String) : parseMinutes value = UpdatePolicy.minutes value := by
  unfold parseMinutes timeGroups UpdatePolicy.minutes
  generalize value.toList = cs
  split
  · next a b c d =>
    change _ =
      if [a, b, c, d].all isDigit then
        if digitsValue [a, b] < 24 ∧ digitsValue [c, d] < 60 then
          some (digitsValue [a, b] * 60 + digitsValue [c, d])
        else none
      else none
    by_cases h : ((a = '0' ∨ a = '1') ∧ isDigit b ∨ a = '2' ∧ '0' ≤ b ∧ b ≤ '3') ∧
      ('0' ≤ c ∧ c ≤ '5') ∧ isDigit d
    · obtain ⟨hdigits, hhour, hminute⟩ := matches_iff.1 h
      rw [if_pos h, if_pos hdigits, if_pos ⟨hhour, hminute⟩]
      rfl
    · rw [if_neg h]
      split
      · next hdigits => exact (if_neg fun hle => h (matches_iff.2 ⟨hdigits, hle.1, hle.2⟩)).symm
      · rfl
  · simp

theorem parseMinutes_lt (h : parseMinutes value = some minute) : minute < 1440 := by
  rw [parseMinutes_eq] at h
  unfold UpdatePolicy.minutes at h
  split at h
  · split at h
    · dsimp only at h
      split at h
      · obtain rfl := Option.some.inj h
        omega
      · cases h
    · cases h
  · cases h

/-- The arc ends before the day's minute comes round. -/
theorem arc_iff {base : Nat} (hstart : start < 1440) (hstop : stop < 1440) {m : Nat} :
    Arc (base * 1440 + start) stop m ↔
      ∃ i < (if start < stop then stop - start else stop + 1440 - start),
      m = (base * 1440 + start + i) % 10080 := by
  refine exists_congr fun i => and_congr_left fun _ => ?_
  constructor
  · intro h
    by_contra hle
    split at hle
    · refine h (stop - start) (by omega) (by omega) ?_
      omega
    · refine h (stop + 1440 - start) (by omega) (by omega) ?_
      omega
  · intro hi k hk hki heq
    split at hi
    · omega
    · omega

theorem allows_iff_arc (hday : day ≤ 6) (hminute : minute < 1440) (hwindow : window.day ≤ 6)
    (hstart : parseMinutes window.start = some start) (hstop : parseMinutes window.end = some stop)
    (hne : start ≠ stop) :
    window.allows day minute = true ↔ Arc (window.day * 1440 + start) stop (day * 1440 + minute) := by
  have hstart_lt := parseMinutes_lt hstart
  have hstop_lt := parseMinutes_lt hstop
  rw [arc_iff hstart_lt hstop_lt]
  unfold UpdateScheduleWindow.allows
  rw [hstart, hstop]
  simp only [if_neg hne]
  split
  · next hlt =>
    rw [decide_eq_true_eq]
    constructor
    · rintro ⟨rfl, hge, hbefore⟩
      exact ⟨minute - start, by omega, by omega⟩
    · rintro ⟨i, hi, heq⟩
      omega
  · next hge =>
    rw [decide_eq_true_eq]
    constructor
    · rintro (⟨rfl, hafter⟩ | ⟨rfl, hbefore⟩)
      · exact ⟨minute - start, by omega, by omega⟩
      · exact ⟨minute + 1440 - start, by omega, by omega⟩
    · rintro ⟨i, hi, heq⟩
      omega

theorem timeGroups_minutes {value : String} (h : timeGroups value ≠ none) :
    ∃ minute, parseMinutes value = some minute := by
  obtain ⟨groups, hgroups⟩ := Option.ne_none_iff_exists'.1 h
  exact ⟨_, by rw [parseMinutes, hgroups, Option.map_some]⟩

/-- The two digits of a number below a hundred are determined by it. -/
theorem parseMinutes_inj {value value' : String} (h : parseMinutes value = some minute)
    (h' : parseMinutes value' = some minute) :
    value = value' := by
  rw [parseMinutes_eq] at h h'
  unfold UpdatePolicy.minutes at h h'
  have hchar : ∀ {c d : Char}, isDigit c → isDigit d → c.toNat - 48 = d.toNat - 48 →
      c = d := fun hc hd heq => by
    rw [isDigit_iff] at hc hd
    exact Char.toNat_inj.1 (by omega)
  split at h
  · next a b c d hvalue =>
    split at h'
    · next a' b' c' d' hvalue' =>
      dsimp only at h h'
      split at h
      · next hdigits =>
        split at h
        · next hle =>
          split at h'
          · next hdigits' =>
            split at h'
            · next hle' =>
              have heq := (Option.some.inj h).trans (Option.some.inj h').symm
              simp only [List.all_cons, List.all_nil, Bool.and_true, Bool.and_eq_true] at hdigits hdigits'
              obtain ⟨ha, hb, hc, hd⟩ := hdigits
              obtain ⟨ha', hb', hc', hd'⟩ := hdigits'
              have hnat := And.intro (isDigit_iff.1 ha)
                (And.intro (isDigit_iff.1 hb) (And.intro (isDigit_iff.1 hc) (isDigit_iff.1 hd)))
              have hnat' :=
                And.intro (isDigit_iff.1 ha')
                  (And.intro (isDigit_iff.1 hb') (And.intro (isDigit_iff.1 hc') (isDigit_iff.1 hd')))
              simp only [digitsValue, List.foldl_cons, List.foldl_nil] at heq hle hle'
              rw [hchar ha ha' (by omega), hchar hb hb' (by omega), hchar hc hc' (by omega),
                hchar hd hd' (by omega)] at hvalue
              exact String.toList_inj.1 (hvalue.trans hvalue'.symm)
            · cases h'
          · cases h'
        · cases h
      · cases h
    · cases h'
  · cases h

/-- What a window is after its normalisation. -/
theorem normalizeWindow_some {raw : Json} (h : normalizeWindow number raw = some window) :
    window.day ≤ 6 ∧ ∃ start stop, parseMinutes window.start = some start ∧
    parseMinutes window.end = some stop ∧ start ≠ stop := by
  unfold normalizeWindow at h
  split at h
  · dsimp only at h
    split at h
    · cases h
    · split at h
      · cases h
      · next hday =>
        split at h
        · cases h
        · next htimes =>
          rw [not_or, not_or] at htimes
          obtain ⟨hstart, hstop, hne⟩ := htimes
          obtain ⟨start, hstart⟩ := timeGroups_minutes hstart
          obtain ⟨stop, hstop⟩ := timeGroups_minutes hstop
          obtain rfl := Option.some.inj h
          refine ⟨by dsimp only; omega, start, stop, hstart, hstop, fun heq => hne ?_⟩
          exact parseMinutes_inj hstart (heq ▸ hstop)
  · cases h

theorem allows_received (window : UpdateScheduleWindow) (day minute : Nat) (hwindow : window.day ≤ 6) :
    window.allows day minute = UpdatePolicy.Window.allows ⟨window.day, window.start, window.end⟩ day
    minute := by
  unfold UpdateScheduleWindow.allows UpdatePolicy.Window.allows
  rw [parseMinutes_eq, parseMinutes_eq]
  dsimp only
  rcases UpdatePolicy.minutes window.start with _ | start
  · rfl
  rcases UpdatePolicy.minutes window.end with _ | stop
  · rfl
  dsimp only
  by_cases hne : start = stop
  · rw [if_pos hne, if_pos (.inr hne)]
  · have hvalid : ¬ (window.day > 6 ∨ start = stop) := not_or.2 ⟨Nat.not_lt.2 hwindow, hne⟩
    rw [if_neg hne, if_neg hvalid]

theorem normalized_windows (raw : Option Json) : ∀ window ∈ (normalizeUpdateSchedule number raw).windows,
    ∃ raw, normalizeWindow number raw = some window := by
  intro window hmem
  unfold normalizeUpdateSchedule at hmem
  split at hmem
  · cases hmem
  · split at hmem
    · dsimp only at hmem
      split at hmem
      · split at hmem
        · obtain ⟨raw, _, hraw⟩ := List.mem_filterMap.1 hmem
          exact ⟨raw, hraw⟩
        · cases hmem
      · cases hmem
    · cases hmem

/-- Both sides give the same answer, and a schedule of windows allows what the arcs of its windows cover. -/
theorem allowsNow_agrees (number : Option Json → Option Int) (raw : Option Json) (timezone : String)
    (hday : day ≤ 6) (hminute : minute < 1440) :
    let schedule := normalizeUpdateSchedule number raw
    updateScheduleAllowsNow schedule day minute = (schedule.received timezone).allows day minute ∧
      (schedule.mode = .windows → (updateScheduleAllowsNow schedule day minute = true ↔
        ∃ window ∈ schedule.windows, window.Covers (day * 1440 + minute))) := by
  intro schedule
  have hwindows : ∀ window ∈ schedule.windows, _ := fun window hmem =>
    (normalized_windows raw window hmem).elim fun _ h => normalizeWindow_some h
  cases hmode : schedule.mode with
  | always =>
    refine ⟨?_, nofun⟩
    unfold updateScheduleAllowsNow UpdateSchedule.received UpdatePolicy.Schedule.allows
    rw [hmode]
    rfl
  | windows =>
    have hallows : updateScheduleAllowsNow schedule day minute = schedule.windows.any (·.allows day minute) :=
      if_neg (by rw [hmode]; decide)
    refine ⟨?_, fun _ => ?_⟩
    · rw [hallows]
      unfold UpdateSchedule.received UpdatePolicy.Schedule.allows
      rw [hmode]
      have hvalid : ¬ (¬ "windows" = "windows" ∨ day > 6 ∨ 1440 ≤ minute) := by simp; omega
      dsimp only
      rw [if_neg (by decide), if_neg hvalid, List.any_map, Bool.eq_iff_iff, List.any_eq_true,
        List.any_eq_true]
      refine exists_congr fun window => and_congr_right fun hmem => ?_
      rw [allows_received window day minute (hwindows window hmem).1]
      rfl
    · rw [hallows, List.any_eq_true]
      refine exists_congr fun window => and_congr_right fun hmem => ?_
      obtain ⟨hwindow, start, stop, hstart, hstop, hne⟩ := hwindows window hmem
      rw [allows_iff_arc hday hminute hwindow hstart hstop hne]
      constructor
      · exact fun harc => ⟨start, stop, hstart, hstop, harc⟩
      · rintro ⟨start', stop', hstart', hstop', harc⟩
        rw [hstart] at hstart'
        rw [hstop] at hstop'
        obtain rfl := Option.some.inj hstart'
        obtain rfl := Option.some.inj hstop'
        exact harc

/-- `Number` of a text that is 6. -/
def six : Option Json → Option Int
  | some (.str "6") => some 6
  | _ => none

/-- From Saturday evening into Sunday. -/
def overnight : Json :=
  .obj [("mode", .str "windows"),
    ("windows", .arr [.obj [("day", .str "6"), ("start", .str "22:00"), ("end", .str "02:00")]])]

theorem allowsNow_agrees_overnight :
    updateScheduleAllowsNow (normalizeUpdateSchedule six overnight) 0 90 = true ∧
    updateScheduleAllowsNow (normalizeUpdateSchedule six overnight) 0 90 =
      ((normalizeUpdateSchedule six overnight).received "UTC").allows 0 90 := by
  have hday : 0 ≤ 6 := by decide
  have hminute : 90 < 1440 := by decide
  exact ⟨by decide +kernel, (allowsNow_agrees six overnight "UTC" hday hminute).1⟩

end UpdateWindows
