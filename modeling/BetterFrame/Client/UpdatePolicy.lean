import BetterFrame.Lib.Text

/-!
# Update preferences

`core/update_policy.rs` and `core/version.rs`. The `semver` crate is a parameter.
-/

namespace UpdatePolicy

open Text

/-- A window of one weekday, from `start` to `end`. -/
structure Window where
  day : Nat
  start : String
  «end» : String
deriving DecidableEq

/-- When updates may be applied. -/
structure Schedule where
  mode : String
  windows : List Window
  timezone : String
deriving DecidableEq

/-- What the server says of updates. -/
structure Policy where
  server : String
  schedule : Schedule
  firmware_channel : String
  firmware_target_version : Option String
  os_update_channel : String
  os_update_target_version : Option String
deriving DecidableEq

/-- The minute of the day that a text `hh:mm` names. -/
def minutes (value : String) : Option Nat :=
  match value.toList with
  | [a, b, ':', c, d] =>
    if [a, b, c, d].all isDigit then
      let hour := digitsValue [a, b]
      let minute := digitsValue [c, d]
      if hour < 24 ∧ minute < 60 then some (hour * 60 + minute) else none
    else none
  | _ => none

/-- The window covers the minute; one that ends before it starts runs over midnight. -/
def Window.allows (window : Window) (day minute : Nat) : Bool :=
  match minutes window.start, minutes window.end with
  | some start, some stop =>
    if window.day > 6 ∨ start = stop then false
    else if start < stop then window.day = day ∧ start ≤ minute ∧ minute < stop
    else (window.day = day ∧ start ≤ minute) ∨ ((window.day + 1) % 7 = day ∧ minute < stop)
  | _, _ => false

def Schedule.allows (schedule : Schedule) (day minute : Nat) : Bool :=
  if schedule.mode = "always" then true
  else if schedule.mode ≠ "windows" ∨ day > 6 ∨ 1440 ≤ minute then false
  else schedule.windows.any (·.allows day minute)

/-- The query parameters by which a device without an enrollment says what it wants. -/
def Policy.selection (policy : Policy) (os : Bool) : List (String × String) :=
  let channel := if os then policy.os_update_channel else policy.firmware_channel
  let version := if os then policy.os_update_target_version else policy.firmware_target_version
  ("channel", channel) :: (version.map fun v => ("version", v)).toList

/-- Versions as `semver` reads and orders them. -/
structure Semver where
  Version : Type
  parse : String → Option Version
  lt : Version → Version → Bool
  lt_irrefl : ∀ v, lt v v = false
  lt_trans : ∀ u v w, lt u v = true → lt v w = true → lt u w = true

theorem length_lt_irrefl (v : Nat) : decide (v < v) = false := decide_eq_false (Nat.lt_irrefl v)

theorem length_lt_trans (u v w : Nat) (huv : decide (u < v) = true) (hvw : decide (v < w) = true) :
    decide (u < w) = true :=
  decide_eq_true (Nat.lt_trans (of_decide_eq_true huv) (of_decide_eq_true hvw))

/-- The text that `parse` of `core/version.rs` gives to `semver`. -/
def bare (value : String) : String :=
  match trimWhitespaceChars value.toList with
  | 'v' :: cs => String.ofList cs
  | cs => String.ofList cs

/-- A newer version, or any other one when the installed version cannot be read. -/
def is_version_upgrade (semver : Semver) (candidate installed : String) : Bool :=
  match semver.parse (bare candidate), semver.parse (bare installed) with
  | none, _ => false
  | some candidate, some installed => semver.lt installed candidate
  | some _, none => trimWhitespace candidate ≠ trimWhitespace installed

theorem bare_congr {value value' : String} (h : trimWhitespace value = trimWhitespace value') :
    bare value = bare value' := by
  have hchars : trimWhitespaceChars value.toList = trimWhitespaceChars value'.toList := by
    have hlist := congrArg String.toList h
    simpa only [trimWhitespace, String.toList_ofList] using hlist
  unfold bare
  rw [hchars]

/-- What is no upgrade stays none after an upgrade. -/
theorem is_version_upgrade_mono (semver : Semver) {version installed next : String}
    (hnot : is_version_upgrade semver version installed = false)
    (hnext : is_version_upgrade semver next installed = true) :
    is_version_upgrade semver version next = false := by
  unfold is_version_upgrade at *
  rcases hv : semver.parse (bare version) with _ | v
  · rfl
  rcases hn : semver.parse (bare next) with _ | n
  · rw [hn] at hnext
    cases hnext
  rw [hv] at hnot
  rw [hn] at hnext
  rcases hi : semver.parse (bare installed) with _ | i
  · -- the installed text is the same, so it parses as well
    simp only [hi, decide_eq_false_iff_not, not_not] at hnot
    rw [bare_congr hnot, hi] at hv
    cases hv
  · simp only [hi] at hnot hnext
    by_contra hlt
    rw [Bool.not_eq_false] at hlt
    rw [semver.lt_trans i n v hnext hlt] at hnot
    cases hnot

theorem is_version_upgrade_irrefl (semver : Semver) (version : String) :
    is_version_upgrade semver version version = false := by
  unfold is_version_upgrade
  rcases semver.parse (bare version) with _ | v
  · rfl
  · exact semver.lt_irrefl v

end UpdatePolicy
