import BetterFrame.Lib.Run
import Mathlib.Data.List.Induction
import Mathlib.Data.List.Nodup
import Mathlib.Data.List.Perm.Basic
import Mathlib.Data.String.Basic

/-!
# The displays of a heartbeat (plugins/service-api-http, heartbeat display sync)

A kiosk reports its displays by connector name and index. Each report is matched with a stored display of
that kiosk which no earlier report of the heartbeat has taken: first by name, then by index; without a match
a display is created. A stored display carries the name of its kiosk in front of the connector's.

As long as no name contains `": "`, the stored displays have distinct connector names, so the name decides
who a report is: it loses its display only to an earlier report that took it by index, which needs an
earlier report of a connector that is not stored (the replacement of one connector by another, which
tests/display-sync.test.ts asks for). A repeated heartbeat changes nothing.
-/

namespace DisplaySync

/-- A row of `displays`, with the columns that a heartbeat reads and writes. -/
structure Display where
  id : String
  name : String
  index : Int
  width_px : Int
  height_px : Int
  is_enabled : Bool
  actual_power_state : String
deriving DecidableEq

/-- A reported display. `acceptsPower` is what the order of power samples says of it. -/
structure Reported where
  name : String
  index : Int
  width_px : Int
  height_px : Int
  power_state : String
  acceptsPower : Bool
deriving DecidableEq

/-- What follows the first `": "`. -/
def afterColon : List Char → Option (List Char)
  | [] => none
  | c :: cs => if c = ':' ∧ cs.head? = some ' ' then some cs.tail else afterColon cs

/-- What follows the first `: ` of a name. -/
def displayBaseName (displayName : String) : String :=
  match afterColon displayName.toList with
  | some rest => String.ofList rest
  | none => displayName

def kioskDisplayName (kioskName displayName : String) : String :=
  kioskName ++ ": " ++ displayBaseName displayName

/-- The stored display of the name, or else of the index, that no earlier report took. -/
def findReportedDisplayMatch (existing : List Display) (seenDisplayIds : List String) (reportedName : String)
    (reportedIndex : Int) : Option Display :=
  (existing.find? fun d => d.id ∉ seenDisplayIds ∧ displayBaseName d.name = reportedName).or
    (existing.find? fun d => d.id ∉ seenDisplayIds ∧ d.index = reportedIndex)

/-- One heartbeat: `existing` is what `listDisplaysForKiosk` returns, `fresh` are the ids that `uuidv7` would
give to the displays of the reports, and `used` the displays that have a layout. -/
structure Heartbeat where
  kioskName : String
  viewer : Bool
  displays : List Reported
  existing : List Display
  fresh : List String
  used : List String

/-- The loop over the reports: the rows, the displays taken, and which display represents which report. -/
structure Sync where
  stored : List Display
  seenDisplayIds : List String
  represents : List (String × String)

/-- A negative index counts as the position. -/
def reportedIndex (position : Nat) (reported : Reported) : Int :=
  if 0 ≤ reported.index then reported.index else position

def powerState (reported : Reported) : Option String :=
  if reported.acceptsPower ∧ reported.power_state ∈ ["awake", "standby", "unknown"] then
    some reported.power_state else none

def updateDisplay (id : String) (f : Display → Display) (stored : List Display) : List Display :=
  stored.map fun d => if d.id = id then f d else d

/-- What the row of a matched display becomes. -/
def patched (h : Heartbeat) (found : Display) (position : Nat) (reported : Reported) (d : Display) :
    Display :=
  { d with
    name := kioskDisplayName h.kioskName reported.name
    index := reportedIndex position reported
    width_px := reported.width_px
    height_px := reported.height_px
    is_enabled := if h.viewer then found.is_enabled else true
    actual_power_state := (powerState reported).getD d.actual_power_state }

/-- The row differs from the report. -/
def changed (h : Heartbeat) (found : Display) (position : Nat) (reported : Reported) : Bool :=
  found.name ≠ kioskDisplayName h.kioskName reported.name || found.index ≠ reportedIndex position reported ||
    found.width_px ≠ reported.width_px || found.height_px ≠ reported.height_px ||
      (!h.viewer && !found.is_enabled) ||
    (powerState reported).any (found.actual_power_state ≠ ·)

/-- The row of a display not known before. -/
def created (h : Heartbeat) (position : Nat) (reported : Reported) (id : String) : Display :=
  ⟨id, kioskDisplayName h.kioskName reported.name, reportedIndex position reported, reported.width_px,
    reported.height_px, true, (powerState reported).getD "unknown"⟩

/-- One reported display: the row it matches updated, or a new one created. -/
def syncReport (h : Heartbeat) (acc : Sync) (reported : Reported) (id : String) (position : Nat) : Sync :=
  match findReportedDisplayMatch h.existing acc.seenDisplayIds reported.name
    (reportedIndex position reported) with
  | some found =>
    { stored :=
        if changed h found position reported then
          updateDisplay found.id (patched h found position reported) acc.stored
        else acc.stored
      seenDisplayIds := acc.seenDisplayIds ++ [found.id]
      represents := acc.represents ++ [(reported.name, found.id)] }
  | none =>
    { stored := acc.stored ++ [created h position reported id]
      seenDisplayIds := acc.seenDisplayIds ++ [id]
      represents := acc.represents ++ [(reported.name, id)] }

def deleteDisplayIfUnused (used : List String) (id : String) (stored : List Display) : List Display :=
  if id ∈ used then stored else stored.filter (·.id ≠ id)

def syncReports (h : Heartbeat) (stored : List Display) : Sync :=
  (h.displays.zip h.fresh).zipIdx.foldl (fun acc r => syncReport h acc r.1.1 r.1.2 r.2) ⟨stored, [], []⟩

/-- The displays no report matched go, unless they are used. -/
def removeStale (h : Heartbeat) (acc : Sync) : List Display :=
  h.existing.foldl
    (fun stored d => if d.id ∈ acc.seenDisplayIds then stored
      else deleteDisplayIfUnused h.used d.id stored) acc.stored

/-- The displays of a kiosk, and which of them represented which report of the last heartbeat. -/
structure State where
  stored : List Display
  represents : List (String × String)
deriving DecidableEq

/-- The heartbeat's reads are those of the state, and its fresh ids are new. -/
def Heartbeat.Valid (h : Heartbeat) (s : State) : Prop :=
  h.existing.Perm s.stored ∧ h.existing.Pairwise (·.index ≤ ·.index) ∧ h.fresh.length = h.displays.length ∧
    h.fresh.Nodup ∧ ∀ id ∈ h.fresh, id ∉ s.stored.map Display.id

instance (h : Heartbeat) (s : State) : Decidable (h.Valid s) := inferInstanceAs (Decidable (_ ∧ _))

def step (s : State) (h : Heartbeat) : Option State :=
  if h.Valid s then
    let acc := syncReports h s.stored
    some ⟨removeStale h acc, acc.represents⟩
  else none

/-! ### Names -/

/-- No `": "` in it. -/
def Plain (name : String) : Prop := afterColon name.toList = none

instance (name : String) : Decidable (Plain name) := inferInstanceAs (Decidable (_ = _))

theorem afterColon_append {k : List Char} (h : afterColon k = none) (c : List Char) :
    afterColon (k ++ ':' :: ' ' :: c) = some c := by
  induction k with
  | nil => simp [afterColon]
  | cons x k ih =>
    unfold afterColon at h
    split at h
    · cases h
    next hne =>
    rw [List.cons_append, afterColon, if_neg, ih h]
    rintro ⟨hx, hhead⟩
    refine hne ⟨hx, ?_⟩
    cases k with
    | nil =>
      simp at hhead
    | cons y k => exact hhead

theorem displayBaseName_plain {name : String} (h : Plain name) : displayBaseName name = name := by
  rw [displayBaseName, h]

/-- The name of a connector comes back out of the name under which it is stored. -/
theorem displayBaseName_kioskDisplayName {kioskName name : String} (hk : Plain kioskName) (hn : Plain name) :
    displayBaseName (kioskDisplayName kioskName name) = name := by
  have htext : (kioskDisplayName kioskName name).toList = kioskName.toList ++ ':' :: ' ' :: name.toList := by
    rw [kioskDisplayName, displayBaseName_plain hn, String.toList_append, String.toList_append,
      List.append_assoc]
    rfl
  rw [displayBaseName, htext, afterColon_append hk]
  exact String.ofList_toList

/-! ### The loop -/

def names (stored : List Display) : List String := stored.map fun d => displayBaseName d.name

variable {h h' : Heartbeat} {E stored : List Display} {acc : Sync}
  {taken : List (Reported × String × Nat)} {r : Reported}
  {id : String} {position : Nat} {d d' found : Display} {s s' s'' s₀ : State} {earlier : List Heartbeat}

theorem eq_of_name (hE : (names E).Nodup) (hd : d ∈ E) (hd' : d' ∈ E)
    (heq : displayBaseName d.name = displayBaseName d'.name) : d = d' :=
  List.inj_on_of_nodup_map hE hd hd' heq

theorem match_some (hf : findReportedDisplayMatch E acc.seenDisplayIds r.name
    (reportedIndex position r) = some found) :
    found ∈ E ∧ found.id ∉ acc.seenDisplayIds ∧ (displayBaseName found.name = r.name ∨
      found.index = reportedIndex position r ∧ ∀ d ∈ E, displayBaseName d.name = r.name →
      d.id ∈ acc.seenDisplayIds) := by
  rcases Option.or_eq_some_iff.1 hf with hname | ⟨hnone, hindex⟩
  · have hfound : found.id ∉ acc.seenDisplayIds ∧ displayBaseName found.name = r.name := by
      simpa using List.find?_some hname
    exact ⟨List.mem_of_find?_eq_some hname, hfound.1, .inl hfound.2⟩
  · have hfound : found.id ∉ acc.seenDisplayIds ∧ found.index = reportedIndex position r := by
      simpa using List.find?_some hindex
    refine ⟨List.mem_of_find?_eq_some hindex, hfound.1, .inr ⟨hfound.2, fun d hd hn => ?_⟩⟩
    have hno : d.id ∉ acc.seenDisplayIds → ¬ displayBaseName d.name = r.name := by
      simpa using List.find?_eq_none.1 hnone d hd
    by_contra hfree
    exact hno hfree hn

/-- A free display with the name of the report is the one that is found. -/
theorem match_name (hE : (names E).Nodup) (hd : d ∈ E) (hfree : d.id ∉ acc.seenDisplayIds)
    (hn : displayBaseName d.name = r.name) :
    findReportedDisplayMatch E acc.seenDisplayIds r.name (reportedIndex position r) = some d := by
  unfold findReportedDisplayMatch
  rcases hf : E.find? fun d => d.id ∉ acc.seenDisplayIds ∧ displayBaseName d.name = r.name with _ | x
  · have hno : d.id ∉ acc.seenDisplayIds → ¬ displayBaseName d.name = r.name := by
      simpa using List.find?_eq_none.1 hf d hd
    exact absurd hn (hno hfree)
  · have hx : x.id ∉ acc.seenDisplayIds ∧ displayBaseName x.name = r.name := by simpa using List.find?_some hf
    rw [hf]
    exact congrArg (Option.or · _)
      (congrArg some (eq_of_name hE (List.mem_of_find?_eq_some hf) hd (hx.2.trans hn.symm)))

/-- After the reports `taken`, each with the id that a new display would have got and its place,
every one of them has a display of its own. -/
structure Once (h : Heartbeat) (taken : List (Reported × String × Nat)) (acc : Sync) : Prop where
  reported : acc.represents.map Prod.fst = taken.map fun x => x.1.name
  seen : acc.seenDisplayIds = acc.represents.map Prod.snd
  distinct : acc.seenDisplayIds.Nodup
  source : ∀ id ∈ acc.seenDisplayIds, id ∈ h.existing.map Display.id ∨ id ∈ taken.map fun x => x.2.1

/-- What more is so when the names have no `": "` in them and differ. -/
structure Loop (h : Heartbeat) (taken : List (Reported × String × Nat)) (acc : Sync) :
    Prop extends Once h taken acc where
  ids : (acc.stored.map Display.id).Nodup
  origin : ∀ d ∈ acc.stored, d.id ∈ h.existing.map Display.id ∨ d.id ∈ taken.map fun x => x.2.1
  rows : ∀ d ∈ acc.stored, (displayBaseName d.name, d.id) ∈ acc.represents ∨
    d.id ∉ acc.seenDisplayIds ∧ d ∈ h.existing
  present : ∀ id ∈ acc.seenDisplayIds, ∃ d ∈ acc.stored, d.id = id
  kept : ∀ d ∈ h.existing, ∃ d' ∈ acc.stored, d'.id = d.id
  named : ∀ d ∈ h.existing, displayBaseName d.name ∈ (taken.map fun x => x.1.name) → d.id ∈ acc.seenDisplayIds
  why : ∀ x ∈ acc.represents, (∃ d ∈ h.existing, d.id = x.2 ∧ displayBaseName d.name = x.1) ∨
    (∃ y ∈ taken, y.1.name = x.1 ∧ ∃ d ∈ h.existing, d.id = x.2 ∧ d.index = reportedIndex y.2.2 y.1) ∨
    x.2 ∉ h.existing.map Display.id
  steady : (∀ y ∈ taken, ∃ d ∈ h.existing, displayBaseName d.name = y.1.name) →
    ∀ x ∈ acc.represents, ∃ d ∈ h.existing, d.id = x.2 ∧ displayBaseName d.name = x.1

theorem once_start : Once h [] ⟨stored, [], []⟩ :=
  ⟨rfl, rfl, List.nodup_nil, fun _ hid => absurd hid List.not_mem_nil⟩

/-- A report takes a display that is free, or a new one. -/
theorem Once.next (ho : Once h taken acc) (hold : id ∉ h.existing.map Display.id)
    (hnew : id ∉ taken.map fun x => x.2.1) :
    Once h (taken ++ [(r, id, position)]) (syncReport h acc r id position) := by
  rw [syncReport]
  split
  · next found hf =>
    obtain ⟨hfound, hfree, -⟩ := match_some hf
    refine ⟨by simp [ho.reported], by simp [ho.seen], ?_, fun i hi => ?_⟩
    · show (acc.seenDisplayIds ++ [_]).Nodup
      rw [← List.concat_eq_append]
      exact ho.distinct.concat hfree
    · rcases List.mem_append.1 hi with hi | hi
      · exact (ho.source i hi).imp_right fun ht => by simp [ht]
      · exact .inl (List.mem_singleton.1 hi ▸ List.mem_map_of_mem hfound)
  · have hfree : id ∉ acc.seenDisplayIds := fun hmem => (ho.source id hmem).elim hold hnew
    refine ⟨by simp [ho.reported], by simp [ho.seen], ?_, fun i hi => ?_⟩
    · show (acc.seenDisplayIds ++ [_]).Nodup
      rw [← List.concat_eq_append]
      exact ho.distinct.concat hfree
    · rcases List.mem_append.1 hi with hi | hi
      · exact (ho.source i hi).imp_right fun ht => by simp [ht]
      · exact .inr (by simp [List.mem_singleton.1 hi])

theorem loop_start (hperm : h.existing.Perm stored) (hids : (stored.map Display.id).Nodup) :
    Loop h [] ⟨stored, [], []⟩ where
  toOnce := once_start
  ids := hids
  origin := fun _ hd => .inl (List.mem_map_of_mem (hperm.mem_iff.2 hd))
  rows := fun _ hd => .inr ⟨List.not_mem_nil, hperm.mem_iff.2 hd⟩
  present := fun _ hid => absurd hid List.not_mem_nil
  kept := fun d hd => ⟨d, hperm.mem_iff.1 hd, rfl⟩
  named := fun _ _ hn => absurd hn List.not_mem_nil
  why := fun _ hx => absurd hx List.not_mem_nil
  steady := fun _ _ hx => absurd hx List.not_mem_nil

theorem updateDisplay_ids {f : Display → Display} (hf : ∀ d, (f d).id = d.id) :
    (updateDisplay id f stored).map Display.id = stored.map Display.id := by
  rw [updateDisplay, List.map_map]
  refine List.map_congr_left fun d _ => ?_
  show (if d.id = id then f d else d).id = d.id
  split
  · exact hf d
  · rfl

theorem Loop.seen_iff (hl : Loop h taken acc) : id ∈ acc.seenDisplayIds ↔ ∃ n, (n, id) ∈ acc.represents := by
  rw [hl.seen, List.mem_map]
  exact ⟨fun ⟨x, hx, he⟩ => ⟨x.1, he ▸ hx⟩, fun ⟨n, hx⟩ => ⟨_, hx, rfl⟩⟩

/-- The row of a display that no report has taken is the one that was read. -/
theorem Loop.row_free (hl : Loop h taken acc) (hd : d ∈ acc.stored) (hfree : d.id ∉ acc.seenDisplayIds) :
    d ∈ h.existing := by
  rcases hl.rows d hd with hx | ⟨-, hold⟩
  · exact absurd (hl.seen_iff.2 ⟨_, hx⟩) hfree
  · exact hold

/-- While only stored names have been reported, the display of the next stored name is free. -/
theorem Loop.free_of_steady (hl : Loop h taken acc) (hids : (h.existing.map Display.id).Nodup)
    (hr : r.name ∉ taken.map fun x => x.1.name)
    (hall : ∀ y ∈ taken, ∃ d ∈ h.existing, displayBaseName d.name = y.1.name) (hd : d ∈ h.existing)
    (hn : displayBaseName d.name = r.name) : d.id ∉ acc.seenDisplayIds := by
  intro hseen
  obtain ⟨n, hx⟩ := hl.seen_iff.1 hseen
  obtain ⟨d', hd', hid, hname⟩ := hl.steady hall _ hx
  obtain rfl := List.inj_on_of_nodup_map hids hd' hd hid
  refine hr (hl.reported ▸ List.mem_map.2 ⟨_, hx, ?_⟩)
  exact hname.symm.trans hn

/-- A report that is matched takes the row of the display and gives it its name. -/
theorem Loop.matched (hl : Loop h taken acc) (hk : Plain h.kioskName) (hr : Plain r.name)
    (hids : (h.existing.map Display.id).Nodup) (hE : (names h.existing).Nodup)
    (hfirst : r.name ∉ taken.map fun x => x.1.name)
    (hold : id ∉ h.existing.map Display.id) (hnew : id ∉ taken.map fun x => x.2.1)
    (hf : findReportedDisplayMatch h.existing acc.seenDisplayIds r.name (reportedIndex position r) =
      some found) :
    Loop h (taken ++ [(r, id, position)]) (syncReport h acc r id position) := by
  obtain ⟨hfound, hfree, hreason⟩ := match_some hf
  have hname : displayBaseName (kioskDisplayName h.kioskName r.name) = r.name :=
    displayBaseName_kioskDisplayName hk hr
  -- the row that the report takes
  obtain ⟨row, hrow, hrowid⟩ := hl.kept found hfound
  obtain rfl : row = found :=
    List.inj_on_of_nodup_map hids (hl.row_free hrow (hrowid ▸ hfree)) hfound hrowid
  have honce : Once h (taken ++ [(r, id, position)]) (syncReport h acc r id position) :=
    hl.toOnce.next hold hnew
  rw [syncReport, hf] at honce ⊢
  dsimp only at honce ⊢
  generalize hstored' : (if changed h row position r then
    updateDisplay row.id (patched h row position r) acc.stored
    else acc.stored) = stored' at honce ⊢
  have hmapids : stored'.map Display.id = acc.stored.map Display.id := by
    rw [← hstored']
    split
    · exact updateDisplay_ids fun _ => rfl
    · rfl
  have hrows : ∀ d ∈ stored', d.id = row.id ∧ displayBaseName d.name = r.name ∨ d.id ≠ row.id ∧
      d ∈ acc.stored := by
    intro d hd
    rw [← hstored'] at hd
    split at hd
    · obtain ⟨x, hx, rfl⟩ := List.mem_map.1 hd
      split
      · next hid => exact .inl ⟨hid, hname⟩
      · next hid => exact .inr ⟨hid, hx⟩
    · next hsame =>
      by_cases hid : d.id = row.id
      · obtain rfl := List.inj_on_of_nodup_map hl.ids hd hrow hid
        have hsame : d.name = kioskDisplayName h.kioskName r.name := by
          simp only [changed, Bool.or_eq_true, not_or, decide_eq_true_eq, not_not] at hsame
          exact hsame.1.1.1.1.1
        exact .inl ⟨rfl, by rw [hsame, hname]⟩
      · exact .inr ⟨hid, hd⟩
  have hmem (i : String) : (∃ d ∈ acc.stored, d.id = i) → ∃ d ∈ stored', d.id = i := by
    rintro ⟨d, hd, rfl⟩
    have : d.id ∈ stored'.map Display.id := hmapids ▸ List.mem_map_of_mem hd
    exact List.mem_map.1 this
  exact {
    toOnce := honce
    ids := hmapids ▸ hl.ids
    origin := fun d hd => by
      have : d.id ∈ acc.stored.map Display.id := hmapids ▸ List.mem_map_of_mem hd
      obtain ⟨x, hx, hid⟩ := List.mem_map.1 this
      rw [← hid]
      exact (hl.origin x hx).imp_right fun ht => by simp [ht]
    rows := fun d hd => by
      rcases hrows d hd with ⟨hid, hn⟩ | ⟨hid, hd⟩
      · exact .inl (by simp [hid, hn])
      · refine (hl.rows d hd).imp (List.mem_append_left _) fun hx => ⟨fun hmem => ?_, hx.2⟩
        rcases List.mem_append.1 hmem with hmem | hmem
        · exact hx.1 hmem
        · exact hid (List.mem_singleton.1 hmem)
    present := fun i hi => by
      rcases List.mem_append.1 hi with hi | hi
      · exact hmem i (hl.present i hi)
      · exact hmem i ⟨row, hrow, (List.mem_singleton.1 hi).symm⟩
    kept := fun d hd => hmem d.id (hl.kept d hd)
    named := fun d hd hn => by
      rw [List.map_append, List.mem_append] at hn
      rcases hn with hn | hn
      · exact List.mem_append_left _ (hl.named d hd hn)
      have hn : displayBaseName d.name = r.name := List.mem_singleton.1 hn
      rcases hreason with hrow | ⟨-, htaken⟩
      · rw [eq_of_name hE hd hfound (hn.trans hrow.symm)]
        exact List.mem_append_right _ (List.mem_singleton_self _)
      · exact List.mem_append_left _ (htaken d hd hn)
    why := fun x hx => by
      rcases List.mem_append.1 hx with hx | hx
      · refine (hl.why x hx).imp_right (Or.imp_left ?_)
        rintro ⟨y, hy, hrest⟩
        exact ⟨y, List.mem_append_left _ hy, hrest⟩
      · obtain rfl := List.mem_singleton.1 hx
        rcases hreason with hn | ⟨hi, -⟩
        · exact .inl ⟨row, hfound, rfl, hn⟩
        · exact .inr (.inl ⟨_, List.mem_append_right _ (List.mem_singleton_self _), rfl, row, hfound,
            rfl, hi⟩)
    steady := fun hall x hx => by
      have hbefore := fun y hy => hall y (List.mem_append_left _ hy)
      rcases List.mem_append.1 hx with hx | hx
      · exact hl.steady hbefore x hx
      · obtain rfl := List.mem_singleton.1 hx
        obtain ⟨d, hd, hn⟩ := hall _ (List.mem_append_right _ (List.mem_singleton_self _))
        have hfree' := hl.free_of_steady hids hfirst hbefore hd hn
        obtain rfl := Option.some.inj ((match_name hE hd hfree' hn).symm.trans hf)
        exact ⟨d, hd, rfl, hn⟩ }

/-- A report without a match gets a new display. -/
theorem Loop.new (hl : Loop h taken acc) (hk : Plain h.kioskName) (hr : Plain r.name)
    (hids : (h.existing.map Display.id).Nodup) (hfirst : r.name ∉ taken.map fun x => x.1.name)
    (hold : id ∉ h.existing.map Display.id) (hnew : id ∉ taken.map fun x => x.2.1)
    (hf : findReportedDisplayMatch h.existing acc.seenDisplayIds r.name (reportedIndex position r) = none) :
    Loop h (taken ++ [(r, id, position)]) (syncReport h acc r id position) := by
  have hunstored (d : Display) (hd : d ∈ acc.stored) : d.id ≠ id := by
    rintro rfl
    exact (hl.origin d hd).elim hold hnew
  have hall : ∀ d ∈ h.existing, displayBaseName d.name = r.name → d.id ∈ acc.seenDisplayIds := by
    intro d hd hn
    have hno : d.id ∉ acc.seenDisplayIds → ¬ displayBaseName d.name = r.name := by
      simpa using List.find?_eq_none.1 (Option.or_eq_none_iff.1 hf).1 d hd
    by_contra hfree
    exact hno hfree hn
  have honce : Once h (taken ++ [(r, id, position)]) (syncReport h acc r id position) :=
    hl.toOnce.next hold hnew
  rw [syncReport, hf] at honce ⊢
  exact {
    toOnce := honce
    ids := by
      rw [List.map_append, List.nodup_append]
      refine ⟨hl.ids, List.nodup_singleton _, fun a ha b hb hab => ?_⟩
      obtain ⟨d, hd, rfl⟩ := List.mem_map.1 ha
      exact hunstored d hd (hab.trans (List.mem_singleton.1 hb))
    origin := fun d hd => by
      rcases List.mem_append.1 hd with hd | hd
      · exact (hl.origin d hd).imp_right fun ht => by simp [ht]
      · rw [List.mem_singleton.1 hd]
        exact .inr (by simp [created])
    rows := fun d hd => by
      rcases List.mem_append.1 hd with hd | hd
      · refine (hl.rows d hd).imp (List.mem_append_left _) fun hx => ⟨fun hmem => ?_, hx.2⟩
        rcases List.mem_append.1 hmem with hmem | hmem
        · exact hx.1 hmem
        · exact hunstored d hd (List.mem_singleton.1 hmem)
      · rw [List.mem_singleton.1 hd]
        refine .inl (List.mem_append_right _ ?_)
        show (displayBaseName (kioskDisplayName h.kioskName r.name), id) ∈ _
        rw [displayBaseName_kioskDisplayName hk hr]
        exact List.mem_singleton_self _
    present := fun i hi => by
      rcases List.mem_append.1 hi with hi | hi
      · obtain ⟨d, hd, hid⟩ := hl.present i hi
        exact ⟨d, List.mem_append_left _ hd, hid⟩
      · exact ⟨_, List.mem_append_right _ (List.mem_singleton_self _), (List.mem_singleton.1 hi).symm⟩
    kept := fun d hd => by
      obtain ⟨d', hd', hid⟩ := hl.kept d hd
      exact ⟨d', List.mem_append_left _ hd', hid⟩
    named := fun d hd hn => by
      rw [List.map_append, List.mem_append] at hn
      rcases hn with hn | hn
      · exact List.mem_append_left _ (hl.named d hd hn)
      · exact List.mem_append_left _ (hall d hd (List.mem_singleton.1 hn))
    why := fun x hx => by
      rcases List.mem_append.1 hx with hx | hx
      · refine (hl.why x hx).imp_right (Or.imp_left ?_)
        rintro ⟨y, hy, hrest⟩
        exact ⟨y, List.mem_append_left _ hy, hrest⟩
      · rw [List.mem_singleton.1 hx]
        exact .inr (.inr hold)
    steady := fun hknown x hx => by
      have hbefore := fun y hy => hknown y (List.mem_append_left _ hy)
      rcases List.mem_append.1 hx with hx | hx
      · exact hl.steady hbefore x hx
      · obtain ⟨d, hd, hn⟩ := hknown _ (List.mem_append_right _ (List.mem_singleton_self _))
        exact absurd (hall d hd hn) (hl.free_of_steady hids hfirst hbefore hd hn) }

/-! ### One heartbeat -/

/-- The reports of the heartbeat with the ids that new displays would get, and their places. -/
def Heartbeat.items (h : Heartbeat) : List (Reported × String × Nat) :=
  (h.displays.zip h.fresh).zipIdx.map fun x => (x.1.1, x.1.2, x.2)

/-- `syncReport` of one item of the loop. -/
def syncItem (h : Heartbeat) (acc : Sync) (x : Reported × String × Nat) : Sync :=
  syncReport h acc x.1 x.2.1 x.2.2

theorem syncReports_eq : syncReports h stored = h.items.foldl (syncItem h) ⟨stored, [], []⟩ := by
  rw [syncReports, Heartbeat.items, List.foldl_map]
  rfl

/-- The kiosk and the connectors have names without `": "`, and the connectors have distinct ones. -/
structure Heartbeat.Clean (h : Heartbeat) : Prop where
  kiosk : Plain h.kioskName
  reports : ∀ r ∈ h.displays, Plain r.name
  distinct : (h.displays.map Reported.name).Nodup

/-- The stored displays have distinct ids and connector names, and those that represented a report of the last
heartbeat carry its name. -/
structure Inv (s : State) : Prop where
  ids : (s.stored.map Display.id).Nodup
  names : (names s.stored).Nodup
  represented : ∀ x ∈ s.represents, ∃ d ∈ s.stored, d.id = x.2 ∧ displayBaseName d.name = x.1

theorem items_reports (hv : h.fresh.length = h.displays.length) : h.items.map Prod.fst = h.displays := by
  rw [Heartbeat.items, List.map_map]
  show (h.displays.zip h.fresh).zipIdx.map (Prod.fst ∘ Prod.fst) = _
  rw [← List.map_map, List.zipIdx_map_fst, List.map_fst_zip (by omega)]

theorem items_fresh (hv : h.fresh.length = h.displays.length) : h.items.map (fun x => x.2.1) = h.fresh := by
  rw [Heartbeat.items, List.map_map]
  show (h.displays.zip h.fresh).zipIdx.map (Prod.snd ∘ Prod.fst) = _
  rw [← List.map_map, List.zipIdx_map_fst, List.map_snd_zip (by omega)]

theorem items_first (hc : h.Clean) (hv : h.fresh.length = h.displays.length) {x : Reported × String × Nat}
    {rest : List (Reported × String × Nat)} (hitems : h.items = taken ++ x :: rest) :
    x.1.name ∉ taken.map fun y => y.1.name := by
  have hnames := hc.distinct
  rw [← items_reports hv, hitems, List.map_map, List.map_append, List.map_cons] at hnames
  exact fun hmem => (List.nodup_append.1 hnames).2.2 _ hmem _ (List.mem_cons_self ..) rfl

/-- The id that a report would get is neither stored nor that of another report. -/
theorem items_unused (hv : h.Valid s) {x : Reported × String × Nat} {rest : List (Reported × String × Nat)}
    (hitems : h.items = taken ++ x :: rest) : x.2.1 ∉ h.existing.map Display.id ∧
    x.2.1 ∉ taken.map fun x => x.2.1 := by
  obtain ⟨hperm, -, hlength, hfresh, hunused⟩ := hv
  rw [← items_fresh hlength, hitems, List.map_append, List.map_cons] at hfresh hunused
  refine ⟨fun hmem => ?_, fun hmem => ?_⟩
  · exact hunused _ (by simp) ((hperm.map _).mem_iff.1 hmem)
  · exact (List.nodup_append.1 hfresh).2.2 _ hmem _ (List.mem_cons_self ..) rfl

theorem once_run (hv : h.Valid s) {rest : List (Reported × String × Nat)} (hitems : h.items = taken ++ rest) :
    Once h taken (taken.foldl (syncItem h) ⟨s.stored, [], []⟩) := by
  induction taken using List.reverseRecOn generalizing rest with
  | nil => exact once_start
  | append_singleton taken x ih =>
    have hitems : h.items = taken ++ x :: rest := by rw [hitems, List.append_assoc]; rfl
    obtain ⟨hold, hnew⟩ := items_unused hv hitems
    rw [List.foldl_append]
    exact (ih hitems).next hold hnew

/-- The loop up to any of its reports. -/
theorem loop_run (hi : Inv s) (hc : h.Clean) (hv : h.Valid s) {rest : List (Reported × String × Nat)}
    (hitems : h.items = taken ++ rest) :
    Loop h taken (taken.foldl (syncItem h) ⟨s.stored, [], []⟩) := by
  have hids : (h.existing.map Display.id).Nodup := (hv.1.map _).nodup_iff.2 hi.ids
  have hE : (names h.existing).Nodup := (hv.1.map _).nodup_iff.2 hi.names
  have hlength := hv.2.2.1
  induction taken using List.reverseRecOn generalizing rest with
  | nil => exact loop_start hv.1 hi.ids
  | append_singleton taken x ih =>
    have hitems : h.items = taken ++ x :: rest := by rw [hitems, List.append_assoc]; rfl
    obtain ⟨hold, hnew⟩ := items_unused hv hitems
    have hloop := ih hitems
    rw [List.foldl_append]
    generalize taken.foldl (syncItem h) ⟨s.stored, [], []⟩ = acc at hloop
    have hfirst : x.1.name ∉ taken.map fun x => x.1.name := items_first hc hlength hitems
    have hplain : Plain x.1.name := by
      refine hc.reports _ ?_
      rw [← items_reports hlength, hitems]
      simp
    rcases hf : findReportedDisplayMatch h.existing acc.seenDisplayIds x.1.name
      (reportedIndex x.2.2 x.1) with _ | found
    · exact hloop.new hc.kiosk hplain hids hfirst hold hnew hf
    · exact hloop.matched hc.kiosk hplain hids hE hfirst hold hnew hf

/-- What removing the stale displays leaves: every display that was taken, and no new one. -/
theorem mem_removeStale (h : Heartbeat) (acc : Sync) : (removeStale h acc).Sublist acc.stored ∧
    ∀ d ∈ acc.stored, d.id ∈ acc.seenDisplayIds → d ∈ removeStale h acc := by
  unfold removeStale
  generalize h.existing = E
  generalize acc.stored = stored
  induction E generalizing stored with
  | nil => exact ⟨.refl _, fun _ hd _ => hd⟩
  | cons e E ih =>
    rw [List.foldl_cons]
    obtain ⟨hsub, hkeep⟩ := ih (if e.id ∈ acc.seenDisplayIds then stored
      else deleteDisplayIfUnused h.used e.id stored)
    have hone : (deleteDisplayIfUnused h.used e.id stored).Sublist stored := by
      unfold deleteDisplayIfUnused
      split
      · exact .refl _
      · exact List.filter_sublist
    by_cases he : e.id ∈ acc.seenDisplayIds
    · rw [if_pos he] at hsub hkeep ⊢
      exact ⟨hsub, hkeep⟩
    · rw [if_neg he] at hsub hkeep ⊢
      refine ⟨hsub.trans hone, fun d hd hseen => hkeep d ?_ hseen⟩
      unfold deleteDisplayIfUnused
      split
      · exact hd
      · refine List.mem_filter.2 ⟨hd, ?_⟩
        simp only [decide_eq_true_eq]
        rintro hid
        exact he (hid ▸ hseen)

theorem Loop.inv (hl : Loop h taken acc) (hE : (names h.existing).Nodup)
    (hdistinct : (taken.map fun x => x.1.name).Nodup) : Inv ⟨removeStale h acc, acc.represents⟩ := by
  obtain ⟨hsub, hkeep⟩ := mem_removeStale h acc
  have hsnd : (acc.represents.map Prod.snd).Nodup := hl.seen ▸ hl.distinct
  have hfst : (acc.represents.map Prod.fst).Nodup := hl.reported ▸ hdistinct
  refine ⟨hl.ids.sublist (hsub.map _), ?_, fun x hx => ?_⟩
  · refine List.Nodup.sublist (hsub.map _) ?_
    refine List.Nodup.map_on (fun d hd d' hd' heq => ?_) hl.ids.of_map
    rcases hl.rows d hd with hx | ⟨hfree, hold⟩ <;> rcases hl.rows d' hd' with hx' | ⟨hfree', hold'⟩
    · have hpair := List.inj_on_of_nodup_map hfst hx hx' heq
      exact List.inj_on_of_nodup_map hl.ids hd hd' (congrArg Prod.snd hpair)
    · -- the stored name was reported, so its display has been taken
      refine absurd (hl.named d' hold' ?_) hfree'
      rw [← hl.reported, ← heq]
      exact List.mem_map_of_mem hx
    · refine absurd (hl.named d hold ?_) hfree
      rw [← hl.reported, heq]
      exact List.mem_map_of_mem hx'
    · exact eq_of_name hE hold hold' heq
  · have hseen : x.2 ∈ acc.seenDisplayIds := hl.seen ▸ List.mem_map_of_mem hx
    obtain ⟨d, hd, hid⟩ := hl.present x.2 hseen
    refine ⟨d, hkeep d hd (hid ▸ hseen), hid, ?_⟩
    rcases hl.rows d hd with hy | ⟨hfree, -⟩
    · have hpair := List.inj_on_of_nodup_map hsnd hy hx hid
      exact congrArg Prod.fst hpair
    · exact absurd (hid ▸ hseen) hfree

theorem step_eq (hs : step s h = some s') :
    h.Valid s ∧ s' = ⟨removeStale h (syncReports h s.stored), (syncReports h s.stored).represents⟩ := by
  unfold step at hs
  split at hs
  · next hv => exact ⟨hv, (Option.some.inj hs).symm⟩
  · cases hs

theorem Valid.existing (hi : Inv s) (hv : h.Valid s) : (h.existing.map Display.id).Nodup ∧
    (names h.existing).Nodup :=
  ⟨(hv.1.map _).nodup_iff.2 hi.ids, (hv.1.map _).nodup_iff.2 hi.names⟩

theorem loop_all (hi : Inv s) (hc : h.Clean) (hv : h.Valid s) : Loop h h.items (syncReports h s.stored) := by
  rw [syncReports_eq]
  exact loop_run hi hc hv (List.append_nil _).symm

theorem items_names (hv : h.Valid s) : (h.items.map fun x => x.1.name) = h.displays.map Reported.name := by
  rw [← items_reports hv.2.2.1, List.map_map]
  rfl

theorem Inv.step (hi : Inv s) (hc : h.Clean) (hs : step s h = some s') : Inv s' := by
  obtain ⟨hv, rfl⟩ := step_eq hs
  exact (loop_all hi hc hv).inv (Valid.existing hi hv).2 (items_names hv ▸ hc.distinct)

theorem items_at {x : Reported × String × Nat} {k : Nat} (hv : h.fresh.length = h.displays.length)
    (hx : h.items[k]? = some x) :
    h.displays[k]? = some x.1 ∧ x.2.2 = k := by
  refine ⟨?_, ?_⟩
  · rw [← items_reports hv, List.getElem?_map, hx]
    rfl
  · simp only [Heartbeat.items, List.getElem?_map, List.getElem?_zipIdx, Option.map_map,
      Option.map_eq_some_iff] at hx
    obtain ⟨y, -, rfl⟩ := hx
    simp

theorem represents_grows {rest : List (Reported × String × Nat)} {x : String × String}
    (hx : x ∈ acc.represents) :
    x ∈ (rest.foldl (syncItem h) acc).represents := by
  induction rest generalizing acc with
  | nil => exact hx
  | cons y rest ih =>
    refine ih ?_
    rw [syncItem, syncReport]
    split <;> exact List.mem_append_left _ hx

/-- A stored name that is reported keeps its display, unless an earlier report took the display by
its index, for which one of the earlier reports is of a name that is not stored. -/
theorem report_keeps (hi : Inv s) (hc : h.Clean) (hs : step s h = some s') {pre post : List Reported}
    {r : Reported}
    (hr : h.displays = pre ++ r :: post) (hd : d ∈ s.stored) (hn : displayBaseName d.name = r.name) :
    (r.name, d.id) ∈ s'.represents ∨
      (∃ k r', pre[k]? = some r' ∧ (r'.name, d.id) ∈ s'.represents ∧ d.index = reportedIndex k r') ∧
        ∃ r' ∈ pre, r'.name ∉ names s.stored := by
  obtain ⟨hv, rfl⟩ := step_eq hs
  obtain ⟨hids, hE⟩ := Valid.existing hi hv
  have hlength := hv.2.2.1
  obtain ⟨taken, rest, hitems, htaken, hrest⟩ := List.map_eq_append_iff.1 ((items_reports hlength).trans hr)
  obtain ⟨x, rest, rfl, rfl, -⟩ := List.map_eq_cons_iff.1 hrest
  have hd : d ∈ h.existing := hv.1.mem_iff.2 hd
  have hloop : Loop h taken _ := loop_run hi hc hv hitems
  have hfinal : (syncReports h s.stored).represents =
      ((x :: rest).foldl (syncItem h) (taken.foldl (syncItem h) ⟨s.stored, [], []⟩)).represents := by
    rw [syncReports_eq, hitems, List.foldl_append]
  have hfirst : x.1.name ∉ taken.map fun y => y.1.name := items_first hc hlength hitems
  simp only [hfinal]
  generalize taken.foldl (syncItem h) ⟨s.stored, [], []⟩ = acc at hloop
  by_cases hseen : d.id ∈ acc.seenDisplayIds
  · obtain ⟨n, htook⟩ := hloop.seen_iff.1 hseen
    have hne : n ≠ x.1.name := by
      rintro rfl
      refine hfirst ?_
      rw [← hloop.reported]
      exact List.mem_map_of_mem htook
    refine .inr ⟨?_, ?_⟩
    · rcases hloop.why _ htook with ⟨d', hd', hid, hname⟩ | ⟨y, hy, rfl, d', hd', hid, hindex⟩ | hnew
      · obtain rfl := List.inj_on_of_nodup_map hids hd' hd hid
        exact absurd (hname.symm.trans hn) hne
      · obtain rfl := List.inj_on_of_nodup_map hids hd' hd hid
        obtain ⟨k, hk⟩ := List.mem_iff_getElem?.1 hy
        have hat := items_at hlength (k := k) (x := y)
          (by rw [hitems, List.getElem?_append_left (List.getElem?_eq_some_iff.1 hk).1, hk])
        refine ⟨k, y.1, ?_, represents_grows htook, hat.2 ▸ hindex⟩
        rw [← htaken, List.getElem?_map, hk]
        rfl
      · exact absurd (List.mem_map_of_mem hd) hnew
    · by_contra hall
      push Not at hall
      refine hloop.free_of_steady hids hfirst (fun y hy => ?_) hd hn hseen
      have hmem : y.1.name ∈ names s.stored := hall y.1 (htaken ▸ List.mem_map_of_mem hy)
      obtain ⟨d', hd', hname⟩ := List.mem_map.1 hmem
      exact ⟨d', hv.1.mem_iff.2 hd', hname⟩
  · left
    rw [List.foldl_cons]
    refine represents_grows ?_
    rw [syncItem, syncReport, match_name hE hd hseen hn]
    exact List.mem_append_right _ (List.mem_singleton_self _)

/-! ### Runs -/

/-- After pairing the kiosk has the one display that was made for it, or none, and has reported nothing. -/
def Paired (s : State) : Prop := s.stored.length ≤ 1 ∧ s.represents = []

instance (s : State) : Decidable (Paired s) := inferInstanceAs (Decidable (_ ∧ _))

theorem Paired.inv (hp : Paired s) : Inv s := by
  obtain ⟨hone, hrep⟩ := hp
  have hnodup (f : Display → String) : (s.stored.map f).Nodup := by
    match hstored : s.stored, hone with
    | [], _ => exact List.nodup_nil
    | [d], _ => exact List.nodup_singleton _
    | _ :: _ :: _, hone => simp at hone
  refine ⟨hnodup _, hnodup _, ?_⟩
  simp [hrep]

theorem run_inv (hp : Paired s₀) (hclean : ∀ x ∈ earlier, x.Clean)
    (hrun : Machine.run step s₀ earlier = some s) : Inv s := by
  induction earlier using List.reverseRecOn generalizing s with
  | nil => exact Option.some.inj hrun ▸ hp.inv
  | append_singleton earlier x ih =>
    obtain ⟨t, ht, hx⟩ := Machine.run_append.1 hrun
    obtain ⟨s', hs', hs⟩ := Machine.run_cons.1 hx
    obtain rfl := Option.some.inj hs
    exact (ih (fun y hy => hclean y (List.mem_append_left _ hy)) ht).step (hclean x (by simp)) hs'

theorem eq_of_keys {l l' : List (String × String)} (hkeys : l.map Prod.fst = l'.map Prod.fst)
    (hnodup : (l'.map Prod.fst).Nodup) (hsub : ∀ x ∈ l, x ∈ l') : l = l' := by
  refine List.ext_getElem (by simpa using congrArg List.length hkeys) fun i hi hi' => ?_
  have hkey : (l.map Prod.fst)[i]? = (l'.map Prod.fst)[i]? := congrArg (·[i]?) hkeys
  refine List.inj_on_of_nodup_map hnodup (hsub _ (List.getElem_mem hi)) (List.getElem_mem hi') ?_
  simpa [hi, hi'] using hkey

/-- Every report of the heartbeat has a display of its own. -/
theorem step_once (hs : step s h = some s') :
    s'.represents.map Prod.fst = h.displays.map Reported.name ∧ (s'.represents.map Prod.snd).Nodup := by
  obtain ⟨hv, rfl⟩ := step_eq hs
  have honce : Once h h.items (syncReports h s.stored) := by
    rw [syncReports_eq]
    exact once_run hv (List.append_nil _).symm
  exact ⟨honce.reported.trans (items_names hv), honce.seen ▸ honce.distinct⟩

/-- A name that is reported again keeps its display, unless an earlier report of the heartbeat took
that display by its index; then an earlier report is of a name that was not stored. -/
def Kept (s : State) (h : Heartbeat) (s' : State) : Prop :=
  ∀ pre r post id, h.displays = pre ++ r :: post → (r.name, id) ∈ s.represents →
    (r.name, id) ∈ s'.represents ∨
      (∃ k r', pre[k]? = some r' ∧ (r'.name, id) ∈ s'.represents ∧ ∃ d ∈ s.stored, d.id = id ∧
        d.index = reportedIndex k r') ∧ ∃ r' ∈ pre, r'.name ∉ names s.stored

/-- The same names from the same kiosk once more are represented by the same displays. -/
def Repeatable (h : Heartbeat) (s' : State) : Prop :=
  ∀ h' s'', h'.kioskName = h.kioskName → h'.displays.map Reported.name = h.displays.map Reported.name →
    step s' h' = some s'' → s''.represents = s'.represents

theorem kept_of_inv (hi : Inv s) (hc : h.Clean) (hs : step s h = some s') : Kept s h s' := by
  intro pre r post id hr hx
  obtain ⟨d, hd, rfl, hn⟩ := hi.represented _ hx
  refine (report_keeps hi hc hs hr hd hn).imp_right (And.imp_left ?_)
  rintro ⟨k, r', hk, hx', hindex⟩
  exact ⟨k, r', hk, hx', d, hd, rfl, hindex⟩

theorem repeatable_of_inv (hi : Inv s) (hc : h.Clean) (hs : step s h = some s') : Repeatable h s' := by
  intro h' s'' hkiosk hsame hs'
  have hi' := hi.step hc hs
  have hc' : h'.Clean := by
    refine ⟨hkiosk ▸ hc.kiosk, fun r hr => ?_, hsame ▸ hc.distinct⟩
    have hmem : r.name ∈ h.displays.map Reported.name := hsame ▸ List.mem_map_of_mem hr
    obtain ⟨r₀, hr₀, hname⟩ := List.mem_map.1 hmem
    exact hname ▸ hc.reports r₀ hr₀
  have hkeys : s'.represents.map Prod.fst = h'.displays.map Reported.name := (step_once hs).1.trans hsame.symm
  -- every name of the heartbeat is stored by now
  have hstored : ∀ r ∈ h'.displays, r.name ∈ names s'.stored := fun r hr => by
    have hmem : r.name ∈ s'.represents.map Prod.fst := hkeys ▸ List.mem_map_of_mem hr
    obtain ⟨x, hx, hname⟩ := List.mem_map.1 hmem
    obtain ⟨d, hd, -, hdn⟩ := hi'.represented x hx
    exact List.mem_map.2 ⟨d, hd, hdn.trans hname⟩
  refine (eq_of_keys (hkeys.trans (step_once hs').1.symm) ((step_once hs').1 ▸ hc'.distinct) fun x hx =>
    ?_).symm
  have hmem : x.1 ∈ h'.displays.map Reported.name := hkeys ▸ List.mem_map_of_mem hx
  obtain ⟨r, hr, hname⟩ := List.mem_map.1 hmem
  obtain ⟨pre, post, hsplit⟩ := List.append_of_mem hr
  rcases kept_of_inv hi' hc' hs' pre r post x.2 hsplit (hname ▸ hx) with hkept | ⟨-, r', hr', hnot⟩
  · rwa [hname] at hkept
  · refine absurd (hstored r' ?_) hnot
    rw [hsplit]
    exact List.mem_append_left _ hr'

/-- No display represents two reports, and with names that have no `": "` in them a display follows
its name. -/
theorem displays_follow_names (hp : Paired s₀) (hrun : Machine.run step s₀ earlier = some s)
    (hs : step s h = some s') :
    (s'.represents.map Prod.fst = h.displays.map Reported.name ∧ (s'.represents.map Prod.snd).Nodup) ∧
      ((∀ x ∈ earlier, x.Clean) → h.Clean → Kept s h s' ∧ Repeatable h s') := by
  refine ⟨step_once hs, fun hclean hc => ?_⟩
  have hi := run_inv hp hclean hrun
  exact ⟨kept_of_inv hi hc hs, repeatable_of_inv hi hc hs⟩

/-- What pairing made for the kiosk "Kiosk". -/
def afterPairing : State := ⟨[⟨"one", "Kiosk: HDMI-0", 0, 1920, 1080, true, "unknown"⟩], []⟩

def reportedAt (name : String) (index : Int) : Reported := ⟨name, index, 1920, 1080, "awake", true⟩

def onlyFirst : Heartbeat where
  kioskName := "Kiosk"
  viewer := false
  displays := [reportedAt "DISPLAY1" 0]
  existing := afterPairing.stored
  fresh := ["two"]
  used := ["one"]

def displayed (name : String) (index : Int) (id : String) : Display :=
  ⟨id, kioskDisplayName "Kiosk" name, index, 1920, 1080, true, "awake"⟩

/-- The second connector is reported at the index of the first. -/
def secondInserted : Heartbeat where
  kioskName := "Kiosk"
  viewer := false
  displays := [reportedAt "DISPLAY2" 0, reportedAt "DISPLAY1" 1]
  existing := [displayed "DISPLAY1" 0 "one"]
  fresh := ["three", "four"]
  used := ["one"]

/-- The second connector is reported behind the first. -/
def secondAdded : Heartbeat :=
  { secondInserted with displays := [reportedAt "DISPLAY1" 0, reportedAt "DISPLAY2" 1] }

theorem displays_follow_names_added : ∃ s s', Machine.run step afterPairing [onlyFirst] = some s ∧
    step s secondAdded = some s' ∧ s.represents = [("DISPLAY1", "one")] ∧
    s'.represents = [("DISPLAY1", "one"), ("DISPLAY2", "four")] ∧ Kept s secondAdded s' ∧
    Repeatable secondAdded s' := by
  have hrun : Machine.run step afterPairing [onlyFirst] = some ⟨[displayed "DISPLAY1" 0 "one"],
        [("DISPLAY1", "one")]⟩ := by
    decide
  have hs : step ⟨[displayed "DISPLAY1" 0 "one"], [("DISPLAY1", "one")]⟩ secondAdded =
      some ⟨[displayed "DISPLAY1" 0 "one", displayed "DISPLAY2" 1 "four"],
            [("DISPLAY1", "one"), ("DISPLAY2", "four")]⟩ := by
    decide
  have hpaired : Paired afterPairing := by decide
  have hclean : onlyFirst.Clean := ⟨by decide, by decide, by decide⟩
  have hc : secondAdded.Clean := ⟨by decide, by decide, by decide⟩
  exact ⟨_, _, hrun, hs, rfl, rfl, (displays_follow_names hpaired hrun hs).2 (by simpa using hclean) hc⟩

/-- `DISPLAY1` was "one", and now "one" is `DISPLAY2`. -/
theorem display_taken_by_index : ∃ s s', Machine.run step afterPairing [onlyFirst] = some s ∧
    step s secondInserted = some s' ∧ s.represents = [("DISPLAY1", "one")] ∧
    (secondInserted.displays.map Reported.name).Nodup ∧ (secondInserted.displays.map Reported.index).Nodup ∧
    s'.represents = [("DISPLAY2", "one"), ("DISPLAY1", "four")] ∧ ("DISPLAY1", "one") ∉ s'.represents := by
  have hrun : Machine.run step afterPairing [onlyFirst] = some ⟨[displayed "DISPLAY1" 0 "one"],
        [("DISPLAY1", "one")]⟩ := by
    decide
  have hs : step ⟨[displayed "DISPLAY1" 0 "one"], [("DISPLAY1", "one")]⟩ secondInserted =
      some ⟨[displayed "DISPLAY2" 0 "one", displayed "DISPLAY1" 1 "four"],
            [("DISPLAY2", "one"), ("DISPLAY1", "four")]⟩ := by
    decide
  exact ⟨_, _, hrun, hs, rfl, by decide, by decide, rfl, by decide⟩

end DisplaySync
