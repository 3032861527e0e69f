import BetterFrame.Lib.Json
import BetterFrame.Lib.OrdMap
import BetterFrame.Lib.Run

/-!
# Setup extras (`getSetupState`, `setSetupExtra` of shared/db/repository.ts)

Unrelated features keep a value each in one JSON document, `extras` of the row `setup_state`.
`setSetupExtra` reads the document, sets its key and writes the document back, in two statements.
Calls interleave at every statement; a statement can fail, and its answer can get lost. A write
keeps the other keys exactly when the document it is computed from agrees on them with the stored
one (`extras_kept_iff`).
-/

namespace SetupExtras

open Machine

abbrev Extras := OrdMap String Json

/-- What a call of `setSetupExtra` waits for. -/
inductive Stage where
  | select
  | insert
  | selectAgain
  | update (cur : Extras)
  | finished

/-- A call of `setSetupExtra`, and how far it is. -/
structure Call where
  key : String
  value : Json
  stage : Stage

/-- The row of `setup_state`, the calls, and the writes from the newest to the oldest. -/
structure State where
  row : Option Extras
  calls : List Call
  writes : List (String × Json)

/-- The stored object, empty without a row. -/
def State.extras (s : State) : Extras := s.row.getD .empty

def State.init (row : Option Extras) : State := ⟨row, [], []⟩

/-- How a statement ends: `lost` is one that is carried out and whose answer does not arrive. -/
inductive Ending where
  | ok
  | failed
  | lost
deriving DecidableEq

/-- A call is made or runs its next statement. -/
inductive Label where
  | call (key : String) (value : Json)
  | statement (i : Nat) (ending : Ending)
  /-- Another caller of `getSetupState`, which may find no row and add one. -/
  | getSetupState

/-- `cur[key] = value`. A name that is not there yet and is `__proto__` sets the prototype of `cur`,
which is not stored. -/
def assign (cur : Extras) (key : String) (value : Json) : Extras :=
  if key = "__proto__" ∧ cur.get? key = none then cur else cur.set key value

/-- `INSERT … ON CONFLICT (id) DO NOTHING`. -/
def State.inserted (s : State) : State := { s with row := some s.extras }

/-- `UPDATE setup_state SET extras = ? WHERE id = 1`. -/
def State.updated (s : State) (c : Call) (cur : Extras) : State :=
  { s with
    row := s.row.map fun _ => assign cur c.key c.value
    writes := (c.key, c.value) :: s.writes }

/-- The statement a call waits for, when it is carried out, with what the call waits for next. -/
def State.execute (s : State) (c : Call) : State × Stage :=
  match c.stage with
  | .select => (s, match s.row with | some cur => .update cur | none => .insert)
  | .insert => (s.inserted, .selectAgain)
  | .selectAgain => (s, match s.row with | some cur => .update cur | none => .finished)
  | .update cur => (s.updated c cur, .finished)
  | .finished => (s, .finished)

def State.setStage (s : State) (i : Nat) (c : Call) (stage : Stage) : State :=
  { s with calls := s.calls.set i { c with stage } }

def step (s : State) : Label → Option State
  | .call key value => some { s with calls := s.calls ++ [⟨key, value, .select⟩] }
  | .getSetupState => some s.inserted
  | .statement i ending =>
    (s.calls[i]?).map fun c =>
      match ending with
      | .failed => s.setStage i c .finished
      | .lost => (s.execute c).1.setStage i c .finished
      | .ok => (s.execute c).1.setStage i c (s.execute c).2

/-! ### What is kept -/

/-- The last value written under the key. -/
def lastWrite (writes : List (String × Json)) (key : String) : Option Json :=
  (writes.find? fun w => w.1 = key).map Prod.snd

/-- Every key holds what was written to it last, and a key that was not written what it held at first. -/
def State.Kept (initial : Extras) (s : State) : Prop :=
  ∀ key, s.extras.get? key = (lastWrite s.writes key).or (initial.get? key)

/-- A write is computed from a document that agrees with the stored one on every other key, and its
key can be set. -/
def Current (s : State) : Label → Prop
  | .statement i ending =>
    ending ≠ .failed → ∀ c cur, s.calls[i]? = some c → c.stage = .update cur →
      (c.key = "__proto__" → cur.get? c.key ≠ none) ∧ ∀ key, key ≠ c.key → cur.get? key = s.extras.get? key
  | _ => True

/-- The row is there once a call has read it. -/
def State.Stored (s : State) : Prop := ∀ c ∈ s.calls, ∀ cur, c.stage = .update cur → s.row.isSome

variable {initial : Extras} {row : Option Extras} {s s' : State} {l : Label} {ls : List Label}
  {key : String} {value : Json}

theorem lastWrite_cons {writes : List (String × Json)} {w : String × Json} :
    lastWrite (w :: writes) key = if key = w.1 then some w.2 else lastWrite writes key := by
  unfold lastWrite
  by_cases h : w.1 = key
  · simp [h]
  · simp [h, Ne.symm h]

theorem get?_assign_self {cur : Extras} :
    (assign cur key value).get? key = some value ↔ (key = "__proto__" → cur.get? key ≠ none) := by
  unfold assign
  split
  · next h => simp [h.1, h.1 ▸ h.2]
  · next h =>
    rw [OrdMap.get?_set_self]
    simpa using h

theorem get?_assign_of_ne {cur : Extras} {k : String} (h : k ≠ key) :
    (assign cur key value).get? k = cur.get? k := by
  unfold assign
  split
  · rfl
  · exact OrdMap.get?_set_of_ne h

/-! ### Steps -/

/-- Only an UPDATE changes what is stored. -/
theorem execute_frame {c : Call} (h : ∀ cur, c.stage ≠ .update cur) :
    (s.execute c).1.extras = s.extras ∧ (s.execute c).1.writes = s.writes := by
  unfold State.execute
  cases hstage : c.stage with
  | update cur => exact absurd hstage (h cur)
  | _ => exact ⟨rfl, rfl⟩

theorem row_execute {c : Call} (h : s.row.isSome) : (s.execute c).1.row.isSome := by
  unfold State.execute
  cases c.stage with
  | insert => rfl
  | update cur =>
    show (s.row.map _).isSome
    rw [Option.isSome_map]
    exact h
  | _ => exact h

theorem calls_execute {c : Call} : (s.execute c).1.calls = s.calls := by
  unfold State.execute
  cases c.stage <;> rfl

theorem execute_stored {c : Call} {cur : Extras} (h : (s.execute c).2 = .update cur) :
    (s.execute c).1.row.isSome := by
  unfold State.execute at h ⊢
  cases hstage : c.stage with
  | select =>
    rw [hstage] at h
    cases hrow : s.row with
    | none => simp [hrow] at h
    | some => simp
  | selectAgain =>
    rw [hstage] at h
    cases hrow : s.row with
    | none => simp [hrow] at h
    | some => simp
  | _ =>
    rw [hstage] at h
    cases h

theorem Stored.step (h : step s l = some s') (hs : s.Stored) : s'.Stored := by
  cases l with
  | call key value =>
    obtain rfl := Option.some.inj h
    intro c hc cur hcur
    rcases List.mem_append.1 hc with hc | hc
    · exact hs c hc cur hcur
    · rw [List.mem_singleton.1 hc] at hcur
      cases hcur
  | getSetupState =>
    obtain rfl := Option.some.inj h
    exact fun _ _ _ _ => rfl
  | statement i ending =>
    obtain ⟨c, hc, rfl⟩ := Option.map_eq_some_iff.1 h
    have hkept (t : State) (stage : Stage) (hcalls : t.calls = s.calls) (hrow : s.row.isSome → t.row.isSome)
        (hstage : ∀ cur, stage = .update cur → t.row.isSome) : (t.setStage i c stage).Stored := by
      intro d hd cur hcur
      rcases List.mem_or_eq_of_mem_set hd with hd | rfl
      · exact hrow (hs d (hcalls ▸ hd) cur hcur)
      · exact hstage cur hcur
    cases ending with
    | failed => exact hkept s .finished rfl id (by simp)
    | lost => exact hkept _ .finished calls_execute row_execute (by simp)
    | ok => exact hkept _ _ calls_execute row_execute fun cur hcur => execute_stored hcur

/-- A write keeps the law exactly when its document is current. -/
theorem kept_updated {c : Call} {cur : Extras} (hrow : s.row.isSome) (hs : s.Kept initial) :
    (s.updated c cur).Kept initial ↔
      (c.key = "__proto__" → cur.get? c.key ≠ none) ∧ ∀ key, key ≠ c.key →
      cur.get? key = s.extras.get? key := by
  have hextras : (s.updated c cur).extras = assign cur c.key c.value := by
    obtain ⟨e, he⟩ := Option.isSome_iff_exists.1 hrow
    rw [State.extras, State.updated, he]
    rfl
  have hwrites : (s.updated c cur).writes = (c.key, c.value) :: s.writes := rfl
  constructor
  · intro h
    constructor
    · have hself := h c.key
      rw [hextras, hwrites, lastWrite_cons, if_pos rfl, Option.some_or] at hself
      exact get?_assign_self.1 hself
    · intro key hne
      have hother := h key
      rw [hextras, hwrites, lastWrite_cons, if_neg hne, get?_assign_of_ne hne] at hother
      rw [hother, hs key]
  · rintro ⟨hself, hother⟩ key
    rw [hextras, hwrites, lastWrite_cons]
    split
    · next heq =>
      subst heq
      rw [get?_assign_self.2 hself, Option.some_or]
    · next hne => rw [get?_assign_of_ne hne, hother key hne, hs key]

theorem kept_step (hstored : s.Stored) (hs : s.Kept initial) (h : step s l = some s') :
    s'.Kept initial ↔ Current s l := by
  cases l with
  | call key value =>
    obtain rfl := Option.some.inj h
    exact ⟨fun _ => trivial, fun _ => hs⟩
  | getSetupState =>
    obtain rfl := Option.some.inj h
    exact ⟨fun _ => trivial, fun _ => hs⟩
  | statement i ending =>
    obtain ⟨c, hc, rfl⟩ := Option.map_eq_some_iff.1 h
    have hcarried (stage : Stage) : ((s.execute c).1.setStage i c stage).Kept initial ↔
        ∀ c' cur, s.calls[i]? = some c' → c'.stage = .update cur →
          (c'.key = "__proto__" → cur.get? c'.key ≠ none) ∧ ∀ key, key ≠ c'.key →
              cur.get? key = s.extras.get? key := by
      by_cases hupdate : ∃ cur, c.stage = .update cur
      · obtain ⟨cur, hcur⟩ := hupdate
        have hrow : s.row.isSome := hstored c (List.mem_of_getElem? hc) cur hcur
        have hexecute : (s.execute c).1 = s.updated c cur := by rw [State.execute, hcur]
        rw [hexecute]
        refine (@kept_updated initial _ c cur hrow hs).trans ⟨fun hcurrent c' cur' hc' hcur' => ?_,
          fun hall => hall c cur hc hcur⟩
        obtain rfl : c = c' := Option.some.inj (hc.symm.trans hc')
        obtain rfl : cur = cur' := Stage.update.inj (hcur.symm.trans hcur')
        exact hcurrent
      · have hnot : ∀ cur, c.stage ≠ .update cur := fun cur hcur => hupdate ⟨cur, hcur⟩
        obtain ⟨hextras, hwrites⟩ := execute_frame (s := s) hnot
        refine ⟨fun _ c' cur hc' hcur => ?_, fun _ key => ?_⟩
        · obtain rfl : c = c' := Option.some.inj (hc.symm.trans hc')
          exact absurd hcur (hnot cur)
        · show (s.execute c).1.extras.get? key = (lastWrite (s.execute c).1.writes key).or _
          rw [hextras, hwrites]
          exact hs key
    cases ending with
    | failed => exact ⟨fun _ hne => absurd rfl hne, fun _ => hs⟩
    | lost => exact (hcarried .finished).trans ⟨fun hall _ => hall, fun hall => hall (by decide)⟩
    | ok => exact (hcarried _).trans ⟨fun hall _ => hall, fun hall => hall (by decide)⟩

/-- No extra is lost in a run exactly when every write of the run is computed from a current document. -/
theorem extras_kept_iff (hr : run step (State.init row) ls = some s) :
    (∀ before t, before <+: ls → run step (State.init row) before = some t → t.Kept (row.getD .empty)) ↔
      Along step Current (State.init row) ls := by
  refine along_iff (fun _ _ _ h hs => Stored.step h hs) (fun _ _ _ hstored hs h =>
    kept_step hstored hs h) hr ?_ ?_
  · exact fun c hc => absurd hc List.not_mem_nil
  · exact fun key => rfl

/-- Two calls one after the other. -/
def oneByOne : List Label :=
  [.call "cluster_key_encrypted" (.str "k"), .statement 0 .ok, .statement 0 .ok,
    .call "update_schedule" (.obj []), .statement 1 .ok, .statement 1 .ok]

/-- The same calls, both of which read before either writes. -/
def overlapping : List Label :=
  [.call "cluster_key_encrypted" (.str "k"), .call "update_schedule" (.obj []), .statement 0 .ok,
    .statement 1 .ok, .statement 0 .ok, .statement 1 .ok]

theorem extras_kept_oneByOne : ∃ s, run step (State.init (some .empty)) oneByOne = some s ∧
    s.Kept .empty := by
  refine ⟨_, rfl, ?_⟩
  refine (@extras_kept_iff (some .empty) _ oneByOne rfl).2 ?_ oneByOne _ (List.prefix_refl _) rfl
  refine ⟨trivial, fun _ c cur hc hcur => ?_, fun _ c cur hc hcur => ?_, trivial, fun _ c cur hc hcur => ?_,
    fun _ c cur hc hcur => ?_, trivial⟩
  all_goals
    obtain rfl := Option.some.inj hc
    cases hcur
  all_goals exact ⟨fun h => absurd h (by decide), fun _ _ => rfl⟩

/-- The cluster key is gone when both calls are over. -/
theorem cluster_key_lost : ∃ s, run step (State.init (some .empty)) overlapping = some s ∧
    (∀ c ∈ s.calls, c.stage = .finished) ∧ lastWrite s.writes "cluster_key_encrypted" = some (.str "k") ∧
    s.extras.get? "cluster_key_encrypted" = none ∧ ¬ s.Kept .empty := by
  refine ⟨_, rfl, ?_, rfl, by decide, fun h => ?_⟩
  · have hcalls : ∀ c ∈ [(⟨"cluster_key_encrypted", .str "k", .finished⟩ : Call),
      ⟨"update_schedule", .obj [], .finished⟩], c.stage = .finished := by simp
    exact hcalls
  · have hkey : (none : Option Json) = some (.str "k") := h "cluster_key_encrypted"
    cases hkey

end SetupExtras
