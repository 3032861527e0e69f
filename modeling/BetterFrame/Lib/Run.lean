import Mathlib.Data.List.Basic

/-!
# Runs of a labelled step function

A machine is a partial step function `step : σ → ℓ → Option σ`: the label carries everything the
environment chooses (which request arrives, which file operation fails, which image boots), and
`none` says that the label is not enabled. `run` takes a list of labels; `Along good` says that every
step of the run is taken in a state in which `good` holds of it, so that a law which needs a condition
on the environment is stated about the runs that meet the condition at each step; `Took cause` says
that one of its steps is.
-/

namespace Machine

variable {σ ℓ : Type*} {step : σ → ℓ → Option σ} {good good' cause : σ → ℓ → Prop} {s s' : σ} {ls ms : List ℓ}

/-- The state after taking the steps `ls` one after another, when each of them is enabled. -/
def run (step : σ → ℓ → Option σ) : σ → List ℓ → Option σ
  | s, [] => some s
  | s, l :: ls => (step s l).bind fun s' => run step s' ls

/-- Every step of the run of `ls` from `s` is taken in a state in which `good` holds of it. -/
def Along (step : σ → ℓ → Option σ) (good : σ → ℓ → Prop) : σ → List ℓ → Prop
  | _, [] => True
  | s, l :: ls => good s l ∧ (step s l).elim True fun s' => Along step good s' ls

/-- Some step of the run of `ls` from `s` is taken in a state in which `cause` holds of it. -/
def Took (step : σ → ℓ → Option σ) (cause : σ → ℓ → Prop) (s : σ) (ls : List ℓ) : Prop :=
  ∃ before l after t, ls = before ++ l :: after ∧ run step s before = some t ∧ cause t l

instance Along.decidable [∀ s l, Decidable (good s l)] : ∀ s ls, Decidable (Along step good s ls)
  | _, [] => .isTrue trivial
  | s, l :: ls =>
    have : Decidable ((step s l).elim True fun s' => Along step good s' ls) :=
      match step s l with
      | none => .isTrue trivial
      | some s' => Along.decidable s' ls
    inferInstanceAs (Decidable (_ ∧ _))

@[simp] theorem run_nil : run step s [] = some s := rfl

theorem run_cons {l : ℓ} :
    run step s (l :: ls) = some s' ↔ ∃ t, step s l = some t ∧ run step t ls = some s' := by
  simp [run, Option.bind_eq_some_iff]

theorem run_append :
    run step s (ls ++ ms) = some s' ↔ ∃ t, run step s ls = some t ∧ run step t ms = some s' := by
  induction ls generalizing s with
  | nil => simp
  | cons l ls ih =>
    simp only [List.cons_append, run_cons, ih]
    constructor
    · rintro ⟨t, ht, u, hu, h⟩
      exact ⟨u, ⟨t, ht, hu⟩, h⟩
    · rintro ⟨u, ⟨t, ht, hu⟩, h⟩
      exact ⟨t, ht, u, hu, h⟩

theorem Along.cons {l : ℓ} {t : σ} (h : Along step good s (l :: ls)) (ht : step s l = some t) :
    good s l ∧ Along step good t ls := by
  simpa [Along, ht] using h

theorem Along.mono (hg : ∀ s l, good s l → good' s l) (h : Along step good s ls) :
    Along step good' s ls := by
  induction ls generalizing s with
  | nil => trivial
  | cons l ls ih =>
    refine ⟨hg s l h.1, ?_⟩
    rcases hs : step s l with _ | t
    · trivial
    · exact ih (h.cons hs).2

theorem along_labels {p : ℓ → Prop} (hp : ∀ l ∈ ls, p l) : Along step (fun _ l => p l) s ls := by
  induction ls generalizing s with
  | nil => trivial
  | cons l ls ih =>
    refine ⟨hp l (List.mem_cons_self ..), ?_⟩
    rcases step s l with _ | t
    · trivial
    · exact ih fun l' hl' => hp l' (List.mem_cons_of_mem _ hl')

/-- A condition on the labels alone. -/
theorem Along.labels {p : ℓ → Prop} (hp : ∀ l ∈ ls, p l) (h : Along step good s ls) :
    Along step (fun s l => p l ∧ good s l) s ls := by
  induction ls generalizing s with
  | nil => trivial
  | cons l ls ih =>
    refine ⟨⟨hp l (List.mem_cons_self ..), h.1⟩, ?_⟩
    rcases hs : step s l with _ | t
    · trivial
    · exact ih (fun l' hl' => hp l' (List.mem_cons_of_mem _ hl')) (h.cons hs).2

theorem Along.append (h : Along step good s (ls ++ ms)) (hr : run step s ls = some s') :
    Along step good s ls ∧ Along step good s' ms := by
  induction ls generalizing s with
  | nil => exact ⟨trivial, Option.some.inj hr ▸ h⟩
  | cons l ls ih =>
    obtain ⟨t, ht, hr⟩ := run_cons.1 hr
    obtain ⟨hg, h⟩ := h.cons ht
    obtain ⟨hls, hms⟩ := ih h hr
    exact ⟨⟨hg, by rw [ht]; exact hls⟩, hms⟩

/-- What every good step preserves, a run of good steps preserves. -/
theorem Along.inv {I : σ → Prop} (hI : ∀ s l s', good s l → step s l = some s' → I s → I s')
    (ha : Along step good s ls) (hr : run step s ls = some s') (h : I s) : I s' := by
  induction ls generalizing s with
  | nil => exact Option.some.inj hr ▸ h
  | cons l ls ih =>
    obtain ⟨t, ht, hr⟩ := run_cons.1 hr
    obtain ⟨hg, ha⟩ := ha.cons ht
    exact ih ha hr (hI s l t hg ht h)

/-- What holds of every step that is taken where `I` does holds along a run of good steps that
preserve `I`. -/
theorem Along.of_inv {I : σ → Prop} (hI : ∀ s l s', good s l → step s l = some s' → I s → I s')
    (hg : ∀ s l s', I s → step s l = some s' → good' s l) (ha : Along step good s ls)
    (hr : run step s ls = some s') (h : I s) :
    Along step good' s ls := by
  induction ls generalizing s with
  | nil => trivial
  | cons l ls ih =>
    obtain ⟨t, ht, hr⟩ := run_cons.1 hr
    obtain ⟨hl, ha⟩ := ha.cons ht
    refine ⟨hg s l t h ht, ?_⟩
    rw [ht]
    exact ih ha hr (hI s l t hl ht h)

/-- What every step preserves, a run preserves. -/
theorem run_inv {I : σ → Prop} (hI : ∀ s l s', step s l = some s' → I s → I s')
    (hr : run step s ls = some s') (h : I s) : I s' := by
  induction ls generalizing s with
  | nil => exact Option.some.inj hr ▸ h
  | cons l ls ih =>
    obtain ⟨t, ht, hr⟩ := run_cons.1 hr
    exact ih hr (hI s l t ht h)

/-- A relation that is reflexive and transitive and holds across every step holds across a run. -/
theorem run_rel {R : σ → σ → Prop} (hrefl : ∀ s, R s s) (htrans : ∀ s t u, R s t → R t u → R s u)
    (hstep : ∀ s l s', step s l = some s' → R s s') (hr : run step s ls = some s') : R s s' := by
  induction ls generalizing s with
  | nil => exact Option.some.inj hr ▸ hrefl s
  | cons l ls ih =>
    obtain ⟨t, ht, hr⟩ := run_cons.1 hr
    exact htrans s t s' (hstep s l t ht) (ih hr)

/-- Where a good step is exactly one that preserves `I`, a run of good steps is exactly one that
keeps `I` throughout. -/
theorem along_iff {I J : σ → Prop} (hJ : ∀ s l s', step s l = some s' → J s → J s')
    (hI : ∀ s l s', J s → I s → step s l = some s' → (I s' ↔ good s l)) (hr : run step s ls = some s')
    (hj : J s) (hi : I s) :
    (∀ before t, before <+: ls → run step s before = some t → I t) ↔ Along step good s ls := by
  induction ls generalizing s with
  | nil =>
    refine ⟨fun _ => trivial, fun _ before t hb ht => ?_⟩
    obtain rfl := List.prefix_nil.1 hb
    exact Option.some.inj ht ▸ hi
  | cons l ls ih =>
    obtain ⟨t, ht, hrest⟩ := run_cons.1 hr
    have hone : run step s [l] = some t := run_cons.2 ⟨t, ht, rfl⟩
    constructor
    · intro h
      have hit : I t := h [l] t (List.prefix_append [l] ls) hone
      refine ⟨(hI s l t hj hi ht).1 hit, ?_⟩
      rw [ht]
      refine (ih hrest (hJ s l t ht hj) hit).1 fun before u hb hu => ?_
      exact h (l :: before) u ((List.cons_prefix_cons).2 ⟨rfl, hb⟩) (run_cons.2 ⟨t, ht, hu⟩)
    · intro h before u hb hu
      obtain ⟨hg, hall⟩ := h.cons ht
      have hit : I t := (hI s l t hj hi ht).2 hg
      cases before with
      | nil => exact Option.some.inj hu ▸ hi
      | cons m before =>
        obtain ⟨hm, hbefore⟩ := List.cons_prefix_cons.1 hb
        obtain ⟨t', ht', hu⟩ := run_cons.1 hu
        obtain rfl : t = t' := Option.some.inj (ht.symm.trans (hm ▸ ht'))
        exact (ih hrest (hJ s l t ht hj) hit).2 hall before u hbefore hu

theorem Took.cons {l : ℓ} {t : σ} (hs : step s l = some t) (h : Took step cause t ls) :
    Took step cause s (l :: ls) := by
  obtain ⟨before, m, after, u, rfl, hu, hc⟩ := h
  exact ⟨l :: before, m, after, u, rfl, run_cons.2 ⟨t, hs, hu⟩, hc⟩

/-- What does not hold at the start of a run and holds at its end was made to hold by one of its steps. -/
theorem took_of_run {I P : σ → Prop} (hI : ∀ s l s', step s l = some s' → I s → I s')
    (hP : ∀ s l s', I s → step s l = some s' → ¬ P s → P s' → cause s l)
    (hr : run step s ls = some s') (hi : I s) (hn : ¬ P s) (hp : P s') : Took step cause s ls := by
  induction ls generalizing s with
  | nil => exact absurd (Option.some.inj hr ▸ hp) hn
  | cons l ls ih =>
    obtain ⟨t, ht, hr⟩ := run_cons.1 hr
    by_cases hpt : P t
    · exact ⟨[], l, ls, s, rfl, rfl, hP s l t hi ht hn hpt⟩
    · exact .cons ht (ih hr (hI s l t ht hi) hpt)

end Machine
