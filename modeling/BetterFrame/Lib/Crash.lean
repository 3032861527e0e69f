import Mathlib.Data.List.Basic

/-!
# Programs that can be cut off

`Prog ε σ α` is a program over a world `σ` that returns an `α` or throws an `ε`, and whose process may
die at any of its operations. A run takes a plan, which says of one operation after another whether it
succeeds, fails, or is the one the process dies before or in the middle of; where the plan ends,
operations succeed. What a process that dies leaves behind is what the next program starts from, so an
invariant of the whole system has to hold there too: `wp C x Q E s` says that `x`, started in `s`,
returns to `Q`, throws to `E` and dies in `C`, whatever the plan.
-/

namespace Crash

/-- How an operation goes. -/
inductive Fault where
  | ok
  | fail
  /-- The process dies before the operation. -/
  | crash
  /-- The process dies in the middle of the operation. -/
  | torn
deriving DecidableEq

/-- How a run ends, and what it leaves behind. -/
inductive Outcome (ε σ α : Type) where
  | done (a : α) (s : σ) (plan : List Fault)
  | thrown (e : ε) (s : σ) (plan : List Fault)
  | crashed (s : σ)

/-- A program over a state, under a plan of the failures of its operations. -/
def Prog (ε σ α : Type) := σ → List Fault → Outcome ε σ α

/-- An operation: what it does when it succeeds, when it fails and when it is cut off. -/
structure Op (ε σ α : Type) where
  ok : σ → Except ε α × σ
  fail : σ → Except ε α × σ
  torn : σ → σ

variable {ε σ α β : Type}

/-- The world that a program leaves behind. -/
def Outcome.world : Outcome ε σ α → σ
  | .done _ s _ => s
  | .thrown _ s _ => s
  | .crashed s => s

namespace Prog

/-- The outcome of an operation that was carried out. -/
def ofExcept (r : Except ε α × σ) (plan : List Fault) : Outcome ε σ α :=
  match r with
  | (.ok a, s) => .done a s plan
  | (.error e, s) => .thrown e s plan

/-- One operation: carried out, failed with or without its effect, or cut short by a crash. -/
def op (o : Op ε σ α) : Prog ε σ α := fun s plan =>
  match plan with
  | [] => ofExcept (o.ok s) []
  | .ok :: plan => ofExcept (o.ok s) plan
  | .fail :: plan => ofExcept (o.fail s) plan
  | .crash :: _ => .crashed s
  | .torn :: _ => .crashed (o.torn s)

instance : Monad (Prog ε σ) where
  pure a := fun s plan => .done a s plan
  bind x f := fun s plan =>
    match x s plan with
    | .done a s plan => f a s plan
    | .thrown e s plan => .thrown e s plan
    | .crashed s => .crashed s

def throw (e : ε) : Prog ε σ α := fun s plan => .thrown e s plan

/-- `x`, or `h` if `x` throws. -/
def orElse {ε' : Type} (x : Prog ε σ α) (h : ε → Prog ε' σ α) : Prog ε' σ α := fun s plan =>
  match x s plan with
  | .done a s plan => .done a s plan
  | .thrown e s plan => h e s plan
  | .crashed s => .crashed s

/-- `x`, whose error is dropped. -/
def ignore (x : Prog ε σ Unit) : Prog ε σ Unit := x.orElse fun _ => pure ()

/-- Reads, and reads `bad` if that fails. -/
def read (f : σ → α) (bad : α) : Prog ε σ α := op ⟨fun s => (.ok (f s), s), fun s => (.ok bad, s), id⟩

/-- Reads what is always there. -/
def get (f : σ → α) : Prog ε σ α := op ⟨fun s => (.ok (f s), s), fun s => (.ok (f s), s), id⟩

/-- Changes the world in one step, or throws `e`. -/
def write (f : σ → σ) (e : ε) : Prog ε σ Unit := op ⟨fun s => (.ok (), f s), fun s => (.error e, s), id⟩

/-- A change of the world that does not fail. -/
def note (f : σ → σ) : Prog ε σ Unit := op ⟨fun s => (.ok (), f s), fun s => (.ok (), f s), id⟩

/-- Sees what is outside the program, which is another thing at every look at it: what is next in
`script`, and at its end what was seen last. -/
def look {ω : Type} (last : σ → ω) (script : σ → List ω) (see : ω → List ω → σ → σ) : Prog ε σ ω :=
  op
    { ok := fun s =>
        match script s with
        | [] => (.ok (last s), s)
        | o :: rest => (.ok o, see o rest s)
      fail := fun s => (.ok (last s), s)
      torn := id }

/-- Runs `x` on a part of the world. -/
def zoom {τ : Type} (view : σ → τ) (put : τ → σ → σ) (x : Prog ε τ α) : Prog ε σ α := fun s plan =>
  match x (view s) plan with
  | .done a t plan => .done a (put t s) plan
  | .thrown e t plan => .thrown e (put t s) plan
  | .crashed t => .crashed (put t s)

end Prog

/-! ### Weakest preconditions -/

/-- Returned to `Q`, thrown to `E` or died in `C`. -/
def Outcome.Meets (C : σ → Prop) (Q : α → σ → Prop) (E : ε → σ → Prop) : Outcome ε σ α → Prop
  | .done a s _ => Q a s
  | .thrown e s _ => E e s
  | .crashed s => C s

/-- Under every plan the outcome meets the postconditions: `C` after a crash, `Q` of a result and
`E` of an error. -/
def wp (C : σ → Prop) (x : Prog ε σ α) (Q : α → σ → Prop) (E : ε → σ → Prop) (s : σ) : Prop :=
  ∀ plan, (x s plan).Meets C Q E

section Rules

variable {C C' : σ → Prop} {x : Prog ε σ α} {f : α → Prog ε σ β} {Q Q' : α → σ → Prop} {R : β → σ → Prop}
  {E E' : ε → σ → Prop} {s : σ} {a : α} {e : ε}

theorem Outcome.Meets.mono {o : Outcome ε σ α} (h : o.Meets C Q E) (hQ : ∀ a t, Q a t → Q' a t)
    (hE : ∀ e t, E e t → E' e t) (hC : ∀ t, C t → C' t) : o.Meets C' Q' E' := by
  cases o with
  | done a t _ => exact hQ a t h
  | thrown e t _ => exact hE e t h
  | crashed t => exact hC t h

theorem wp.mono (h : wp C x Q E s) (hQ : ∀ a t, Q a t → Q' a t) (hE : ∀ e t, E e t → E' e t)
    (hC : ∀ t, C t → C' t) : wp C' x Q' E' s := fun plan => (h plan).mono hQ hE hC

/-- What a program leaves behind, in whatever way it ends. -/
theorem wp.world (h : wp C x (fun _ => C) (fun _ => C) s) (plan : List Fault) : C (x s plan).world := by
  have := h plan
  cases hx : x s plan with
  | done a t _ => rw [hx] at this; exact this
  | thrown e t _ => rw [hx] at this; exact this
  | crashed t => rw [hx] at this; exact this

theorem wp_pure (h : Q a s) : wp C (pure a) Q E s := fun _ => h

theorem wp_throw (h : E e s) : wp C (Prog.throw e : Prog ε σ α) Q E s := fun _ => h

theorem wp_bind (h : wp C x (fun a t => wp C (f a) R E t) E s) : wp C (x >>= f) R E s := by
  intro plan
  have := h plan
  simp only [bind]
  cases hx : x s plan with
  | done a t plan' => rw [hx] at this; exact this plan'
  | thrown e t _ => rw [hx] at this; exact this
  | crashed t => rw [hx] at this; exact this

theorem wp_orElse {ε' : Type} {E : ε' → σ → Prop} {h : ε → Prog ε' σ α}
    (hx : wp C x Q (fun e t => wp C (h e) Q E t) s) : wp C (x.orElse h) Q E s := by
  intro plan
  have := hx plan
  unfold Prog.orElse
  cases hr : x s plan with
  | done a t _ => rw [hr] at this; exact this
  | thrown e t plan' => rw [hr] at this; exact this plan'
  | crashed t => rw [hr] at this; exact this

theorem wp_ignore {x : Prog ε σ Unit} {Q : Unit → σ → Prop} (h : wp C x Q (fun _ => Q ()) s) :
    wp C x.ignore Q E s :=
  wp_orElse (h.mono (fun _ _ h => h) (fun _ _ h => wp_pure h) fun _ h => h)

/-- What an operation's result has to meet. -/
def Result (Q : α → σ → Prop) (E : ε → σ → Prop) : Except ε α × σ → Prop
  | (.ok a, s) => Q a s
  | (.error e, s) => E e s

theorem wp_op {o : Op ε σ α} (hok : Result Q E (o.ok s)) (hfail : Result Q E (o.fail s)) (hcrash : C s)
    (htorn : C (o.torn s)) : wp C (Prog.op o) Q E s := by
  have hof : ∀ {r : Except ε α × σ} {plan}, Result Q E r → (Prog.ofExcept r plan).Meets C Q E := by
    rintro ⟨e | a, t⟩ plan h <;> exact h
  intro plan
  rcases plan with _ | ⟨_ | _ | _ | _, plan⟩
  · exact hof hok
  · exact hof hok
  · exact hof hfail
  · exact hcrash
  · exact htorn

theorem wp_read {g : σ → α} {bad : α} (hok : Q (g s) s) (hfail : Q bad s) (hC : C s) :
    wp C (Prog.read g bad) Q E s :=
  wp_op hok hfail hC hC

theorem wp_read_or {g : σ → α} {bad : α} (h : ∀ a, a = g s ∨ a = bad → Q a s) (hC : C s) :
    wp C (Prog.read g bad) Q E s :=
  wp_read (h _ (.inl rfl)) (h _ (.inr rfl)) hC

theorem wp_get {g : σ → α} (hok : Q (g s) s) (hC : C s) : wp C (Prog.get g) Q E s := wp_op hok hok hC hC

theorem wp_write {g : σ → σ} {Q : Unit → σ → Prop} (hok : Q () (g s)) (hfail : E e s) (hC : C s) :
    wp C (Prog.write g e) Q E s :=
  wp_op hok hfail hC hC

theorem wp_note {g : σ → σ} {Q : Unit → σ → Prop} (hok : Q () (g s)) (hC : C s) : wp C (Prog.note g) Q E s :=
  wp_op hok hok hC hC

theorem wp_look {ω : Type} {last : σ → ω} {script : σ → List ω} {see : ω → List ω → σ → σ} {Q : ω → σ → Prop}
    (hlast : Q (last s) s) (hsee : ∀ o rest, script s = o :: rest → Q o (see o rest s)) (hC : C s) :
    wp C (Prog.look last script see) Q E s := by
  refine wp_op ?_ hlast hC hC
  dsimp only
  split
  · exact hlast
  · next o rest hs => exact hsee o rest hs

theorem wp_zoom {τ : Type} {view : σ → τ} {put : τ → σ → σ} {x : Prog ε τ α}
    (h : wp (fun t => C (put t s)) x (fun a t => Q a (put t s)) (fun e t => E e (put t s)) (view s)) :
    wp C (Prog.zoom view put x) Q E s := by
  intro plan
  have := h plan
  unfold Prog.zoom
  cases hr : x (view s) plan with
  | done a t _ => rw [hr] at this; exact this
  | thrown e t _ => rw [hr] at this; exact this
  | crashed t => rw [hr] at this; exact this

end Rules

/-! ### Runs without faults -/

/-- Where every operation succeeds, `x` returns to `Q`. -/
def Clean (x : Prog ε σ α) (Q : α → σ → Prop) (s : σ) : Prop := ∃ a t, x s [] = .done a t [] ∧ Q a t

section Clean

variable {x : Prog ε σ α} {f : α → Prog ε σ β} {Q : α → σ → Prop} {R : β → σ → Prop} {s : σ} {a : α}

theorem clean_pure (h : Q a s) : Clean (pure a : Prog ε σ α) Q s := ⟨a, s, rfl, h⟩

theorem clean_bind (h : Clean x (fun a t => Clean (f a) R t) s) : Clean (x >>= f) R s := by
  obtain ⟨a, t, hx, b, u, hf, hR⟩ := h
  refine ⟨b, u, ?_, hR⟩
  simp only [bind, hx, hf]

theorem clean_op {o : Op ε σ α} {t : σ} (ho : o.ok s = (.ok a, t)) (h : Q a t) : Clean (Prog.op o) Q s := by
  refine ⟨a, t, ?_, h⟩
  show Prog.ofExcept (o.ok s) [] = _
  rw [ho]
  rfl

theorem clean_look {ω : Type} {last : σ → ω} {script : σ → List ω} {see : ω → List ω → σ → σ}
    {Q : ω → σ → Prop}
    (hlast : Q (last s) s) (hsee : ∀ o rest, script s = o :: rest → Q o (see o rest s)) :
    Clean (Prog.look last script see : Prog ε σ ω) Q s := by
  rcases hs : script s with _ | ⟨o, rest⟩
  · exact clean_op (by simp only [hs]) hlast
  · exact clean_op (by simp only [hs]) (hsee o rest hs)

theorem clean_orElse {ε' : Type} {h : ε → Prog ε' σ α} (hx : Clean x Q s) : Clean (x.orElse h) Q s := by
  obtain ⟨a, t, hx, hQ⟩ := hx
  refine ⟨a, t, ?_, hQ⟩
  simp only [Prog.orElse, hx]

theorem clean_read {g : σ → α} {bad : α} (h : Q (g s) s) : Clean (Prog.read g bad : Prog ε σ α) Q s :=
  clean_op rfl h

theorem clean_get {g : σ → α} (h : Q (g s) s) : Clean (Prog.get g : Prog ε σ α) Q s := clean_op rfl h

theorem clean_write {g : σ → σ} {e : ε} {Q : Unit → σ → Prop} (h : Q () (g s)) : Clean (Prog.write g e) Q s :=
  clean_op rfl h

end Clean

/-! ### Runs with only some faults -/

/-- As `Meets`, and what is left of the plan has only faults of `A`. -/
def Outcome.MeetsOn (A : Fault → Prop) (C : σ → Prop) (Q : α → σ → Prop) (E : ε → σ → Prop) :
    Outcome ε σ α → Prop
  | .done a s plan => Q a s ∧ ∀ f ∈ plan, A f
  | .thrown e s plan => E e s ∧ ∀ f ∈ plan, A f
  | .crashed s => C s

/-- `wp` for the plans with only faults of `A`. -/
def wpOn (A : Fault → Prop) (C : σ → Prop) (x : Prog ε σ α) (Q : α → σ → Prop) (E : ε → σ → Prop)
    (s : σ) : Prop :=
  ∀ plan, (∀ f ∈ plan, A f) → (x s plan).MeetsOn A C Q E

section On

variable {A : Fault → Prop} {C C' : σ → Prop} {x : Prog ε σ α} {f : α → Prog ε σ β} {Q Q' : α → σ → Prop}
  {R : β → σ → Prop} {E E' : ε → σ → Prop} {s : σ} {a : α} {e : ε}

theorem wpOn.mono (h : wpOn A C x Q E s) (hQ : ∀ a t, Q a t → Q' a t) (hE : ∀ e t, E e t → E' e t)
    (hC : ∀ t, C t → C' t) : wpOn A C' x Q' E' s := by
  intro plan hplan
  have := h plan hplan
  cases hx : x s plan with
  | done a t _ => rw [hx] at this; exact ⟨hQ a t this.1, this.2⟩
  | thrown e t _ => rw [hx] at this; exact ⟨hE e t this.1, this.2⟩
  | crashed t => rw [hx] at this; exact hC t this

theorem wpOn.world (h : wpOn A C x (fun _ => C) (fun _ => C) s) {plan : List Fault}
    (hplan : ∀ f ∈ plan, A f) :
    C (x s plan).world := by
  have := h plan hplan
  cases hx : x s plan with
  | done a t _ => rw [hx] at this; exact this.1
  | thrown e t _ => rw [hx] at this; exact this.1
  | crashed t => rw [hx] at this; exact this

theorem wpOn_pure (h : Q a s) : wpOn A C (pure a) Q E s := fun _ hplan => ⟨h, hplan⟩

theorem wpOn_throw (h : E e s) : wpOn A C (Prog.throw e : Prog ε σ α) Q E s := fun _ hplan => ⟨h, hplan⟩

theorem wpOn_bind (h : wpOn A C x (fun a t => wpOn A C (f a) R E t) E s) : wpOn A C (x >>= f) R E s := by
  intro plan hplan
  have := h plan hplan
  simp only [bind]
  cases hx : x s plan with
  | done a t plan' => rw [hx] at this; exact this.1 plan' this.2
  | thrown e t _ => rw [hx] at this; exact this
  | crashed t => rw [hx] at this; exact this

theorem wpOn_ignore {x : Prog ε σ Unit} {Q : Unit → σ → Prop} (h : wpOn A C x Q (fun _ => Q ()) s) :
    wpOn A C x.ignore Q E s := by
  intro plan hplan
  have := h plan hplan
  unfold Prog.ignore Prog.orElse
  cases hr : x s plan with
  | done a t _ => rw [hr] at this; exact this
  | thrown e t plan' => rw [hr] at this; exact this
  | crashed t => rw [hr] at this; exact this

/-- An operation that does not fail. -/
theorem wpOn_op {o : Op ε σ α} (hA : ¬ A .fail) (hok : Result Q E (o.ok s)) (hcrash : A .crash → C s)
    (htorn : A .torn → C (o.torn s)) : wpOn A C (Prog.op o) Q E s := by
  have hof : ∀ {r : Except ε α × σ} {plan}, Result Q E r → (∀ f ∈ plan, A f) →
      (Prog.ofExcept r plan).MeetsOn A C Q E := by
    rintro ⟨e | a, t⟩ plan h hplan <;> exact ⟨h, hplan⟩
  intro plan hplan
  rcases plan with _ | ⟨_ | _ | _ | _, plan⟩
  · exact hof hok hplan
  · exact hof hok (List.forall_mem_cons.1 hplan).2
  · exact absurd (List.forall_mem_cons.1 hplan).1 hA
  · exact hcrash (List.forall_mem_cons.1 hplan).1
  · exact htorn (List.forall_mem_cons.1 hplan).1

theorem wpOn_read {g : σ → α} {bad : α} (hA : ¬ A .fail) (hok : Q (g s) s) (hC : ∀ f, A f → C s) :
    wpOn A C (Prog.read g bad) Q E s :=
  wpOn_op hA hok (hC _) (hC _)

theorem wpOn_get {g : σ → α} (hA : ¬ A .fail) (hok : Q (g s) s) (hC : ∀ f, A f → C s) :
    wpOn A C (Prog.get g) Q E s :=
  wpOn_op hA hok (hC _) (hC _)

theorem wpOn_write {g : σ → σ} {Q : Unit → σ → Prop} (hA : ¬ A .fail) (hok : Q () (g s))
    (hC : ∀ f, A f → C s) :
    wpOn A C (Prog.write g e) Q E s :=
  wpOn_op hA hok (hC _) (hC _)

/-- A run without faults ends. -/
theorem wpOn.ends (h : wpOn (fun _ => False) (fun _ => False) x Q E s) :
    (∃ a t, x s [] = .done a t [] ∧ Q a t) ∨ ∃ e t, x s [] = .thrown e t [] ∧ E e t := by
  have hnone : ∀ plan : List Fault, (∀ f ∈ plan, False) → plan = [] := fun plan hplan =>
    List.eq_nil_iff_forall_not_mem.2 hplan
  have := h [] nofun
  cases hr : x s [] with
  | done a t plan =>
    rw [hr] at this
    exact .inl ⟨a, t, by rw [hnone plan this.2], this.1⟩
  | thrown e t plan =>
    rw [hr] at this
    exact .inr ⟨e, t, by rw [hnone plan this.2], this.1⟩
  | crashed t =>
    rw [hr] at this
    exact this.elim

end On

/-! ### What a program leaves alone -/

/-- In whatever way `x` ends, the world is related to the one it started from. -/
def Keeps (R : σ → σ → Prop) (x : Prog ε σ α) : Prop := ∀ s plan, R s (x s plan).world

section Keeps

variable {R : σ → σ → Prop} {x : Prog ε σ α} {f : α → Prog ε σ β} {C : σ → Prop} {Q : α → σ → Prop}
  {E : ε → σ → Prop} {s : σ}

theorem Keeps.wp (hx : Keeps R x) (hQ : ∀ a t, R s t → Q a t) (hE : ∀ e t, R s t → E e t)
    (hC : ∀ t, R s t → C t) : wp C x Q E s := by
  intro plan
  have := hx s plan
  cases hr : x s plan with
  | done a t _ => rw [hr] at this; exact hQ a t this
  | thrown e t _ => rw [hr] at this; exact hE e t this
  | crashed t => rw [hr] at this; exact hC t this

theorem Keeps.pure (hR : ∀ s, R s s) {a : α} : Keeps R (Pure.pure a : Prog ε σ α) := fun s _ => hR s

theorem Keeps.throw (hR : ∀ s, R s s) {e : ε} : Keeps R (Prog.throw e : Prog ε σ α) := fun s _ => hR s

theorem Keeps.bind (hR : ∀ s t u, R s t → R t u → R s u) (hx : Keeps R x) (hf : ∀ a, Keeps R (f a)) :
    Keeps R (x >>= f) := by
  intro s plan
  have := hx s plan
  simp only [Bind.bind]
  cases hr : x s plan with
  | done a t plan' => rw [hr] at this; exact hR _ _ _ this (hf a t plan')
  | thrown e t _ => rw [hr] at this; exact this
  | crashed t => rw [hr] at this; exact this

theorem Keeps.orElse {ε' : Type} {h : ε → Prog ε' σ α} (hR : ∀ s t u, R s t → R t u → R s u) (hx : Keeps R x)
    (hh : ∀ e, Keeps R (h e)) : Keeps R (x.orElse h) := by
  intro s plan
  have := hx s plan
  unfold Prog.orElse
  cases hr : x s plan with
  | done a t _ => rw [hr] at this; exact this
  | thrown e t plan' => rw [hr] at this; exact hR _ _ _ this (hh e t plan')
  | crashed t => rw [hr] at this; exact this

theorem Keeps.op {o : Op ε σ α} (hok : ∀ s, R s (o.ok s).2) (hfail : ∀ s, R s (o.fail s).2) (hs : ∀ s, R s s)
    (htorn : ∀ s, R s (o.torn s)) : Keeps R (Prog.op o) := by
  have hof : ∀ {s : σ} {r : Except ε α × σ} {plan}, R s r.2 → R s (Prog.ofExcept r plan).world := by
    rintro s ⟨e | a, t⟩ plan h <;> exact h
  intro s plan
  rcases plan with _ | ⟨_ | _ | _ | _, plan⟩
  · exact hof (hok s)
  · exact hof (hok s)
  · exact hof (hfail s)
  · exact hs s
  · exact htorn s

theorem Keeps.read (hR : ∀ s, R s s) {g : σ → α} {bad : α} : Keeps R (Prog.read g bad : Prog ε σ α) :=
  .op hR hR hR hR

theorem Keeps.get (hR : ∀ s, R s s) {g : σ → α} : Keeps R (Prog.get g : Prog ε σ α) := .op hR hR hR hR

theorem Keeps.write (hR : ∀ s, R s s) {g : σ → σ} {e : ε} (hg : ∀ s, R s (g s)) : Keeps R (Prog.write g e) :=
  .op hg hR hR hR

theorem Keeps.look {ω : Type} {last : σ → ω} {script : σ → List ω} {see : ω → List ω → σ → σ}
    (hR : ∀ s, R s s)
    (hsee : ∀ o rest s, R s (see o rest s)) : Keeps R (Prog.look last script see : Prog ε σ ω) := by
  refine .op (fun s => ?_) hR hR hR
  dsimp only
  split
  · exact hR s
  · exact hsee _ _ s

/-- A program on a part of the world leaves the rest alone. -/
theorem Keeps.zoom {τ : Type} {view : σ → τ} {put : τ → σ → σ} {x : Prog ε τ α}
    (hput : ∀ s t, R s (put t s)) :
    Keeps R (Prog.zoom view put x) := by
  intro s plan
  unfold Prog.zoom
  cases x (view s) plan <;> exact hput s _

end Keeps

end Crash
