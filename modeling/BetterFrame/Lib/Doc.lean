import BetterFrame.Lib.Json

/-!
# JSON documents with holes

A `Doc α` is a JSON value in which some places are left open, each with a label in `α` that says what
belongs there. `fill` puts a JSON value into every hole, `map` relabels the holes. Everything else that is
said of a document is an `Alg`: what it gives for a value without parts, and how it puts the results for the
parts together. `run_arr` and `run_obj` are its equations, and `Doc.parts` is the induction.
-/

inductive Doc (α : Type) where
  | null
  | bool (b : Bool)
  | num (n : Json.Num)
  | str (s : String)
  | arr (xs : List (Doc α))
  | obj (ms : List (String × Doc α))
  | hole (a : α)

namespace Doc

/-- `arr` and `obj` get every part together with the result for it. -/
structure Alg (α β : Type) where
  leaf : Doc α → β
  arr : List (Doc α × β) → β
  obj : List (String × Doc α × β) → β

variable {α β γ : Type}

mutual

/-- The fold of a document. -/
def run (a : Alg α β) : Doc α → β
  | .null => a.leaf .null
  | .bool b => a.leaf (.bool b)
  | .num n => a.leaf (.num n)
  | .str s => a.leaf (.str s)
  | .arr xs => a.arr (runItems a xs)
  | .obj ms => a.obj (runMembers a ms)
  | .hole x => a.leaf (.hole x)

def runItems (a : Alg α β) : List (Doc α) → List (Doc α × β)
  | [] => []
  | x :: xs => (x, run a x) :: runItems a xs

def runMembers (a : Alg α β) : List (String × Doc α) → List (String × Doc α × β)
  | [] => []
  | (k, v) :: ms => (k, v, run a v) :: runMembers a ms

end

theorem runItems_eq (a : Alg α β) (xs : List (Doc α)) : runItems a xs = xs.map fun x => (x, x.run a) := by
  induction xs with
  | nil => rfl
  | cons x xs ih => rw [runItems, ih, List.map_cons]

theorem runMembers_eq (a : Alg α β) (ms : List (String × Doc α)) :
    runMembers a ms = ms.map fun m => (m.1, m.2, m.2.run a) := by
  induction ms with
  | nil => rfl
  | cons m ms ih => rw [runMembers, ih, List.map_cons]

theorem run_arr (a : Alg α β) {xs : List (Doc α)} :
    (arr xs).run a = a.arr (xs.map fun x => (x, x.run a)) := by
  rw [run, runItems_eq]

theorem run_obj (a : Alg α β) {ms : List (String × Doc α)} :
    (obj ms).run a = a.obj (ms.map fun m => (m.1, m.2, m.2.run a)) := by
  rw [run, runMembers_eq]

mutual

theorem parts {P : Doc α → Prop} (leaf : ∀ d, (∀ xs, d ≠ arr xs) → (∀ ms, d ≠ obj ms) → P d)
    (harr : ∀ xs, (∀ x ∈ xs, P x) → P (arr xs)) (hobj : ∀ ms, (∀ m ∈ ms, P m.2) → P (obj ms)) : ∀ d, P d
  | .null => leaf _ (by simp) (by simp)
  | .bool _ => leaf _ (by simp) (by simp)
  | .num _ => leaf _ (by simp) (by simp)
  | .str _ => leaf _ (by simp) (by simp)
  | .arr xs => harr xs (partItems leaf harr hobj xs)
  | .obj ms => hobj ms (partMembers leaf harr hobj ms)
  | .hole _ => leaf _ (by simp) (by simp)

theorem partItems {P : Doc α → Prop} (leaf : ∀ d, (∀ xs, d ≠ arr xs) → (∀ ms, d ≠ obj ms) → P d)
    (harr : ∀ xs, (∀ x ∈ xs, P x) → P (arr xs)) (hobj : ∀ ms, (∀ m ∈ ms, P m.2) → P (obj ms)) :
    ∀ xs : List (Doc α), ∀ x ∈ xs, P x
  | [] => fun _ h => nomatch h
  | y :: ys => List.forall_mem_cons.2 ⟨parts leaf harr hobj y, partItems leaf harr hobj ys⟩

theorem partMembers {P : Doc α → Prop} (leaf : ∀ d, (∀ xs, d ≠ arr xs) → (∀ ms, d ≠ obj ms) → P d)
    (harr : ∀ xs, (∀ x ∈ xs, P x) → P (arr xs)) (hobj : ∀ ms, (∀ m ∈ ms, P m.2) → P (obj ms)) :
    ∀ ms : List (String × Doc α), ∀ m ∈ ms, P m.2
  | [] => fun _ h => nomatch h
  | (_, v) :: ms => List.forall_mem_cons.2 ⟨parts leaf harr hobj v, partMembers leaf harr hobj ms⟩

end

/-! ### Filling and relabelling -/

/-- The document with a JSON value in every hole. -/
def fill (f : α → Json) : Doc α → Json := run
  { leaf := fun
      | null => .null
      | bool b => .bool b
      | num n => .num n
      | str s => .str s
      | hole a => f a
      | _ => .null
    arr := fun xs => .arr (xs.map Prod.snd)
    obj := fun ms => .obj (ms.map fun m => (m.1, m.2.2)) }

/-- The document with its marks replaced. -/
def map (f : α → β) : Doc α → Doc β := run
  { leaf := fun
      | null => null
      | bool b => bool b
      | num n => num n
      | str s => str s
      | hole a => hole (f a)
      | _ => null
    arr := fun xs => arr (xs.map Prod.snd)
    obj := fun ms => obj (ms.map fun m => (m.1, m.2.2)) }

/-- The labels of the holes, from left to right. -/
def holes : Doc α → List α := run
  { leaf := fun
      | hole a => [a]
      | _ => []
    arr := fun xs => xs.flatMap Prod.snd
    obj := fun ms => ms.flatMap fun m => m.2.2 }

/-- Whether an object in it, at any depth, has a member `k`. -/
def names (k : String) : Doc α → Bool := run
  { leaf := fun _ => false
    arr := fun xs => xs.any Prod.snd
    obj := fun ms => ms.any fun m => m.1 = k || m.2.2 }

mutual

/-- A JSON value as a document without holes. -/
def ofJson : Json → Doc α
  | .null => null
  | .bool b => bool b
  | .num n => num n
  | .str s => str s
  | .arr xs => arr (ofItems xs)
  | .obj ms => obj (ofMembers ms)

def ofItems : List Json → List (Doc α)
  | [] => []
  | x :: xs => ofJson x :: ofItems xs

def ofMembers : List (String × Json) → List (String × Doc α)
  | [] => []
  | (k, v) :: ms => (k, ofJson v) :: ofMembers ms

end

theorem any_congr_mem {l : List α} {p q : α → Bool} (h : ∀ a ∈ l, p a = q a) : l.any p = l.any q := by
  rw [Bool.eq_iff_iff, List.any_eq_true, List.any_eq_true]
  exact exists_congr fun a => and_congr_right fun ha => by rw [h a ha]

/-- An object literal, from which `JSON.stringify` leaves out the members that are undefined. -/
def object (ms : List (String × Option (Doc α))) : List (String × Doc α) :=
  ms.filterMap fun m => m.2.map fun v => (m.1, v)

/-- Sets the member `k` of an object under construction. -/
def assign (ms : List (String × Doc α)) (k : String) (v : Doc α) : List (String × Doc α) :=
  if ms.any fun m => m.1 = k then ms.map fun m => if m.1 = k then (k, v) else m else ms ++ [(k, v)]

section
variable {f : α → Json} {g : α → β} {k : String} {xs : List (Doc α)} {ms : List (String × Doc α)}

@[simp] theorem fill_arr : (arr xs).fill f = .arr (xs.map (fill f)) := by simp [fill, run_arr]

@[simp] theorem fill_obj : (obj ms).fill f = .obj (ms.map fun m => (m.1, m.2.fill f)) := by
  simp [fill, run_obj]

@[simp] theorem fill_str {s : String} : (str s : Doc α).fill f = .str s := rfl

@[simp] theorem fill_hole {a : α} : (hole a).fill f = f a := rfl

@[simp] theorem map_arr : (arr xs).map g = arr (xs.map (map g)) := by simp [map, run_arr]

@[simp] theorem map_obj : (obj ms).map g = obj (ms.map fun m => (m.1, m.2.map g)) := by simp [map, run_obj]

@[simp] theorem map_str {s : String} : (str s : Doc α).map g = str s := rfl

@[simp] theorem map_hole {a : α} : (hole a).map g = hole (g a) := rfl

@[simp] theorem holes_arr : (arr xs).holes = xs.flatMap holes := by simp [holes, run_arr, List.flatMap_map]

@[simp] theorem holes_obj : (obj ms).holes = ms.flatMap fun m => m.2.holes := by
  simp [holes, run_obj, List.flatMap_map]

@[simp] theorem holes_hole {a : α} : (hole a).holes = [a] := rfl

@[simp] theorem names_arr : (arr xs).names k = xs.any (names k) := by simp [names, run_arr, Function.comp_def]

@[simp] theorem names_obj : (obj ms).names k = ms.any fun m => m.1 = k || m.2.names k := by
  simp [names, run_obj, Function.comp_def]

@[simp] theorem ofItems_eq {js : List Json} : (ofItems js : List (Doc α)) = js.map ofJson := by
  induction js with
  | nil => rfl
  | cons j js ih => rw [ofItems, ih, List.map_cons]

@[simp] theorem ofMembers_eq {js : List (String × Json)} :
    (ofMembers js : List (String × Doc α)) = js.map fun m => (m.1, ofJson m.2) := by
  induction js with
  | nil => rfl
  | cons j js ih => rw [ofMembers, ih, List.map_cons]

theorem names_map (d : Doc α) : (d.map g).names k = d.names k := by
  induction d using Doc.parts with
  | leaf d harr hobj =>
    cases d with
    | arr xs => exact absurd rfl (harr xs)
    | obj ms => exact absurd rfl (hobj ms)
    | _ => rfl
  | harr xs ih =>
    rw [map_arr, names_arr, names_arr, List.any_map]
    exact any_congr_mem ih
  | hobj ms ih =>
    rw [map_obj, names_obj, names_obj, List.any_map]
    refine any_congr_mem fun m hm => ?_
    show (decide (m.1 = k) || (m.2.map g).names k) = _
    rw [ih m hm]

end

end Doc
