import Mathlib.Data.List.Forall2
import Mathlib.Data.List.Sort

/-!
# The layout grid

What the visual editor of `routes-admin.ts` does to the cells of a layout when one is inserted or
resized. `insert_disjoint` says when an insertion leaves the cells disjoint, `resize_disjoint` that a
resizing does where the cells that are pushed lie in bands.
-/

namespace LayoutGrid

/-- The axis along which cells are pushed. -/
inductive Axis where
  | row
  | col
deriving DecidableEq

/-- A cell, with its place and its spans. -/
structure Cell where
  id : String
  row : Int
  col : Int
  row_span : Int
  col_span : Int
deriving DecidableEq

def rangesOverlap (aStart aEnd bStart bEnd : Int) : Bool := aStart < bEnd && bStart < aEnd

def cellsOverlap (a b : Cell) : Bool :=
  a.col < b.col + b.col_span && b.col < a.col + a.col_span && a.row < b.row + b.row_span &&
    b.row < a.row + a.row_span

/-- Makes room for a new line: what lies at or after it, and across it, moves by one. -/
def shiftCellsForInsertion (axis : Axis) (fromIndex crossStart crossEnd : Int) (cells : List Cell) :
    List Cell :=
  cells.map fun c =>
    match axis with
    | .col =>
      if c.col ≥ fromIndex && rangesOverlap c.row (c.row + c.row_span) crossStart crossEnd then
        { c with col := c.col + 1 } else c
    | .row =>
      if c.row ≥ fromIndex && rangesOverlap c.col (c.col + c.col_span) crossStart crossEnd then
        { c with row := c.row + 1 } else c

/-- The side on which a cell grows. -/
inductive Direction where
  | right
  | bottom
  | left
  | above
deriving DecidableEq

/-- `POST /admin/layouts/:id/cells` with a reference cell. -/
def insertCell (cells : List Cell) (afterId : String) (direction : Direction) (newId : String) : List Cell :=
  match cells.find? fun c => c.id = afterId with
  | none => cells
  | some ref =>
    match direction with
    | .right =>
      let row := ref.row
      let col := ref.col + ref.col_span
      shiftCellsForInsertion .col col row (row + 1) cells ++ [⟨newId, row, col, 1, 1⟩]
    | .bottom =>
      let row := ref.row + ref.row_span
      let col := ref.col
      shiftCellsForInsertion .row row col (col + 1) cells ++ [⟨newId, row, col, 1, 1⟩]
    | .left =>
      let row := ref.row
      let col := max 0 (ref.col - 1)
      shiftCellsForInsertion .col col row (row + 1) cells ++ [⟨newId, row, col, 1, 1⟩]
    | .above =>
      let col := ref.col
      let row := max 0 (ref.row - 1)
      shiftCellsForInsertion .row row col (col + 1) cells ++ [⟨newId, row, col, 1, 1⟩]

/-! ### Along an axis -/

namespace Axis

def other : Axis → Axis
  | .row => .col
  | .col => .row

/-- Where a cell starts. -/
def start : Axis → Cell → Int
  | .row, c => c.row
  | .col, c => c.col

def span : Axis → Cell → Int
  | .row, c => c.row_span
  | .col, c => c.col_span

/-- Where the cell after it could start. -/
def stop (axis : Axis) (c : Cell) : Int := axis.start c + axis.span c

def move : Axis → Int → Cell → Cell
  | .row, n, c => { c with row := n }
  | .col, n, c => { c with col := n }

/-- A cell of one by one. -/
def unit : Axis → String → Int → Int → Cell
  | .row, id, along, across => ⟨id, along, across, 1, 1⟩
  | .col, id, along, across => ⟨id, across, along, 1, 1⟩

/-- Two cells have a row, or a column, in common. -/
def Meets (axis : Axis) (a b : Cell) : Prop := axis.start a < axis.stop b ∧ axis.start b < axis.stop a

instance (axis : Axis) (a b : Cell) : Decidable (axis.Meets a b) := inferInstanceAs (Decidable (_ ∧ _))

variable {axis : Axis} {a b c : Cell} {n : Int}

@[simp] theorem start_move : axis.start (axis.move n c) = n := by cases axis <;> rfl
@[simp] theorem span_move : axis.span (axis.move n c) = axis.span c := by cases axis <;> rfl
@[simp] theorem stop_move : axis.stop (axis.move n c) = n + axis.span c := by cases axis <;> rfl
@[simp] theorem other_start_move : axis.other.start (axis.move n c) = axis.other.start c := by
  cases axis <;> rfl
@[simp] theorem other_span_move : axis.other.span (axis.move n c) = axis.other.span c := by cases axis <;> rfl
@[simp] theorem other_stop_move : axis.other.stop (axis.move n c) = axis.other.stop c := by cases axis <;> rfl
@[simp] theorem id_move : (axis.move n c).id = c.id := by cases axis <;> rfl

@[simp] theorem meets_other_move_left : axis.other.Meets (axis.move n a) b ↔ axis.other.Meets a b := by
  simp [Meets]
@[simp] theorem meets_other_move_right : axis.other.Meets a (axis.move n b) ↔
    axis.other.Meets a b := by simp [Meets]

theorem Meets.symm (h : axis.Meets a b) : axis.Meets b a := And.symm h

end Axis

theorem cellsOverlap_iff (axis : Axis) {a b : Cell} : cellsOverlap a b = true ↔ axis.Meets a b ∧
    axis.other.Meets a b := by
  cases axis <;> simp [cellsOverlap, Axis.Meets, Axis.start, Axis.stop, Axis.span, Axis.other] <;> tauto

theorem cellsOverlap_comm {a b : Cell} : cellsOverlap a b = cellsOverlap b a := by
  rw [Bool.eq_iff_iff, cellsOverlap_iff .row, cellsOverlap_iff .row]
  exact ⟨fun h => ⟨h.1.symm, h.2.symm⟩, fun h => ⟨h.1.symm, h.2.symm⟩⟩

/-- The cells of a layout as they should be. -/
structure Tidy (cells : List Cell) : Prop where
  disjoint : cells.Pairwise fun a b => cellsOverlap a b = false
  placed : ∀ c ∈ cells, ∀ axis : Axis, 0 ≤ axis.start c
  spans : ∀ c ∈ cells, ∀ axis : Axis, 0 < axis.span c

theorem tidy_iff {cells : List Cell} :
    Tidy cells ↔ cells.Pairwise (fun a b => cellsOverlap a b = false) ∧
      ∀ c ∈ cells, (0 ≤ c.row ∧ 0 ≤ c.col) ∧ 0 < c.row_span ∧ 0 < c.col_span := by
  constructor
  · exact fun h => ⟨h.disjoint, fun c hc =>
      ⟨⟨h.placed c hc .row, h.placed c hc .col⟩, h.spans c hc .row, h.spans c hc .col⟩⟩
  · rintro ⟨hdisjoint, h⟩
    refine ⟨hdisjoint, fun c hc axis => ?_, fun c hc axis => ?_⟩
    · cases axis
      · exact (h c hc).1.1
      · exact (h c hc).1.2
    · cases axis
      · exact (h c hc).2.1
      · exact (h c hc).2.2

instance (cells : List Cell) : Decidable (Tidy cells) := decidable_of_iff _ tidy_iff.symm

/-! ### Inserting a cell -/

namespace Direction

/-- The axis along which a cell is inserted. -/
def axis : Direction → Axis
  | .right | .left => .col
  | .bottom | .above => .row

/-- The line before which the new cell goes. -/
def line (ref : Cell) : Direction → Int
  | .right => ref.col + ref.col_span
  | .bottom => ref.row + ref.row_span
  | .left => max 0 (ref.col - 1)
  | .above => max 0 (ref.row - 1)

/-- The row, or column, in which the new cell goes. -/
def across (ref : Cell) (direction : Direction) : Int := direction.axis.other.start ref

end Direction

/-- The cell reaches the row, or column, in which the new cell goes. -/
def Crosses (axis : Axis) (across : Int) (c : Cell) : Prop := axis.other.start c ≤ across ∧
  across < axis.other.stop c

/-- The insertion moves the cell. -/
def Shifts (axis : Axis) (line across : Int) (c : Cell) : Prop := line ≤ axis.start c ∧ Crosses axis across c

/-- No cell lies across the line where the new cell goes, and no cell that is shifted touches one
that is not behind it. -/
structure Free (cells : List Cell) (axis : Axis) (line across : Int) : Prop where
  clear : ∀ c ∈ cells, Crosses axis across c → ¬ (axis.start c < line ∧ line < axis.stop c)
  behind : ∀ a ∈ cells, ∀ b ∈ cells, Shifts axis line across a → ¬ Shifts axis line across b →
    axis.other.Meets a b → axis.start b ≠ axis.stop a

/-- The cells are as they should be, with the new one last and each other one where it was or one further. -/
structure Inserted (cells after : List Cell) (axis : Axis) (new : Cell) : Prop where
  tidy : Tidy after
  moved : ∃ moved, after = moved ++ [new] ∧
    List.Forall₂ (fun c c' => c' = c ∨ c' = axis.move (axis.start c + 1) c) cells moved

section Insertion

variable {cells : List Cell} {axis : Axis} {line across : Int} {a b c ref : Cell}
  {afterId newId : String} {direction : Direction}

instance : Decidable (Crosses axis across c) := inferInstanceAs (Decidable (_ ∧ _))

instance : Decidable (Shifts axis line across c) := inferInstanceAs (Decidable (_ ∧ _))

/-- Where a cell is after the shift. -/
def shifted (axis : Axis) (line across : Int) (c : Cell) : Cell :=
  if Shifts axis line across c then axis.move (axis.start c + 1) c else c

theorem shift_eq : shiftCellsForInsertion axis line across (across + 1) cells = cells.map
    (shifted axis line across) := by
  unfold shiftCellsForInsertion
  refine List.map_congr_left fun c _ => ?_
  cases axis
  · refine if_congr ?_ rfl rfl
    simp only [rangesOverlap, Shifts, Crosses, Axis.start, Axis.stop, Axis.span, Axis.other,
      Bool.and_eq_true, decide_eq_true_eq]
    omega
  · refine if_congr ?_ rfl rfl
    simp only [rangesOverlap, Shifts, Crosses, Axis.start, Axis.stop, Axis.span, Axis.other,
      Bool.and_eq_true, decide_eq_true_eq]
    omega

theorem insertCell_eq (hfind : cells.find? (fun c => c.id = afterId) = some ref) :
    insertCell cells afterId direction newId =
      cells.map (shifted direction.axis (direction.line ref) (direction.across ref))
        ++ [direction.axis.unit newId (direction.line ref) (direction.across ref)] := by
  unfold insertCell
  rw [hfind]
  cases direction <;> exact congrArg (· ++ _) shift_eq

theorem start_shifted :
    axis.start (shifted axis line across c) = if Shifts axis line across c then axis.start c + 1
    else axis.start c := by
  unfold shifted
  split <;> simp

@[simp] theorem span_shifted : axis.span (shifted axis line across c) = axis.span c := by
  unfold shifted
  split <;> simp

@[simp] theorem other_start_shifted : axis.other.start (shifted axis line across c) = axis.other.start c := by
  unfold shifted
  split <;> simp

@[simp] theorem other_span_shifted : axis.other.span (shifted axis line across c) = axis.other.span c := by
  unfold shifted
  split <;> simp

theorem other_meets_shifted :
    axis.other.Meets (shifted axis line across a) (shifted axis line across b) ↔ axis.other.Meets a b := by
  simp [Axis.Meets, Axis.stop]

theorem overlap_eq_false (axis : Axis) : cellsOverlap a b = false ↔
    (axis.other.Meets a b → ¬ axis.Meets a b) := by
  rw [← Bool.not_eq_true, cellsOverlap_iff axis]
  tauto

/-- A cell that is shifted and one that is not, side by side. -/
def Touches (axis : Axis) (line across : Int) (a b : Cell) : Prop :=
  Shifts axis line across a ∧ ¬ Shifts axis line across b ∧ axis.other.Meets a b ∧ axis.start b = axis.stop a

/-- Two disjoint cells stay so unless the one is shifted onto the other. -/
theorem shifted_disjoint (ha : 0 < axis.span a) (hb : 0 < axis.span b)
    (hdisjoint : cellsOverlap a b = false) :
    cellsOverlap (shifted axis line across a) (shifted axis line across b) = false ↔
      ¬ Touches axis line across a b ∧ ¬ Touches axis line across b a := by
  rw [overlap_eq_false axis] at hdisjoint ⊢
  rw [other_meets_shifted]
  have hsymm : axis.other.Meets b a ↔ axis.other.Meets a b := ⟨Axis.Meets.symm, Axis.Meets.symm⟩
  by_cases hmeets : axis.other.Meets a b
  · have h := hdisjoint hmeets
    simp only [Axis.Meets, Axis.stop] at h
    simp only [Touches, hsymm, hmeets, true_and, forall_const]
    simp only [Axis.Meets, Axis.stop, start_shifted, span_shifted]
    by_cases hsa : Shifts axis line across a <;> by_cases hsb : Shifts axis line across b <;>
      simp only [hsa, hsb, if_true, if_false, not_true, not_false_eq_true, true_and, false_and,
        and_true, iff_true] <;> omega
  · simp [Touches, hsymm, hmeets]

theorem pairwise_shifted (htidy : Tidy cells) :
    (cells.map (shifted axis line across)).Pairwise (fun a b => cellsOverlap a b = false) ↔
      ∀ a ∈ cells, ∀ b ∈ cells, ¬ Touches axis line across a b := by
  rw [List.pairwise_map]
  constructor
  · intro h a ha b hb
    have hboth : cells.Pairwise fun a b => ¬ Touches axis line across a b ∧ ¬ Touches axis line across b a :=
      (List.Pairwise.and_mem.mp (htidy.disjoint.and h)).imp fun hab =>
        (shifted_disjoint (htidy.spans _ hab.1 axis) (htidy.spans _ hab.2.1 axis) hab.2.2.1).mp hab.2.2.2
    refine (List.Pairwise.forall_of_forall_of_flip (fun c _ => ?_) hboth (hboth.imp And.symm) ha hb).1
    exact ⟨fun ht => ht.2.1 ht.1, fun ht => ht.2.1 ht.1⟩
  · intro h
    exact (List.Pairwise.and_mem.mp htidy.disjoint).imp fun hab =>
      (shifted_disjoint (htidy.spans _ hab.1 axis) (htidy.spans _ hab.2.1 axis) hab.2.2).mpr
        ⟨h _ hab.1 _ hab.2.1, h _ hab.2.1 _ hab.1⟩

/-- The new cell lies on a cell exactly when that cell lies across the line. -/
theorem unit_disjoint (hspan : 0 < axis.span c) :
    cellsOverlap (shifted axis line across c) (axis.unit newId line across) = false ↔
      (Crosses axis across c → ¬ (axis.start c < line ∧ line < axis.stop c)) := by
  have hunit : axis.start (axis.unit newId line across) = line ∧ axis.span (axis.unit newId line across) = 1 ∧
      axis.other.start (axis.unit newId line across) = across ∧
          axis.other.span (axis.unit newId line across) = 1 := by
    cases axis <;> simp [Axis.unit, Axis.start, Axis.span, Axis.other]
  obtain ⟨h₁, h₂, h₃, h₄⟩ := hunit
  rw [overlap_eq_false axis]
  simp only [Axis.Meets, Axis.stop, h₁, h₂, h₃, h₄, other_start_shifted, other_span_shifted,
    start_shifted, span_shifted]
  by_cases hshifts : Shifts axis line across c
  · simp only [hshifts, if_true]
    obtain ⟨hline, hcrosses⟩ := hshifts
    simp only [hcrosses, forall_const]
    omega
  · simp only [hshifts, if_false]
    simp only [Shifts, Crosses, Axis.stop] at hshifts ⊢
    omega

theorem shifted_cases (axis : Axis) (line across : Int) (c : Cell) :
    shifted axis line across c = c ∨ shifted axis line across c = axis.move (axis.start c + 1) c := by
  unfold shifted
  split
  · exact Or.inr rfl
  · exact Or.inl rfl

theorem start_le_shifted (c : Cell) (ax : Axis) : ax.start c ≤ ax.start (shifted axis line across c) := by
  rcases shifted_cases axis line across c with h | h
  · exact Int.le_of_eq (congrArg ax.start h.symm)
  · rw [h]
    cases axis <;> cases ax <;> simp only [Axis.start, Axis.move] <;> omega

theorem spans_shifted (c : Cell) (ax : Axis) : ax.span (shifted axis line across c) = ax.span c := by
  rcases shifted_cases axis line across c with h | h
  · rw [h]
  · rw [h]
    cases axis <;> cases ax <;> rfl

theorem line_nonneg (htidy : Tidy cells) (href : ref ∈ cells) : 0 ≤ direction.line ref := by
  have hrow : 0 ≤ ref.row := htidy.placed ref href .row
  have hcol : 0 ≤ ref.col := htidy.placed ref href .col
  have hrows : 0 < ref.row_span := htidy.spans ref href .row
  have hcols : 0 < ref.col_span := htidy.spans ref href .col
  cases direction <;> simp only [Direction.line] <;> omega

/-- An insertion leaves the cells disjoint exactly when no cell lies across the line where the new
one goes and none is shifted onto a cell that stays. -/
theorem insert_disjoint (htidy : Tidy cells) (hfind : cells.find? (fun c => c.id = afterId) = some ref) :
    Inserted cells (insertCell cells afterId direction newId) direction.axis
        (direction.axis.unit newId (direction.line ref) (direction.across ref)) ↔
      Free cells direction.axis (direction.line ref) (direction.across ref) := by
  rw [insertCell_eq hfind]
  have hline := @line_nonneg _ _ direction htidy (List.mem_of_find?_eq_some hfind)
  have hacross : 0 ≤ direction.across ref := htidy.placed ref (List.mem_of_find?_eq_some hfind) _
  revert hline hacross
  generalize direction.axis = axis, direction.line ref = line, direction.across ref = across
  intro hline hacross
  constructor
  · intro h
    obtain ⟨hmoved, -, hnew⟩ := List.pairwise_append.mp h.tidy.disjoint
    constructor
    · intro c hc
      exact (unit_disjoint (htidy.spans c hc axis)).mp
        (hnew _ (List.mem_map_of_mem hc) _ (List.mem_singleton_self _))
    · exact fun a ha b hb hsa hsb hmeets htouch =>
        (pairwise_shifted htidy).mp hmoved a ha b hb ⟨hsa, hsb, hmeets, htouch⟩
  · intro h
    refine ⟨⟨List.pairwise_append.mpr ⟨?_, List.pairwise_singleton .., ?_⟩, ?_, ?_⟩, _, rfl, ?_⟩
    · exact (pairwise_shifted htidy).mpr fun a ha b hb ht => h.behind a ha b hb ht.1 ht.2.1 ht.2.2.1 ht.2.2.2
    · intro a ha b hb
      obtain ⟨c, hc, rfl⟩ := List.mem_map.mp ha
      rw [List.mem_singleton.mp hb]
      exact (unit_disjoint (htidy.spans c hc axis)).mpr (h.clear c hc)
    · intro c hc ax
      rcases List.mem_append.mp hc with hc | hc
      · obtain ⟨d, hd, rfl⟩ := List.mem_map.mp hc
        exact Int.le_trans (htidy.placed d hd ax) (start_le_shifted d ax)
      · rw [List.mem_singleton.mp hc]
        cases axis <;> cases ax <;> simp only [Axis.unit, Axis.start] <;> assumption
    · intro c hc ax
      rcases List.mem_append.mp hc with hc | hc
      · obtain ⟨d, hd, rfl⟩ := List.mem_map.mp hc
        exact lt_of_lt_of_eq (htidy.spans d hd ax) (spans_shifted d ax).symm
      · rw [List.mem_singleton.mp hc]
        cases axis <;> cases ax <;> exact Int.one_pos
    · rw [List.forall₂_map_right_iff, List.forall₂_same]
      exact fun c _ => shifted_cases axis line across c

theorem insert_disjoint_row :
    Inserted [⟨"ref", 0, 0, 1, 1⟩, ⟨"next", 0, 1, 1, 1⟩]
      (insertCell [⟨"ref", 0, 0, 1, 1⟩, ⟨"next", 0, 1, 1, 1⟩] "ref" .right "new") .col ⟨"new", 0, 1, 1, 1⟩ :=
  (@insert_disjoint _ ⟨"ref", 0, 0, 1, 1⟩ _ _ .right (by decide) rfl).mpr ⟨by decide, by decide⟩

/-- A tall cell to the right of the reference cell is shifted onto the cell behind it, which stays. -/
def tallCells : List Cell := [⟨"ref", 0, 0, 1, 1⟩, ⟨"tall", 0, 1, 2, 1⟩, ⟨"behind", 1, 2, 1, 1⟩]

theorem tallCells_overlap : Tidy tallCells ∧ ¬ Tidy (insertCell tallCells "ref" .right "new") := by decide

end Insertion

/-! ### Resizing a cell -/

/-- `if (sorted[i]!.id === sorted[j]!.id) continue; if (!cellsOverlap(sorted[i]!, sorted[j]!)) continue` -/
def pushes (a b : Cell) : Bool := a.id ≠ b.id && cellsOverlap a b

/-- Where the cell `a` pushes the cell `b`. -/
def pushBy (axis : Axis) (a b : Cell) : Cell := if pushes a b then axis.move (axis.stop a) b else b

/-- The double loop over the sorted cells, and whether it has pushed one. -/
def cascade (axis : Axis) : List Cell → List Cell × Bool
  | [] => ([], false)
  | a :: rest =>
    let (after, cascaded) := cascade axis (rest.map (pushBy axis a))
    (a :: after, rest.any (pushes a) || cascaded)
termination_by cells => cells.length

/-- The order in which cells are pushed. -/
def comesBefore (axis : Axis) (a b : Cell) : Prop :=
  axis.start a < axis.start b ∨ axis.start a = axis.start b ∧ axis.other.start a ≤ axis.other.start b

instance (axis : Axis) : DecidableRel (comesBefore axis) := fun _ _ => inferInstanceAs (Decidable (_ ∨ _))

/-- The cells after the push by the anchor, in the order of the cascade. -/
def toCascade (axis : Axis) (anchor : Cell) (positions : List Cell) : List Cell :=
  (positions.map (pushBy axis anchor)).insertionSort (comesBefore axis)

/-- The cascade, for at most this many rounds. -/
def resolveLoop (axis : Axis) (anchorId : String) : Nat → List Cell → List Cell
  | 0, positions => positions
  | n + 1, positions =>
    match positions.find? fun c => c.id = anchorId with
    | none => positions
    | some anchor =>
      if positions.any (pushes anchor) then
        let (sorted, cascaded) := cascade axis (toCascade axis anchor positions)
        let positions := positions.map fun c => (sorted.find? fun d => d.id = c.id).getD c
        if cascaded then resolveLoop axis anchorId n positions else positions
      else positions

/-- `resolveOverlaps`, on the cells that it has read. -/
def resolveOverlaps (all : List Cell) (anchorId : String) (pushAxis : Axis) : List Cell :=
  resolveLoop pushAxis anchorId (all.length * all.length) all

/-- The ways to change a cell's size. -/
inductive Resize where
  | expand (direction : Direction)
  | dim (axis : Axis) (delta : Int)
  | spans (row_span col_span : Option Int)
deriving DecidableEq

/-- What is written for the cell before `resolveOverlaps`, and the axis along which that one pushes. -/
def Resize.update (cell : Cell) : Resize → Option (Cell × Axis)
  | .expand .right => some ({ cell with col_span := cell.col_span + 1 }, .col)
  | .expand .bottom => some ({ cell with row_span := cell.row_span + 1 }, .row)
  | .expand .left => some ({ cell with col := max 0 (cell.col - 1), col_span := cell.col_span + 1 }, .col)
  | .expand .above => some ({ cell with row := max 0 (cell.row - 1), row_span := cell.row_span + 1 }, .row)
  | .dim .row delta =>
    let next := max 1 (cell.row_span + delta)
    if delta ≠ 0 ∧ next ≠ cell.row_span then some ({ cell with row_span := next }, .row) else none
  | .dim .col delta =>
    let next := max 1 (cell.col_span + delta)
    if delta ≠ 0 ∧ next ≠ cell.col_span then some ({ cell with col_span := next }, .col) else none
  | .spans none none => none
  | .spans (some row_span) none => some ({ cell with row_span := max 1 row_span }, .row)
  | .spans none (some col_span) => some ({ cell with col_span := max 1 col_span }, .col)
  | .spans (some row_span) (some col_span) =>
    some ({ cell with row_span := max 1 row_span, col_span := max 1 col_span }, .col)

def updateLayoutCell (cells : List Cell) (cell : Cell) : List Cell :=
  cells.map fun c => if c.id = cell.id then cell else c

/-! #### One cell of the cascade -/

/-- Where the cells that the cascade has passed, the last one first, push a cell. -/
def settle (axis : Axis) : List Cell → Cell → Cell
  | [], b => b
  | a :: passed, b => pushBy axis a (settle axis passed b)

/-- The last push of the cell puts it on a cell that was passed before the one that pushes it. -/
def Strikes (axis : Axis) : List Cell → Cell → Prop
  | [], _ => False
  | a :: passed, b =>
    if pushes a (settle axis passed b) then
      ∃ c ∈ passed, cellsOverlap c (axis.move (axis.stop a) (settle axis passed b)) = true
    else Strikes axis passed b

/-- No cell strikes another where it comes to rest: `passed` are the cells behind, the last one
first, as they came to rest. -/
def Rests (axis : Axis) : List Cell → List Cell → Prop
  | _, [] => True
  | passed, b :: rest => ¬ Strikes axis passed b ∧ Rests axis (settle axis passed b :: passed) rest

instance decidableStrikes (axis : Axis) : ∀ (passed : List Cell) (b : Cell), Decidable (Strikes axis passed b)
  | [], _ => inferInstanceAs (Decidable False)
  | a :: passed, b =>
    have := decidableStrikes axis passed b
    inferInstanceAs (Decidable (if pushes a (settle axis passed b) then
      ∃ c ∈ passed, cellsOverlap c (axis.move (axis.stop a) (settle axis passed b)) = true
        else Strikes axis passed b))

instance decidableRests (axis : Axis) : ∀ passed rest : List Cell, Decidable (Rests axis passed rest)
  | _, [] => inferInstanceAs (Decidable True)
  | passed, b :: rest =>
    have := decidableRests axis (settle axis passed b :: passed) rest
    inferInstanceAs (Decidable (¬ Strikes axis passed b ∧ Rests axis (settle axis passed b :: passed) rest))

/-- Where the cells come to rest. -/
def placed (axis : Axis) : List Cell → List Cell → List Cell
  | _, [] => []
  | passed, b :: rest => settle axis passed b :: placed axis (settle axis passed b :: passed) rest

section Cascade

variable {axis : Axis} {a b c : Cell} {passed rest cells : List Cell}

theorem pushes_iff : pushes a b = true ↔ a.id ≠ b.id ∧ cellsOverlap a b = true := by
  simp [pushes]

@[simp] theorem id_pushBy : (pushBy axis a b).id = b.id := by
  unfold pushBy
  split <;> simp

@[simp] theorem id_settle : ∀ passed : List Cell, (settle axis passed b).id = b.id
  | [] => rfl
  | _ :: passed => id_pushBy.trans (id_settle passed)

/-- A push moves a cell further along the axis. -/
theorem pushBy_cases : pushBy axis a b = b ∧ pushes a b = false ∨
    pushBy axis a b = axis.move (axis.stop a) b ∧ pushes a b = true ∧ axis.start b < axis.stop a := by
  unfold pushBy
  by_cases h : pushes a b = true
  · rw [if_pos h]
    exact Or.inr ⟨rfl, h, ((cellsOverlap_iff axis).mp (pushes_iff.mp h).2).1.2⟩
  · rw [if_neg h]
    exact Or.inl ⟨rfl, Bool.not_eq_true _ ▸ h⟩

/-- A cell does not lie on the one that has just been passed. -/
theorem pushBy_clear (hid : a.id ≠ b.id) : cellsOverlap a (pushBy axis a b) = false := by
  rcases @pushBy_cases axis a b with ⟨h, hpushes⟩ | ⟨h, -, -⟩
  · rw [h]
    simpa [pushes, hid] using hpushes
  · rw [h, overlap_eq_false axis]
    intro _ hmeets
    have := hmeets.2
    simp at this

theorem settle_move : ∀ passed : List Cell, ∃ n, settle axis passed b = axis.move n b ∧ axis.start b ≤ n
  | [] => ⟨axis.start b, by cases axis <;> rfl, Int.le_refl _⟩
  | a :: passed => by
    obtain ⟨n, h, hle⟩ := settle_move passed
    rcases @pushBy_cases axis a (settle axis passed b) with ⟨hpush, -⟩ | ⟨hpush, -, hlt⟩
    · exact ⟨n, hpush.trans h, hle⟩
    · refine ⟨axis.stop a, ?_, ?_⟩
      · rw [settle, hpush, h]
        cases axis <;> rfl
      · rw [h, Axis.start_move] at hlt
        omega

/-- The cell that has come to rest lies on none of those passed exactly when its last push did not
put it on one. -/
theorem settle_clear : ∀ {passed : List Cell}, (∀ a ∈ passed, a.id ≠ b.id) →
    ((∀ a ∈ passed, cellsOverlap a (settle axis passed b) = false) ↔ ¬ Strikes axis passed b)
  | [], _ => by simp [Strikes]
  | a :: passed, hids => by
    have hids' : ∀ c ∈ passed, c.id ≠ b.id := fun c hc => hids c (List.mem_cons_of_mem _ hc)
    have hclear : cellsOverlap a (settle axis (a :: passed) b) = false :=
      pushBy_clear (by rw [id_settle]; exact hids a (List.mem_cons_self ..))
    rw [List.forall_mem_cons, Strikes]
    rcases @pushBy_cases axis a (settle axis passed b) with ⟨h, hpushes⟩ | ⟨h, hpushes, -⟩
    · have ih := settle_clear hids'
      rw [hpushes, if_neg Bool.false_ne_true, ← ih, settle, h]
      rw [settle, h] at hclear
      simp [hclear]
    · rw [if_pos hpushes]
      rw [settle, h] at hclear ⊢
      simp [hclear]

/-! #### The cascade -/

/-- The double loop of the source takes the cells one after the other to where the cells before push them. -/
theorem cascade_placed : ∀ (passed rest : List Cell),
    (cascade axis (rest.map (settle axis passed))).1 = placed axis passed rest
  | _, [] => by simp [cascade, placed]
  | passed, b :: rest => by
    have ih := cascade_placed (settle axis passed b :: passed) rest
    rw [List.map_cons, cascade, placed]
    simp only [List.map_map]
    exact congrArg (settle axis passed b :: ·) ih

theorem placed_nil_eq (cells : List Cell) : (cascade axis cells).1 = placed axis [] cells := by
  have h := @cascade_placed axis [] cells
  rwa [show settle axis [] = id from rfl, List.map_id] at h

theorem placed_append : ∀ (passed l r : List Cell),
    placed axis passed (l ++ r) = placed axis passed l ++ placed axis
    ((placed axis passed l).reverse ++ passed) r
  | _, [], _ => rfl
  | passed, b :: l, r => by
    simp [placed, placed_append (settle axis passed b :: passed) l r]

theorem ids_placed : ∀ passed rest : List Cell, (placed axis passed rest).map Cell.id = rest.map Cell.id
  | _, [] => rfl
  | passed, b :: rest => by simp [placed, ids_placed (settle axis passed b :: passed) rest]

/-- Each cell comes to rest in its row, or column, and never before where it was. -/
theorem mem_placed_of_mem : ∀ {passed rest : List Cell}, b ∈ rest →
    ∃ n, axis.move n b ∈ placed axis passed rest ∧ axis.start b ≤ n
  | passed, c :: rest, hb => by
    rcases List.mem_cons.mp hb with rfl | hb
    · obtain ⟨n, h, hle⟩ := @settle_move axis b passed
      exact ⟨n, h ▸ List.mem_cons_self .., hle⟩
    · obtain ⟨n, h, hle⟩ := mem_placed_of_mem hb
      exact ⟨n, List.mem_cons_of_mem _ h, hle⟩

theorem of_mem_placed : ∀ {passed rest : List Cell}, c ∈ placed axis passed rest →
    ∃ b ∈ rest, ∃ n, c = axis.move n b ∧ axis.start b ≤ n
  | passed, b :: rest, hc => by
    rcases List.mem_cons.mp hc with rfl | hc
    · exact ⟨b, List.mem_cons_self .., settle_move passed⟩
    · obtain ⟨d, hd, h⟩ := of_mem_placed hc
      exact ⟨d, List.mem_cons_of_mem _ hd, h⟩

/-- The cells lie apart, and apart from those passed, exactly when none comes to rest on another by
its last push. -/
theorem placed_apart : ∀ {passed rest : List Cell}, (∀ a ∈ passed, ∀ b ∈ rest, a.id ≠ b.id) →
    (rest.map Cell.id).Nodup →
    (((placed axis passed rest).Pairwise fun a b => cellsOverlap a b = false) ∧
        (∀ a ∈ passed, ∀ b ∈ placed axis passed rest, cellsOverlap a b = false) ↔ Rests axis passed rest)
  | _, [], _, _ => by simp [placed, Rests]
  | passed, b :: rest, hids, hnodup => by
    have hhead : ∀ a ∈ passed, a.id ≠ b.id := fun a ha => hids a ha b (List.mem_cons_self ..)
    rw [List.map_cons, List.nodup_cons] at hnodup
    have htail : ∀ a ∈ settle axis passed b :: passed, ∀ c ∈ rest, a.id ≠ c.id := by
      intro a ha c hc
      rcases List.mem_cons.mp ha with rfl | ha
      · rw [id_settle]
        exact fun h => hnodup.1 (h ▸ List.mem_map_of_mem hc)
      · exact hids a ha c (List.mem_cons_of_mem _ hc)
    rw [Rests, ← settle_clear hhead, ← placed_apart htail hnodup.2, placed, List.pairwise_cons]
    constructor
    · rintro ⟨⟨hfirst, hpairs⟩, hpassed⟩
      refine ⟨fun a ha => hpassed a ha _ (List.mem_cons_self ..), hpairs, fun a ha c hc => ?_⟩
      rcases List.mem_cons.mp ha with rfl | ha
      · exact hfirst c hc
      · exact hpassed a ha c (List.mem_cons_of_mem _ hc)
    · rintro ⟨hfirst, hpairs, hpassed⟩
      refine ⟨⟨hpassed _ (List.mem_cons_self ..), hpairs⟩, fun a ha c hc => ?_⟩
      rcases List.mem_cons.mp hc with rfl | hc
      · exact hfirst a ha
      · exact hpassed a (List.mem_cons_of_mem _ ha) c hc

theorem rests_append : ∀ {passed l r : List Cell}, Rests axis passed (l ++ r) ↔
    Rests axis passed l ∧ Rests axis ((placed axis passed l).reverse ++ passed) r
  | _, [], _ => by simp [Rests, placed]
  | passed, b :: l, r => by
    simp [Rests, placed, @rests_append (settle axis passed b :: passed) l r, and_assoc]

/-- A cell that none of those passed lies on stays. -/
theorem settle_eq : ∀ {passed : List Cell}, (∀ a ∈ passed, cellsOverlap a b = false) →
    settle axis passed b = b
  | [], _ => rfl
  | a :: passed, h => by
    rw [settle, settle_eq fun c hc => h c (List.mem_cons_of_mem _ hc), pushBy, if_neg]
    simp [pushes, h a (List.mem_cons_self ..)]

/-- Cells that lie apart stay where they are. -/
theorem placed_eq : ∀ {passed rest : List Cell}, (rest.Pairwise fun a b => cellsOverlap a b = false) →
    (∀ a ∈ passed, ∀ b ∈ rest, cellsOverlap a b = false) → placed axis passed rest = rest
  | _, [], _, _ => rfl
  | passed, b :: rest, hpairs, hpassed => by
    have hb := @settle_eq axis _ _ fun a ha => hpassed a ha b (List.mem_cons_self ..)
    rw [List.pairwise_cons] at hpairs
    rw [placed, hb, placed_eq hpairs.2]
    intro a ha c hc
    rcases List.mem_cons.mp ha with rfl | ha
    · exact hpairs.1 c hc
    · exact hpassed a ha c (List.mem_cons_of_mem _ hc)

end Cascade

/-! #### Bands -/

/-- Every cell that was passed and has a line in common with the cell starts at or before where the
cells passed before it put the cell. -/
def Ahead (axis : Axis) : List Cell → Cell → Prop
  | [], _ => True
  | a :: passed, b =>
    (axis.other.Meets a b → axis.start a ≤ axis.start (settle axis passed b)) ∧ Ahead axis passed b

/-- The cells that are pushed, `mobile` ones, lie in bands: behind the line, a cell and a mobile one
that have a line in common have lines in common with the same cells. -/
structure Bands (axis : Axis) (line : Int) (mobile : Cell → Prop) (passed rest : List Cell) : Prop where
  spans : ∀ c ∈ passed ++ rest, 0 < axis.span c
  ids : ∀ a ∈ passed, ∀ b ∈ rest, a.id ≠ b.id
  nodup : (rest.map Cell.id).Nodup
  behind : ∀ b ∈ rest, line ≤ axis.start b
  sorted : rest.Pairwise fun a b => axis.start a ≤ axis.start b
  apart : passed.Pairwise fun a c => axis.other.Meets c a → axis.stop c ≤ axis.start a
  ahead : ∀ b ∈ rest, Ahead axis passed b
  band : ∀ b ∈ rest, mobile b → ∀ a ∈ passed ++ rest, ∀ c ∈ passed ++ rest, line < axis.stop a →
    line < axis.stop c → axis.other.Meets a b → axis.other.Meets b c → axis.other.Meets a c
  still : ∀ b ∈ rest, ¬ mobile b → (∀ a ∈ passed, cellsOverlap a b = false) ∧
    ∀ a ∈ rest, a.id ≠ b.id → (mobile a → ¬ axis.other.Meets a b) ∧ cellsOverlap a b = false

section Bands

variable {axis : Axis} {line : Int} {mobile : Cell → Prop} {a b c : Cell} {passed rest : List Cell}

theorem start_le_settle : axis.start b ≤ axis.start (settle axis passed b) := by
  obtain ⟨n, h, hle⟩ := @settle_move axis b passed
  rw [h, Axis.start_move]
  exact hle

theorem start_le_pushBy : axis.start b ≤ axis.start (pushBy axis a b) := @start_le_settle axis b [a]

@[simp] theorem span_settle : axis.span (settle axis passed b) = axis.span b := by
  obtain ⟨n, h, -⟩ := @settle_move axis b passed
  rw [h, Axis.span_move]

@[simp] theorem meets_settle_left : axis.other.Meets (settle axis passed b) c ↔ axis.other.Meets b c := by
  obtain ⟨n, h, -⟩ := @settle_move axis b passed
  rw [h, Axis.meets_other_move_left]

@[simp] theorem meets_settle_right : axis.other.Meets c (settle axis passed b) ↔ axis.other.Meets c b := by
  obtain ⟨n, h, -⟩ := @settle_move axis b passed
  rw [h, Axis.meets_other_move_right]

@[simp] theorem span_pushBy : axis.span (pushBy axis a b) = axis.span b := @span_settle axis b [a]

@[simp] theorem meets_pushBy_left : axis.other.Meets (pushBy axis a b) c ↔ axis.other.Meets b c :=
  @meets_settle_left axis b c [a]

@[simp] theorem meets_pushBy_right : axis.other.Meets c (pushBy axis a b) ↔ axis.other.Meets c b :=
  @meets_settle_right axis b c [a]

theorem start_le_of_comesBefore (h : comesBefore axis a b) : axis.start a ≤ axis.start b := by
  rcases h with hlt | ⟨heq, -⟩ <;> omega

theorem ahead_of_start_le : ∀ {passed : List Cell}, (∀ a ∈ passed, axis.start a ≤ axis.start b) →
    Ahead axis passed b
  | [], _ => trivial
  | a :: _, h => ⟨fun _ => Int.le_trans (h a (List.mem_cons_self ..)) start_le_settle,
      ahead_of_start_le fun a ha => h a (List.mem_cons_of_mem _ ha)⟩

theorem Ahead.start_le : ∀ {passed : List Cell}, Ahead axis passed b → c ∈ passed → axis.other.Meets c b →
    axis.start c ≤ axis.start (settle axis passed b)
  | a :: passed, h, hc, hmeets => by
    rcases List.mem_cons.mp hc with rfl | hc
    · exact Int.le_trans (h.1 hmeets) start_le_pushBy
    · exact Int.le_trans (Ahead.start_le h.2 hc hmeets) start_le_pushBy

/-- A cell that lies on another one in whose lines it is, or starts behind it, ends up behind it. -/
theorem stop_le_pushBy (hid : a.id ≠ b.id) (hspan : 0 < axis.span b) (hmeets : axis.other.Meets a b)
    (hle : axis.start a ≤ axis.start b) : axis.stop a ≤ axis.start (pushBy axis a b) := by
  rcases @pushBy_cases axis a b with ⟨h, hpushes⟩ | ⟨h, -, -⟩
  · rw [h]
    have hclear : cellsOverlap a b = false := by simpa [pushes, hid] using hpushes
    rw [overlap_eq_false axis] at hclear
    have hapart := hclear hmeets
    unfold Axis.Meets at hapart
    have : axis.stop b = axis.start b + axis.span b := rfl
    omega
  · rw [h, Axis.start_move]

/-- The cells that were passed do not take a cell past one of its band. -/
theorem settle_le_settle : ∀ {passed : List Cell}, (∀ a ∈ passed, a.id ≠ b.id) → (∀ a ∈ passed, a.id ≠ c.id) →
    0 < axis.span c → line ≤ axis.start b → axis.start b ≤ axis.start c → Ahead axis passed b →
    (∀ a ∈ passed, line < axis.stop a → axis.other.Meets a b → axis.other.Meets a c) →
    axis.start (settle axis passed b) ≤ axis.start (settle axis passed c)
  | [], _, _, _, _, hle, _, _ => hle
  | a :: passed, hidb, hidc, hspan, hline, hle, hahead, hband => by
    have ih := settle_le_settle (fun a ha => hidb a (List.mem_cons_of_mem _ ha))
      (fun a ha => hidc a (List.mem_cons_of_mem _ ha)) hspan hline hle hahead.2
      fun a ha => hband a (List.mem_cons_of_mem _ ha)
    rw [settle, settle]
    rcases @pushBy_cases axis a (settle axis passed b) with ⟨h, -⟩ | ⟨h, hpushes, hlt⟩
    · rw [h]
      exact Int.le_trans ih start_le_pushBy
    · have hstart : line ≤ axis.start (settle axis passed b) := Int.le_trans hline start_le_settle
      have hmeets : axis.other.Meets a b := by
        simpa using ((cellsOverlap_iff axis).mp (pushes_iff.mp hpushes).2).2
      have hmeetsc : axis.other.Meets a (settle axis passed c) := by
        rw [meets_settle_right]
        exact hband a (List.mem_cons_self ..) (by omega) hmeets
      rw [h, Axis.start_move]
      refine stop_le_pushBy ?_ (by rwa [span_settle]) hmeetsc (Int.le_trans (hahead.1 hmeets) ih)
      rw [id_settle]
      exact hidc a (List.mem_cons_self ..)

/-- A cell that is pushed in its band is not pushed onto another one. -/
theorem not_strikes : ∀ {passed : List Cell}, (∀ a ∈ passed, 0 < axis.span a) → line ≤ axis.start b →
    (passed.Pairwise fun a c => axis.other.Meets c a → axis.stop c ≤ axis.start a) →
    (∀ a ∈ passed, ∀ c ∈ passed, line < axis.stop a → line < axis.stop c → axis.other.Meets c b →
      axis.other.Meets b a → axis.other.Meets c a) → ¬ Strikes axis passed b
  | [], _, _, _, _ => id
  | a :: passed, hspans, hline, hapart, hband => by
    have hspan := hspans a (List.mem_cons_self ..)
    rw [List.pairwise_cons] at hapart
    have ih : ¬ Strikes axis passed b :=
      not_strikes (fun a ha => hspans a (List.mem_cons_of_mem _ ha)) hline hapart.2
      fun a ha c hc => hband a (List.mem_cons_of_mem _ ha) c (List.mem_cons_of_mem _ hc)
    rw [Strikes]
    split
    · next hpushes =>
      rintro ⟨c, hc, hoverlap⟩
      obtain ⟨hmeets, hother⟩ := (cellsOverlap_iff axis).mp hoverlap
      have hover := (cellsOverlap_iff axis).mp (pushes_iff.mp hpushes).2
      have hstart : line ≤ axis.start (settle axis passed b) := Int.le_trans hline start_le_settle
      have hstop : axis.stop a = axis.start a + axis.span a := rfl
      have hlt := hover.1.2
      have hlt' : axis.stop a < axis.stop c := by simpa using hmeets.2
      have hca : axis.other.Meets c a := by
        refine hband a (List.mem_cons_self ..) c (List.mem_cons_of_mem _ hc) (by omega) (by omega) ?_ ?_
        · simpa using hother
        · exact Axis.Meets.symm (by simpa using hover.2)
      have := hapart.1 c hc hca
      omega
    · exact ih

/-- The next cell is not pushed onto one that was passed, and the bands stay. -/
theorem Bands.step (h : Bands axis line mobile passed (b :: rest)) :
    ¬ Strikes axis passed b ∧ Bands axis line mobile (settle axis passed b :: passed) rest := by
  have hb : b ∈ b :: rest := List.mem_cons_self ..
  have hrest : ∀ {c}, c ∈ rest → c ∈ b :: rest := fun hc => List.mem_cons_of_mem _ hc
  have hpassed : ∀ {c}, c ∈ passed → c ∈ passed ++ b :: rest := fun hc => List.mem_append_left _ hc
  have hall : ∀ {c}, c ∈ b :: rest → c ∈ passed ++ b :: rest := fun hc => List.mem_append_right _ hc
  have hsorted := List.pairwise_cons.mp h.sorted
  have hnodup := h.nodup
  rw [List.map_cons, List.nodup_cons] at hnodup
  have hids : ∀ a ∈ passed, a.id ≠ b.id := fun a ha => h.ids a ha b hb
  have hne : ∀ c ∈ rest, c.id ≠ b.id := fun c hc heq => hnodup.1 (heq ▸ List.mem_map_of_mem hc)
  have hstay : ¬ mobile b → settle axis passed b = b := fun hm => settle_eq (h.still b hb hm).1
  have hstrikes : ¬ Strikes axis passed b := by
    by_cases hm : mobile b
    · exact not_strikes (fun a ha => h.spans a (hpassed ha)) (h.behind b hb) h.apart
        fun a ha c hc hla hlc hcb hba => h.band b hb hm c (hpassed hc) a (hpassed ha) hlc hla hcb hba
    · refine (settle_clear hids).mp fun a ha => ?_
      rw [hstay hm]
      exact (h.still b hb hm).1 a ha
  have hclear := (@settle_clear axis _ _ hids).mpr hstrikes
  have hstop : ∀ {c : Cell}, 0 < axis.span c → line ≤ axis.start c → line < axis.stop c := fun hs hl => by
    unfold Axis.stop
    omega
  have hlater : ∀ c ∈ rest, axis.other.Meets b c →
      axis.start (settle axis passed b) ≤ axis.start (settle axis passed c) := by
    intro c hc hbc
    by_cases hm : mobile b
    · refine settle_le_settle hids (fun a ha => h.ids a ha c (hrest hc)) (h.spans c (hall (hrest hc)))
        (h.behind b hb)
        (hsorted.1 c hc) (h.ahead b hb) fun a ha hla hab => ?_
      exact h.band b hb hm a (hpassed ha) c (hall (hrest hc)) hla
        (hstop (h.spans c (hall (hrest hc))) (h.behind c (hrest hc))) hab hbc
    · rw [hstay hm]
      exact Int.le_trans (hsorted.1 c hc) start_le_settle
  -- A cell of the new lists is one of the old ones, but for where it is.
  have hold : ∀ a ∈ (settle axis passed b :: passed) ++ rest, ∃ a' ∈ passed ++ b :: rest,
      axis.span a' = axis.span a ∧ (line < axis.stop a → line < axis.stop a') ∧
        ∀ c, axis.other.Meets a c ↔ axis.other.Meets a' c := by
    intro a ha
    rcases List.mem_cons.mp (List.cons_append .. ▸ ha) with rfl | ha
    · refine ⟨b, hall hb, span_settle.symm, fun _ => ?_, fun c => meets_settle_left⟩
      exact hstop (h.spans b (hall hb)) (h.behind b hb)
    · refine ⟨a, ?_, rfl, id, fun _ => Iff.rfl⟩
      rcases List.mem_append.mp ha with ha | ha
      · exact hpassed ha
      · exact hall (hrest ha)
  refine ⟨hstrikes, ?_, ?_, hnodup.2, fun c hc => h.behind c (hrest hc), hsorted.2, ?_, ?_, ?_, ?_⟩
  · intro a ha
    obtain ⟨a', ha', hspan, -⟩ := hold a ha
    exact hspan ▸ h.spans a' ha'
  · intro a ha c hc
    rcases List.mem_cons.mp ha with rfl | ha
    · rw [id_settle]
      exact (hne c hc).symm
    · exact h.ids a ha c (hrest hc)
  · refine List.pairwise_cons.mpr ⟨fun c hc hmeets => ?_, h.apart⟩
    have hle := Ahead.start_le (h.ahead b hb) hc (by simpa using hmeets)
    have hapart := (overlap_eq_false axis).mp (hclear c hc) hmeets
    have hspan := h.spans b (hall hb)
    rw [← @span_settle axis b passed] at hspan
    simp only [Axis.Meets, Axis.stop] at hapart ⊢
    omega
  · exact fun c hc => ⟨fun hmeets => hlater c hc (by simpa using hmeets), h.ahead c (hrest hc)⟩
  · intro c hc hm a ha d hd hla hld hac hcd
    obtain ⟨a', ha', -, hla', hmeets⟩ := hold a ha
    obtain ⟨d', hd', -, hld', hmeets'⟩ := hold d hd
    have had := h.band c (hrest hc) hm a' ha' d' hd' (hla' hla) (hld' hld) ((hmeets c).mp hac)
      ((hmeets' c).mp hcd.symm).symm
    exact (hmeets d).mpr ((hmeets' a').mpr had.symm).symm
  · intro c hc hm
    refine ⟨fun a ha => ?_, fun a ha => (h.still c (hrest hc) hm).2 a (hrest ha)⟩
    rcases List.mem_cons.mp ha with rfl | ha
    · have hfree := (h.still c (hrest hc) hm).2 b hb (hne c hc).symm
      by_cases hmb : mobile b
      · rw [overlap_eq_false axis]
        exact fun hmeets => absurd (by simpa using hmeets) (hfree.1 hmb)
      · rw [hstay hmb]
        exact hfree.2
    · exact (h.still c (hrest hc) hm).1 a ha

theorem rests_of_bands : ∀ {passed rest : List Cell}, Bands axis line mobile passed rest →
    Rests axis passed rest
  | _, [], _ => trivial
  | _, _ :: _, h => ⟨h.step.1, rests_of_bands h.step.2⟩

end Bands

/-! #### The anchor -/

/-- The cells that `resolveOverlaps` reads: only the anchor may lie on others. -/
structure Anchored (anchor : Cell) (all : List Cell) : Prop where
  ids : (all.map Cell.id).Nodup
  mem : anchor ∈ all
  apart : ∀ a ∈ all, ∀ b ∈ all, a.id ≠ anchor.id → b.id ≠ anchor.id → a.id ≠ b.id → cellsOverlap a b = false
  nonneg : ∀ c ∈ all, ∀ axis : Axis, 0 ≤ axis.start c
  spans : ∀ c ∈ all, ∀ axis : Axis, 0 < axis.span c

/-- The cell is one that the anchor covers, or reaches past its end. -/
def Reaches (axis : Axis) (anchor c : Cell) : Prop :=
  c.id ≠ anchor.id ∧ (cellsOverlap anchor c = true ∨ axis.stop anchor < axis.stop c)

/-- At the end of the anchor, `b` is in the way of `a`, which the anchor covers. -/
def InWay (axis : Axis) (anchor a b : Cell) : Prop :=
  pushes anchor a = true ∧ Reaches axis anchor b ∧ a.id ≠ b.id ∧ axis.other.Meets a b ∧
    (cellsOverlap anchor b = true ∨ axis.start b < axis.stop anchor + axis.span a)

/-- A cell is in the way of `d`, or `d` in the way of a cell. -/
def Crowded (axis : Axis) (cells : List Cell) (anchor d : Cell) : Prop :=
  ∃ c ∈ cells, InWay axis anchor d c ∨ InWay axis anchor c d

/-- Among the cells that the anchor covers or that reach past its end, a crowded one and one that
has a line in common with it have lines in common with the same cells. -/
def Banded (axis : Axis) (cells : List Cell) (anchor : Cell) : Prop :=
  ∀ d ∈ cells, Crowded axis cells anchor d → ∀ a ∈ cells, ∀ b ∈ cells, Reaches axis anchor a →
    Reaches axis anchor b → axis.other.Meets d a → (axis.other.Meets a b ↔ axis.other.Meets d b)

instance (axis : Axis) (anchor c : Cell) : Decidable (Reaches axis anchor c) :=
  inferInstanceAs (Decidable (_ ∧ _))

instance (axis : Axis) (anchor a b : Cell) : Decidable (InWay axis anchor a b) :=
  inferInstanceAs (Decidable (_ ∧ _))

instance (axis : Axis) (cells : List Cell) (anchor d : Cell) : Decidable (Crowded axis cells anchor d) :=
  inferInstanceAs (Decidable (∃ c ∈ cells, _))

instance (axis : Axis) (cells : List Cell) (anchor : Cell) : Decidable (Banded axis cells anchor) :=
  inferInstanceAs (Decidable (∀ d ∈ cells, _))

instance (axis : Axis) : Std.Total (comesBefore axis) :=
  ⟨fun a b => by simp only [comesBefore]; omega⟩

instance (axis : Axis) : IsTrans Cell (comesBefore axis) :=
  ⟨fun a b c => by simp only [comesBefore]; omega⟩

/-- In order, the cells that start before a line come first. -/
theorem split_at_line {axis : Axis} (line : Int) : ∀ {cells : List Cell}, cells.Pairwise (comesBefore axis) →
    cells = cells.filter (fun c => axis.start c < line) ++ cells.filter (fun c => line ≤ axis.start c)
  | [], _ => rfl
  | c :: cells, h => by
    rw [List.pairwise_cons] at h
    by_cases hc : axis.start c < line
    · have hc' : ¬ line ≤ axis.start c := by omega
      simpa [hc, hc'] using split_at_line line h.2
    · have hall : ∀ d ∈ cells, line ≤ axis.start d := by
        intro d hd
        rcases h.1 d hd with hlt | ⟨heq, -⟩ <;> omega
      have hnone : cells.filter (fun d => axis.start d < line) = [] :=
        List.filter_eq_nil_iff.mpr fun d hd => by simpa using hall d hd
      have hkept : cells.filter (fun d => line ≤ axis.start d) = cells :=
        List.filter_eq_self.mpr fun d hd => by simpa using hall d hd
      have hc' : line ≤ axis.start c := by omega
      simp [hc, hc', hnone, hkept]

section Anchor

variable {axis : Axis} {anchor a b c : Cell} {all cells : List Cell}

theorem pairwise_of_apart (hids : (cells.map Cell.id).Nodup)
    (h : ∀ a ∈ cells, ∀ b ∈ cells, a.id ≠ b.id → cellsOverlap a b = false) :
    cells.Pairwise fun a b => cellsOverlap a b = false :=
  (List.Pairwise.and_mem.mp (List.pairwise_map.mp hids)).imp fun hab => h _ hab.1 _ hab.2.1 hab.2.2

theorem ids_toCascade (axis : Axis) (anchor : Cell) (all : List Cell) :
    ((toCascade axis anchor all).map Cell.id).Perm (all.map Cell.id) := by
  have h := (List.perm_insertionSort (comesBefore axis) (all.map (pushBy axis anchor))).map Cell.id
  have hids : Cell.id ∘ pushBy axis anchor = Cell.id := funext fun _ => id_pushBy
  rwa [List.map_map, hids] at h

theorem mem_toCascade : c ∈ toCascade axis anchor all ↔ ∃ d ∈ all, pushBy axis anchor d = c := by
  simp [toCascade]

theorem pushBy_self (anchor : Cell) : pushBy axis anchor anchor = anchor := by
  simp [pushBy, pushes]

/-- A cell that starts before the line at which the anchor stops has not been pushed. -/
theorem of_start_lt (hc : c ∈ toCascade axis anchor all) (hstart : axis.start c < axis.stop anchor) :
    c ∈ all ∧ pushes anchor c = false := by
  obtain ⟨d, hd, rfl⟩ := mem_toCascade.mp hc
  rcases @pushBy_cases axis anchor d with ⟨hpush, hpushes⟩ | ⟨hpush, -, -⟩
  · rw [hpush]
    exact ⟨hd, hpushes⟩
  · rw [hpush, Axis.start_move] at hstart
    omega

/-- The cells before the line at which the anchor stops have not been pushed. -/
theorem low_kept (hc : c ∈ (toCascade axis anchor all).filter fun c => axis.start c < axis.stop anchor) :
    c ∈ all ∧ pushes anchor c = false :=
  of_start_lt (List.mem_filter.mp hc).1 (by simpa using (List.mem_filter.mp hc).2)

namespace Anchored

variable (h : Anchored anchor all)
include h

theorem eq_anchor (hc : c ∈ all) (hid : c.id = anchor.id) : c = anchor :=
  List.inj_on_of_nodup_map h.ids hc h.mem hid

theorem anchor_stop : axis.start anchor < axis.stop anchor := by
  have := h.spans anchor h.mem axis
  unfold Axis.stop
  omega

/-- Cells that the anchor does not push are clear of it, and of each other. -/
theorem clear (ha : a ∈ all) (hb : b ∈ all) (hpa : pushes anchor a = false) (hpb : pushes anchor b = false)
    (hid : a.id ≠ b.id) : cellsOverlap a b = false := by
  by_cases haa : a.id = anchor.id
  · rw [h.eq_anchor ha haa]
    rw [haa] at hid
    simpa [pushes, hid] using hpb
  · by_cases hba : b.id = anchor.id
    · rw [h.eq_anchor hb hba, cellsOverlap_comm]
      simpa [pushes, Ne.symm haa] using hpa
    · exact h.apart a ha b hb haa hba hid

theorem low_apart : ((toCascade axis anchor all).filter fun c => axis.start c < axis.stop anchor).Pairwise
    fun a b => cellsOverlap a b = false := by
  have hnodup := (ids_toCascade axis anchor all).nodup_iff.mpr h.ids
  refine pairwise_of_apart (hnodup.sublist (List.filter_sublist.map _)) fun a ha b hb hid => ?_
  obtain ⟨hall, hfree⟩ := low_kept ha
  obtain ⟨hall', hfree'⟩ := low_kept hb
  exact h.clear hall hall' hfree hfree' hid

/-- The cascade leaves them where they are. -/
theorem placed_low : placed axis []
    ((toCascade axis anchor all).filter fun c => axis.start c < axis.stop anchor) =
    (toCascade axis anchor all).filter fun c => axis.start c < axis.stop anchor :=
  placed_eq h.low_apart (by simp)

/-- What the cascade does: the cells before the line stay, and the ones behind it stay behind it. -/
theorem placed_split : ∃ low high, placed axis [] (toCascade axis anchor all) = low ++ high ∧ anchor ∈ low ∧
    (∀ c ∈ low, c ∈ all ∧ pushes anchor c = false) ∧ (∀ c ∈ high, axis.stop anchor ≤ axis.start c) := by
  have hsorted : (toCascade axis anchor all).Pairwise (comesBefore axis) := List.pairwise_insertionSort _ _
  have hsplit := split_at_line (axis.stop anchor) hsorted
  have hstays := @placed_low axis _ _ h
  set low := (toCascade axis anchor all).filter fun c => axis.start c < axis.stop anchor with hlow
  set high := (toCascade axis anchor all).filter fun c => axis.stop anchor ≤ axis.start c with hhigh
  refine ⟨low, placed axis low.reverse high, ?_, ?_, fun c hc => low_kept hc, ?_⟩
  · rw [hsplit, placed_append, hstays, List.append_nil]
  · exact List.mem_filter.mpr
      ⟨mem_toCascade.mpr ⟨anchor, h.mem, pushBy_self anchor⟩, by simpa using h.anchor_stop⟩
  · intro c hc
    obtain ⟨b, hb, n, rfl, hle⟩ := of_mem_placed hc
    have hline : axis.stop anchor ≤ axis.start b := by simpa using (List.mem_filter.mp hb).2
    rw [Axis.start_move]
    omega

/-- Where the cascade leaves the cells, the anchor lies on none. -/
theorem placed_clear (hc : c ∈ placed axis [] (toCascade axis anchor all)) : pushes anchor c = false := by
  obtain ⟨low, high, heq, -, hlow, hhigh⟩ := @placed_split axis _ _ h
  rw [heq] at hc
  rcases List.mem_append.mp hc with hc | hc
  · exact (hlow c hc).2
  · rw [← Bool.not_eq_true, pushes_iff, cellsOverlap_iff axis]
    rintro ⟨-, hmeets, -⟩
    have := hhigh c hc
    have := hmeets.2
    omega

theorem mem_placed : anchor ∈ placed axis [] (toCascade axis anchor all) := by
  obtain ⟨low, high, heq, hmem, -⟩ := @placed_split axis _ _ h
  rw [heq]
  exact List.mem_append_left _ hmem

/-! Where the cascade starts, and which cells it can push. -/

theorem pushBy_reaches (hc : c ∈ all) (hstop : axis.stop anchor < axis.stop (pushBy axis anchor c)) :
    Reaches axis anchor c := by
  rcases @pushBy_cases axis anchor c with ⟨hpush, -⟩ | ⟨-, hpushes, -⟩
  · rw [hpush] at hstop
    refine ⟨fun hid => ?_, Or.inr hstop⟩
    rw [h.eq_anchor hc hid] at hstop
    omega
  · exact ⟨(pushes_iff.mp hpushes).1.symm, Or.inl (pushes_iff.mp hpushes).2⟩

/-- Cells that lie on each other after the push by the anchor are in each other's way. -/
theorem inWay (ha : a ∈ all) (hb : b ∈ all) (hid : a.id ≠ b.id)
    (hoverlap : cellsOverlap (pushBy axis anchor a) (pushBy axis anchor b) = true) :
    InWay axis anchor a b ∨ InWay axis anchor b a := by
  obtain ⟨hmeets, hother⟩ := (cellsOverlap_iff axis).mp hoverlap
  have hother : axis.other.Meets a b := by simpa using hother
  rcases @pushBy_cases axis anchor a with ⟨hpa, hfree⟩ | ⟨hpa, hpushed, -⟩ <;>
    rcases @pushBy_cases axis anchor b with ⟨hpb, hfree'⟩ | ⟨hpb, hpushed', -⟩ <;>
      rw [hpa, hpb] at hmeets hoverlap
  · rw [h.clear ha hb hfree hfree' hid] at hoverlap
    cases hoverlap
  · refine Or.inr ⟨hpushed', @pushBy_reaches axis _ _ _ h ha ?_, hid.symm, hother.symm, Or.inr ?_⟩
    · rw [hpa]
      simpa using hmeets.2
    · simpa using hmeets.1
  · refine Or.inl ⟨hpushed, @pushBy_reaches axis _ _ _ h hb ?_, hid, hother, Or.inr ?_⟩
    · rw [hpb]
      simpa using hmeets.1
    · simpa using hmeets.2
  · have hover := pushes_iff.mp hpushed'
    exact Or.inl ⟨hpushed, ⟨hover.1.symm, Or.inl hover.2⟩, hid, hother, Or.inl hover.2⟩

theorem span_pos (hc : c ∈ toCascade axis anchor all) : 0 < axis.span c := by
  obtain ⟨d, hd, rfl⟩ := mem_toCascade.mp hc
  rw [span_pushBy]
  exact h.spans d hd axis

theorem stop_lt (hc : c ∈ toCascade axis anchor all) (hline : axis.stop anchor ≤ axis.start c) :
    axis.stop anchor < axis.stop c := by
  have := @span_pos axis _ _ _ h hc
  unfold Axis.stop at *
  omega

/-- A cell that has no line in common with a crowded one lies on no other after the push. -/
theorem clear_of_not_crowded (ha : a ∈ toCascade axis anchor all) (hb : b ∈ toCascade axis anchor all)
    (hid : a.id ≠ b.id) (hfree : ¬ ∃ d ∈ all, Crowded axis all anchor d ∧ axis.other.Meets d b) :
    cellsOverlap a b = false := by
  obtain ⟨x, hx, rfl⟩ := mem_toCascade.mp ha
  obtain ⟨y, hy, rfl⟩ := mem_toCascade.mp hb
  rw [← Bool.not_eq_true]
  intro hoverlap
  have hself : axis.other.Meets y y := by
    have := h.spans y hy axis.other
    unfold Axis.Meets Axis.stop
    omega
  refine hfree ⟨y, hy, ⟨x, hx, ?_⟩, by simpa using hself⟩
  exact (h.inWay hx hy (by simpa using hid) hoverlap).symm

/-- `Banded`, of the cells as the anchor has pushed them. -/
theorem banded_pushed (hbanded : Banded axis all anchor) {d : Cell} (hd : d ∈ all)
    (hcrowded : Crowded axis all anchor d) (ha : a ∈ toCascade axis anchor all)
    (hb : b ∈ toCascade axis anchor all) (hla : axis.stop anchor < axis.stop a)
    (hlb : axis.stop anchor < axis.stop b) (hda : axis.other.Meets d a) :
    axis.other.Meets a b ↔ axis.other.Meets d b := by
  obtain ⟨x, hx, rfl⟩ := mem_toCascade.mp ha
  obtain ⟨y, hy, rfl⟩ := mem_toCascade.mp hb
  simp only [meets_pushBy_left, meets_pushBy_right] at hda ⊢
  exact hbanded d hd hcrowded x hx y hy (h.pushBy_reaches hx hla) (h.pushBy_reaches hy hlb) hda

/-- Before the line, cells with a line in common lie one behind the other. -/
theorem low_behind :
    ((toCascade axis anchor all).filter fun c => axis.start c < axis.stop anchor).reverse.Pairwise
      fun a c => axis.other.Meets c a → axis.stop c ≤ axis.start a := by
  have hsorted : (toCascade axis anchor all).Pairwise (comesBefore axis) := List.pairwise_insertionSort _ _
  have hnodup := (ids_toCascade axis anchor all).nodup_iff.mpr h.ids
  rw [List.pairwise_reverse]
  refine (List.Pairwise.and_mem.mp
    ((hsorted.and (List.pairwise_map.mp hnodup)).sublist List.filter_sublist)).imp ?_
  rintro c a ⟨hc, ha, hbefore, hid⟩ hmeets
  have hc := List.mem_filter.mp hc
  have ha := List.mem_filter.mp ha
  obtain ⟨hcall, hcfree⟩ := of_start_lt hc.1 (by simpa using hc.2)
  obtain ⟨haall, hafree⟩ := of_start_lt ha.1 (by simpa using ha.2)
  have hapart := (overlap_eq_false axis).mp (h.clear hcall haall hcfree hafree hid) hmeets
  have hle := start_le_of_comesBefore hbefore
  have hspan := h.spans a haall axis
  unfold Axis.Meets Axis.stop at *
  omega

/-- Where crowded cells lie in bands, the cells behind the anchor do. -/
theorem bands (hbanded : Banded axis all anchor) :
    Bands axis (axis.stop anchor) (fun c => ∃ d ∈ all, Crowded axis all anchor d ∧ axis.other.Meets d c)
      ((toCascade axis anchor all).filter fun c => axis.start c < axis.stop anchor).reverse
      ((toCascade axis anchor all).filter fun c => axis.stop anchor ≤ axis.start c) := by
  have hsorted : (toCascade axis anchor all).Pairwise (comesBefore axis) := List.pairwise_insertionSort _ _
  have hnodup := (ids_toCascade axis anchor all).nodup_iff.mpr h.ids
  have hlow : ∀ {c}, c ∈ ((toCascade axis anchor all).filter fun c =>
    axis.start c < axis.stop anchor).reverse →
      c ∈ toCascade axis anchor all ∧ axis.start c < axis.stop anchor := fun hc => by
    simpa using hc
  have hhigh : ∀ {c}, c ∈ (toCascade axis anchor all).filter (fun c => axis.stop anchor ≤ axis.start c) →
      c ∈ toCascade axis anchor all ∧ axis.stop anchor ≤ axis.start c := fun hc => by
    simpa using hc
  have hmem : ∀ {c}, c ∈ ((toCascade axis anchor all).filter fun c =>
    axis.start c < axis.stop anchor).reverse ++
      (toCascade axis anchor all).filter (fun c => axis.stop anchor ≤ axis.start c) →
        c ∈ toCascade axis anchor all :=
    fun hc => (List.mem_append.mp hc).elim (fun hc => (hlow hc).1) fun hc => (hhigh hc).1
  have hids : ∀ a ∈ ((toCascade axis anchor all).filter fun c => axis.start c < axis.stop anchor).reverse,
      ∀ b ∈ (toCascade axis anchor all).filter fun c => axis.stop anchor ≤ axis.start c, a.id ≠ b.id := by
    intro a ha b hb hid
    obtain rfl := List.inj_on_of_nodup_map hnodup (hlow ha).1 (hhigh hb).1 hid
    have := (hlow ha).2
    have := (hhigh hb).2
    omega
  have hstop : ∀ {c}, c ∈ (toCascade axis anchor all).filter (fun c => axis.stop anchor ≤ axis.start c) →
      axis.stop anchor < axis.stop c := fun hc => @stop_lt axis _ _ _ h (hhigh hc).1 (hhigh hc).2
  refine ⟨fun c hc => @span_pos axis _ _ _ h (hmem hc), hids, hnodup.sublist (List.filter_sublist.map _),
    fun b hb => (hhigh hb).2, ?_, h.low_behind, ?_, ?_, ?_⟩
  · exact (hsorted.sublist List.filter_sublist).imp start_le_of_comesBefore
  · refine fun b hb => ahead_of_start_le fun a ha => ?_
    have := (hlow ha).2
    have := (hhigh hb).2
    omega
  · rintro b hb ⟨d, hd, hcrowded, hdb⟩ a ha c hc hla hlc hab hbc
    have hband : ∀ {x y}, x ∈ toCascade axis anchor all → y ∈ toCascade axis anchor all →
        axis.stop anchor < axis.stop x → axis.stop anchor < axis.stop y → axis.other.Meets d x →
          (axis.other.Meets x y ↔ axis.other.Meets d y) := h.banded_pushed hbanded hd hcrowded
    have hda := (hband (hhigh hb).1 (hmem ha) (hstop hb) hla hdb).mp hab.symm
    have hdc := (hband (hhigh hb).1 (hmem hc) (hstop hb) hlc hdb).mp hbc
    exact (hband (hmem ha) (hmem hc) hla hlc hda).mpr hdc
  · intro b hb hfree
    refine ⟨fun a ha => h.clear_of_not_crowded (hlow ha).1 (hhigh hb).1 (hids a ha b hb) hfree,
      fun a ha hid => ⟨?_, ?_⟩⟩
    · rintro ⟨d, hd, hcrowded, hda⟩ hab
      exact hfree ⟨d, hd, hcrowded, (h.banded_pushed hbanded hd hcrowded (hhigh ha).1 (hhigh hb).1
        (hstop ha) (hstop hb) hda).mp hab⟩
    · exact h.clear_of_not_crowded (hhigh ha).1 (hhigh hb).1 hid hfree

/-- Where crowded cells lie in bands, no cell comes to rest on another. -/
theorem rests (hbanded : Banded axis all anchor) : Rests axis [] (toCascade axis anchor all) := by
  have hsorted : (toCascade axis anchor all).Pairwise (comesBefore axis) := List.pairwise_insertionSort _ _
  rw [split_at_line (axis.stop anchor) hsorted, rests_append, h.placed_low, List.append_nil]
  have hnodup := (ids_toCascade axis anchor all).nodup_iff.mpr h.ids
  refine ⟨(placed_apart (by simp) (hnodup.sublist (List.filter_sublist.map _))).mp ⟨?_, by simp⟩,
    rests_of_bands (h.bands hbanded)⟩
  rw [h.placed_low]
  exact h.low_apart

end Anchored

/-- The positions after the cascade, each under its id. -/
theorem refresh_perm : ∀ {cells after : List Cell}, (cells.map Cell.id).Nodup →
    after.map Cell.id = cells.map Cell.id →
    cells.map (fun c => (after.find? fun d => d.id = c.id).getD c) = after
  | [], after, _, heq => by simpa using heq.symm
  | c :: cells, [], _, heq => by simp at heq
  | c :: cells, d :: after, hnodup, heq => by
    simp only [List.map_cons, List.nodup_cons, List.cons.injEq] at hnodup heq
    have hrest : cells.map (fun c => ((d :: after).find? fun e => e.id = c.id).getD c) =
        cells.map (fun c => (after.find? fun e => e.id = c.id).getD c) := by
      refine List.map_congr_left fun e he => ?_
      have hne : d.id ≠ e.id := fun h => hnodup.1 (heq.1 ▸ h ▸ List.mem_map_of_mem he)
      simp [hne]
    rw [List.map_cons, hrest, refresh_perm hnodup.2 heq.2]
    simp [heq.1]

/-- Where the anchor lies on no cell, a further turn of the loop changes nothing. -/
theorem resolveLoop_still (hclear : ∀ a ∈ cells, a.id = anchor.id → a = anchor)
    (h : ∀ c ∈ cells, pushes anchor c = false) :
    ∀ n, resolveLoop axis anchor.id n cells = cells
  | 0 => rfl
  | n + 1 => by
    rw [resolveLoop]
    cases hfind : cells.find? fun c => c.id = anchor.id with
    | none => rfl
    | some a =>
      have ha : a = anchor := hclear a (List.mem_of_find?_eq_some hfind)
        (by simpa using List.find?_some hfind)
      have hnone : cells.any (pushes anchor) = false := List.any_eq_false.mpr fun c hc => by simp [h c hc]
      simp [ha, hnone]

/-- The positions after the cascade are its cells, in the order in which they were read. -/
theorem refreshed_perm (h : Anchored anchor all) :
    (all.map fun c => ((placed axis [] (toCascade axis anchor all)).find? fun d => d.id = c.id).getD c).Perm
      (placed axis [] (toCascade axis anchor all)) := by
  have hids := @ids_placed axis [] (toCascade axis anchor all)
  have hnodup := (ids_toCascade axis anchor all).nodup_iff.mpr h.ids
  generalize placed axis [] (toCascade axis anchor all) = after at hids ⊢
  have hsorted := (List.perm_insertionSort (comesBefore axis) (all.map (pushBy axis anchor))).map
    fun c => (after.find? fun d => d.id = c.id).getD c
  rw [← toCascade, refresh_perm hnodup hids, List.map_map] at hsorted
  refine (List.Perm.of_eq (List.map_congr_left fun c hc => ?_)).trans hsorted.symm
  have hmem : c.id ∈ after.map Cell.id := by
    rw [hids]
    exact (ids_toCascade axis anchor all).mem_iff.mpr (List.mem_map_of_mem hc)
  obtain ⟨d, hd, hid⟩ := List.mem_map.mp hmem
  cases hfind : after.find? fun d => d.id = c.id with
  | none => exact absurd hid (by simpa using List.find?_eq_none.mp hfind d hd)
  | some d => simp [hfind]

theorem Anchored.find_anchor (h : Anchored anchor all) :
    all.find? (fun c => c.id = anchor.id) = some anchor := by
  cases hfind : all.find? fun c => c.id = anchor.id with
  | none =>
    exact absurd rfl (of_decide_eq_false
      (Bool.eq_false_iff.mpr (List.find?_eq_none.mp hfind anchor h.mem)))
  | some a => rw [h.eq_anchor (List.mem_of_find?_eq_some hfind) (by simpa using List.find?_some hfind)]

/-- `resolveOverlaps` leaves the cells where one push by the anchor and one cascade put them. -/
theorem resolve_perm (h : Anchored anchor all) :
    (resolveOverlaps all anchor.id axis).Perm (placed axis [] (toCascade axis anchor all)) := by
  have hlen : all.length * all.length = (all.length * all.length - 1) + 1 := by
    have := List.length_pos_of_mem h.mem
    have := Nat.mul_pos this this
    omega
  have hnodup := (ids_toCascade axis anchor all).nodup_iff.mpr h.ids
  have hrefreshed := @refreshed_perm axis _ _ h
  unfold resolveOverlaps
  rw [hlen, resolveLoop, h.find_anchor]
  simp only [placed_nil_eq]
  by_cases hmoved : all.any (pushes anchor) = true
  · rw [if_pos hmoved]
    rw [@resolveLoop_still _ anchor, ite_self]
    · exact hrefreshed
    · intro a ha hid
      have hafter : ((placed axis [] (toCascade axis anchor all)).map Cell.id).Nodup := by
        rw [ids_placed]
        exact hnodup
      exact List.inj_on_of_nodup_map hafter (hrefreshed.mem_iff.mp ha) h.mem_placed hid
    · exact fun c hc => h.placed_clear (hrefreshed.mem_iff.mp hc)
  · rw [if_neg hmoved]
    have hstill : ∀ c ∈ all, pushes anchor c = false := by simpa using hmoved
    have hpushed : all.map (pushBy axis anchor) = all := by
      refine (List.map_congr_left fun c hc => ?_).trans (List.map_id _)
      rw [pushBy, hstill c hc]
      rfl
    have hperm := List.perm_insertionSort (comesBefore axis) (all.map (pushBy axis anchor))
    rw [← toCascade, hpushed] at hperm
    rw [placed_eq (pairwise_of_apart hnodup ?_) (by simp)]
    · exact hperm.symm
    · intro a ha b hb hid
      have ha := hperm.mem_iff.mp ha
      have hb := hperm.mem_iff.mp hb
      exact h.clear ha hb (hstill a ha) (hstill b hb) hid

end Anchor

/-- The layout after the resizing of a cell to `anchor`: the resized cell is where it was put, and
every other one in its row, or column, and not before where it was. -/
structure Resized (cells : List Cell) (anchor : Cell) (axis : Axis) (after : List Cell) : Prop where
  placed : ∀ c ∈ after, ∀ ax : Axis, 0 ≤ ax.start c
  spans : ∀ c ∈ after, ∀ ax : Axis, 0 < ax.span c
  kept : anchor ∈ after
  others : ∀ c ∈ cells, c.id ≠ anchor.id → ∃ n, axis.move n c ∈ after ∧ axis.start c ≤ n
  ids : (after.map Cell.id).Perm (cells.map Cell.id)

section Resizing

variable {axis : Axis} {cell anchor : Cell} {cells all after moved : List Cell} {resize : Resize}

theorem update_spec (hnonneg : ∀ ax : Axis, 0 ≤ ax.start cell) (hspans : ∀ ax : Axis, 0 < ax.span cell)
    (hupdate : resize.update cell = some (anchor, axis)) :
    anchor.id = cell.id ∧ (∀ ax : Axis, 0 ≤ ax.start anchor) ∧ ∀ ax : Axis, 0 < ax.span anchor := by
  have hrow : 0 ≤ cell.row := hnonneg .row
  have hcol : 0 ≤ cell.col := hnonneg .col
  have hrows : 0 < cell.row_span := hspans .row
  have hcols : 0 < cell.col_span := hspans .col
  have hall : anchor.id = cell.id ∧ (0 ≤ anchor.row ∧ 0 ≤ anchor.col) ∧ 0 < anchor.row_span ∧
      0 < anchor.col_span := by
    cases resize with
    | expand direction =>
      cases direction <;> cases hupdate <;> refine ⟨rfl, ?_⟩ <;> simp only <;> omega
    | dim ax delta =>
      cases ax <;> simp only [Resize.update, Option.ite_none_right_eq_some, Option.some.injEq,
        Prod.mk.injEq] at hupdate <;>
        obtain ⟨-, rfl, -⟩ := hupdate <;> refine ⟨rfl, ?_⟩ <;> simp only <;> omega
    | spans row_span col_span =>
      cases row_span <;> cases col_span <;> cases hupdate <;> refine ⟨rfl, ?_⟩ <;> simp only <;> omega
  refine ⟨hall.1, fun ax => ?_, fun ax => ?_⟩
  · cases ax
    · exact hall.2.1.1
    · exact hall.2.1.2
  · cases ax
    · exact hall.2.2.1
    · exact hall.2.2.2

theorem ids_update (cells : List Cell) (anchor : Cell) :
    (updateLayoutCell cells anchor).map Cell.id = cells.map Cell.id := by
  rw [updateLayoutCell, List.map_map]
  refine List.map_congr_left fun c _ => ?_
  simp only [Function.comp_apply]
  split
  · exact Eq.symm ‹_›
  · rfl

theorem mem_update {c : Cell} (hc : c ∈ updateLayoutCell cells anchor) : c = anchor ∨ c ∈ cells ∧
    c.id ≠ anchor.id := by
  obtain ⟨d, hd, rfl⟩ := List.mem_map.mp hc
  split
  · exact Or.inl rfl
  · exact Or.inr ⟨hd, ‹_›⟩

theorem Tidy.apart {a b : Cell} (h : Tidy cells) (ha : a ∈ cells) (hb : b ∈ cells) (hne : a.id ≠ b.id) :
    cellsOverlap a b = false := by
  have hsymm : ∀ c d : Cell, cellsOverlap c d = false → cellsOverlap d c = false := fun c d h => by
    rwa [cellsOverlap_comm]
  refine List.Pairwise.forall_of_forall_of_flip (R := fun a b => a.id ≠ b.id →
    cellsOverlap a b = false) ?_ ?_ ?_ ha hb hne
  · exact fun c _ h => absurd rfl h
  · refine h.disjoint.imp ?_
    exact fun h _ => h
  · refine h.disjoint.imp ?_
    exact fun h _ => hsymm _ _ h

theorem anchored (htidy : Tidy cells) (hids : (cells.map Cell.id).Nodup) (hcell : cell ∈ cells)
    (hupdate : resize.update cell = some (anchor, axis)) (hall : all.Perm (updateLayoutCell cells anchor)) :
    Anchored anchor all := by
  obtain ⟨hid, hnonneg, hspans⟩ := update_spec (htidy.placed cell hcell) (htidy.spans cell hcell) hupdate
  refine ⟨?_, ?_, ?_, ?_, ?_⟩
  · rw [(hall.map Cell.id).nodup_iff, ids_update]
    exact hids
  · exact hall.mem_iff.mpr (List.mem_map.mpr ⟨cell, hcell, if_pos hid.symm⟩)
  · intro a ha b hb hna hnb hne
    rcases mem_update (hall.mem_iff.mp ha) with rfl | ⟨ha, -⟩
    · exact absurd rfl hna
    · rcases mem_update (hall.mem_iff.mp hb) with rfl | ⟨hb, -⟩
      · exact absurd rfl hnb
      · exact htidy.apart ha hb hne
  · intro c hc
    rcases mem_update (hall.mem_iff.mp hc) with rfl | ⟨hc, -⟩
    · exact hnonneg
    · exact htidy.placed c hc
  · intro c hc
    rcases mem_update (hall.mem_iff.mp hc) with rfl | ⟨hc, -⟩
    · exact hspans
    · exact htidy.spans c hc

theorem move_move {m n : Int} {c : Cell} : axis.move m (axis.move n c) = axis.move m c := by
  cases axis <;> rfl

theorem pushBy_move {a b : Cell} : ∃ n, pushBy axis a b = axis.move n b ∧ axis.start b ≤ n := by
  simpa [settle] using @settle_move axis b [a]

/-- The cells of the layout, each at its resting place. -/
theorem mem_placed_of_read {c : Cell} (hc : c ∈ all) :
    ∃ n, axis.move n c ∈ placed axis [] (toCascade axis anchor all) ∧ axis.start c ≤ n := by
  obtain ⟨m, hm, hle⟩ := @pushBy_move axis anchor c
  obtain ⟨n, hn, hle'⟩ := @mem_placed_of_mem axis _ [] _ (mem_toCascade.mpr ⟨c, hc, rfl⟩)
  rw [hm, move_move] at hn
  rw [hm, Axis.start_move] at hle'
  exact ⟨n, hn, by omega⟩

theorem read_of_mem_placed {c : Cell} (hc : c ∈ placed axis [] (toCascade axis anchor all)) :
    ∃ d ∈ all, ∃ n, c = axis.move n d ∧ axis.start d ≤ n := by
  obtain ⟨b, hb, n, rfl, hle⟩ := of_mem_placed hc
  obtain ⟨d, hd, rfl⟩ := mem_toCascade.mp hb
  obtain ⟨m, hm, hle'⟩ := @pushBy_move axis anchor d
  rw [hm, Axis.start_move] at hle
  exact ⟨d, hd, n, by rw [hm, move_move], by omega⟩

theorem resized (hall : all.Perm (updateLayoutCell cells anchor)) (h : Anchored anchor all) :
    Resized cells anchor axis (resolveOverlaps all anchor.id axis) := by
  have hperm := @resolve_perm axis _ _ h
  refine ⟨fun c hc ax => ?_, fun c hc ax => ?_, hperm.mem_iff.mpr h.mem_placed, fun c hc hid => ?_, ?_⟩
  · obtain ⟨d, hd, n, rfl, hle⟩ := read_of_mem_placed (hperm.mem_iff.mp hc)
    have hd := h.nonneg d hd
    by_cases hax : ax = axis
    · rw [hax, Axis.start_move]
      exact Int.le_trans (hd axis) hle
    · have hother : ax = axis.other := by cases ax <;> cases axis <;> simp_all [Axis.other]
      rw [hother, Axis.other_start_move]
      exact hd _
  · obtain ⟨d, hd, n, rfl, -⟩ := read_of_mem_placed (hperm.mem_iff.mp hc)
    have hspan : ax.span (axis.move n d) = ax.span d := by cases ax <;> cases axis <;> rfl
    rw [hspan]
    exact h.spans d hd ax
  · obtain ⟨n, hn, hle⟩ := @mem_placed_of_read axis anchor _ _
      (hall.mem_iff.mpr (List.mem_map.mpr ⟨c, hc, if_neg hid⟩))
    exact ⟨n, hperm.mem_iff.mpr hn, hle⟩
  · refine (hperm.map Cell.id).trans ?_
    rw [ids_placed]
    refine (ids_toCascade axis anchor all).trans ((hall.map Cell.id).trans ?_)
    rw [ids_update]

/-- The cells lie apart exactly when the last push of no cell puts it on one that the cascade had passed. -/
theorem apart_iff_rests (h : Anchored anchor all) :
    ((resolveOverlaps all anchor.id axis).Pairwise fun a b => cellsOverlap a b = false) ↔
      Rests axis [] (toCascade axis anchor all) := by
  have hnodup := (ids_toCascade axis anchor all).nodup_iff.mpr h.ids
  rw [(resolve_perm h).pairwise_iff
    fun h => by rw [cellsOverlap_comm]; exact h, ← placed_apart (by simp) hnodup]
  simp

/-- The resized cell plays no part in the bands. -/
theorem Banded.read (hall : all.Perm (updateLayoutCell cells anchor)) (h : Banded axis cells anchor) :
    Banded axis all anchor := by
  have hread : ∀ {c}, c ∈ all → c.id ≠ anchor.id → c ∈ cells := fun hc hid =>
    (mem_update (hall.mem_iff.mp hc)).elim (fun heq => absurd (congrArg Cell.id heq) hid) And.left
  have hway : ∀ {a b}, InWay axis anchor a b → a.id ≠ anchor.id ∧ b.id ≠ anchor.id := fun h =>
    ⟨(pushes_iff.mp h.1).1.symm, h.2.1.1⟩
  rintro d hd ⟨c, hc, hcrowded⟩ a ha b hb hra hrb
  have hids : d.id ≠ anchor.id ∧ c.id ≠ anchor.id := hcrowded.elim hway fun h => (hway h).symm
  exact h d (hread hd hids.1) ⟨c, hread hc hids.2, hcrowded⟩ a (hread ha hra.1) b (hread hb hrb.1) hra hrb

/-- Cells of one line lie in bands. -/
theorem banded_of_narrow (hcells : ∀ c ∈ cells, c.id ≠ anchor.id → axis.other.span c = 1) :
    Banded axis cells anchor := by
  rintro d hd ⟨c, -, hcrowded⟩ a ha b hb hra hrb hmeets
  have hid : d.id ≠ anchor.id := hcrowded.elim (fun h => (pushes_iff.mp h.1).1.symm) fun h => h.2.1.1
  have hspan := hcells d hd hid
  have hspana := hcells a ha hra.1
  have hspanb := hcells b hb hrb.1
  simp only [Axis.Meets, Axis.stop] at hmeets ⊢
  omega

/-- A resizing leaves every other cell in its row, or column, and not before where it was, and
leaves the cells disjoint where those that are crowded at the end of the resized cell lie in bands.
-/
theorem resize_disjoint (htidy : Tidy cells) (hids : (cells.map Cell.id).Nodup) (hcell : cell ∈ cells)
    (hupdate : resize.update cell = some (anchor, axis)) (hall : all.Perm (updateLayoutCell cells anchor)) :
    Resized cells anchor axis (resolveOverlaps all anchor.id axis) ∧
      (Banded axis cells anchor → Tidy (resolveOverlaps all anchor.id axis)) := by
  have h := anchored htidy hids hcell hupdate hall
  have hresized := @resized axis _ _ _ hall h
  exact ⟨hresized, fun hbanded =>
    ⟨(apart_iff_rests h).mpr (h.rests (hbanded.read hall)), hresized.placed, hresized.spans⟩⟩

/-- A wide cell and a tall one are pushed, the one by the other. -/
def bandedCells : List Cell := [⟨"a", 0, 0, 2, 1⟩, ⟨"b", 0, 1, 2, 2⟩, ⟨"c", 0, 3, 2, 1⟩, ⟨"d", 2, 1, 1, 1⟩]

theorem resize_disjoint_banded :
    Resized bandedCells ⟨"a", 0, 0, 2, 2⟩ .col
        (resolveOverlaps (updateLayoutCell bandedCells ⟨"a", 0, 0, 2, 2⟩) "a" .col) ∧
      Tidy (resolveOverlaps (updateLayoutCell bandedCells ⟨"a", 0, 0, 2, 2⟩) "a" .col) :=
  (@resize_disjoint _ ⟨"a", 0, 0, 2, 1⟩ ⟨"a", 0, 0, 2, 2⟩ bandedCells _ (.expand .right) (by decide)
    (by decide) (by decide)
    rfl (List.Perm.refl _)).imp_right fun h => h (by decide)

/-- The cell `b` is pushed furthest, past `c`, which `d` pushes onto it afterwards. -/
def crowdedCells : List Cell :=
  [⟨"a", 0, 2, 1, 1⟩, ⟨"b", 1, 2, 3, 1⟩, ⟨"d", 1, 3, 2, 1⟩, ⟨"c", 1, 4, 1, 2⟩, ⟨"e", 3, 4, 1, 3⟩]

theorem crowdedCells_overlap : Tidy crowdedCells ∧
    (Resize.spans (some 3) (some 3)).update ⟨"a", 0, 2, 1, 1⟩ = some (⟨"a", 0, 2, 3, 3⟩, .col) ∧
    ¬ Tidy (resolveOverlaps (updateLayoutCell crowdedCells ⟨"a", 0, 2, 3, 3⟩) "a" .col) := by
  exact ⟨by decide, by decide, by decide +kernel⟩

end Resizing

end LayoutGrid
