/-! # Edit distance of two sequences

`distance a b` is the least cost of editing `a` into `b` where an insertion or a deletion costs one
and a substitution two. It is computed row by row over a table whose cell at row `i` and column `j`
is the distance of the first `i` elements of `a` and the first `j` of `b`; only the row before the
current one is kept.

`commonLength a b` is the other side: the length of a longest common subsequence, by recursion on
both sequences.
-/

namespace LogDrift.Text

variable {α : Type} [DecidableEq α]

/-- The cells of a row from the second on. `diagonal` and `above` are the row before from the cell
    above `left` on, `left` is the cell to the left of the first one computed. -/
def fillRow (a : α) : List α → (diagonal : Nat) → (above : List Nat) → (left : Nat) → List Nat
  | b :: bs, diagonal, up :: above, left =>
    let cell := min (min (diagonal + if a = b then 0 else 2) (up + 1)) (left + 1)
    cell :: fillRow a bs up above cell
  | _, _, _, _ => []

/-- The row for one more element `a` of the first sequence. -/
def nextRow (b : List α) (row : List Nat) (a : α) : List Nat :=
  match row with
  | [] => []
  | diagonal :: above => (diagonal + 1) :: fillRow a b diagonal above (diagonal + 1)

/-- The row of the empty sequence: to reach the first `j` elements takes `j` insertions. -/
def firstRow (b : List α) : List Nat := List.range (b.length + 1)

/-- The least cost of editing `a` into `b`, with unit insertions and deletions and substitutions of
    cost two. -/
def distance (a b : List α) : Nat :=
  (a.foldl (nextRow b) (firstRow b)).getLast?.getD 0

/-- As many cells are computed as there are elements and cells above. -/
theorem length_fillRow (a : α) (b : List α) (diagonal : Nat) (above : List Nat) (left : Nat) :
    (fillRow a b diagonal above left).length = min b.length above.length := by
  induction b generalizing diagonal above left with
  | nil => simp [fillRow]
  | cons x xs ih =>
    cases above with
    | nil => simp [fillRow]
    | cons up above => simp [fillRow, ih]

/-- Every row has a cell for each prefix of the second sequence. -/
theorem length_nextRow {b : List α} {row : List Nat} (h : row.length = b.length + 1) (a : α) :
    (nextRow b row a).length = b.length + 1 := by
  cases row with
  | nil => simp at h
  | cons d above =>
    simp only [List.length_cons, Nat.add_right_cancel_iff] at h
    simp [nextRow, length_fillRow, h]

/-- Nothing but insertions lead from the empty sequence. -/
@[simp] theorem distance_nil_left (b : List α) : distance [] b = b.length := by
  simp [distance, firstRow, List.range_succ]

/-- The length of a longest common subsequence. -/
def commonLength : List α → List α → Nat
  | [], _ => 0
  | _ :: _, [] => 0
  | a :: as, b :: bs =>
    if a = b then commonLength as bs + 1
    else max (commonLength as (b :: bs)) (commonLength (a :: as) bs)
termination_by as bs => as.length + bs.length

end LogDrift.Text
