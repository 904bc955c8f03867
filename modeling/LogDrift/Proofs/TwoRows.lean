import LogDrift.Proofs.CommonSubsequence

/-! # The distance in two rows of memory

The table of distances needs no more memory than two rows. `distanceInRows` keeps them in two arrays
that change their roles after every row: the one written last is read next, and the other one is
written over. What an array still holds from two rows before is never read, as a row is written
from its first cell on and a cell needs only the one to its left.

## Key results

- `foldl_writeCell`: writing over an array fills the row, whatever the array held
- `foldl_step`: after every element read, the finished array is the row of the table
- `distanceInRows_eq_distance`: the two arrays compute the distance
-/

namespace LogDrift.Text

variable {α : Type} [DecidableEq α]

/-- The row of the table that is finished, and the array that is written over for the next one. -/
structure Rows where
  finished : Array Nat
  spare : Array Nat

/-- Writes the cell for `p`, an element of the second sequence and its place, of the row of the
    element `x`. -/
def writeCell (x : α) (finished row : Array Nat) (p : α × Nat) : Array Nat :=
  let substitution := finished[p.2]?.getD 0 + if x = p.1 then 0 else 2
  let deletion := finished[p.2 + 1]?.getD 0 + 1
  let insertion := row[p.2]?.getD 0 + 1
  row.setIfInBounds (p.2 + 1) (min (min substitution deletion) insertion)

/-- Writes the row for `p`, an element of the first sequence and its place, and lets the arrays
    change their roles. -/
def Rows.step (b : List α) (rows : Rows) (p : α × Nat) : Rows where
  finished :=
    b.zipIdx.foldl (writeCell p.1 rows.finished) (rows.spare.setIfInBounds 0 (p.2 + 1))
  spare := rows.finished

/-- The distance of two sequences, where `spare` is the array that the first row computed is written
    into. -/
def distanceInRows (spare : Array Nat) (a b : List α) : Nat :=
  if a = [] then b.length
  else if b = [] then a.length
  else
    let rows := a.zipIdx.foldl (Rows.step b) ⟨Array.range (b.length + 1), spare⟩
    rows.finished[b.length]?.getD 0

/-! ## One row -/

/-- One cell is written from its three neighbours, and the others stay as they are. -/
private theorem toList_writeCell (x b : α) {finished row : Array Nat} {past above rest : List Nat}
    {diagonal up left stale : Nat}
    (hfinished : finished.toList.drop past.length = diagonal :: up :: above)
    (hrow : row.toList = past ++ left :: stale :: rest) :
    (writeCell x finished row (b, past.length)).toList =
      past ++ left :: min (min (diagonal + if x = b then 0 else 2) (up + 1)) (left + 1) :: rest := by
  -- The three neighbours are where the cell looks for them.
  have hdiagonal : finished[past.length]? = some diagonal := by
    rw [← Array.getElem?_toList, ← Nat.add_zero past.length, ← List.getElem?_drop, hfinished]
    rfl
  have hup : finished[past.length + 1]? = some up := by
    rw [← Array.getElem?_toList, ← List.getElem?_drop, hfinished]
    rfl
  have hleft : row[past.length]? = some left := by
    rw [← Array.getElem?_toList, hrow, List.getElem?_append_right (Nat.le_refl _), Nat.sub_self]
    rfl
  simp only [writeCell, hdiagonal, hup, hleft, Option.getD_some]
  rw [Array.toList_setIfInBounds, hrow, List.set_append_right _ _ (Nat.le_add_right _ 1),
    Nat.add_sub_cancel_left]
  rfl

/-- Writing over an array from a cell on fills the row, whatever the array held behind the cell. -/
theorem foldl_writeCell (x : α) (bs : List α) {finished row : Array Nat}
    {past above stale : List Nat} {diagonal left : Nat}
    (hfinished : finished.toList.drop past.length = diagonal :: above)
    (habove : above.length = bs.length)
    (hrow : row.toList = past ++ left :: stale) (hstale : stale.length = bs.length) :
    ((bs.zipIdx past.length).foldl (writeCell x finished) row).toList =
      past ++ left :: fillRow x bs diagonal above left := by
  -- On the way along the row, `past` takes up the cells that are passed.
  induction bs generalizing row past above stale diagonal left with
  | nil =>
    have hempty : stale = [] := List.length_eq_zero_iff.mp hstale
    rw [List.zipIdx_nil, List.foldl_nil, hrow, hempty, fillRow]
    exact fun _ _ _ _ h => absurd h.symm (List.cons_ne_nil _ _)
  | cons b bs ih =>
    obtain ⟨up, above, rfl⟩ := List.exists_cons_of_length_eq_add_one habove
    obtain ⟨old, stale, rfl⟩ := List.exists_cons_of_length_eq_add_one hstale
    have hcell := toList_writeCell x b hfinished hrow
    have hnext : finished.toList.drop (past ++ [left]).length = up :: above := by
      rw [List.length_append, List.length_singleton, ← List.drop_drop, hfinished]
      rfl
    rw [List.append_cons] at hcell
    have hrest := ih hnext (Nat.succ.inj habove) hcell (Nat.succ.inj hstale)
    rw [List.length_append, List.length_singleton] at hrest
    rw [List.zipIdx_cons, List.foldl_cons, hrest, fillRow, List.append_assoc]
    rfl

/-- One step writes the next row over the spare array. -/
private theorem toList_step {b : List α} {rows : Rows} {i : Nat} {above : List Nat}
    (hfinished : rows.finished.toList = i :: above) (habove : above.length = b.length)
    (hspare : rows.spare.size = b.length + 1) (x : α) :
    (rows.step b (x, i)).finished.toList = nextRow b (i :: above) x := by
  rw [← Array.length_toList] at hspare
  obtain ⟨old, stale, hlist⟩ := List.exists_cons_of_length_eq_add_one hspare
  have hstale : stale.length = b.length := by
    rw [hlist] at hspare
    exact Nat.succ.inj hspare
  have hfirst : (rows.spare.setIfInBounds 0 (i + 1)).toList = [] ++ (i + 1) :: stale := by
    rw [Array.toList_setIfInBounds, hlist]
    rfl
  have hwhole : rows.finished.toList.drop ([] : List Nat).length = i :: above := hfinished
  exact foldl_writeCell x b hwhole habove hfirst hstale

/-! ## All rows -/

/-- The finished array is the row of the table after every element read. -/
theorem foldl_step {b : List α} (a : List α) {rows : Rows} {i : Nat} {above : List Nat}
    (hfinished : rows.finished.toList = i :: above) (habove : above.length = b.length)
    (hspare : rows.spare.size = b.length + 1) :
    ((a.zipIdx i).foldl (Rows.step b) rows).finished.toList =
      a.foldl (nextRow b) (i :: above) := by
  -- On the elements read: the array finished last is the spare one of the next step, and long
  -- enough.
  induction a generalizing rows i above with
  | nil => exact hfinished
  | cons x a ih =>
    have hstep := toList_step hfinished habove hspare x
    have hsize : rows.finished.size = b.length + 1 := by
      rw [← Array.length_toList, hfinished, List.length_cons, habove]
    have hfilled : (fillRow x b i above (i + 1)).length = b.length := by
      rw [length_fillRow, habove, Nat.min_self]
    rw [List.zipIdx_cons, List.foldl_cons, List.foldl_cons]
    exact ih hstep hfilled hsize

/-- Every row of the table has a cell more than the second sequence has elements. -/
private theorem length_foldl_nextRow {b : List α} (a : List α) {row : List Nat}
    (h : row.length = b.length + 1) : (a.foldl (nextRow b) row).length = b.length + 1 := by
  induction a generalizing row with
  | nil => exact h
  | cons x a ih => exact ih (length_nextRow h x)

/-- The two arrays compute the distance, whatever the spare one holds at the start. -/
theorem distanceInRows_eq_distance {spare : Array Nat} (a b : List α)
    (h : spare.size = b.length + 1) : distanceInRows spare a b = distance a b := by
  have hsum := distance_add_commonLength a b
  rw [distanceInRows]
  split
  · rename_i ha
    simp [ha]
  split
  · rename_i hb
    rw [hb, commonLength_nil_right, List.length_nil] at hsum
    rw [hb]
    omega
  · -- Neither sequence is empty, so the rows are computed and the last cell is read.
    have hfirst : (Array.range (b.length + 1)).toList = 0 :: List.range' 1 b.length := by
      rw [Array.toList_range, List.range_eq_range', List.range'_succ]
    have hrows : (a.zipIdx.foldl (Rows.step b) ⟨Array.range (b.length + 1), spare⟩).finished.toList =
        a.foldl (nextRow b) (0 :: List.range' 1 b.length) :=
      foldl_step a hfirst (List.length_range' ..) h
    have hrow : firstRow b = 0 :: List.range' 1 b.length := by
      rw [firstRow, List.range_eq_range', List.range'_succ]
    rw [← hrow] at hrows
    have hlength := length_foldl_nextRow a (List.length_range (n := b.length + 1))
    rw [distance, List.getLast?_eq_getElem?]
    simp only
    rw [← Array.getElem?_toList, hrows]
    simp only [firstRow, hlength, Nat.add_sub_cancel]

end LogDrift.Text
