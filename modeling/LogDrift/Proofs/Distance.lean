import LogDrift.Text.Distance

/-! # The rows compute the edit distance

`editCost` is the edit distance by plain recursion over the first elements. The row by row
computation of `distance` works from the front, so it is the recursion on the reversed sequences: a
row holds, for each prefix of the second sequence, the cost of editing the part of the first
sequence read so far into it.

## Key results

- `distance_eq_editCost`: the computation of the rows and the plain recursion agree
- `distance_eq_zero_iff`: only equal sequences have no distance
-/

namespace LogDrift.Text

variable {α : Type} [DecidableEq α]

/-! ## The plain recursion -/

/-- The least cost of editing one sequence into another, by recursion on both. -/
def editCost : List α → List α → Nat
  | [], b => b.length
  | a :: as, [] => as.length + 1
  | a :: as, b :: bs =>
    min (min (editCost as bs + if a = b then 0 else 2) (editCost as (b :: bs) + 1))
      (editCost (a :: as) bs + 1)
termination_by as bs => as.length + bs.length

@[simp] theorem editCost_nil_left (b : List α) : editCost [] b = b.length := by
  rw [editCost]

@[simp] theorem editCost_nil_right (a : List α) : editCost a [] = a.length := by
  cases a with
  | nil => simp
  | cons a as => rw [editCost, List.length_cons]

/-- The first elements are edited into each other, or one of them is deleted or inserted. -/
theorem editCost_cons_cons (a b : α) (as bs : List α) :
    editCost (a :: as) (b :: bs) =
      min (min (editCost as bs + if a = b then 0 else 2) (editCost as (b :: bs) + 1))
        (editCost (a :: as) bs + 1) := by
  rw [editCost]

/-- A sequence is edited into itself for nothing. -/
private theorem editCost_self (a : List α) : editCost a a = 0 := by
  induction a with
  | nil => simp
  | cons x xs ih =>
    -- The first elements are equal, so that editing them costs nothing.
    rw [editCost_cons_cons, ih, if_pos rfl]
    omega

/-- Nothing else is for nothing. -/
private theorem eq_of_editCost_eq_zero {a b : List α} (h : editCost a b = 0) : a = b := by
  induction a generalizing b with
  | nil =>
    rw [editCost_nil_left] at h
    exact (List.length_eq_zero_iff.mp h).symm
  | cons x xs ih =>
    cases b with
    | nil => simp at h
    | cons y ys =>
      -- Only the substitution of an equal element is free.
      rw [editCost_cons_cons] at h
      by_cases hxy : x = y
      · rw [if_pos hxy] at h
        have hrest : editCost xs ys = 0 := by omega
        rw [hxy, ih hrest]
      · rw [if_neg hxy] at h
        omega

/-! ## The rows -/

/-- The costs of editing `a` into `p` extended by each nonempty prefix of `bs`, all reversed. -/
def costs (a p : List α) : List α → List Nat
  | [] => []
  | b :: bs => editCost a (b :: p) :: costs a (b :: p) bs

/-- The first row counts the insertions. -/
private theorem costs_nil (p bs : List α) :
    costs [] p bs = List.range' (p.length + 1) bs.length := by
  induction bs generalizing p with
  | nil => rfl
  | cons b bs ih =>
    rw [costs, ih, editCost_nil_left, List.length_cons, List.length_cons, List.range'_succ]

/-- Filling a row from the row before is one step of the recursion in every cell. -/
private theorem fillRow_costs (x : α) (a p bs : List α) :
    fillRow x bs (editCost a p) (costs a p bs) (editCost (x :: a) p) = costs (x :: a) p bs := by
  -- On the way along the row, `p` takes up the elements that are passed.
  induction bs generalizing p with
  | nil => rfl
  | cons b bs ih =>
    simp only [costs, fillRow]
    rw [← editCost_cons_cons, ih]

/-- The next row holds the costs for one more element. -/
private theorem nextRow_costs (x : α) (a bs : List α) :
    nextRow bs (editCost a [] :: costs a [] bs) x =
      editCost (x :: a) [] :: costs (x :: a) [] bs := by
  have hfirst : editCost (x :: a) [] = editCost a [] + 1 := by simp
  simp only [nextRow]
  rw [← hfirst, fillRow_costs]

/-- The last cell of a row is the cost for the whole second sequence. -/
private theorem getLast?_costs (a p bs : List α) :
    (editCost a p :: costs a p bs).getLast? = some (editCost a (bs.reverse ++ p)) := by
  induction bs generalizing p with
  | nil => rfl
  | cons b bs ih =>
    have hlast := ih (b :: p)
    rw [costs, List.getLast?_cons_cons, hlast, List.reverse_cons, List.append_assoc,
      List.singleton_append]

/-- After reading `a`, the row holds the costs of `a`. -/
private theorem foldl_nextRow (done a bs : List α) :
    a.foldl (nextRow bs) (editCost done [] :: costs done [] bs) =
      editCost (a.reverse ++ done) [] :: costs (a.reverse ++ done) [] bs := by
  -- Each element read joins those done, in front.
  induction a generalizing done with
  | nil => rfl
  | cons x xs ih =>
    rw [List.foldl_cons, nextRow_costs, ih, List.reverse_cons, List.append_assoc,
      List.singleton_append]

/-- The distance is the edit cost of the reversed sequences. -/
theorem distance_eq_editCost (a b : List α) : distance a b = editCost a.reverse b.reverse := by
  -- Nothing is read before the first row.
  have hfirst : firstRow b = editCost ([] : List α) [] :: costs [] [] b := by
    rw [costs_nil, editCost_nil_left, firstRow, List.range_eq_range', List.range'_succ]
    rfl
  rw [distance, hfirst, foldl_nextRow, getLast?_costs]
  simp

/-- Only equal sequences have no distance. -/
theorem distance_eq_zero_iff {a b : List α} : distance a b = 0 ↔ a = b := by
  rw [distance_eq_editCost]
  constructor
  · intro h
    exact List.reverse_inj.mp (eq_of_editCost_eq_zero h)
  · intro h
    rw [h]
    exact editCost_self b.reverse

end LogDrift.Text
