import LogDrift.Proofs.CommonSubsequence

/-! # The distance is the least cost of an edit script

An edit script goes through a sequence from its start and says for every element what becomes of
it. `runScript` carries a script out, which fails if the script does not fit the sequence.

## Key results

- `editCost_le_scriptCost`: no script that edits one sequence into another costs less
- `exists_scriptCost_eq_editCost`: some script costs just that
- `leastCost_distance`: so the distance is the least cost
-/

namespace LogDrift.Text

variable {α : Type}

/-- A step of an edit script: what becomes of the next element, or which one is put in front of
    it. -/
inductive Edit (α : Type) where
  | keep
  | delete
  | insert (new : α)
  | substitute (new : α)
deriving DecidableEq

/-- What a step costs. -/
def Edit.cost : Edit α → Nat
  | .keep => 0
  | .delete => 1
  | .insert _ => 1
  | .substitute _ => 2

/-- What a script costs. -/
def scriptCost : List (Edit α) → Nat
  | [] => 0
  | edit :: script => edit.cost + scriptCost script

/-- Carries a script out; `none` if it has too few steps for the sequence or too many. -/
def runScript : List (Edit α) → List α → Option (List α)
  | [], [] => some []
  | .keep :: script, x :: a => (runScript script a).map (x :: ·)
  | .delete :: script, _ :: a => runScript script a
  | .insert y :: script, a => (runScript script a).map (y :: ·)
  | .substitute y :: script, _ :: a => (runScript script a).map (y :: ·)
  | _, _ => none

/-- Some script of this cost edits one sequence into the other, and none that costs less. -/
structure LeastCost (cost : Nat) (a b : List α) : Prop where
  reached : ∃ script, runScript script a = some b ∧ scriptCost script = cost
  le_cost : ∀ script, runScript script a = some b → cost ≤ scriptCost script

@[simp] theorem scriptCost_cons (edit : Edit α) (script : List (Edit α)) :
    scriptCost (edit :: script) = edit.cost + scriptCost script := rfl

/-- An insertion does not look at the sequence. -/
private theorem runScript_insert (y : α) (script : List (Edit α)) (a : List α) :
    runScript (.insert y :: script) a = (runScript script a).map (y :: ·) := by
  cases a <;> rfl

/-! ## One more step -/

section

variable [DecidableEq α]

/-- One more element on the left costs a deletion at most. -/
private theorem editCost_cons_left_le (x : α) (a b : List α) :
    editCost (x :: a) b ≤ editCost a b + 1 := by
  cases b with
  | nil => simp
  | cons y b =>
    rw [editCost_cons_cons]
    omega

/-- One more element on the right costs an insertion at most. -/
private theorem editCost_cons_right_le (y : α) (a b : List α) :
    editCost a (y :: b) ≤ editCost a b + 1 := by
  cases a with
  | nil => simp
  | cons x a =>
    rw [editCost_cons_cons]
    omega

/-- One more element on both sides costs a substitution at most, and nothing if they are equal. -/
private theorem editCost_cons_cons_le (x y : α) (a b : List α) :
    editCost (x :: a) (y :: b) ≤ editCost a b + if x = y then 0 else 2 := by
  rw [editCost_cons_cons]
  omega

/-! ## The least cost of a script -/

/-- No script that edits `a` into `b` costs less than their edit cost. -/
theorem editCost_le_scriptCost {script : List (Edit α)} {a b : List α}
    (h : runScript script a = some b) : editCost a b ≤ scriptCost script := by
  -- By the steps of the script: each pays at least what it saves.
  fun_induction runScript script a generalizing b with
  | case1 =>
    cases h
    simp
  | case2 script x a ih =>
    obtain ⟨b, hrest, rfl⟩ := Option.map_eq_some_iff.mp h
    have hstep := editCost_cons_cons_le x x a b
    rw [if_pos rfl] at hstep
    have hle := ih hrest
    rw [scriptCost_cons, Edit.cost]
    omega
  | case3 script x a ih =>
    have hstep := editCost_cons_left_le x a b
    have hle := ih h
    rw [scriptCost_cons, Edit.cost]
    omega
  | case4 y script a ih =>
    obtain ⟨b, hrest, rfl⟩ := Option.map_eq_some_iff.mp h
    have hstep := editCost_cons_right_le y a b
    have hle := ih hrest
    rw [scriptCost_cons, Edit.cost]
    omega
  | case5 y script x a ih =>
    obtain ⟨b, hrest, rfl⟩ := Option.map_eq_some_iff.mp h
    have hstep := editCost_cons_cons_le x y a b
    have hle := ih hrest
    rw [scriptCost_cons, Edit.cost]
    split at hstep <;> omega
  | case6 => cases h

/-- Some script that edits `a` into `b` costs as much as their edit cost. -/
theorem exists_scriptCost_eq_editCost (a b : List α) :
    ∃ script : List (Edit α), runScript script a = some b ∧ scriptCost script = editCost a b := by
  fun_induction editCost a b with
  -- All that is left on the right is inserted.
  | case1 b =>
    induction b with
    | nil => exact ⟨[], rfl, rfl⟩
    | cons y b ih =>
      obtain ⟨script, hrun, hcost⟩ := ih
      refine ⟨.insert y :: script, by rw [runScript_insert, hrun, Option.map_some], ?_⟩
      rw [scriptCost_cons, hcost, Edit.cost, List.length_cons, Nat.add_comm]
  -- All that is left on the left is deleted.
  | case2 x a =>
    induction a generalizing x with
    | nil => exact ⟨[.delete], rfl, rfl⟩
    | cons z a ih =>
      obtain ⟨script, hrun, hcost⟩ := ih z
      refine ⟨.delete :: script, hrun, ?_⟩
      rw [scriptCost_cons, hcost, Edit.cost, List.length_cons, Nat.add_comm]
  | case3 x a y b ihboth ihleft ihright =>
    obtain ⟨both, hrunboth, hcostboth⟩ := ihboth
    obtain ⟨left, hrunleft, hcostleft⟩ := ihleft
    obtain ⟨right, hrunright, hcostright⟩ := ihright
    -- The cheapest of the three neighbours is extended by the step that leads from it.
    by_cases hleft : editCost a (y :: b) + 1 ≤
        min (editCost a b + if x = y then 0 else 2) (editCost (x :: a) b + 1)
    · refine ⟨.delete :: left, hrunleft, ?_⟩
      rw [scriptCost_cons, hcostleft, Edit.cost]
      omega
    · by_cases hright : editCost (x :: a) b + 1 ≤ editCost a b + if x = y then 0 else 2
      · refine ⟨.insert y :: right, by rw [runScript_insert, hrunright, Option.map_some], ?_⟩
        rw [scriptCost_cons, hcostright, Edit.cost]
        omega
      · by_cases hxy : x = y
        · refine ⟨.keep :: both, by rw [runScript, hrunboth, Option.map_some, hxy], ?_⟩
          rw [scriptCost_cons, hcostboth, Edit.cost]
          rw [if_pos hxy] at hleft hright ⊢
          omega
        · refine ⟨.substitute y :: both, by rw [runScript, hrunboth, Option.map_some], ?_⟩
          rw [scriptCost_cons, hcostboth, Edit.cost]
          rw [if_neg hxy] at hleft hright ⊢
          omega

/-- Read from the front or from the back, the edit cost is the same. -/
theorem distance_eq_editCost_forward (a b : List α) : distance a b = editCost a b := by
  have hdistance := distance_add_commonLength a b
  have hcost := editCost_add_commonLength a b
  omega

/-- The distance is the least cost of a script. -/
theorem leastCost_distance (a b : List α) : LeastCost (distance a b) a b := by
  rw [distance_eq_editCost_forward]
  exact ⟨exists_scriptCost_eq_editCost a b, fun _ => editCost_le_scriptCost⟩

end

end LogDrift.Text
