import Mathlib.Data.Finset.Insert
import LogDrift.Proofs.MethodPasses

/-!
# Matching methods with sets of visited places

The passes of the matcher need not hand their leftovers on. `visitMethods` keeps both lists of
methods as they are, and two sets of places that have been visited: a pass goes along the old
methods, looks for the first new method that has not been visited and fits, and visits both. What no
pass has visited is present in one version only.

What has not been visited is what a join would have left (`unvisited`), place by place.

## Key results

- `takeFirst_unvisited`: looking for what has not been visited takes the first of what is left
- `foldl_visit`: a pass makes the pairs of a join of what had not been visited, and leaves its
  leftovers
- `visitMethods_eq_matchMethods`: the visited sets compute the matching
-/

namespace LogDrift

variable {α β γ : Type}

/-- The elements of a list whose places have not been visited. The list itself begins at `place`. -/
def unvisited (visited : Finset Nat) (place : Nat) (as : List α) : List α :=
  ((as.zipIdx place).filter fun p => p.2 ∉ visited).map (·.1)

/-- The places visited on either side, and what has been made of the pairs. -/
structure Visits (γ : Type) where
  left : Finset Nat
  right : Finset Nat
  result : γ

namespace Visits

/-- Looks on the right for the first element that has not been visited and fits `p`, an element on
    the left with its place, and visits both. -/
def pair (record : γ → α × β → γ) (fits : α → β → Bool) (right : List β) (v : Visits γ)
    (p : α × Nat) : Visits γ :=
  match right.zipIdx.find? fun q => q.2 ∉ v.right && fits p.1 q.1 with
  | some q => ⟨insert p.2 v.left, insert q.2 v.right, record v.result (p.1, q.1)⟩
  | none => v

/-- The same, unless `p` has been visited. -/
def visit (record : γ → α × β → γ) (fits : α → β → Bool) (right : List β) (v : Visits γ)
    (p : α × Nat) : Visits γ :=
  if p.2 ∈ v.left then v else v.pair record fits right p

/-- One pass along the left side. -/
def pass (record : γ → α × β → γ) (fits : α → β → Bool) (left : List α) (right : List β)
    (v : Visits γ) : Visits γ :=
  left.zipIdx.foldl (visit record fits right) v

/-- Whether `w` comes from `v` by visiting the pairs of a join and recording them, where the left side
    begins at `place`: what has not been visited then are the leftovers of the join. -/
structure HasJoined (record : γ → α × β → γ) (place : Nat) (left : List α) (right : List β)
    (join : Join α β) (v w : Visits γ) : Prop where
  result_eq : w.result = join.pairs.foldl record v.result
  left_eq : unvisited w.left place left = join.left
  right_eq : unvisited w.right 0 right = join.right

end Visits

namespace MethodMatching

/-- Takes a pair of methods with equal signatures in. -/
def recordExact (m : MethodMatching) (p : PlacedMethod × PlacedMethod) : MethodMatching :=
  { m with pairs := m.pairs ++ [⟨p.1, p.2, .exactSignature⟩] }

/-- Takes a pair of methods with equal names in. -/
def recordNamed (m : MethodMatching) (p : PlacedMethod × PlacedMethod) : MethodMatching :=
  if sameBody p.1 p.2 then { m with untouched := m.untouched ++ [p] }
  else { m with pairs := m.pairs ++ [⟨p.1, p.2, .sameName⟩] }

/-- Takes a renamed method in. -/
def recordRenamed (m : MethodMatching) (p : PlacedMethod × PlacedMethod) : MethodMatching :=
  { m with untouched := m.untouched ++ [p] }

end MethodMatching

open MethodMatching in
/-- Matches the methods of an old and a new version with sets of visited places. Before the first
    pass nothing has been visited, so that it does not look whether an old method has been. -/
def visitMethods (old new : List Method) : MethodMatching :=
  let left := changed old new
  let right := changed new old
  let exact := left.zipIdx.foldl (Visits.pair recordExact sameSignature right)
    ⟨∅, ∅, ⟨[], [], [], []⟩⟩
  let named := exact.pass recordNamed sameNameOnly left right
  let moved := named.pass recordRenamed renamed left right
  { moved.result with
    onlyOld := unvisited moved.left 0 left
    onlyNew := unvisited moved.right 0 right }

/-! ## What has not been visited -/

theorem unvisited_empty (place : Nat) (as : List α) : unvisited ∅ place as = as := by
  simp [unvisited]

private theorem unvisited_cons_of_mem {visited : Finset Nat} {place : Nat} (h : place ∈ visited)
    (a : α) (as : List α) : unvisited visited place (a :: as) = unvisited visited (place + 1) as := by
  simp [unvisited, h]

private theorem unvisited_cons_of_not_mem {visited : Finset Nat} {place : Nat}
    (h : place ∉ visited) (a : α) (as : List α) :
    unvisited visited place (a :: as) = a :: unvisited visited (place + 1) as := by
  simp [unvisited, h]

/-- A place in front of a list makes no difference to it. -/
private theorem unvisited_insert_of_lt {visited : Finset Nat} {i place : Nat} (h : i < place)
    (as : List α) : unvisited (insert i visited) place as = unvisited visited place as := by
  rw [unvisited, unvisited]
  congr 1
  apply List.filter_congr
  intro p hp
  have hle : place ≤ p.2 := (List.mk_mem_zipIdx_iff_le_and_getElem?_sub.mp hp).1
  have hmem : p.2 ∈ insert i visited ↔ p.2 ∈ visited := by
    rw [Finset.mem_insert, or_iff_right (by omega)]
  simp only [hmem]

/-- To look for the first element that has not been visited is to take it from what is left. -/
theorem takeFirst_unvisited (p : β → Bool) (visited : Finset Nat) (place : Nat) (right : List β) :
    takeFirst p (unvisited visited place right) =
      ((right.zipIdx place).find? fun q => q.2 ∉ visited && p q.1).map fun q =>
        (q.1, unvisited (insert q.2 visited) place right) := by
  induction right generalizing place with
  | nil => rfl
  | cons b right ih =>
    rw [List.zipIdx_cons]
    by_cases hvisited : place ∈ visited
    · -- A visited element is passed over on both sides, and stays visited.
      rw [unvisited_cons_of_mem hvisited, ih, List.find?_cons_of_neg (by simp [hvisited])]
      congr 1
      funext q
      rw [unvisited_cons_of_mem (Finset.mem_insert_of_mem hvisited)]
    · rw [unvisited_cons_of_not_mem hvisited]
      by_cases hb : p b = true
      · rw [takeFirst_cons_of_pos hb, List.find?_cons_of_pos (by simp [hvisited, hb]),
          Option.map_some, unvisited_cons_of_mem (Finset.mem_insert_self place visited),
          unvisited_insert_of_lt (Nat.lt_succ_self place)]
      · rw [Bool.not_eq_true] at hb
        rw [takeFirst_cons_of_neg hb, ih, List.find?_cons_of_neg (by simp [hb]), Option.map_map]
        -- What is found stands behind `b`, which is left over.
        apply Option.map_congr
        intro q hq
        have hle : place + 1 ≤ q.2 :=
          (List.mk_mem_zipIdx_iff_le_and_getElem?_sub.mp (List.mem_of_find?_eq_some hq)).1
        have hplace : place ∉ insert q.2 visited := by
          rw [Finset.mem_insert]
          exact fun h => h.elim (fun h => by omega) hvisited
        rw [Function.comp_apply, unvisited_cons_of_not_mem hplace]

/-! ## One pass -/

section

variable (record : γ → α × β → γ) (fits : α → β → Bool) (right : List β)

/-- A pass visits no place in front of where it starts. -/
private theorem mem_left_foldl_visit (left : List α) {place i : Nat} (h : i < place)
    (v : Visits γ) :
    i ∈ ((left.zipIdx place).foldl (Visits.visit record fits right) v).left ↔ i ∈ v.left := by
  induction left generalizing place v with
  | nil => rfl
  | cons a left ih =>
    rw [List.zipIdx_cons, List.foldl_cons, ih (Nat.lt_succ_of_lt h), Visits.visit]
    split
    · rfl
    · rw [Visits.pair]
      split
      · rw [Finset.mem_insert, or_iff_right (Nat.ne_of_lt h)]
      · rfl

/-- A pass along the elements from a place on makes the pairs of the join of what had not been
    visited, and visits all but the leftovers of the join. -/
theorem foldl_visit (left : List α) (place : Nat) (v : Visits γ) :
    Visits.HasJoined record place left right
      (firstFit fits (unvisited v.left place left) (unvisited v.right 0 right)) v
      ((left.zipIdx place).foldl (Visits.visit record fits right) v) := by
  induction left generalizing place v with
  | nil => exact ⟨rfl, rfl, rfl⟩
  | cons a left ih =>
    -- The rest of the pass does not change whether `place` has been visited.
    have hplace (w : Visits γ) :
        place ∈ ((left.zipIdx (place + 1)).foldl (Visits.visit record fits right) w).left ↔
          place ∈ w.left :=
      mem_left_foldl_visit record fits right left (Nat.lt_succ_self place) w
    rw [List.zipIdx_cons, List.foldl_cons]
    by_cases hvisited : place ∈ v.left
    · have hvisit : Visits.visit record fits right v (a, place) = v := if_pos hvisited
      rw [hvisit, unvisited_cons_of_mem hvisited]
      obtain ⟨hresult, hleft, hright⟩ := ih (place + 1) v
      refine ⟨hresult, ?_, hright⟩
      rw [unvisited_cons_of_mem ((hplace v).mpr hvisited), hleft]
    · have hvisit : Visits.visit record fits right v (a, place) =
          v.pair record fits right (a, place) := if_neg hvisited
      have htake := takeFirst_unvisited (fits a) v.right 0 right
      rw [hvisit, unvisited_cons_of_not_mem hvisited, Visits.pair]
      cases hfind : right.zipIdx.find? fun q => q.2 ∉ v.right && fits a q.1 with
      | none =>
        rw [hfind, Option.map_none] at htake
        obtain ⟨hresult, hleft, hright⟩ := ih (place + 1) v
        rw [firstFit_cons_of_none htake]
        refine ⟨hresult, ?_, hright⟩
        rw [unvisited_cons_of_not_mem (mt (hplace v).mp hvisited), hleft]
      | some q =>
        rw [hfind, Option.map_some] at htake
        obtain ⟨hresult, hleft, hright⟩ := ih (place + 1)
          ⟨insert place v.left, insert q.2 v.right, record v.result (a, q.1)⟩
        rw [unvisited_insert_of_lt (Nat.lt_succ_self place)] at hresult hleft hright
        rw [firstFit_cons_of_some htake]
        refine ⟨hresult, ?_, hright⟩
        rw [unvisited_cons_of_mem ((hplace _).mpr (Finset.mem_insert_self place v.left)), hleft]

/-- Where nothing on the left has been visited from a place on, there is no need to look. -/
private theorem foldl_pair_eq_foldl_visit (left : List α) {place : Nat} {v : Visits γ}
    (h : ∀ i ∈ v.left, i < place) :
    (left.zipIdx place).foldl (Visits.pair record fits right) v =
      (left.zipIdx place).foldl (Visits.visit record fits right) v := by
  induction left generalizing place v with
  | nil => rfl
  | cons a left ih =>
    have hvisit : Visits.visit record fits right v (a, place) =
        v.pair record fits right (a, place) :=
      if_neg fun hmem => absurd (h place hmem) (Nat.lt_irrefl place)
    rw [List.zipIdx_cons, List.foldl_cons, List.foldl_cons, hvisit]
    apply ih
    -- The place itself is the last that may have been visited now.
    intro i hi
    rw [Visits.pair] at hi
    split at hi
    · rcases Finset.mem_insert.mp hi with rfl | hi
      · exact Nat.lt_succ_self _
      · exact Nat.lt_succ_of_lt (h i hi)
    · exact Nat.lt_succ_of_lt (h i hi)

end

/-! ## The whole matching -/

namespace MethodMatching

private theorem foldl_recordExact (ps : List (PlacedMethod × PlacedMethod)) (m : MethodMatching) :
    ps.foldl recordExact m =
      { m with pairs := m.pairs ++ ps.map fun p => ⟨p.1, p.2, .exactSignature⟩ } := by
  induction ps generalizing m with
  | nil => simp
  | cons p ps ih => simp [ih, recordExact]

private theorem foldl_recordRenamed (ps : List (PlacedMethod × PlacedMethod))
    (m : MethodMatching) :
    ps.foldl recordRenamed m = { m with untouched := m.untouched ++ ps } := by
  induction ps generalizing m with
  | nil => simp
  | cons p ps ih => simp [ih, recordRenamed]

/-- The pairs of the second pass are told apart by their bodies as they are made. -/
private theorem foldl_recordNamed (ps : List (PlacedMethod × PlacedMethod)) (m : MethodMatching) :
    ps.foldl recordNamed m =
      { m with
        pairs := m.pairs ++
          (ps.filter fun p => !sameBody p.1 p.2).map fun p => ⟨p.1, p.2, .sameName⟩
        untouched := m.untouched ++ ps.filter fun p => sameBody p.1 p.2 } := by
  induction ps generalizing m with
  | nil => simp
  | cons p ps ih =>
    rw [List.foldl_cons, ih, recordNamed]
    by_cases hbody : sameBody p.1 p.2 = true <;> simp [hbody]

end MethodMatching

open MethodMatching in
/-- The visited sets compute the matching: the same pairs in the same order, and the same methods of
    one version only. -/
theorem visitMethods_eq_matchMethods (old new : List Method) :
    visitMethods old new = matchMethods old new := by
  have hexact := foldl_visit recordExact sameSignature (changed new old) (changed old new) 0
    ⟨∅, ∅, ⟨[], [], [], []⟩⟩
  rw [← foldl_pair_eq_foldl_visit _ _ _ _ fun i hi => absurd hi (Finset.notMem_empty i),
    unvisited_empty, unvisited_empty] at hexact
  rw [visitMethods]
  generalize (changed old new).zipIdx.foldl
    (Visits.pair recordExact sameSignature (changed new old)) _ = exact at hexact ⊢
  -- Each further pass joins what the one before has not visited.
  have hnamed := foldl_visit recordNamed sameNameOnly (changed new old) (changed old new) 0 exact
  rw [hexact.left_eq, hexact.right_eq, ← Visits.pass] at hnamed
  have hmoved := foldl_visit recordRenamed renamed (changed new old) (changed old new) 0
    (exact.pass recordNamed sameNameOnly (changed old new) (changed new old))
  rw [hnamed.left_eq, hnamed.right_eq, ← Visits.pass] at hmoved
  simp only [hmoved.left_eq, hmoved.right_eq, hmoved.result_eq, hnamed.result_eq,
    hexact.result_eq, foldl_recordExact, foldl_recordNamed, foldl_recordRenamed]
  simp [matchMethods, List.partition_eq_filter_filter, Function.comp_def]

end LogDrift
