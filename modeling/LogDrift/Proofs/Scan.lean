import LogDrift.Proofs.PairTable

/-! # The scan, cell by cell

`PairTable.after` is the table in the middle of a scan. Every invariant of a scan is proved by
`scan_induction`, from what one more cell does to the pairs (`holds_after_succ`).

## Key results

- `inverse_after`: the two sides of the table are inverse to each other after every scanned cell
- `holds_after_succ`: what one more cell does to the pairs
- `rate_of_holds_after`: every pair carries the rating of its two elements
-/

namespace LogDrift.PairTable

variable {ρ : Type}

/-! ## The table in the middle of a scan -/

section Scan

variable [LT ρ] [DecidableLT ρ] {α β : Type}

/-- The table of a scan after the first `i` old positions and the pairs of the next one with the
    first `j` new ones. -/
def after (rate : α → β → Option ρ) (old : List α) (new : List β) (i j : Nat) : PairTable ρ :=
  let rows := (old.zipIdx.take i).foldl (scanRow rate new) (empty old.length new.length)
  match old[i]? with
  | some a => scanRow rate (new.take j) rows (a, i)
  | none => rows

variable {rate : α → β → Option ρ} {old : List α} {new : List β}

/-- Before the first cell of a row there are the whole rows ahead of it. -/
theorem after_zero_right (i : Nat) :
    after rate old new i 0 =
      (old.zipIdx.take i).foldl (scanRow rate new) (empty old.length new.length) := by
  simp only [after]
  split <;> rfl

theorem after_zero : after rate old new 0 0 = empty old.length new.length := by
  rw [after_zero_right]
  rfl

/-- One more cell of a row is one more visit. -/
theorem after_succ {i j : Nat} (hi : i < old.length) (hj : j < new.length) :
    after rate old new i (j + 1) = (after rate old new i j).visit i j (rate old[i] new[j]) := by
  -- The cells of the row are those before and this one.
  have hsplit : (new.take (j + 1)).zipIdx = (new.take j).zipIdx ++ [(new[j], j)] := by
    rw [List.take_add_one, List.getElem?_eq_getElem hj, List.zipIdx_append]
    simp [Nat.min_eq_left (Nat.le_of_lt hj)]
  simp only [after, List.getElem?_eq_getElem hi, scanRow, hsplit, List.foldl_append,
    List.foldl_cons, List.foldl_nil]

/-- A row that is through is followed by the next one. -/
theorem after_row {i : Nat} (hi : i < old.length) :
    after rate old new (i + 1) 0 = after rate old new i new.length := by
  -- The rows ahead of the next one are those ahead of this one, and this one.
  have hrow : old.zipIdx[i]? = some (old[i], i) := by simp [hi]
  rw [after_zero_right, List.take_add_one, hrow]
  simp only [after, List.getElem?_eq_getElem hi, List.take_length, Option.toList_some,
    List.foldl_append, List.foldl_cons, List.foldl_nil]

/-- Behind the last row the scan is at its end. -/
theorem scan_eq_after : scan rate old new = after rate old new old.length 0 := by
  have hall : old.zipIdx.take old.length = old.zipIdx := List.take_of_length_le (by simp)
  rw [after_zero_right, hall]
  rfl

/-- A row has no cells beyond the new sequence. -/
theorem after_min (i j : Nat) :
    after rate old new i j = after rate old new i (min j new.length) := by
  simp only [after]
  rw [← List.take_length (l := new), List.take_take]
  simp

/-- There are no rows beyond the old sequence. -/
theorem after_of_length_le {i : Nat} (hi : old.length ≤ i) (j : Nat) :
    after rate old new i j = scan rate old new := by
  have hnone : old[i]? = none := List.getElem?_eq_none hi
  have hall : old.zipIdx.take i = old.zipIdx := List.take_of_length_le (by simpa using hi)
  simp only [after, hnone, hall, scan]

end Scan

/-- Induction over the scanned cells of `m` rows of `n` cells. -/
theorem scan_induction {m n : Nat} {P : Nat → Nat → Prop} (hstart : P 0 0)
    (hcell : ∀ i j, i < m → j < n → P i j → P i (j + 1))
    (hrow : ∀ i, i < m → P i n → P (i + 1) 0) :
    (∀ i j, i < m → j ≤ n → P i j) ∧ P m 0 := by
  -- Within a row, from its first cell on.
  have hcells : ∀ i, i < m → P i 0 → ∀ j, j ≤ n → P i j := by
    intro i hi hfirst j
    induction j with
    | zero => exact fun _ => hfirst
    | succ j ih => exact fun hj => hcell i j hi hj (ih (Nat.le_of_lt hj))
  -- From row to row, with the whole row between them.
  have hrows : ∀ i, i ≤ m → P i 0 := by
    intro i
    induction i with
    | zero => exact fun _ => hstart
    | succ i ih =>
      intro hi
      exact hrow i hi (hcells i hi (ih (Nat.le_of_lt hi)) n (Nat.le_refl n))
  exact ⟨fun i j hi => hcells i hi (hrows i (Nat.le_of_lt hi)) j, hrows m (Nat.le_refl m)⟩

section Invariant

variable [LT ρ] [DecidableLT ρ] {α β : Type} (rate : α → β → Option ρ) (old : List α)
  (new : List β)

/-- What holds of the empty table and is kept from cell to cell holds throughout the scan. -/
theorem after_induction {P : PairTable ρ → Prop} (hstart : P (empty old.length new.length))
    (hcell : ∀ i j, i < old.length → j < new.length →
      P (after rate old new i j) → P (after rate old new i (j + 1))) (i j : Nat) :
    P (after rate old new i j) := by
  have hscan := scan_induction (m := old.length) (n := new.length)
    (P := fun i j => P (after rate old new i j))
    (by rw [after_zero]; exact hstart) hcell
    (by intro i hi hlast; rw [after_row hi]; exact hlast)
  -- Positions outside the scan stand for its end.
  by_cases hi : i < old.length
  · rw [after_min]
    exact hscan.1 i _ hi (Nat.min_le_right ..)
  · rw [after_of_length_le (Nat.le_of_not_lt hi), scan_eq_after]
    exact hscan.2

/-- A scan keeps the table of the right size and its two sides inverse to each other. -/
theorem wellFormed_after (i j : Nat) :
    (after rate old new i j).byOld.size = old.length ∧
      (after rate old new i j).byNew.size = new.length ∧ (after rate old new i j).Inverse := by
  apply after_induction rate old new
    (P := fun t => t.byOld.size = old.length ∧ t.byNew.size = new.length ∧ t.Inverse)
  · exact ⟨size_byOld_empty _ _, size_byNew_empty _ _, inverse_empty _ _⟩
  · intro i j hi hj h
    obtain ⟨hold, hnew, hinv⟩ := h
    rw [after_succ hi hj, size_byOld_visit, size_byNew_visit]
    exact ⟨hold, hnew, inverse_visit hinv _ (by omega) (by omega)⟩

/-- The two sides of the table are inverse to each other after every scanned cell. -/
theorem inverse_after (i j : Nat) : (after rate old new i j).Inverse :=
  (wellFormed_after rate old new i j).2.2

@[simp] theorem size_byOld_after (i j : Nat) :
    (after rate old new i j).byOld.size = old.length :=
  (wellFormed_after rate old new i j).1

@[simp] theorem size_byNew_after (i j : Nat) :
    (after rate old new i j).byNew.size = new.length :=
  (wellFormed_after rate old new i j).2.1

variable {old new}

/-- What one more cell makes of the pairs: its rating replaces the pairs at its ends if it beats
    them. -/
theorem holds_after_succ {i j i' j' : Nat} {s : ρ} (hi : i < old.length) (hj : j < new.length) :
    (after rate old new i (j + 1)).Holds i' j' s ↔
      (i' = i ∧ j' = j ∧ rate old[i] new[j] = some s ∧ (after rate old new i j).Beats i j s) ∨
      ((after rate old new i j).Holds i' j' s ∧
        ∀ r, rate old[i] new[j] = some r → (after rate old new i j).Beats i j r →
          i' ≠ i ∧ j' ≠ j) := by
  rw [after_succ hi hj]
  apply holds_visit (inverse_after rate old new i j)
  rw [size_byOld_after]
  exact hi

/-- Every pair of the table carries the rating of its two elements. -/
theorem rate_of_holds_after {i j i' j' : Nat} {r : ρ}
    (h : (after rate old new i j).Holds i' j' r) :
    ∃ a b, old[i']? = some a ∧ new[j']? = some b ∧ rate a b = some r := by
  have hrated : ∀ i' j' r, (after rate old new i j).Holds i' j' r →
      ∃ a b, old[i']? = some a ∧ new[j']? = some b ∧ rate a b = some r := by
    apply after_induction rate old new (P := fun t => ∀ i' j' r, t.Holds i' j' r →
      ∃ a b, old[i']? = some a ∧ new[j']? = some b ∧ rate a b = some r)
    · intro i' j' r h
      rw [Holds, ofOld_empty] at h
      cases h
    · intro i j hi hj hrated i' j' r h
      -- A pair is rated in the cell that enters it, and keeps its rating from then on.
      rcases (holds_after_succ rate hi hj).mp h with ⟨rfl, rfl, hrate, -⟩ | ⟨h, -⟩
      · exact ⟨_, _, List.getElem?_eq_getElem hi, List.getElem?_eq_getElem hj, hrate⟩
      · exact hrated i' j' r h
  exact hrated i' j' r h

end Invariant

end LogDrift.PairTable
