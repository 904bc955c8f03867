import Mathlib.Data.List.Basic
import LogDrift.Matching.PairTable

/-! # The table of pairs stays one-to-one

The table keeps every pair twice, by old and by new position. `PairTable.Inverse` says that the two
sides agree; it is the invariant of the scan. Under it an offer has a short meaning (`holds_offer`):
a pair that beats every pair at its ends replaces them, any other changes nothing.

## Key results

- `inverse_offer`: an offer keeps the two sides inverse to each other
- `holds_offer`: which pairs a table holds after an offer
- `old_perm_range`, `Inverse.new_perm_range`: every position is in one pair or free, once
-/

namespace LogDrift.PairTable

variable {ρ : Type}

/-! ## Holding a pair -/

/-- The table holds a pair with a rating. -/
def Holds (t : PairTable ρ) (i j : Nat) (r : ρ) : Prop := t.ofOld i = some (j, r)

/-- The two sides of a table hold the same pairs. -/
def Inverse (t : PairTable ρ) : Prop := ∀ i j, t.ofNew j = some i ↔ ∃ r, t.Holds i j r

/-- An old position has one partner and one rating. -/
theorem Holds.unique {t : PairTable ρ} {i j j' : Nat} {r r' : ρ} (h : t.Holds i j r)
    (h' : t.Holds i j' r') : j' = j ∧ r' = r := by
  rw [Holds, h] at h'
  simp only [Option.some.injEq, Prod.mk.injEq] at h'
  exact ⟨h'.1.symm, h'.2.symm⟩

/-- In an inverse table a new position has one partner, too. -/
theorem Inverse.unique {t : PairTable ρ} (hinv : t.Inverse) {i i' j : Nat} {r r' : ρ}
    (h : t.Holds i j r) (h' : t.Holds i' j r') : i' = i := by
  -- Both pairs are found from their new end, which leads to one position only.
  have hi : t.ofNew j = some i := (hinv i j).mpr ⟨r, h⟩
  have hi' : t.ofNew j = some i' := (hinv i' j).mpr ⟨r', h'⟩
  rw [hi] at hi'
  exact (Option.some.inj hi').symm

/-- A held pair has its old end within the table. -/
theorem Holds.lt_size {t : PairTable ρ} {i j : Nat} {r : ρ} (h : t.Holds i j r) :
    i < t.byOld.size := by
  apply Classical.byContradiction
  intro hge
  have hnone : t.byOld[i]? = none := Array.getElem?_eq_none (Nat.le_of_not_lt hge)
  rw [Holds, ofOld, hnone] at h
  exact nomatch h

/-- In an inverse table it has its new end within the table, too. -/
theorem Inverse.lt_size {t : PairTable ρ} (hinv : t.Inverse) {i j : Nat} {r : ρ}
    (h : t.Holds i j r) : j < t.byNew.size := by
  apply Classical.byContradiction
  intro hge
  have hnone : t.byNew[j]? = none := Array.getElem?_eq_none (Nat.le_of_not_lt hge)
  have hj : t.ofNew j = some i := (hinv i j).mpr ⟨r, h⟩
  rw [ofNew, hnone] at hj
  exact nomatch hj

/-! ## The operations -/

/-- Writing a slot is read back there and nowhere else. -/
private theorem join_setIfInBounds {γ : Type} (slots : Array (Option γ)) (k i : Nat)
    (v : Option γ) :
    (slots.setIfInBounds k v)[i]?.join =
      if i = k ∧ k < slots.size then v else slots[i]?.join := by
  rw [Array.getElem?_setIfInBounds]
  by_cases hik : i = k
  · subst hik
    by_cases hlt : i < slots.size <;> simp [hlt]
  · simp [hik, Ne.symm hik]

/-- To empty a slot outside the table changes nothing, so no bound is asked for. -/
private theorem join_setIfInBounds_none {γ : Type} (slots : Array (Option γ)) (k i : Nat) :
    (slots.setIfInBounds k none)[i]?.join = if i = k then none else slots[i]?.join := by
  rw [join_setIfInBounds]
  by_cases hik : i = k
  · subst hik
    by_cases hlt : i < slots.size <;> simp [hlt]
  · simp [hik]

@[simp] theorem size_byOld_empty (m n : Nat) : (empty m n : PairTable ρ).byOld.size = m := by
  simp [empty]

@[simp] theorem size_byNew_empty (m n : Nat) : (empty m n : PairTable ρ).byNew.size = n := by
  simp [empty]

@[simp] theorem ofOld_empty (m n i : Nat) : (empty m n : PairTable ρ).ofOld i = none := by
  by_cases h : i < m <;> simp [empty, ofOld, h]

@[simp] theorem ofNew_empty (m n j : Nat) : (empty m n : PairTable ρ).ofNew j = none := by
  by_cases h : j < n <;> simp [empty, ofNew, h]

@[simp] theorem size_byOld_release (t : PairTable ρ) (i j : Nat) :
    (t.release i j).byOld.size = t.byOld.size := by
  simp only [release]
  split <;> simp

@[simp] theorem size_byNew_release (t : PairTable ρ) (i j : Nat) :
    (t.release i j).byNew.size = t.byNew.size := by
  simp only [release]
  split <;> simp

@[simp] theorem size_byOld_enter (t : PairTable ρ) (i j : Nat) (r : ρ) :
    (t.enter i j r).byOld.size = t.byOld.size := by
  simp [enter]

@[simp] theorem size_byNew_enter (t : PairTable ρ) (i j : Nat) (r : ρ) :
    (t.enter i j r).byNew.size = t.byNew.size := by
  simp [enter]

/-- A release empties the slot of the old end, and that of the partner of the new end. -/
theorem ofOld_release (t : PairTable ρ) (i j i' : Nat) :
    (t.release i j).ofOld i' = if i' = i ∨ t.ofNew j = some i' then none else t.ofOld i' := by
  simp only [ofOld, release]
  -- By what the new end leads to: only then is there a second slot to empty.
  cases hnew : t.ofNew j with
  | none => simp [join_setIfInBounds_none]
  | some holder =>
    simp only [join_setIfInBounds_none, Option.some.injEq, eq_comm (a := holder)]
    by_cases hi : i' = i <;> simp [hi]

/-- On the other side it empties the slot of the new end and that of the partner of the old end. -/
theorem ofNew_release (t : PairTable ρ) (i j j' : Nat) :
    (t.release i j).ofNew j' =
      if j' = j ∨ (t.ofOld i).map (·.1) = some j' then none else t.ofNew j' := by
  simp only [ofNew, release]
  cases hold : t.ofOld i with
  | none => simp [join_setIfInBounds_none]
  | some held =>
    simp only [join_setIfInBounds_none, Option.map_some, Option.some.injEq,
      eq_comm (a := held.1)]
    by_cases hj : j' = j <;> simp [hj]

/-- A pair that is entered is written into the slot of its old end. -/
theorem ofOld_enter {t : PairTable ρ} {i : Nat} (hi : i < t.byOld.size) (j : Nat) (r : ρ)
    (i' : Nat) : (t.enter i j r).ofOld i' = if i' = i then some (j, r) else t.ofOld i' := by
  simp [ofOld, enter, join_setIfInBounds, hi]

/-- On the other side it is written into the slot of its new end. -/
theorem ofNew_enter {t : PairTable ρ} {j : Nat} (hj : j < t.byNew.size) (i : Nat) (r : ρ)
    (j' : Nat) : (t.enter i j r).ofNew j' = if j' = j then some i else t.ofNew j' := by
  simp [ofNew, enter, join_setIfInBounds, hj]

theorem inverse_empty (m n : Nat) : (empty m n : PairTable ρ).Inverse := by
  intro i j
  simp [Holds]

/-- Releasing two ends takes the pairs at them out of an inverse table, and no other. -/
theorem holds_release {t : PairTable ρ} (hinv : t.Inverse) {i j i' j' : Nat} {s : ρ} :
    (t.release i j).Holds i' j' s ↔ i' ≠ i ∧ j' ≠ j ∧ t.Holds i' j' s := by
  rw [Holds, ofOld_release]
  constructor
  · intro h
    split at h
    · exact nomatch h
    · rename_i hkept
      obtain ⟨hi, hnew⟩ := not_or.mp hkept
      refine ⟨hi, ?_, h⟩
      -- The pair at the new end `j` would have had its old end cleared.
      intro hj
      rw [← hj] at hnew
      exact hnew ((hinv i' j').mpr ⟨s, h⟩)
  · intro h
    obtain ⟨hi, hj, h⟩ := h
    -- What `j` leads to is not `i'`, which leads to `j'`.
    have hnew : ¬ t.ofNew j = some i' := by
      intro hnew
      obtain ⟨s', h'⟩ := (hinv i' j).mp hnew
      exact hj (h.unique h').1.symm
    rw [if_neg (not_or.mpr ⟨hi, hnew⟩)]
    exact h

/-- Releasing two ends keeps a table inverse. -/
theorem inverse_release {t : PairTable ρ} (hinv : t.Inverse) (i j : Nat) :
    (t.release i j).Inverse := by
  intro i' j'
  simp only [holds_release hinv, exists_and_left, ← hinv i' j', ofNew_release]
  constructor
  · intro h
    split at h
    · exact nomatch h
    · rename_i hkept
      obtain ⟨hj, hold⟩ := not_or.mp hkept
      refine ⟨?_, hj, h⟩
      -- A pair at the old end would have had its new end cleared.
      intro hi
      obtain ⟨s, hs⟩ := (hinv i' j').mp h
      apply hold
      rw [← hi, hs]
      rfl
  · intro h
    obtain ⟨hi, hj, h⟩ := h
    -- A pair of `i` and `j'` would make `i` the partner of `j'`, but that is `i'`.
    have hold : ¬ (t.ofOld i).map (·.1) = some j' := by
      intro hold
      obtain ⟨⟨j₁, s⟩, hs, rfl⟩ := Option.map_eq_some_iff.mp hold
      have hnew : t.ofNew j₁ = some i := (hinv i j₁).mpr ⟨s, hs⟩
      rw [h] at hnew
      exact hi (Option.some.inj hnew)
    rw [if_neg (not_or.mpr ⟨hj, hold⟩)]
    exact h

/-- Entering a pair adds it in place of the pair at its old end. -/
theorem holds_enter {t : PairTable ρ} {i j i' j' : Nat} {r s : ρ} (hi : i < t.byOld.size) :
    (t.enter i j r).Holds i' j' s ↔
      i' = i ∧ j' = j ∧ s = r ∨ i' ≠ i ∧ t.Holds i' j' s := by
  rw [Holds, ofOld_enter hi]
  by_cases heq : i' = i
  · simp [heq, eq_comm]
  · simp [heq, Holds]

/-- Entering a pair with free ends keeps a table inverse. -/
theorem inverse_enter {t : PairTable ρ} (hinv : t.Inverse) {i j : Nat} (r : ρ)
    (hi : i < t.byOld.size) (hj : j < t.byNew.size) (hold : t.ofOld i = none)
    (hnew : t.ofNew j = none) : (t.enter i j r).Inverse := by
  intro i' j'
  simp only [holds_enter hi, ofNew_enter hj]
  by_cases heq : j' = j
  · subst heq
    simp only [if_true, Option.some.injEq, true_and]
    constructor
    · intro hii
      exact ⟨r, .inl ⟨hii.symm, rfl⟩⟩
    · intro h
      obtain ⟨s, ⟨hii, -⟩ | ⟨-, hs⟩⟩ := h
      · exact hii.symm
      · -- An older pair at `j` contradicts that `j` was free.
        have hheld := (hinv i' j').mpr ⟨s, hs⟩
        rw [hnew] at hheld
        exact nomatch hheld
  · simp only [heq, if_false, false_and, and_false, false_or, exists_and_left, ← hinv i' j']
    constructor
    · intro h
      refine ⟨?_, h⟩
      -- An older pair at `i` contradicts that `i` was free.
      intro hi'
      obtain ⟨s, hs⟩ := (hinv i' j').mp h
      rw [Holds, hi', hold] at hs
      exact nomatch hs
    · exact fun h => h.2

/-! ## Offers -/

section Offers

variable [LT ρ]

/-- A rating lies above every pair that the table holds at one of two ends. -/
def Beats (t : PairTable ρ) (i j : Nat) (r : ρ) : Prop :=
  ∀ i' j' s, t.Holds i' j' s → i' = i ∨ j' = j → s < r

variable [DecidableLT ρ]

/-- In an inverse table, an offer asks whether the pair beats those at its ends. -/
theorem beats_iff {t : PairTable ρ} (hinv : t.Inverse) (i j : Nat) (r : ρ) :
    ((t.ratioOfOld i).all (· < r) && (t.ratioOfNew j).all (· < r)) = true ↔ t.Beats i j r := by
  simp only [Bool.and_eq_true, Option.all_eq_true, decide_eq_true_eq, ratioOfNew, ratioOfOld,
    Option.bind_eq_some_iff, Option.map_eq_some_iff]
  constructor
  · intro h i' j' s hs hends
    obtain ⟨hold, hnew⟩ := h
    rcases hends with rfl | rfl
    · exact hold s ⟨(j', s), hs, rfl⟩
    · exact hnew s ⟨i', (hinv i' j').mpr ⟨s, hs⟩, (j', s), hs, rfl⟩
  · intro hbeats
    constructor
    · intro s h
      obtain ⟨⟨j', s⟩, hs, rfl⟩ := h
      exact hbeats i j' s hs (.inl rfl)
    · intro s h
      obtain ⟨i', hi', ⟨j', s⟩, hs, rfl⟩ := h
      -- The old end of the pair at `j` has no other new end than `j`.
      obtain ⟨s', hs'⟩ := (hinv i' j).mp hi'
      obtain ⟨rfl, rfl⟩ := hs'.unique hs
      exact hbeats i' _ _ hs (.inr rfl)

/-- A pair that beats those at its ends is taken. -/
theorem offer_of_beats {t : PairTable ρ} (hinv : t.Inverse) {i j : Nat} {r : ρ}
    (h : t.Beats i j r) : t.offer i j r = (t.release i j).enter i j r :=
  if_pos ((beats_iff hinv i j r).mpr h)

/-- A pair that does not beat those at its ends changes nothing. -/
theorem offer_of_not_beats {t : PairTable ρ} (hinv : t.Inverse) {i j : Nat} {r : ρ}
    (h : ¬ t.Beats i j r) : t.offer i j r = t :=
  if_neg fun hall => h ((beats_iff hinv i j r).mp hall)

@[simp] theorem size_byOld_offer (t : PairTable ρ) (i j : Nat) (r : ρ) :
    (t.offer i j r).byOld.size = t.byOld.size := by
  simp only [offer]
  split <;> simp

@[simp] theorem size_byNew_offer (t : PairTable ρ) (i j : Nat) (r : ρ) :
    (t.offer i j r).byNew.size = t.byNew.size := by
  simp only [offer]
  split <;> simp

/-- A pair that is taken replaces the pairs at its ends and leaves the others alone. -/
theorem holds_offer {t : PairTable ρ} (hinv : t.Inverse) {i j i' j' : Nat} {r s : ρ}
    (hi : i < t.byOld.size) (h : t.Beats i j r) :
    (t.offer i j r).Holds i' j' s ↔
      i' = i ∧ j' = j ∧ s = r ∨ i' ≠ i ∧ j' ≠ j ∧ t.Holds i' j' s := by
  have hsize : i < (t.release i j).byOld.size := by simpa using hi
  rw [offer_of_beats hinv h, holds_enter hsize, holds_release hinv]
  -- Entering says again that the pairs left have an old end other than `i`.
  constructor
  · intro h'
    rcases h' with hnew | ⟨-, hold⟩
    · exact .inl hnew
    · exact .inr hold
  · intro h'
    rcases h' with hnew | hold
    · exact .inl hnew
    · exact .inr ⟨hold.1, hold⟩

/-- An offer keeps the two sides inverse to each other. -/
theorem inverse_offer {t : PairTable ρ} (hinv : t.Inverse) {i j : Nat} (r : ρ)
    (hi : i < t.byOld.size) (hj : j < t.byNew.size) : (t.offer i j r).Inverse := by
  by_cases h : t.Beats i j r
  · rw [offer_of_beats hinv h]
    -- After the release both ends are free.
    apply inverse_enter (inverse_release hinv i j) r
    · simpa using hi
    · simpa using hj
    · simp [ofOld_release]
    · simp [ofNew_release]
  · rw [offer_of_not_beats hinv h]
    exact hinv

@[simp] theorem size_byOld_visit (t : PairTable ρ) (i j : Nat) (rating : Option ρ) :
    (t.visit i j rating).byOld.size = t.byOld.size := by
  cases rating <;> simp [visit]

@[simp] theorem size_byNew_visit (t : PairTable ρ) (i j : Nat) (rating : Option ρ) :
    (t.visit i j rating).byNew.size = t.byNew.size := by
  cases rating <;> simp [visit]

/-- A visit keeps the two sides inverse to each other, whether or not the cell is rated. -/
theorem inverse_visit {t : PairTable ρ} (hinv : t.Inverse) {i j : Nat} (rating : Option ρ)
    (hi : i < t.byOld.size) (hj : j < t.byNew.size) : (t.visit i j rating).Inverse := by
  cases rating with
  | none => exact hinv
  | some r => exact inverse_offer hinv r hi hj

/-- What a visit makes of the pairs: a rating that beats the pairs at its ends replaces them. -/
theorem holds_visit {t : PairTable ρ} (hinv : t.Inverse) {i j i' j' : Nat} {s : ρ}
    (rating : Option ρ) (hi : i < t.byOld.size) :
    (t.visit i j rating).Holds i' j' s ↔
      (i' = i ∧ j' = j ∧ rating = some s ∧ t.Beats i j s) ∨
      (t.Holds i' j' s ∧ ∀ r, rating = some r → t.Beats i j r → i' ≠ i ∧ j' ≠ j) := by
  cases rating with
  | none => simp [visit]
  | some r =>
    simp only [visit, Option.some.injEq]
    by_cases hbeats : t.Beats i j r
    · -- The pair is taken: what it beats goes, all else is kept.
      rw [holds_offer hinv hi hbeats]
      constructor
      · intro h
        rcases h with ⟨hi', hj', rfl⟩ | ⟨hi', hj', hs⟩
        · exact .inl ⟨hi', hj', rfl, hbeats⟩
        · exact .inr ⟨hs, fun _ _ _ => ⟨hi', hj'⟩⟩
      · intro h
        rcases h with ⟨hi', hj', rfl, -⟩ | ⟨hs, hkept⟩
        · exact .inl ⟨hi', hj', rfl⟩
        · obtain ⟨hi', hj'⟩ := hkept r rfl hbeats
          exact .inr ⟨hi', hj', hs⟩
    · -- The pair is refused, so there is no rating of the visit that beats anything.
      rw [offer_of_not_beats hinv hbeats]
      constructor
      · intro hs
        refine .inr ⟨hs, ?_⟩
        intro r' hr' hbeats'
        rw [← hr'] at hbeats'
        exact absurd hbeats' hbeats
      · intro h
        rcases h with ⟨-, -, rfl, hbeats'⟩ | ⟨hs, -⟩
        · exact absurd hbeats' hbeats
        · exact hs

end Offers

/-! ## The lists of a table -/

section Lists

/-- The slots that yield something, with their positions, are in the order of the positions. -/
theorem pairwise_filterMap_zipIdx {γ δ : Type} (slots : List γ) (f : γ × Nat → Option δ)
    (position : δ → Nat) (h : ∀ slot d, f slot = some d → position d = slot.2) :
    (slots.zipIdx.filterMap f).Pairwise (fun d e => position d < position e) := by
  rw [List.pairwise_filterMap]
  have hsorted : (slots.zipIdx.map Prod.snd).Pairwise (· < ·) := by
    rw [List.zipIdx_map_snd]
    exact List.pairwise_lt_range'
  apply (List.pairwise_map.mp hsorted).imp
  intro slot slot' hlt d hd e he
  rw [h slot d hd, h slot' e he]
  exact hlt

/-- Lists in the order of some positions are equal if they have the same elements. -/
theorem eq_of_mem_iff {γ : Type} (position : γ → Nat) {xs ys : List γ}
    (hxs : xs.Pairwise (fun x y => position x < position y))
    (hys : ys.Pairwise (fun x y => position x < position y)) (h : ∀ x, x ∈ xs ↔ x ∈ ys) :
    xs = ys := by
  -- In order means without repetition, so the lists are permutations of each other.
  have hne : ∀ x y, position x < position y → x ≠ y := by
    intro x y hlt heq
    rw [heq] at hlt
    exact Nat.lt_irrefl _ hlt
  have hperm : xs.Perm ys :=
    (List.perm_ext_iff_of_nodup (hxs.imp (hne _ _)) (hys.imp (hne _ _))).mpr h
  apply hperm.eq_of_pairwise _ hxs hys
  intro x y _ _ hxy hyx
  omega

/-- Two lists without repetition make up a range if every number of it is in one of them and no
    other number is in either. -/
private theorem perm_range_of_mem {xs ys : List Nat} {n : Nat} (hxs : xs.Nodup) (hys : ys.Nodup)
    (h : ∀ k, (k ∈ xs ∨ k ∈ ys ↔ k < n) ∧ ¬ (k ∈ xs ∧ k ∈ ys)) :
    (xs ++ ys).Perm (List.range n) := by
  have hdisjoint : ∀ k ∈ xs, ∀ l ∈ ys, k ≠ l := by
    intro k hk l hl heq
    rw [← heq] at hl
    exact (h k).2 ⟨hk, hl⟩
  have hnodup := List.nodup_append.mpr ⟨hxs, hys, hdisjoint⟩
  rw [List.perm_ext_iff_of_nodup hnodup List.nodup_range]
  intro k
  rw [List.mem_append, List.mem_range]
  exact (h k).1

/-- The positions that are listed as free are those of the empty slots. -/
private theorem mem_filterMap_isNone {γ : Type} {slots : Array (Option γ)} {i : Nat} :
    i ∈ slots.toList.zipIdx.filterMap
        (fun slot => if slot.1.isNone then some slot.2 else none) ↔
      i < slots.size ∧ slots[i]?.join = none := by
  simp only [List.mem_filterMap, Option.ite_none_right_eq_some, Option.some.injEq]
  -- The numbered slots are read off at their positions, in either direction.
  constructor
  · intro h
    obtain ⟨⟨slot, k⟩, hmem, hnone, rfl⟩ := h
    obtain ⟨hlt, rfl⟩ := List.getElem?_eq_some_iff.mp (List.mk_mem_zipIdx_iff_getElem?.mp hmem)
    have hsize : k < slots.size := by simpa using hlt
    refine ⟨hsize, ?_⟩
    simpa [hsize] using hnone
  · intro h
    obtain ⟨hlt, hnone⟩ := h
    refine ⟨(slots[i], i), ?_, ?_, rfl⟩
    · rw [List.mk_mem_zipIdx_iff_getElem?]
      simp [hlt]
    · simpa [hlt] using hnone

variable (t : PairTable ρ)

/-- The pairs of a table are those it holds. -/
theorem mem_pairs {p : RatedPair ρ} : p ∈ t.pairs ↔ t.Holds p.old p.new p.ratio := by
  simp only [pairs, List.mem_filterMap, Option.map_eq_some_iff]
  constructor
  · intro h
    -- A listed pair comes from a filled slot, and a filled slot is listed with its position.
    obtain ⟨⟨slot, k⟩, hmem, ⟨j, r⟩, rfl, rfl⟩ := h
    have hslot := List.mk_mem_zipIdx_iff_getElem?.mp hmem
    rw [Array.getElem?_toList] at hslot
    simp [Holds, ofOld, hslot]
  · intro h
    have hslot : t.byOld[p.old]? = some (some (p.new, p.ratio)) := Option.join_eq_some_iff.mp h
    refine ⟨(some (p.new, p.ratio), p.old), ?_, (p.new, p.ratio), rfl, rfl⟩
    rw [List.mk_mem_zipIdx_iff_getElem?, Array.getElem?_toList]
    exact hslot

/-- The pairs are listed by their old ends, in ascending order. -/
theorem pairwise_pairs : t.pairs.Pairwise (fun p q => p.old < q.old) := by
  apply pairwise_filterMap_zipIdx
  intro slot p hp
  obtain ⟨held, -, rfl⟩ := Option.map_eq_some_iff.mp hp
  rfl

/-- The free old positions are those that the old side of the table leads nowhere from. -/
theorem mem_freeOld {i : Nat} : i ∈ t.freeOld ↔ i < t.byOld.size ∧ t.ofOld i = none :=
  mem_filterMap_isNone

/-- The free new positions are those that the new side of the table leads nowhere from. -/
theorem mem_freeNew {j : Nat} : j ∈ t.freeNew ↔ j < t.byNew.size ∧ t.ofNew j = none :=
  mem_filterMap_isNone

/-- The free old positions are listed in ascending order. -/
theorem pairwise_freeOld : t.freeOld.Pairwise (· < ·) := by
  apply pairwise_filterMap_zipIdx _ _ id
  intro slot i hi
  simp only [Option.ite_none_right_eq_some, Option.some.injEq] at hi
  exact hi.2.symm

/-- The free new positions are listed in ascending order. -/
theorem pairwise_freeNew : t.freeNew.Pairwise (· < ·) := by
  apply pairwise_filterMap_zipIdx _ _ id
  intro slot j hj
  simp only [Option.ite_none_right_eq_some, Option.some.injEq] at hj
  exact hj.2.symm

/-- Every old position is in one pair or free, once. -/
theorem old_perm_range : (t.pairs.map (·.old) ++ t.freeOld).Perm (List.range t.byOld.size) := by
  have hpairs : (t.pairs.map (·.old)).Nodup :=
    (List.pairwise_map.mpr t.pairwise_pairs).imp Nat.ne_of_lt
  have hfree : t.freeOld.Nodup := t.pairwise_freeOld.imp Nat.ne_of_lt
  -- A position is in a pair if its slot is filled, and free if it is empty.
  have hmem (i : Nat) : i ∈ t.pairs.map (·.old) ↔ ∃ held, t.ofOld i = some held := by
    rw [List.mem_map]
    constructor
    · intro h
      obtain ⟨p, hp, rfl⟩ := h
      exact ⟨_, t.mem_pairs.mp hp⟩
    · intro h
      obtain ⟨held, hheld⟩ := h
      exact ⟨⟨i, held.1, held.2⟩, t.mem_pairs.mpr hheld, rfl⟩
  apply perm_range_of_mem hpairs hfree
  intro i
  rw [hmem, mem_freeOld]
  cases hheld : t.ofOld i with
  | none => simp
  | some held =>
    have hlt : i < t.byOld.size := Holds.lt_size hheld
    simp [hlt]

variable {t}

/-- In an inverse table every new position is in one pair or free, once. -/
theorem Inverse.new_perm_range (hinv : t.Inverse) :
    (t.pairs.map (·.new) ++ t.freeNew).Perm (List.range t.byNew.size) := by
  have hpairs : (t.pairs.map (·.new)).Nodup := by
    -- Two pairs with one new end have one old end, but the old ends ascend.
    apply List.pairwise_map.mpr
    apply t.pairwise_pairs.imp_of_mem
    intro p q hp hq hlt heq
    have hq' := t.mem_pairs.mp hq
    rw [← heq] at hq'
    have hold := hinv.unique (t.mem_pairs.mp hp) hq'
    omega
  have hfree : t.freeNew.Nodup := t.pairwise_freeNew.imp Nat.ne_of_lt
  -- A new position is in a pair if the new side of the table leads to an old one.
  have hmem (j : Nat) : j ∈ t.pairs.map (·.new) ↔ ∃ i, t.ofNew j = some i := by
    rw [List.mem_map]
    constructor
    · intro h
      obtain ⟨p, hp, rfl⟩ := h
      exact ⟨p.old, (hinv _ _).mpr ⟨p.ratio, t.mem_pairs.mp hp⟩⟩
    · intro h
      obtain ⟨i, hi⟩ := h
      obtain ⟨r, hr⟩ := (hinv i j).mp hi
      exact ⟨⟨i, j, r⟩, t.mem_pairs.mpr hr, rfl⟩
  apply perm_range_of_mem hpairs hfree
  intro j
  rw [hmem, mem_freeNew]
  cases hheld : t.ofNew j with
  | none => simp
  | some i =>
    obtain ⟨r, hr⟩ := (hinv i j).mp hheld
    have hlt : j < t.byNew.size := hinv.lt_size hr
    simp [hlt]

end Lists

end LogDrift.PairTable
