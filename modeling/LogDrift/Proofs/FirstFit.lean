import Mathlib.Data.List.Basic
import LogDrift.Matching.Methods

/-!
# Joins by first fit

What a join by first fit has in its pairs and what it leaves over, for any condition of fit. The
pairs fit, and nothing that is left on one side fits anything left on the other. It does not matter
which side chooses: two pairs that compete for an element are in the same order on both sides.

If elements fit when they have the same key, the join is known in full: the elements of a key are
joined in order, until one side has no more of them.

## Key results

- `firstFit_fits`, `firstFit_residual`: pairs fit, leftovers do not
- `firstFit_swap`: a join made from the right is the join made from the left, swapped
- `filter_pairs_firstFit`: the pairs of a key join its elements in order
- `firstFit_leftovers_of_perm`: balanced keys leave nothing over
-/

namespace LogDrift

variable {α β κ : Type}

/-! ## One step of a join -/

/-- If the first element satisfies the condition, it is taken. -/
theorem takeFirst_cons_of_pos {p : α → Bool} {a : α} (h : p a = true) (as : List α) :
    takeFirst p (a :: as) = some (a, as) := by
  simp [takeFirst, h]

/-- If it does not, it stays in front of what is left. -/
theorem takeFirst_cons_of_neg {p : α → Bool} {a : α} (h : p a = false) (as : List α) :
    takeFirst p (a :: as) = (takeFirst p as).map fun r => (r.1, a :: r.2) := by
  simp [takeFirst, h]

/-- An element that something fits takes it, and the others join the rest. -/
theorem firstFit_cons_of_some {fits : α → β → Bool} {a : α} {b : β} {right rest : List β}
    (h : takeFirst (fits a) right = some (b, rest)) (left : List α) :
    firstFit fits (a :: left) right =
      ⟨(a, b) :: (firstFit fits left rest).pairs, (firstFit fits left rest).left,
        (firstFit fits left rest).right⟩ := by
  simp [firstFit, h]

/-- An element that nothing fits is left over, and the others join as if it were not there. -/
theorem firstFit_cons_of_none {fits : α → β → Bool} {a : α} {right : List β}
    (h : takeFirst (fits a) right = none) (left : List α) :
    firstFit fits (a :: left) right =
      ⟨(firstFit fits left right).pairs, a :: (firstFit fits left right).left,
        (firstFit fits left right).right⟩ := by
  simp [firstFit, h]

/-! ## Pairs fit, leftovers do not -/

/-- The elements of a pair fit. -/
theorem firstFit_fits (fits : α → β → Bool) (left : List α) (right : List β) :
    ∀ p ∈ (firstFit fits left right).pairs, fits p.1 p.2 = true := by
  induction left generalizing right with
  | nil => simp [firstFit]
  | cons a left ih =>
    simp only [firstFit]
    split
    · -- The new pair fits because of what is taken, the others by induction.
      rename_i b rest htake
      intro p hp
      rcases List.mem_cons.mp hp with rfl | hp
      · exact (takeFirst_eq_some htake).1
      · exact ih rest p hp
    · exact ih right

/-- What is left over on the left was there. -/
theorem mem_of_mem_firstFit_left {fits : α → β → Bool} {left : List α} {right : List β} {a : α}
    (h : a ∈ (firstFit fits left right).left) : a ∈ left :=
  (firstFit_left_perm fits left right).mem_iff.mp (List.mem_append_right _ h)

/-- What is left over on the right was there. -/
theorem mem_of_mem_firstFit_right {fits : α → β → Bool} {left : List α} {right : List β} {b : β}
    (h : b ∈ (firstFit fits left right).right) : b ∈ right :=
  (firstFit_right_perm fits left right).mem_iff.mp (List.mem_append_right _ h)

/-- Of what is left over, nothing fits anything. -/
theorem firstFit_residual (fits : α → β → Bool) (left : List α) (right : List β) :
    ∀ a ∈ (firstFit fits left right).left, ∀ b ∈ (firstFit fits left right).right,
      fits a b = false := by
  induction left generalizing right with
  | nil => simp [firstFit]
  | cons a left ih =>
    cases htake : takeFirst (fits a) right with
    | some taken =>
      rw [firstFit_cons_of_some htake]
      -- `a` is in a pair, so that nothing new is left over.
      exact ih taken.2
    | none =>
      rw [firstFit_cons_of_none htake]
      intro x hx b hb
      -- What is left on the right was there when `a` was tried.
      rcases List.mem_cons.mp hx with rfl | hx
      · exact takeFirst_eq_none_iff.mp htake b (mem_of_mem_firstFit_right hb)
      · exact ih right x hx b hb

/-- The elements of a class on the left are in a pair or left over. -/
theorem countP_firstFit_left (fits : α → β → Bool) (left : List α) (right : List β)
    (p : α → Bool) :
    (firstFit fits left right).pairs.countP (fun q => p q.1) +
      (firstFit fits left right).left.countP p = left.countP p := by
  have hcount := (firstFit_left_perm fits left right).countP_eq p
  rw [List.countP_append, List.countP_map] at hcount
  exact hcount

/-- And so on the right. -/
theorem countP_firstFit_right (fits : α → β → Bool) (left : List α) (right : List β)
    (p : β → Bool) :
    (firstFit fits left right).pairs.countP (fun q => p q.2) +
      (firstFit fits left right).right.countP p = right.countP p := by
  have hcount := (firstFit_right_perm fits left right).countP_eq p
  rw [List.countP_append, List.countP_map] at hcount
  exact hcount

/-! ## A join from the other side -/

/-- A join of two lists, read as one of the second list with the first. -/
def Join.swap (j : Join α β) : Join β α := ⟨j.pairs.map Prod.swap, j.right, j.left⟩

/-- Two joins with the same pairs and the same leftovers, whatever the order of the pairs. -/
structure Join.Same (j k : Join α β) : Prop where
  pairs : j.pairs.Perm k.pairs
  left : j.left = k.left
  right : j.right = k.right

/-- An element in front of the right side that fits none on the left stays over. -/
private theorem firstFit_cons_right_of_none (fits : α → β → Bool) {left : List α} {b : β}
    (h : ∀ a ∈ left, fits a b = false) (right : List β) :
    firstFit fits left (b :: right) =
      ⟨(firstFit fits left right).pairs, (firstFit fits left right).left,
        b :: (firstFit fits left right).right⟩ := by
  induction left generalizing right with
  | nil => rfl
  | cons a left ih =>
    have hb : fits a b = false := h a List.mem_cons_self
    have htail : ∀ x ∈ left, fits x b = false := fun x hx => h x (List.mem_cons_of_mem a hx)
    -- Whatever `a` takes or not, it passes over `b` first.
    have hskip := takeFirst_cons_of_neg hb right
    cases htake : takeFirst (fits a) right with
    | some taken =>
      rw [htake] at hskip
      rw [firstFit_cons_of_some hskip, firstFit_cons_of_some htake, ih htail]
    | none =>
      rw [htake] at hskip
      rw [firstFit_cons_of_none hskip, firstFit_cons_of_none htake, ih htail]

/-- An element in front of the right side goes to the first one on the left that it fits, and all
    else is as if neither were there. -/
private theorem firstFit_cons_right_of_some (fits : α → β → Bool) {left rest : List α} {a : α}
    {b : β} (h : takeFirst (fun a => fits a b) left = some (a, rest)) (right : List β) :
    (firstFit fits left (b :: right)).Same
      ⟨(a, b) :: (firstFit fits rest right).pairs, (firstFit fits rest right).left,
        (firstFit fits rest right).right⟩ := by
  induction left generalizing rest right with
  | nil => simp [takeFirst] at h
  | cons x left ih =>
    by_cases hx : fits x b = true
    · -- The first element on the left takes it.
      have hhead := takeFirst_cons_of_pos (p := fun a => fits a b) hx left
      rw [hhead, Option.some.injEq, Prod.mk.injEq] at h
      obtain ⟨rfl, rfl⟩ := h
      rw [firstFit_cons_of_some (takeFirst_cons_of_pos hx right)]
      exact ⟨List.Perm.refl _, rfl, rfl⟩
    · -- The first element passes it over and does what it does without it.
      have hb : fits x b = false := by simpa using hx
      have hbehind := takeFirst_cons_of_neg (p := fun a => fits a b) hb left
      rw [hbehind, Option.map_eq_some_iff] at h
      obtain ⟨⟨y, ys⟩, hy, heq⟩ := h
      obtain ⟨rfl, rfl⟩ := Prod.mk.inj heq
      have hskip := takeFirst_cons_of_neg hb right
      cases htake : takeFirst (fits x) right with
      | some taken =>
        rw [htake] at hskip
        rw [firstFit_cons_of_some hskip, firstFit_cons_of_some htake]
        have hrest := ih hy taken.2
        exact ⟨(hrest.pairs.cons _).trans (List.Perm.swap ..), hrest.left, hrest.right⟩
      | none =>
        rw [htake] at hskip
        rw [firstFit_cons_of_none hskip, firstFit_cons_of_none htake]
        have hrest := ih hy right
        exact ⟨hrest.pairs, congrArg (x :: ·) hrest.left, hrest.right⟩

/-- A join in which the right side chooses is the join in which the left side does, swapped. -/
theorem firstFit_swap (fits : α → β → Bool) (left : List α) (right : List β) :
    (firstFit (fun b a => fits a b) right left).Same (firstFit fits left right).swap := by
  -- One element on the left after the other: seen from the right, it is in front of the others.
  induction left generalizing right with
  | nil =>
    have hnone : firstFit (fun b a => fits a b) right ([] : List α) = ⟨[], right, []⟩ := by
      induction right with
      | nil => rfl
      | cons b right ih => rw [firstFit_cons_of_none rfl, ih]
    rw [hnone]
    exact ⟨List.Perm.refl _, rfl, rfl⟩
  | cons a left ih =>
    cases htake : takeFirst (fits a) right with
    | some taken =>
      -- From the right, the pair of `a` is made by the first element that `a` fits.
      have hfront := firstFit_cons_right_of_some (fun b a => fits a b) htake left
      have hrest := ih taken.2
      rw [firstFit_cons_of_some htake]
      exact ⟨hfront.pairs.trans (hrest.pairs.cons _), hfront.left.trans hrest.left,
        hfront.right.trans hrest.right⟩
    | none =>
      -- From the right, `a` is an element that fits nothing.
      rw [firstFit_cons_of_none htake, firstFit_cons_right_of_none (fun b a => fits a b)
        (takeFirst_eq_none_iff.mp htake)]
      have hrest := ih right
      exact ⟨hrest.pairs, hrest.left, congrArg (a :: ·) hrest.right⟩

/-! ## Joins by a key -/

section

variable {f : α → κ} {g : β → κ} {fits : α → β → Bool}
  (hfits : ∀ a b, fits a b = true ↔ f a = g b)

include hfits

/-- Where nothing fits an element, nothing has its key. -/
private theorem filter_key_eq_nil [DecidableEq κ] {a : α} {bs : List β}
    (h : ∀ b ∈ bs, fits a b = false) : bs.filter (fun b => g b = f a) = [] := by
  rw [List.filter_eq_nil_iff]
  intro b hb hkey
  have hfit := (hfits a b).mpr (of_decide_eq_true hkey).symm
  exact absurd (h b hb) (by simp [hfit])

/-- The pairs of a key join its elements in order. -/
theorem filter_pairs_firstFit [DecidableEq κ] (left : List α) (right : List β) (k : κ) :
    (firstFit fits left right).pairs.filter (fun p => f p.1 = k) =
      (left.filter fun a => f a = k).zip (right.filter fun b => g b = k) := by
  induction left generalizing right with
  | nil => simp [firstFit]
  | cons a left ih =>
    cases htake : takeFirst (fits a) right with
    | some taken =>
      obtain ⟨b, rest⟩ := taken
      rw [firstFit_cons_of_some htake, List.filter_cons, List.filter_cons, ih rest]
      obtain ⟨skipped, later, rfl, rfl, hfit, hskipped⟩ := takeFirst_eq_append htake
      have hkey : f a = g b := (hfits a b).mp hfit
      by_cases hk : f a = k
      · -- No element before `b` has the key of `a`.
        subst hk
        have hnone := filter_key_eq_nil hfits hskipped
        rw [List.filter_append, List.filter_append, hnone]
        simp [hkey]
      · -- Neither element has the key that is asked for.
        have hb : g b ≠ k := fun h => hk (hkey.trans h)
        simp [hk, hb]
    | none =>
      rw [firstFit_cons_of_none htake, ih right, List.filter_cons]
      by_cases hk : f a = k
      · subst hk
        rw [filter_key_eq_nil hfits (takeFirst_eq_none_iff.mp htake), List.zip_nil_right,
          List.zip_nil_right]
      · simp [hk]

/-- If every key occurs on both sides equally often, nothing is left over. -/
theorem firstFit_leftovers_of_perm {left : List α} {right : List β}
    (h : (left.map f).Perm (right.map g)) :
    (firstFit fits left right).left = [] ∧ (firstFit fits left right).right = [] := by
  -- The pairs have the same keys on both sides, and so do the leftovers.
  have hpairs : (firstFit fits left right).pairs.map (fun p => f p.1) =
      (firstFit fits left right).pairs.map (fun p => g p.2) :=
    List.map_congr_left fun p hp => (hfits p.1 p.2).mp (firstFit_fits fits left right p hp)
  have hleft := (firstFit_left_perm fits left right).map f
  have hright := (firstFit_right_perm fits left right).map g
  rw [List.map_append, List.map_map] at hleft hright
  have hall := (hleft.trans h).trans hright.symm
  rw [Function.comp_def, Function.comp_def, hpairs, List.perm_append_left_iff] at hall
  -- A leftover on the left has its key on the right too, so it would fit something there.
  have hnil : (firstFit fits left right).left = [] := by
    apply List.eq_nil_iff_forall_not_mem.mpr
    intro a ha
    obtain ⟨b, hb, hkey⟩ := List.mem_map.mp (hall.mem_iff.mp (List.mem_map_of_mem ha))
    have hfit := (hfits a b).mpr hkey.symm
    exact absurd (firstFit_residual fits left right a ha b hb) (by simp [hfit])
  refine ⟨hnil, ?_⟩
  rw [hnil, List.map_nil] at hall
  exact List.map_eq_nil_iff.mp hall.symm.eq_nil

end

end LogDrift
