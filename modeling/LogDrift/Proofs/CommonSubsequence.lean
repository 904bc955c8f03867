import LogDrift.Proofs.Distance

/-! # The distance leaves out a longest common subsequence

Editing costs one for every element that is not part of a common subsequence, on either side: a
substitution is no cheaper than a deletion and an insertion. So the distance of two sequences and
twice the length of their longest common subsequence make up their lengths, and what holds of
common subsequences carries over to distances.

## Key results

- `longestCommon_exists`, `LongestCommon.length_eq`: `commonLength` is the length of the longest
  common subsequences
- `distance_add_commonLength`: the distance and the common elements make up both sequences
- `distance_measures_difference`: the triangle inequality, and what both ends share adds nothing
-/

namespace LogDrift.Text

variable {α : Type}

/-- A common subsequence of two sequences that is no shorter than any other. -/
structure LongestCommon (s a b : List α) : Prop where
  left : s.Sublist a
  right : s.Sublist b
  length_le : ∀ t : List α, t.Sublist a → t.Sublist b → t.length ≤ s.length

/-- Two subsequences of a sequence have at least those elements in common that do not fit beside
    each other. -/
private theorem exists_sublist_of_sublists {s t b : List α} (hs : s.Sublist b) (ht : t.Sublist b) :
    ∃ u : List α, u.Sublist s ∧ u.Sublist t ∧ s.length + t.length ≤ u.length + b.length := by
  induction hs generalizing t with
  | slnil =>
    have hempty : t = [] := List.sublist_nil.mp ht
    exact ⟨[], .slnil, List.nil_sublist t, by simp [hempty]⟩
  | @cons s b x hs ih =>
    cases ht with
    | cons _ ht =>
      obtain ⟨u, hus, hut, hlen⟩ := ih ht
      exact ⟨u, hus, hut, by rw [List.length_cons]; omega⟩
    | @cons_cons t _ _ ht =>
      obtain ⟨u, hus, hut, hlen⟩ := ih ht
      exact ⟨u, hus, hut.cons x, by rw [List.length_cons, List.length_cons]; omega⟩
  | @cons_cons s b x hs ih =>
    cases ht with
    | cons _ ht =>
      obtain ⟨u, hus, hut, hlen⟩ := ih ht
      exact ⟨u, hus.cons x, hut, by rw [List.length_cons, List.length_cons]; omega⟩
    | @cons_cons t _ _ ht =>
      -- Only here both subsequences take the element, and so does the common one.
      obtain ⟨u, hus, hut, hlen⟩ := ih ht
      refine ⟨x :: u, hus.cons_cons x, hut.cons_cons x, ?_⟩
      simp only [List.length_cons]
      omega

/-! ## The length of a longest common subsequence -/

variable [DecidableEq α]

@[simp] theorem commonLength_nil_left (b : List α) : commonLength [] b = 0 := by
  rw [commonLength]

@[simp] theorem commonLength_nil_right (a : List α) : commonLength a [] = 0 := by
  cases a <;> rw [commonLength]

/-- Equal first elements are common; of others, one is left out. -/
theorem commonLength_cons_cons (x y : α) (a b : List α) :
    commonLength (x :: a) (y :: b) =
      if x = y then commonLength a b + 1
      else max (commonLength a (y :: b)) (commonLength (x :: a) b) := by
  rw [commonLength]

/-- No common subsequence is longer than `commonLength`. -/
theorem length_le_commonLength {s a b : List α} (hleft : s.Sublist a) (hright : s.Sublist b) :
    s.length ≤ commonLength a b := by
  fun_induction commonLength a b generalizing s with
  | case1 b =>
    have hempty : s = [] := List.sublist_nil.mp hleft
    simp [hempty]
  | case2 x a =>
    have hempty : s = [] := List.sublist_nil.mp hright
    simp [hempty]
  | case3 a x b ih =>
    have htail := ih hleft.tail hright.tail
    rw [List.length_tail] at htail
    omega
  | case4 x a y b hne ihleft ihright =>
    -- The first element of `s` is not both `x` and `y`.
    rcases List.sublist_cons_iff.mp hleft with hskip | ⟨r, rfl, -⟩
    · have := ihleft hskip hright
      omega
    · rcases List.sublist_cons_iff.mp hright with hskip | ⟨r', heq, -⟩
      · have := ihright hleft hskip
        omega
      · exact absurd (List.cons.inj heq).1 hne

/-- There is a common subsequence of length `commonLength`. -/
theorem exists_length_eq_commonLength (a b : List α) :
    ∃ s : List α, s.Sublist a ∧ s.Sublist b ∧ s.length = commonLength a b := by
  fun_induction commonLength a b with
  | case1 b => exact ⟨[], .slnil, List.nil_sublist b, rfl⟩
  | case2 x a => exact ⟨[], List.nil_sublist _, .slnil, rfl⟩
  | case3 a x b ih =>
    obtain ⟨s, hleft, hright, hlen⟩ := ih
    exact ⟨x :: s, hleft.cons_cons x, hright.cons_cons x, by rw [List.length_cons, hlen]⟩
  | case4 x a y b hne ihleft ihright =>
    -- The longer one of the two is still common with the element that was left out.
    rcases Nat.le_total (commonLength a (y :: b)) (commonLength (x :: a) b) with hle | hle
    · obtain ⟨s, hleft, hright, hlen⟩ := ihright
      exact ⟨s, hleft, hright.cons y, by rw [hlen, Nat.max_eq_right hle]⟩
    · obtain ⟨s, hleft, hright, hlen⟩ := ihleft
      exact ⟨s, hleft.cons x, hright, by rw [hlen, Nat.max_eq_left hle]⟩

/-- Any two sequences have a longest common subsequence. -/
theorem longestCommon_exists (a b : List α) : ∃ s, LongestCommon s a b := by
  obtain ⟨s, hleft, hright, hlen⟩ := exists_length_eq_commonLength a b
  refine ⟨s, hleft, hright, ?_⟩
  intro t htleft htright
  rw [hlen]
  exact length_le_commonLength htleft htright

/-- All longest common subsequences have the length `commonLength`. -/
theorem LongestCommon.length_eq {s a b : List α} (h : LongestCommon s a b) :
    s.length = commonLength a b := by
  obtain ⟨t, htleft, htright, hlen⟩ := exists_length_eq_commonLength a b
  have hle := length_le_commonLength h.left h.right
  have hge := h.length_le t htleft htright
  omega

/-! ## What common subsequences tell about their lengths -/

/-- Nothing is common exactly if no element is. -/
theorem commonLength_eq_zero_iff {a b : List α} :
    commonLength a b = 0 ↔ ∀ x ∈ a, x ∉ b := by
  constructor
  · intro hzero x hxa hxb
    -- A common element is a common subsequence of length one.
    have hle := length_le_commonLength (List.singleton_sublist.mpr hxa)
      (List.singleton_sublist.mpr hxb)
    rw [hzero, List.length_singleton] at hle
    omega
  · intro hnone
    -- A longest common subsequence has no element.
    obtain ⟨s, hleft, hright, hlen⟩ := exists_length_eq_commonLength a b
    cases s with
    | nil => exact hlen.symm
    | cons x s =>
      exact absurd (hright.subset List.mem_cons_self) (hnone x (hleft.subset List.mem_cons_self))

/-- What two sequences have in common does not depend on their order. -/
theorem commonLength_comm (a b : List α) : commonLength a b = commonLength b a := by
  obtain ⟨s, hs⟩ := longestCommon_exists a b
  have hswap : LongestCommon s b a :=
    ⟨hs.right, hs.left, fun t htleft htright => hs.length_le t htright htleft⟩
  rw [← hs.length_eq, hswap.length_eq]

/-- Longer sequences have no less in common. -/
theorem commonLength_mono {a a' b b' : List α} (ha : a.Sublist a') (hb : b.Sublist b') :
    commonLength a b ≤ commonLength a' b' := by
  obtain ⟨s, hleft, hright, hlen⟩ := exists_length_eq_commonLength a b
  rw [← hlen]
  exact length_le_commonLength (hleft.trans ha) (hright.trans hb)

/-- Read from the back, two sequences have no less in common. -/
private theorem commonLength_le_reverse (a b : List α) :
    commonLength a b ≤ commonLength a.reverse b.reverse := by
  obtain ⟨s, hleft, hright, hlen⟩ := exists_length_eq_commonLength a b
  have hle := length_le_commonLength hleft.reverse hright.reverse
  rwa [List.length_reverse, hlen] at hle

/-- Nor have they more, as reading from the back twice is reading from the front. -/
@[simp] theorem commonLength_reverse (a b : List α) :
    commonLength a.reverse b.reverse = commonLength a b := by
  have hback := commonLength_le_reverse a.reverse b.reverse
  rw [List.reverse_reverse, List.reverse_reverse] at hback
  exact Nat.le_antisymm hback (commonLength_le_reverse a b)

/-- A common start is part of every longest common subsequence, up to its length. -/
theorem commonLength_append_left (p a b : List α) :
    commonLength (p ++ a) (p ++ b) = p.length + commonLength a b := by
  apply Nat.le_antisymm
  · -- Without its first elements, a common subsequence is one of what follows the start.
    obtain ⟨s, hleft, hright, hlen⟩ := exists_length_eq_commonLength (p ++ a) (p ++ b)
    have hdropleft := hleft.drop p.length
    have hdropright := hright.drop p.length
    rw [List.drop_left] at hdropleft hdropright
    have hle := length_le_commonLength hdropleft hdropright
    rw [List.length_drop] at hle
    omega
  · -- The start in front of a common subsequence is one.
    obtain ⟨s, hleft, hright, hlen⟩ := exists_length_eq_commonLength a b
    have hle := length_le_commonLength (hleft.append_left p) (hright.append_left p)
    rwa [List.length_append, hlen] at hle

/-- A common end is part of every longest common subsequence, too. -/
theorem commonLength_append_right (s a b : List α) :
    commonLength (a ++ s) (b ++ s) = commonLength a b + s.length := by
  rw [← commonLength_reverse, List.reverse_append, List.reverse_append, commonLength_append_left,
    List.length_reverse, commonLength_reverse, Nat.add_comm]

/-- What a sequence has in common with two others, these have in common, up to what of it does not
    fit beside each other. -/
theorem commonLength_triangle (a b c : List α) :
    commonLength a b + commonLength b c ≤ b.length + commonLength a c := by
  obtain ⟨s, hsa, hsb, hslen⟩ := exists_length_eq_commonLength a b
  obtain ⟨t, htb, htc, htlen⟩ := exists_length_eq_commonLength b c
  obtain ⟨u, hus, hut, hlen⟩ := exists_sublist_of_sublists hsb htb
  have hle := length_le_commonLength (hus.trans hsa) (hut.trans htc)
  omega

/-! ## The distance -/

/-- The edit cost and the common elements make up both sequences. -/
theorem editCost_add_commonLength (a b : List α) :
    editCost a b + 2 * commonLength a b = a.length + b.length := by
  fun_induction editCost a b with
  | case1 b => simp
  | case2 x a => simp
  | case3 x a y b ihboth ihleft ihright =>
    have hleft : commonLength a b ≤ commonLength a (y :: b) :=
      commonLength_mono (List.Sublist.refl a) (List.sublist_cons_self y b)
    have hright : commonLength a b ≤ commonLength (x :: a) b :=
      commonLength_mono (List.sublist_cons_self x a) (List.Sublist.refl b)
    rw [commonLength_cons_cons]
    simp only [List.length_cons] at *
    by_cases hxy : x = y
    · -- One more element on one side adds at most one to what is common.
      subst hxy
      have hcons := commonLength_append_left [x] a b
      have hleft' : commonLength a (x :: b) ≤ commonLength (x :: a) (x :: b) :=
        commonLength_mono (List.sublist_cons_self x a) (List.Sublist.refl _)
      have hright' : commonLength (x :: a) b ≤ commonLength (x :: a) (x :: b) :=
        commonLength_mono (List.Sublist.refl _) (List.sublist_cons_self x b)
      simp only [List.singleton_append, List.length_singleton] at hcons
      rw [if_pos rfl, if_pos rfl]
      omega
    · rw [if_neg hxy, if_neg hxy]
      omega

/-- The distance and the common elements make up both sequences. -/
theorem distance_add_commonLength (a b : List α) :
    distance a b + 2 * commonLength a b = a.length + b.length := by
  have hcost := editCost_add_commonLength a.reverse b.reverse
  rwa [commonLength_reverse, List.length_reverse, List.length_reverse,
    ← distance_eq_editCost] at hcost

/-- The distance is a measure of what differs: a detour over a third sequence is no shorter, and
    what two sequences share at the start and at the end adds nothing to it. -/
theorem distance_measures_difference (a b c : List α) :
    distance a c ≤ distance a b + distance b c ∧
    ∀ p s : List α, distance (p ++ a ++ s) (p ++ b ++ s) = distance a b := by
  -- Both facts are about common subsequences, by the sum of distance and common length.
  constructor
  · have hab := distance_add_commonLength a b
    have hbc := distance_add_commonLength b c
    have hac := distance_add_commonLength a c
    have hcommon := commonLength_triangle a b c
    omega
  · intro p s
    have hab := distance_add_commonLength a b
    have hall := distance_add_commonLength (p ++ a ++ s) (p ++ b ++ s)
    rw [commonLength_append_right, commonLength_append_left] at hall
    simp only [List.length_append] at hall
    omega

end LogDrift.Text
