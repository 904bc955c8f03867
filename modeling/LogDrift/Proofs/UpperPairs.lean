import LogDrift.Proofs.Acceptance

/-! # The higher pairs do not depend on the lower ones

A scan may be asked to pass over all ratings but the higher ones. It then ends with the higher
pairs of the full scan, although the lower ones have taken positions, moved and been released on
the way: a higher rating beats every lower one, and a lower one beats no higher one. So the higher
offers are left alone by the lower ones.

## Key results

- `leftAlone_of_isUpper`: the lower ratings leave the higher ones alone
- `pairs_scan_filter`: a scan of the higher ratings gives the higher pairs
-/

namespace LogDrift.PairTable

variable {ρ : Type} [LT ρ]

/-- A condition on ratings that divides them into higher and lower ones. -/
structure IsUpper (high : ρ → Bool) : Prop where
  /-- Every higher rating is above every lower one. -/
  lt_of_low : ∀ r s, high r = false → high s = true → r < s
  /-- What is above a higher rating is a higher one. -/
  high_of_lt : ∀ r s, high r = true → r < s → high s = true

/-- The lower ratings leave the higher ones alone. -/
theorem leftAlone_of_isUpper {high : ρ → Bool} (hhigh : IsUpper high) (ps : List (RatedPair ρ)) :
    LeftAlone (fun p => high p.ratio) ps := by
  intro p _ q _ hp hq _
  refine ⟨hhigh.lt_of_low q.ratio p.ratio hq hp, ?_⟩
  intro hlt
  have hhigher : high q.ratio = true := hhigh.high_of_lt p.ratio q.ratio hp hlt
  exact Bool.false_ne_true (hq.symm.trans hhigher)

variable [DecidableLT ρ] {α β : Type} {high : ρ → Bool}

/-- A scan of the higher ratings gives the higher pairs of the full scan. -/
theorem pairs_scan_filter (hhigh : IsUpper high) (rate : α → β → Option ρ) (old : List α)
    (new : List β) :
    (scan (fun a b => (rate a b).filter high) old new).pairs =
      (scan rate old new).pairs.filter fun p => high p.ratio := by
  apply eq_of_mem_iff (·.old) (pairwise_pairs _) ((pairwise_pairs _).filter _)
  intro p
  rw [List.mem_filter, mem_pairs_scan, mem_pairs_scan, offers_filter_rate,
    ← filter_accepted (leftAlone_of_isUpper hhigh _), List.mem_filter]

end LogDrift.PairTable
