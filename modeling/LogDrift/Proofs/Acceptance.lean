import Mathlib.Data.List.Flatten
import Mathlib.Data.List.Forall2
import Mathlib.Data.List.Induction
import LogDrift.Proofs.Scan

/-! # A scan as a row of offers

A scan offers the rated pairs in the order of their cells, and whether a pair is taken depends on
the pairs held at that time and not on where the table keeps them. `accepted` is the rule by
itself, on plain lists of pairs: a pair is taken if it is rated higher than all held pairs that it
meets, in place of these. Properties that compare two runs, or look at one offer in the middle of a
run, are proved for `accepted` and carried over to the scan.

## Key results

- `mem_pairs_scan`: a scan ends with the accepted ones of its offers
- `mem_accepted_of_best`: an offer that nothing before it holds off and nothing after it replaces
- `filter_accepted`: offers that the others leave alone are accepted as if they were alone
- `rel_accepted`: nothing but the ratings and who meets whom decides
-/

namespace LogDrift

variable {ρ : Type}

/-- Two pairs meet if they have an end in common. -/
def RatedPair.Meets (p q : RatedPair ρ) : Prop := p.old = q.old ∨ p.new = q.new

instance (p q : RatedPair ρ) : Decidable (p.Meets q) := inferInstanceAs (Decidable (_ ∨ _))

theorem RatedPair.Meets.symm {p q : RatedPair ρ} (h : p.Meets q) : q.Meets p :=
  h.imp Eq.symm Eq.symm

/-- The cell of `p` comes before the cell of `q` in the order of a scan. -/
def RatedPair.Precedes (p q : RatedPair ρ) : Prop :=
  p.old < q.old ∨ p.old = q.old ∧ p.new < q.new

instance (p q : RatedPair ρ) : Decidable (p.Precedes q) := inferInstanceAs (Decidable (_ ∨ _ ∧ _))

namespace PairTable

/-! ## Offers -/

section Offers

variable {α β : Type}

/-- The rated pairs of one old element with new ones, all of them with their positions. -/
def offersOfRow (rate : α → β → Option ρ) (columns : List (β × Nat)) (row : α × Nat) :
    List (RatedPair ρ) :=
  columns.filterMap fun column =>
    (rate row.1 column.1).map fun ratio => ⟨row.2, column.2, ratio⟩

/-- The rated pairs of old elements with new ones, row by row. -/
def offersOf (rate : α → β → Option ρ) (rows : List (α × Nat)) (columns : List (β × Nat)) :
    List (RatedPair ρ) :=
  rows.flatMap (offersOfRow rate columns)

/-- The rated pairs in the order in which a scan offers them. -/
def offers (rate : α → β → Option ρ) (old : List α) (new : List β) : List (RatedPair ρ) :=
  offersOf rate old.zipIdx new.zipIdx

/-- Every two elements of the rows and columns that have a rating are offered with it. -/
theorem mem_offersOf {rate : α → β → Option ρ} {rows : List (α × Nat)}
    {columns : List (β × Nat)} {p : RatedPair ρ} :
    p ∈ offersOf rate rows columns ↔
      ∃ a b, (a, p.old) ∈ rows ∧ (b, p.new) ∈ columns ∧ rate a b = some p.ratio := by
  simp only [offersOf, offersOfRow, List.mem_flatMap, List.mem_filterMap, Option.map_eq_some_iff]
  constructor
  · rintro ⟨⟨a, i⟩, ha, ⟨b, j⟩, hb, r, hrate, rfl⟩
    exact ⟨a, b, ha, hb, hrate⟩
  · rintro ⟨a, b, ha, hb, hrate⟩
    exact ⟨(a, p.old), ha, (b, p.new), hb, p.ratio, hrate, rfl⟩

/-- What is offered in a whole scan, by the positions in the two sequences. -/
theorem mem_offers {rate : α → β → Option ρ} {old : List α} {new : List β} {p : RatedPair ρ} :
    p ∈ offers rate old new ↔
      ∃ a b, old[p.old]? = some a ∧ new[p.new]? = some b ∧ rate a b = some p.ratio := by
  simp only [offers, mem_offersOf, List.mk_mem_zipIdx_iff_getElem?]

/-- Both ends of an offer lie within the two sequences. -/
theorem lt_length_of_mem_offers {rate : α → β → Option ρ} {old : List α} {new : List β}
    {p : RatedPair ρ} (h : p ∈ offers rate old new) : p.old < old.length ∧ p.new < new.length := by
  obtain ⟨a, b, ha, hb, -⟩ := mem_offers.mp h
  exact ⟨(List.getElem?_eq_some_iff.mp ha).1, (List.getElem?_eq_some_iff.mp hb).1⟩

/-- The positions of a list ascend. -/
theorem pairwise_snd_zipIdx {γ : Type} (xs : List γ) :
    xs.zipIdx.Pairwise fun x y => x.2 < y.2 := by
  have hsorted : (xs.zipIdx.map Prod.snd).Pairwise (· < ·) := by
    rw [List.zipIdx_map_snd]
    exact List.pairwise_lt_range'
  exact List.pairwise_map.mp hsorted

/-- Offers come in the order of their cells. -/
theorem pairwise_offers (rate : α → β → Option ρ) (old : List α) (new : List β) :
    (offers rate old new).Pairwise RatedPair.Precedes := by
  rw [offers, offersOf, List.pairwise_flatMap]
  constructor
  · -- Within a row the columns ascend.
    intro row _
    rw [offersOfRow, List.pairwise_filterMap]
    apply (pairwise_snd_zipIdx new).imp
    intro column column' hlt p hp q hq
    obtain ⟨r, -, rfl⟩ := Option.map_eq_some_iff.mp hp
    obtain ⟨s, -, rfl⟩ := Option.map_eq_some_iff.mp hq
    exact .inr ⟨rfl, hlt⟩
  · apply (pairwise_snd_zipIdx old).imp
    intro row row' hlt p hp q hq
    obtain ⟨column, -, hp⟩ := List.mem_filterMap.mp hp
    obtain ⟨column', -, hq⟩ := List.mem_filterMap.mp hq
    obtain ⟨r, -, rfl⟩ := Option.map_eq_some_iff.mp hp
    obtain ⟨s, -, rfl⟩ := Option.map_eq_some_iff.mp hq
    exact .inl hlt

/-- To rate only some of the pairs is to make only some of the offers. -/
theorem offers_filter_rate (rate : α → β → Option ρ) (high : ρ → Bool) (old : List α)
    (new : List β) :
    offers (fun a b => (rate a b).filter high) old new =
      (offers rate old new).filter fun p => high p.ratio := by
  rw [offers, offers, offersOf, offersOf, List.filter_flatMap]
  refine List.flatMap_congr fun row _ => ?_
  rw [offersOfRow, offersOfRow, List.filter_filterMap]
  refine List.filterMap_congr fun column _ => ?_
  cases rate row.1 column.1 with
  | none => rfl
  | some r => cases hr : high r <;> simp [Option.filter, hr]

end Offers

/-! ## Acceptance -/

section Acceptance

variable [LT ρ]

/-- A pair is rated higher than all held pairs that it meets. -/
def Takes (held : List (RatedPair ρ)) (p : RatedPair ρ) : Prop :=
  ∀ q ∈ held, p.Meets q → q.ratio < p.ratio

variable [DecidableLT ρ]

instance (held : List (RatedPair ρ)) (p : RatedPair ρ) : Decidable (Takes held p) :=
  inferInstanceAs (Decidable (∀ q ∈ held, p.Meets q → q.ratio < p.ratio))

/-- Takes an offered pair if it is rated higher than the held pairs that it meets, in place of
    these. -/
def accept (held : List (RatedPair ρ)) (p : RatedPair ρ) : List (RatedPair ρ) :=
  if Takes held p then p :: held.filter fun q => !decide (p.Meets q) else held

/-- The pairs that are held after a row of offers. -/
def accepted (ps : List (RatedPair ρ)) : List (RatedPair ρ) := ps.foldl accept []

/-- Behind a row of offers there is one more to take or to refuse. -/
theorem accepted_concat (ps : List (RatedPair ρ)) (p : RatedPair ρ) :
    accepted (ps ++ [p]) = accept (accepted ps) p := by
  simp only [accepted, List.foldl_append, List.foldl_cons, List.foldl_nil]

/-- What is held after an offer: the offer if it is taken, and what it does not replace. -/
theorem mem_accept {held : List (RatedPair ρ)} {p q : RatedPair ρ} :
    q ∈ accept held p ↔ q = p ∧ Takes held p ∨ q ∈ held ∧ (Takes held p → ¬ p.Meets q) := by
  by_cases htakes : Takes held p <;> simp [accept, htakes]

/-- No pair is held that was not offered. -/
theorem mem_of_mem_accepted {ps : List (RatedPair ρ)} {q : RatedPair ρ}
    (h : q ∈ accepted ps) : q ∈ ps := by
  induction ps using List.reverseRecOn with
  | nil => exact h
  | append_singleton ps p ih =>
    -- What is held after the last offer is that offer or was held before it.
    rw [accepted_concat, mem_accept] at h
    rcases h with ⟨rfl, -⟩ | ⟨h, -⟩
    · exact List.mem_append_right _ (List.mem_singleton_self q)
    · exact List.mem_append_left _ (ih h)

/-- A held pair stays if no offer that meets it is rated higher. -/
theorem mem_foldl_accept {held ps : List (RatedPair ρ)} {p : RatedPair ρ} (hp : p ∈ held)
    (hps : ∀ q ∈ ps, q.Meets p → ¬ p.ratio < q.ratio) : p ∈ ps.foldl accept held := by
  induction ps generalizing held with
  | nil => exact hp
  | cons q ps ih =>
    -- The next offer does not replace `p`: it is refused or does not meet it.
    refine ih ?_ fun q' hq' => hps q' (List.mem_cons_of_mem _ hq')
    refine mem_accept.mpr (.inr ⟨hp, fun htakes hmeets => ?_⟩)
    exact hps q List.mem_cons_self hmeets (htakes p hp hmeets)

/-- An offer is held in the end if it is rated higher than all that it meets before it, and no
    lower than all that it meets after it. -/
theorem mem_accepted_of_best {before after : List (RatedPair ρ)} {p : RatedPair ρ}
    (hbefore : ∀ q ∈ before, p.Meets q → q.ratio < p.ratio)
    (hafter : ∀ q ∈ after, q.Meets p → ¬ p.ratio < q.ratio) :
    p ∈ accepted (before ++ p :: after) := by
  rw [accepted, List.foldl_append, List.foldl_cons]
  -- Whatever is held when `p` is offered was offered before.
  have htaken : p ∈ accept (accepted before) p :=
    mem_accept.mpr (.inl ⟨rfl, fun q hq => hbefore q (mem_of_mem_accepted hq)⟩)
  exact mem_foldl_accept htaken hafter

/-- Some offers are left alone by the others: none of the others that meets one of them is rated as
    high as it. -/
def LeftAlone (mine : RatedPair ρ → Bool) (ps : List (RatedPair ρ)) : Prop :=
  ∀ p ∈ ps, ∀ q ∈ ps, mine p = true → mine q = false → p.Meets q →
    q.ratio < p.ratio ∧ ¬ p.ratio < q.ratio

/-- Offers that the others leave alone are accepted as if they were alone. -/
theorem filter_accepted {mine : RatedPair ρ → Bool} {ps : List (RatedPair ρ)}
    (h : LeftAlone mine ps) : (accepted ps).filter mine = accepted (ps.filter mine) := by
  induction ps using List.reverseRecOn with
  | nil => rfl
  | append_singleton ps p ih =>
    have hlast : p ∈ ps ++ [p] := List.mem_append_right _ (List.mem_singleton_self p)
    have hmem (q : RatedPair ρ) (hq : q ∈ accepted ps) : q ∈ ps ++ [p] :=
      List.mem_append_left _ (mem_of_mem_accepted hq)
    have hps : LeftAlone mine ps := fun q hq q' hq' =>
      h q (List.mem_append_left _ hq) q' (List.mem_append_left _ hq')
    rw [List.filter_append, accepted_concat]
    cases hp : mine p with
    | true =>
      -- The others at its ends are lower, so that only mine decide.
      have hiff : Takes (accepted ps) p ↔ Takes ((accepted ps).filter mine) p := by
        constructor
        · intro htakes q hq
          exact htakes q (List.mem_of_mem_filter hq)
        · intro htakes q hq hmeets
          cases hmine : mine q with
          | true => exact htakes q (List.mem_filter.mpr ⟨hq, hmine⟩) hmeets
          | false => exact (h p hlast q (hmem q hq) hp hmine hmeets).1
      rw [List.filter_singleton, hp, cond_true, accepted_concat, ← ih hps, accept, accept]
      by_cases htakes : Takes (accepted ps) p
      · rw [if_pos htakes, if_pos (hiff.mp htakes), List.filter_cons_of_pos hp,
          List.filter_filter, List.filter_filter]
        simp only [Bool.and_comm]
      · rw [if_neg htakes, if_neg (mt hiff.mpr htakes)]
    | false =>
      rw [List.filter_singleton, hp, cond_false, List.append_nil, ← ih hps, accept]
      split
      · -- It is taken, so that it meets none of mine.
        rename_i htakes
        rw [List.filter_cons_of_neg (by simp [hp]), List.filter_filter]
        apply List.filter_congr
        intro q hq
        cases hmine : mine q with
        | false => rfl
        | true =>
          have hapart : ¬ p.Meets q := fun hmeets =>
            (h q (hmem q hq) p hlast hmine hp hmeets.symm).2 (htakes q hq hmeets)
          simp [hapart]
      · rfl

section Relation

variable {R : RatedPair ρ → RatedPair ρ → Prop}
  (hmeets : ∀ p p' q q', R p p' → R q q' → (p.Meets q ↔ p'.Meets q'))
  (hratio : ∀ p p', R p p' → p.ratio = p'.ratio)

include hmeets hratio

omit [DecidableLT ρ] in
/-- Related pairs are taken among related held pairs. -/
private theorem takes_iff_of_rel {held held' : List (RatedPair ρ)} {p p' : RatedPair ρ}
    (hheld : List.Forall₂ R held held') (hp : R p p') : Takes held p ↔ Takes held' p' := by
  induction hheld with
  | nil => simp [Takes]
  | @cons q q' held held' hq _ ih =>
    unfold Takes at ih ⊢
    rw [List.forall_mem_cons, List.forall_mem_cons, ih, hmeets p p' q q' hp hq, hratio p p' hp,
      hratio q q' hq]

/-- What is held after related offers is related, too. -/
private theorem rel_accept {held held' : List (RatedPair ρ)} {p p' : RatedPair ρ}
    (hheld : List.Forall₂ R held held') (hp : R p p') :
    List.Forall₂ R (accept held p) (accept held' p') := by
  have htakes := takes_iff_of_rel hmeets hratio hheld hp
  by_cases htaken : Takes held p
  · rw [accept, accept, if_pos htaken, if_pos (htakes.mp htaken)]
    refine .cons hp (List.rel_filter (fun q q' hq => ?_) hheld)
    simp [hmeets p p' q q' hp hq]
  · rw [accept, accept, if_neg htaken, if_neg (mt htakes.mpr htaken)]
    exact hheld

/-- Nothing but the ratings and who meets whom decides about offers. -/
theorem rel_accepted {ps ps' : List (RatedPair ρ)} (h : List.Forall₂ R ps ps') :
    List.Forall₂ R (accepted ps) (accepted ps') := by
  have hfold : ∀ held held', List.Forall₂ R held held' →
      List.Forall₂ R (ps.foldl accept held) (ps'.foldl accept held') := by
    induction h with
    | nil => exact fun _ _ hheld => hheld
    | cons hp _ ih => exact fun _ _ hheld => ih _ _ (rel_accept hmeets hratio hheld hp)
  exact hfold [] [] .nil

end Relation

end Acceptance

/-! ## The table behind it -/

section Table

/-- A table for `m` old and `n` new positions, its two sides inverse to each other, that holds the
    pairs of a list. -/
structure Represents (t : PairTable ρ) (m n : Nat) (held : List (RatedPair ρ)) : Prop where
  size_old : t.byOld.size = m
  size_new : t.byNew.size = n
  inverse : t.Inverse
  holds_iff : ∀ q : RatedPair ρ, t.Holds q.old q.new q.ratio ↔ q ∈ held

/-- The empty table holds the pairs of the empty list. -/
theorem represents_empty (m n : Nat) : Represents (empty m n : PairTable ρ) m n [] where
  size_old := size_byOld_empty m n
  size_new := size_byNew_empty m n
  inverse := inverse_empty m n
  holds_iff q := by simp [Holds]

variable [LT ρ]

/-- To beat the pairs at its ends is to be rated higher than all held pairs that it meets. -/
theorem Represents.beats_iff {t : PairTable ρ} {m n : Nat} {held : List (RatedPair ρ)}
    (h : t.Represents m n held) (p : RatedPair ρ) :
    t.Beats p.old p.new p.ratio ↔ Takes held p := by
  constructor
  · intro hbeats q hq hmeets
    exact hbeats q.old q.new q.ratio ((h.holds_iff q).mpr hq) (hmeets.imp Eq.symm Eq.symm)
  · intro htakes i j r hr hends
    exact htakes ⟨i, j, r⟩ ((h.holds_iff ⟨i, j, r⟩).mp hr) (hends.imp Eq.symm Eq.symm)

variable [DecidableLT ρ]

/-- The table goes by the rule for lists. -/
theorem Represents.offer {t : PairTable ρ} {m n : Nat} {held : List (RatedPair ρ)}
    (h : t.Represents m n held) {p : RatedPair ρ} (hp : p.old < m ∧ p.new < n) :
    (t.offer p.old p.new p.ratio).Represents m n (accept held p) := by
  have hold : p.old < t.byOld.size := h.size_old ▸ hp.1
  have hnew : p.new < t.byNew.size := h.size_new ▸ hp.2
  refine ⟨?_, ?_, inverse_offer h.inverse p.ratio hold hnew, ?_⟩
  · rw [size_byOld_offer, h.size_old]
  · rw [size_byNew_offer, h.size_new]
  · intro q
    rw [mem_accept, ← h.beats_iff, ← h.holds_iff]
    -- Both sides decide alike, so that it is enough to compare what is left in each case.
    by_cases hbeats : t.Beats p.old p.new p.ratio
    · have heq : q = p ↔ q.old = p.old ∧ q.new = p.new ∧ q.ratio = p.ratio := by
        cases q
        cases p
        simp
      have hapart : ¬ p.Meets q ↔ q.old ≠ p.old ∧ q.new ≠ p.new := by
        rw [RatedPair.Meets, not_or, ne_comm, ne_comm (a := q.new)]
      rw [holds_offer h.inverse hold hbeats, heq, hapart, and_iff_left hbeats,
        forall_prop_of_true hbeats, and_comm (a := t.Holds q.old q.new q.ratio), and_assoc]
    · rw [offer_of_not_beats h.inverse hbeats]
      simp [hbeats]

variable {α β : Type}

/-- A scan makes its offers one after the other. -/
theorem scan_eq_foldl_offers (rate : α → β → Option ρ) (old : List α) (new : List β) :
    scan rate old new =
      (offers rate old new).foldl (fun t p => t.offer p.old p.new p.ratio)
        (empty old.length new.length) := by
  simp only [scan, offers, offersOf, List.foldl_flatMap]
  congr
  funext t row
  simp only [scanRow, offersOfRow, List.foldl_filterMap]
  congr
  funext t column
  cases rate row.1 column.1 <;> rfl

/-- The table at the end of a scan holds the accepted ones of its offers. -/
theorem represents_scan (rate : α → β → Option ρ) (old : List α) (new : List β) :
    (scan rate old new).Represents old.length new.length (accepted (offers rate old new)) := by
  -- Offer by offer, from the last one: the table after the others represents what they accept.
  have hfold : ∀ ps : List (RatedPair ρ), (∀ p ∈ ps, p.old < old.length ∧ p.new < new.length) →
      Represents (ps.foldl (fun t p => t.offer p.old p.new p.ratio)
        (empty old.length new.length)) old.length new.length (accepted ps) := by
    intro ps hps
    induction ps using List.reverseRecOn with
    | nil => exact represents_empty _ _
    | append_singleton ps p ih =>
      rw [accepted_concat, List.foldl_append, List.foldl_cons, List.foldl_nil]
      have hrest := ih fun q hq => hps q (List.mem_append_left _ hq)
      exact hrest.offer (hps p (List.mem_append_right _ (List.mem_singleton_self p)))
  rw [scan_eq_foldl_offers]
  exact hfold _ fun p hp => lt_length_of_mem_offers hp

/-- A scan ends with the accepted ones of its offers. -/
theorem mem_pairs_scan {rate : α → β → Option ρ} {old : List α} {new : List β}
    {p : RatedPair ρ} : p ∈ (scan rate old new).pairs ↔ p ∈ accepted (offers rate old new) := by
  rw [mem_pairs]
  exact (represents_scan rate old new).holds_iff p

end Table

end PairTable

end LogDrift
