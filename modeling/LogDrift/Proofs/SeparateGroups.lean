import LogDrift.Proofs.MutualBest

/-! # Groups of sites that have nothing in common

If the sites of both versions fall into groups and no pair across the groups is admitted, each group
is paired as if it were alone. The scan of the whole makes the offers of a group in the order in
which the scan of the group makes them, only at other places and with the offers of other groups in
between; those meet none of its pairs.

## Key results

- `map_placedAt_offers`: the offers of a part are those of the whole that lie in it
- `map_placedAt_pairs_scan`: a scan of a part gives the pairs of the whole that lie in it
- `matchCalls_keeps_groups_apart`: groups are paired independently, and so a site that is similar to
  nothing changes no pair
-/

namespace LogDrift

variable {ρ : Type}

/-! ## Parts of a sequence -/

/-- The elements at the positions of a group, with their positions. -/
def selectAt {α : Type} (group : Nat → Bool) (xs : List α) : List (α × Nat) :=
  xs.zipIdx.filter fun x => group x.2

/-- The elements at the positions of a group, in order. -/
def partOf {α : Type} (group : Nat → Bool) (xs : List α) : List α :=
  (selectAt group xs).map (·.1)

/-- The positions of a group in a sequence, in order: where the elements of the part stand. -/
def placesOf {α : Type} (group : Nat → Bool) (xs : List α) : List Nat :=
  (selectAt group xs).map (·.2)

private theorem pairwise_placesOf {α : Type} (group : Nat → Bool) (xs : List α) :
    (placesOf group xs).Pairwise (· < ·) :=
  List.pairwise_map.mpr ((PairTable.pairwise_snd_zipIdx xs).filter _)

private theorem nodup_placesOf {α : Type} (group : Nat → Bool) (xs : List α) :
    (placesOf group xs).Nodup :=
  (pairwise_placesOf group xs).imp Nat.ne_of_lt

/-- A pair of positions in a part, where it stands in the whole. -/
def RatedPair.placedAt (oldPlaces newPlaces : List Nat) (p : RatedPair ρ) :
    Option (RatedPair ρ) :=
  match oldPlaces[p.old]?, newPlaces[p.new]? with
  | some i, some j => some ⟨i, j, p.ratio⟩
  | _, _ => none

/-- A pair of a part stands where the places of its two positions are. -/
theorem placedAt_eq_some_iff {oldPlaces newPlaces : List Nat} {p q : RatedPair ρ} :
    p.placedAt oldPlaces newPlaces = some q ↔
      oldPlaces[p.old]? = some q.old ∧ newPlaces[p.new]? = some q.new ∧ p.ratio = q.ratio := by
  unfold RatedPair.placedAt
  cases q
  split
  · rename_i i j hi hj
    simp [hi, hj]
  · rename_i hnone
    simp only [reduceCtorEq, false_iff, not_and]
    intro hi hj
    exact absurd hj (hnone _ _ hi)

/-- Different places tell positions apart. -/
private theorem place_eq_iff {places : List Nat} (h : places.Nodup) {k l i j : Nat}
    (hk : places[k]? = some i) (hl : places[l]? = some j) : k = l ↔ i = j := by
  rw [← List.getElem?_inj (List.getElem?_eq_some_iff.mp hk).1 h, hk, hl, Option.some.injEq]

/-- Pairs meet in the part if they meet in the whole. -/
private theorem meets_iff_of_placedAt {oldPlaces newPlaces : List Nat} (hold : oldPlaces.Nodup)
    (hnew : newPlaces.Nodup) {p p' q q' : RatedPair ρ}
    (hp : p.placedAt oldPlaces newPlaces = some p')
    (hq : q.placedAt oldPlaces newPlaces = some q') : p.Meets q ↔ p'.Meets q' := by
  obtain ⟨hpold, hpnew, -⟩ := placedAt_eq_some_iff.mp hp
  obtain ⟨hqold, hqnew, -⟩ := placedAt_eq_some_iff.mp hq
  exact or_congr (place_eq_iff hold hpold hqold) (place_eq_iff hnew hpnew hqnew)

/-- Places keep the order of positions. -/
private theorem old_lt_of_placedAt {oldPlaces newPlaces : List Nat}
    (hold : oldPlaces.Pairwise (· < ·))
    {p p' q q' : RatedPair ρ} (hp : p.placedAt oldPlaces newPlaces = some p')
    (hq : q.placedAt oldPlaces newPlaces = some q') (hlt : p.old < q.old) : p'.old < q'.old := by
  obtain ⟨hi, hpold⟩ := List.getElem?_eq_some_iff.mp (placedAt_eq_some_iff.mp hp).1
  obtain ⟨hj, hqold⟩ := List.getElem?_eq_some_iff.mp (placedAt_eq_some_iff.mp hq).1
  rw [← hpold, ← hqold]
  exact List.pairwise_iff_getElem.mp hold p.old q.old hi hj hlt

namespace PairTable

/-! ## The offers of a part -/

section Offers

variable {α β : Type} (rate : α → β → Option ρ)

/-- The offers of a row are all made at its position. -/
private theorem filter_offersOfRow (group : Nat → Bool) (columns : List (β × Nat)) (row : α × Nat) :
    (offersOfRow rate columns row).filter (fun p => group p.old) =
      if group row.2 then offersOfRow rate columns row else [] := by
  have hold : ∀ p ∈ offersOfRow rate columns row, p.old = row.2 := by
    intro p hp
    obtain ⟨column, -, hcolumn⟩ := List.mem_filterMap.mp hp
    obtain ⟨ratio, -, rfl⟩ := Option.map_eq_some_iff.mp hcolumn
    rfl
  split
  · rename_i hrow
    exact List.filter_eq_self.mpr fun p hp => by rw [hold p hp, hrow]
  · rename_i hrow
    exact List.filter_eq_nil_iff.mpr fun p hp => by rw [hold p hp]; exact hrow

/-- Leaving out rows leaves out the offers in these rows. -/
private theorem offersOf_filter_rows (group : Nat → Bool) (rows : List (α × Nat))
    (columns : List (β × Nat)) :
    offersOf rate (rows.filter fun row => group row.2) columns =
      (offersOf rate rows columns).filter fun p => group p.old := by
  simp only [offersOf, List.filter_flatMap, filter_offersOfRow]
  induction rows with
  | nil => rfl
  | cons row rows ih => cases hrow : group row.2 <;> simp [hrow, ih]

/-- Leaving out columns leaves out the offers in these columns. -/
private theorem offersOf_filter_columns (group : Nat → Bool) (rows : List (α × Nat))
    (columns : List (β × Nat)) :
    offersOf rate rows (columns.filter fun column => group column.2) =
      (offersOf rate rows columns).filter fun p => group p.new := by
  rw [offersOf, offersOf, List.filter_flatMap]
  refine List.flatMap_congr fun row _ => ?_
  rw [offersOfRow, offersOfRow, List.filterMap_filter, List.filter_filterMap]
  refine List.filterMap_congr fun column _ => ?_
  cases hcolumn : group column.2 <;> cases rate row.1 column.1 <;> simp [Option.filter, hcolumn]

/-- Numbering rows and columns anew leaves every offer in its row and column. -/
private theorem map_placedAt_offersOf (rows : List (α × Nat)) (columns : List (β × Nat)) :
    (offers rate (rows.map (·.1)) (columns.map (·.1))).map
        (RatedPair.placedAt (rows.map (·.2)) (columns.map (·.2))) =
      (offersOf rate rows columns).map some := by
  -- Both sides go through the numbered rows and columns.
  conv_rhs => rw [← List.zipIdx_map_fst 0 rows, ← List.zipIdx_map_fst 0 columns]
  rw [offers, offersOf, offersOf, List.zipIdx_map (l := rows), List.zipIdx_map (l := columns),
    List.flatMap_map, List.flatMap_map, List.map_flatMap, List.map_flatMap]
  refine List.flatMap_congr fun row hrow => ?_
  rw [offersOfRow, offersOfRow, List.filterMap_map, List.filterMap_map, List.map_filterMap,
    List.map_filterMap]
  refine List.filterMap_congr fun column hcolumn => ?_
  have hi : (rows.map (·.2))[row.2]? = some row.1.2 := by
    rw [List.getElem?_map, List.mk_mem_zipIdx_iff_getElem?.mp hrow, Option.map_some]
  have hj : (columns.map (·.2))[column.2]? = some column.1.2 := by
    rw [List.getElem?_map, List.mk_mem_zipIdx_iff_getElem?.mp hcolumn, Option.map_some]
  cases hrate : rate row.1.1 column.1.1 with
  | none => simp [hrate]
  | some ratio => simp [hrate, RatedPair.placedAt, hi, hj]

variable {rate} {old : List α} {new : List β} {oldGroup newGroup : Nat → Bool}

/-- The offers of a part are those of the whole that lie in it. -/
theorem map_placedAt_offers
    (hapart : ∀ p ∈ offers rate old new, oldGroup p.old = newGroup p.new) :
    (offers rate (partOf oldGroup old) (partOf newGroup new)).map
        (RatedPair.placedAt (placesOf oldGroup old) (placesOf newGroup new)) =
      ((offers rate old new).filter fun p => oldGroup p.old).map some := by
  rw [partOf, partOf, placesOf, placesOf, map_placedAt_offersOf, selectAt, selectAt,
    offersOf_filter_rows, offersOf_filter_columns, List.filter_filter]
  congr 1
  -- An offer in a row of the group is in a column of it as well.
  refine List.filter_congr fun p hp => ?_
  rw [← hapart p hp, Bool.and_self]

end Offers

/-! ## The pairs of a part -/

section Pairs

variable [LT ρ] {α β : Type} {rate : α → β → Option ρ} {old : List α} {new : List β}
  {oldGroup newGroup : Nat → Bool}

/-- The offers of other groups meet none of a group's. -/
private theorem leftAlone_of_apart
    (hapart : ∀ p ∈ offers rate old new, oldGroup p.old = newGroup p.new) :
    LeftAlone (fun p => oldGroup p.old) (offers rate old new) := by
  intro p hp q hq hmine hother hmeets
  have hsame : oldGroup p.old = oldGroup q.old := by
    rcases hmeets with hold | hnew
    · rw [hold]
    · rw [hapart p hp, hapart q hq, hnew]
  exact absurd (hmine.symm.trans (hsame.trans hother)) (by decide)

variable [DecidableLT ρ]

/-- If no rated pair crosses the groups, the offers accepted in a part are those accepted in the
    whole that lie in it. -/
private theorem map_placedAt_accepted
    (hapart : ∀ p ∈ offers rate old new, oldGroup p.old = newGroup p.new) :
    (accepted (offers rate (partOf oldGroup old) (partOf newGroup new))).map
        (RatedPair.placedAt (placesOf oldGroup old) (placesOf newGroup new)) =
      ((accepted (offers rate old new)).filter fun p => oldGroup p.old).map some := by
  rw [filter_accepted (leftAlone_of_apart hapart)]
  have hoffers := map_placedAt_offers hapart
  -- Acceptance only looks at which offers meet and at their ratios, and both are the same in the
  -- part.
  rw [← List.forall₂_eq_eq_eq, List.forall₂_map_left_iff, List.forall₂_map_right_iff] at hoffers ⊢
  refine rel_accepted ?_ ?_ hoffers
  · intro p p' q q' hp hq
    exact meets_iff_of_placedAt (nodup_placesOf _ _) (nodup_placesOf _ _) hp hq
  · intro p p' hp
    exact (placedAt_eq_some_iff.mp hp).2.2

/-- If no rated pair crosses the groups, a scan of a part gives the pairs of the whole that lie in
    it. -/
theorem map_placedAt_pairs_scan
    (hapart : ∀ p ∈ offers rate old new, oldGroup p.old = newGroup p.new) :
    (scan rate (partOf oldGroup old) (partOf newGroup new)).pairs.map
        (RatedPair.placedAt (placesOf oldGroup old) (placesOf newGroup new)) =
      ((scan rate old new).pairs.filter fun p => oldGroup p.old).map some := by
  have haccepted := map_placedAt_accepted hapart
  -- Both lists are in the order of the old places, so that it is enough to compare their elements.
  apply eq_of_mem_iff fun o => (o.map (·.old)).getD 0
  · rw [List.pairwise_map]
    apply (pairwise_pairs _).imp_of_mem
    intro p q hp hq hlt
    have hplaced : ∀ q ∈ (scan rate (partOf oldGroup old) (partOf newGroup new)).pairs,
        ∃ q', q.placedAt (placesOf oldGroup old) (placesOf newGroup new) = some q' := by
      intro q hq
      have hmem := List.mem_map_of_mem (mem_pairs_scan.mp hq)
        (f := RatedPair.placedAt (placesOf oldGroup old) (placesOf newGroup new))
      rw [haccepted] at hmem
      obtain ⟨q', -, hq'⟩ := List.mem_map.mp hmem
      exact ⟨q', hq'.symm⟩
    obtain ⟨p', hp'⟩ := hplaced p hp
    obtain ⟨q', hq'⟩ := hplaced q hq
    rw [hp', hq']
    exact old_lt_of_placedAt (pairwise_placesOf _ _) hp' hq' hlt
  · rw [List.pairwise_map]
    exact (pairwise_pairs _).filter _
  · intro o
    have hmem := congrArg (o ∈ ·) haccepted
    simp only [List.mem_map, List.mem_filter, mem_pairs_scan] at hmem ⊢
    exact iff_of_eq hmem

/-- A scan whose offers all lie in a part has the pairs of the part, at their places. -/
theorem pairs_scan_of_part {part : List α} {part' : List β} {place place' : Nat → Nat}
    (hold : selectAt oldGroup old = part.zipIdx.map fun x => (x.1, place x.2))
    (hnew : selectAt newGroup new = part'.zipIdx.map fun x => (x.1, place' x.2))
    (hall : ∀ p ∈ offers rate old new, oldGroup p.old = true ∧ newGroup p.new = true) :
    (scan rate old new).pairs =
      (scan rate part part').pairs.map fun p => ⟨place p.old, place' p.new, p.ratio⟩ := by
  have hpart : partOf oldGroup old = part := by
    rw [partOf, hold, List.map_map]
    exact List.zipIdx_map_fst 0 part
  have hpart' : partOf newGroup new = part' := by
    rw [partOf, hnew, List.map_map]
    exact List.zipIdx_map_fst 0 part'
  have hplaces := map_placedAt_pairs_scan fun p hp => (hall p hp).1.trans (hall p hp).2.symm
  -- No pair lies outside of the part.
  rw [hpart, hpart', List.filter_eq_self.mpr fun p hp =>
    (hall p (mem_of_mem_accepted (mem_pairs_scan.mp hp))).1] at hplaces
  apply List.map_injective_iff.mpr fun _ _ => Option.some.inj
  rw [← hplaces, List.map_map]
  refine List.map_congr_left fun p hp => ?_
  obtain ⟨hi, hj⟩ := lt_length_of_mem_offers (mem_of_mem_accepted (mem_pairs_scan.mp hp))
  refine placedAt_eq_some_iff.mpr ⟨?_, ?_, rfl⟩
  · rw [placesOf, hold]
    simp [hi]
  · rw [placesOf, hnew]
    simp [hj]

end Pairs

/-! ## One more element -/

/-- Where the element at a position stands after one more has been inserted at `k`. -/
def afterInsertion (k i : Nat) : Nat := if i < k then i else i + 1

/-- The elements but the inserted one are those from before, at their new places. -/
theorem selectAt_insertIdx {γ : Type} (xs : List γ) (k : Nat) (x : γ) :
    selectAt (fun i => decide (i ≠ k)) (xs.insertIdx k x) =
      xs.zipIdx.map fun y => (y.1, afterInsertion k y.2) := by
  -- The induction moves the start of the numbering along.
  have hfrom : ∀ (start k : Nat), ((xs.insertIdx k x).zipIdx start).filter
      (fun y => decide (y.2 ≠ start + k)) =
        (xs.zipIdx start).map fun y => (y.1, afterInsertion (start + k) y.2) := by
    induction xs with
    | nil =>
      intro start k
      cases k <;> simp
    | cons a xs ih =>
      intro start k
      cases k with
      | zero =>
        -- All elements stand behind the inserted one.
        rw [List.insertIdx_zero, List.zipIdx_cons, List.filter_cons_of_neg (by simp),
          List.filter_eq_self.mpr, List.zipIdx_succ]
        · refine List.map_congr_left fun y hy => ?_
          have hbehind : ¬ y.2 < start := Nat.not_lt.mpr (List.le_snd_of_mem_zipIdx hy)
          simp [afterInsertion, hbehind]
        · intro y hy
          have hbehind : y.2 ≠ start := Nat.ne_of_gt (List.le_snd_of_mem_zipIdx hy)
          simp [hbehind]
      | succ k =>
        have hplace : start + 1 + k = start + (k + 1) := by omega
        have hrest := ih (start + 1) k
        rw [hplace] at hrest
        rw [List.insertIdx_succ_cons, List.zipIdx_cons, List.zipIdx_cons, List.map_cons,
          List.filter_cons_of_pos (by simp), hrest]
        simp [afterInsertion]
  have h := hfrom 0 k
  rw [Nat.zero_add] at h
  exact h

/-- Every element stands in the part of all positions, at its place. -/
theorem selectAt_true {γ : Type} (xs : List γ) :
    selectAt (fun _ => true) xs = xs.zipIdx.map fun y => (y.1, id y.2) := by
  rw [selectAt, List.filter_true]
  exact (List.map_id _).symm

section Insertion

variable [LT ρ] [DecidableLT ρ] {α β : Type} {rate : α → β → Option ρ} (old : List α)
  (new : List β)

/-- An old element that is rated with nothing changes no pair. -/
theorem pairs_scan_insertIdx_left (k : Nat) {a : α} (ha : ∀ b ∈ new, rate a b = none) :
    (scan rate (old.insertIdx k a) new).pairs =
      (scan rate old new).pairs.map fun p => ⟨afterInsertion k p.old, p.new, p.ratio⟩ := by
  refine pairs_scan_of_part (selectAt_insertIdx old k a) (selectAt_true new) fun p hp => ⟨?_, rfl⟩
  obtain ⟨a', b, ha', hb, hrate⟩ := mem_offers.mp hp
  -- No offer is in the row of the inserted element.
  apply decide_eq_true
  intro hk
  rw [hk, List.getElem?_insertIdx_self, Option.ite_none_right_eq_some] at ha'
  rw [← Option.some.inj ha'.2, ha b (List.mem_of_getElem? hb)] at hrate
  exact nomatch hrate

/-- A new element that is rated with nothing changes no pair. -/
theorem pairs_scan_insertIdx_right (k : Nat) {b : β} (hb : ∀ a ∈ old, rate a b = none) :
    (scan rate old (new.insertIdx k b)).pairs =
      (scan rate old new).pairs.map fun p => ⟨p.old, afterInsertion k p.new, p.ratio⟩ := by
  refine pairs_scan_of_part (selectAt_true old) (selectAt_insertIdx new k b) fun p hp => ⟨rfl, ?_⟩
  obtain ⟨a, b', ha, hb', hrate⟩ := mem_offers.mp hp
  -- No offer is in the column of the inserted element.
  apply decide_eq_true
  intro hk
  rw [hk, List.getElem?_insertIdx_self, Option.ite_none_right_eq_some] at hb'
  rw [← Option.some.inj hb'.2, hb a (List.mem_of_getElem? ha)] at hrate
  exact nomatch hrate

end Insertion

end PairTable

/-! ## Groups of sites -/

open Text (Similarity)

/-- The pairs that a matching of one group of old and one of new sites makes, where they stand among
    all sites. -/
def pairsOfGroup (admits : Similarity → Bool) (old new : List CallSite)
    (oldGroup newGroup : Nat → Bool) : List (Option (RatedPair Similarity)) :=
  (matchCalls admits (partOf oldGroup old) (partOf newGroup new)).pairs.map
    (RatedPair.placedAt (placesOf oldGroup old) (placesOf newGroup new))

/-- A group is paired as if it were alone. -/
theorem pairsOfGroup_eq {admits : Similarity → Bool} {old new : List CallSite}
    {oldGroup newGroup : Nat → Bool}
    (hapart : ∀ p, IsCandidate admits old new p → oldGroup p.old = newGroup p.new) :
    pairsOfGroup admits old new oldGroup newGroup =
      ((matchCalls admits old new).pairs.filter fun p => oldGroup p.old).map some :=
  PairTable.map_placedAt_pairs_scan fun p hp => hapart p (isCandidate_iff_mem_offers.mpr hp)

/-- At every threshold, groups of sites with no candidate pair across them are paired independently:
    the pairs of the whole are those of the one group and those of the other, where they stand in
    the whole. So a site that is similar to nothing changes no pair, wherever it is inserted on
    either side. -/
theorem matchCalls_keeps_groups_apart (threshold : Float) (old new : List CallSite) :
    (∀ oldGroup newGroup : Nat → Bool,
      (∀ p, IsCandidate (exceeds threshold) old new p → oldGroup p.old = newGroup p.new) →
      ((matchCalls (exceeds threshold) old new).pairs.map some).Perm
        (pairsOfGroup (exceeds threshold) old new oldGroup newGroup ++
          pairsOfGroup (exceeds threshold) old new (fun i => !oldGroup i)
            (fun j => !newGroup j))) ∧
    (∀ (k : Nat) (site : CallSite),
      (∀ b ∈ new, exceeds threshold (Similarity.ofTexts site.text b.text) = false) →
      (matchCalls (exceeds threshold) (old.insertIdx k site) new).pairs =
        (matchCalls (exceeds threshold) old new).pairs.map fun p =>
          ⟨PairTable.afterInsertion k p.old, p.new, p.ratio⟩) ∧
    ∀ (k : Nat) (site : CallSite),
      (∀ a ∈ old, exceeds threshold (Similarity.ofTexts a.text site.text) = false) →
      (matchCalls (exceeds threshold) old (new.insertIdx k site)).pairs =
        (matchCalls (exceeds threshold) old new).pairs.map fun p =>
          ⟨p.old, PairTable.afterInsertion k p.new, p.ratio⟩ := by
  have hnone {a b : CallSite}
      (h : exceeds threshold (Similarity.ofTexts a.text b.text) = false) :
      rateSites (exceeds threshold) a b = none := by
    simp [rateSites, h]
  refine ⟨?_, ?_, ?_⟩
  · intro oldGroup newGroup hapart
    -- What is outside of a group is a group as well, and no pair crosses it.
    have hother (p : RatedPair Similarity) (hp : IsCandidate (exceeds threshold) old new p) :
        (!oldGroup p.old) = !newGroup p.new := congrArg (!·) (hapart p hp)
    rw [pairsOfGroup_eq hapart, pairsOfGroup_eq hother, ← List.map_append]
    exact (List.filter_append_perm _ _).symm.map some
  · intro k site hsite
    exact PairTable.pairs_scan_insertIdx_left old new k fun b hb => hnone (hsite b hb)
  · intro k site hsite
    exact PairTable.pairs_scan_insertIdx_right old new k fun a ha => hnone (hsite a ha)

/-- Two kinds of sites, mixed in one way in one version. -/
def mixedOld : List CallSite := sitesOfTexts ["aaaa", "bbbb", "aaab"]

/-- The same kinds, mixed in another way. -/
def mixedNew : List CallSite := sitesOfTexts ["bbbc", "aaab", "aaaa"]

/-- A site of neither kind. -/
def strangeSite : CallSite := ⟨"info", "info", "zzzz", "zzzz", []⟩

/-- The two kinds are paired apart, and a site of neither kind in the middle changes nothing. -/
theorem matchCalls_keeps_groups_apart_of_mixed :
    (∀ p, IsCandidate (exceeds 0.5) mixedOld mixedNew p → (p.old != 1) = (p.new != 0)) ∧
    (∀ b ∈ mixedNew, exceeds 0.5 (Similarity.ofTexts strangeSite.text b.text) = false) ∧
    (∀ a ∈ mixedOld, exceeds 0.5 (Similarity.ofTexts a.text strangeSite.text) = false) ∧
    (matchCalls (exceeds 0.5) mixedOld mixedNew).pairs.length = 3 ∧
    ((matchCalls (exceeds 0.5) mixedOld mixedNew).pairs.map some).Perm
      (pairsOfGroup (exceeds 0.5) mixedOld mixedNew (· != 1) (· != 0) ++
        pairsOfGroup (exceeds 0.5) mixedOld mixedNew (fun i => !(i != 1)) fun j => !(j != 0)) ∧
    (matchCalls (exceeds 0.5) (mixedOld.insertIdx 1 strangeSite) mixedNew).pairs =
      ((matchCalls (exceeds 0.5) mixedOld mixedNew).pairs.map fun p =>
        ⟨PairTable.afterInsertion 1 p.old, p.new, p.ratio⟩) ∧
    (matchCalls (exceeds 0.5) mixedOld (mixedNew.insertIdx 0 strangeSite)).pairs =
      (matchCalls (exceeds 0.5) mixedOld mixedNew).pairs.map fun p =>
        ⟨p.old, PairTable.afterInsertion 0 p.new, p.ratio⟩ := by
  have hoffers : ∀ p ∈ PairTable.offers (rateSites (exceeds 0.5)) mixedOld mixedNew,
      (p.old != 1) = (p.new != 0) := by
    decide +kernel
  have hapart (p : RatedPair Similarity) (hp : IsCandidate (exceeds 0.5) mixedOld mixedNew p) :
      (p.old != 1) = (p.new != 0) := hoffers p (isCandidate_iff_mem_offers.mp hp)
  have hnew : ∀ b ∈ mixedNew,
      exceeds 0.5 (Similarity.ofTexts strangeSite.text b.text) = false := by
    decide +kernel
  have hold : ∀ a ∈ mixedOld,
      exceeds 0.5 (Similarity.ofTexts a.text strangeSite.text) = false := by
    decide +kernel
  obtain ⟨hgroups, hleft, hright⟩ := matchCalls_keeps_groups_apart 0.5 mixedOld mixedNew
  exact ⟨hapart, hnew, hold, by decide +kernel, hgroups (· != 1) (· != 0) hapart,
    hleft 1 strangeSite hnew, hright 0 strangeSite hold⟩

end LogDrift
