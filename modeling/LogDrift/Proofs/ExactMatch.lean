import LogDrift.Proofs.Distance
import LogDrift.Proofs.Threshold
import LogDrift.Report

/-! # Sites of equal text are matched in order

Only equal texts are fully similar, and nothing is rated higher. So the pairs of equal texts are
those of a scan that passes over all others (`pairs_matchCalls_of_isUpper`), and in that scan no
pair is ever released: the first occurrence of a text takes the first one on the other side, the
second takes the second, and so on. `Twins` are two positions at which one text occurs for the same
time.

## Key results

- `isFull_ofTexts`: only equal texts are fully similar
- `holds_scan_isFull`: the scan of the fully similar pairs ends with the twins
- `pairsOf_eq_zip`: the pairs of a text join its occurrences in order
- `compareSites_eq_nil`: permuted texts are no change
-/

namespace LogDrift

open Text (Similarity)

/-! ## Full similarity -/

/-- Whether a similarity is full. -/
def Text.Similarity.isFull (r : Similarity) : Bool := r.shared = r.total

theorem isFull_iff {r : Similarity} : r.isFull = true ↔ r.shared = r.total := decide_eq_true_iff

/-- Only equal texts are fully similar. -/
theorem isFull_ofTexts {a b : String} : (Similarity.ofTexts a b).isFull = true ↔ a = b := by
  have hfull : (Similarity.ofTexts a b).isFull = true ↔ a.toList = b.toList := by
    rw [isFull_iff]
    simp only [Similarity.ofTexts, Similarity.ofChars]
    split
    · -- The similarity is full if there is no distance.
      rename_i hpos
      rw [← Text.distance_eq_zero_iff]
      show a.toList.length + b.toList.length - Text.distance a.toList b.toList =
        a.toList.length + b.toList.length ↔ _
      omega
    · rename_i hempty
      have ha : a.toList = [] := List.length_eq_zero_iff.mp (by omega)
      have hb : b.toList = [] := List.length_eq_zero_iff.mp (by omega)
      simp [ha, hb, Similarity.full]
  rw [hfull]
  exact String.toList_inj

/-- Nothing is above full similarity. -/
theorem not_lt_of_isFull {r : Similarity} (hr : r.isFull = true) (s : Similarity) : ¬ r < s := by
  intro hlt
  have heq : r.shared = r.total := isFull_iff.mp hr
  have hcross : r.shared * s.total < s.shared * r.total := hlt
  -- What is above would share more than there is.
  rw [heq, Nat.mul_comm] at hcross
  have hmore : s.total < s.shared := Nat.lt_of_mul_lt_mul_right hcross
  have := s.shared_le
  omega

/-- What is not full lies below full similarity. -/
theorem isUpper_isFull : PairTable.IsUpper Similarity.isFull := by
  constructor
  · intro r s hr hs
    have hpart : r.shared ≠ r.total := by simpa [Similarity.isFull] using hr
    have heq : s.shared = s.total := isFull_iff.mp hs
    have hlt : r.shared < r.total := Nat.lt_of_le_of_ne r.shared_le hpart
    show r.shared * s.total < s.shared * r.total
    rw [heq, Nat.mul_comm]
    exact Nat.mul_lt_mul_of_pos_left hlt s.total_pos
  · intro r s hr hlt
    exact absurd hlt (not_lt_of_isFull hr s)

/-- A threshold below one, or one that is no number, admits full similarity. -/
theorem exceeds_of_isFull {threshold : Float} (h : threshold < 1.0 ∨ threshold.isNaN = true)
    (r : Similarity) (hr : r.isFull = true) : exceeds threshold r = true := by
  have heq : r.shared = r.total := isFull_iff.mp hr
  have hone : r.toFloat = 1.0 := by
    rw [Similarity.toFloat, heq]
    exact Double.nearest_self r.total_pos
  rw [exceeds_iff, hone]
  cases h with
  | inl hlt => exact Double.not_le_of_lt hlt
  | inr hnan => exact Double.not_le_of_isNaN hnan 1.0

/-! ## Occurrences of a text -/

/-- The positions of the sites with a text, in order. -/
def positionsOf (x : String) (sites : List CallSite) : List Nat :=
  sites.findIdxs fun site => site.text == x

/-- The positions of a text are those of the sites that have it. -/
theorem mem_positionsOf {x : String} {sites : List CallSite} {i : Nat} :
    i ∈ positionsOf x sites ↔ ∃ site, sites[i]? = some site ∧ site.text = x := by
  rw [positionsOf, List.mem_findIdxs_iff_exists_getElem_pos]
  constructor
  · intro h
    obtain ⟨hi, hx⟩ := h
    exact ⟨sites[i], List.getElem?_eq_getElem hi, by simpa using hx⟩
  · intro h
    obtain ⟨site, hsite, hx⟩ := h
    obtain ⟨hi, rfl⟩ := List.getElem?_eq_some_iff.mp hsite
    exact ⟨hi, by simpa using hx⟩

/-- A text has as many positions as sites have it. -/
theorem length_positionsOf (x : String) (sites : List CallSite) :
    (positionsOf x sites).length = (sites.map (·.text)).count x := by
  rw [positionsOf, List.length_findIdxs, List.count, List.countP_map]
  rfl

/-- A later occurrence has a greater position. -/
theorem positionsOf_lt {x : String} {sites : List CallSite} {k l i j : Nat} (hkl : k < l)
    (hi : (positionsOf x sites)[k]? = some i) (hj : (positionsOf x sites)[l]? = some j) :
    i < j := by
  obtain ⟨hk, rfl⟩ := List.getElem?_eq_some_iff.mp hi
  obtain ⟨hl, rfl⟩ := List.getElem?_eq_some_iff.mp hj
  exact List.pairwise_iff_getElem.mp List.pairwise_findIdxs k l hk hl hkl

/-- A position is one occurrence of one text. -/
theorem positionsOf_unique {x y : String} {sites : List CallSite} {k l i : Nat}
    (hk : (positionsOf x sites)[k]? = some i) (hl : (positionsOf y sites)[l]? = some i) :
    x = y ∧ k = l := by
  obtain ⟨a, ha, hx⟩ := mem_positionsOf.mp (List.mem_of_getElem? hk)
  obtain ⟨b, hb, hy⟩ := mem_positionsOf.mp (List.mem_of_getElem? hl)
  rw [ha] at hb
  obtain rfl := Option.some.inj hb
  obtain rfl : x = y := hx.symm.trans hy
  refine ⟨rfl, ?_⟩
  -- Different occurrences of one text have different positions.
  rcases Nat.lt_trichotomy k l with hlt | heq | hgt
  · exact absurd (positionsOf_lt hlt hk hl) (Nat.lt_irrefl i)
  · exact heq
  · exact absurd (positionsOf_lt hgt hl hk) (Nat.lt_irrefl i)

/-- Two positions at which one text occurs for the same time. -/
def Twins (old new : List CallSite) (i j : Nat) : Prop :=
  ∃ (x : String) (k : Nat), (positionsOf x old)[k]? = some i ∧
    (positionsOf x new)[k]? = some j

/-- A position has one twin only. -/
theorem Twins.new_unique {old new : List CallSite} {i j j' : Nat} (h : Twins old new i j)
    (h' : Twins old new i j') : j' = j := by
  obtain ⟨x, k, hi, hj⟩ := h
  obtain ⟨y, l, hi', hj'⟩ := h'
  obtain ⟨rfl, rfl⟩ := positionsOf_unique hi hi'
  rw [hj] at hj'
  exact (Option.some.inj hj').symm

theorem Twins.symm {old new : List CallSite} {i j : Nat} (h : Twins old new i j) :
    Twins new old j i := by
  obtain ⟨x, k, hi, hj⟩ := h
  exact ⟨x, k, hj, hi⟩

/-- The first of two twins is one of the old positions. -/
theorem Twins.lt_length {old new : List CallSite} {i j : Nat} (h : Twins old new i j) :
    i < old.length := by
  obtain ⟨x, k, hi, -⟩ := h
  obtain ⟨site, hsite, -⟩ := mem_positionsOf.mp (List.mem_of_getElem? hi)
  exact (List.getElem?_eq_some_iff.mp hsite).1

/-- Twins have one text. -/
theorem Twins.text_eq {old new : List CallSite} {i j : Nat} {a b : CallSite}
    (h : Twins old new i j) (ha : old[i]? = some a) (hb : new[j]? = some b) :
    a.text = b.text := by
  obtain ⟨x, k, hi, hj⟩ := h
  obtain ⟨a', ha', hx⟩ := mem_positionsOf.mp (List.mem_of_getElem? hi)
  obtain ⟨b', hb', hy⟩ := mem_positionsOf.mp (List.mem_of_getElem? hj)
  rw [ha] at ha'
  rw [hb] at hb'
  obtain rfl := Option.some.inj ha'
  obtain rfl := Option.some.inj hb'
  exact hx.trans hy.symm

/-! ## The scan of the fully similar pairs -/

/-- The cell `(i', j')` comes before the cell `(i, j)`. -/
def Before (i' j' i j : Nat) : Prop := i' < i ∨ i' = i ∧ j' < j

/-- The table holds the twins before a cell and no other pair. -/
def HoldsTwins (old new : List CallSite) (i j : Nat) (t : PairTable Similarity) : Prop :=
  ∀ i' j', (∃ r, t.Holds i' j' r) ↔ Before i' j' i j ∧ Twins old new i' j'

/-- If the table holds the twins before a cell with one text, the ends of the cell are free exactly
    if they are twins, too. -/
private theorem HoldsTwins.free_iff {old new : List CallSite} {i j : Nat} {t : PairTable Similarity}
    (ht : HoldsTwins old new i j t) {a b : CallSite} (ha : old[i]? = some a)
    (hb : new[j]? = some b) (htext : a.text = b.text) :
    (∀ i' j' r, t.Holds i' j' r → ¬ (i' = i ∨ j' = j)) ↔ Twins old new i j := by
  constructor
  · intro hfree
    -- The two sites are the occurrences `k` and `l` of their text, and `k = l` is to be shown.
    obtain ⟨k, hk⟩ := List.mem_iff_getElem?.mp (mem_positionsOf.mpr ⟨a, ha, rfl⟩)
    obtain ⟨l, hl⟩ := List.mem_iff_getElem?.mp (mem_positionsOf.mpr ⟨b, hb, htext.symm⟩)
    rcases Nat.lt_trichotomy k l with hlt | rfl | hgt
    · -- The twin of `i` comes before `j`, so it holds `i`.
      obtain ⟨hl', -⟩ := List.getElem?_eq_some_iff.mp hl
      have htwin := List.getElem?_eq_getElem (Nat.lt_trans hlt hl')
      have hbefore : Before i _ i j := .inr ⟨rfl, positionsOf_lt hlt htwin hl⟩
      obtain ⟨r, hr⟩ := (ht _ _).mpr ⟨hbefore, a.text, k, hk, htwin⟩
      exact absurd (.inl rfl) (hfree _ _ r hr)
    · exact ⟨a.text, k, hk, hl⟩
    · -- The twin of `j` comes before `i`, so it holds `j`.
      obtain ⟨hk', -⟩ := List.getElem?_eq_some_iff.mp hk
      have htwin := List.getElem?_eq_getElem (Nat.lt_trans hgt hk')
      have hbefore : Before _ j i j := .inl (positionsOf_lt hgt htwin hk)
      obtain ⟨r, hr⟩ := (ht _ _).mpr ⟨hbefore, a.text, l, htwin, hl⟩
      exact absurd (.inr rfl) (hfree _ _ r hr)
  · intro htwins i' j' r hr hends
    obtain ⟨hbefore, htwins'⟩ := (ht i' j').mp ⟨r, hr⟩
    -- A pair at one end of the cell is the cell, which is not before itself.
    have hboth : i' = i ∧ j' = j := by
      rcases hends with rfl | rfl
      · exact ⟨rfl, htwins.new_unique htwins'⟩
      · exact ⟨htwins.symm.new_unique htwins'.symm, rfl⟩
    rcases hbefore with hlt | ⟨-, hlt⟩ <;> omega

section

variable {old new : List CallSite} {i j : Nat}

/-- The scan of the fully similar pairs holds no others. -/
private theorem isFull_of_holds_after {i' j' : Nat} {r : Similarity}
    (h : (PairTable.after (rateSites Similarity.isFull) old new i j).Holds i' j' r) :
    r.isFull = true := by
  obtain ⟨a, b, -, -, hrate⟩ := PairTable.rate_of_holds_after _ h
  exact (rateSites_eq_some hrate).2

/-- A fully similar pair beats the pairs at its ends only if there are none. -/
private theorem beats_iff_free (r : Similarity) :
    (PairTable.after (rateSites Similarity.isFull) old new i j).Beats i j r ↔
      ∀ i' j' s, (PairTable.after (rateSites Similarity.isFull) old new i j).Holds i' j' s →
        ¬ (i' = i ∨ j' = j) := by
  constructor
  · intro hbeats i' j' s hs hends
    exact not_lt_of_isFull (isFull_of_holds_after hs) r (hbeats i' j' s hs hends)
  · intro hfree i' j' s hs hends
    exact absurd hends (hfree i' j' s hs)

/-- Sites have a rating in that scan if their texts are equal. -/
private theorem rateSites_isFull_eq_some {a b : CallSite} :
    (∃ r, rateSites Similarity.isFull a b = some r) ↔ a.text = b.text := by
  rw [← isFull_ofTexts]
  simp [rateSites]

/-- One more cell adds its pair if its ends are twins. -/
private theorem holdsTwins_after_succ (hi : i < old.length) (hj : j < new.length)
    (ht : HoldsTwins old new i j
      (PairTable.after (rateSites Similarity.isFull) old new i j)) :
    HoldsTwins old new i (j + 1)
      (PairTable.after (rateSites Similarity.isFull) old new i (j + 1)) := by
  have hfree (htext : old[i].text = new[j].text) :=
    ht.free_iff (List.getElem?_eq_getElem hi) (List.getElem?_eq_getElem hj) htext
  intro i' j'
  constructor
  · intro h
    obtain ⟨r, hr⟩ := h
    rcases (PairTable.holds_after_succ _ hi hj).mp hr with ⟨rfl, rfl, hrate, hbeats⟩ | ⟨hr, -⟩
    · have htext := rateSites_isFull_eq_some.mp ⟨r, hrate⟩
      exact ⟨.inr ⟨rfl, Nat.lt_succ_self _⟩, (hfree htext).mp ((beats_iff_free r).mp hbeats)⟩
    · obtain ⟨hbefore, htwins⟩ := (ht i' j').mp ⟨r, hr⟩
      refine ⟨?_, htwins⟩
      rcases hbefore with hlt | ⟨heq, hlt⟩
      · exact .inl hlt
      · exact .inr ⟨heq, Nat.lt_succ_of_lt hlt⟩
  · intro h
    obtain ⟨hbefore, htwins⟩ := h
    -- The twins are those of the cell itself, or they were held before.
    by_cases hcell : i' = i ∧ j' = j
    · obtain ⟨rfl, rfl⟩ := hcell
      have htext :=
        htwins.text_eq (List.getElem?_eq_getElem hi) (List.getElem?_eq_getElem hj)
      obtain ⟨r, hrate⟩ := rateSites_isFull_eq_some.mpr htext
      have hbeats := (beats_iff_free r).mpr ((hfree htext).mpr htwins)
      exact ⟨r, (PairTable.holds_after_succ _ hi hj).mpr (.inl ⟨rfl, rfl, hrate, hbeats⟩)⟩
    · have hbefore' : Before i' j' i j := by
        rcases hbefore with hlt | ⟨heq, hlt⟩
        · exact .inl hlt
        · exact .inr ⟨heq, by omega⟩
      obtain ⟨r, hr⟩ := (ht i' j').mpr ⟨hbefore', htwins⟩
      refine ⟨r, (PairTable.holds_after_succ _ hi hj).mpr (.inr ⟨hr, ?_⟩)⟩
      intro s hrate hbeats
      -- The pair would have blocked the cell if it had one of its ends.
      exact not_or.mp ((beats_iff_free s).mp hbeats i' j' r hr)

/-- At the end of the scan, the table holds the twins and no other pair. -/
theorem holds_scan_isFull {i' j' : Nat} :
    (∃ r, (PairTable.scan (rateSites Similarity.isFull) old new).Holds i' j' r) ↔
      Twins old new i' j' := by
  have hscan := PairTable.scan_induction (m := old.length) (n := new.length)
    (P := fun i j => HoldsTwins old new i j
      (PairTable.after (rateSites Similarity.isFull) old new i j))
    (by
      intro i' j'
      rw [PairTable.after_zero]
      simp [PairTable.Holds, Before])
    (fun i j hi hj ht => holdsTwins_after_succ hi hj ht)
    (by
      intro i hi hlast i' j'
      rw [PairTable.after_row hi, hlast i' j']
      -- Before the first cell of a row come all cells of the row before.
      simp only [Before]
      constructor
      · intro h
        exact ⟨.inl (by omega), h.2⟩
      · intro h
        have := h.2.symm.lt_length
        exact ⟨by omega, h.2⟩)
  rw [PairTable.scan_eq_after, hscan.2 i' j', and_iff_right_iff_imp]
  intro htwins
  exact .inl htwins.lt_length

end

/-! ## The pairs of equal texts -/

/-- The pairs whose two sites have the text `x`. -/
def CallMatching.pairsOf (m : CallMatching) (x : String) (old new : List CallSite) :
    List (RatedPair Similarity) :=
  m.pairs.filter fun p =>
    old[p.old]?.map (·.text) == some x && new[p.new]?.map (·.text) == some x

/-- The pairs of a text are those of its positions on both sides. -/
theorem mem_pairsOf {m : CallMatching} {x : String} {old new : List CallSite}
    {p : RatedPair Similarity} :
    p ∈ m.pairsOf x old new ↔
      p ∈ m.pairs ∧ p.old ∈ positionsOf x old ∧ p.new ∈ positionsOf x new := by
  simp only [CallMatching.pairsOf, List.mem_filter, Bool.and_eq_true, beq_iff_eq,
    Option.map_eq_some_iff, mem_positionsOf]

/-- The scan of the fully similar pairs joins the occurrences of a text in order. -/
theorem pairsOf_eq_zip (x : String) (old new : List CallSite) :
    ((matchCalls Similarity.isFull old new).pairsOf x old new).map (fun p => (p.old, p.new)) =
      (positionsOf x old).zip (positionsOf x new) := by
  -- Both lists are in the order of the old positions.
  apply PairTable.eq_of_mem_iff Prod.fst
  · exact List.pairwise_map.mpr ((PairTable.pairwise_pairs _).filter _)
  · rw [List.pairwise_iff_getElem]
    intro k l hk hl hkl
    rw [List.getElem_zip, List.getElem_zip]
    rw [List.length_zip] at hk hl
    exact positionsOf_lt hkl (List.getElem?_eq_getElem (by omega))
      (List.getElem?_eq_getElem (by omega))
  · intro ⟨i, j⟩
    rw [List.mem_map, List.mem_iff_getElem?]
    simp only [mem_pairsOf, List.getElem?_zip_eq_some, Prod.mk.injEq]
    constructor
    · intro h
      obtain ⟨p, ⟨hp, hi, -⟩, rfl, rfl⟩ := h
      have hheld := (PairTable.mem_pairs _).mp hp
      obtain ⟨y, k, hk, hk'⟩ := holds_scan_isFull.mp ⟨_, hheld⟩
      -- The position is an occurrence of `x`, so it is none of another text.
      obtain ⟨l, hl⟩ := List.mem_iff_getElem?.mp hi
      obtain ⟨rfl, rfl⟩ := positionsOf_unique hl hk
      exact ⟨l, hk, hk'⟩
    · intro h
      obtain ⟨k, hi, hj⟩ := h
      obtain ⟨r, hr⟩ := holds_scan_isFull.mpr ⟨x, k, hi, hj⟩
      exact ⟨⟨i, j, r⟩,
        ⟨(PairTable.mem_pairs _).mpr hr, List.mem_of_getElem? hi, List.mem_of_getElem? hj⟩,
        rfl, rfl⟩

section

variable {admits : Similarity → Bool} (hfull : ∀ r, r.isFull = true → admits r = true)
  (old new : List CallSite)

include hfull

/-- If full similarity is admitted, the pairs of a text are those of the scan of the fully similar
    pairs. -/
theorem pairsOf_matchCalls (x : String) :
    (matchCalls admits old new).pairsOf x old new =
      (matchCalls Similarity.isFull old new).pairsOf x old new := by
  have hpairs := pairs_matchCalls_of_isUpper isUpper_isFull hfull old new
  simp only [CallMatching.pairsOf]
  rw [hpairs, List.filter_filter]
  apply List.filter_congr
  intro p hp
  obtain ⟨a, b, ha, hb, hratio, -⟩ := ratio_of_mem_matchCalls hp
  simp only [ha, hb, Option.map_some, hratio]
  -- The pairs of one text are fully similar, so filtering them leaves them all.
  by_cases htext : a.text = b.text
  · rw [isFull_ofTexts.mpr htext, Bool.and_true]
  · -- Different texts are not both `x`.
    have hnot : (some a.text == some x && some b.text == some x) = false := by
      apply Bool.eq_false_iff.mpr
      intro hboth
      simp only [Bool.and_eq_true, beq_iff_eq, Option.some.injEq] at hboth
      exact htext (hboth.1.trans hboth.2.symm)
    rw [hnot, Bool.false_and]

/-- If full similarity is admitted, twins are paired. -/
theorem mem_pairs_of_twins {i j : Nat} (h : Twins old new i j) :
    ∃ p ∈ (matchCalls admits old new).pairs,
      p.old = i ∧ p.new = j ∧ p.ratio.isFull = true := by
  obtain ⟨r, hr⟩ := holds_scan_isFull.mpr h
  have hmem : ⟨i, j, r⟩ ∈ (matchCalls Similarity.isFull old new).pairs :=
    (PairTable.mem_pairs _).mpr hr
  rw [pairs_matchCalls_of_isUpper isUpper_isFull hfull old new, List.mem_filter] at hmem
  exact ⟨_, hmem.1, rfl, rfl, hmem.2⟩

end

/-! ## Permuted texts -/

/-- If the texts are permuted, every position has a twin. -/
theorem exists_twin_of_perm {old new : List CallSite}
    (hperm : (old.map (·.text)).Perm (new.map (·.text))) {i : Nat} (hi : i < old.length) :
    ∃ j, Twins old new i j := by
  have hmem : i ∈ positionsOf old[i].text old :=
    mem_positionsOf.mpr ⟨old[i], List.getElem?_eq_getElem hi, rfl⟩
  obtain ⟨k, hk⟩ := List.mem_iff_getElem?.mp hmem
  -- The text occurs as often on the other side.
  have hcount : k < (positionsOf old[i].text new).length := by
    rw [length_positionsOf, ← hperm.count_eq, ← length_positionsOf]
    exact (List.getElem?_eq_some_iff.mp hk).1
  exact ⟨_, old[i].text, k, hk, List.getElem?_eq_getElem hcount⟩

/-- If full similarity is admitted, permuted texts are no change. -/
theorem compareSites_eq_nil (s : Settings)
    (hfull : ∀ r : Similarity, r.isFull = true → exceeds s.threshold r = true)
    (oldPath newPath method : String) {old new : List CallSite}
    (added : Option (List (List Char)))
    (hperm : (old.map (·.text)).Perm (new.map (·.text))) :
    compareSites s oldPath newPath method old new added = [] := by
  have hpart := matchCalls_isPartition (exceeds s.threshold) old new
  -- Nothing is unmatched, as every position is paired with its twin.
  have hold : (matchCalls (exceeds s.threshold) old new).unmatchedOld = [] := by
    apply List.eq_nil_iff_forall_not_mem.mpr
    intro i hi
    obtain ⟨j, htwins⟩ := exists_twin_of_perm hperm (hpart.lt_of_mem_unmatchedOld hi)
    obtain ⟨p, hp, rfl, -⟩ := mem_pairs_of_twins hfull old new htwins
    exact hpart.old_not_mem_unmatched hp hi
  have hnew : (matchCalls (exceeds s.threshold) old new).unmatchedNew = [] := by
    apply List.eq_nil_iff_forall_not_mem.mpr
    intro j hj
    obtain ⟨i, htwins⟩ := exists_twin_of_perm hperm.symm (hpart.lt_of_mem_unmatchedNew hj)
    obtain ⟨p, hp, -, rfl, -⟩ := mem_pairs_of_twins hfull old new htwins.symm
    exact hpart.new_not_mem_unmatched hp hj
  have hupdated : (matchCalls (exceeds s.threshold) old new).updated old new = [] := by
    apply List.filter_eq_nil_iff.mpr
    intro p hp
    obtain ⟨a, b, ha, hb, hratio, -⟩ := ratio_of_mem_matchCalls hp
    -- The old end is paired with its twin, so this is that pair.
    obtain ⟨j, htwins⟩ := exists_twin_of_perm hperm (List.getElem?_eq_some_iff.mp ha).1
    obtain ⟨q, hq, hqold, -, hqfull⟩ := mem_pairs_of_twins hfull old new htwins
    obtain rfl := hpart.pair_unique hq hp hqold
    rw [hratio] at hqfull
    have htext := isFull_ofTexts.mp hqfull
    simp [ha, hb, htext]
  simp only [compareSites, hold, hnew, hupdated, List.filterMap_nil, List.append_nil]

/-- At a threshold below one, or one that is no number, no exact match is given up for a similar
    one: the pairs of a text join its first occurrences on both sides in order, as many as there
    are on the side that has fewer. So permuted texts are no change. -/
theorem matchCalls_keeps_exact_matches {threshold : Float}
    (h : threshold < 1.0 ∨ threshold.isNaN = true) (old new : List CallSite) :
    (∀ x, ((matchCalls (exceeds threshold) old new).pairsOf x old new).map
          (fun p => (p.old, p.new)) = (positionsOf x old).zip (positionsOf x new) ∧
        ((matchCalls (exceeds threshold) old new).pairsOf x old new).length =
          min ((old.map (·.text)).count x) ((new.map (·.text)).count x)) ∧
    ∀ (s : Settings) (oldPath newPath method : String) (added : Option (List (List Char))),
      s.threshold = threshold → (old.map (·.text)).Perm (new.map (·.text)) →
      compareSites s oldPath newPath method old new added = [] := by
  -- At such a threshold equal texts are always admitted, and rated best.
  have hfull := exceeds_of_isFull h
  constructor
  · intro x
    have hzip := pairsOf_eq_zip x old new
    rw [← pairsOf_matchCalls hfull old new x] at hzip
    refine ⟨hzip, ?_⟩
    have hlength := congrArg List.length hzip
    rw [List.length_map, List.length_zip, length_positionsOf, length_positionsOf] at hlength
    exact hlength
  · intro s oldPath newPath method added hs hperm
    rw [← hs] at hfull
    exact compareSites_eq_nil s hfull oldPath newPath method added hperm

/-- Two sites that swap their places are matched across, and they are no change. -/
theorem matchCalls_keeps_exact_matches_of_swapped :
    (0.5 : Float) < 1.0 ∧
    (([⟨"info", "info", "ab", "ab", []⟩, ⟨"info", "info", "abc", "abc", []⟩] :
        List CallSite).map (·.text)).Perm
      (([⟨"info", "info", "abc", "abc", []⟩, ⟨"info", "info", "ab", "ab", []⟩] :
        List CallSite).map (·.text)) ∧
    ((matchCalls (exceeds 0.5)
        [⟨"info", "info", "ab", "ab", []⟩, ⟨"info", "info", "abc", "abc", []⟩]
        [⟨"info", "info", "abc", "abc", []⟩, ⟨"info", "info", "ab", "ab", []⟩]).pairsOf "abc"
      [⟨"info", "info", "ab", "ab", []⟩, ⟨"info", "info", "abc", "abc", []⟩]
      [⟨"info", "info", "abc", "abc", []⟩, ⟨"info", "info", "ab", "ab", []⟩]).map
        (fun p => (p.old, p.new)) = [(1, 0)] ∧
    compareSites Settings.standard "A.java" "A.java" "run()"
      [⟨"info", "info", "ab", "ab", []⟩, ⟨"info", "info", "abc", "abc", []⟩]
      [⟨"info", "info", "abc", "abc", []⟩, ⟨"info", "info", "ab", "ab", []⟩] none = [] := by
  have hlt : (0.5 : Float) < 1.0 := by decide
  have hswap := List.Perm.swap "abc" "ab" []
  have hkeeps := matchCalls_keeps_exact_matches (.inl hlt)
    [⟨"info", "info", "ab", "ab", []⟩, ⟨"info", "info", "abc", "abc", []⟩]
    [⟨"info", "info", "abc", "abc", []⟩, ⟨"info", "info", "ab", "ab", []⟩]
  refine ⟨hlt, hswap, ?_, ?_⟩
  · rw [(hkeeps.1 "abc").1]
    decide
  · exact hkeeps.2 Settings.standard "A.java" "A.java" "run()" none rfl hswap

end LogDrift
