/-! # Greedy one-to-one pairing

Two sequences are paired by offering every rated pair of positions, one row of old positions after
another. A table holds the pairs taken so far, by old position and by new position. An offered pair
is taken when it is rated strictly higher than each of the at most two pairs that hold its ends;
those are released. So equal ratings keep what came first.

`PairTable.offer` is the rule for one offer, `PairTable.scan` the whole pass.
-/

namespace LogDrift

/-- Two positions and the rating of the pair. -/
structure RatedPair (ρ : Type) where
  old : Nat
  new : Nat
  ratio : ρ

/-- The pairs taken so far: for every old position its new position and rating, and for every new
    position its old one. -/
structure PairTable (ρ : Type) where
  byOld : Array (Option (Nat × ρ))
  byNew : Array (Option Nat)

namespace PairTable

variable {ρ : Type}

/-- The table without pairs, for sequences of the given lengths. -/
def empty (oldCount newCount : Nat) : PairTable ρ :=
  ⟨Array.replicate oldCount none, Array.replicate newCount none⟩

/-- The new position and the rating of the pair that holds an old position. -/
def ofOld (t : PairTable ρ) (i : Nat) : Option (Nat × ρ) := t.byOld[i]?.join

/-- The old position of the pair that holds a new position. -/
def ofNew (t : PairTable ρ) (j : Nat) : Option Nat := t.byNew[j]?.join

/-- The rating of the pair that holds an old position. -/
def ratioOfOld (t : PairTable ρ) (i : Nat) : Option ρ := (t.ofOld i).map (·.2)

/-- The rating of the pair that holds a new position. -/
def ratioOfNew (t : PairTable ρ) (j : Nat) : Option ρ := (t.ofNew j).bind t.ratioOfOld

/-- Releases the pairs that hold an old and a new position. -/
def release (t : PairTable ρ) (i j : Nat) : PairTable ρ where
  -- The pair that holds `j` gives up its old end, the pair that holds `i` its new end.
  byOld := match t.ofNew j with
    | some holder => (t.byOld.setIfInBounds holder none).setIfInBounds i none
    | none => t.byOld.setIfInBounds i none
  byNew := match t.ofOld i with
    | some held => (t.byNew.setIfInBounds held.1 none).setIfInBounds j none
    | none => t.byNew.setIfInBounds j none

/-- Enters a pair whose ends are free. -/
def enter (t : PairTable ρ) (i j : Nat) (ratio : ρ) : PairTable ρ where
  byOld := t.byOld.setIfInBounds i (some (j, ratio))
  byNew := t.byNew.setIfInBounds j (some i)

variable [LT ρ] [DecidableLT ρ]

/-- Takes a pair if it is rated higher than both pairs that hold its ends, which are released. -/
def offer (t : PairTable ρ) (i j : Nat) (ratio : ρ) : PairTable ρ :=
  if (t.ratioOfOld i).all (· < ratio) && (t.ratioOfNew j).all (· < ratio) then
    (t.release i j).enter i j ratio
  else t

/-- Offers a pair if it has a rating. A pair without one is passed over. -/
def visit (t : PairTable ρ) (i j : Nat) : Option ρ → PairTable ρ
  | some ratio => t.offer i j ratio
  | none => t

/-- Offers the pairs of one old position with all new ones. -/
def scanRow {α β : Type} (rate : α → β → Option ρ) (new : List β) (t : PairTable ρ)
    (row : α × Nat) : PairTable ρ :=
  new.zipIdx.foldl (fun t column => t.visit row.2 column.2 (rate row.1 column.1)) t

/-- Offers all pairs, old position by old position. -/
def scan {α β : Type} (rate : α → β → Option ρ) (old : List α) (new : List β) : PairTable ρ :=
  old.zipIdx.foldl (scanRow rate new) (empty old.length new.length)

omit [LT ρ] [DecidableLT ρ] in
/-- The pairs, by old position. -/
def pairs (t : PairTable ρ) : List (RatedPair ρ) :=
  t.byOld.toList.zipIdx.filterMap fun slot =>
    slot.1.map fun held => ⟨slot.2, held.1, held.2⟩

omit [LT ρ] [DecidableLT ρ] in
/-- The old positions in no pair, in order. -/
def freeOld (t : PairTable ρ) : List Nat :=
  t.byOld.toList.zipIdx.filterMap fun slot => if slot.1.isNone then some slot.2 else none

omit [LT ρ] [DecidableLT ρ] in
/-- The new positions in no pair, in order. -/
def freeNew (t : PairTable ρ) : List Nat :=
  t.byNew.toList.zipIdx.filterMap fun slot => if slot.1.isNone then some slot.2 else none

end PairTable

end LogDrift
