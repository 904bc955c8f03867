import LogDrift.Text.Blank

/-! # Cutting texts

`splitFirst` and `splitLast` cut at the first and the last occurrence of a character, `pieces`
at every character of a class, and `lines` at line ends. Main statements: the two halves of a cut
and the character between them are the whole text (`splitFirst_eq_some`, `splitLast_eq_some`),
and there is no cut at the last one exactly when the character does not occur
(`splitLast_eq_none_iff`); what stands before the first separator is the first piece
(`pieces_append_cons`), and before the first line end the first line (`lines_append_cons`).
-/

namespace LogDrift.Text

/-- The texts before and after the first `sep`, if there is one. -/
def splitFirst (sep : Char) : List Char → Option (List Char × List Char)
  | [] => none
  | c :: cs =>
    if c = sep then some ([], cs)
    else (splitFirst sep cs).map fun halves => (c :: halves.1, halves.2)

/-- The texts before and after the last `sep`, if there is one. -/
def splitLast (sep : Char) : List Char → Option (List Char × List Char)
  | [] => none
  | c :: cs =>
    match splitLast sep cs with
    | some halves => some (c :: halves.1, halves.2)
    | none => if c = sep then some ([], cs) else none

/-- There is no cut exactly if there is no `sep`. -/
theorem splitLast_eq_none_iff {sep : Char} {cs : List Char} :
    splitLast sep cs = none ↔ sep ∉ cs := by
  induction cs with
  | nil => simp [splitLast]
  | cons c cs ih =>
    simp only [splitLast, List.mem_cons, not_or]
    -- There is one behind the first character, or only this one is left to look at.
    cases hs : splitLast sep cs with
    | some halves =>
      have : sep ∈ cs := Decidable.not_not.1 fun hn => by simp [ih.2 hn] at hs
      simp [this]
    | none =>
      have hn := ih.1 hs
      by_cases h : c = sep
      · simp [h]
      · simp [h, hn, Ne.symm h]

/-- The first half of a cut at the first `sep` holds no `sep`. -/
theorem splitFirst_eq_some {sep : Char} {cs before after : List Char}
    (h : splitFirst sep cs = some (before, after)) :
    cs = before ++ sep :: after ∧ sep ∉ before := by
  induction cs generalizing before with
  | nil => simp [splitFirst] at h
  | cons c cs ih =>
    by_cases hc : c = sep
    · simp only [splitFirst, hc, if_true, Option.some.injEq, Prod.mk.injEq] at h
      simp [← h.1, ← h.2, hc]
    · simp only [splitFirst, hc, if_false, Option.map_eq_some_iff, Prod.mk.injEq] at h
      obtain ⟨⟨b, a⟩, hs, hb, ha⟩ := h
      subst ha
      obtain ⟨hcs, hn⟩ := ih hs
      simp [← hb, hcs, hn, Ne.symm hc]

/-- There is one cut at the first `sep`. -/
theorem splitFirst_eq_some_iff {sep : Char} {cs before after : List Char} :
    splitFirst sep cs = some (before, after) ↔ cs = before ++ sep :: after ∧ sep ∉ before := by
  refine ⟨splitFirst_eq_some, ?_⟩
  rintro ⟨rfl, hbefore⟩
  induction before with
  | nil => simp [splitFirst]
  | cons c before ih =>
    rw [List.mem_cons, not_or] at hbefore
    rw [List.cons_append, splitFirst, if_neg (Ne.symm hbefore.1), ih hbefore.2, Option.map_some]

/-- The second half of a cut at the last `sep` holds no `sep`. -/
theorem splitLast_eq_some {sep : Char} {cs before after : List Char}
    (h : splitLast sep cs = some (before, after)) :
    cs = before ++ sep :: after ∧ sep ∉ after := by
  induction cs generalizing before with
  | nil => simp [splitLast] at h
  | cons c cs ih =>
    simp only [splitLast] at h
    -- The cut is behind the first character if there is one, and at this character otherwise.
    cases hs : splitLast sep cs with
    | some halves =>
      simp only [hs, Option.some.injEq, Prod.mk.injEq] at h
      have hb : splitLast sep cs = some (halves.1, after) := by rw [hs, ← h.2]
      obtain ⟨hcs, hn⟩ := ih hb
      simp [← h.1, hcs, hn]
    | none =>
      by_cases hc : c = sep
      · simp only [hs, hc, if_true, Option.some.injEq, Prod.mk.injEq] at h
        simp [← h.1, ← h.2, hc, splitLast_eq_none_iff.1 hs]
      · simp [hs, hc] at h

/-- There is one cut at the last `sep`. -/
theorem splitLast_eq_some_iff {sep : Char} {cs before after : List Char} :
    splitLast sep cs = some (before, after) ↔ cs = before ++ sep :: after ∧ sep ∉ after := by
  refine ⟨splitLast_eq_some, ?_⟩
  rintro ⟨rfl, hafter⟩
  induction before with
  | nil => rw [List.nil_append, splitLast, splitLast_eq_none_iff.mpr hafter, if_pos rfl]
  | cons c before ih => rw [List.cons_append, splitLast, ih]

/-- The texts between the characters that satisfy `p`, empty ones included: one more than there
    are such characters. -/
def pieces (p : Char → Bool) : List Char → List (List Char)
  | [] => [[]]
  | c :: cs =>
    if p c then [] :: pieces p cs
    else match pieces p cs with
      | [] => [[c]]
      | piece :: rest => (c :: piece) :: rest

/-- There is at least one piece. -/
theorem pieces_ne_nil (p : Char → Bool) (cs : List Char) : pieces p cs ≠ [] := by
  cases cs with
  | nil => simp [pieces]
  | cons c cs =>
    unfold pieces
    split
    · simp
    · split <;> simp

/-- The first piece ends at the first character of the class. -/
theorem pieces_append_cons {p : Char → Bool} {front : List Char} (hfront : ∀ c ∈ front, p c = false)
    {sep : Char} (hsep : p sep = true) (rest : List Char) :
    pieces p (front ++ sep :: rest) = front :: pieces p rest := by
  induction front with
  | nil => simp [pieces, hsep]
  | cons c front ih =>
    obtain ⟨hc, hfront⟩ := List.forall_mem_cons.mp hfront
    simp [pieces, hc, ih hfront]

/-- A text without separators is one piece. -/
theorem pieces_of_forall_not {p : Char → Bool} {cs : List Char} (h : ∀ c ∈ cs, p c = false) :
    pieces p cs = [cs] := by
  induction cs with
  | nil => rfl
  | cons c cs ih =>
    obtain ⟨hc, hcs⟩ := List.forall_mem_cons.mp h
    simp [pieces, hc, ih hcs]

/-- The maximal nonempty runs of characters outside `p`. -/
def fields (p : Char → Bool) (cs : List Char) : List (List Char) :=
  (pieces p cs).filter fun piece => !piece.isEmpty

/-- Drops one carriage return at the end. -/
def dropReturn (line : List Char) : List Char :=
  if line.getLast? = some '\r' then line.dropLast else line

/-- The lines of a text without their line ends, `\n` or `\r\n`. What follows the last line end is
    a line only if it is not empty, and keeps a carriage return at its end. -/
def lines (cs : List Char) : List (List Char) :=
  match (pieces (· = '\n') cs).reverse with
  | [] => []
  | last :: ended =>
    ended.reverse.map dropReturn ++ if last.isEmpty then [] else [last]

/-- What stands before the first line end is the first line. -/
theorem lines_append_cons {line : List Char} (h : '\n' ∉ line) (rest : List Char) :
    lines (line ++ '\n' :: rest) = dropReturn line :: lines rest := by
  have hfront : ∀ c ∈ line, decide (c = '\n') = false :=
    fun c hc => decide_eq_false fun hsame => h (hsame ▸ hc)
  -- The last piece of the rest is the last one of the whole text.
  obtain ⟨last, ended, hrest⟩ : ∃ last ended, (pieces (· = '\n') rest).reverse = last :: ended :=
    List.exists_cons_of_ne_nil (by simpa using pieces_ne_nil _ rest)
  unfold lines
  rw [pieces_append_cons hfront (decide_eq_true rfl), List.reverse_cons, hrest]
  simp

/-- A text without line ends is one line, unless it is empty. -/
theorem lines_of_not_mem {line : List Char} (h : '\n' ∉ line) :
    lines line = if line.isEmpty then [] else [line] := by
  have hline : ∀ c ∈ line, decide (c = '\n') = false :=
    fun c hc => decide_eq_false fun hsame => h (hsame ▸ hc)
  simp [lines, pieces_of_forall_not hline]

/-- Whether `needle` occurs in `text` as a run of adjacent characters. -/
def occursIn (needle : List Char) : List Char → Bool
  | [] => needle.isEmpty
  | c :: cs => needle.isPrefixOf (c :: cs) || occursIn needle cs

/-- Occurring is being an infix. -/
theorem occursIn_eq_true_iff {needle text : List Char} :
    occursIn needle text = true ↔ needle <:+: text := by
  induction text with
  | nil => simp [occursIn]
  | cons c cs ih =>
    simp [occursIn, ih, List.infix_cons_iff, List.isPrefixOf_iff_prefix]

end LogDrift.Text
