import LogDrift.Proofs.OwnLines

/-! # Added assignments

An added line that assigns to a variable of a call is evidence for a change of the call's variables,
unless it passes for a part of the call. That is decided by text alone: the line is skipped if its
canonical text occurs anywhere in that of the call, in a literal of it, say, though it is no line of
the call. An assignment whose target, with the equals sign, does not occur in the call is never
skipped.

## Key results

- `assignmentTarget?_of_identifier`: a plain assignment assigns to the variable on its left
- `assignment_skipped_inside_literal`: an assignment that reads like a part of a message is skipped
- `isConsistent?_of_assignment`: every other one backs the change
-/

namespace LogDrift

open Text

/-! ## Identifiers -/

/-- Word characters, at least one. -/
structure IsIdentifier (name : List Char) : Prop where
  ne_nil : name ≠ []
  wordChars : ∀ c ∈ name, isWordChar c = true

instance (name : List Char) : Decidable (IsIdentifier name) :=
  decidable_of_iff (name ≠ [] ∧ name.all isWordChar = true)
    ⟨fun h => ⟨h.1, List.all_eq_true.mp h.2⟩, fun h => ⟨h.ne_nil, List.all_eq_true.mpr h.wordChars⟩⟩

/-- The ranges of two tables do not meet. -/
def rangesApart (ranges ranges' : CharRanges) : Bool :=
  ranges.all fun r => ranges'.all fun r' => decide (r.2 < r'.1 ∨ r'.2 < r.1)

/-- What is in one of two tables that do not meet is not in the other. -/
private theorem contains_eq_false_of_rangesApart {ranges ranges' : CharRanges} {c : Char}
    (h : rangesApart ranges ranges' = true) (hc : ranges.contains c = true) :
    ranges'.contains c = false := by
  rw [Bool.eq_false_iff]
  intro hc'
  obtain ⟨r, hr, hlow, hhigh⟩ := CharRanges.contains_eq_true_iff.mp hc
  obtain ⟨r', hr', hlow', hhigh'⟩ := CharRanges.contains_eq_true_iff.mp hc'
  -- The code point would lie in two ranges that do not meet.
  have hapart := of_decide_eq_true (List.all_eq_true.mp (List.all_eq_true.mp h r hr) r' hr')
  omega

/-- No word character is a blank. -/
theorem isBlank_eq_false_of_isWordChar {c : Char} (h : isWordChar c = true) : isBlank c = false := by
  have hapart : rangesApart alphanumericRanges blankRanges = true := by decide +kernel
  simp only [isWordChar, Bool.or_eq_true, decide_eq_true_eq] at h
  rcases h with (h | rfl) | rfl
  · exact contains_eq_false_of_rangesApart hapart h
  · decide
  · decide

/-- What is no word character does not occur in an identifier. -/
theorem IsIdentifier.ne_of_mem {name : List Char} (h : IsIdentifier name) {c d : Char}
    (hc : c ∈ name) (hd : isWordChar d = false) : c ≠ d := by
  rintro rfl
  rw [h.wordChars c hc] at hd
  cases hd

/-- Characters that mean something to the reader of an added line. -/
def signs : List Char := '=' :: '"' :: '\x27' :: '/' :: ';' :: compoundSigns

/-- None of the signs is a word character. -/
theorem isWordChar_eq_false_of_sign : ∀ c ∈ signs, isWordChar c = false := by
  have hsigns : (signs.all fun c => !isWordChar c) = true := by decide +kernel
  simpa [List.all_eq_true] using hsigns

/-! ## What an assignment assigns to -/

/-- A plain assignment, as it stands on a line. -/
def assignment (name right : List Char) : List Char :=
  name ++ ' ' :: '=' :: ' ' :: right ++ [';']

/-- A text without a separator is one field. -/
private theorem fields_of_forall_not {p : Char → Bool} {cs : List Char} (hne : cs ≠ [])
    (h : ∀ c ∈ cs, p c = false) : fields p cs = [cs] := by
  simp [fields, pieces_of_forall_not h, hne]

/-- A plain assignment assigns to the variable on its left. -/
theorem assignmentTarget?_of_identifier {name : List Char} (h : IsIdentifier name)
    (right : List Char) : assignmentTarget? (assignment name right) = some name := by
  have hleft : (assignment name right).takeWhile (fun c => decide (c ≠ '=')) = name ++ [' '] := by
    have hname : ∀ c ∈ name, decide (c ≠ '=') = true := fun c hc =>
      decide_eq_true (h.ne_of_mem hc (isWordChar_eq_false_of_sign _ (by decide)))
    rw [assignment, List.append_assoc, List.takeWhile_append_of_pos hname]
    rfl
  have hsigns : ∀ c ∈ name, (isBlank c || compoundSigns.contains c) = false := by
    intro c hc
    have hsign : c ∉ compoundSigns := fun hmem =>
      h.ne_of_mem hc (isWordChar_eq_false_of_sign c (by simp [signs, hmem])) rfl
    simp [isBlank_eq_false_of_isWordChar (h.wordChars c hc), hsign]
  -- The space is dropped behind the name, and then nothing more.
  have hword : dropEndWhile (fun c => isBlank c || compoundSigns.contains c) (name ++ [' ']) =
      name :=
    (List.rdropWhile_concat_pos _ _ _ (by decide)).trans (List.rdropWhile_eq_self_iff.mpr
      fun hne => Bool.eq_false_iff.mp (hsigns _ (List.getLast_mem hne)))
  have hblank : ∀ c ∈ name, isBlank c = false := fun c hc =>
    isBlank_eq_false_of_isWordChar (h.wordChars c hc)
  -- What stands on the left is neither blank nor part of a string.
  have hsome : ¬ ((name ++ [' ']).all isBlank || (name ++ [' ']).contains '"') = true := by
    obtain ⟨c, rest, rfl⟩ := List.exists_cons_of_ne_nil h.ne_nil
    have hquote : '"' ∉ c :: rest := fun hc =>
      h.ne_of_mem hc (isWordChar_eq_false_of_sign '"' (by decide)) rfl
    simpa [hblank c List.mem_cons_self] using hquote
  unfold assignmentTarget?
  simp only [hleft]
  rw [if_neg hsome, hword, fields_of_forall_not h.ne_nil hblank]
  rfl

/-! ## When it touches a variable -/

/-- An assignment touches its target, unless it passes for a part of the call. -/
theorem touches_assignment {name : List Char} (h : IsIdentifier name) (right : List Char)
    (callText : String) {mentioned : List String} (hmem : String.ofList name ∈ mentioned) :
    touches callText mentioned (assignment name right) =
      !isPartOfCall callText (assignment name right) := by
  -- The line is no comment, it ends with a semicolon and it has an equals sign in it.
  have hcomment : ∀ c, ¬ ['/', c] <+: assignment name right := by
    obtain ⟨d, rest, rfl⟩ := List.exists_cons_of_ne_nil h.ne_nil
    rintro c ⟨tail, htail⟩
    have hslash : d ≠ '/' :=
      h.ne_of_mem List.mem_cons_self (isWordChar_eq_false_of_sign _ (by decide))
    exact hslash (List.cons.inj htail).1.symm
  have hlast : (assignment name right).getLast? = some ';' := List.getLast?_concat
  have hequals : '=' ∈ assignment name right := by simp [assignment]
  simp [touches, hcomment, hlast, hequals, assignmentTarget?_of_identifier h, hmem]

/-- Semicolons are dropped from the last part of a line alone. -/
theorem statementOf_append {front : List Char} {last : Char} (hlast : last ≠ ';')
    (right : List Char) :
    statementOf (front ++ last :: right) = front ++ last :: statementOf right := by
  rw [statementOf, statementOf, dropEndWhile, dropEndWhile, List.reverse_append, List.reverse_cons,
    List.append_assoc, List.dropWhile_append]
  -- Dropping from the end stops within `right`, or else at `last`.
  split
  · rename_i hnil
    rw [List.isEmpty_iff.mp hnil]
    simp [hlast]
  · simp

/-- The characters of a word are written as they are. -/
theorem renderFrom_scan_word {word : List Char} (h : ∀ c ∈ word, isWordChar c = true)
    (rest : List Char) (before : Option Char) :
    Token.renderFrom before false (Token.scan (word ++ rest)) =
      word ++ Token.renderFrom (word.getLast?.or before) false (Token.scan rest) := by
  induction word generalizing before with
  | nil => rfl
  | cons c word ih =>
    obtain ⟨hc, hword⟩ := List.forall_mem_cons.mp h
    -- A word character opens neither a literal nor a comment, and it is no blank.
    have hquote : isQuote c = false := by
      rw [Bool.eq_false_iff]
      intro hquote
      have hsign : isWordChar c = false := isWordChar_eq_false_of_sign c (by
        rcases isQuote_iff.mp hquote with rfl | rfl <;> decide)
      rw [hsign] at hc
      cases hc
    have hslash : c ≠ '/' := by
      rintro rfl
      exact absurd hc (by decide +kernel)
    have hfirst : Token.first? (c :: (word ++ rest)) = some (.solid [c], word ++ rest) :=
      first?_single hquote (isBlank_eq_false_of_isWordChar hc) (absurd · hslash)
    have hlast : (c :: word).getLast?.or before = word.getLast?.or (some c) := by
      rw [List.getLast?_cons]
      cases word.getLast? <;> rfl
    rw [List.cons_append, scan_of_first? hfirst, Token.renderFrom, ih hword, hlast]
    rfl

/-- What is written of an assignment begins with its target and the equals sign. -/
theorem prefix_canonical_assignment {name : List Char} (h : IsIdentifier name) (right : List Char) :
    name ++ ['='] <+: canonical (statementOf (assignment name right)) := by
  -- Whatever semicolons `right` ends with, the equals sign and the space behind it stay.
  have hstatement : statementOf (assignment name right) =
      name ++ [' ', '='] ++ ' ' :: statementOf right := by
    have hsplit : name ++ ' ' :: '=' :: ' ' :: right = name ++ [' ', '='] ++ ' ' :: right := by simp
    rw [assignment, statementOf_semicolon, hsplit, statementOf_append (by decide)]
  have hwritten : Token.render (Token.scan (name ++ [' ', '='])) = name ++ ['='] := by
    have hscan : Token.scan [' ', '='] = [.layout, .solid ['=']] := by decide +kernel
    have hapart : ∀ before, keepsApart before (some '=') = false := by
      intro before
      rw [keepsApart, Option.any_some, isWordChar_eq_false_of_sign '=' (by decide), Bool.and_false]
    rw [Token.render, renderFrom_scan_word h.wordChars, hscan]
    simp [Token.renderFrom, hapart]
  have hapart : StandsApart (' ' :: statementOf right) := ⟨by simp, by simp, by simp⟩
  have hbegins := prefix_renderFrom_scan_append hapart (name ++ [' ', '=']) none false
  change Token.render _ <+: Token.render _ at hbegins
  rw [hwritten, ← hstatement] at hbegins
  rwa [canonical_eq_render (hbegins.ne_nil (List.concat_ne_nil _ _))]

/-- An assignment is never written as nothing, so it passes for a part of the call if its canonical
    text occurs there. -/
theorem isPartOfCall_assignment_iff {name right : List Char} (h : IsIdentifier name)
    {callText : String} : isPartOfCall callText (assignment name right) = true ↔
      canonical (statementOf (assignment name right)) <:+: callText.toList := by
  rw [isPartOfCall_iff, and_iff_right]
  exact (prefix_canonical_assignment h right).ne_nil (List.concat_ne_nil _ _)

/-! ## The verdict -/

/-- A call that reports its variable with a message about a value of it. -/
def reportOfOne : Call where
  name := "Log.d"
  source := "Log.d(\"x=1\", x)"
  arguments := [⟨"\"x=1\"", [.text "\"x=1\""]⟩, ⟨"x", [.var "x"]⟩]

/-- A change of variables alone. -/
def onlyVar : SomeFacets := ⟨⟨false, true, false⟩, by decide⟩

/-- An added assignment to the variable does not count if it reads like a part of the message, though
    it is no line of the call. -/
theorem assignment_skipped_inside_literal :
    onlyVar.facets.var = true ∧ IsIdentifier ['x'] ∧
    String.ofList ['x'] ∈ (CallSite.ofCall reportOfOne).mentions ∧
    trim "x = 1;".toList = assignment ['x'] ['1'] ∧
    (∀ piece ∈ pieces (· = '\n') reportOfOne.source.toList,
      statementOf (trim piece) ≠ statementOf (trim "x = 1;".toList)) ∧
    isConsistent? (CallSite.ofCall reportOfOne) onlyVar (some ["x = 1;".toList]) = some false := by
  decide +kernel

/-- An added assignment to a variable of a call backs a change of the call's variables, whatever it
    assigns and whatever else is added, unless its canonical text occurs in the canonical text of the
    call. Then it is skipped, whether or not it is a line of the call, and backs nothing. -/
theorem isConsistent?_of_assignment {site : CallSite} {changed : SomeFacets}
    (hvar : changed.facets.var = true) {name right line : List Char} (hname : IsIdentifier name)
    (hmem : String.ofList name ∈ site.mentions) (hline : trim line = assignment name right) :
    (¬ canonical (statementOf (trim line)) <:+: site.text.toList →
      ∀ added, line ∈ added → isConsistent? site (some changed) (some added) = some true) ∧
    (canonical (statementOf (trim line)) <:+: site.text.toList →
      isConsistent? site (some changed) (some [line]) = some false) := by
  -- The line touches the variable if and only if it is no part of the call.
  have htouches := touches_assignment hname right site.text hmem
  rw [hline, ← isPartOfCall_assignment_iff hname]
  constructor
  · intro hpart added hadded
    have hany : added.any (fun line => touches site.text site.mentions (trim line)) = true := by
      refine List.any_eq_true.mpr ⟨line, hadded, ?_⟩
      rw [hline, htouches]
      simpa using hpart
    rw [isConsistent?, if_pos hvar, hany]
  · intro hpart
    rw [isConsistent?, if_pos hvar, List.any_cons, List.any_nil, hline, htouches, hpart]
    rfl

/-- Another value is assigned, behind a comment line, and then the one of the message. -/
theorem isConsistent?_of_assignment_of_report :
    onlyVar.facets.var = true ∧ IsIdentifier ['x'] ∧
    String.ofList ['x'] ∈ (CallSite.ofCall reportOfOne).mentions ∧
    isConsistent? (CallSite.ofCall reportOfOne) onlyVar
      (some ["// x".toList, "  x = 2;".toList]) = some true ∧
    isConsistent? (CallSite.ofCall reportOfOne) onlyVar (some ["  x = 1;".toList]) = some false := by
  have hname : IsIdentifier ['x'] := by decide +kernel
  have hmem : String.ofList ['x'] ∈ (CallSite.ofCall reportOfOne).mentions := by decide +kernel
  have htwo : trim "  x = 2;".toList = assignment ['x'] ['2'] := by decide +kernel
  have hone : trim "  x = 1;".toList = assignment ['x'] ['1'] := by decide +kernel
  have hvar : onlyVar.facets.var = true := rfl
  refine ⟨hvar, hname, hmem, ?_, ?_⟩
  · exact (isConsistent?_of_assignment hvar hname hmem htwo).1 (by decide +kernel) _
      (List.mem_cons_of_mem _ List.mem_cons_self)
  · exact (isConsistent?_of_assignment hvar hname hmem hone).2 (by decide +kernel)

end LogDrift
