import LogDrift.Call.Site
import LogDrift.Change.Evidence
import LogDrift.Proofs.Pieces

/-! # The lines of a call are no evidence

A call over several lines may hold assignments and block openings of its own, say in a lambda, and a
diff that adds the call adds those lines. None of them counts as evidence that the variables of the
call changed: a line that renders to something occurs in the canonical text of the call, and any
other line is empty or begins with a comment.

## Key results

- `touches_eq_false_of_render_infix`: a line touches nothing if what is written of it is written in
  the call
- `isConsistent?_ne_true_of_own_lines`: the lines of a call touch nothing, and added alone they never
  back a change of variables
-/

namespace LogDrift

open Text

/-- A line of a call: a piece of its text without the blanks at the ends, with or without a semicolon
    behind. -/
def IsOwnLine (piece line : List Char) : Prop :=
  line = trim piece ∨ line = trim piece ++ [';'] ∨ line = trim (piece ++ [';'])

instance (piece line : List Char) : Decidable (IsOwnLine piece line) :=
  inferInstanceAs (Decidable (_ ∨ _ ∨ _))

/-! ## The statement on a line -/

/-- The statement on a line: the line without semicolons at the end. -/
def statementOf (line : List Char) : List Char := dropEndWhile (· = ';') line

/-- A line passes for a part of a call if the canonical text of its statement is not empty and
    occurs there. -/
theorem isPartOfCall_iff {callText : String} {line : List Char} :
    isPartOfCall callText line = true ↔
      canonical (statementOf line) ≠ [] ∧ canonical (statementOf line) <:+: callText.toList := by
  unfold isPartOfCall
  rw [Bool.and_eq_true, occursIn_eq_true_iff]
  simp [statementOf]

/-- What is dropped of a line is semicolons. -/
theorem exists_statementOf_append (line : List Char) :
    ∃ tail, (∀ c ∈ tail, c = ';') ∧ statementOf line ++ tail = line := by
  obtain ⟨tail, htail, happend⟩ := exists_dropEndWhile_append (· = ';') line
  exact ⟨tail, fun c hc => of_decide_eq_true (htail c hc), happend⟩

/-- One more semicolon does not matter. -/
theorem statementOf_semicolon (line : List Char) : statementOf (line ++ [';']) = statementOf line :=
  List.rdropWhile_concat_pos (· = ';') line ';' (by decide)

/-- Nothing is left of a line of semicolons, and of no other line. -/
private theorem statementOf_eq_nil_iff {line : List Char} : statementOf line =
    [] ↔ ∀ c ∈ line, c = ';' := by
  refine List.rdropWhile_eq_nil_iff.trans ?_
  simp

/-- A statement does not end with a semicolon. -/
private theorem getLast?_statementOf (line : List Char) :
    (statementOf line).getLast? ≠ some ';' := by
  intro h
  obtain ⟨hne, hlast⟩ := List.mem_getLast?_eq_getLast h
  exact List.rdropWhile_last_not (· = ';') line hne (decide_eq_true hlast.symm)

/-! ## Lines of a call -/

/-- A text is the statement on its trimmed line, with blanks in front and blanks and semicolons
    behind. -/
private theorem exists_append_statementOf_trim (cs : List Char) :
    ∃ lead tail, (∀ c ∈ lead, isBlank c = true) ∧ (∀ c ∈ tail, isBlank c = true ∨ c = ';') ∧
      cs = lead ++ (statementOf (trim cs) ++ tail) := by
  obtain ⟨lead, blanks, hlead, hblanks, hcs⟩ := exists_append_trim_append cs
  obtain ⟨tail, htail, htrim⟩ := exists_statementOf_append (trim cs)
  refine ⟨lead, tail ++ blanks, hlead, ?_, by rw [← List.append_assoc _ tail, htrim, ← hcs]⟩
  intro c hc
  exact (List.mem_append.mp hc).elim (fun hc => .inr (htail c hc)) (fun hc => .inl (hblanks c hc))

/-- A piece is the statement on its line, with blanks in front and blanks and semicolons behind. -/
theorem IsOwnLine.exists_append {piece line : List Char} (h : IsOwnLine piece line) :
    ∃ lead tail, (∀ c ∈ lead, isBlank c = true) ∧ (∀ c ∈ tail, isBlank c = true ∨ c = ';') ∧
      piece = lead ++ (statementOf line ++ tail) := by
  rcases h with rfl | rfl | rfl
  · exact exists_append_statementOf_trim piece
  · rw [statementOf_semicolon]
    exact exists_append_statementOf_trim piece
  · obtain ⟨lead, tail, hlead, htail, hpiece⟩ := exists_append_statementOf_trim (piece ++ [';'])
    -- The semicolon behind the piece is no part of the statement.
    have hne : tail ≠ [] := by
      rintro rfl
      have hlast := congrArg List.getLast? hpiece
      rw [List.getLast?_concat, List.append_nil, List.getLast?_append] at hlast
      cases hstatement : (statementOf (trim (piece ++ [';']))).getLast? with
      | some c =>
        rw [hstatement, Option.some_or] at hlast
        exact getLast?_statementOf _ (hstatement.trans hlast.symm)
      | none =>
        rw [hstatement, Option.none_or] at hlast
        exact absurd (hlead ';' (List.mem_of_getLast? hlast.symm)) (by decide)
    obtain ⟨front, last, rfl⟩ := (List.eq_nil_or_concat' tail).resolve_left hne
    refine ⟨lead, front, hlead, fun c hc => htail c (List.mem_append_left _ hc), ?_⟩
    rw [← List.append_assoc, ← List.append_assoc] at hpiece
    exact (List.append_inj_left' hpiece rfl).trans (List.append_assoc ..)

/-- A line of a call does not begin with a blank. -/
theorem IsOwnLine.isBlank_eq_false_of_head? {piece line : List Char} (h : IsOwnLine piece line)
    {c : Char} (hc : line.head? = some c) : isBlank c = false := by
  rcases h with rfl | rfl | rfl
  · exact isBlank_eq_false_of_head?_trim hc
  · cases htrim : trim piece with
    | nil =>
      rw [htrim] at hc
      cases hc
      decide
    | cons d rest =>
      rw [htrim] at hc
      exact isBlank_eq_false_of_head?_trim (by rw [htrim]; exact hc)
  · exact isBlank_eq_false_of_head?_trim hc

/-- What is written of the statement on a line of a call is written in the call. -/
theorem IsOwnLine.render_infix {text piece line : List Char} {pieces : List (List Char)}
    (h : IsOwnLine piece line) (hcut : IsCut text pieces) (hmem : piece ∈ pieces) :
    Token.render (Token.scan (statementOf line)) <:+: Token.render (Token.scan text) := by
  obtain ⟨lead, tail, hlead, htail, hpiece⟩ := h.exists_append
  have hapart : StandsApart tail :=
    standsApart_of_forall htail (by decide) (by decide) (by decide)
  -- The statement begins what is read behind the blanks of the piece.
  have hbegins := prefix_renderFrom_scan_append hapart (statementOf line) none false
  have hsuffix := (reaches_of_isBlank hlead (statementOf line ++ tail)).render_suffix
  rw [← hpiece] at hsuffix
  exact (hbegins.isInfix.trans hsuffix.isInfix).trans (hcut.render_infix hmem)

/-! ## They touch nothing -/

/-- A text that is read as layout alone is empty or begins with a comment, if not with a blank. -/
private theorem eq_nil_or_comment_of_solids {cs : List Char} (h : Token.solids (Token.scan cs) = [])
    (hhead : ∀ c, cs.head? = some c → isBlank c = false) :
    cs = [] ∨ ['/', '/'] <+: cs ∨ ['/', '*'] <+: cs := by
  cases hfirst : Token.first? cs with
  | none => exact .inl (first?_eq_none_iff.mp hfirst)
  | some first =>
    obtain ⟨token | text, rest⟩ := first
    · obtain ⟨c, hblank, rfl⟩ | ⟨body, more, rfl, hcomment⟩ := first?_eq_layout hfirst
      · rw [hhead c rfl] at hblank
        cases hblank
      · have hopen : ¬ (more.head? ≠ some '/' ∧ more.head? ≠ some '*') := by
          rw [← commentBody?_eq_none_iff, hcomment]
          exact Option.some_ne_none _
        rw [← not_or, not_not] at hopen
        refine .inr (hopen.imp ?_ ?_)
        all_goals
          intro hmore
          obtain ⟨tail, rfl⟩ := List.head?_eq_some_iff.mp hmore
          exact ⟨tail, rfl⟩
    · -- A solid token would be kept.
      rw [scan_of_first? hfirst] at h
      cases h

/-- A comment touches nothing. -/
private theorem touches_of_comment {line : List Char}
    (h : ['/', '/'] <+: line ∨ ['/', '*'] <+: line)
    (callText : String) (mentioned : List String) : touches callText mentioned line = false := by
  have hcomment : (['/', '/'].isPrefixOf line || ['/', '*'].isPrefixOf line) = true := by
    simpa [List.isPrefixOf_iff_prefix] using h
  simp [touches, hcomment]

/-- A part of the call touches nothing. -/
private theorem touches_of_isPartOfCall {callText : String} {line : List Char}
    (h : isPartOfCall callText line = true) (mentioned : List String) :
    touches callText mentioned line = false := by
  simp [touches, h]

/-- A line of semicolons neither assigns nor opens a block. -/
private theorem touches_of_semicolons {line : List Char} (h : ∀ c ∈ line, c = ';')
    (callText : String) (mentioned : List String) : touches callText mentioned line = false := by
  have hnone : ∀ c, c ≠ ';' → c ∉ line := fun c hc hmem => hc (h c hmem)
  have hassigns : '=' ∉ line := hnone '=' (by decide)
  have hopens : line.getLast? ≠ some '\x7b' := fun hlast =>
    hnone '\x7b' (by decide) (List.mem_of_getLast? hlast)
  simp [touches, hassigns, hopens]

/-- A line that does not begin with a blank touches nothing if what is written of its statement is
    written in the call. -/
theorem touches_eq_false_of_render_infix {source : String} {line : List Char}
    (h : Token.render (Token.scan (statementOf line)) <:+: Token.render (Token.scan source.toList))
    (hhead : ∀ c, line.head? = some c → isBlank c = false) (mentioned : List String) :
    touches (canonicalText source) mentioned line = false := by
  by_cases hsolids : Token.solids (Token.scan (statementOf line)) = []
  · -- Nothing is written of the statement, so it is not looked for in the call.
    obtain ⟨tail, -, happend⟩ := exists_statementOf_append line
    have hline : statementOf line <+: line := ⟨tail, happend⟩
    have hhead' : ∀ c, (statementOf line).head? = some c → isBlank c = false :=
      fun c hc => hhead c (by rw [← happend, List.head?_append, hc, Option.some_or])
    rcases eq_nil_or_comment_of_solids hsolids hhead' with hnil | hcomment
    · exact touches_of_semicolons (statementOf_eq_nil_iff.mp hnil) _ _
    · exact touches_of_comment (hcomment.imp (·.trans hline) (·.trans hline)) _ _
  · -- The canonical texts of the statement and of the call are what is written of them.
    have hne := mt render_scan_eq_nil_iff.mp hsolids
    have hsource : Token.render (Token.scan source.toList) ≠ [] := by
      intro hnil
      rw [hnil] at h
      exact hne (List.infix_nil.mp h)
    refine touches_of_isPartOfCall ?_ mentioned
    rw [isPartOfCall_iff, canonicalText, String.toList_ofList, canonical_eq_render hne,
      canonical_eq_render hsource]
    exact ⟨hne, h⟩

/-- A call's own text is no evidence for its consistency. Cut the text of a call anywhere at line
    breaks outside of literals and block comments: no line of it touches any variable, and its lines
    alone never back a change of its variables. -/
theorem isConsistent?_ne_true_of_own_lines {call : Call} {pieces : List (List Char)}
    (hcut : IsCut call.source.toList pieces) :
    (∀ piece ∈ pieces, ∀ line, IsOwnLine piece line → ∀ mentioned,
      touches (CallSite.ofCall call).text mentioned line = false) ∧
    ∀ changed added, (∀ line ∈ added, ∃ piece ∈ pieces, IsOwnLine piece (trim line)) →
      isConsistent? (CallSite.ofCall call) changed (some added) ≠ some true := by
  have htouches : ∀ piece ∈ pieces, ∀ line, IsOwnLine piece line → ∀ mentioned,
      touches (CallSite.ofCall call).text mentioned line = false := by
    intro piece hmem line hline mentioned
    exact touches_eq_false_of_render_infix (hline.render_infix hcut hmem)
      (fun _ => hline.isBlank_eq_false_of_head?) mentioned
  refine ⟨htouches, fun changed added hadded => ?_⟩
  cases changed with
  | none => simp [isConsistent?]
  -- Each of the lines touches nothing, so there is no reason for a verdict of consistency.
  | some changed =>
    have hnone : added.any (fun line => touches (CallSite.ofCall call).text
        (CallSite.ofCall call).mentions (trim line)) = false := by
      rw [List.any_eq_false]
      intro line hmem
      obtain ⟨piece, hpiece, hline⟩ := hadded line hmem
      rw [htouches piece hpiece _ hline]
      exact Bool.false_ne_true
    rw [isConsistent?, hnone]
    split <;> decide

/-- A call over three lines. The second one assigns to a variable, and holds a block comment with a
    line break in it. -/
def longCall : Call where
  name := "Log.d"
  source := "Log.d(\"n=\" + n, () -> \x7b // n = 0;\n  n = /* n =\n 2; */ 1;\n\x7d)"
  arguments := [⟨"\"n=\" + n", [.text "\"n=\"", .var "n"]⟩,
    ⟨"() -> \x7b\x7d", [.other "() -> \x7b\x7d"]⟩]

def longCallPieces : List (List Char) :=
  ["Log.d(".toList ++ ("\"n=\"".toList ++ (" + n, () -> \x7b ".toList ++ "// n = 0;".toList)),
    "  n = ".toList ++ ("/* n =\n 2; */".toList ++ " 1;".toList), "\x7d)".toList]

/-- The lines of the call are cut outside of its string and its comments. -/
theorem isCut_longCallPieces : IsCut longCall.source.toList longCallPieces := by
  -- The first cut is behind a line comment, the second one behind a block comment.
  have hfirst : EndsOutside ("Log.d(".toList ++ ("\"n=\"".toList ++
      (" + n, () -> \x7b ".toList ++ "// n = 0;".toList))) := by
    have hstring : IsItem "\"n=\"".toList :=
      .literal (.string (.plain (by decide) (by decide) (.plain (by decide) (by decide) .close)))
    have hcomment : EndsOutside "// n = 0;".toList :=
      @EndsOutside.line " n = 0;".toList [] (by decide +kernel) (.inl rfl) .nil
    exact .plain_append (by decide +kernel) (.item hstring (by decide +kernel)
      (.plain_append (by decide +kernel) hcomment))
  have hsecond : EndsOutside ("  n = ".toList ++ ("/* n =\n 2; */".toList ++ " 1;".toList)) := by
    have hbehind : EndsOutside (" 1;".toList ++ []) := .plain_append (by decide +kernel) .nil
    exact .plain_append (by decide +kernel)
      (@EndsOutside.block " n =\n 2; ".toList " 1;".toList (by decide +kernel) hbehind)
  have hpieces : ∀ piece ∈ longCallPieces.dropLast, EndsOutside piece :=
    List.forall_mem_cons.mpr ⟨hfirst, List.forall_mem_singleton.mpr hsecond⟩
  have hsource : ['\n'].intercalate longCallPieces = longCall.source.toList := by decide +kernel
  exact hsource ▸ isCut_of_endsOutside hpieces

/-- The second line would be evidence for another call. -/
theorem isConsistent?_ne_true_of_long_call :
    IsCut longCall.source.toList longCallPieces ∧
    touches "" (CallSite.ofCall longCall).mentions "n = /* n =\n 2; */ 1;".toList = true ∧
    touches (CallSite.ofCall longCall).text (CallSite.ofCall longCall).mentions
      "n = /* n =\n 2; */ 1;".toList = false ∧
    isConsistent? (CallSite.ofCall longCall) (SomeFacets.of? ⟨false, true, false⟩)
      (some longCallPieces) ≠ some true := by
  obtain ⟨htouches, hconsistent⟩ := isConsistent?_ne_true_of_own_lines isCut_longCallPieces
  refine ⟨isCut_longCallPieces, by decide +kernel, ?_, hconsistent _ _ ?_⟩
  · exact htouches longCallPieces[1] (by decide) _ (by decide +kernel) _
  · intro line hmem
    exact ⟨line, hmem, .inl rfl⟩

end LogDrift
