import LogDrift.Call.Site

/-!
# Letter case in the names of logging calls

The filter that accepts a logging call and the table that says how severe its message is both read
the name without regard to case, but not in the same way: the filter folds characters as Unicode
does (`Text.foldCase`), the table only knows the ASCII letters (`Text.lowerAscii`). Two characters
fold to a letter without being one, the Kelvin sign and the long s. There is no `k` in the words of
either, so they part on the long s alone: a level that is spelled with it has no severity, and an
error stream that is spelled with it is a stream like any other.

## Key results

- `Text.lowerAscii_eq_iff`: the two ways to compare, side by side
- `Severity.of?_eq_none_iff`, `Severity.of?_of_printLevel`: what the table says
- `filter_alone_folds_long_s`: a call with a long s in its level, and one with it in its stream
- `severity_of_logging_name`: the table agrees with the filter but for the long s
-/

namespace LogDrift

namespace Text

/-! ## Two ways to compare -/

/-- The letter that folds to `s`. -/
def longS : Char := Char.ofNat 0x17f

/-- Whether a word is made of ASCII characters other than `k`. -/
def IsPlain (word : List Char) : Prop := ∀ c ∈ word, c.toNat < 128 ∧ c ≠ 'k'

instance (word : List Char) : Decidable (IsPlain word) :=
  decidable_of_iff ((word.all fun c => decide (c.toNat < 128 ∧ c ≠ 'k')) = true)
    (by simp only [IsPlain, List.all_eq_true, decide_eq_true_eq])

/-- A character is a letter but for the case if it folds to it, unless it is the long s. -/
theorem toLower_eq_iff {c d : Char} (hascii : d.toNat < 128) (hk : d ≠ 'k') :
    c.toLower = d ↔ foldCase c = d ∧ c ≠ longS := by
  by_cases hlong : c = longS
  · subst hlong
    have hlower : longS.toLower ≠ d := by
      rintro rfl
      exact absurd hascii (by decide)
    exact iff_of_false hlower fun h => h.2 rfl
  · -- The Kelvin sign folds to `k`, which is no character of a plain word.
    by_cases hkelvin : c = Char.ofNat 0x212a
    · subst hkelvin
      have hlower : (Char.ofNat 0x212a).toLower ≠ d := by
        rintro rfl
        exact absurd hascii (by decide)
      have hfold : foldCase (Char.ofNat 0x212a) = 'k' := by decide
      exact iff_of_false hlower fun h => hk (h.1.symm.trans hfold)
    · have hlong' : c ≠ Char.ofNat 0x17f := hlong
      rw [foldCase, if_neg hlong', if_neg hkelvin, and_iff_left hlong]

/-- A text that is a plain word but for the case of ASCII letters is one that folds to it and has no
    long s. -/
theorem lowerAscii_eq_iff {word : List Char} (hword : IsPlain word) {cs : List Char} :
    lowerAscii cs = word ↔ cs.map foldCase = word ∧ longS ∉ cs := by
  unfold lowerAscii
  induction cs generalizing word with
  | nil => simp
  | cons c cs ih =>
    cases word with
    | nil => simp
    | cons d word =>
      obtain ⟨⟨hascii, hk⟩, hrest⟩ := List.forall_mem_cons.mp hword
      rw [List.map_cons, List.map_cons, List.cons.injEq, List.cons.injEq, toLower_eq_iff hascii hk,
        ih hrest, List.mem_cons, not_or, ne_comm (a := c)]
      exact and_and_and_comm

/-- A text is one of the words of a table, case aside, if it folds to it. -/
theorem isOneOf_iff {table : List String} {cs : List Char} :
    isOneOf table cs = true ↔ ∃ word ∈ table, cs.map foldCase = word.toList := by
  rw [isOneOf, List.any_eq_true]
  simp only [beq_iff_eq]
  exact exists_congr fun word => and_congr_right fun _ => eq_comm

/-- It is one word, case aside, if it folds to this word. -/
theorem isOneOf_singleton {word : String} {cs : List Char} :
    isOneOf [word] cs = true ↔ cs.map foldCase = word.toList := by
  simp [isOneOf_iff]

/-- A text with a long s does not fold to a word without `s`. -/
private theorem longS_not_mem_of_map_foldCase {cs word : List Char} (h : cs.map foldCase = word)
    (hs : 's' ∉ word) : longS ∉ cs := by
  intro hlong
  have hfold : foldCase longS = 's' := by decide
  exact hs (h ▸ hfold ▸ List.mem_map_of_mem hlong)

end Text

/-! ## What the table says -/

namespace Severity

open Text

/-- The levels that the table knows. -/
def knownLevels : List String := levels.flatMap (·.2) ++ printLevels

/-- A level has no severity if the table does not know it. -/
theorem of?_eq_none_iff {level name : String} :
    of? level name = none ↔ String.ofList (lowerAscii level.toList) ∉ knownLevels := by
  simp only [of?, knownLevels, List.mem_append, List.mem_flatMap, not_or]
  split
  · -- A level in one of the rows is known and has the severity of the row.
    rename_i row hrow
    have hmem := List.mem_of_find?_eq_some hrow
    have hcontains := List.find?_some hrow
    simp only [List.contains_iff_mem] at hcontains
    simpa using fun h => absurd hcontains (h row.1 row.2 hmem)
  · rename_i hnone
    rw [List.find?_eq_none] at hnone
    have hlevels : ¬ ∃ row ∈ levels, String.ofList (lowerAscii level.toList) ∈ row.2 := by
      simpa using hnone
    rw [and_iff_right hlevels]
    split
    · rename_i hprint
      rw [List.contains_iff_mem] at hprint
      split <;> simp [hprint]
    · rename_i hprint
      simpa using hprint

/-- A level that prints has the severity of the stream. -/
theorem of?_of_printLevel {level name : String}
    (h : String.ofList (lowerAscii level.toList) ∈ printLevels) :
    of? level name =
      some (if errorStream.toList <:+ lowerAscii (callerOf name).toList then error else info) := by
  have hnone : ∀ word ∈ printLevels, levels.find? (·.2.contains word) = none := by decide
  simp only [of?, hnone _ h, List.contains_iff_mem, h, if_true, List.isSuffixOf_iff_suffix]
  split <;> rfl

end Severity

/-! ## The filter and the table -/

open Text

/-- The lowered text ends with a plain word if the text ends with it, case aside, and without a long
    s. -/
private theorem suffix_lowerAscii_iff {word : String} (hword : IsPlain word.toList)
    {cs : List Char} :
    word.toList <:+ lowerAscii cs ↔
      ∃ ending, ending <:+ cs ∧ isOneOf [word] ending = true ∧ longS ∉ ending := by
  rw [lowerAscii, List.suffix_map_iff]
  refine exists_congr fun ending => and_congr_right fun _ => ?_
  rw [isOneOf_singleton, ← lowerAscii_eq_iff hword, lowerAscii, eq_comm]

/-- The table knows plain words only. -/
private theorem isPlain_of_mem_knownLevels :
    ∀ word ∈ Severity.knownLevels, IsPlain word.toList := by
  decide +kernel

/-- The table knows the levels of the filter but for `log`. -/
private theorem mem_knownLevels_iff : ∀ word ∈ loggingLevels,
    IsPlain word.toList ∧ (word ∈ Severity.knownLevels ↔ word ≠ "log") := by
  decide +kernel

section

variable {level name : String}

/-- The level of an accepted call has no severity if it is `log`, or is spelled with a long s. -/
theorem of?_eq_none_iff_of_isOneOf (h : isOneOf loggingLevels level.toList = true) :
    Severity.of? level name = none ↔
      isOneOf ["log"] level.toList = true ∨ longS ∈ level.toList := by
  obtain ⟨word, hword, hfold⟩ := isOneOf_iff.mp h
  obtain ⟨hplain, hknown⟩ := mem_knownLevels_iff word hword
  rw [Severity.of?_eq_none_iff]
  by_cases hlong : longS ∈ level.toList
  · -- The table lowers no long s, and knows no level that has one.
    refine iff_of_true (fun hmem => ?_) (.inr hlong)
    have hlower := (String.toList_ofList (l := lowerAscii level.toList)).symm
    exact ((lowerAscii_eq_iff (isPlain_of_mem_knownLevels _ hmem)).mp hlower).2 hlong
  · have hlower : lowerAscii level.toList = word.toList :=
      (lowerAscii_eq_iff hplain).mpr ⟨hfold, hlong⟩
    rw [hlower, String.ofList_toList, hknown, Decidable.not_not, isOneOf_singleton, hfold,
      String.toList_inj, or_iff_left hlong]

/-- A call that prints has the severity of its stream. -/
theorem of?_of_isOneOf_printLevels (h : isOneOf Severity.printLevels level.toList = true) :
    Severity.of? level name =
      some (if Severity.errorStream.toList <:+ lowerAscii (callerOf name).toList then .error
        else .info) := by
  have hprint : ∀ word ∈ Severity.printLevels, IsPlain word.toList ∧ 's' ∉ word.toList := by decide
  obtain ⟨word, hword, hfold⟩ := isOneOf_iff.mp h
  obtain ⟨hplain, hs⟩ := hprint word hword
  have hlower : lowerAscii level.toList = word.toList :=
    (lowerAscii_eq_iff hplain).mpr ⟨hfold, longS_not_mem_of_map_foldCase hfold hs⟩
  apply Severity.of?_of_printLevel
  rwa [hlower, String.ofList_toList]

end

/-- The filter takes a long s for an `s`: a call whose level is spelled with one is accepted, and so is
    one whose stream is. To the table they are other letters, so the first call has no severity,
    though its level is not `log`, and the second one informs, though its caller ends with the error
    stream. -/
theorem filter_alone_folds_long_s :
    (splitName "Log.\u017fevere" = ("Log", some "\u017fevere") ∧
      isLogging "Log.\u017fevere" true = true ∧
      isOneOf ["severe"] "\u017fevere".toList = true ∧ isOneOf ["log"] "\u017fevere".toList = false ∧
      (CallSite.ofCall ⟨"Log.\u017fevere", "", []⟩).severity? = none) ∧
    (splitName "Sy\u017ftem.err.println" = ("Sy\u017ftem.err", some "println") ∧
      isLogging "Sy\u017ftem.err.println" true = true ∧
      isOneOf [Severity.errorStream] "Sy\u017ftem.err".toList = true ∧
      (CallSite.ofCall ⟨"Sy\u017ftem.err.println", "", []⟩).severity? = some .info) := by
  decide +kernel

/-- The severity of an accepted call with a dotted name. It has none exactly if its level is `log`,
    case aside as the filter takes it, or is spelled with a long s. If its level is one that prints,
    it is an error exactly if its caller ends with the error stream, case aside again, and has no
    long s there, and it is information otherwise. -/
theorem severity_of_logging_name (call : Call) {caller level : String}
    (hname : splitName call.name = (caller, some level)) (hlog : isLogging call.name true = true) :
    ((CallSite.ofCall call).severity? = none ↔
      isOneOf ["log"] level.toList = true ∨ longS ∈ level.toList) ∧
    (isOneOf Severity.printLevels level.toList = true →
      ((CallSite.ofCall call).severity? = some .error ↔
        ∃ ending, ending <:+ caller.toList ∧ isOneOf [Severity.errorStream] ending = true ∧
          longS ∉ ending) ∧
      ((CallSite.ofCall call).severity? = some .info ↔
        ¬ ∃ ending, ending <:+ caller.toList ∧ isOneOf [Severity.errorStream] ending = true ∧
          longS ∉ ending)) := by
  have hseverity : (CallSite.ofCall call).severity? = Severity.of? level call.name := by
    rw [CallSite.severity?, CallSite.ofCall, verbosityOf, hname, Option.getD_some]
  have hlevel : isOneOf loggingLevels level.toList = true := by
    simp only [isLogging, hname, Option.all_some, Bool.and_eq_true] at hlog
    exact hlog.2
  refine ⟨by rw [hseverity, of?_eq_none_iff_of_isOneOf hlevel], fun hprint => ?_⟩
  have hstream : IsPlain Severity.errorStream.toList := by decide
  rw [hseverity, of?_of_isOneOf_printLevels hprint, callerOf, hname,
    ← suffix_lowerAscii_iff hstream]
  split <;> simp_all

/-- With capital letters and without a long s, the level that has no severity is `log`, and the error
    stream is one. -/
theorem severity_of_logging_name_in_capitals :
    splitName "LOG.SEVERE" = ("LOG", some "SEVERE") ∧ isLogging "LOG.SEVERE" true = true ∧
      (CallSite.ofCall ⟨"LOG.SEVERE", "", []⟩).severity? ≠ none ∧
      splitName "java.lang.System.ERR.PrintLn" = ("java.lang.System.ERR", some "PrintLn") ∧
      isLogging "java.lang.System.ERR.PrintLn" true = true ∧
      isOneOf Severity.printLevels "PrintLn".toList = true ∧
      (CallSite.ofCall ⟨"java.lang.System.ERR.PrintLn", "", []⟩).severity? = some .error := by
  have hsevere : splitName "LOG.SEVERE" = ("LOG", some "SEVERE") := by decide +kernel
  have hprint : splitName "java.lang.System.ERR.PrintLn" =
      ("java.lang.System.ERR", some "PrintLn") := by
    decide +kernel
  have hlevel : isLogging "LOG.SEVERE" true = true := by decide +kernel
  have hstream : isLogging "java.lang.System.ERR.PrintLn" true = true := by decide +kernel
  have hprints : isOneOf Severity.printLevels "PrintLn".toList = true := by decide +kernel
  refine ⟨hsevere, hlevel, ?_, hprint, hstream, hprints, ?_⟩
  · rw [ne_eq, (severity_of_logging_name ⟨"LOG.SEVERE", "", []⟩ hsevere hlevel).1]
    decide +kernel
  · refine ((severity_of_logging_name ⟨"java.lang.System.ERR.PrintLn", "", []⟩ hprint hstream).2
      hprints).1.mpr ⟨"System.ERR".toList, ?_⟩
    decide +kernel

end LogDrift
