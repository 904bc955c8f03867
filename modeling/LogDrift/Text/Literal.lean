/-! # Literals of program text

Where a quoted literal ends. A literal opens with a quote, double or single, or with three double
quotes (a text block); a backslash takes the character after it along, whatever it is; the literal
ends with the first closing delimiter after that rule, and one that is never closed runs to the end
of the text.

Main statements: the body and the rest are the whole text (`quotedBody_append`,
`blockBody_append`, `literalBody_append`), so a literal never reaches past the end, and what
follows is no longer than what was read (`length_afterLiteral_le`).
-/

namespace LogDrift.Text

/-- Cuts the text after an opening `quote` behind the closing one. -/
def quotedBody (quote : Char) : List Char → List Char × List Char
  | [] => ([], [])
  | ['\\'] => (['\\'], [])
  | '\\' :: c :: cs => (quotedBody quote cs).map ('\\' :: c :: ·) id
  | c :: cs =>
    if c = quote then ([c], cs)
    else (quotedBody quote cs).map (c :: ·) id

/-- Cuts the text after an opening `"""` behind the closing one. -/
def blockBody : List Char → List Char × List Char
  | [] => ([], [])
  | ['\\'] => (['\\'], [])
  | '\\' :: c :: cs => (blockBody cs).map ('\\' :: c :: ·) id
  | '"' :: '"' :: '"' :: cs => (['"', '"', '"'], cs)
  | c :: cs => (blockBody cs).map (c :: ·) id

/-- Cuts the text after the first quote of a literal behind the literal's end. -/
def literalBody (quote : Char) (cs : List Char) : List Char × List Char :=
  match quote, cs with
  | '"', '"' :: '"' :: body => (blockBody body).map ('"' :: '"' :: ·) id
  | _, _ => quotedBody quote cs

/-- Whether a character opens a literal. -/
def isQuote (c : Char) : Bool := c = '"' || c = '\x27'

/-! ## One character at a time -/

/-- What is no backslash in front of the end of a text, and none in front of another character, is
    none at all. -/
theorem ne_backslash_of_forall {c : Char} {cs : List Char} (hend : c = '\\' → cs = [] → False)
    (hescape : ∀ d rest, c = '\\' → cs = d :: rest → False) : c ≠ '\\' := by
  rintro rfl
  cases cs with
  | nil => exact hend rfl rfl
  | cons d rest => exact hescape d rest rfl rfl

/-- Another character than a backslash ends the literal, or belongs to it. -/
theorem quotedBody_cons {quote c : Char} (hc : c ≠ '\\') (cs : List Char) :
    quotedBody quote (c :: cs) =
      if c = quote then ([c], cs) else (quotedBody quote cs).map (c :: ·) id := by
  rw [quotedBody]
  · exact fun h => absurd h hc
  · exact fun _ _ h => absurd h hc

/-- A backslash takes the character after it along, if there is one. -/
theorem snd_quotedBody_backslash (quote : Char) (cs : List Char) :
    (quotedBody quote ('\\' :: cs)).2 = (quotedBody quote (cs.drop 1)).2 := by
  cases cs <;> rfl

/-- Another character than a backslash belongs to the text block, unless the closing quotes start
    there. -/
theorem blockBody_cons {c : Char} {cs : List Char} (hc : c ≠ '\\')
    (hopen : ¬ ['"', '"', '"'] <+: c :: cs) :
    blockBody (c :: cs) = (blockBody cs).map (c :: ·) id := by
  rw [blockBody]
  · exact fun h => absurd h hc
  · exact fun _ _ h => absurd h hc
  · rintro tail rfl rfl
    exact hopen (List.prefix_append ['"', '"', '"'] tail)

theorem snd_blockBody_backslash (cs : List Char) :
    (blockBody ('\\' :: cs)).2 = (blockBody (cs.drop 1)).2 := by
  cases cs <;> rfl

/-! ## Nothing is lost -/

theorem quotedBody_append (quote : Char) (cs : List Char) :
    (quotedBody quote cs).1 ++ (quotedBody quote cs).2 = cs := by
  fun_induction quotedBody quote cs <;> simp_all

theorem blockBody_append (cs : List Char) : (blockBody cs).1 ++ (blockBody cs).2 = cs := by
  fun_induction blockBody cs <;> simp_all

/-- A literal and what follows it are the whole text, however it is quoted. -/
theorem literalBody_append (quote : Char) (cs : List Char) :
    (literalBody quote cs).1 ++ (literalBody quote cs).2 = cs := by
  unfold literalBody
  split
  · simp [blockBody_append]
  · exact quotedBody_append quote cs

/-- What follows a literal is no longer than the text after its first quote. -/
theorem length_afterLiteral_le (quote : Char) (cs : List Char) :
    (literalBody quote cs).2.length ≤ cs.length := by
  have h := congrArg List.length (literalBody_append quote cs)
  rw [List.length_append] at h
  omega

end LogDrift.Text
