/-! # Comments of program text

Where a comment ends. A line comment opens with two slashes and ends in front of the next line
break; a block comment opens with a slash and a star and ends behind the first star and slash after
that.
Either one runs to the end of the text if its end is missing.

Main statements: the comment and the rest are the whole text (`blockCommentBody_append`,
`commentBody?_append`), so what follows a comment is shorter than what was read
(`length_lt_of_commentBody?`).
-/

namespace LogDrift.Text

/-- Cuts the text after the opening of a block comment behind the comment's end. -/
def blockCommentBody : List Char → List Char × List Char
  | [] => ([], [])
  | '*' :: '/' :: cs => (['*', '/'], cs)
  | c :: cs => (blockCommentBody cs).map (c :: ·) id

/-- Cuts the text after a slash behind the end of the comment that the slash opens; `none` if it
    opens none. -/
def commentBody? : List Char → Option (List Char × List Char)
  | '/' :: cs => some ('/' :: cs.takeWhile (· ≠ '\n'), cs.dropWhile (· ≠ '\n'))
  | '*' :: cs => some ((blockCommentBody cs).map ('*' :: ·) id)
  | _ => none

/-! ## Nothing is lost -/

theorem blockCommentBody_append (cs : List Char) :
    (blockCommentBody cs).1 ++ (blockCommentBody cs).2 = cs := by
  fun_induction blockCommentBody cs <;> simp_all

/-- A comment and what follows it are the whole text. -/
theorem commentBody?_append {cs body rest : List Char} (h : commentBody? cs = some (body, rest)) :
    body ++ rest = cs := by
  unfold commentBody? at h
  split at h
  · cases h
    simp
  · cases h
    simp [blockCommentBody_append]
  · cases h

/-- A comment takes at least one character after its first slash. -/
theorem length_lt_of_commentBody? {cs body rest : List Char}
    (h : commentBody? cs = some (body, rest)) : rest.length < cs.length := by
  have hne : body ≠ [] := by
    intro he
    unfold commentBody? at h
    split at h <;> cases h
    all_goals simp at he
  have hpos := List.length_pos_iff.2 hne
  rw [← commentBody?_append h, List.length_append]
  omega

end LogDrift.Text
