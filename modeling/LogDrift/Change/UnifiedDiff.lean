import LogDrift.Text.Split

/-! # Added lines of a unified diff

A line of a unified diff shows by its first character what became of it: a blank for a line kept,
a minus for a line removed, a plus for a line added. `addedLines` reads the added lines back. It
goes by the line alone, so the header line of the new file, which starts with three plus signs, is
left out by its start.

`HunkLine.render` is the other side, the text of one line of a hunk.
-/

namespace LogDrift.UnifiedDiff

/-- A line of a hunk. -/
inductive HunkLine where
  | kept (text : List Char)
  | removed (text : List Char)
  | added (text : List Char)
deriving DecidableEq

/-- The mark of a line in front of its text. -/
def HunkLine.render : HunkLine → List Char
  | kept text => ' ' :: text
  | removed text => '-' :: text
  | added text => '+' :: text

/-- The text of an added line, given the line with its mark; `none` for any other line. -/
def addedText? : List Char → Option (List Char)
  | '+' :: '+' :: '+' :: _ => none
  | '+' :: text => some text
  | _ => none

/-- The texts of the added lines of a diff, in order. -/
def addedLines (diff : List Char) : List (List Char) :=
  (Text.lines diff).filterMap addedText?

/-- The mark of an added line is dropped, unless the text makes it look like a header. -/
theorem addedText?_render_added {text : List Char} (h : ¬ ['+', '+'] <+: text) :
    addedText? (HunkLine.added text).render = some text := by
  unfold HunkLine.render addedText?
  split
  · rename_i heq
    simp only [List.cons.injEq, true_and] at heq
    exact absurd (heq ▸ ⟨_, rfl⟩) h
  · simp_all
  · simp_all

end LogDrift.UnifiedDiff
