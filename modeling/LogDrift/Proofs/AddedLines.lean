import Mathlib.Data.List.Basic
import LogDrift.Change.UnifiedDiff

/-!
# Added lines as they were written

A unified diff is written line by line: header lines, which begin with a keyword, and the lines of
hunks behind their marks (`Line.render`). The added lines are read back line by line, too, and each
line is judged by its start alone. So no header line is taken for an added line, but an added line
whose text begins with two plus signs is taken for a header line: behind the mark it reads like the
header line of the new file.

## Key results

- `Text.lines_writeLines`: a text has the lines that it was written from
- `addedText?_render`: what is read of one line of a diff
- `addedLines_text`: what is read of a whole diff
-/

namespace LogDrift

namespace Text

/-- What ends a line of a text. -/
inductive LineEnd where
  | newline
  | returnNewline

/-- A line end as it is written. -/
def LineEnd.render : LineEnd → List Char
  | newline => ['\n']
  | returnNewline => ['\r', '\n']

/-- The text of lines that are ended, and of a last one that is not. There is no last one if it is
    empty. -/
def writeLines (ended : List (List Char × LineEnd)) (last : List Char) : List Char :=
  ended.flatMap (fun line => line.1 ++ line.2.render) ++ last

/-- Whether nothing of a line can be taken for an end of it. -/
def Unbroken (line : List Char) : Prop := '\n' ∉ line ∧ line.getLast? ≠ some '\r'

instance (line : List Char) : Decidable (Unbroken line) :=
  inferInstanceAs (Decidable ('\n' ∉ line ∧ line.getLast? ≠ some '\r'))

/-- A line stays unbroken if something unbroken stands in front of it. -/
theorem Unbroken.append {front line : List Char} (hfront : Unbroken front) (h : Unbroken line) :
    Unbroken (front ++ line) := by
  unfold Unbroken at *
  rw [List.getLast?_append]
  cases hlast : line.getLast? with
  | none => simp [hfront, h.1]
  | some c =>
    rw [hlast] at h
    simp [hfront.1, h]

/-- Either end of a line is dropped from it. -/
theorem lines_append_end {line : List Char} (h : Unbroken line) (lineEnd : LineEnd)
    (rest : List Char) : lines (line ++ lineEnd.render ++ rest) = line :: lines rest := by
  cases lineEnd with
  | newline =>
    have hwhole : line ++ LineEnd.newline.render ++ rest = line ++ '\n' :: rest := by
      simp [LineEnd.render]
    rw [hwhole, lines_append_cons h.1, dropReturn, if_neg h.2]
  -- The return is read as a part of the line, and dropped from its end.
  | returnNewline =>
    have hwhole : line ++ LineEnd.returnNewline.render ++ rest = line ++ ['\r'] ++ '\n' :: rest := by
      simp [LineEnd.render]
    have hreturn : '\n' ∉ line ++ ['\r'] := by
      simp [h.1]
    rw [hwhole, lines_append_cons hreturn]
    simp [dropReturn]

/-- A text has the lines that it was written from. -/
theorem lines_writeLines {ended : List (List Char × LineEnd)} {last : List Char}
    (hended : ∀ line ∈ ended, Unbroken line.1) (hlast : Unbroken last) :
    lines (writeLines ended last) = ended.map (·.1) ++ if last.isEmpty then [] else [last] := by
  -- Line by line, from the front: each end that is written is found again.
  induction ended with
  | nil => simp [writeLines, lines_of_not_mem hlast.1]
  | cons line ended ih =>
    obtain ⟨hline, hended⟩ := List.forall_mem_cons.mp hended
    have hwrite : writeLines (line :: ended) last =
        line.1 ++ line.2.render ++ writeLines ended last := by
      simp [writeLines]
    rw [hwrite, lines_append_end hline, ih hended]
    simp

end Text

namespace UnifiedDiff

open Text

/-! ## Lines of a diff -/

/-- A kind of header line, of a file or of a hunk. -/
inductive Header where
  | comparison
  | index
  | oldFile
  | newFile
  | hunk

/-- What a header line begins with. -/
def Header.keyword : Header → List Char
  | comparison => ['d', 'i', 'f', 'f']
  | index => ['i', 'n', 'd', 'e', 'x']
  | oldFile => ['-', '-', '-']
  | newFile => ['+', '+', '+']
  | hunk => ['@', '@']

/-- The text of a line of a hunk, without its mark. -/
def HunkLine.text : HunkLine → List Char
  | kept text => text
  | removed text => text
  | added text => text

/-- A line of a unified diff. -/
inductive Line where
  | header (kind : Header) (text : List Char)
  | source (line : HunkLine)

namespace Line

/-- A line of a diff as it is written. -/
def render : Line → List Char
  | header kind text => kind.keyword ++ ' ' :: text
  | source line => line.render

/-- What stands behind the keyword or the mark. -/
def text : Line → List Char
  | header _ text => text
  | source line => line.text

/-- The text of an added line. -/
def added? : Line → Option (List Char)
  | source (.added text) => some text
  | _ => none

/-- No line of a diff is written as an empty one, not even one with an empty text. -/
theorem render_ne_nil (line : Line) : line.render ≠ [] := by
  cases line with
  | header kind text => simp [render]
  | source line => cases line <;> simp [render, HunkLine.render]

/-- Neither a keyword nor a mark has an end of a line in it. -/
theorem unbroken_render {line : Line} (h : Unbroken line.text) : Unbroken line.render := by
  cases line with
  | header kind text =>
    -- What stands in front of the text is one of a few fixed starts.
    have hkeyword : Unbroken (kind.keyword ++ [' ']) := by
      cases kind <;> decide
    have hrender : (header kind text).render = kind.keyword ++ [' '] ++ text := by
      simp [render]
    rw [hrender]
    exact hkeyword.append h
  | source line =>
    have hkept : Unbroken [' '] := by decide
    have hremoved : Unbroken ['-'] := by decide
    have hadded : Unbroken ['+'] := by decide
    cases line with
    | kept text => exact hkept.append h
    | removed text => exact hremoved.append h
    | added text => exact hadded.append h

end Line

/-! ## Reading a line -/

/-- The header line of the new file is told by its three plus signs, every other one by its first
    character. -/
theorem addedText?_header (kind : Header) (text : List Char) :
    addedText? (Line.header kind text).render = none := by
  cases kind <;> rfl

/-- An added line is read by the text behind its mark, unless this makes it look like a header
    line. -/
theorem addedText?_added (text : List Char) :
    addedText? (HunkLine.added text).render =
      if ['+', '+'] <+: text then none else some text := by
  split
  · -- With two plus signs behind the mark, the line begins as the header line of the new file does.
    rename_i hprefix
    obtain ⟨rest, rfl⟩ := hprefix
    rfl
  · rename_i hprefix
    exact addedText?_render_added hprefix

/-- Of the lines of a diff, the added ones are read, except those whose text begins with two plus
    signs. -/
theorem addedText?_render (line : Line) :
    addedText? line.render = line.added?.filter fun text => ¬ ['+', '+'] <+: text := by
  cases line with
  | header kind text => exact addedText?_header kind text
  | source line =>
    cases line with
    | kept text => rfl
    | removed text => rfl
    | added text =>
      show addedText? (HunkLine.added text).render = _
      rw [addedText?_added]
      by_cases hprefix : ['+', '+'] <+: text <;> simp [Line.added?, Option.filter, hprefix]

/-! ## Reading a diff -/

/-- A unified diff as it is written: lines with their ends, and a last one that may be without. -/
structure Diff where
  ended : List (Line × LineEnd)
  last : Option Line

namespace Diff

/-- The lines of a diff, the last one included. -/
def lines (diff : Diff) : List Line := diff.ended.map (·.1) ++ diff.last.toList

/-- The text of a diff, line by line. -/
def text (diff : Diff) : List Char :=
  writeLines (diff.ended.map fun line => (line.1.render, line.2))
    ((diff.last.map Line.render).getD [])

/-- The texts of the added lines, in order. -/
def added (diff : Diff) : List (List Char) := diff.lines.filterMap Line.added?

/-- A written diff has the lines that it was written from. -/
theorem lines_text {diff : Diff} (h : ∀ line ∈ diff.lines, Unbroken line.text) :
    Text.lines diff.text = diff.lines.map Line.render := by
  obtain ⟨ended, last⟩ := diff
  have hended : ∀ line ∈ ended.map (fun line => (line.1.render, line.2)), Unbroken line.1 := by
    intro line hline
    obtain ⟨source, hsource, rfl⟩ := List.mem_map.mp hline
    exact Line.unbroken_render (h source.1 (List.mem_append_left _ (List.mem_map_of_mem hsource)))
  cases last with
  -- Without a last line, what is not ended is empty and no line.
  | none =>
    have hlast : Unbroken [] := by decide
    simp [text, lines, lines_writeLines hended hlast]
  | some line =>
    have hlast : Unbroken line.render :=
      Line.unbroken_render (h line (List.mem_append_right _ List.mem_cons_self))
    simp [text, lines, lines_writeLines hended hlast, line.render_ne_nil]

end Diff

/-- A diff of one line, which is now incremented before it is read. -/
def diffOfIncrement : Diff where
  ended := [
    (.header .comparison "--git a/A.java b/A.java".toList, .newline),
    (.header .oldFile "a/A.java".toList, .newline),
    (.header .newFile "b/A.java".toList, .newline),
    (.header .hunk "-3 +3 @@ void run()".toList, .newline),
    (.source (.removed "i++;".toList), .newline),
    (.source (.added "++i;".toList), .newline)]
  last := none

/-- The line that increments is added, but it is not read. -/
theorem added_increment_is_not_read :
    (∀ line ∈ diffOfIncrement.lines, Unbroken line.text) ∧
    diffOfIncrement.added = ["++i;".toList] ∧ addedLines diffOfIncrement.text = [] := by
  decide +kernel

/-- Of a diff that is written line by line, the added lines are read back in order, except those
    whose text begins with two plus signs. So all of them are read back if and only if there is no
    such line. -/
theorem addedLines_text {diff : Diff} (h : ∀ line ∈ diff.lines, Unbroken line.text) :
    addedLines diff.text = diff.added.filter (fun text => ¬ ['+', '+'] <+: text) ∧
    (addedLines diff.text = diff.added ↔ ∀ text ∈ diff.added, ¬ ['+', '+'] <+: text) := by
  have hread : addedLines diff.text =
      diff.added.filter fun text => ¬ ['+', '+'] <+: text := by
    rw [addedLines, Diff.lines_text h, List.filterMap_map, Diff.added, List.filter_filterMap]
    apply List.filterMap_congr
    intro line _
    exact addedText?_render line
  constructor
  · exact hread
  · rw [hread, List.filter_eq_self]
    simp only [decide_eq_true_eq]

/-- A diff with both line ends, whose last line is not ended. Texts that begin with other marks, or
    with one plus sign, are read as they are. -/
def diffOfMarks : Diff where
  ended := [
    (.header .index "83db48f..bf269f4".toList, .returnNewline),
    (.header .newFile "b/A.java".toList, .newline),
    (.header .hunk "-1,2 +1,4 @@".toList, .newline),
    (.source (.kept "+ b;".toList), .returnNewline),
    (.source (.added "+ c;".toList), .returnNewline),
    (.source (.removed "++a;".toList), .newline),
    (.source (.added "-- a/A.java".toList), .newline),
    (.source (.added []), .newline)]
  last := some (.source (.added "++ d;".toList))

/-- Only the last line is not read. -/
theorem addedLines_text_of_marks :
    (∀ line ∈ diffOfMarks.lines, Unbroken line.text) ∧
    addedLines diffOfMarks.text = ["+ c;".toList, "-- a/A.java".toList, []] := by
  have hunbroken : ∀ line ∈ diffOfMarks.lines, Unbroken line.text := by decide +kernel
  refine ⟨hunbroken, ?_⟩
  rw [(addedLines_text hunbroken).1]
  decide +kernel

end UnifiedDiff

end LogDrift
