import Mathlib.Data.List.Basic
import LogDrift.Proofs.Lexemes

/-! # Texts in front of other texts

The scanner looks at most two characters ahead, so a text is read in front of another one much as it
is read alone. The tokens that end within the text stay as they are if what follows cannot join
them; only a comment or a literal that the text leaves open goes on. Therefore what is written of a
text begins what is written of a longer one.

## Key results

- `first?_append`: the first token of a text, with another text behind
- `prefix_renderFrom_scan_append`: what is written of a text begins what is written of a longer one
-/

namespace LogDrift.Text

/-- Whether a text begins with nothing that joins what stands in front of it. -/
def StandsApart (cs : List Char) : Prop :=
  cs.head? ≠ some '/' ∧ cs.head? ≠ some '*' ∧ cs.head? ≠ some '"'

/-- A text of characters that neither a slash, a star nor a quote is among stands apart. -/
theorem standsApart_of_forall {p : Char → Prop} {cs : List Char} (h : ∀ c ∈ cs, p c)
    (hslash : ¬ p '/') (hstar : ¬ p '*') (hquote : ¬ p '"') : StandsApart cs :=
  ⟨fun hc => hslash (h _ (List.mem_of_head? hc)), fun hc => hstar (h _ (List.mem_of_head? hc)),
    fun hc => hquote (h _ (List.mem_of_head? hc))⟩

/-- What stands in front of such a text does not join it. -/
theorem StandsApart.not_joins {cs : List Char} (h : StandsApart cs) (item : List Char) :
    ¬ Joins item cs.head? :=
  Text.not_joins h.1 h.2.1 h.2.2

/-! ## The first token -/

/-- A block comment that ends does so whatever follows the text. -/
private theorem blockCommentBody_append_right (cs tail : List Char) :
    (blockCommentBody cs).2 = [] ∨
      (blockCommentBody (cs ++ tail)).2 = (blockCommentBody cs).2 ++ tail := by
  fun_induction blockCommentBody cs with
  | case1 => exact .inl rfl
  | case2 cs => exact .inr rfl
  -- The text does not begin with the end of the comment, and neither does the longer one.
  | case3 c cs hend ih =>
    cases cs with
    | nil => exact .inl rfl
    | cons d cs =>
      refine ih.imp id fun hrest => ?_
      rw [List.cons_append, blockCommentBody]
      · exact hrest
      · intro more hstar hslash
        exact hend cs hstar (by rw [(List.cons.inj hslash).1])

/-- A comment that ends does so whatever follows the text. -/
theorem commentBody?_append_right {cs body rest : List Char}
    (h : commentBody? cs = some (body, rest)) (tail : List Char) :
    rest = [] ∨ ∃ body', commentBody? (cs ++ tail) = some (body', rest ++ tail) := by
  unfold commentBody? at h
  split at h
  · rename_i cs
    cases h
    -- A line comment is ended by a line break in the text, or else goes on to the end of it.
    by_cases hnil : cs.dropWhile (fun c => decide (c ≠ '\n')) = []
    · exact .inl hnil
    · refine .inr ⟨'/' :: (cs ++ tail).takeWhile (· ≠ '\n'), ?_⟩
      rw [List.cons_append, commentBody?, List.dropWhile_append, List.isEmpty_eq_false_iff.mpr hnil]
      rfl
  · rename_i cs
    cases h
    refine (blockCommentBody_append_right cs tail).imp id fun hrest =>
      ⟨'*' :: (blockCommentBody (cs ++ tail)).1, ?_⟩
    rw [List.cons_append, commentBody?]
    exact congrArg (fun r => some ('*' :: (blockCommentBody (cs ++ tail)).1, r)) hrest
  · cases h

/-- Layout at the beginning is a blank or a comment. -/
theorem first?_eq_layout {cs rest : List Char} (h : Token.first? cs = some (.layout, rest)) :
    (∃ c, isBlank c = true ∧ cs = c :: rest) ∨
      ∃ body more, cs = '/' :: more ∧ commentBody? more = some (body, rest) := by
  -- Only a comment and a blank are layout; every other case reads an item or nothing.
  unfold Token.first? at h
  split at h
  · cases h
  rename_i c cs
  split at h
  · cases h
  split at h
  · rename_i hslash
    subst hslash
    split at h
    · rename_i body rest' hcomment
      cases h
      exact .inr ⟨body, cs, rfl, hcomment⟩
    · cases h
  split at h
  · rename_i hblank
    cases h
    exact .inl ⟨c, hblank, rfl⟩
  · cases h

/-- What begins a longer text with layout begins with layout itself. -/
theorem first?_layout_of_append {cs tail rest' : List Char} (hne : cs ≠ [])
    (htail : StandsApart tail) (h : Token.first? (cs ++ tail) = some (.layout, rest')) :
    ∃ rest, Token.first? cs = some (.layout, rest) := by
  obtain ⟨c, cs, rfl⟩ := List.exists_cons_of_ne_nil hne
  rw [List.cons_append] at h
  obtain ⟨d, hblank, hcs⟩ | ⟨body, more, hcs, hcomment⟩ := first?_eq_layout h
  · obtain ⟨rfl, -⟩ := List.cons.inj hcs
    exact ⟨cs, first?_blank hblank cs⟩
  · obtain ⟨rfl, rfl⟩ := List.cons.inj hcs
    cases hbody : commentBody? cs with
    | some comment => exact ⟨comment.2, first?_comment hbody⟩
    | none =>
      -- Neither the text nor what follows it has the second character of the opening.
      have hnone : commentBody? (cs ++ tail) = none := by
        rw [commentBody?_eq_none_iff] at hbody ⊢
        cases cs with
        | nil => exact ⟨htail.1, htail.2.1⟩
        | cons d cs => exact hbody
      rw [hnone] at hcomment
      cases hcomment

/-- A solid token that begins a longer text begins the text itself, or reaches to its end. -/
theorem first?_solid_of_append {cs tail text rest' : List Char}
    (h : Token.first? (cs ++ tail) = some (.solid text, rest')) :
    (∃ more, text = cs ++ more) ∨
      ∃ rest, rest ≠ [] ∧ Token.first? cs = some (.solid text, rest) := by
  obtain ⟨piece, -, happend, hlayout | ⟨hsolid, hitem⟩⟩ := first?_eq_some h
  · cases hlayout
  cases hsolid
  -- The item ends behind the first text, or within it.
  obtain ⟨more, rfl, -⟩ | ⟨rest, rfl, rfl⟩ := List.append_eq_append_iff.mp happend
  · exact .inl ⟨more, rfl⟩
  by_cases hnil : rest = []
  · exact .inl ⟨[], by rw [hnil, List.append_nil, List.append_nil]⟩
  · refine .inr ⟨rest, hnil, ?_⟩
    have hitem : IsItem text := hitem.resolve_right (List.append_ne_nil_of_left_ne_nil hnil _)
    have hjoins : ¬ Joins text (rest ++ tail).head? :=
      not_joins_of_first? (by rw [← List.append_assoc, h])
    rw [List.head?_append_of_ne_nil _ hnil] at hjoins
    exact hitem.first?_append hjoins

/-- With another text behind, the first token stays, unless it reaches to the end of the text: then
    it may be a comment that goes on, or a literal that does. -/
theorem first?_append {cs rest tail : List Char} {token : Token} (htail : StandsApart tail)
    (h : Token.first? cs = some (token, rest)) :
    Token.first? (cs ++ tail) = some (token, rest ++ tail) ∨
      rest = [] ∧ (token = .layout ∨ token = .solid cs ∧
        ∃ more rest', Token.first? (cs ++ tail) = some (.solid (cs ++ more), rest')) := by
  obtain ⟨piece, hne, hcs, rfl | ⟨rfl, hpiece⟩⟩ := first?_eq_some h
  · obtain ⟨c, hblank, rfl⟩ | ⟨body, more, rfl, hcomment⟩ := first?_eq_layout h
    · exact .inl (first?_blank hblank _)
    · rcases commentBody?_append_right hcomment tail with hrest | ⟨body', hmore⟩
      · exact .inr ⟨hrest, .inl rfl⟩
      · exact .inl (first?_comment hmore)
  -- An item is read again, as what follows it does not join it.
  by_cases hitem : IsItem piece
  · refine .inl ?_
    rw [hcs, List.append_assoc]
    refine hitem.first?_append ?_
    by_cases hnil : rest = []
    · rw [hnil]
      exact htail.not_joins piece
    · rw [List.head?_append_of_ne_nil _ hnil]
      exact not_joins_of_first? (hcs ▸ h)
  · -- The text is a literal that is not closed.
    have hrest : rest = [] := hpiece.resolve_left hitem
    rw [hrest, List.append_nil] at hcs
    rw [← hcs] at h hne ⊢
    refine .inr ⟨hrest, .inr ⟨rfl, ?_⟩⟩
    cases hfirst : Token.first? (cs ++ tail) with
    | none => exact absurd (first?_eq_none_iff.mp hfirst) (List.append_ne_nil_of_left_ne_nil hne _)
    | some first =>
      obtain ⟨token | text, rest'⟩ := first
      · obtain ⟨_, hlayout⟩ := first?_layout_of_append hne htail hfirst
        rw [h] at hlayout
        cases hlayout
      · obtain ⟨more, rfl⟩ | ⟨_, hne', hsolid⟩ := first?_solid_of_append hfirst
        · exact ⟨more, rest', rfl⟩
        · rw [h] at hsolid
          cases hsolid
          exact absurd hrest hne'

/-! ## What is written -/

/-- What is written of a text begins what is written of a longer one. -/
theorem prefix_renderFrom_scan_append {tail : List Char} (htail : StandsApart tail) (cs : List Char)
    (before : Option Char) (gap : Bool) :
    Token.renderFrom before gap (Token.scan cs) <+:
      Token.renderFrom before gap (Token.scan (cs ++ tail)) := by
  induction cs using first?_induction generalizing before gap with
  | nil =>
    rw [scan_nil, Token.renderFrom]
    exact List.nil_prefix
  | step token cs rest hfirst ih =>
    rw [scan_of_first? hfirst]
    obtain hsame | ⟨rfl, rfl | ⟨rfl, more, rest', hmore⟩⟩ := first?_append htail hfirst
    · rw [scan_of_first? hsame]
      cases token with
      | layout => exact ih before true
      | solid text => exact (List.prefix_append_right_inj _).mpr (ih _ _)
    · rw [scan_nil]
      exact List.nil_prefix
    · -- A literal that goes on is written on.
      have hne : cs ≠ [] := by
        rintro rfl
        cases hfirst
      have hhead : (cs ++ more).head? = cs.head? := List.head?_append_of_ne_nil cs hne
      rw [scan_of_first? hmore, scan_nil, Token.renderFrom, Token.renderFrom, Token.renderFrom,
        List.append_nil, hhead, List.append_assoc, List.append_assoc]
      exact (List.prefix_append_right_inj _).mpr (List.prefix_append _ _)

end LogDrift.Text
