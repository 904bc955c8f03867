import Mathlib.Logic.Relation
import LogDrift.Proofs.CanonicalOnce

/-! # Pieces of a text

A text is cut into pieces at line breaks that stand neither in a literal nor in a block comment. The
scanner reads such a line break as a blank, so it starts anew behind it: what is written of a piece
alone occurs in what is written of the whole text, up to a space in front.

## Key results

- `reaches_break_iff`: a line break is outside of literals and block comments exactly if the scanner
  comes to stand in front of it
- `Token.Reaches.render_suffix`: what is written from there on ends what is written of the text
- `IsCut.render_infix`: what is written of a piece occurs in what is written of the text
-/

namespace LogDrift.Text

/-! ## Where the scanner comes by -/

/-- Whether the scanner, having read some tokens of `cs`, stands in front of `rest`. -/
def Token.Reaches : List Char → List Char → Prop :=
  Relation.ReflTransGen fun cs rest => ∃ token, Token.first? cs = some (token, rest)

namespace Token.Reaches

variable {cs rest : List Char}

/-- What the scanner stands in front of is an end of the text. -/
theorem suffix (h : Token.Reaches cs rest) : rest <:+ cs := by
  induction h using Relation.ReflTransGen.head_induction_on with
  | refl => exact List.suffix_refl rest
  | head hfirst _ ih =>
    obtain ⟨token, hfirst⟩ := hfirst
    obtain ⟨piece, -, rfl, -⟩ := first?_eq_some hfirst
    exact ih.trans (List.suffix_append piece _)

/-- The text is scanned in two parts. -/
theorem exists_scan (h : Token.Reaches cs rest) :
    ∃ tokens, Token.scan cs = tokens ++ Token.scan rest := by
  induction h using Relation.ReflTransGen.head_induction_on with
  | refl => exact ⟨[], rfl⟩
  | head hfirst _ ih =>
    obtain ⟨token, hfirst⟩ := hfirst
    obtain ⟨tokens, htokens⟩ := ih
    exact ⟨token :: tokens, by rw [scan_of_first? hfirst, htokens, List.cons_append]⟩

end Token.Reaches

/-- The scanner comes by behind blanks. -/
theorem reaches_of_isBlank {lead : List Char} (h : ∀ c ∈ lead, isBlank c = true)
    (rest : List Char) : Token.Reaches (lead ++ rest) rest := by
  induction lead with
  | nil => exact .refl
  | cons c lead ih =>
    -- Each blank is a token by itself.
    obtain ⟨hc, hlead⟩ := List.forall_mem_cons.mp h
    exact .head ⟨.layout, first?_blank hc _⟩ (ih hlead)

/-! ## Outside of literals and block comments -/

/-- A text that ends outside of literals and block comments, though perhaps in a line comment. It is
    made of blanks, comments, and items that do not join what follows them. -/
inductive EndsOutside : List Char → Prop
  | nil : EndsOutside []
  | blank {c : Char} {cs : List Char} : isBlank c = true → EndsOutside cs → EndsOutside (c :: cs)
  | item {text cs : List Char} :
      IsItem text → ¬ Joins text cs.head? → EndsOutside cs → EndsOutside (text ++ cs)
  | line {body cs : List Char} :
      '\n' ∉ body → cs = [] ∨ cs.head? = some '\n' → EndsOutside cs →
        EndsOutside ('/' :: '/' :: (body ++ cs))
  | block {body cs : List Char} :
      ¬ ['*', '/'] <:+: body ++ ['*'] → EndsOutside cs →
        EndsOutside ('/' :: '*' :: (body ++ '*' :: '/' :: cs))

/-- A line break joins nothing, just as the end of a text. -/
private theorem joins_append_break_iff {item cs : List Char} (rest : List Char) :
    Joins item (cs ++ '\n' :: rest).head? ↔ Joins item cs.head? := by
  cases cs with
  | nil =>
    rw [List.nil_append, List.head?_cons, List.head?_nil]
    exact iff_of_false (not_joins (by decide) (by decide) (by decide))
      (not_joins (by decide) (by decide) (by decide))
  | cons c cs => rfl

/-- The first token in front of a line break leaves a text that ends outside again. -/
private theorem EndsOutside.exists_first? {cs : List Char} (h : EndsOutside cs) (hne : cs ≠ [])
    (rest : List Char) :
    ∃ token cs', EndsOutside cs' ∧
      Token.first? (cs ++ '\n' :: rest) = some (token, cs' ++ '\n' :: rest) := by
  cases h with
  | nil => exact absurd rfl hne
  | @blank c cs hblank h => exact ⟨.layout, cs, h, first?_blank hblank _⟩
  | @item text cs hitem hjoins h =>
    refine ⟨.solid text, cs, h, ?_⟩
    rw [List.append_assoc]
    exact hitem.first?_append (mt (joins_append_break_iff rest).mp hjoins)
  | @line body cs hbody hcs h =>
    refine ⟨.layout, cs, h, ?_⟩
    rw [List.cons_append, List.cons_append, List.append_assoc]
    refine first?_comment (commentBody?_line hbody (.inr ?_))
    -- The comment ends at a line break of the text, or at the one behind it.
    rcases hcs with rfl | hbreak
    · rfl
    · rw [List.head?_append, hbreak]
      rfl
  | @block body cs hbody h =>
    refine ⟨.layout, cs, h, ?_⟩
    rw [List.cons_append, List.cons_append, List.append_assoc]
    exact first?_comment (commentBody?_block hbody _)

/-- A block comment ends at the first star and slash in it, or it runs to the end of the text. -/
private theorem blockCommentBody_eq (cs : List Char) :
    (blockCommentBody cs).2 = [] ∨
      ∃ body, (blockCommentBody cs).1 = body ++ ['*', '/'] ∧ ¬ ['*', '/'] <:+: body ++ ['*'] := by
  fun_induction blockCommentBody cs with
  | case1 => exact .inl rfl
  | case2 => exact .inr ⟨[], rfl, by decide⟩
  | case3 c cs hend ih =>
    refine ih.imp id ?_
    rintro ⟨body, hbody, hin⟩
    refine ⟨c :: body, congrArg (c :: ·) hbody, ?_⟩
    rw [List.cons_append, List.infix_cons_iff]
    rintro (⟨tail, htail⟩ | hin')
    · -- The comment would end with its first character.
      obtain ⟨rfl, hslash⟩ := List.cons.inj htail
      have hcs := blockCommentBody_append cs
      rw [hbody, List.append_assoc] at hcs
      cases body with
      | nil => exact absurd (List.cons.inj hslash).1 (by decide)
      | cons d body =>
        obtain ⟨rfl, -⟩ := List.cons.inj hslash
        exact hend _ rfl hcs.symm
    · exact hin hin'

/-- A comment with anything behind it is a line comment in front of a line break, or a block comment
    up to the first star and slash. -/
private theorem commentBody?_eq_some {cs body rest : List Char}
    (h : commentBody? cs = some (body, rest)) (hne : rest ≠ []) :
    (∃ line, '\n' ∉ line ∧ rest.head? = some '\n' ∧ cs = '/' :: (line ++ rest)) ∨
      ∃ inner, ¬ ['*', '/'] <:+: inner ++ ['*'] ∧ cs = '*' :: (inner ++ '*' :: '/' :: rest) := by
  unfold commentBody? at h
  split at h
  · -- A line comment: it runs up to a line break, as there is something behind it.
    rename_i cs
    cases h
    refine .inl ⟨cs.takeWhile (· ≠ '\n'), ?_, ?_, by rw [List.takeWhile_append_dropWhile]⟩
    · intro hmem
      exact absurd (List.mem_takeWhile_imp hmem) (by decide)
    · obtain ⟨c, rest, hrest⟩ := List.exists_cons_of_ne_nil hne
      have hhead := List.head?_dropWhile_not (· ≠ '\n') cs
      rw [hrest] at hhead ⊢
      simpa using hhead
  · -- A block comment: it is closed, as there is something behind it.
    rename_i cs
    cases h
    obtain ⟨inner, hinner, hin⟩ := (blockCommentBody_eq cs).resolve_left hne
    have hcs := blockCommentBody_append cs
    rw [hinner, List.append_assoc] at hcs
    exact .inr ⟨inner, hin, congrArg ('*' :: ·) hcs.symm⟩
  · cases h

/-- A first token that leaves a text ending outside is found in a text that ends outside. -/
private theorem endsOutside_of_first? {cs cs' rest : List Char} {token : Token}
    (hfirst : Token.first? (cs ++ '\n' :: rest) = some (token, cs' ++ '\n' :: rest))
    (h : EndsOutside cs') : EndsOutside cs := by
  have hne : cs' ++ '\n' :: rest ≠ [] := List.append_ne_nil_of_right_ne_nil _ (List.cons_ne_nil _ _)
  obtain ⟨piece, -, hpiece, rfl | ⟨rfl, hitem⟩⟩ := first?_eq_some hfirst
  · obtain ⟨c, hblank, hcs⟩ | ⟨body, more, hcs, hcomment⟩ := first?_eq_layout hfirst
    · rw [← List.cons_append] at hcs
      rw [List.append_cancel_right hcs]
      exact .blank hblank h
    -- A comment that the text has in front of the line break is complete.
    obtain ⟨line, hline, hbreak, rfl⟩ | ⟨inner, hinner, rfl⟩ := commentBody?_eq_some hcomment hne
    · have happend : cs ++ '\n' :: rest = '/' :: '/' :: (line ++ cs') ++ '\n' :: rest := by
        rw [hcs]
        simp
      rw [List.append_cancel_right happend]
      refine .line hline ?_ h
      cases cs' with
      | nil => exact .inl rfl
      | cons c cs' => exact .inr hbreak
    · have happend : cs ++ '\n' :: rest =
          '/' :: '*' :: (inner ++ '*' :: '/' :: cs') ++ '\n' :: rest := by
        rw [hcs]
        simp
      rw [List.append_cancel_right happend]
      exact .block hinner h
  · -- The token is solid, so it is an item, as there is more behind it.
    have hitem : IsItem piece := hitem.resolve_right hne
    rw [← List.append_assoc] at hpiece
    rw [List.append_cancel_right hpiece, List.append_assoc] at hfirst
    rw [List.append_cancel_right hpiece]
    exact .item hitem (mt (joins_append_break_iff rest).mpr (not_joins_of_first? hfirst)) h

/-- A text ends outside of literals and block comments exactly if the scanner, reading on with a line
    break, comes to stand in front of it. -/
theorem reaches_break_iff {cs : List Char} (rest : List Char) :
    Token.Reaches (cs ++ '\n' :: rest) ('\n' :: rest) ↔ EndsOutside cs := by
  constructor
  · intro h
    -- By induction on the tokens that are read: what they leave has the same line break at its end.
    generalize hcs : cs ++ '\n' :: rest = text at h
    induction h using Relation.ReflTransGen.head_induction_on generalizing cs with
    | refl =>
      rw [List.append_left_eq_self.mp hcs]
      exact .nil
    | head hfirst hreaches ih =>
      subst hcs
      obtain ⟨token, hfirst⟩ := hfirst
      obtain ⟨cs', rfl⟩ := Token.Reaches.suffix hreaches
      exact endsOutside_of_first? hfirst (ih rfl)
  · intro h
    -- By induction on the text, of which each token leaves a shorter one.
    induction hn : cs.length using Nat.strong_induction_on generalizing cs with
    | _ n ih =>
      subst hn
      by_cases hnil : cs = []
      · rw [hnil]
        exact .refl
      · obtain ⟨token, cs', hcs', hfirst⟩ := h.exists_first? hnil rest
        have hlt := length_lt_of_first? hfirst
        rw [List.length_append, List.length_append, Nat.add_lt_add_iff_right] at hlt
        exact .head ⟨token, hfirst⟩ (ih cs'.length hlt hcs' rfl)

/-- The scanner comes by behind a line break outside. -/
theorem EndsOutside.reaches {cs : List Char} (h : EndsOutside cs) (rest : List Char) :
    Token.Reaches (cs ++ '\n' :: rest) rest :=
  ((reaches_break_iff rest).mpr h).trans (.single ⟨.layout, first?_blank (by decide) rest⟩)

/-- Whether a character opens neither a literal nor a comment. -/
def isPlain (c : Char) : Bool := !isQuote c && c ≠ '/'

/-- Characters that open nothing may stand in front of a text that ends outside. -/
theorem EndsOutside.plain_append {plain cs : List Char} (hplain : plain.all isPlain = true)
    (h : EndsOutside cs) : EndsOutside (plain ++ cs) := by
  induction plain with
  | nil => exact h
  | cons c plain ih =>
    rw [List.all_cons, Bool.and_eq_true] at hplain
    obtain ⟨hquote, hslash⟩ : isQuote c = false ∧ c ≠ '/' := by simpa [isPlain] using hplain.1
    -- Each of the characters is a blank or an item that joins nothing.
    by_cases hblank : isBlank c = true
    · exact .blank hblank (ih hplain.2)
    · have hjoins : ¬ Joins [c] (plain ++ cs).head? := by simp [Joins, hslash]
      have hitem : IsItem [c] := .single hquote (by simpa using hblank)
      exact @EndsOutside.item [c] _ hitem hjoins (ih hplain.2)

/-- Behind a line break outside, a text goes on as if it began there. -/
theorem EndsOutside.append_break {cs ds : List Char} (h : EndsOutside cs) (h' : EndsOutside ds) :
    EndsOutside (cs ++ '\n' :: ds) := by
  rw [← reaches_break_iff [], List.append_assoc, List.cons_append]
  exact (h.reaches _).trans ((reaches_break_iff []).mpr h')

/-! ## What is written from a place on -/

/-- Tokens are written after what stands in front of them. -/
private theorem exists_renderFrom_append (front tokens : List Token) (before : Option Char)
    (gap : Bool) :
    ∃ before' gap' written, Token.renderFrom before gap (front ++ tokens) =
      written ++ Token.renderFrom before' gap' tokens := by
  induction front generalizing before gap with
  | nil => exact ⟨before, gap, [], rfl⟩
  | cons token front ih =>
    cases token with
    | layout => exact ih before true
    | solid text =>
      obtain ⟨before', gap', written, hwritten⟩ := ih (text.getLast?.or before) false
      refine ⟨before', gap', (if gap && keepsApart before text.head? then [' '] else []) ++ text
        ++ written, ?_⟩
      rw [List.cons_append, Token.renderFrom, hwritten, List.append_assoc _ written]

/-- Whatever stands in front of them, tokens are written as they are at the beginning of a text, or
    with a space in front. -/
private theorem renderFrom_none_suffix {tokens : List Token}
    (h : ∀ text ∈ Token.solids tokens, text ≠ []) (before : Option Char) (gap gap' : Bool) :
    Token.renderFrom none gap' tokens <:+ Token.renderFrom before gap tokens := by
  induction tokens generalizing before gap gap' with
  | nil => exact List.suffix_refl _
  | cons token tokens ih =>
    cases token with
    | layout => exact ih h before true true
    | solid text =>
      obtain ⟨last, hlast⟩ := Option.ne_none_iff_exists'.mp
        (mt List.getLast?_eq_none_iff.mp (h text List.mem_cons_self))
      -- There is no space at the beginning of a text, and behind the token both go on alike.
      have hfront : (gap' && keepsApart none text.head?) = false := by simp [keepsApart]
      rw [Token.renderFrom, Token.renderFrom, hlast, Option.some_or, Option.some_or,
        List.append_assoc, List.append_assoc, hfront]
      exact List.suffix_append _ _

/-- What is written from a place on where the scanner comes by ends what is written of the text. -/
theorem Token.Reaches.render_suffix {cs rest : List Char} (h : Token.Reaches cs rest) :
    Token.render (Token.scan rest) <:+ Token.render (Token.scan cs) := by
  obtain ⟨tokens, hscan⟩ := h.exists_scan
  obtain ⟨before, gap, written, hwritten⟩ :=
    exists_renderFrom_append tokens (Token.scan rest) none false
  rw [Token.render, Token.render, hscan, hwritten]
  exact (renderFrom_none_suffix (fun _ => (readable_scan rest).ne_nil) before gap false).trans
    (List.suffix_append written _)

/-! ## Cuts -/

/-- A text is cut into pieces at line breaks outside of literals and block comments. -/
structure IsCut (text : List Char) (pieces : List (List Char)) : Prop where
  intercalate_eq : ['\n'].intercalate pieces = text
  /-- The pieces up to a cut end outside. -/
  endsOutside : ∀ front back, pieces = front ++ back → front ≠ [] → back ≠ [] →
    EndsOutside (['\n'].intercalate front)

/-- A separator stands between the first pieces and the later ones. -/
private theorem intercalate_append {sep : List Char} {front back : List (List Char)}
    (hfront : front ≠ []) (hback : back ≠ []) : sep.intercalate (front ++ back) =
      sep.intercalate front ++ sep ++ sep.intercalate back := by
  induction front with
  | nil => exact absurd rfl hfront
  | cons piece front ih =>
    by_cases hnil : front = []
    · rw [hnil, List.singleton_append, List.intercalate_cons_of_ne_nil hback,
        List.intercalate_singleton]
    · have hne : front ++ back ≠ [] := List.append_ne_nil_of_left_ne_nil hnil _
      rw [List.cons_append, List.intercalate_cons_of_ne_nil hne, ih hnil,
        List.intercalate_cons_of_ne_nil hnil]
      simp only [List.append_assoc]

/-- Pieces that end outside, up to the last, are a cut of the text that they make up. -/
theorem isCut_of_endsOutside {pieces : List (List Char)}
    (h : ∀ piece ∈ pieces.dropLast, EndsOutside piece) :
    IsCut (['\n'].intercalate pieces) pieces := by
  refine ⟨rfl, ?_⟩
  rintro front back rfl - hback
  rw [List.dropLast_append_of_ne_nil hback] at h
  have hfront : ∀ piece ∈ front, EndsOutside piece :=
    fun piece hmem => h piece (List.mem_append_left _ hmem)
  clear h
  -- By induction on the pieces in front of the cut, which end outside one by one.
  induction front with
  | nil => exact .nil
  | cons piece front ih =>
    obtain ⟨hpiece, hfront⟩ := List.forall_mem_cons.mp hfront
    by_cases hnil : front = []
    · rw [hnil, List.intercalate_singleton]
      exact hpiece
    · rw [List.intercalate_cons_of_ne_nil hnil, List.append_assoc, List.singleton_append]
      exact hpiece.append_break (ih hfront)

/-- The scanner comes by at every piece. -/
theorem IsCut.reaches {text piece : List Char} {pieces : List (List Char)} (h : IsCut text pieces)
    (hmem : piece ∈ pieces) :
    ∃ behind, (behind = [] ∨ behind.head? = some '\n') ∧ Token.Reaches text (piece ++ behind) := by
  obtain ⟨front, back, rfl⟩ := List.append_of_mem hmem
  -- The piece with all that follows it, from its beginning on.
  obtain ⟨behind, hhead, hpiece⟩ : ∃ behind, (behind = [] ∨ behind.head? = some '\n') ∧
      ['\n'].intercalate (piece :: back) = piece ++ behind := by
    by_cases hback : back = []
    · exact ⟨[], .inl rfl, by rw [hback, List.intercalate_singleton, List.append_nil]⟩
    · refine ⟨'\n' :: ['\n'].intercalate back, .inr rfl, ?_⟩
      rw [List.intercalate_cons_of_ne_nil hback, List.append_assoc, List.singleton_append]
  refine ⟨behind, hhead, ?_⟩
  by_cases hfront : front = []
  · rw [← h.intercalate_eq, hfront, List.nil_append, hpiece]
    exact .refl
  · have hne : piece :: back ≠ [] := List.cons_ne_nil _ _
    have houtside := h.endsOutside front (piece :: back) rfl hfront hne
    rw [← h.intercalate_eq, intercalate_append hfront hne, hpiece, List.append_assoc,
      List.singleton_append]
    exact houtside.reaches _

/-- What is written of a piece of a text occurs in what is written of the text. -/
theorem IsCut.render_infix {text piece : List Char} {pieces : List (List Char)}
    (h : IsCut text pieces) (hmem : piece ∈ pieces) :
    Token.render (Token.scan piece) <:+: Token.render (Token.scan text) := by
  obtain ⟨behind, hhead, hreaches⟩ := h.reaches hmem
  have hapart : StandsApart behind := by
    rcases hhead with rfl | hhead
    · exact ⟨by decide, by decide, by decide⟩
    · rw [StandsApart, hhead]
      decide
  exact (prefix_renderFrom_scan_append hapart piece none false).isInfix.trans
    hreaches.render_suffix.isInfix

end LogDrift.Text
