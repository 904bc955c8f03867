import Mathlib.Data.List.Chain
import Mathlib.Data.List.DropRight
import LogDrift.Proofs.Continuation

/-! # A canonical text is its own canonical text

Without layout, characters meet that were apart: two slashes would become a comment, and the quotes
of an empty string and of the literal behind it the opening of a text block. As long as no such two
stand next to each other with nothing but layout between them, reading what was written gives the
same tokens again, but for the layout.

## Key results

- `readable_scan`: the scanner yields layout, items, and at the end a literal that is never closed
- `render_scan_render`: what is written of such tokens is written again when it is read
- `canonical_trim`: nor is there anything to read in a text of nothing but layout without the blanks
  at its ends
- `canonicalText_canonicalText`: a canonical text is its own canonical text
-/

namespace LogDrift.Text

/-- The texts of the tokens that are kept. -/
def Token.solids (tokens : List Token) : List (List Char) := tokens.filterMap Token.solid?

@[simp] theorem solids_nil : Token.solids [] = [] := rfl

@[simp] theorem solids_layout (tokens : List Token) :
    Token.solids (.layout :: tokens) = Token.solids tokens := rfl

@[simp] theorem solids_solid (text : List Char) (tokens : List Token) :
    Token.solids (.solid text :: tokens) = text :: Token.solids tokens := rfl

/-- No solid token joins the next one when the layout between them is dropped. -/
def Token.StaysApart (tokens : List Token) : Prop :=
  (Token.solids tokens).IsChain fun text next => ¬ Joins text next.head?

instance (tokens : List Token) : Decidable (Token.StaysApart tokens) :=
  inferInstanceAs (Decidable (List.IsChain _ _))

/-! ## What the scanner yields -/

/-- Layout and items, and at the end perhaps a literal that is never closed. -/
inductive Readable : List Token → Prop
  | nil : Readable []
  | layout {tokens : List Token} : Readable tokens → Readable (.layout :: tokens)
  | item {text : List Char} {tokens : List Token} :
      IsItem text → Readable tokens → Readable (.solid text :: tokens)
  | unclosed {text : List Char} :
      Token.first? text = some (.solid text, []) → Readable [.solid text]

/-- What the scanner yields is readable. -/
theorem readable_scan (cs : List Char) : Readable (Token.scan cs) := by
  induction cs using first?_induction with
  | nil =>
    rw [scan_nil]
    exact .nil
  | step token cs rest hfirst ih =>
    rw [scan_of_first? hfirst]
    obtain ⟨piece, -, hcs, rfl | ⟨rfl, hitem | hend⟩⟩ := first?_eq_some hfirst
    · exact .layout ih
    · exact .item hitem ih
    · -- A literal that is not closed takes all that is left.
      rw [hend, List.append_nil] at hcs
      rw [hcs, hend] at hfirst
      rw [hend, scan_nil]
      exact .unclosed hfirst

/-- No token that is kept is empty. -/
theorem Readable.ne_nil {tokens : List Token} (h : Readable tokens) {text : List Char}
    (hmem : text ∈ Token.solids tokens) : text ≠ [] := by
  induction h with
  | nil => exact absurd hmem List.not_mem_nil
  | layout _ ih => exact ih hmem
  | item hitem _ ih =>
    rcases List.mem_cons.mp hmem with rfl | hmem
    · exact hitem.ne_nil
    · exact ih hmem
  -- What is not closed is the only item, and was read from a text that is not empty.
  | unclosed hfirst =>
    have htext := List.mem_singleton.mp hmem
    rintro rfl
    rw [← htext] at hfirst
    cases hfirst

/-! ## Reading what was written -/

/-- A space is written, or the first solid token, if there is one. -/
private theorem head?_renderFrom {tokens : List Token} (h : ∀ text ∈ Token.solids tokens, text ≠ [])
    (before : Option Char) (gap : Bool) {c : Char}
    (hc : (Token.renderFrom before gap tokens).head? = some c) :
    c = ' ' ∨ ∃ text ∈ (Token.solids tokens).head?, text.head? = some c := by
  induction tokens generalizing before gap with
  | nil => cases hc
  | cons token tokens ih =>
    cases token with
    -- Layout writes nothing by itself: it only asks for a space.
    | layout => exact ih h before true hc
    | solid text =>
      obtain ⟨d, tail, rfl⟩ := List.exists_cons_of_ne_nil (h text List.mem_cons_self)
      rw [Token.renderFrom] at hc
      split at hc
      · exact .inl (Option.some.inj hc).symm
      · exact .inr ⟨d :: tail, rfl, hc⟩

/-- Nothing is written if there is nothing to keep. -/
private theorem renderFrom_eq_nil_iff {tokens : List Token}
    (h : ∀ text ∈ Token.solids tokens, text ≠ []) (before : Option Char) (gap : Bool) :
    Token.renderFrom before gap tokens = [] ↔ Token.solids tokens = [] := by
  induction tokens generalizing before gap with
  | nil => exact iff_of_true rfl rfl
  | cons token tokens ih =>
    cases token with
    | layout => exact ih h before true
    | solid text =>
      have hne : text ≠ [] := h text List.mem_cons_self
      rw [Token.renderFrom, solids_solid]
      simp [hne]

/-- A text renders to nothing exactly if it is nothing but layout. -/
theorem render_scan_eq_nil_iff {cs : List Char} :
    Token.render (Token.scan cs) = [] ↔ Token.solids (Token.scan cs) = [] :=
  renderFrom_eq_nil_iff (fun _ => (readable_scan cs).ne_nil) none false

/-- If a solid token and what follows it are read again as they were written, then so they are with
    a space in front. -/
private theorem render_scan_solid {text rest : List Char} (hread : Token.scan (text ++ rest) =
      .solid text :: Token.scan rest) (before : Option Char) (gap : Bool)
    (hrest : Token.renderFrom (text.getLast?.or before) false (Token.scan rest) = rest) :
    Token.renderFrom before false
        (Token.scan ((if gap && keepsApart before text.head? then [' '] else []) ++ text ++ rest)) =
      (if gap && keepsApart before text.head? then [' '] else []) ++ text ++ rest := by
  split
  · rename_i hspace
    have hkeeps : keepsApart before text.head? = true := (Bool.and_eq_true_iff.mp hspace).2
    rw [List.append_assoc, List.singleton_append, scan_of_first? (first?_blank (by decide) _)]
    simp only [Token.renderFrom, hread, hrest, hkeeps]
    rfl
  · rw [List.nil_append, hread, Token.renderFrom, hrest]
    rfl

/-- What is written of readable tokens is written again when it is read, if no solid token joins
    the next one. -/
theorem render_scan_render {tokens : List Token} (h : Readable tokens)
    (hapart : Token.StaysApart tokens) (before : Option Char) (gap : Bool) :
    Token.renderFrom before false (Token.scan (Token.renderFrom before gap tokens)) =
      Token.renderFrom before gap tokens := by
  induction h generalizing before gap with
  | nil => rw [Token.renderFrom, scan_nil, Token.renderFrom]
  | layout _ ih => exact ih hapart before true
  | @item text tokens hitem htokens ih =>
    obtain ⟨hnext, hrest⟩ := List.isChain_cons.mp hapart
    rw [Token.renderFrom]
    refine render_scan_solid (hitem.scan_append ?_) before gap (ih hrest _ _)
    -- What follows is written with a space, which nothing joins, or as the next token.
    intro hjoins
    cases hhead : (Token.renderFrom (text.getLast?.or before) false tokens).head? with
    | none =>
      rw [hhead] at hjoins
      exact not_joins (by decide) (by decide) (by decide) hjoins
    | some c =>
      rw [hhead] at hjoins
      rcases head?_renderFrom (fun _ => htokens.ne_nil) _ _ hhead with rfl | ⟨next, hmem, hc⟩
      · exact not_joins (by decide) (by decide) (by decide) hjoins
      · rw [← hc] at hjoins
        exact hnext next hmem hjoins
  | unclosed hfirst =>
    rw [Token.renderFrom, Token.renderFrom]
    refine render_scan_solid ?_ before gap (by rw [scan_nil, Token.renderFrom])
    rw [List.append_nil, scan_of_first? hfirst]

/-! ## Text of nothing but layout -/

/-- Blanks at the end of a text of nothing but layout do not matter. -/
private theorem solids_scan_of_append {cs tail : List Char} (htail : ∀ c ∈ tail, isBlank c = true)
    (h : Token.solids (Token.scan (cs ++ tail)) = []) : Token.solids (Token.scan cs) = [] := by
  induction cs using first?_induction with
  | nil => rw [scan_nil, solids_nil]
  | step token cs rest hfirst ih =>
    rw [scan_of_first? hfirst]
    have hapart : StandsApart tail :=
      standsApart_of_forall htail (by decide) (by decide) (by decide)
    obtain hsame | ⟨rfl, rfl | ⟨-, more, rest', hmore⟩⟩ := first?_append hapart hfirst
    · rw [scan_of_first? hsame] at h
      cases token with
      | layout => exact ih h
      | solid text => cases h
    · rw [scan_nil, solids_layout, solids_nil]
    · -- A literal that goes on is kept, but nothing is kept of the text.
      rw [scan_of_first? hmore] at h
      cases h

/-- Blanks at the front of a text do not matter for what is kept. -/
theorem solids_scan_dropWhile (cs : List Char) :
    Token.solids (Token.scan (cs.dropWhile isBlank)) = Token.solids (Token.scan cs) := by
  induction cs with
  | nil => rfl
  | cons c cs ih =>
    rw [List.dropWhile_cons]
    split
    · rename_i hblank
      rw [ih, scan_of_first? (first?_blank hblank cs), solids_layout]
    · rfl

/-- What is dropped at the end satisfies the predicate. -/
theorem exists_dropEndWhile_append (p : Char → Bool) (cs : List Char) :
    ∃ tail, (∀ c ∈ tail, p c = true) ∧ dropEndWhile p cs ++ tail = cs := by
  refine ⟨(cs.reverse.takeWhile p).reverse, ?_, ?_⟩
  · intro c hc
    exact List.mem_takeWhile_imp (List.mem_reverse.mp hc)
  · rw [dropEndWhile, ← List.reverse_append, List.takeWhile_append_dropWhile, List.reverse_reverse]

/-- Trimming drops blanks at both ends. -/
theorem exists_append_trim_append (cs : List Char) :
    ∃ lead tail, (∀ c ∈ lead, isBlank c = true) ∧ (∀ c ∈ tail, isBlank c = true) ∧
      cs = lead ++ (trim cs ++ tail) := by
  obtain ⟨tail, htail, happend⟩ := exists_dropEndWhile_append isBlank (cs.dropWhile isBlank)
  refine ⟨cs.takeWhile isBlank, tail, fun _ => List.mem_takeWhile_imp, htail, ?_⟩
  rw [trim, happend, List.takeWhile_append_dropWhile]

/-- A trimmed text does not begin with a blank. -/
theorem isBlank_eq_false_of_head?_trim {cs : List Char} {c : Char} (h : (trim cs).head? = some c) :
    isBlank c = false := by
  obtain ⟨tail, -, happend⟩ := exists_dropEndWhile_append isBlank (cs.dropWhile isBlank)
  change trim cs ++ tail = cs.dropWhile isBlank at happend
  have hhead := List.head?_dropWhile_not isBlank cs
  rw [← happend, List.head?_append, h] at hhead
  simpa using hhead

/-- A trimmed text has no more to trim. -/
theorem trim_trim (cs : List Char) : trim (trim cs) = trim cs := by
  have hfront : (trim cs).dropWhile isBlank = trim cs := by
    cases htrim : trim cs with
    | nil => rfl
    | cons c rest =>
      have hblank : isBlank c = false :=
        isBlank_eq_false_of_head?_trim (by rw [htrim, List.head?_cons])
      exact List.dropWhile_cons_of_neg (by simp [hblank])
  rw [trim, hfront]
  exact List.rdropWhile_idempotent isBlank _

/-- A text that renders to something is written that way. -/
theorem canonical_eq_render {cs : List Char} (h : Token.render (Token.scan cs) ≠ []) :
    canonical cs = Token.render (Token.scan cs) := by
  rw [canonical]
  simp [h]

/-- A text of nothing but layout is written without the blanks at its ends, and so it stays. -/
theorem canonical_trim {cs : List Char} (h : Token.solids (Token.scan cs) = []) :
    canonical cs = trim cs ∧ canonical (trim cs) = trim cs := by
  obtain ⟨tail, htail, happend⟩ := exists_dropEndWhile_append isBlank (cs.dropWhile isBlank)
  -- Without the blanks at its ends the text is still nothing but layout.
  have htrim : Token.solids (Token.scan (trim cs)) = [] := by
    refine solids_scan_of_append htail ?_
    rw [trim, happend, solids_scan_dropWhile, h]
  have hrender : ∀ ds, Token.solids (Token.scan ds) = [] → canonical ds = trim ds := by
    intro ds hds
    rw [canonical, render_scan_eq_nil_iff.mpr hds]
    rfl
  exact ⟨hrender cs h, (hrender _ htrim).trans (trim_trim cs)⟩

/-- Canonicalization is idempotent where no tokens join. -/
theorem canonical_canonical {cs : List Char} (h : Token.StaysApart (Token.scan cs)) :
    canonical (canonical cs) = canonical cs := by
  -- A text of nothing but layout is written as it is, any other one token by token.
  by_cases hsolids : Token.solids (Token.scan cs) = []
  · obtain ⟨hcs, htrim⟩ := canonical_trim hsolids
    rw [hcs, htrim]
  · have hne : Token.render (Token.scan cs) ≠ [] := mt render_scan_eq_nil_iff.mp hsolids
    have hcs := canonical_eq_render hne
    have hagain : Token.render (Token.scan (canonical cs)) = canonical cs := by
      rw [hcs]
      exact render_scan_render (readable_scan cs) h none false
    rw [canonical, hagain]
    simp [hcs, hne]

/-- A canonical text is its own canonical text, unterminated literals and comments and texts of
    nothing but comments included, if in the text that it was made of nothing but layout stands
    neither between a slash and a slash or star nor between an empty string and a double quote. -/
theorem canonicalText_canonicalText {source : String}
    (h : Token.StaysApart (Token.scan source.toList)) :
    canonicalText (canonicalText source) = canonicalText source := by
  rw [canonicalText, canonicalText, String.toList_ofList, canonical_canonical h]

/-- An empty string, a slash in front of a comment and a string that is never closed stay as they
    are. -/
theorem canonicalText_canonicalText_of_unclosed :
    Token.StaysApart (Token.scan "f( \"\" , 'a' / x /* / */ ) + \"open // ".toList) ∧
    canonicalText "f( \"\" , 'a' / x /* / */ ) + \"open // " = "f(\"\",'a'/x)+\"open // " ∧
    canonicalText (canonicalText "f( \"\" , 'a' / x /* / */ ) + \"open // ") =
      canonicalText "f( \"\" , 'a' / x /* / */ ) + \"open // " := by
  have hapart : Token.StaysApart (Token.scan "f( \"\" , 'a' / x /* / */ ) + \"open // ".toList) := by
    decide +kernel
  exact ⟨hapart, by decide +kernel, canonicalText_canonicalText hapart⟩

end LogDrift.Text
