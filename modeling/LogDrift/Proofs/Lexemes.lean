import Mathlib.Data.List.TakeWhile
import LogDrift.Text.Canonical

/-! # The lexemes of program text

What stands in a program text, told by its form and not by how it is read: complete literals,
single characters outside of them, and layout, which is blanks and complete comments. The scanner
reads each of them as it stands, whatever follows, with two exceptions: a slash opens a comment if
a slash or a star follows, and two double quotes open a text block if a third one follows.

## Key results

- `IsLiteral.literalBody_append`, `blockCommentBody_of_not_infix`, `commentBody?_line`: where
  literals and comments end
- `scan_of_first?`, `first?_induction`: a text is scanned token by token
- `IsItem.first?_append`: an item is read as it stands
- `first?_eq_some`: the scanner reads layout, items, and a literal that runs to the end
-/

namespace LogDrift.Text

/-! ## Literals and other items -/

/-- What follows the opening quote of a literal, up to the closing one. A backslash takes the
    character after it along. -/
inductive QuotedRest (quote : Char) : List Char → Prop
  | close : QuotedRest quote [quote]
  | escape (c : Char) {cs : List Char} : QuotedRest quote cs → QuotedRest quote ('\\' :: c :: cs)
  | plain {c : Char} {cs : List Char} :
      c ≠ '\\' → c ≠ quote → QuotedRest quote cs → QuotedRest quote (c :: cs)

/-- What follows the opening quotes of a text block, up to the closing ones. -/
inductive BlockRest : List Char → Prop
  | close : BlockRest ['"', '"', '"']
  | escape (c : Char) {cs : List Char} : BlockRest cs → BlockRest ('\\' :: c :: cs)
  | plain {c : Char} {cs : List Char} :
      c ≠ '\\' → ¬ ['"', '"', '"'] <+: c :: cs → BlockRest cs → BlockRest (c :: cs)

/-- The complete literals: strings, characters and text blocks. -/
inductive IsLiteral : List Char → Prop
  | string {cs : List Char} : QuotedRest '"' cs → IsLiteral ('"' :: cs)
  | char {cs : List Char} : QuotedRest '\x27' cs → IsLiteral ('\x27' :: cs)
  | block {cs : List Char} : BlockRest cs → IsLiteral ('"' :: '"' :: '"' :: cs)

/-- A complete literal, or one character that is neither blank nor a quote. -/
inductive IsItem : List Char → Prop
  | literal {text : List Char} : IsLiteral text → IsItem text
  | single {c : Char} : isQuote c = false → isBlank c = false → IsItem [c]

/-- Whether an item is read otherwise if the character follows: as the opening of a comment or of a
    text block. -/
def Joins (item : List Char) (next : Option Char) : Prop :=
  item = ['/'] ∧ (next = some '/' ∨ next = some '*') ∨ item = ['"', '"'] ∧ next = some '"'

instance (item : List Char) (next : Option Char) : Decidable (Joins item next) :=
  inferInstanceAs (Decidable (_ ∧ _ ∨ _ ∧ _))

theorem IsItem.ne_nil {text : List Char} (h : IsItem text) : text ≠ [] := by
  cases h with
  | literal h => cases h <;> exact List.cons_ne_nil _ _
  | single => exact List.cons_ne_nil _ _

/-- Only a slash, a star or a double quote joins an item. -/
theorem not_joins {item : List Char} {next : Option Char} (hslash : next ≠ some '/')
    (hstar : next ≠ some '*') (hquote : next ≠ some '"') : ¬ Joins item next := by
  rintro (⟨-, h | h⟩ | ⟨-, h⟩)
  · exact hslash h
  · exact hstar h
  · exact hquote h

theorem isQuote_iff {c : Char} : isQuote c = true ↔ c = '"' ∨ c = '\x27' := by
  simp [isQuote]

/-! ## Where literals end -/

/-- A quoted literal ends with its closing quote. -/
private theorem QuotedRest.quotedBody_append {quote : Char} {cs : List Char}
    (h : QuotedRest quote cs)
    (hquote : quote ≠ '\\') (rest : List Char) : quotedBody quote (cs ++ rest) = (cs, rest) := by
  induction h with
  | close => rw [List.singleton_append, quotedBody_cons hquote, if_pos rfl]
  | escape c _ ih => rw [List.cons_append, List.cons_append, quotedBody, ih]; rfl
  | plain hne hc _ ih =>
    rw [List.cons_append, quotedBody_cons hne, if_neg hc, ih]
    rfl

/-- The closing quotes of a text block are always there. -/
theorem BlockRest.three_le_length {cs : List Char} (h : BlockRest cs) : 3 ≤ cs.length := by
  induction h with
  | close => exact Nat.le_refl 3
  | escape c _ ih => exact Nat.le_trans ih (Nat.le_add_right _ 2)
  | plain _ _ _ ih => exact Nat.le_trans ih (Nat.le_add_right _ 1)

/-- A text block ends with its closing quotes. -/
private theorem BlockRest.blockBody_append {cs : List Char} (h : BlockRest cs) (rest : List Char) :
    blockBody (cs ++ rest) = (cs, rest) := by
  induction h with
  | close => rfl
  | escape c _ ih => rw [List.cons_append, List.cons_append, blockBody, ih]; rfl
  | @plain c cs hne hopen hcs ih =>
    -- The closing quotes are not made up from what follows, as there are three more characters.
    have hopen' : ¬ ['"', '"', '"'] <+: c :: (cs ++ rest) := fun hpre =>
      hopen (List.prefix_of_prefix_length_le hpre (List.prefix_append (c :: cs) rest)
        (Nat.le_trans hcs.three_le_length (Nat.le_add_right _ 1)))
    rw [List.cons_append, blockBody_cons hne hopen', ih]
    rfl

/-- A complete literal ends where it ends, unless it is the first half of the opening of a text
    block. -/
theorem IsLiteral.literalBody_append {quote : Char} {cs rest : List Char}
    (h : IsLiteral (quote :: cs)) (hjoins : ¬ Joins (quote :: cs) rest.head?) :
    literalBody quote (cs ++ rest) = (cs, rest) := by
  cases h with
  | string h =>
    unfold literalBody
    split
    · -- Two more quotes would be the closing one and the first character that follows.
      rename_i body _ heq
      cases h with
      | close =>
        have hrest : rest = '"' :: body := (List.cons.inj heq).2
        exact absurd (.inr ⟨rfl, by rw [hrest, List.head?_cons]⟩) hjoins
      | escape c _ => exact absurd (List.cons.inj heq).1 (by decide)
      | plain _ hc _ => exact absurd (List.cons.inj heq).1 hc
    · exact h.quotedBody_append (by decide) rest
  | char h =>
    unfold literalBody
    split
    · rename_i hquote _
      exact absurd hquote (by decide)
    · exact h.quotedBody_append (by decide) rest
  | @block cs h =>
    have hblock : literalBody '"' ('"' :: '"' :: cs ++ rest) =
        (blockBody (cs ++ rest)).map ('"' :: '"' :: ·) id := rfl
    rw [hblock, h.blockBody_append]
    rfl

/-- A quoted literal is complete or runs to the end of the text. -/
private theorem quotedRest_or_eq_nil (quote : Char) (cs : List Char) :
    QuotedRest quote (quotedBody quote cs).1 ∨ (quotedBody quote cs).2 = [] := by
  fun_induction quotedBody quote cs with
  | case1 => exact .inr rfl
  | case2 => exact .inr rfl
  | case3 c cs ih => exact ih.imp (QuotedRest.escape c) id
  | case4 cs _ _ => exact .inl .close
  | case5 c cs hend hescape hc ih =>
    exact ih.imp (QuotedRest.plain (ne_backslash_of_forall hend hescape) hc) id

/-- A text block is complete or runs to the end of the text. -/
theorem blockRest_or_eq_nil (cs : List Char) :
    BlockRest (blockBody cs).1 ∨ (blockBody cs).2 = [] := by
  fun_induction blockBody cs with
  | case1 => exact .inr rfl
  | case2 => exact .inr rfl
  | case3 c cs ih => exact ih.imp (BlockRest.escape c) id
  | case4 cs => exact .inl .close
  | case5 c cs hend hescape hopen ih =>
    refine ih.imp (BlockRest.plain (ne_backslash_of_forall hend hescape) ?_) id
    -- Closing quotes in the part read would be closing quotes in the text.
    rintro ⟨tail, htail⟩
    have hcs := blockBody_append cs
    obtain ⟨rfl, hbody⟩ := List.cons.inj htail
    rw [← hbody] at hcs
    exact hopen _ rfl hcs.symm

/-- A literal is complete or runs to the end of the text. -/
theorem isLiteral_or_eq_nil {quote : Char} (hquote : isQuote quote = true) (cs : List Char) :
    IsLiteral (quote :: (literalBody quote cs).1) ∨ (literalBody quote cs).2 = [] := by
  unfold literalBody
  split
  · rename_i body
    exact (blockRest_or_eq_nil body).imp IsLiteral.block id
  · rcases isQuote_iff.mp hquote with rfl | rfl
    · exact (quotedRest_or_eq_nil _ cs).imp IsLiteral.string id
    · exact (quotedRest_or_eq_nil _ cs).imp IsLiteral.char id

/-! ## Layout -/

/-- Blanks and complete comments. A line comment is complete with its line break. -/
inductive IsLayout : List Char → Prop
  | nil : IsLayout []
  | blank {c : Char} {cs : List Char} : isBlank c = true → IsLayout cs → IsLayout (c :: cs)
  | line {body cs : List Char} :
      '\n' ∉ body → IsLayout cs → IsLayout ('/' :: '/' :: (body ++ '\n' :: cs))
  | block {body cs : List Char} :
      ¬ ['*', '/'] <:+: body ++ ['*'] → IsLayout cs →
      IsLayout ('/' :: '*' :: (body ++ '*' :: '/' :: cs))

/-- Layout at the end of a text, where a line comment needs no line break. -/
inductive IsTrail : List Char → Prop
  | layout {cs : List Char} : IsLayout cs → IsTrail cs
  | line {cs body : List Char} : IsLayout cs → '\n' ∉ body → IsTrail (cs ++ '/' :: '/' :: body)

/-- A block comment ends with the first star and slash in it. -/
theorem blockCommentBody_of_not_infix {body : List Char} (h : ¬ ['*', '/'] <:+: body ++ ['*'])
    (rest : List Char) :
    blockCommentBody (body ++ '*' :: '/' :: rest) = (body ++ ['*', '/'], rest) := by
  induction body with
  | nil => rfl
  | cons c body ih =>
    have hbody : ¬ ['*', '/'] <:+: body ++ ['*'] := fun hin => h (List.infix_cons hin)
    rw [List.cons_append, blockCommentBody, ih hbody]
    · rfl
    · -- The comment does not end with its first character.
      rintro tail rfl htail
      cases body with
      | nil => exact absurd (List.cons.inj htail).1 (by decide)
      | cons d body =>
        obtain ⟨rfl, -⟩ := List.cons.inj htail
        exact h ⟨[], body ++ ['*'], rfl⟩

/-- A line comment ends in front of a line break or at the end of the text. -/
theorem commentBody?_line {body rest : List Char} (h : '\n' ∉ body)
    (hrest : rest = [] ∨ rest.head? = some '\n') :
    commentBody? ('/' :: (body ++ rest)) = some ('/' :: body, rest) := by
  have hplain : ∀ c ∈ body, decide (c ≠ '\n') = true := by
    intro c hc
    exact decide_eq_true fun heq => h (heq ▸ hc)
  simp only [commentBody?]
  rw [List.takeWhile_append_of_pos hplain, List.dropWhile_append_of_pos hplain]
  rcases hrest with rfl | hbreak
  · simp
  · obtain ⟨tail, rfl⟩ := List.head?_eq_some_iff.mp hbreak
    simp

/-- A block comment ends behind the first star and slash in it. -/
theorem commentBody?_block {body : List Char} (h : ¬ ['*', '/'] <:+: body ++ ['*'])
    (rest : List Char) : commentBody? ('*' :: (body ++ '*' :: '/' :: rest)) =
      some ('*' :: (body ++ ['*', '/']), rest) := by
  rw [commentBody?, blockCommentBody_of_not_infix h]
  rfl

/-- A slash opens no comment if neither a slash nor a star follows. -/
theorem commentBody?_eq_none_iff {cs : List Char} :
    commentBody? cs = none ↔ cs.head? ≠ some '/' ∧ cs.head? ≠ some '*' := by
  unfold commentBody?
  split
  · simp
  · simp
  · -- The slash opens no comment, so neither a slash nor a star follows it.
    rename_i hslash hstar
    simp only [true_iff]
    constructor
    · intro hhead
      obtain ⟨tail, rfl⟩ := List.head?_eq_some_iff.mp hhead
      exact hslash tail rfl
    · intro hhead
      obtain ⟨tail, rfl⟩ := List.head?_eq_some_iff.mp hhead
      exact hstar tail rfl

/-! ## The first token of a text -/

/-- The text of a token that is kept. -/
def Token.solid? : Token → Option (List Char)
  | .layout => none
  | .solid text => some text

/-- The first token of a text and what follows it. -/
def Token.first? : List Char → Option (Token × List Char)
  | [] => none
  | c :: cs =>
    if isQuote c then some (.solid (c :: (literalBody c cs).1), (literalBody c cs).2)
    else if c = '/' then
      match commentBody? cs with
      | some (_, rest) => some (.layout, rest)
      | none => some (.solid [c], cs)
    else if isBlank c then some (.layout, cs)
    else some (.solid [c], cs)

/-- Only an empty text has no first token. -/
theorem first?_eq_none_iff {cs : List Char} : Token.first? cs = none ↔ cs = [] := by
  constructor
  · intro h
    unfold Token.first? at h
    split at h
    · rfl
    · repeat' split at h
      all_goals cases h
  · rintro rfl
    rfl

theorem scan_nil : Token.scan [] = [] := by rw [Token.scan]

/-- A text is scanned token by token. -/
theorem scan_eq (cs : List Char) :
    Token.scan cs =
      match Token.first? cs with
      | none => []
      | some (token, rest) => token :: Token.scan rest := by
  cases cs with
  | nil => exact scan_nil
  | cons c cs =>
    rw [Token.scan, Token.first?]
    -- Both look at the character in the same order: for a quote, a comment and a blank.
    split
    · rfl
    split
    · split <;> rename_i h <;> rw [h]
    split <;> rfl

/-- The first token is followed by those of the rest. -/
theorem scan_of_first? {cs rest : List Char} {token : Token}
    (h : Token.first? cs = some (token, rest)) : Token.scan cs = token :: Token.scan rest := by
  rw [scan_eq, h]

/-- A blank is layout. -/
theorem first?_blank {c : Char} (h : isBlank c = true) (cs : List Char) :
    Token.first? (c :: cs) = some (.layout, cs) := by
  have hquote : isQuote c = false := by
    apply Bool.eq_false_iff.mpr
    intro hquote
    rcases isQuote_iff.mp hquote with rfl | rfl
    · exact absurd h (by decide)
    · exact absurd h (by decide)
  have hslash : c ≠ '/' := by
    rintro rfl
    exact absurd h (by decide)
  simp [Token.first?, hquote, hslash, h]

/-- A comment is layout. -/
theorem first?_comment {cs body rest : List Char} (h : commentBody? cs = some (body, rest)) :
    Token.first? ('/' :: cs) = some (.layout, rest) := by
  have hquote : isQuote '/' = false := by decide
  simp [Token.first?, hquote, h]

/-- A quote opens a literal. -/
theorem first?_literal {quote : Char} (h : isQuote quote = true) (cs : List Char) :
    Token.first? (quote :: cs) =
      some (.solid (quote :: (literalBody quote cs).1), (literalBody quote cs).2) := by
  simp [Token.first?, h]

/-- Three quotes open a text block. -/
theorem first?_block (cs : List Char) : Token.first? ('"' :: '"' :: '"' :: cs) =
    some (.solid ('"' :: '"' :: '"' :: (blockBody cs).1), (blockBody cs).2) :=
  first?_literal (by decide) ('"' :: '"' :: cs)

/-- What opens nothing and is no blank is an item by itself. -/
theorem first?_single {c : Char} {cs : List Char} (hquote : isQuote c = false)
    (hblank : isBlank c = false) (hcomment : c = '/' → commentBody? cs = none) :
    Token.first? (c :: cs) = some (.solid [c], cs) := by
  by_cases hslash : c = '/'
  · subst hslash
    simp [Token.first?, hquote, hcomment rfl]
  · simp [Token.first?, hquote, hslash, hblank]

/-- A literal begins with a quote. -/
theorem IsLiteral.exists_cons {text : List Char} (h : IsLiteral text) :
    ∃ quote cs, text = quote :: cs ∧ isQuote quote = true := by
  cases h
  · exact ⟨_, _, rfl, by decide⟩
  · exact ⟨_, _, rfl, by decide⟩
  · exact ⟨_, _, rfl, by decide⟩

/-- An item is read as it stands, unless what follows joins it. -/
theorem IsItem.first?_append {text rest : List Char} (h : IsItem text)
    (hjoins : ¬ Joins text rest.head?) : Token.first? (text ++ rest) = some (.solid text, rest) := by
  cases h with
  | literal h =>
    obtain ⟨quote, cs, rfl, hquote⟩ := h.exists_cons
    rw [List.cons_append, first?_literal hquote, h.literalBody_append hjoins]
  | single hquote hblank =>
    refine first?_single hquote hblank fun hslash => commentBody?_eq_none_iff.mpr ?_
    subst hslash
    exact ⟨fun h => hjoins (.inl ⟨rfl, .inl h⟩), fun h => hjoins (.inl ⟨rfl, .inr h⟩)⟩

/-- An item is scanned as it stands, unless what follows joins it. -/
theorem IsItem.scan_append {text rest : List Char} (h : IsItem text)
    (hjoins : ¬ Joins text rest.head?) :
    Token.scan (text ++ rest) = .solid text :: Token.scan rest :=
  scan_of_first? (h.first?_append hjoins)

/-- What is read as it stands does not join what follows it. -/
theorem not_joins_of_first? {text rest : List Char}
    (h : Token.first? (text ++ rest) = some (.solid text, rest)) : ¬ Joins text rest.head? := by
  rintro (⟨rfl, hnext⟩ | ⟨rfl, hnext⟩)
  · cases hcomment : commentBody? rest with
    | none =>
      obtain ⟨hslash, hstar⟩ := commentBody?_eq_none_iff.mp hcomment
      exact hnext.elim hslash hstar
    | some comment =>
      rw [List.singleton_append, first?_comment hcomment] at h
      cases h
  · -- A text block has more than two characters.
    obtain ⟨tail, rfl⟩ := List.head?_eq_some_iff.mp hnext
    rw [List.cons_append, List.singleton_append, first?_block] at h
    cases h

/-- The first token is a piece of the text: layout, an item, or a literal that runs to the end. -/
theorem first?_eq_some {cs rest : List Char} {token : Token}
    (h : Token.first? cs = some (token, rest)) :
    ∃ piece, piece ≠ [] ∧ cs = piece ++ rest ∧
      (token = .layout ∨ token = .solid piece ∧ (IsItem piece ∨ rest = [])) := by
  unfold Token.first? at h
  split at h
  · cases h
  rename_i c cs
  split at h
  · -- A quote: the literal is complete, or it runs to the end.
    rename_i hquote
    cases h
    refine ⟨_, List.cons_ne_nil _ _, ?_, .inr ⟨rfl, ?_⟩⟩
    · rw [List.cons_append, literalBody_append]
    · exact (isLiteral_or_eq_nil hquote cs).imp IsItem.literal id
  rename_i hquote
  have hquote' : isQuote c = false := by simpa using hquote
  split at h
  · -- A slash, which opens a comment or stands for itself.
    rename_i hslash
    split at h
    · rename_i body rest' hcomment
      cases h
      refine ⟨c :: body, List.cons_ne_nil _ _, ?_, .inl rfl⟩
      rw [List.cons_append, commentBody?_append hcomment]
    · cases h
      refine ⟨[c], List.cons_ne_nil _ _, rfl, .inr ⟨rfl, .inl (.single hquote' ?_)⟩⟩
      rw [hslash]
      decide
  split at h
  · cases h
    exact ⟨[c], List.cons_ne_nil _ _, rfl, .inl rfl⟩
  · rename_i hblank
    cases h
    exact ⟨[c], List.cons_ne_nil _ _, rfl, .inr ⟨rfl, .inl (.single hquote' (by simpa using hblank))⟩⟩

/-- What follows the first token is shorter than the text. -/
theorem length_lt_of_first? {cs rest : List Char} {token : Token}
    (h : Token.first? cs = some (token, rest)) : rest.length < cs.length := by
  obtain ⟨piece, hne, rfl, -⟩ := first?_eq_some h
  have hpos := List.length_pos_iff.mpr hne
  rw [List.length_append]
  omega

/-- What holds of the empty text and, token by token, of every text that begins with one, holds of
    all texts. -/
theorem first?_induction {motive : List Char → Prop} (nil : motive [])
    (step : ∀ token cs rest, Token.first? cs = some (token, rest) → motive rest → motive cs)
    (cs : List Char) : motive cs := by
  induction hn : cs.length using Nat.strong_induction_on generalizing cs with
  | _ n ih =>
    subst hn
    cases hfirst : Token.first? cs with
    | none =>
      rw [first?_eq_none_iff.mp hfirst]
      exact nil
    | some first =>
      obtain ⟨token, rest⟩ := first
      exact step token cs rest hfirst (ih rest.length (length_lt_of_first? hfirst) rest rfl)

end LogDrift.Text
