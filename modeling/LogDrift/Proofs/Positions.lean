import LogDrift.Proofs.Lexemes

/-!
# The scanner by positions

The scanner takes a text apart: each step hands what is left of it to the next one. The same scanner
can keep the text as it is and count positions. Then it has to ask at every step whether there still
is a character at the position, and each slice has to lie within the text. Here it is written that
way, with reads and slices that fail outside of the text, and with a loop that fails if it does not
get on. It never fails, whatever the text and wherever it breaks off, and it writes the canonical
text.

Where a literal ends is also said without a scanner: behind the first closing delimiter that is not
escaped (`ClosesAt`), where a backslash escapes the next character unless it is escaped itself.

## Key results

- `bodyLength_quotedBody`, `bodyLength_blockBody`: literals end with the first delimiter that closes
- `literalEnd?_eq`: the end of a literal, by positions
- `Cursor.step?_eq`, `Cursor.run?_eq`: one step, and all of them
- `scanner_stays_in_text`: reads within the text, ends of literals, and steps that get on
-/

namespace LogDrift.Text

/-! ## Where literals close -/

/-- Whether the character at a position is escaped: the one in front of it is a backslash that is not
    escaped itself. -/
def IsEscaped (body : List Char) : Nat → Prop
  | 0 => False
  | i + 1 => body[i]? = some '\\' ∧ ¬ IsEscaped body i

/-- Whether a delimiter closes a literal at a position of what follows the opening one. -/
def ClosesAt (delimiter body : List Char) (i : Nat) : Prop :=
  delimiter <+: body.drop i ∧ ¬ IsEscaped body i

/-- Whether so many characters behind the opening delimiter belong to a literal: those up to the
    first delimiter that closes it, with this one, or all if there is none. -/
def BodyLength (delimiter body : List Char) (n : Nat) : Prop :=
  (∃ i, ClosesAt delimiter body i ∧ (∀ j < i, ¬ ClosesAt delimiter body j) ∧
    n = i + delimiter.length) ∨
  (∀ i, ¬ ClosesAt delimiter body i) ∧ n = body.length

section

variable {delimiter body : List Char}

/-- Behind a character that is no backslash, a position is escaped as it is without this
    character. -/
private theorem isEscaped_plain {c : Char} (hc : c ≠ '\\') (i : Nat) :
    IsEscaped (c :: body) (i + 1) ↔ IsEscaped body i := by
  induction i with
  | zero => simp [IsEscaped, hc]
  | succ i ih => rw [IsEscaped, ih, List.getElem?_cons_succ, IsEscaped]

/-- The same holds behind a backslash and the character that it escapes. -/
private theorem isEscaped_escape (c : Char) (i : Nat) :
    IsEscaped ('\\' :: c :: body) (i + 2) ↔ IsEscaped body i := by
  induction i with
  -- What the backslash escapes is no backslash that escapes.
  | zero => simp [IsEscaped]
  | succ i ih => rw [IsEscaped, ih, List.getElem?_cons_succ, List.getElem?_cons_succ, IsEscaped]

/-- The first position is not escaped, so a delimiter there closes. -/
private theorem closesAt_zero_iff : ClosesAt delimiter body 0 ↔ delimiter <+: body := by
  simp [ClosesAt, IsEscaped]

/-- Behind a character that is no backslash, a literal closes where it does without this
    character. -/
private theorem closesAt_plain {c : Char} (hc : c ≠ '\\') (i : Nat) :
    ClosesAt delimiter (c :: body) (i + 1) ↔ ClosesAt delimiter body i := by
  rw [ClosesAt, ClosesAt, isEscaped_plain hc, List.drop_succ_cons]

/-- The same holds behind a backslash and the character that it escapes. -/
private theorem closesAt_escape (c : Char) (i : Nat) :
    ClosesAt delimiter ('\\' :: c :: body) (i + 2) ↔ ClosesAt delimiter body i := by
  rw [ClosesAt, ClosesAt, isEscaped_escape, List.drop_succ_cons, List.drop_succ_cons]

namespace BodyLength

theorem close (h : delimiter <+: body) : BodyLength delimiter body delimiter.length :=
  .inl ⟨0, closesAt_zero_iff.mpr h, fun _ hj => absurd hj (Nat.not_lt_zero _), (Nat.zero_add _).symm⟩

/-- Nothing closes a literal in fewer characters than a delimiter has. -/
theorem of_length_lt (h : body.length < delimiter.length) :
    BodyLength delimiter body body.length := by
  refine .inr ⟨fun i hi => ?_, rfl⟩
  have hle := hi.1.length_le
  rw [List.length_drop] at hle
  omega

/-- Characters in front that close nothing belong to the literal, if what follows closes where it
    did. -/
theorem shift {body' : List Char} {n k : Nat} (h : BodyLength delimiter body n)
    (hlength : body'.length = body.length + k)
    (hbefore : ∀ j < k, ¬ ClosesAt delimiter body' j)
    (hafter : ∀ i, ClosesAt delimiter body' (i + k) ↔ ClosesAt delimiter body i) :
    BodyLength delimiter body' (n + k) := by
  -- Where the longer body is closed, the shorter one is, that much earlier.
  have hshift {j : Nat} (hj : ClosesAt delimiter body' j) :
      ∃ i, j = i + k ∧ ClosesAt delimiter body i := by
    have hk : k ≤ j := Nat.le_of_not_lt fun hlt => hbefore j hlt hj
    refine ⟨j - k, by omega, ?_⟩
    rwa [← hafter, Nat.sub_add_cancel hk]
  obtain ⟨i, hi, hfirst, rfl⟩ | ⟨hnone, rfl⟩ := h
  · refine .inl ⟨i + k, (hafter i).mpr hi, fun j hj hclose => ?_, by omega⟩
    obtain ⟨i', rfl, hi'⟩ := hshift hclose
    exact hfirst i' (by omega) hi'
  · refine .inr ⟨fun j hclose => ?_, hlength.symm⟩
    obtain ⟨i, -, hi⟩ := hshift hclose
    exact hnone i hi

/-- One such character is one that is no backslash and begins no delimiter. -/
theorem plain {c : Char} {n : Nat} (hc : c ≠ '\\') (hopen : ¬ delimiter <+: c :: body)
    (h : BodyLength delimiter body n) : BodyLength delimiter (c :: body) (n + 1) := by
  refine h.shift rfl (fun j hj hclose => ?_) (closesAt_plain hc)
  obtain rfl : j = 0 := by omega
  exact hopen (closesAt_zero_iff.mp hclose)

/-- A backslash and the character that it escapes are two such characters. -/
theorem escape (c : Char) {n : Nat} (hdelimiter : ∀ rest, ¬ delimiter <+: '\\' :: rest)
    (h : BodyLength delimiter body n) : BodyLength delimiter ('\\' :: c :: body) (n + 2) := by
  refine h.shift rfl (fun j hj hclose => ?_) (closesAt_escape c)
  -- The backslash is no delimiter, and what it takes along is escaped.
  match j, hj with
  | 0, _ => exact hdelimiter _ (closesAt_zero_iff.mp hclose)
  | 1, _ => exact hclose.2 ⟨rfl, fun h => h⟩

/-- A backslash at the end of the text belongs to a literal that is not closed. -/
theorem backslash (hdelimiter : ∀ rest, ¬ delimiter <+: '\\' :: rest) :
    BodyLength delimiter ['\\'] 1 := by
  refine .inr ⟨fun i hclose => ?_, rfl⟩
  match i with
  | 0 => exact hdelimiter [] (closesAt_zero_iff.mp hclose)
  | i + 1 =>
    have hnil : delimiter = [] := by simpa using hclose.1
    exact hdelimiter [] (hnil ▸ List.nil_prefix)

end BodyLength

end

/-- A quoted literal ends with the first quote that closes it. -/
theorem bodyLength_quotedBody {quote : Char} (hquote : quote ≠ '\\') (cs : List Char) :
    BodyLength [quote] cs (quotedBody quote cs).1.length := by
  have hbackslash (rest : List Char) : ¬ [quote] <+: '\\' :: rest := by
    simpa [List.cons_prefix_cons] using hquote
  fun_induction quotedBody quote cs with
  | case1 => exact .of_length_lt (Nat.lt_add_one 0)
  | case2 => exact .backslash hbackslash
  | case3 c cs ih => exact ih.escape c hbackslash
  | case4 cs _ _ => exact .close (List.prefix_append [quote] cs)
  | case5 c cs hend hescape hc ih =>
    have hopen : ¬ [quote] <+: c :: cs := by simpa [List.cons_prefix_cons] using Ne.symm hc
    exact ih.plain (ne_backslash_of_forall hend hescape) hopen

/-- A text block ends with the first three quotes that close it. -/
theorem bodyLength_blockBody (cs : List Char) :
    BodyLength ['"', '"', '"'] cs (blockBody cs).1.length := by
  have hbackslash (rest : List Char) : ¬ ['"', '"', '"'] <+: '\\' :: rest := by
    simp [List.cons_prefix_cons]
  -- The cases are those of the scanner, and each has its lemma about positions.
  fun_induction blockBody cs with
  | case1 => exact .of_length_lt (Nat.zero_lt_succ 2)
  | case2 => exact .backslash hbackslash
  | case3 c cs ih => exact ih.escape c hbackslash
  | case4 cs => exact .close (List.prefix_append ['"', '"', '"'] cs)
  | case5 c cs hend hescape hopen ih =>
    refine ih.plain (ne_backslash_of_forall hend hescape) ?_
    rintro ⟨tail, htail⟩
    obtain ⟨rfl, rfl⟩ := List.cons.inj htail
    exact hopen tail rfl rfl

/-! ## Ends of literals -/

/-- What opens the literal at the beginning of a text: three quotes, or its first character. What
    closes it is the same. -/
def opening (cs : List Char) : List Char :=
  if ['"', '"', '"'] <+: cs then ['"', '"', '"'] else cs.take 1

/-- Whether a position is the end of the literal that starts at another one: one past the first
    delimiter that closes it, or the end of the text if there is none. -/
def IsLiteralEnd (cs : List Char) (start stop : Nat) : Prop :=
  let delimiter := opening (cs.drop start)
  let body := cs.drop (start + delimiter.length)
  (∃ i, ClosesAt delimiter body i ∧ (∀ j < i, ¬ ClosesAt delimiter body j) ∧
    stop = start + delimiter.length + i + delimiter.length) ∨
  (∀ i, ¬ ClosesAt delimiter body i) ∧ stop = cs.length

/-- The end of a quoted literal, looked for from a position of it. A position may lie behind the
    end of the text, where an escape has led. -/
def quotedEnd? (quote : Char) (cs : List Char) (i : Nat) : Option Nat :=
  if _h : i < cs.length then
    match cs[i]? with
    | none => none
    | some c =>
      if c = '\\' then quotedEnd? quote cs (i + 2)
      else if c = quote then some (i + 1)
      else quotedEnd? quote cs (i + 1)
  else some cs.length
termination_by cs.length - i

/-- The end of a text block, looked for from a position of it. -/
def blockEnd? (cs : List Char) (i : Nat) : Option Nat :=
  if _h : i + 2 < cs.length then
    match cs[i]?, cs[i + 1]?, cs[i + 2]? with
    | some a, some b, some c =>
      if a = '\\' then blockEnd? cs (i + 2)
      else if a = '"' ∧ b = '"' ∧ c = '"' then some (i + 3)
      else blockEnd? cs (i + 1)
    | _, _, _ => none
  else some cs.length
termination_by cs.length - i

/-- The end of the literal that starts at a position. -/
def literalEnd? (cs : List Char) (start : Nat) : Option Nat :=
  match cs[start]? with
  | none => none
  | some quote =>
    if quote = '"' ∧ cs[start + 1]? = some '"' ∧ cs[start + 2]? = some '"' then
      blockEnd? cs (start + 3)
    else quotedEnd? quote cs (start + 1)

theorem drop_eq_cons {cs : List Char} {i : Nat} {c : Char} (h : cs[i]? = some c) :
    cs.drop i = c :: cs.drop (i + 1) := by
  obtain ⟨hlt, rfl⟩ := List.getElem?_eq_some_iff.mp h
  exact List.drop_eq_getElem_cons hlt

/-- The end of a quoted literal by positions is where the scanner cuts. -/
theorem quotedEnd?_eq (quote : Char) (cs : List Char) (i : Nat) :
    quotedEnd? quote cs i = some (cs.length - (quotedBody quote (cs.drop i)).2.length) := by
  fun_induction quotedEnd? quote cs i with
  | case1 i hlt hread => exact absurd hread (by simpa using hlt)
  | case2 i hlt hread ih =>
    rw [ih, drop_eq_cons hread, snd_quotedBody_backslash, List.drop_drop]
  | case3 i hlt hread hc =>
    rw [drop_eq_cons hread, quotedBody_cons hc, if_pos rfl, List.length_drop]
    congr 1
    omega
  | case4 i hlt c hread hc hquote ih =>
    rw [ih, drop_eq_cons hread, quotedBody_cons hc, if_neg hquote]
    rfl
  -- Behind the end of the text nothing is left, and the literal ends with the text.
  | case5 i hge =>
    rw [List.drop_eq_nil_of_le (by omega)]
    rfl

/-- The end of a text block by positions is where the scanner cuts. -/
theorem blockEnd?_eq (cs : List Char) (i : Nat) :
    blockEnd? cs i = some (cs.length - (blockBody (cs.drop i)).2.length) := by
  fun_induction blockEnd? cs i with
  | case1 i hlt b c hb hc hread ih =>
    rw [ih, drop_eq_cons hread, snd_blockBody_backslash, List.drop_drop]
  | case2 i hlt a b c hc hb ha hne hquotes =>
    obtain ⟨rfl, rfl, rfl⟩ := hquotes
    rw [drop_eq_cons ha, drop_eq_cons hb, drop_eq_cons hc]
    change some (i + 3) = some (cs.length - (cs.drop (i + 1 + 1 + 1)).length)
    rw [List.length_drop]
    congr 1
    omega
  | case3 i hlt a b c hc hb ha hne hquotes ih =>
    have hopen : ¬ ['"', '"', '"'] <+: a :: cs.drop (i + 1) := by
      rw [drop_eq_cons hb, drop_eq_cons hc]
      simpa [List.cons_prefix_cons, eq_comm] using hquotes
    rw [ih, drop_eq_cons ha, blockBody_cons hne hopen]
    rfl
  | case4 i hlt hread =>
    exact (hread _ _ _ (List.getElem?_eq_getElem (by omega)) (List.getElem?_eq_getElem (by omega))
      (List.getElem?_eq_getElem hlt)).elim
  | case5 i hge =>
    -- Less than three characters are left.
    have hnil : (blockBody (cs.drop i)).2 = [] := by
      refine (blockRest_or_eq_nil _).resolve_left fun hrest => ?_
      have hlength := congrArg List.length (blockBody_append (cs.drop i))
      rw [List.length_append, List.length_drop] at hlength
      have hthree := hrest.three_le_length
      omega
    rw [hnil]
    rfl

/-- Three quotes open a text block. -/
private theorem opening_of_quotes {cs : List Char} (h : ['"', '"', '"'] <+: cs) :
    opening cs = ['"', '"', '"'] := if_pos h

/-- Otherwise a literal opens with its first character. -/
private theorem opening_cons {quote : Char} {cs : List Char}
    (h : ¬ ['"', '"', '"'] <+: quote :: cs) :
    opening (quote :: cs) = [quote] := if_neg h

/-- A literal that does not open as a text block is a quoted one. -/
theorem literalBody_quoted {quote : Char} {cs : List Char}
    (h : ¬ ['"', '"', '"'] <+: quote :: cs) : literalBody quote cs = quotedBody quote cs := by
  unfold literalBody
  split
  · exact absurd (List.prefix_append ['"', '"', '"'] _) h
  · rfl

/-- A literal is its opening and what belongs to it behind that. -/
private theorem bodyLength_literalBody {quote : Char} (hquote : isQuote quote = true)
    (cs : List Char) :
    ∃ n, BodyLength (opening (quote :: cs)) ((quote :: cs).drop (opening (quote :: cs)).length) n ∧
      (literalBody quote cs).1.length + 1 = (opening (quote :: cs)).length + n := by
  -- Three quotes open a text block; otherwise the literal is a quoted one.
  by_cases hopen : ['"', '"', '"'] <+: quote :: cs
  · rw [opening_of_quotes hopen]
    obtain ⟨body, hbody⟩ := hopen
    obtain ⟨rfl, rfl⟩ := List.cons.inj hbody
    refine ⟨_, bodyLength_blockBody body, ?_⟩
    change (blockBody body).1.length + 1 + 1 + 1 = 3 + (blockBody body).1.length
    omega
  · have hbackslash : quote ≠ '\\' := by
      rintro rfl
      exact absurd hquote (by decide)
    rw [opening_cons hopen, literalBody_quoted hopen]
    exact ⟨_, bodyLength_quotedBody hbackslash cs, Nat.add_comm _ _⟩

/-- Whether three quotes open a text block at a position, read one by one. -/
private theorem block_opens_iff {cs : List Char} {start : Nat} {quote : Char} :
    quote = '"' ∧ cs[start + 1]? = some '"' ∧ cs[start + 2]? = some '"' ↔
      ['"', '"', '"'] <+: quote :: cs.drop (start + 1) := by
  constructor
  · rintro ⟨rfl, hsecond, hthird⟩
    rw [drop_eq_cons hsecond, drop_eq_cons hthird]
    exact List.prefix_append ['"', '"', '"'] _
  · rintro ⟨tail, htail⟩
    obtain ⟨rfl, hrest⟩ := List.cons.inj htail
    have hread (k : Nat) : cs[start + 1 + k]? = ('"' :: '"' :: tail)[k]? := by
      rw [← List.getElem?_drop, ← hrest]
      rfl
    exact ⟨rfl, hread 0, hread 1⟩

section

variable {cs : List Char} {start : Nat} {quote : Char}

/-- The end of a literal by positions is where the scanner cuts. -/
theorem literalEnd?_eq (hread : cs[start]? = some quote) :
    literalEnd? cs start =
      some (cs.length - (literalBody quote (cs.drop (start + 1))).2.length) := by
  unfold literalEnd?
  rw [hread]
  simp only [block_opens_iff]
  split
  · -- Of the three quotes of a text block two are behind the first one.
    rename_i hopen
    obtain ⟨body, hbody⟩ := hopen
    obtain ⟨rfl, hrest⟩ := List.cons.inj hbody
    have hdrop : cs.drop (start + 3) = body := by
      rw [← List.drop_drop (i := 2), ← hrest]
      rfl
    rw [blockEnd?_eq, hdrop, ← hrest]
    rfl
  · rename_i hopen
    rw [literalBody_quoted hopen, quotedEnd?_eq]

/-- The scanner cuts behind a literal. -/
theorem isLiteralEnd_of_isQuote (hread : cs[start]? = some quote) (hquote : isQuote quote = true) :
    IsLiteralEnd cs start (cs.length - (literalBody quote (cs.drop (start + 1))).2.length) := by
  obtain ⟨n, hbody, hlength⟩ := bodyLength_literalBody hquote (cs.drop (start + 1))
  have hsplit := congrArg List.length (literalBody_append quote (cs.drop (start + 1)))
  rw [List.length_append, List.length_drop] at hsplit
  have hlt : start < cs.length := (List.getElem?_eq_some_iff.mp hread).1
  unfold IsLiteralEnd
  dsimp only
  rw [← List.drop_drop, drop_eq_cons hread]
  -- The literal is closed at a delimiter, or runs to the end of the text.
  obtain ⟨i, hclose, hfirst, rfl⟩ | ⟨hnone, rfl⟩ := hbody
  · exact .inl ⟨i, hclose, hfirst, by omega⟩
  · refine .inr ⟨hnone, ?_⟩
    rw [List.length_drop, List.length_cons, List.length_drop] at hlength
    omega

end

/-! ## Ends of comments -/

/-- The end of the line that a position is on. -/
def lineEnd? (cs : List Char) (i : Nat) : Option Nat :=
  if _h : i < cs.length then
    match cs[i]? with
    | none => none
    | some c => if c = '\n' then some i else lineEnd? cs (i + 1)
  else some i
termination_by cs.length - i

/-- The next star with a slash behind it, or the end of the text. -/
def blockCommentEnd? (cs : List Char) (i : Nat) : Option Nat :=
  if _h : i < cs.length then
    match cs[i]? with
    | none => none
    | some c => if c = '*' ∧ cs[i + 1]? = some '/' then some i else blockCommentEnd? cs (i + 1)
  else some i
termination_by cs.length - i

/-- A line comment ends by positions where the scanner ends it. -/
theorem lineEnd?_eq {cs : List Char} {i : Nat} (hi : i ≤ cs.length) :
    lineEnd? cs i = some (cs.length - ((cs.drop i).dropWhile (· ≠ '\n')).length) := by
  fun_induction lineEnd? cs i with
  | case1 i hlt hread => exact absurd hread (by simpa using hlt)
  -- Here is the line break, and the comment ends in front of it.
  | case2 i hlt hread =>
    rw [drop_eq_cons hread, List.dropWhile_cons_of_neg (by simp), ← drop_eq_cons hread,
      List.length_drop]
    congr 1
    omega
  | case3 i hlt c hread hc ih =>
    rw [ih hlt, drop_eq_cons hread, List.dropWhile_cons_of_pos (by simpa using hc)]
  | case4 i hge =>
    rw [List.drop_eq_nil_of_le (by omega), List.dropWhile_nil]
    congr 1
    exact Nat.le_antisymm hi (Nat.le_of_not_lt hge)

/-- A block comment ends two characters behind the position found, or at the end of the text. -/
theorem blockCommentEnd?_eq {cs : List Char} {i : Nat} (hi : i ≤ cs.length) :
    ∃ stop, blockCommentEnd? cs i = some stop ∧
      min (stop + 2) cs.length = cs.length - (blockCommentBody (cs.drop i)).2.length := by
  fun_induction blockCommentEnd? cs i with
  | case1 i hlt hread => exact absurd hread (by simpa using hlt)
  -- Here the comment is closed.
  | case2 i hlt c hread hend =>
    obtain ⟨rfl, hslash⟩ := hend
    refine ⟨i, rfl, ?_⟩
    rw [drop_eq_cons hread, drop_eq_cons hslash]
    change min (i + 2) cs.length = cs.length - (cs.drop (i + 1 + 1)).length
    rw [List.length_drop]
    omega
  | case3 i hlt c hread hend ih =>
    obtain ⟨stop, hstop, hmin⟩ := ih hlt
    refine ⟨stop, hstop, hmin.trans ?_⟩
    rw [drop_eq_cons hread, blockCommentBody]
    · rfl
    · rintro tail rfl htail
      refine hend ⟨rfl, ?_⟩
      rw [← List.head?_drop, htail, List.head?_cons]
  -- A comment that is not closed ends with the text.
  | case4 i hge =>
    refine ⟨i, rfl, ?_⟩
    rw [List.drop_eq_nil_of_le (by omega)]
    change min (i + 2) cs.length = cs.length
    omega

/-! ## Steps -/

/-- The characters from one position up to another one. -/
def slice? (cs : List Char) (start stop : Nat) : Option (List Char) :=
  if start ≤ stop ∧ stop ≤ cs.length then some ((cs.drop start).take (stop - start)) else none

/-- The slice of a literal is the literal. -/
theorem slice?_literal {cs : List Char} {start : Nat} {quote : Char}
    (hread : cs[start]? = some quote) :
    slice? cs start (cs.length - (literalBody quote (cs.drop (start + 1))).2.length) =
      some (quote :: (literalBody quote (cs.drop (start + 1))).1) := by
  have happend := literalBody_append quote (cs.drop (start + 1))
  have hlength := congrArg List.length happend
  rw [List.length_append, List.length_drop] at hlength
  have hlt : start < cs.length := (List.getElem?_eq_some_iff.mp hread).1
  have htake : cs.length - (literalBody quote (cs.drop (start + 1))).2.length - start =
      (literalBody quote (cs.drop (start + 1))).1.length + 1 := by omega
  rw [slice?, if_pos ⟨by omega, Nat.sub_le _ _⟩, htake, drop_eq_cons hread, List.take_succ_cons]
  congr 2
  exact (congrArg _ happend.symm).trans List.take_left

/-- How far a text is read. -/
structure Cursor where
  position : Nat
  /-- What is written so far. -/
  written : List Char
  /-- Whether layout came after what is written last. -/
  gap : Bool

namespace Cursor

/-- Before anything is read. -/
def start : Cursor := ⟨0, [], false⟩

/-- Goes on behind layout. -/
def skip (s : Cursor) (stop : Nat) : Cursor := ⟨stop, s.written, true⟩

/-- Goes on behind a text that is kept, and writes it. -/
def keep (s : Cursor) (stop : Nat) (text : List Char) : Cursor :=
  ⟨stop, s.written ++ (if s.gap && keepsApart s.written.getLast? text.head? then [' '] else [])
    ++ text, false⟩

/-- Goes on behind the next token. -/
def step? (cs : List Char) (s : Cursor) : Option Cursor :=
  match cs[s.position]? with
  | none => none
  | some c =>
    if isQuote c then
      (literalEnd? cs s.position).bind fun stop =>
        (slice? cs s.position stop).map fun text => s.keep stop text
    else if c = '/' ∧ cs[s.position + 1]? = some '/' then
      (lineEnd? cs s.position).map fun stop => s.skip stop
    else if c = '/' ∧ cs[s.position + 1]? = some '*' then
      (blockCommentEnd? cs (s.position + 2)).map fun stop => s.skip (min (stop + 2) cs.length)
    else if isBlank c then some (s.skip (s.position + 1))
    else some (s.keep (s.position + 1) [c])

/-- Steps until the end of the text. A step that does not get on fails. -/
def run? (cs : List Char) (s : Cursor) : Option Cursor :=
  if s.position < cs.length then
    match step? cs s with
    | none => none
    | some next => if _h : s.position < next.position then run? cs next else none
  else some s
termination_by cs.length - s.position

/-- The canonical form of a text. -/
def canonical? (cs : List Char) : Option (List Char) :=
  (run? cs start).map fun s => if s.written.isEmpty then trim cs else s.written

/-- Goes on behind a token, in front of what is left. -/
def after (cs : List Char) (s : Cursor) (token : Token) (rest : List Char) : Cursor :=
  match token with
  | .layout => s.skip (cs.length - rest.length)
  | .solid text => s.keep (cs.length - rest.length) text

/-- A step reads the first token of what is left. -/
theorem step?_eq (cs : List Char) (s : Cursor) :
    step? cs s =
      (Token.first? (cs.drop s.position)).map fun first => after cs s first.1 first.2 := by
  unfold step?
  cases hread : cs[s.position]? with
  | none =>
    rw [List.drop_eq_nil_of_le (List.getElem?_eq_none_iff.mp hread)]
    rfl
  | some c =>
    have hlt : s.position < cs.length := (List.getElem?_eq_some_iff.mp hread).1
    have hnext : cs.length - (cs.drop (s.position + 1)).length = s.position + 1 := by
      rw [List.length_drop]
      omega
    have hhead : (cs.drop (s.position + 1)).head? = cs[s.position + 1]? := List.head?_drop
    rw [drop_eq_cons hread]
    dsimp only
    split
    · rename_i hquote
      rw [first?_literal hquote, literalEnd?_eq hread, Option.bind_some, slice?_literal hread]
      rfl
    rename_i hquote
    split
    · rename_i hline
      obtain ⟨rfl, hslash⟩ := hline
      have hcomment := commentBody?.eq_1 (cs.drop (s.position + 1 + 1))
      rw [← drop_eq_cons hslash] at hcomment
      rw [first?_comment hcomment, lineEnd?_eq hlt.le, drop_eq_cons hread, drop_eq_cons hslash]
      rfl
    rename_i hline
    split
    · rename_i hblock
      obtain ⟨rfl, hstar⟩ := hblock
      have hcomment := commentBody?.eq_2 (cs.drop (s.position + 1 + 1))
      rw [← drop_eq_cons hstar] at hcomment
      obtain ⟨stop, hstop, hmin⟩ :=
        blockCommentEnd?_eq (List.getElem?_eq_some_iff.mp hstar).1
      rw [first?_comment hcomment, hstop, Option.map_some, hmin]
      rfl
    rename_i hblock
    split
    · rename_i hblank
      rw [first?_blank hblank, Option.map_some, after, hnext]
    · rename_i hblank
      -- Neither kind of comment begins here, so a slash stands for itself.
      have hcomment : c = '/' → commentBody? (cs.drop (s.position + 1)) = none := by
        rintro rfl
        rw [commentBody?_eq_none_iff, hhead]
        exact ⟨fun h => hline ⟨rfl, h⟩, fun h => hblock ⟨rfl, h⟩⟩
      rw [first?_single (by simpa using hquote) (by simpa using hblank) hcomment, Option.map_some,
        after, hnext]

section

variable {cs rest : List Char} {s : Cursor} {token : Token}

/-- Within the text there is a next token. -/
private theorem exists_first? (hs : s.position < cs.length) :
    ∃ first, Token.first? (cs.drop s.position) = some first := by
  refine Option.ne_none_iff_exists'.mp fun hnone => ?_
  rw [first?_eq_none_iff, List.drop_eq_nil_iff] at hnone
  omega

@[simp] theorem position_after : (after cs s token rest).position = cs.length - rest.length := by
  cases token <;> rfl

/-- Behind the first token of what is left, what follows it is left. -/
private theorem drop_position_after (h : Token.first? (cs.drop s.position) = some (token, rest)) :
    cs.drop (after cs s token rest).position = rest := by
  obtain ⟨piece, -, hsplit, -⟩ := first?_eq_some h
  have hsuffix : rest <:+ cs := (hsplit ▸ List.suffix_append piece rest).trans
    (List.drop_suffix s.position cs)
  rw [position_after, ← List.suffix_iff_eq_drop.mp hsuffix]

/-- A step gets on. -/
private theorem position_lt_after (h : Token.first? (cs.drop s.position) = some (token, rest)) :
    s.position < (after cs s token rest).position := by
  have hlength := length_lt_of_first? h
  rw [List.length_drop] at hlength
  rw [position_after]
  omega

/-- What is written after a step is what was written and what the token adds. -/
private theorem renderFrom_after (tokens : List Token) :
    (after cs s token rest).written ++
        Token.renderFrom (after cs s token rest).written.getLast? (after cs s token rest).gap tokens =
      s.written ++ Token.renderFrom s.written.getLast? s.gap (token :: tokens) := by
  cases token with
  | layout => rfl
  | solid text =>
    have hlast : (after cs s (.solid text) rest).written.getLast? =
        text.getLast?.or s.written.getLast? := by
      cases text with
      | nil => simp [after, keep, keepsApart]
      | cons c text => simp [after, keep, List.getLast?_append, List.getLast?_cons]
    rw [hlast]
    simp [after, keep, Token.renderFrom]

end

/-- The steps lead to the end of the text, and write what is left of it. -/
theorem run?_eq (cs : List Char) (s : Cursor) (hs : s.position ≤ cs.length) :
    ∃ last, run? cs s = some last ∧ last.position = cs.length ∧
      last.written = s.written ++
        Token.renderFrom s.written.getLast? s.gap (Token.scan (cs.drop s.position)) := by
  induction hn : cs.length - s.position using Nat.strong_induction_on generalizing s with
  | _ n ih =>
    subst hn
    rw [run?]
    by_cases hlt : s.position < cs.length
    · obtain ⟨⟨token, rest⟩, hfirst⟩ := exists_first? hlt
      -- The step gets on, so less is left and the other steps lead to the end.
      have hgoes := position_lt_after hfirst
      obtain ⟨last, hrun, hend, hwritten⟩ := ih _ (by omega) (after cs s token rest)
        (by rw [position_after]; exact Nat.sub_le _ _) rfl
      refine ⟨last, ?_, hend, ?_⟩
      · rw [if_pos hlt, step?_eq, hfirst]
        dsimp only [Option.map_some]
        rw [dif_pos hgoes, hrun]
      · rw [hwritten, drop_position_after hfirst, renderFrom_after, ← scan_of_first? hfirst]
    · rw [if_neg hlt]
      refine ⟨s, rfl, by omega, ?_⟩
      rw [List.drop_eq_nil_of_le (by omega), scan_nil, Token.renderFrom, List.append_nil]

/-- The scanner by positions writes the canonical text. -/
theorem canonical?_eq (cs : List Char) : canonical? cs = some (canonical cs) := by
  obtain ⟨last, hrun, -, hwritten⟩ := run?_eq cs start (Nat.zero_le _)
  have hrender : last.written = Token.render (Token.scan cs) := hwritten
  rw [canonical?, hrun, Option.map_some, hrender]
  rfl

end Cursor

/-- The scanner by positions stays in the text and gets on. The literal that starts at a position, with
    a quote, ends behind that position and within the text: one past the first delimiter that closes
    it, or at the end of the text if there is none; and that is where the scanner cuts. Every step
    that begins within the text reads and slices within it, and gets on without going past its end.
    All steps together write the canonical text. -/
theorem scanner_stays_in_text (cs : List Char) :
    (∀ start quote, cs[start]? = some quote → isQuote quote = true →
      ∃ stop, literalEnd? cs start = some stop ∧ start < stop ∧ stop ≤ cs.length ∧
        IsLiteralEnd cs start stop ∧
        slice? cs start stop = some (quote :: (literalBody quote (cs.drop (start + 1))).1)) ∧
    (∀ s : Cursor, s.position < cs.length →
      ∃ next, s.step? cs = some next ∧ s.position < next.position ∧ next.position ≤ cs.length) ∧
    Cursor.canonical? cs = some (canonical cs) := by
  refine ⟨fun start quote hread hquote => ?_, fun s hs => ?_, Cursor.canonical?_eq cs⟩
  · refine ⟨_, literalEnd?_eq hread, ?_, Nat.sub_le _ _, isLiteralEnd_of_isQuote hread hquote,
      slice?_literal hread⟩
    have hlt : start < cs.length := (List.getElem?_eq_some_iff.mp hread).1
    have hrest := length_afterLiteral_le quote (cs.drop (start + 1))
    rw [List.length_drop] at hrest
    omega
  · -- Within the text there is a next token, so the step reads it and gets on.
    obtain ⟨⟨token, rest⟩, hfirst⟩ := Cursor.exists_first? hs
    refine ⟨_, ?_, Cursor.position_lt_after hfirst, ?_⟩
    · rw [Cursor.step?_eq, hfirst]
      rfl
    · rw [Cursor.position_after]
      exact Nat.sub_le _ _

/-- A backslash at the end of an open string, a text block with a quote too few at its end, and a
    comment that is cut off. -/
theorem scanner_stays_in_text_of_cut_off :
    "a\"\\".toList[1]? = some '"' ∧ isQuote '"' = true ∧
      (∃ stop, literalEnd? "a\"\\".toList 1 = some stop ∧
        IsLiteralEnd "a\"\\".toList 1 stop ∧ 1 < stop ∧ stop ≤ 3) ∧
      "\"\"\"a\"\"".toList[0]? = some '"' ∧
      (∃ stop, literalEnd? "\"\"\"a\"\"".toList 0 = some stop ∧
        IsLiteralEnd "\"\"\"a\"\"".toList 0 stop ∧ 0 < stop ∧ stop ≤ 6) ∧
      Cursor.start.position < "/*".toList.length ∧
      (∃ next, Cursor.start.step? "/*".toList = some next ∧ 0 < next.position ∧
        next.position ≤ 2) := by
  have hquote : isQuote '"' = true := by decide
  have hstring : "a\"\\".toList[1]? = some '"' := by decide
  have hblock : "\"\"\"a\"\"".toList[0]? = some '"' := by decide
  have hcomment : Cursor.start.position < "/*".toList.length := by decide
  obtain ⟨stop, hend, hlow, hhigh, hliteral, -⟩ :=
    (scanner_stays_in_text "a\"\\".toList).1 1 '"' hstring hquote
  obtain ⟨stop', hend', hlow', hhigh', hliteral', -⟩ :=
    (scanner_stays_in_text "\"\"\"a\"\"".toList).1 0 '"' hblock hquote
  obtain ⟨next, hnext, hgoes, hinside⟩ :=
    (scanner_stays_in_text "/*".toList).2.1 Cursor.start hcomment
  exact ⟨hstring, hquote, ⟨stop, hend, hliteral, hlow, hhigh⟩, hblock,
    ⟨stop', hend', hliteral', hlow', hhigh'⟩, hcomment, ⟨next, hnext, hgoes, hinside⟩⟩

end LogDrift.Text
