import LogDrift.Proofs.Lexemes

/-! # Laid out text

A laid out text is a row of items with layout in front of each and behind the last. Its canonical
text is the row of items, with one space wherever layout keeps two word characters apart; what the
layout is made of leaves no trace.

That takes a text in which the scanner finds the items where they stand (`LaidOut.IsRead`). It is
not enough that it finds the same items somewhere (`LaidOut.IsScanned`): a slash in front of a block
comment opens a line comment, and what the scanner reads behind that may have been laid out as part
of the block comment.

## Key results

- `IsLayout.passesOver`, `IsItem.scanFrom_append`: what the scanner makes of layout and items
- `isRead_iff_keptApart`: the scanner finds the items where they stand if none joins what follows it
- `Placed.canonical_textOf`: the canonical form of a laid out text
- `canonicalText_ignores_layout`: it is the same for all layouts that keep the same words apart
- `canonicalText_of_moved_items`: it is not, if the scanner finds the items elsewhere
-/

namespace LogDrift.Text

/-! ## Scanning with places -/

/-- The tokens of a text with the places where they begin. The text itself begins at `place`. -/
def Token.scanFrom (place : Nat) (cs : List Char) : List (Nat × Token) :=
  match _h : Token.first? cs with
  | none => []
  | some (token, rest) =>
    (place, token) :: Token.scanFrom (place + (cs.length - rest.length)) rest
termination_by cs.length
decreasing_by exact length_lt_of_first? _h

/-- The solid tokens of a text with the places where they begin. -/
def Token.places (place : Nat) (cs : List Char) : List (Nat × List Char) :=
  (Token.scanFrom place cs).filterMap fun t => t.2.solid?.map (t.1, ·)

/-- Tokens are placed one after the other, each where the one before ends. -/
theorem scanFrom_of_first? {cs rest : List Char} {token : Token}
    (h : Token.first? cs = some (token, rest)) (place : Nat) :
    Token.scanFrom place cs =
      (place, token) :: Token.scanFrom (place + (cs.length - rest.length)) rest := by
  rw [Token.scanFrom]
  split
  · rename_i hnone
    rw [h] at hnone
    cases hnone
  · rename_i hsome
    rw [h] at hsome
    cases hsome
    rfl

theorem scanFrom_nil (place : Nat) : Token.scanFrom place [] = [] := by
  rw [Token.scanFrom]
  rfl

/-- With their places, the tokens are those of the scanner. -/
theorem map_snd_scanFrom (place : Nat) (cs : List Char) :
    (Token.scanFrom place cs).map (·.2) = Token.scan cs := by
  fun_induction Token.scanFrom place cs with
  | case1 place cs h => rw [scan_eq, h, List.map_nil]
  | case2 place cs token rest h ih => rw [scan_eq, h, List.map_cons, ih]

/-- No token begins in front of the text. -/
private theorem le_of_mem_places {place : Nat} {cs : List Char} {p : Nat × List Char}
    (h : p ∈ Token.places place cs) : place ≤ p.1 := by
  obtain ⟨t, ht, hp⟩ := List.mem_filterMap.mp h
  obtain ⟨text, -, rfl⟩ := Option.map_eq_some_iff.mp hp
  clear h hp
  show place ≤ t.1
  -- Token by token, each of which begins behind the one before.
  fun_induction Token.scanFrom place cs with
  | case1 => exact absurd ht List.not_mem_nil
  | case2 place cs token rest _ ih =>
    rcases List.mem_cons.mp ht with rfl | ht
    · exact Nat.le_refl place
    · exact Nat.le_trans (Nat.le_add_right ..) (ih ht)

/-- The scanner reads an item as one solid token, unless what follows joins it. -/
theorem IsItem.scanFrom_append {text rest : List Char} (h : IsItem text)
    (hjoins : ¬ Joins text rest.head?) (place : Nat) :
    Token.scanFrom place (text ++ rest) =
      (place, .solid text) :: Token.scanFrom (place + text.length) rest := by
  rw [scanFrom_of_first? (h.first?_append hjoins), List.length_append, Nat.add_sub_cancel]

/-- The scanner reads `gap`, which stands at `place` and in front of `rest`, as layout tokens, as one
    of them at least if there is any gap. -/
def PassesOver (place : Nat) (gap rest : List Char) : Prop :=
  ∃ tokens : List (Nat × Token), (∀ t ∈ tokens, t.2 = .layout) ∧ (tokens = [] ↔ gap = []) ∧
    Token.scanFrom place (gap ++ rest) = tokens ++ Token.scanFrom (place + gap.length) rest

theorem passesOver_nil (place : Nat) (rest : List Char) : PassesOver place [] rest :=
  ⟨[], fun _ ht => absurd ht List.not_mem_nil, by simp, rfl⟩

/-- One layout token is passed over. -/
private theorem passesOver_of_first? {piece rest : List Char} (hne : piece ≠ [])
    (h : Token.first? (piece ++ rest) = some (.layout, rest)) (place : Nat) :
    PassesOver place piece rest := by
  refine ⟨[(place, .layout)], ?_, by simp [hne], ?_⟩
  · intro t ht
    rw [List.mem_singleton.mp ht]
  · rw [scanFrom_of_first? h, List.length_append, Nat.add_sub_cancel]
    rfl

/-- Two gaps, one behind the other, are passed over as one. -/
theorem PassesOver.append {place : Nat} {gap gap' rest : List Char}
    (h : PassesOver place gap (gap' ++ rest)) (h' : PassesOver (place + gap.length) gap' rest) :
    PassesOver place (gap ++ gap') rest := by
  obtain ⟨tokens, hlayout, hnil, hscan⟩ := h
  obtain ⟨tokens', hlayout', hnil', hscan'⟩ := h'
  -- The layout tokens of the first gap are followed by those of the second one.
  refine ⟨tokens ++ tokens', ?_, ?_, ?_⟩
  · intro t ht
    exact (List.mem_append.mp ht).elim (hlayout t) (hlayout' t)
  · rw [List.append_eq_nil_iff, List.append_eq_nil_iff, hnil, hnil']
  · rw [List.append_assoc, hscan, hscan', List.append_assoc, List.length_append, Nat.add_assoc]

/-- A line comment is passed over, in front of a line break or at the end of the text. -/
private theorem passesOver_line {body rest : List Char} (h : '\n' ∉ body)
    (hrest : rest = [] ∨ rest.head? = some '\n') (place : Nat) :
    PassesOver place ('/' :: '/' :: body) rest := by
  refine passesOver_of_first? (List.cons_ne_nil _ _) ?_ place
  rw [List.cons_append, List.cons_append]
  exact first?_comment (commentBody?_line h hrest)

/-- A block comment is passed over, whatever follows it. -/
private theorem passesOver_block {body : List Char} (h : ¬ ['*', '/'] <:+: body ++ ['*'])
    (rest : List Char) (place : Nat) :
    PassesOver place ('/' :: '*' :: (body ++ ['*', '/'])) rest := by
  refine passesOver_of_first? (List.cons_ne_nil _ _) ?_ place
  rw [List.cons_append, List.cons_append, List.append_assoc]
  exact first?_comment (commentBody?_block h rest)

/-- Layout is passed over. -/
theorem IsLayout.passesOver {cs : List Char} (h : IsLayout cs) (rest : List Char) (place : Nat) :
    PassesOver place cs rest := by
  induction h generalizing place with
  | nil => exact passesOver_nil place rest
  | @blank c cs hblank _ ih =>
    have hfirst : PassesOver place [c] (cs ++ rest) :=
      passesOver_of_first? (List.cons_ne_nil _ _) (first?_blank hblank _) _
    exact hfirst.append (ih _)
  | @line body cs hbody _ ih =>
    -- The comment ends in front of its line break, which is a token of its own.
    have hcomment : PassesOver place ('/' :: '/' :: body) (['\n'] ++ cs ++ rest) :=
      passesOver_line hbody (.inr rfl) place
    have hbreak : PassesOver (place + ('/' :: '/' :: body).length) ['\n'] (cs ++ rest) :=
      passesOver_of_first? (List.cons_ne_nil _ _) (first?_blank (by decide) _) _
    exact hcomment.append (hbreak.append (ih _))
  | @block body cs hbody _ ih =>
    have happ := PassesOver.append (passesOver_block hbody (cs ++ rest) place) (ih _)
    simpa using happ

/-- Layout at the end of the text is passed over. -/
theorem IsTrail.passesOver {cs : List Char} (h : IsTrail cs) (place : Nat) :
    PassesOver place cs [] := by
  cases h with
  | layout h => exact h.passesOver [] place
  | @line cs body h hbody =>
    have hcomment : PassesOver (place + cs.length) ('/' :: '/' :: body) [] :=
      passesOver_line hbody (.inl rfl) _
    exact (h.passesOver _ place).append hcomment

/-- No item is found in what is passed over. -/
theorem PassesOver.places_eq {place : Nat} {gap rest : List Char} (h : PassesOver place gap rest) :
    Token.places place (gap ++ rest) = Token.places (place + gap.length) rest := by
  obtain ⟨tokens, hlayout, -, hscan⟩ := h
  have hnone : tokens.filterMap (fun t => t.2.solid?.map (t.1, ·)) = [] := by
    refine List.filterMap_eq_nil_iff.mpr fun t ht => ?_
    rw [hlayout t ht]
    rfl
  rw [Token.places, hscan, List.filterMap_append, hnone, List.nil_append, Token.places]

/-- Layout tokens write nothing, but leave a gap. -/
private theorem renderFrom_layout {tokens : List (Nat × Token)} (h : ∀ t ∈ tokens, t.2 = .layout)
    (before : Option Char) (gap : Bool) (rest : List Token) :
    Token.renderFrom before gap (tokens.map (·.2) ++ rest) =
      Token.renderFrom before (gap || !tokens.isEmpty) rest := by
  induction tokens generalizing gap with
  | nil => simp
  | cons t tokens ih =>
    have hrest := ih (fun t ht => h t (List.mem_cons_of_mem _ ht)) true
    rw [List.map_cons, List.cons_append, h t List.mem_cons_self, Token.renderFrom, hrest]
    simp

/-- What is passed over is written as a gap, if there is any of it. -/
theorem PassesOver.renderFrom_scan {place : Nat} {gap rest : List Char}
    (h : PassesOver place gap rest) (before : Option Char) :
    Token.renderFrom before false (Token.scan (gap ++ rest)) =
      Token.renderFrom before (!gap.isEmpty) (Token.scan rest) := by
  obtain ⟨tokens, hlayout, hnil, hscan⟩ := h
  have hempty : tokens.isEmpty = gap.isEmpty := by
    rw [Bool.eq_iff_iff, List.isEmpty_iff, List.isEmpty_iff]
    exact hnil
  rw [← map_snd_scanFrom place, hscan, List.map_append, renderFrom_layout hlayout,
    map_snd_scanFrom, hempty, Bool.false_or]

/-! ## Laid out text -/

/-- An item with the layout in front of it. -/
structure Placed where
  gap : List Char
  item : List Char
  isLayout : IsLayout gap
  isItem : IsItem item

namespace Placed

/-- The items with their layout, and the end of the text. -/
def textOf (trail : List Char) : List Placed → List Char
  | [] => trail
  | p :: placed => p.gap ++ (p.item ++ textOf trail placed)

/-- The items with the places where they stand in a text that begins at `place`. -/
def placesOf (place : Nat) : List Placed → List (Nat × List Char)
  | [] => []
  | p :: placed =>
    (place + p.gap.length, p.item) :: placesOf (place + p.gap.length + p.item.length) placed

/-- No item joins what follows it. -/
def KeptApart (trail : List Char) : List Placed → Prop
  | [] => True
  | p :: placed => ¬ Joins p.item (textOf trail placed).head? ∧ KeptApart trail placed

/-- The items behind the item `before`, with a space in front of each that layout keeps apart from
    the one before, if word characters meet there. -/
def spacedAfter (before : List Char) : List Placed → List Char
  | [] => []
  | p :: placed =>
    (if p.gap ≠ [] ∧ keepsApart before.getLast? p.item.head? = true then [' '] else []) ++ p.item
      ++ spacedAfter p.item placed

/-- The items, with one space wherever layout keeps word characters apart. -/
def spaced : List Placed → List Char
  | [] => []
  | p :: placed => p.item ++ spacedAfter p.item placed

/-- The same boundaries between two word characters are empty in both. -/
def SameWordBoundaries (placed placed' : List Placed) : Prop :=
  ∀ (k : Nat) (p p' q' : Placed), placed[k]? = some p → placed[k + 1]? = some p' →
    placed'[k + 1]? = some q' → keepsApart p.item.getLast? p'.item.head? = true →
    (p'.gap = [] ↔ q'.gap = [])

end Placed

/-- A text of items and layout. -/
structure LaidOut where
  placed : List Placed
  trail : List Char
  isTrail : IsTrail trail

namespace LaidOut

variable (L : LaidOut)

/-- The text that is laid out. -/
def text : List Char := Placed.textOf L.trail L.placed

/-- Its items. -/
def items : List (List Char) := L.placed.map (·.item)

/-- The scanner finds the items of the text where they stand, and nothing else outside comments. -/
def IsRead : Prop := Token.places 0 L.text = Placed.placesOf 0 L.placed

/-- The scanner finds the items of the text, wherever that is, and nothing else outside comments. -/
def IsScanned : Prop := (Token.scan L.text).filterMap Token.solid? = L.items

end LaidOut

/-! ## Where the scanner finds the items -/

theorem places_nil (place : Nat) : Token.places place [] = [] := by
  rw [Token.places, scanFrom_nil, List.filterMap_nil]

/-- An item is found where it stands, unless what follows joins it. -/
theorem IsItem.places_append {text rest : List Char} (h : IsItem text)
    (hjoins : ¬ Joins text rest.head?) (place : Nat) :
    Token.places place (text ++ rest) =
      (place, text) :: Token.places (place + text.length) rest := by
  rw [Token.places, h.scanFrom_append hjoins, List.filterMap_cons]
  rfl

/-- The scanner does not find an item that joins what follows it. -/
theorem places_ne_of_joins {text rest : List Char} (h : Joins text rest.head?) (place : Nat)
    (found : List (Nat × List Char)) : Token.places place (text ++ rest) ≠ (place, text) :: found := by
  intro hfound
  rcases h with ⟨rfl, hnext⟩ | ⟨rfl, hnext⟩
  · -- A comment begins here, so that the first item found begins later.
    cases hcomment : commentBody? rest with
    | none =>
      obtain ⟨hslash, hstar⟩ := commentBody?_eq_none_iff.mp hcomment
      exact hnext.elim hslash hstar
    | some comment =>
      obtain ⟨body, behind⟩ := comment
      have hrest := commentBody?_append hcomment
      have hpasses : PassesOver place ('/' :: body) behind :=
        passesOver_of_first? (List.cons_ne_nil _ _) (by
          rw [List.cons_append, hrest]
          exact first?_comment hcomment) place
      have hplaces := hpasses.places_eq
      rw [List.cons_append, hrest] at hplaces
      have hmem : (place, ['/']) ∈ Token.places (place + ('/' :: body).length) behind := by
        rw [← hplaces, ← List.singleton_append, hfound]
        exact List.mem_cons_self
      have hle := le_of_mem_places hmem
      rw [List.length_cons] at hle
      omega
  · -- A text block begins here, which has more than two quotes.
    obtain ⟨tail, rfl⟩ := List.head?_eq_some_iff.mp hnext
    rw [Token.places, List.cons_append, List.singleton_append,
      scanFrom_of_first? (first?_block tail), List.filterMap_cons] at hfound
    cases hfound

namespace Placed

/-- The items are found where they stand if they are kept apart, and only then. -/
theorem places_textOf_iff {trail : List Char} (htrail : IsTrail trail) (placed : List Placed)
    (place : Nat) :
    Token.places place (textOf trail placed) = placesOf place placed ↔ KeptApart trail placed := by
  induction placed generalizing place with
  | nil =>
    have hplaces := (htrail.passesOver place).places_eq
    rw [List.append_nil, places_nil] at hplaces
    exact iff_of_true hplaces trivial
  | cons p placed ih =>
    have hgap := (p.isLayout.passesOver (p.item ++ textOf trail placed) place).places_eq
    rw [textOf, placesOf, KeptApart, hgap]
    -- An item that joins what follows is not found; else the rest of the text decides.
    by_cases hjoins : Joins p.item (textOf trail placed).head?
    · exact iff_of_false (places_ne_of_joins hjoins _ _) fun h => h.1 hjoins
    · rw [p.isItem.places_append hjoins, List.cons_inj_right, ih]
      exact (and_iff_right hjoins).symm

/-! ## What is written -/

/-- What is written of a laid out text behind an item. -/
theorem renderFrom_textOf {trail : List Char} (htrail : IsTrail trail) {placed : List Placed}
    (hkept : KeptApart trail placed) (before : List Char) :
    Token.renderFrom before.getLast? false (Token.scan (textOf trail placed)) =
      spacedAfter before placed := by
  -- Item by item; what the last one ends with decides whether a gap behind it is a space.
  induction placed generalizing before with
  | nil =>
    have hrender := (htrail.passesOver 0).renderFrom_scan before.getLast?
    rw [List.append_nil] at hrender
    rw [textOf, hrender, scan_nil, Token.renderFrom, spacedAfter]
  | cons p placed ih =>
    obtain ⟨last, hlast⟩ := Option.ne_none_iff_exists'.mp
      (mt List.getLast?_eq_none_iff.mp p.isItem.ne_nil)
    have hrest := ih hkept.2 p.item
    rw [textOf, (p.isLayout.passesOver _ 0).renderFrom_scan, p.isItem.scan_append hkept.1,
      Token.renderFrom, spacedAfter, ← hrest, hlast, Option.some_or]
    simp

theorem canonical_textOf {trail : List Char} (htrail : IsTrail trail) {placed : List Placed}
    (hne : placed ≠ []) (hkept : KeptApart trail placed) :
    canonical (textOf trail placed) = spaced placed := by
  obtain ⟨p, placed, rfl⟩ := List.exists_cons_of_ne_nil hne
  -- Nothing stands in front of the first item, so that layout there leaves no space.
  have hrender : Token.render (Token.scan (textOf trail (p :: placed))) = spaced (p :: placed) := by
    have hafter := renderFrom_textOf htrail hkept []
    rw [List.getLast?_nil] at hafter
    rw [Token.render, hafter, spacedAfter, spaced]
    simp [keepsApart]
  have htext : spaced (p :: placed) ≠ [] := by
    rw [spaced]
    exact List.append_ne_nil_of_left_ne_nil p.isItem.ne_nil _
  rw [canonical, hrender]
  simp [htext]

/-- What is written depends on the layout only where it keeps word characters apart. -/
theorem spacedAfter_congr {p q : Placed} {placed placed' : List Placed}
    (hitems : placed.map (·.item) = placed'.map (·.item))
    (hgaps : SameWordBoundaries (p :: placed) (q :: placed')) :
    spacedAfter p.item placed = spacedAfter p.item placed' := by
  induction placed generalizing p q placed' with
  | nil =>
    have hnil : placed' = [] := List.map_eq_nil_iff.mp hitems.symm
    rw [hnil]
  | cons r placed ih =>
    obtain ⟨t, placed', rfl, hitem, hitems⟩ := List.map_eq_cons_iff.mp hitems.symm
    have hrest : spacedAfter r.item placed = spacedAfter r.item placed' :=
      ih hitems.symm (show SameWordBoundaries (r :: placed) (t :: placed') from
        fun k => hgaps (k + 1))
    -- Between these two items, both texts have a gap or neither has one.
    have hspace : (r.gap ≠ [] ∧ keepsApart p.item.getLast? r.item.head? = true) ↔
        (t.gap ≠ [] ∧ keepsApart p.item.getLast? r.item.head? = true) :=
      and_congr_left fun hword => not_congr (hgaps 0 p r t rfl rfl rfl hword)
    rw [spacedAfter, spacedAfter, hitem, hrest]
    simp only [hspace]

/-- So are the items with their spaces. -/
theorem spaced_congr {placed placed' : List Placed}
    (hitems : placed.map (·.item) = placed'.map (·.item))
    (hgaps : SameWordBoundaries placed placed') : spaced placed = spaced placed' := by
  cases placed with
  | nil =>
    have hnil : placed' = [] := List.map_eq_nil_iff.mp hitems.symm
    rw [hnil]
  | cons p placed =>
    obtain ⟨q, placed', rfl, hitem, hitems⟩ := List.map_eq_cons_iff.mp hitems.symm
    rw [spaced, spaced, hitem, spacedAfter_congr hitems.symm hgaps]

end Placed

/-- The scanner finds the items of a laid out text where they stand if none joins what follows. -/
theorem isRead_iff_keptApart (L : LaidOut) : L.IsRead ↔ Placed.KeptApart L.trail L.placed :=
  Placed.places_textOf_iff L.isTrail L.placed 0

/-- Without their places, the items that are found are the solid tokens of the scanner. -/
theorem map_snd_places (place : Nat) (cs : List Char) :
    (Token.places place cs).map (·.2) = (Token.scan cs).filterMap Token.solid? := by
  rw [Token.places, ← map_snd_scanFrom place cs, List.map_filterMap, List.filterMap_map]
  simp only [Option.map_map, Function.comp_def, Option.map_id']

/-- Without their places, the items that stand in a text are its items. -/
theorem Placed.map_snd_placesOf (place : Nat) (placed : List Placed) :
    (placesOf place placed).map (·.2) = placed.map (·.item) := by
  induction placed generalizing place with
  | nil => rfl
  | cons p placed ih => rw [placesOf, List.map_cons, List.map_cons, ih]

/-- What is found where it stands is found. -/
theorem LaidOut.IsRead.isScanned {L : LaidOut} (h : L.IsRead) : L.IsScanned := by
  rw [IsScanned, ← map_snd_places 0, h, Placed.map_snd_placesOf]
  rfl

/-- The canonical text ignores layout and nothing else. If two texts lay out the same items, at
    least one, if the scanner finds them there where they stand, and if the same boundaries between
    word characters are empty in both, then both have one canonical text: all items as they are, in
    order, with one space just at those boundaries between word characters that are not empty. -/
theorem canonicalText_ignores_layout {L M : LaidOut} (hne : L.items ≠ [])
    (hitems : L.items = M.items) (hread : L.IsRead) (hread' : M.IsRead)
    (hgaps : Placed.SameWordBoundaries L.placed M.placed) :
    canonicalText (String.ofList L.text) = canonicalText (String.ofList M.text) ∧
    canonicalText (String.ofList L.text) = String.ofList (Placed.spaced L.placed) := by
  have hplaced : L.placed ≠ [] := fun h => hne (by rw [LaidOut.items, h, List.map_nil])
  have hplaced' : M.placed ≠ [] := by
    intro h
    rw [hitems, LaidOut.items, h] at hne
    exact hne rfl
  have hcanonical := Placed.canonical_textOf L.isTrail hplaced ((isRead_iff_keptApart L).mp hread)
  have hcanonical' := Placed.canonical_textOf M.isTrail hplaced' ((isRead_iff_keptApart M).mp hread')
  have hsame : Placed.spaced L.placed = Placed.spaced M.placed := Placed.spaced_congr hitems hgaps
  rw [canonicalText, canonicalText, String.toList_ofList, String.toList_ofList, LaidOut.text,
    LaidOut.text, hcanonical, hcanonical', hsame]
  exact ⟨rfl, rfl⟩

/-- Two words and a text block, apart by blanks and by comments that hold quotes. -/
def commentedText : LaidOut where
  placed := [
    ⟨[], ['a'], .nil, .single (by decide) (by decide)⟩,
    ⟨"/* \" */".toList, ['b'], @IsLayout.block [' ', '"', ' '] [] (by decide) .nil,
      .single (by decide) (by decide)⟩,
    ⟨[' '], "\"\"\"//\"\"\"".toList, .blank (by decide) .nil,
      .literal (.block (.plain (by decide) (by decide) (.plain (by decide) (by decide) .close)))⟩]
  trail := "// '".toList
  isTrail := @IsTrail.line [] " '".toList .nil (by decide)

/-- The same with a line break between the words. -/
def brokenText : LaidOut where
  placed := [
    ⟨"//\n".toList, ['a'], @IsLayout.line [] [] (by decide) .nil, .single (by decide) (by decide)⟩,
    ⟨['\n'], ['b'], .blank (by decide) .nil, .single (by decide) (by decide)⟩,
    ⟨[], "\"\"\"//\"\"\"".toList, .nil,
      .literal (.block (.plain (by decide) (by decide) (.plain (by decide) (by decide) .close)))⟩]
  trail := []
  isTrail := .layout .nil

/-- Both have one canonical text, with a space between the words. -/
theorem canonicalText_ignores_layout_of_comments :
    commentedText.items ≠ [] ∧ commentedText.items = brokenText.items ∧
    commentedText.IsRead ∧ brokenText.IsRead ∧
    Placed.SameWordBoundaries commentedText.placed brokenText.placed ∧
    canonicalText "a/* \" */b \"\"\"//\"\"\"// '" = canonicalText "//\na\nb\"\"\"//\"\"\"" ∧
    canonicalText "a/* \" */b \"\"\"//\"\"\"// '" = "a b\"\"\"//\"\"\"" := by
  have hne : commentedText.items ≠ [] := by decide
  have hitems : commentedText.items = brokenText.items := by decide
  have hread : commentedText.IsRead :=
    (isRead_iff_keptApart _).mpr ⟨by decide, by decide, by decide, trivial⟩
  have hread' : brokenText.IsRead :=
    (isRead_iff_keptApart _).mpr ⟨by decide, by decide, by decide, trivial⟩
  have hgaps : Placed.SameWordBoundaries commentedText.placed brokenText.placed := by
    intro k p p' q' hp hp' hq' hword
    match k with
    | 0 =>
      cases hp'
      cases hq'
      decide
    | 1 =>
      cases hp
      cases hp'
      exact absurd hword (by decide +kernel)
    | k + 2 => cases hp'
  have hspaced : String.ofList (Placed.spaced commentedText.placed) = "a b\"\"\"//\"\"\"" := by
    decide +kernel
  have hsame := canonicalText_ignores_layout hne hitems hread hread' hgaps
  rw [hspaced] at hsame
  exact ⟨hne, hitems, hread, hread', hgaps, hsame⟩

/-- A slash, behind it a block comment, and two words. -/
def movedText : LaidOut where
  placed := [
    ⟨[], ['/'], .nil, .single (by decide) (by decide)⟩,
    ⟨"/*\n/ab//*/".toList, ['a'], @IsLayout.block "\n/ab//".toList [] (by decide) .nil,
      .single (by decide) (by decide)⟩,
    ⟨[' '], ['b'], .blank (by decide) .nil, .single (by decide) (by decide)⟩]
  trail := []
  isTrail := .layout .nil

/-- The same without the comment. -/
def unmovedText : LaidOut where
  placed := [
    ⟨[], ['/'], .nil, .single (by decide) (by decide)⟩,
    ⟨[], ['a'], .nil, .single (by decide) (by decide)⟩,
    ⟨[' '], ['b'], .blank (by decide) .nil, .single (by decide) (by decide)⟩]
  trail := []
  isTrail := .layout .nil

/-- It is not enough that the scanner finds the items somewhere. Here the slash opens a line comment
    with the block comment behind it. The scanner finds the slash and both words in the next line,
    which was laid out as part of the block comment and has no space between the words. So the
    canonical texts differ, though both texts lay out the same items, the scanner finds these in
    either, and the words are apart in both. -/
theorem canonicalText_of_moved_items :
    movedText.items ≠ [] ∧ movedText.items = unmovedText.items ∧
    movedText.IsScanned ∧ unmovedText.IsScanned ∧ ¬ movedText.IsRead ∧ unmovedText.IsRead ∧
    Placed.SameWordBoundaries movedText.placed unmovedText.placed ∧
    String.ofList movedText.text = "//*\n/ab//*/a b" ∧ canonicalText "//*\n/ab//*/a b" = "/ab" ∧
    String.ofList unmovedText.text = "/a b" ∧ canonicalText "/a b" = "/a b" := by
  have hread : unmovedText.IsRead :=
    (isRead_iff_keptApart _).mpr ⟨by decide, by decide, by decide, trivial⟩
  have hscanned : (Token.scan movedText.text).filterMap Token.solid? = movedText.items := by
    decide +kernel
  refine ⟨by decide, by decide, hscanned, hread.isScanned, ?_, hread, ?_, by decide,
    by decide +kernel, by decide, by decide +kernel⟩
  · -- The slash joins the comment behind it.
    rw [isRead_iff_keptApart]
    exact fun hkept => hkept.1 (.inl ⟨rfl, .inl rfl⟩)
  · intro k p p' q' hp hp' hq' hword
    match k with
    | 0 =>
      cases hp
      cases hp'
      exact absurd hword (by decide +kernel)
    | 1 =>
      cases hp'
      cases hq'
      decide
    | k + 2 => cases hp'

end LogDrift.Text
