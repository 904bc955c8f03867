import LogDrift.Proofs.IdentityBytes

/-!
# Parameter lists

The parameters of a method are written in parentheses, with a comma between two types. The types may
hold commas themselves, as `Map<K,V>` does, but only in brackets, and what brackets a type opens it
closes. So a comma that is in no bracket ends a type, and the list is read back from its text:
methods that differ in name or in a parameter type differ in signature.

## Key results

- `IsTypeText.eq_of_append_eq`: where a type ends is seen from the text
- `eq_of_intercalate_comma_eq`: the types of a list are read back from its text
- `Method.signature_eq_iff`, `Method.fullSignature_eq_iff`: methods are told by their signatures
-/

namespace LogDrift

/-! ## Types -/

/-- The brackets that types are written with, each opening one with its closing one. -/
def typeBrackets : List (Char × Char) := [('<', '>'), ('(', ')'), ('[', ']'), ('\x7b', '\x7d')]

/-- How deep a text ends in the brackets of a kind: how many more of them it opens than it
    closes. -/
def bracketDepth (bracket : Char × Char) (text : List Char) : Int :=
  text.count bracket.1 - text.count bracket.2

/-- Whether a text reads as a type: there is something, its brackets are balanced, and its commas
    are in brackets. The kinds of brackets are looked at one by one, so this holds of properly
    nested ones, and of more. -/
structure IsTypeText (text : List Char) : Prop where
  ne_nil : text ≠ []
  balanced : ∀ bracket ∈ typeBrackets, bracketDepth bracket text = 0
  comma_in_bracket : ∀ i < text.length, text[i]? = some ',' →
    ∃ bracket ∈ typeBrackets, 0 < bracketDepth bracket (text.take i)

instance (text : List Char) : Decidable (IsTypeText text) :=
  decidable_of_iff (text ≠ [] ∧ (∀ bracket ∈ typeBrackets, bracketDepth bracket text = 0) ∧
      ∀ i < text.length, text[i]? = some ',' →
        ∃ bracket ∈ typeBrackets, 0 < bracketDepth bracket (text.take i))
    ⟨fun h => ⟨h.1, h.2.1, h.2.2⟩, fun h => ⟨h.ne_nil, h.balanced, h.comma_in_bracket⟩⟩

/-- Whether a text can follow a type in a list: there is nothing more, or a comma comes first. -/
def EndsType (rest : List Char) : Prop := rest = [] ∨ ∃ more, rest = ',' :: more

namespace IsTypeText

variable {t u tail rest more : List Char}

/-- A type does not go on behind another type with what can follow that one in a list. -/
theorem eq_nil_of_append (ht : IsTypeText t) (hu : IsTypeText (t ++ tail))
    (hrest : EndsType (tail ++ more)) : tail = [] := by
  cases tail with
  | nil => rfl
  | cons c tail =>
    obtain hnil | ⟨_, hcomma⟩ := hrest
    · exact nomatch hnil
    · obtain ⟨rfl, -⟩ := List.cons.inj hcomma
      -- No bracket is open where the first type ends, so the comma there is in none.
      obtain ⟨bracket, hbracket, hdepth⟩ := hu.comma_in_bracket t.length (by simp) (by simp)
      rw [List.take_left, ht.balanced bracket hbracket] at hdepth
      exact absurd hdepth (Int.lt_irrefl 0)

/-- A type ends where a comma can follow it, and nowhere else. -/
theorem eq_of_append_eq (ht : IsTypeText t) (hu : IsTypeText u) (hrest : EndsType rest)
    (hmore : EndsType more) (h : t ++ rest = u ++ more) : t = u ∧ rest = more := by
  -- One of the two types is at the start of the other.
  rcases List.append_eq_append_iff.mp h with ⟨tail, rfl, rfl⟩ | ⟨tail, rfl, rfl⟩
  · obtain rfl := ht.eq_nil_of_append hu hrest
    exact ⟨(List.append_nil t).symm, rfl⟩
  · obtain rfl := hu.eq_nil_of_append ht hmore
    exact ⟨List.append_nil u, rfl⟩

end IsTypeText

/-! ## Lists of types -/

/-- The types of a list behind the first one, each with the comma in front of it. -/
def laterTypes (types : List (List Char)) : List Char := types.flatMap (',' :: ·)

private theorem laterTypes_cons (t : List Char) (types : List (List Char)) :
    laterTypes (t :: types) = ',' :: (t ++ laterTypes types) := rfl

/-- A list of types is the first one and the later ones. -/
private theorem intercalate_comma_cons (t : List Char) (types : List (List Char)) :
    List.intercalate [','] (t :: types) = t ++ laterTypes types := by
  induction types generalizing t with
  | nil => rfl
  | cons u types ih =>
    rw [List.intercalate_cons_cons, ih, laterTypes_cons, List.append_assoc, List.singleton_append]

/-- The later types can follow a type. -/
private theorem endsType_laterTypes (types : List (List Char)) : EndsType (laterTypes types) := by
  cases types with
  | nil => exact .inl rfl
  | cons t types => exact .inr ⟨t ++ laterTypes types, laterTypes_cons t types⟩

section

variable {types others : List (List Char)}

/-- Later types are told by their text. -/
private theorem eq_of_laterTypes_eq (htypes : ∀ t ∈ types, IsTypeText t)
    (hothers : ∀ u ∈ others, IsTypeText u) (h : laterTypes types = laterTypes others) :
    types = others := by
  induction types generalizing others with
  | nil =>
    cases others with
    | nil => rfl
    | cons u others => exact nomatch h
  | cons t types ih =>
    cases others with
    | nil => exact nomatch h
    | cons u others =>
      rw [List.forall_mem_cons] at htypes hothers
      -- The first types end where the next comma in no bracket stands, in both lists.
      obtain ⟨rfl, hlater⟩ := htypes.1.eq_of_append_eq hothers.1 (endsType_laterTypes types)
        (endsType_laterTypes others) (List.cons.inj h).2
      rw [ih htypes.2 hothers.2 hlater]

/-- Only an empty list has an empty text. -/
private theorem intercalate_comma_eq_nil_iff (htypes : ∀ t ∈ types, IsTypeText t) :
    List.intercalate [','] types = [] ↔ types = [] := by
  cases types with
  | nil => exact iff_of_true rfl rfl
  | cons t types =>
    refine iff_of_false (fun hnil => ?_) (List.cons_ne_nil t types)
    rw [intercalate_comma_cons] at hnil
    exact (htypes t List.mem_cons_self).ne_nil (List.append_eq_nil_iff.mp hnil).1

/-- Types are told by the text of their list. -/
theorem eq_of_intercalate_comma_eq (htypes : ∀ t ∈ types, IsTypeText t)
    (hothers : ∀ u ∈ others, IsTypeText u)
    (h : List.intercalate [','] types = List.intercalate [','] others) : types = others := by
  cases types with
  | nil => exact ((intercalate_comma_eq_nil_iff hothers).mp h.symm).symm
  | cons t types =>
    cases others with
    | nil => exact (intercalate_comma_eq_nil_iff htypes).mp h
    | cons u others =>
      -- With a comma in front of the first type as well, all types are written alike.
      apply eq_of_laterTypes_eq htypes hothers
      rw [laterTypes_cons, laterTypes_cons, ← intercalate_comma_cons, ← intercalate_comma_cons, h]

end

/-! ## Signatures -/

namespace Method

/-- Whether a method has a name, and its parameters have types. -/
structure IsDeclared (m : Method) : Prop where
  name_ne_empty : m.name ≠ ""
  types : ∀ type ∈ m.parameterTypes, IsTypeText type.toList

/-- Whether two methods have the same name and the same parameter types in the same order. -/
def SameOverload (m n : Method) : Prop := m.name = n.name ∧ m.parameterTypes = n.parameterTypes

variable {m n : Method}

/-- The parameters of a named method are its types in parentheses. -/
private theorem toList_parameters (h : m.name ≠ "") :
    m.signature.parameters.toList =
      '(' :: (List.intercalate [','] (m.parameterTypes.map String.toList) ++ [')']) := by
  rw [signature, if_neg (by simpa using h)]
  simp [String.toList_intercalate]

/-- Parameter types are told by the text of the parameters. -/
theorem eq_of_parameters_eq (hm : m.IsDeclared) (hn : n.IsDeclared)
    (h : m.signature.parameters = n.signature.parameters) :
    m.parameterTypes = n.parameterTypes := by
  have htexts := congrArg String.toList h
  rw [toList_parameters hm.name_ne_empty, toList_parameters hn.name_ne_empty,
    List.cons_inj_right, List.append_cancel_right_eq] at htexts
  have htypes := eq_of_intercalate_comma_eq (List.forall_mem_map.mpr hm.types)
    (List.forall_mem_map.mpr hn.types) htexts
  exact List.map_injective_iff.mpr (fun _ _ => String.toList_inj.mp) htypes

/-- The same overload has the same parameters. -/
theorem parameters_eq_of_sameOverload (h : m.SameOverload n) :
    m.signature.parameters = n.signature.parameters :=
  parameters_congr (by rw [h.1]) h.2

/-- Declared methods of one signature are the same overload. -/
theorem signature_eq_iff (hm : m.IsDeclared) (hn : n.IsDeclared) :
    m.signature = n.signature ↔ m.SameOverload n := by
  rw [Signature.eq_iff, signature_name, signature_name]
  exact ⟨fun h => ⟨h.1, eq_of_parameters_eq hm hn h.2⟩,
    fun h => ⟨h.1, parameters_eq_of_sameOverload h⟩⟩

/-- So are those of one signature on one line, if no name goes on with a parenthesis. -/
theorem fullSignature_eq_iff (hm : m.IsDeclared) (hn : n.IsDeclared) (hmname : '(' ∉ m.name.toList)
    (hnname : '(' ∉ n.name.toList) : m.fullSignature = n.fullSignature ↔ m.SameOverload n := by
  rw [← signature_eq_iff hm hn]
  refine ⟨fun h => ?_, fun h => by rw [fullSignature, h, fullSignature]⟩
  have htexts := congrArg String.toList h
  rw [fullSignature, fullSignature, Signature.full, Signature.full, String.toList_append,
    String.toList_append, signature_name, signature_name, toList_parameters hm.name_ne_empty,
    toList_parameters hn.name_ne_empty] at htexts
  -- The first parenthesis is the one behind the name.
  have hcount : m.name.toList.count '(' = n.name.toList.count '(' := by
    rw [List.count_eq_zero.mpr hmname, List.count_eq_zero.mpr hnname]
  obtain ⟨hname, hparameters⟩ := eq_of_append_cons_eq hcount htexts
  rw [Signature.eq_iff, signature_name, signature_name]
  refine ⟨String.toList_inj.mp hname, String.toList_inj.mp ?_⟩
  rw [toList_parameters hm.name_ne_empty, toList_parameters hn.name_ne_empty, hparameters]

end Method

/-! ## Records -/

/-- Whether a record is one of a method: of a site that came or went with the method, or of one that
    an update of the method changed. -/
inductive ChangeRecord.IsOf (m : Method) : ChangeRecord → Prop
  | whole {path : String} {kind : ChangeKind} {r : ChangeRecord}
      (h : r ∈ recordsOfMethod path kind m) : IsOf m r
  | compared {s : Settings} {oldPath newPath : String} {old : Method}
      {added : Option (List (List Char))} {r : ChangeRecord}
      (h : r ∈ compareMethods s oldPath newPath old m added) : IsOf m r

/-- A record knows its method by the signature on one line. -/
theorem ChangeRecord.IsOf.method_eq {m : Method} {r : ChangeRecord} (h : r.IsOf m) :
    r.method = m.fullSignature := by
  cases h with
  | whole h =>
    obtain ⟨site, -, rfl⟩ := mem_recordsOfMethod h
    rfl
  | compared h =>
    rcases (compareSites_inTextOrder _ _ _ _ _ _ _).mem h with
      ⟨_, -, rfl⟩ | ⟨_, -, rfl⟩ | ⟨_, -, _, -, -, rfl⟩ <;> rfl

/-- Methods with a name and with parameter types that close their brackets and have commas in
    brackets only are told by their signatures: these are equal if and only if the names are and
    the types are, in order. If there is no parenthesis in the names, the signatures on one line
    tell them too. It is this line that the records of a method, and their identities in the
    store, know the method by. -/
theorem signatures_identify_overloads (m n : Method) (hm : m.IsDeclared) (hn : n.IsDeclared) :
    (m.signature = n.signature ↔ m.name = n.name ∧ m.parameterTypes = n.parameterTypes) ∧
    ('(' ∉ m.name.toList → '(' ∉ n.name.toList →
      (m.fullSignature = n.fullSignature ↔
        m.name = n.name ∧ m.parameterTypes = n.parameterTypes)) ∧
    ∀ r : ChangeRecord, r.IsOf m → r.method = m.fullSignature ∧
      ∀ commitId, (identityParts commitId r)[2]? = some m.fullSignature := by
  refine ⟨Method.signature_eq_iff hm hn, Method.fullSignature_eq_iff hm hn, fun r hr => ?_⟩
  refine ⟨hr.method_eq, fun commitId => ?_⟩
  rw [← hr.method_eq]
  rfl

/-- A method of a map and an array. -/
def methodOfMap : Method := ⟨"put", ["Map<K,List<V>>", "int[]"], "", "", []⟩

/-- A method of a map with three type arguments. -/
def methodOfMapOnly : Method := ⟨"put", ["Map<K,List<V>,int[]>"], "", "", []⟩

/-- The comma between two types is told from one inside a type. -/
theorem signatures_identify_overloads_of_maps :
    methodOfMap.IsDeclared ∧ methodOfMapOnly.IsDeclared ∧
      methodOfMap.signature ≠ methodOfMapOnly.signature ∧
      methodOfMap.fullSignature ≠ methodOfMapOnly.fullSignature := by
  have hmap : methodOfMap.IsDeclared := ⟨by decide, by decide +kernel⟩
  have honly : methodOfMapOnly.IsDeclared := ⟨by decide, by decide +kernel⟩
  have htypes : ¬ (methodOfMap.name = methodOfMapOnly.name ∧
      methodOfMap.parameterTypes = methodOfMapOnly.parameterTypes) := by decide
  obtain ⟨hsignature, hfull, -⟩ := signatures_identify_overloads _ _ hmap honly
  exact ⟨hmap, honly, fun h => htypes (hsignature.mp h),
    fun h => htypes ((hfull (by decide +kernel) (by decide +kernel)).mp h)⟩

end LogDrift
