import LogDrift.Proofs.RecordShapes

/-!
# What an update is said to change

An update is classified by the names of the two calls and by their arguments. Both ways are exact:
what they report is said here of the calls themselves, facet by facet and position by position
(`CallSite.partAt`), and the other way round the same is reported, but for arguments that were added
one way and deleted the other (`ArgumentChange.reversed`).

The facets that a call has by itself are those of all its arguments together. A facet that only one
version of a call has differs at some position, so it is among those that the update is said to
change.

## Key results

- `callerChange?_eq_verbosity_iff`, `callerChange?_comm`: how the name changed
- `argumentChange?_reversed`: how the arguments changed, with the versions swapped
- `hasChanged_iff`: a facet is said to change if it differs at some position
- `hasChanged_of_facets_ne`: it is if the calls differ in it as a whole
-/

namespace LogDrift

/-! ## Names -/

/-- Whether two names have a dot, and the same text before the first one. -/
def AgreeToFirstDot (a b : String) : Prop :=
  ∃ root rest rest', a.toList = root ++ '.' :: rest ∧ b.toList = root ++ '.' :: rest' ∧ '.' ∉ root

section

variable {old new : CallSite}

/-- No change of the name is reported exactly if there is none. -/
theorem callerChange?_eq_none_iff : callerChange? old new = none ↔ old.name = new.name := by
  rw [callerChange?]
  split
  · simpa
  · rename_i hname
    split <;> simp [hname]

/-- A change of the level is one of names that agree before the first dot. -/
theorem callerChange?_eq_verbosity_iff :
    callerChange? old new = some .verbosity ↔
      old.name ≠ new.name ∧ AgreeToFirstDot old.name new.name := by
  rw [callerChange?]
  split
  · rename_i hname
    simp [hname]
  · rename_i hname
    rw [and_iff_right hname]
    split
    · rename_i a b ha hb
      obtain ⟨haname, haroot⟩ := Text.splitFirst_eq_some ha
      obtain ⟨hbname, -⟩ := Text.splitFirst_eq_some hb
      constructor
      · intro h
        have hroot : a.1 = b.1 := by simpa using h
        exact ⟨a.1, a.2, b.2, haname, hroot ▸ hbname, haroot⟩
      · rintro ⟨root, rest, rest', hold, hnew, hroot⟩
        -- A text is cut at its first dot in one way only.
        rw [Text.splitFirst_eq_some_iff.mpr ⟨hold, hroot⟩, Option.some.injEq] at ha
        rw [Text.splitFirst_eq_some_iff.mpr ⟨hnew, hroot⟩, Option.some.injEq] at hb
        rw [← ha, ← hb, if_pos rfl]
    · rename_i hnone
      refine ⟨nofun, ?_⟩
      rintro ⟨root, rest, rest', hold, hnew, hroot⟩
      exact absurd (Text.splitFirst_eq_some_iff.mpr ⟨hnew, hroot⟩)
        (hnone _ _ (Text.splitFirst_eq_some_iff.mpr ⟨hold, hroot⟩))

/-- The name changed in the same way when the versions are swapped. -/
theorem callerChange?_comm (old new : CallSite) :
    callerChange? new old = callerChange? old new := by
  unfold callerChange?
  by_cases hname : old.name = new.name
  · rw [if_pos hname, if_pos hname.symm]
  · rw [if_neg hname, if_neg (Ne.symm hname)]
    -- The level is said to change only if both names have a dot, and then the roots are compared.
    cases Text.splitFirst '.' old.name.toList with
    | none => cases Text.splitFirst '.' new.name.toList <;> rfl
    | some a =>
      cases Text.splitFirst '.' new.name.toList with
      | none => rfl
      | some b => simp only [eq_comm (a := a.1)]

end

/-! ## Facets one by one -/

/-- What the operands of a facet are compared by: literals and variables as they are, nested calls
    by their canonical texts. -/
def Argument.part (a : Argument) : Facet → List String
  | .text => a.texts
  | .var => a.vars
  | .call => a.calls.map fun call => Text.canonicalText call.source

/-- An argument has a facet if there is an operand of it. -/
private theorem Argument.has_facets (a : Argument) (f : Facet) :
    a.facets.has f = !(a.part f).isEmpty := by
  cases f with
  | text => rfl
  | var => rfl
  | call => exact congrArg (!·) List.isEmpty_map.symm

namespace Slot

/-- What a slot has of a facet. -/
def part (s : Slot) : Facet → List String
  | .text => s.texts
  | .var => s.vars
  | .call => s.calls

@[simp] theorem part_empty (f : Facet) : empty.part f = [] := by cases f <;> rfl

@[simp] theorem part_ofArgument (a : Argument) (f : Facet) : (ofArgument a).part f = a.part f := by
  cases f <;> rfl

/-- Slots differ in a facet if they do not have the same of it. -/
private theorem has_difference (a b : Slot) (f : Facet) :
    (a.difference b).has f = (a.part f != b.part f) := by
  cases f <;> rfl

theorem difference_comm (a b : Slot) : a.difference b = b.difference a := by
  apply Facets.eq_of_has_eq
  intro f
  rw [has_difference, has_difference, bne_comm]

end Slot

/-! ## Positions -/

namespace CallSite

/-- The number of positions of a call that are compared. A call without arguments has one, which is
    empty. -/
def slotCount (site : CallSite) : Nat := max 1 site.arguments.length

/-- What a call has of a facet at a position. There is nothing where it has no argument. -/
def partAt (site : CallSite) (f : Facet) (i : Nat) : List String :=
  (site.arguments[i]?.map (·.part f)).getD []

/-- A call has as many slots as positions that are compared. -/
@[simp] theorem length_slots (site : CallSite) : site.slots.length = site.slotCount := by
  rw [slots, slotCount]
  cases site.arguments with
  | nil => rfl
  | cons a as => simp

/-- What a slot has of a facet is what the call has of it at the position. -/
private theorem part_slots (site : CallSite) (f : Facet) (i : Nat) :
    (site.slots[i]?.map (·.part f)).getD [] = site.partAt f i := by
  rw [slots, partAt]
  cases site.arguments with
  | nil => cases i <;> simp
  | cons a as =>
    have hslot : (Slot.part · f) ∘ Slot.ofArgument = (Argument.part · f) :=
      funext fun b => Slot.part_ofArgument b f
    rw [List.isEmpty_cons, if_neg Bool.false_ne_true, List.getElem?_map, Option.map_map, hslot]

/-- A call has a facet if it has an operand of it at some position. -/
private theorem has_facets_iff {site : CallSite} {f : Facet} :
    site.facets.has f = true ↔ ∃ i, site.partAt f i ≠ [] := by
  rw [facets, Facets.has_unions, List.any_map, List.any_eq_true]
  constructor
  · rintro ⟨a, ha, hhas⟩
    obtain ⟨i, hi⟩ := List.mem_iff_getElem?.mp ha
    refine ⟨i, ?_⟩
    rw [partAt, hi]
    simpa [Argument.has_facets] using hhas
  · -- Where there is something, there is an argument.
    rintro ⟨i, hi⟩
    cases ha : site.arguments[i]? with
    | none => simp [partAt, ha] at hi
    | some a =>
      refine ⟨a, List.mem_of_getElem? ha, ?_⟩
      simpa [partAt, ha, Argument.has_facets] using hi

/-- The facets in which two calls differ at some position. -/
def difference (old new : CallSite) : Facets :=
  Facets.unions (List.zipWith Slot.difference old.slots new.slots)

theorem difference_comm (old new : CallSite) : old.difference new = new.difference old := by
  rw [difference, difference, List.zipWith_comm_of_comm Slot.difference_comm]

/-- Calls with as many positions differ in a facet if they do at some position. -/
theorem has_difference_iff {old new : CallSite} (h : old.slotCount = new.slotCount) {f : Facet} :
    (old.difference new).has f = true ↔ ∃ i, old.partAt f i ≠ new.partAt f i := by
  simp only [difference, Facets.has_unions, List.any_eq_true, List.mem_iff_getElem?,
    List.getElem?_zipWith_eq_some, ← part_slots]
  rw [← length_slots, ← length_slots] at h
  constructor
  · rintro ⟨_, ⟨i, a, b, ha, hb, rfl⟩, hhas⟩
    refine ⟨i, ?_⟩
    rw [ha, hb]
    simpa [Slot.has_difference] using hhas
  · rintro ⟨i, hi⟩
    -- Behind the last position neither call has anything.
    have hlt : i < old.slots.length := by
      by_contra hge
      rw [List.getElem?_eq_none (by omega), List.getElem?_eq_none (by omega)] at hi
      exact hi rfl
    have hlt' : i < new.slots.length := h ▸ hlt
    rw [List.getElem?_eq_getElem hlt, List.getElem?_eq_getElem hlt'] at hi
    refine ⟨_, ⟨i, _, _, List.getElem?_eq_getElem hlt, List.getElem?_eq_getElem hlt', rfl⟩, ?_⟩
    rw [Slot.has_difference, bne_iff_ne]
    exact hi

end CallSite

/-! ## Changes of arguments -/

namespace ArgumentChange

/-- The change with the versions swapped. -/
def reversed : ArgumentChange → ArgumentChange
  | added => deleted
  | deleted => added
  | content changed => content changed

end ArgumentChange

section

variable {old new : CallSite}

private theorem argumentChange?_of_lt (h : old.slotCount < new.slotCount) :
    argumentChange? old new = some .added := by
  rw [argumentChange?, CallSite.length_slots, CallSite.length_slots, if_neg (by omega), if_pos h]

private theorem argumentChange?_of_gt (h : new.slotCount < old.slotCount) :
    argumentChange? old new = some .deleted := by
  rw [argumentChange?, CallSite.length_slots, CallSite.length_slots, if_pos h]

/-- With as many positions as before, the facets that differ are reported, if there are any. -/
private theorem argumentChange?_of_eq (h : old.slotCount = new.slotCount) :
    argumentChange? old new = (SomeFacets.of? (old.difference new)).map .content := by
  rw [argumentChange?, CallSite.length_slots, CallSite.length_slots, if_neg (by omega),
    if_neg (by omega)]
  rfl

/-- Arguments are said to be added exactly if there are more positions than before. -/
theorem argumentChange?_eq_added_iff :
    argumentChange? old new = some .added ↔ old.slotCount < new.slotCount := by
  refine ⟨fun h => ?_, argumentChange?_of_lt⟩
  -- With as many positions or fewer, something else is reported.
  rcases Nat.lt_trichotomy old.slotCount new.slotCount with hlt | heq | hgt
  · exact hlt
  · rw [argumentChange?_of_eq heq, Option.map_eq_some_iff] at h
    obtain ⟨_, -, hadded⟩ := h
    exact nomatch hadded
  · rw [argumentChange?_of_gt hgt] at h
    exact nomatch h

/-- The arguments changed in the same way when the versions are swapped, but for their number. -/
theorem argumentChange?_reversed (old new : CallSite) :
    argumentChange? new old = (argumentChange? old new).map .reversed := by
  -- Swapping the versions swaps the first and the last case, and leaves the middle one.
  rcases Nat.lt_trichotomy old.slotCount new.slotCount with hlt | heq | hgt
  · rw [argumentChange?_of_lt hlt, argumentChange?_of_gt hlt]
    rfl
  · rw [argumentChange?_of_eq heq, argumentChange?_of_eq heq.symm, CallSite.difference_comm,
      Option.map_map]
    rfl
  · rw [argumentChange?_of_gt hgt, argumentChange?_of_lt hgt]
    rfl

/-- They are said to be deleted exactly if there are fewer. -/
theorem argumentChange?_eq_deleted_iff :
    argumentChange? old new = some .deleted ↔ new.slotCount < old.slotCount := by
  rw [← argumentChange?_eq_added_iff, argumentChange?_reversed]
  cases h : argumentChange? new old with
  | none => simp
  | some change => cases change <;> simp [ArgumentChange.reversed]

/-- Whether an update is said to change its arguments in a facet. -/
def HasChanged (f : Facet) (old new : CallSite) : Prop :=
  ∃ changed, argumentChange? old new = some (.content changed) ∧ changed.facets.has f = true

/-- A facet is said to change exactly if it differs at some position. -/
theorem hasChanged_iff (h : old.slotCount = new.slotCount) {f : Facet} :
    HasChanged f old new ↔ ∃ i, old.partAt f i ≠ new.partAt f i := by
  rw [HasChanged, ← CallSite.has_difference_iff h, argumentChange?_of_eq h]
  simp only [Option.map_eq_some_iff, ArgumentChange.content.injEq, exists_eq_right,
    SomeFacets.of?_eq_some_iff]
  constructor
  · rintro ⟨changed, hchanged, hhas⟩
    rwa [← hchanged]
  · intro hhas
    -- A set with a member is not empty, so the change is reported.
    have hne : old.difference new ≠ Facets.none := by
      intro hnone
      rw [Facets.eq_none_iff.mp hnone f] at hhas
      exact nomatch hhas
    exact ⟨⟨old.difference new, hne⟩, rfl, hhas⟩

/-- The label of a change names the facets that differ at some position, in their order. -/
private theorem exists_members_of_label (h : old.slotCount = new.slotCount) {label : String}
    (hlabel : (argumentChange? old new).map (·.label) = some label) :
    ∃ fs : List Facet, fs.Sublist Facet.all ∧
      (∀ f, f ∈ fs ↔ ∃ i, old.partAt f i ≠ new.partAt f i) ∧
      label = "_".intercalate ("UPDATED" :: fs.map Facet.name) := by
  rw [argumentChange?_of_eq h, Option.map_map, Option.map_eq_some_iff] at hlabel
  obtain ⟨changed, hchanged, rfl⟩ := hlabel
  rw [SomeFacets.of?_eq_some_iff] at hchanged
  refine ⟨changed.facets.members, List.filter_sublist, fun f => ?_, changed.labels_eq.1⟩
  rw [Facets.mem_members, hchanged, CallSite.has_difference_iff h]

/-- Nothing is reported exactly if nothing differs. -/
theorem argumentChange?_eq_none_iff (h : old.slotCount = new.slotCount) :
    argumentChange? old new = none ↔ ∀ f i, old.partAt f i = new.partAt f i := by
  rw [argumentChange?_of_eq h, Option.map_eq_none_iff, SomeFacets.of?_eq_none_iff,
    Facets.eq_none_iff]
  simp only [← Bool.not_eq_true, CallSite.has_difference_iff h, not_exists, not_not]

end

/-! ## What is reported -/

/-- The labels of changes tell them apart. -/
theorem ArgumentChange.label_injective : Function.Injective label := by
  have hcontent : ∀ a b c a' b' c' : Bool,
      "_".intercalate ("UPDATED" :: (Facets.mk a b c).names) =
        "_".intercalate ("UPDATED" :: (Facets.mk a' b' c').names) →
      Facets.mk a b c = Facets.mk a' b' c' := by decide +kernel
  have hnumber : ∀ a b c : Bool,
      "_".intercalate ("UPDATED" :: (Facets.mk a b c).names) ≠ "ARGUMENT_ADDED" ∧
      "_".intercalate ("UPDATED" :: (Facets.mk a b c).names) ≠ "ARGUMENT_DELETED" := by
    decide +kernel
  -- Either both changes are of the number of arguments, or both of what is in them.
  rintro (_ | _ | ⟨⟨a, b, c⟩, hs⟩) (_ | _ | ⟨⟨a', b', c'⟩, ht⟩) h
  · rfl
  · exact absurd h (by decide)
  · exact absurd h.symm (hnumber a' b' c').1
  · exact absurd h (by decide)
  · rfl
  · exact absurd h.symm (hnumber a' b' c').2
  · exact absurd h (hnumber a b c).1
  · exact absurd h (hnumber a b c).2
  · simp only [hcontent a b c a' b' c' h]

/-- So do those of changes of the name. -/
theorem CallerChange.label_injective : Function.Injective label := by
  intro a b
  cases a <;> cases b <;> decide

/-- An update is classified exactly. A change of the name is reported if and only if the names
    differ, one of the verbosity if and only if they also have a dot and agree before the first one.
    Arguments are added or deleted if and only if the calls differ in the number of positions. If
    they do not, the facets that are said to change are those in which the calls differ at some
    position, the label of the change names just these facets in their order, and nothing is
    reported if and only if no position differs in a facet. With the versions swapped the same is
    reported, but for added arguments, which are deleted then, and deleted ones, which are added. -/
theorem update_classification_is_exact (old new : CallSite) :
    (callerChange? old new = none ↔ old.name = new.name) ∧
    ((callerChange? old new).map (·.label) = some "UPDATED_VERBOSITY" ↔
      old.name ≠ new.name ∧ AgreeToFirstDot old.name new.name) ∧
    callerChange? new old = callerChange? old new ∧
    ((argumentChange? old new).map (·.label) = some "ARGUMENT_ADDED" ↔
      old.slotCount < new.slotCount) ∧
    ((argumentChange? old new).map (·.label) = some "ARGUMENT_DELETED" ↔
      new.slotCount < old.slotCount) ∧
    argumentChange? new old = (argumentChange? old new).map .reversed ∧
    (old.slotCount = new.slotCount →
      (∀ f, HasChanged f old new ↔ ∃ i, old.partAt f i ≠ new.partAt f i) ∧
      (∀ label, (argumentChange? old new).map (·.label) = some label →
        ∃ fs : List Facet, fs.Sublist Facet.all ∧
          (∀ f, f ∈ fs ↔ ∃ i, old.partAt f i ≠ new.partAt f i) ∧
          label = "_".intercalate ("UPDATED" :: fs.map Facet.name)) ∧
      argumentChange? new old = argumentChange? old new ∧
      (argumentChange? old new = none ↔ ∀ f i, old.partAt f i = new.partAt f i)) := by
  -- Labels tell changes apart, so each label stands for its change.
  have hcaller {x : Option CallerChange} {c : CallerChange} :
      x.map (·.label) = some c.label ↔ x = some c :=
    (Option.map_injective CallerChange.label_injective).eq_iff (b := some c)
  have hargument {x : Option ArgumentChange} {c : ArgumentChange} :
      x.map (·.label) = some c.label ↔ x = some c :=
    (Option.map_injective ArgumentChange.label_injective).eq_iff (b := some c)
  refine ⟨callerChange?_eq_none_iff, hcaller.trans callerChange?_eq_verbosity_iff,
    callerChange?_comm old new, hargument.trans argumentChange?_eq_added_iff,
    hargument.trans argumentChange?_eq_deleted_iff, argumentChange?_reversed old new, fun h => ?_⟩
  refine ⟨fun f => hasChanged_iff h, fun label => exists_members_of_label h, ?_,
    argumentChange?_eq_none_iff h⟩
  rw [argumentChange?_of_eq h, argumentChange?_of_eq h.symm, CallSite.difference_comm]

/-- A call without arguments. -/
def siteOfNothing : CallSite := ⟨"Log.d", "d", "Log.d()", "Log.d()", []⟩

/-- A call with one argument, made of a literal and a variable. -/
def siteOfCount : CallSite :=
  ⟨"Log.i", "i", "Log.i(\"n\"+n)", "Log.i(\"n\" + n)", [⟨"\"n\" + n", [.text "\"n\"", .var "n"]⟩]⟩

/-- The only position of the call without arguments differs from the argument of the other. -/
theorem update_classification_is_exact_of_first_argument :
    siteOfNothing.slotCount = siteOfCount.slotCount ∧
      (callerChange? siteOfNothing siteOfCount).map (·.label) = some "UPDATED_VERBOSITY" ∧
      HasChanged .text siteOfNothing siteOfCount ∧ HasChanged .var siteOfNothing siteOfCount ∧
      argumentChange? siteOfCount siteOfNothing = argumentChange? siteOfNothing siteOfCount := by
  obtain ⟨-, hverbosity, -, -, -, -, hequal⟩ :=
    update_classification_is_exact siteOfNothing siteOfCount
  obtain ⟨hchanged, -, hswapped, -⟩ := hequal (by decide)
  refine ⟨by decide, hverbosity.mpr ⟨by decide, ?_⟩, (hchanged .text).mpr ⟨0, by decide⟩,
    (hchanged .var).mpr ⟨0, by decide⟩, hswapped⟩
  exact ⟨"Log".toList, ['d'], ['i'], by decide +kernel, by decide +kernel, by decide +kernel⟩

section

variable {old new : CallSite}

/-- A facet that only one of two calls has is said to change. -/
theorem hasChanged_of_facets_ne (h : old.slotCount = new.slotCount) {f : Facet}
    (hne : old.facets.has f ≠ new.facets.has f) : HasChanged f old new := by
  rw [hasChanged_iff h]
  by_contra hsame
  simp only [not_exists, not_not] at hsame
  -- The facet as a whole is known from the positions, where the calls agree.
  apply hne
  rw [Bool.eq_iff_iff, CallSite.has_facets_iff, CallSite.has_facets_iff]
  simp only [hsame]

/-- If nothing is said to change, the shape is the same. -/
private theorem shape?_eq_of_argumentChange?_eq_none (h : argumentChange? old new = none) :
    old.shape? = new.shape? := by
  have hcount : old.slotCount = new.slotCount := by
    rcases Nat.lt_trichotomy old.slotCount new.slotCount with hlt | heq | hgt
    · exact nomatch h.symm.trans (argumentChange?_of_lt hlt)
    · exact heq
    · exact nomatch h.symm.trans (argumentChange?_of_gt hgt)
  -- The calls have the same facets, as one that only one of them had would be reported.
  have hfacets : old.facets = new.facets := by
    apply Facets.eq_of_has_eq
    intro f
    by_contra hne
    obtain ⟨changed, hchanged, -⟩ := hasChanged_of_facets_ne hcount hne
    exact nomatch h.symm.trans hchanged
  rw [CallSite.shape?, CallSite.shape?, hfacets]

end

/-- Whether an operand of an argument is a variable. -/
def CallSite.LogsVariables (site : CallSite) : Prop := ∃ a ∈ site.arguments, a.vars ≠ []

/-- A call logs variables exactly if it has the facet. -/
private theorem CallSite.logsVariables_iff {site : CallSite} :
    site.LogsVariables ↔ site.facets.has .var = true := by
  rw [facets, Facets.has_unions, List.any_map, List.any_eq_true]
  simp [LogsVariables, Argument.has_facets, Argument.part]

/-- What a call is made of and what an update is said to change do not contradict each other. Of two
    calls with as many positions, a facet that only one has is said to change. If nothing is said to
    change, the arguments have the same shape. If only one of the calls logs a variable, there is a
    verdict on the update as soon as there are added lines. -/
theorem facets_of_update_are_reported (old new : CallSite) :
    (old.slotCount = new.slotCount → ∀ f, old.facets.has f ≠ new.facets.has f →
      ∃ changed, argumentChange? old new = some (.content changed) ∧
        changed.facets.has f = true) ∧
    (argumentChange? old new = none → old.shape? = new.shape?) ∧
    (old.slotCount = new.slotCount → ¬ (old.LogsVariables ↔ new.LogsVariables) →
      ∀ lines, (isConsistent? new ((argumentChange? old new).bind (·.changed?))
        (some lines)).isSome = true) := by
  refine ⟨fun h f => hasChanged_of_facets_ne h, shape?_eq_of_argumentChange?_eq_none,
    fun h hvars lines => ?_⟩
  rw [CallSite.logsVariables_iff, CallSite.logsVariables_iff, ← Bool.eq_iff_iff] at hvars
  exact (isSome_isConsistent?_iff new _ _).mpr ⟨hasChanged_of_facets_ne h hvars, rfl⟩

/-- The call without arguments gains a literal and a variable, so there is a verdict. -/
theorem facets_of_update_are_reported_of_gained_variable :
    siteOfNothing.slotCount = siteOfCount.slotCount ∧
      siteOfNothing.facets.has .var ≠ siteOfCount.facets.has .var ∧
      (∃ changed, argumentChange? siteOfNothing siteOfCount = some (.content changed) ∧
        changed.facets.has .var = true) ∧
      (isConsistent? siteOfCount
        ((argumentChange? siteOfNothing siteOfCount).bind (·.changed?))
        (some ["int n = 1;".toList])).isSome = true := by
  obtain ⟨hreported, -, hverdict⟩ := facets_of_update_are_reported siteOfNothing siteOfCount
  have hvars : siteOfNothing.facets.has .var ≠ siteOfCount.facets.has .var := by decide
  refine ⟨by decide, hvars, hreported (by decide) .var hvars, hverdict (by decide) ?_ _⟩
  simp [CallSite.LogsVariables, siteOfNothing, siteOfCount, Argument.vars]

end LogDrift
