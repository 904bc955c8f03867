import Mathlib
import LogDrift.Proofs.MethodPaths
import LogDrift.Proofs.MethodReversal
import LogDrift.Sources

/-!
# The methods that a statement is a call of

A statement is a call of every method in whose body it lies (`owners`). The bodies of these methods
lie within each other, so there are two of them only if a method is declared in the body of another
one, by a class that is declared there. Methods of anonymous classes are no methods of a tree, and
lambdas are none.

A file that came or went as a whole has one record for every logging statement and every method that
it is a call of (`loggingPlaces`). These are as many as there are logging statements if and only if
none of the statements has two owners.

## Key results

- `owners_nested`: the bodies of the owners of a statement lie within each other
- `length_owners_le_one_iff`, `NoLocalClass.length_owners_le_one`: when a statement has no two
  owners
- `length_loggingPlaces`: every logging statement is counted once for every owner
- `recordsOfFile_methods`: the records of a file that came or went
-/

namespace LogDrift

/-- Numbers of at least one add up to their number if and only if each of them is one. -/
private theorem sum_map_eq_length_iff {α : Type} {f : α → Nat} {as : List α}
    (h : ∀ a ∈ as, 1 ≤ f a) :
    (as.map f).sum = as.length ↔ ∀ a ∈ as, f a ≤ 1 := by
  induction as with
  | nil => simp
  | cons a as ih =>
    obtain ⟨ha, hmore⟩ := List.forall_mem_cons.mp h
    -- The others add up to their number at least, so neither they nor the first one can be more.
    have hle : (as.map f).length ≤ (as.map f).sum :=
      List.length_le_sum_of_one_le _ (by simpa using hmore)
    have htail := ih hmore
    rw [List.map_cons, List.sum_cons, List.length_cons, List.forall_mem_cons, ← htail]
    rw [List.length_map] at hle
    omega

/-- Whether a call writes to a log. -/
def Call.logs (call : Call) : Bool := isLogging call.name (!call.arguments.isEmpty)

namespace Java.Tree

/-! ## Owners -/

/-- The paths of the methods that the statement at a path is a call of, in the order of the text. -/
def owners (t : Tree) (q : List Nat) : List (List Nat) :=
  t.methodPaths.filter fun p => t.holdsCall p q

/-- Whether the body of the method at one path holds that of the method at another one, outside
    comments. -/
def bodyWithin (t : Tree) (p p' : List Nat) : Bool :=
  (t.bodyPath? p).any fun a => (t.bodyPath? p').any fun b => t.within a b

/-- The owners of a statement are the methods of the tree that have it among their calls. -/
theorem mem_owners {t : Tree} {p q : List Nat} :
    p ∈ t.owners q ↔ p ∈ t.methodPaths ∧ q ∈ t.callPaths p := by
  rw [owners, List.mem_filter, mem_callPaths]

/-- The one body lies within the other if both methods have one and the one path is within the
    other. -/
theorem bodyWithin_iff {t : Tree} {p p' : List Nat} :
    t.bodyWithin p p' = true ↔
      ∃ a b, t.bodyPath? p = some a ∧ t.bodyPath? p' = some b ∧ t.within a b = true := by
  simp only [bodyWithin, Option.any_eq_true]
  constructor
  · rintro ⟨a, ha, b, hb, hwithin⟩
    exact ⟨a, b, ha, hb, hwithin⟩
  · rintro ⟨a, b, ha, hb, hwithin⟩
    exact ⟨a, ha, b, hb, hwithin⟩

/-- Two declarations have different bodies. -/
private theorem bodyPath?_inj {t : Tree} {p p' a : List Nat} (hp : t.bodyPath? p = some a)
    (hp' : t.bodyPath? p' = some a) : p = p' := by
  obtain ⟨i, -, rfl⟩ := Option.map_eq_some_iff.mp hp
  obtain ⟨j, -, hsame⟩ := Option.map_eq_some_iff.mp hp'
  exact (List.append_inj_left' hsame rfl).symm

/-- No body lies within itself. -/
private theorem bodyWithin_irrefl (t : Tree) (p : List Nat) : ¬ t.bodyWithin p p = true := by
  rw [bodyWithin_iff]
  rintro ⟨a, b, ha, hb, hwithin⟩
  obtain rfl := Option.some.inj (ha.symm.trans hb)
  obtain ⟨s, r, -, happend, hr, -⟩ := within_iff.mp hwithin
  -- From a path to itself there is nothing to go.
  exact hr (List.self_eq_append_right.mp happend)

/-- What is a call of a method is one of every method around it. -/
private theorem holdsCall_of_bodyWithin {t : Tree} {p p' q : List Nat}
    (h : t.bodyWithin p p' = true) (hq : t.holdsCall p' q = true) : t.holdsCall p q = true := by
  obtain ⟨a, b, ha, hb, hwithin⟩ := bodyWithin_iff.mp h
  obtain ⟨hcall, b', hb', hwithin'⟩ := holdsCall_iff.mp hq
  -- The inner method has one body only.
  obtain rfl := Option.some.inj (hb.symm.trans hb')
  exact holdsCall_iff.mpr ⟨hcall, a, ha, within_trans hwithin hwithin'⟩

/-- The bodies of the owners of a statement lie within each other. -/
theorem owners_nested {t : Tree} {p p' q : List Nat} (hp : p ∈ t.owners q)
    (hp' : p' ∈ t.owners q) :
    p = p' ∨ t.bodyWithin p p' = true ∨ t.bodyWithin p' p = true := by
  obtain ⟨-, a, ha, hwithin⟩ := holdsCall_iff.mp (List.mem_filter.mp hp).2
  obtain ⟨-, b, hb, hwithin'⟩ := holdsCall_iff.mp (List.mem_filter.mp hp').2
  rcases within_total hwithin hwithin' with rfl | hab | hba
  · exact .inl (bodyPath?_inj ha hb)
  · exact .inr (.inl (bodyWithin_iff.mpr ⟨a, b, ha, hb, hab⟩))
  · exact .inr (.inr (bodyWithin_iff.mpr ⟨b, a, hb, ha, hba⟩))

/-- A statement has no two owners if and only if none of its owners is declared in the body of
    another method. -/
theorem length_owners_le_one_iff (t : Tree) (q : List Nat) :
    (t.owners q).length ≤ 1 ↔
      ∀ p ∈ t.methodPaths, ∀ p' ∈ t.owners q, ¬ t.bodyWithin p p' = true := by
  have hnodup : (t.owners q).Nodup := t.nodup_methodPaths.filter _
  -- As no owner is listed twice, having at most one of them is that any two of them are the same.
  rw [← List.toFinset_card_of_nodup hnodup, Finset.card_le_one]
  simp only [List.mem_toFinset]
  constructor
  · intro hall p hp p' hp' hwithin
    have hmem : p ∈ t.owners q :=
      List.mem_filter.mpr ⟨hp, holdsCall_of_bodyWithin hwithin (List.mem_filter.mp hp').2⟩
    obtain rfl := hall p hmem p' hp'
    exact bodyWithin_irrefl t p hwithin
  · intro hnone p hp p' hp'
    rcases owners_nested hp hp' with hsame | hwithin | hwithin
    · exact hsame
    · exact absurd hwithin (hnone p (mem_owners.mp hp).1 p' hp')
    · exact absurd hwithin (hnone p' (mem_owners.mp hp').1 p hp)

/-- No class is declared in the body of a method. -/
def NoLocalClass (t : Tree) : Prop :=
  ∀ p ∈ t.methodPaths, ∀ a ∈ t.bodyPath? p, ∀ q ∈ t.paths, a <+: q →
    t.kindAt? q ≠ some .classDeclaration

instance (t : Tree) : Decidable t.NoLocalClass :=
  inferInstanceAs (Decidable (∀ p ∈ t.methodPaths, ∀ a ∈ t.bodyPath? p, ∀ q ∈ t.paths, a <+: q →
    t.kindAt? q ≠ some .classDeclaration))

/-- A declaration whose body lies within another body lies below it. -/
theorem exists_of_bodyWithin {t : Tree} {p p' : List Nat} (h : t.bodyWithin p p' = true) :
    ∃ i r, t.bodyPath? p = some (p ++ [i]) ∧ p' = p ++ [i] ++ r := by
  obtain ⟨a, b, ha, hb, hab⟩ := bodyWithin_iff.mp h
  obtain ⟨i, -, rfl⟩ := Option.map_eq_some_iff.mp ha
  obtain ⟨j, -, rfl⟩ := Option.map_eq_some_iff.mp hb
  obtain ⟨s, r, -, hpath, hr, -⟩ := within_iff.mp hab
  obtain rfl | ⟨r, k, rfl⟩ := r.eq_nil_or_concat'
  · exact absurd rfl hr
  · rw [← List.append_assoc] at hpath
    exact ⟨i, r, ha, List.append_inj_left' hpath rfl⟩

/-- Without classes in the bodies of methods no statement has two owners, whatever lambdas and
    anonymous classes there are. -/
theorem NoLocalClass.length_owners_le_one {t : Tree} (h : t.NoLocalClass) (q : List Nat) :
    (t.owners q).length ≤ 1 := by
  rw [length_owners_le_one_iff]
  intro p hp p' hp' hwithin
  obtain ⟨m, hm⟩ := Option.isSome_iff_exists.mp (mem_methodPaths.mp hp)
  obtain ⟨m', hm'⟩ := Option.isSome_iff_exists.mp (mem_methodPaths.mp (mem_owners.mp hp').1)
  obtain ⟨⟨-, -, hdecl⟩, -⟩ := methodAt?_eq_some_iff.mp hm
  obtain ⟨⟨hclass', hbody', -⟩, -⟩ := methodAt?_eq_some_iff.mp hm'
  obtain ⟨i, r, ha, rfl⟩ := exists_of_bodyWithin hwithin
  -- The class of the inner method stands two levels above it. That is in the outer body: directly
  -- above this body there is a method, and no class and no class body.
  obtain rfl | ⟨r, k, rfl⟩ := r.eq_nil_or_concat'
  · rw [List.append_nil, List.dropLast_concat] at hbody'
    exact nomatch hdecl.symm.trans hbody'
  rw [← List.append_assoc, List.dropLast_concat] at hclass'
  obtain rfl | ⟨r, l, rfl⟩ := r.eq_nil_or_concat'
  · rw [List.append_nil, List.dropLast_concat] at hclass'
    exact nomatch hdecl.symm.trans hclass'
  rw [← List.append_assoc, List.dropLast_concat] at hclass'
  exact h p hp _ ha _ (mem_paths_of_kindAt? hclass') (List.prefix_append _ r) hclass'

/-! ## Logging statements -/

/-- Whether the statement at a path writes to a log. -/
def logsAt (t : Tree) (q : List Nat) : Bool := (t.callAt? q).any Call.logs

/-- The paths of the statements of methods that write to a log, in the order of the text. -/
def loggingStatements (t : Tree) : List (List Nat) :=
  t.paths.filter fun q => t.logsAt q && !(t.owners q).isEmpty

/-- The paths of the calls of the method at a path that write to a log. -/
def loggingPaths (t : Tree) (p : List Nat) : List (List Nat) := (t.callPaths p).filter t.logsAt

/-- A method and one of its statements that write to a log, both by their paths: method by method,
    in the order of the text. -/
def loggingPlaces (t : Tree) : List (List Nat × List Nat) :=
  t.methodPaths.flatMap fun p => (t.loggingPaths p).map fun q => (p, q)

theorem logsAt_iff {t : Tree} {q : List Nat} :
    t.logsAt q = true ↔ ∃ call, t.callAt? q = some call ∧ call.logs = true := by
  rw [logsAt, Option.any_eq_true]

/-- The logging statements are those that write to a log and have an owner. -/
theorem mem_loggingStatements {t : Tree} {q : List Nat} :
    q ∈ t.loggingStatements ↔ t.logsAt q = true ∧ t.owners q ≠ [] := by
  rw [loggingStatements, List.mem_filter, Bool.and_eq_true, Bool.not_eq_true',
    List.isEmpty_eq_false_iff, and_iff_right_iff_imp]
  rintro ⟨hlogs, -⟩
  obtain ⟨call, hcall, -⟩ := logsAt_iff.mp hlogs
  exact mem_paths_of_callAt? (Option.isSome_of_eq_some hcall)

/-- A method and a statement are listed together if the method owns the statement and this writes to
    a log. -/
theorem mem_loggingPlaces {t : Tree} {p q : List Nat} :
    (p, q) ∈ t.loggingPlaces ↔ p ∈ t.owners q ∧ t.logsAt q = true := by
  rw [loggingPlaces, List.mem_flatMap, mem_owners]
  constructor
  · rintro ⟨p', hp', hq⟩
    obtain ⟨q', hq', hsame⟩ := List.mem_map.mp hq
    obtain ⟨rfl, rfl⟩ := Prod.mk.inj hsame
    obtain ⟨hcall, hlogs⟩ := List.mem_filter.mp hq'
    exact ⟨⟨hp', hcall⟩, hlogs⟩
  · rintro ⟨⟨hp, hcall⟩, hlogs⟩
    exact ⟨p, hp, List.mem_map_of_mem (List.mem_filter.mpr ⟨hcall, hlogs⟩)⟩

private theorem nodup_loggingStatements (t : Tree) : t.loggingStatements.Nodup :=
  t.nodup_paths.filter _

private theorem nodup_loggingPaths (t : Tree) (p : List Nat) : (t.loggingPaths p).Nodup :=
  (t.nodup_callPaths p).filter _

/-- The statements of all places are those of each method, method by method. -/
private theorem map_snd_loggingPlaces (t : Tree) :
    t.loggingPlaces.map (·.2) = t.methodPaths.flatMap t.loggingPaths := by
  rw [loggingPlaces, List.map_flatMap]
  apply List.flatMap_congr
  intro p _
  rw [List.map_map]
  exact List.map_id _

/-- A logging statement is counted once for every owner. -/
private theorem count_map_snd_loggingPlaces {t : Tree} {q : List Nat} (h : t.logsAt q = true) :
    (t.loggingPlaces.map (·.2)).count q = (t.owners q).length := by
  have hcount : ∀ p, (t.loggingPaths p).count q = if t.holdsCall p q then 1 else 0 := by
    intro p
    rw [(t.nodup_loggingPaths p).count, loggingPaths]
    simp only [List.mem_filter, mem_callPaths, h, and_true]
  -- Counting them over all methods counts the methods that own the statement.
  rw [map_snd_loggingPlaces, List.count_flatMap, owners]
  simp only [Function.comp_def, hcount, List.sum_map_ite]
  simp

/-- The statements of all places are the logging statements. -/
private theorem mem_map_snd_loggingPlaces {t : Tree} {q : List Nat} :
    q ∈ t.loggingPlaces.map (·.2) ↔ q ∈ t.loggingStatements := by
  rw [List.mem_map, mem_loggingStatements]
  constructor
  · rintro ⟨⟨p, q'⟩, hplace, rfl⟩
    obtain ⟨howner, hlogs⟩ := mem_loggingPlaces.mp hplace
    exact ⟨hlogs, List.ne_nil_of_mem howner⟩
  · rintro ⟨hlogs, howners⟩
    obtain ⟨p, hp⟩ := List.exists_mem_of_ne_nil _ howners
    exact ⟨(p, q), mem_loggingPlaces.mpr ⟨hp, hlogs⟩, rfl⟩

/-- There are as many places as logging statements, each counted once for every owner. -/
theorem length_loggingPlaces (t : Tree) :
    t.loggingPlaces.length = (t.loggingStatements.map fun q => (t.owners q).length).sum := by
  have hperm : (t.loggingPlaces.map (·.2)).dedup.Perm t.loggingStatements := by
    rw [List.perm_ext_iff_of_nodup (List.nodup_dedup _) t.nodup_loggingStatements]
    intro q
    rw [List.mem_dedup, mem_map_snd_loggingPlaces]
  -- The statements of all places are counted statement by statement.
  rw [← List.length_map (·.2), ← List.sum_map_count_dedup_eq_length, (hperm.map _).sum_eq]
  congr 1
  apply List.map_congr_left
  intro q hq
  convert count_map_snd_loggingPlaces (mem_loggingStatements.mp hq).1

/-- There are as many places as logging statements if and only if no such statement has two
    owners. -/
theorem length_loggingPlaces_eq_iff (t : Tree) :
    t.loggingPlaces.length = t.loggingStatements.length ↔
      ∀ q ∈ t.loggingStatements, (t.owners q).length ≤ 1 := by
  have hpos : ∀ q ∈ t.loggingStatements, 1 ≤ (t.owners q).length := fun q hq =>
    List.length_pos_iff.mpr (mem_loggingStatements.mp hq).2
  rw [length_loggingPlaces, sum_map_eq_length_iff hpos]

/-! ## Reports -/

/-- The record of a statement of a method that came or went, both by their paths. -/
def recordAt? (t : Tree) (path : String) (kind : ChangeKind) (place : List Nat × List Nat) :
    Option ChangeRecord :=
  (t.methodAt? place.1).bind fun m =>
    (t.callAt? place.2).map fun call => .ofSite path m.fullSignature kind (.ofCall call)

/-- At every place there is a record. -/
private theorem isSome_recordAt? {t : Tree} {path : String} {kind : ChangeKind}
    {place : List Nat × List Nat} (h : place ∈ t.loggingPlaces) :
    (t.recordAt? path kind place).isSome = true := by
  obtain ⟨howner, hlogs⟩ := mem_loggingPlaces.mp h
  obtain ⟨m, hm⟩ := Option.isSome_iff_exists.mp (mem_methodPaths.mp (mem_owners.mp howner).1)
  obtain ⟨call, hcall, -⟩ := logsAt_iff.mp hlogs
  rw [recordAt?, hm, hcall]
  rfl

/-- The records of a method that came or went are those of its logging calls. -/
private theorem recordsOfMethod_eq {t : Tree} {p : List Nat} {m : Method}
    (h : t.methodAt? p = some m) (path : String) (kind : ChangeKind) :
    recordsOfMethod path kind m =
      ((t.loggingPaths p).map fun q => (p, q)).filterMap (t.recordAt? path kind) := by
  -- The sites of a method are its calls that write to a log, and so are those at the logging paths.
  have hsites : m.callSites = ((t.loggingPaths p).filterMap t.callAt?).map CallSite.ofCall := by
    rw [Method.callSites, calls_eq h, List.filter_filterMap, loggingPaths, List.filterMap_filter]
    congr 1
    apply List.filterMap_congr
    intro q _
    rw [logsAt]
    cases t.callAt? q <;> rfl
  rw [recordsOfMethod, hsites, List.map_map, List.map_filterMap, List.filterMap_map]
  apply List.filterMap_congr
  intro q _
  rw [Function.comp_apply, recordAt?, h]
  rfl

/-- The records of a file that came or went are those of the logging statements of its methods. -/
theorem recordsOfFile_methods (t : Tree) (path : String) (kind : ChangeKind) :
    recordsOfFile kind ⟨path, t.methods⟩ = t.loggingPlaces.filterMap (t.recordAt? path kind) := by
  rw [recordsOfFile, methods_eq, loggingPlaces, List.filterMap_flatMap,
    List.filterMap_eq_flatMap_toList, List.flatMap_assoc]
  apply List.flatMap_congr
  intro p hp
  obtain ⟨m, hm⟩ := Option.isSome_iff_exists.mp (mem_methodPaths.mp hp)
  rw [hm, Option.toList_some, List.flatMap_singleton, recordsOfMethod_eq hm]

/-- The records of a file that came or went as a whole: one for every logging statement and every
    method that it is a call of. -/
structure Recorded (t : Tree) (path : String) (kind : ChangeKind) (records : List ChangeRecord) :
    Prop where
  map_some_eq : records.map some = t.loggingPlaces.map (t.recordAt? path kind)
  length_eq : records.length = (t.loggingStatements.map fun q => (t.owners q).length).sum
  length_eq_iff : records.length = t.loggingStatements.length ↔
    ∀ q ∈ t.loggingStatements, (t.owners q).length ≤ 1

/-- A file that came or went is recorded place by place, whatever its tree. -/
theorem recorded_recordsOfFile (t : Tree) (path : String) (kind : ChangeKind) :
    t.Recorded path kind (recordsOfFile kind ⟨path, t.methods⟩) := by
  have hmap : (recordsOfFile kind ⟨path, t.methods⟩).map some =
      t.loggingPlaces.map (t.recordAt? path kind) := by
    rw [recordsOfFile_methods, map_some_filterMap fun place hplace => isSome_recordAt? hplace]
  have hlength : (recordsOfFile kind ⟨path, t.methods⟩).length = t.loggingPlaces.length := by
    simpa using congrArg List.length hmap
  refine ⟨hmap, ?_, ?_⟩
  · rw [hlength, length_loggingPlaces]
  · rw [hlength, length_loggingPlaces_eq_iff]

end Java.Tree

/-- All records of a file that came or went are of its kind. -/
theorem kind_of_mem_recordsOfFile {kind : ChangeKind} {version : FileVersion} {r : ChangeRecord}
    (hr : r ∈ recordsOfFile kind version) : r.kind = kind := by
  obtain ⟨m, -, hm⟩ := List.mem_flatMap.mp hr
  exact kind_of_mem_recordsOfMethod hm

/-- A statement is counted once for every method around it. The methods of a tree are those that are
    declared at its paths, and the calls of a method are those of the statements within its body.
    The methods that a statement is a call of lie within each other, so there are no two of them as
    long as none of them is declared in the body of another method: never, if no class is declared
    in the body of a method. A file that came or went as a whole, whichever parser gave its text the
    tree, has one record for every logging statement and every method that it is a call of; these
    are as many as there are logging statements if and only if none of the statements is a call of
    two methods. -/
theorem statements_are_counted_by_owner (t : Java.Tree) :
    (t.methods.map some = t.methodPaths.map t.methodAt? ∧
      ∀ p m, t.methodAt? p = some m →
        p ∈ t.methodPaths ∧ m.calls.map some = (t.callPaths p).map t.callAt?) ∧
    (∀ q, ∀ p ∈ t.owners q, ∀ p' ∈ t.owners q,
      p = p' ∨ t.bodyWithin p p' = true ∨ t.bodyWithin p' p = true) ∧
    (∀ q, (t.owners q).length ≤ 1 ↔
      ∀ p ∈ t.methodPaths, ∀ p' ∈ t.owners q, ¬ t.bodyWithin p p' = true) ∧
    (t.NoLocalClass → ∀ q, (t.owners q).length ≤ 1) ∧
    ∀ (treeOf : String → Java.Tree) (s : Settings) (path source : String) (diff : Option String),
      treeOf source = t →
      (∃ report, Report.ofSourcesBy treeOf s ⟨path, none, some source, diff⟩ = .ok report ∧
        t.Recorded path .addedWithFile report.records ∧
        report.added = report.records.length ∧ report.deleted = 0) ∧
      ∃ report, Report.ofSourcesBy treeOf s ⟨path, some source, none, diff⟩ = .ok report ∧
        t.Recorded path .deletedWithFile report.records ∧
        report.deleted = report.records.length ∧ report.added = 0 := by
  refine ⟨⟨t.map_some_methods, fun p m hm => ⟨?_, Java.Tree.map_some_calls hm⟩⟩,
    fun q p hp p' hp' => Java.Tree.owners_nested hp hp', t.length_owners_le_one_iff,
    Java.Tree.NoLocalClass.length_owners_le_one, fun treeOf s path source diff htree => ?_⟩
  · exact Java.Tree.mem_methodPaths.mpr (Option.isSome_of_eq_some hm)
  · subst htree
    -- All records are of one kind, so they are all counted in one number.
    have hkind {kind : ChangeKind} {r : ChangeRecord}
        (hr : r ∈ recordsOfFile kind (FileVersion.ofTree path (treeOf source))) : r.kind = kind :=
      kind_of_mem_recordsOfFile hr
    refine ⟨⟨_, rfl, ?_, ?_, ?_⟩, ⟨_, rfl, ?_, ?_, ?_⟩⟩
    · exact (treeOf source).recorded_recordsOfFile path .addedWithFile
    · exact List.countP_eq_length.mpr fun r hr => by rw [hkind hr]; rfl
    · exact List.countP_eq_zero.mpr fun r hr => by rw [hkind hr]; decide
    · exact (treeOf source).recorded_recordsOfFile path .deletedWithFile
    · exact List.countP_eq_length.mpr fun r hr => by rw [hkind hr]; rfl
    · exact List.countP_eq_zero.mpr fun r hr => by rw [hkind hr]; decide

/-- A class with logging in a lambda, in an anonymous class and in a method of an inner class. -/
def sourceOfNestedCalls : String :=
  "class A \x7b void f() \x7b run(() -> \x7b Log.d(x); \x7d); " ++
    "new T() \x7b void h() \x7b Log.e(y); \x7d \x7d.go(); \x7d " ++
    "class B \x7b void g() \x7b Log.d(x); \x7d \x7d \x7d"

/-- Each of the three logging statements is counted once. -/
theorem statements_are_counted_by_owner_of_nested_calls :
    ∃ t report, Java.parse sourceOfNestedCalls = some t ∧ t.NoLocalClass ∧
      t.loggingStatements.length = 3 ∧
      Report.ofSources .standard ⟨"A.java", none, some sourceOfNestedCalls, none⟩ = .ok report ∧
      report.added = 3 := by
  have hparsed : ((Java.parse sourceOfNestedCalls).map fun t =>
      (decide t.NoLocalClass, t.loggingStatements.length)) = some (true, 3) := by decide +kernel
  obtain ⟨t, hparse, hfacts⟩ := Option.map_eq_some_iff.mp hparsed
  obtain ⟨hlocal, hlength⟩ := Prod.mk.inj hfacts
  have hnone : t.NoLocalClass := of_decide_eq_true hlocal
  obtain ⟨-, -, -, howners, hreports⟩ := statements_are_counted_by_owner t
  have htree : Java.treeOf sourceOfNestedCalls = t := by rw [Java.treeOf, hparse, Option.getD_some]
  obtain ⟨report, hreport, hrecorded, hadded, -⟩ :=
    (hreports Java.treeOf .standard "A.java" sourceOfNestedCalls none htree).1
  refine ⟨t, report, hparse, hnone, hlength, hreport, ?_⟩
  rw [hadded, hrecorded.length_eq_iff.mpr fun q _ => howners hnone q, hlength]

/-- A method with a class in its body, whose method logs. -/
def sourceOfLocalClass : String :=
  "class A \x7b void f() \x7b class B \x7b void g() \x7b Log.d(x); \x7d \x7d \x7d \x7d"

/-- The logging statement of a class in the body of a method is counted for either method. -/
theorem statement_of_local_class_is_counted_twice :
    ((Java.parse sourceOfLocalClass).map fun t =>
      t.loggingStatements.map fun q => (t.owners q).length) = some [2] ∧
    (Report.ofSources .standard ⟨"A.java", none, some sourceOfLocalClass, none⟩).toOption.map
      (fun report => (report.added, report.records.map (·.method))) = some (2, ["f()", "g()"]) := by
  exact ⟨by decide +kernel, by decide +kernel⟩

end LogDrift
