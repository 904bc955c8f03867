import Mathlib.Data.List.Perm.Basic
import LogDrift.Proofs.MethodMatching
import LogDrift.Report

/-!
# Methods that are set aside

The method matcher sets all methods aside whose text the other version has, however often either
version has it. So a text that both versions have is gone from both with all its copies, and the
numbers that are set aside agree only if both have it equally often. What a version has more of such
copies is in no part of the matching.

## Key results

- `count_source_unchanged`: how many copies of a text are set aside
- `length_onlyNew_sub_length_onlyOld`: what the leftovers of the two versions differ by
- `length_unchanged_of_balanced`: versions with equally many copies set equally many aside
-/

namespace LogDrift

open MethodMatching

namespace MethodMatching

/-- The texts that are set aside are the texts that the other version has, too. -/
theorem map_source_unchanged (methods other : List Method) :
    (unchanged methods other).map (·.source) =
      (methods.map (·.source)).filter (· ∈ other.map (·.source)) := by
  rw [List.filter_map, unchanged]
  congr 1
  apply List.filter_congr
  intro m _
  rw [Bool.eq_iff_iff]
  simp

/-- All copies of a text are set aside, or none. -/
theorem count_source_unchanged (methods other : List Method) (text : String) :
    ((unchanged methods other).map (·.source)).count text =
      if text ∈ other.map (·.source) then (methods.map (·.source)).count text else 0 := by
  rw [map_source_unchanged]
  split
  · rename_i hother
    exact List.count_filter (decide_eq_true hother)
  · rename_i hother
    rw [List.count_eq_zero]
    intro htext
    exact hother (of_decide_eq_true (List.mem_filter.mp htext).2)

/-- Every method is set aside or goes through the passes. -/
theorem length_unchanged_add_length_changed (methods other : List Method) :
    (unchanged methods other).length + (changed methods other).length = methods.length := by
  have hlength := (unchanged_append_changed methods other).length_eq
  rw [List.length_append, List.length_map] at hlength
  exact hlength

variable (old new : List Method)

/-- The copies of a text that are set aside are equally many in both versions if and only if the
    versions have equally many, or one of them has none. -/
theorem count_source_unchanged_eq_iff (text : String) :
    ((unchanged old new).map (·.source)).count text =
        ((unchanged new old).map (·.source)).count text ↔
      (text ∈ old.map (·.source) → text ∈ new.map (·.source) →
        (old.map (·.source)).count text = (new.map (·.source)).count text) := by
  rw [count_source_unchanged, count_source_unchanged]
  -- Only of a text that both versions have can the numbers differ.
  by_cases hold : text ∈ old.map (·.source)
  · by_cases hnew : text ∈ new.map (·.source)
    · rw [if_pos hnew, if_pos hold]
      exact ⟨fun h _ _ => h, fun h => h hold hnew⟩
    · rw [if_neg hnew, if_pos hold, List.count_eq_zero.mpr hnew]
      exact ⟨fun _ _ h => absurd h hnew, fun _ => rfl⟩
  · rw [if_neg hold, List.count_eq_zero.mpr hold, ite_self]
    exact ⟨fun _ h => absurd h hold, fun _ => rfl⟩

/-- If the versions have equally many copies of every text that both have, they set equally many
    methods aside. -/
theorem length_unchanged_of_balanced
    (h : ∀ text ∈ old.map (·.source), text ∈ new.map (·.source) →
      (old.map (·.source)).count text = (new.map (·.source)).count text) :
    (unchanged old new).length = (unchanged new old).length := by
  have hperm : ((unchanged old new).map (·.source)).Perm ((unchanged new old).map (·.source)) :=
    List.perm_iff_count.mpr fun text => (count_source_unchanged_eq_iff old new text).mpr (h text)
  have hlength := hperm.length_eq
  rw [List.length_map, List.length_map] at hlength
  exact hlength

end MethodMatching

variable (old new : List Method)

/-- Pairs take one method of either version, so the leftovers differ as the methods that go through
    the passes do. -/
theorem length_onlyNew_sub_length_onlyOld :
    ((matchMethods old new).onlyNew.length : Int) - (matchMethods old new).onlyOld.length =
      (new.length - (unchanged new old).length) - (old.length - (unchanged old new).length) := by
  have hold := (matchMethods_old_perm old new).length_eq
  have hnew := (matchMethods_new_perm old new).length_eq
  rw [List.length_append, List.length_append, List.length_map, List.length_map] at hold hnew
  have holdAll := length_unchanged_add_length_changed old new
  have hnewAll := length_unchanged_add_length_changed new old
  omega

/-- A method has a part in the matching if and only if the other version does not have its text. -/
theorem mem_old_parts_iff {i : Nat} {m : Method} (hm : old[i]? = some m) :
    (m, i) ∈ (matchMethods old new).pairs.map (·.old) ++
        ((matchMethods old new).untouched.map Prod.fst ++ (matchMethods old new).onlyOld) ↔
      m.source ∉ new.map (·.source) := by
  rw [(matchMethods_old_perm old new).mem_iff, mem_changed]
  exact and_iff_right hm

/-- The same for the methods of the new version. -/
theorem mem_new_parts_iff {j : Nat} {n : Method} (hn : new[j]? = some n) :
    (n, j) ∈ (matchMethods old new).pairs.map (·.new) ++
        ((matchMethods old new).untouched.map Prod.snd ++ (matchMethods old new).onlyNew) ↔
      n.source ∉ old.map (·.source) := by
  rw [(matchMethods_new_perm old new).mem_iff, mem_changed]
  exact and_iff_right hn

/-- What is set aside is balanced as far as the copies are. Of a text that both versions have, all
    copies are set aside, of any other none; so equally many are in both versions, unless both have
    the text and one has it more often. The leftovers of the two versions differ as the versions do,
    less what is set aside, and exactly as the versions do if of every text that both have there are
    equally many copies. A method has no part in the matching, and so in no record, if and only if
    the other version has its text. -/
theorem matchMethods_sets_copies_aside :
    (∀ text,
      ((unchanged old new).map (·.source)).count text =
        (if text ∈ new.map (·.source) then (old.map (·.source)).count text else 0) ∧
      ((unchanged new old).map (·.source)).count text =
        (if text ∈ old.map (·.source) then (new.map (·.source)).count text else 0) ∧
      (((unchanged old new).map (·.source)).count text =
          ((unchanged new old).map (·.source)).count text ↔
        (text ∈ old.map (·.source) → text ∈ new.map (·.source) →
          (old.map (·.source)).count text = (new.map (·.source)).count text))) ∧
    ((matchMethods old new).onlyNew.length : Int) - (matchMethods old new).onlyOld.length =
      (new.length - (unchanged new old).length) - (old.length - (unchanged old new).length) ∧
    ((∀ text ∈ old.map (·.source), text ∈ new.map (·.source) →
        (old.map (·.source)).count text = (new.map (·.source)).count text) →
      ((matchMethods old new).onlyNew.length : Int) - (matchMethods old new).onlyOld.length =
        new.length - old.length) ∧
    (∀ i m, old[i]? = some m →
      ((m, i) ∈ (matchMethods old new).pairs.map (·.old) ++
          ((matchMethods old new).untouched.map Prod.fst ++ (matchMethods old new).onlyOld) ↔
        m.source ∉ new.map (·.source))) ∧
    ∀ j n, new[j]? = some n →
      ((n, j) ∈ (matchMethods old new).pairs.map (·.new) ++
          ((matchMethods old new).untouched.map Prod.snd ++ (matchMethods old new).onlyNew) ↔
        n.source ∉ old.map (·.source)) := by
  have hdifference := length_onlyNew_sub_length_onlyOld old new
  refine ⟨?_, hdifference, ?_, fun i m => mem_old_parts_iff old new,
    fun j n => mem_new_parts_iff old new⟩
  · intro text
    exact ⟨count_source_unchanged old new text, count_source_unchanged new old text,
      count_source_unchanged_eq_iff old new text⟩
  · intro hbalanced
    have hlength := length_unchanged_of_balanced old new hbalanced
    omega

/-- A method that logs once, as it may stand in several nested classes. -/
def copiedMethod : Method :=
  ⟨"run", [], "void run() \x7bLog.d(x);\x7d", "\x7bLog.d(x);\x7d",
    [.call ⟨"Log.d", "Log.d(x)", [⟨"x", [.var "x"]⟩]⟩]⟩

/-- Methods with two copies of one. -/
def copiesBefore : List Method :=
  [copiedMethod, ⟨"load", ["int"], "void load(int a) \x7b\x7d", "\x7b\x7d", []⟩, copiedMethod]

def copiesAfter : List Method :=
  [copiedMethod, copiedMethod, ⟨"load", ["long"], "void load(long a) \x7b\x7d", "\x7b\x7d", []⟩,
    ⟨"load", ["char"], "void load(char a) \x7b\x7d", "\x7b\x7d", []⟩]

/-- Both copies are set aside in both versions, and of the other methods one more is left over in
    the new version. -/
theorem matchMethods_sets_copies_aside_twice :
    (∀ text ∈ copiesBefore.map (·.source), text ∈ copiesAfter.map (·.source) →
      (copiesBefore.map (·.source)).count text = (copiesAfter.map (·.source)).count text) ∧
    ((unchanged copiesBefore copiesAfter).map (·.source)).count copiedMethod.source = 2 ∧
    ((matchMethods copiesBefore copiesAfter).onlyNew.length : Int) -
      (matchMethods copiesBefore copiesAfter).onlyOld.length = 1 := by
  have hbalanced : ∀ text ∈ copiesBefore.map (·.source), text ∈ copiesAfter.map (·.source) →
      (copiesBefore.map (·.source)).count text = (copiesAfter.map (·.source)).count text := by
    decide
  obtain ⟨hcopies, -, hdifference, -⟩ := matchMethods_sets_copies_aside copiesBefore copiesAfter
  have hcount := (hcopies copiedMethod.source).1
  exact ⟨hbalanced, hcount.trans (by decide), hdifference hbalanced⟩

/-- A copy that is added is set aside, too: once the text is set aside in the old version and twice
    in the new one, no method is left over, and no record has the call of the copy. -/
theorem added_copy_is_set_aside :
    ((unchanged [copiedMethod] [copiedMethod, copiedMethod]).map (·.source)).count
        copiedMethod.source = 1 ∧
    ((unchanged [copiedMethod, copiedMethod] [copiedMethod]).map (·.source)).count
        copiedMethod.source = 2 ∧
    ((matchMethods [copiedMethod] [copiedMethod, copiedMethod]).onlyNew.length : Int) -
        (matchMethods [copiedMethod] [copiedMethod, copiedMethod]).onlyOld.length ≠
      ([copiedMethod, copiedMethod].length : Int) - [copiedMethod].length ∧
    copiedMethod.callSites.length = 1 ∧
    (Report.ofVersions Settings.standard ⟨"A.java", [copiedMethod]⟩
      ⟨"A.java", [copiedMethod, copiedMethod]⟩ none).records = [] :=
  ⟨by decide, by decide, by decide, by decide, rfl⟩

end LogDrift
