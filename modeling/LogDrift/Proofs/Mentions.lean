import Mathlib.Data.List.Nodup
import Mathlib.Data.String.Basic
import Mathlib.Logic.Relation
import LogDrift.Change.Evidence

/-!
# The variables that a call mentions

The variables of a call are collected argument by argument and operand by operand, and an operand
that is a call is gone into. What is collected is said here without the order of collection: the
variables among the operands of the call (`HasOperand`), and for each call that is nested in it at
some depth (`Nests`) its caller (`IsCallerOf`) and the variables among its own operands. The order of
arguments and operands, at any depth, plays no part in it (`Reordered`), and an argument that becomes
the argument of a further call (`Wraps`) takes along what it mentions.

## Key results

- `mem_mentionsOf_iff`: what arguments mention, one level of nesting at a time
- `mem_mentionsOf_iff_nests`: what they mention, over all levels
- `AtDepth.mem_mentionsOf_iff`: a change of the arguments of a nested call
- `variableSet_eq_of_mem_iff`: the same variables are listed in the same way
-/

namespace LogDrift

/-! ## Operands and nested calls -/

/-- Whether an operand stands in one of the arguments. -/
def HasOperand (arguments : List Argument) (operand : Operand) : Prop :=
  ∃ a ∈ arguments, operand ∈ a.operands

/-- Whether a call is nested in arguments: as an operand of one of them, or of an argument of a call
    that is. -/
inductive Nests (arguments : List Argument) : Call → Prop
  | operand {call : Call} : HasOperand arguments (.call call) → Nests arguments call
  | deeper {outer call : Call} :
      Nests arguments outer → HasOperand outer.arguments (.call call) → Nests arguments call

/-- Whether a text is the part of a name before the last dot, or the whole name if there is no
    dot. -/
def IsCallerOf (caller name : String) : Prop :=
  (∃ level, name.toList = caller.toList ++ '.' :: level ∧ '.' ∉ level) ∨
    '.' ∉ name.toList ∧ caller = name

/-- The caller is what stands in front of the last dot of a name. -/
theorem callerOf_eq_iff {caller name : String} :
    callerOf name = caller ↔ IsCallerOf caller name := by
  -- With a dot the name is split at its last one, else it is the caller as a whole.
  by_cases hdot : '.' ∈ name.toList
  · obtain ⟨before, level, hsplit⟩ : ∃ before level, splitName name = (before, some level) := by
      rw [splitName]
      cases h : Text.splitLast '.' name.toList with
      | none => exact absurd hdot (Text.splitLast_eq_none_iff.mp h)
      | some halves => exact ⟨_, _, rfl⟩
    obtain ⟨hname, hlevel⟩ := splitName_eq_some_iff.mp hsplit
    rw [callerOf, hsplit]
    constructor
    · rintro rfl
      exact .inl ⟨level.toList, hname, hlevel⟩
    · rintro (⟨level', hname', hlevel'⟩ | ⟨hnot, -⟩)
      · have hsplit' : splitName name = (caller, some (String.ofList level')) :=
          splitName_eq_some_iff.mpr (by simpa using ⟨hname', hlevel'⟩)
        exact congrArg Prod.fst (hsplit.symm.trans hsplit')
      · exact absurd hdot hnot
  · rw [callerOf, splitName_of_not_mem hdot]
    constructor
    · rintro rfl
      exact .inr ⟨hdot, rfl⟩
    · rintro (⟨level, hname, -⟩ | ⟨-, rfl⟩)
      · exact absurd (by simp [hname]) hdot
      · rfl

/-- What holds of arguments if it holds of those of every call among their operands holds of all
    arguments. -/
theorem arguments_induction {motive : List Argument → Prop}
    (step : ∀ arguments, (∀ call, HasOperand arguments (.call call) → motive call.arguments) →
      motive arguments) (arguments : List Argument) : motive arguments := by
  induction hn : sizeOf arguments using Nat.strong_induction_on generalizing arguments with
  | _ n ih =>
    subst hn
    apply step
    rintro ⟨name, text, inner⟩ ⟨⟨source, operands⟩, harg, hop⟩
    -- The arguments of a call among the operands are a part of these arguments.
    refine ih (sizeOf inner) ?_ inner rfl
    have hargument := List.sizeOf_lt_of_mem harg
    have hoperand := List.sizeOf_lt_of_mem hop
    simp only [Argument.mk.sizeOf_spec] at hargument
    simp only [Operand.call.sizeOf_spec, Call.mk.sizeOf_spec] at hoperand
    omega

/-! ## What arguments mention -/

section

variable {name : String} {arguments : List Argument}

/-- A variable mentions itself, a call its caller and what its arguments mention, and any other
    operand nothing. -/
private theorem mem_mentions_operand {operand : Operand} :
    name ∈ operand.mentions ↔
      operand = .var name ∨ ∃ call, operand = .call call ∧
        (IsCallerOf name call.name ∨ name ∈ Argument.mentionsOf call.arguments) := by
  cases operand with
  | text literal => simp [Operand.mentions]
  | var own => simp [Operand.mentions, eq_comm]
  | call nested =>
    obtain ⟨callee, source, arguments⟩ := nested
    simp [Operand.mentions, ← callerOf_eq_iff, eq_comm]
  | other source => simp [Operand.mentions]

/-- Operands mention what each of them does. -/
private theorem mem_mentionsOf_operands {operands : List Operand} :
    name ∈ Operand.mentionsOf operands ↔ ∃ operand ∈ operands, name ∈ operand.mentions := by
  induction operands with
  | nil => simp [Operand.mentionsOf]
  | cons operand operands ih => simp [Operand.mentionsOf, ih]

/-- Arguments mention what each of them does. -/
theorem mem_mentionsOf :
    name ∈ Argument.mentionsOf arguments ↔ ∃ a ∈ arguments, name ∈ a.mentions := by
  induction arguments with
  | nil => simp [Argument.mentionsOf]
  | cons a arguments ih => simp [Argument.mentionsOf, ih]

/-- An argument mentions what its operands do. -/
private theorem mem_mentions {a : Argument} :
    name ∈ a.mentions ↔ ∃ operand ∈ a.operands, name ∈ operand.mentions := by
  obtain ⟨source, operands⟩ := a
  rw [Argument.mentions, mem_mentionsOf_operands]

/-- Arguments mention the variables among their operands, and of the calls among them the callers
    and what their arguments mention. -/
theorem mem_mentionsOf_iff :
    name ∈ Argument.mentionsOf arguments ↔
      HasOperand arguments (.var name) ∨ ∃ call, HasOperand arguments (.call call) ∧
        (IsCallerOf name call.name ∨ name ∈ Argument.mentionsOf call.arguments) := by
  rw [mem_mentionsOf]
  constructor
  · rintro ⟨a, ha, hmem⟩
    obtain ⟨operand, hoperand, hname⟩ := mem_mentions.mp hmem
    obtain rfl | ⟨call, rfl, hcall⟩ := mem_mentions_operand.mp hname
    · exact .inl ⟨a, ha, hoperand⟩
    · exact .inr ⟨call, ⟨a, ha, hoperand⟩, hcall⟩
  · rintro (⟨a, ha, hvar⟩ | ⟨call, ⟨a, ha, hnested⟩, hcall⟩)
    · exact ⟨a, ha, mem_mentions.mpr ⟨_, hvar, mem_mentions_operand.mpr (.inl rfl)⟩⟩
    · exact ⟨a, ha, mem_mentions.mpr
        ⟨_, hnested, mem_mentions_operand.mpr (.inr ⟨call, rfl, hcall⟩)⟩⟩

/-- What a nested call adds, as a whole, to what is mentioned around it. -/
theorem Nests.mem_mentionsOf {call : Call} (h : Nests arguments call)
    (hname : IsCallerOf name call.name ∨ name ∈ Argument.mentionsOf call.arguments) :
    name ∈ Argument.mentionsOf arguments := by
  induction h with
  | operand hoperand => exact mem_mentionsOf_iff.mpr (.inr ⟨_, hoperand, hname⟩)
  -- The call around it mentions what it adds, and adds this in turn.
  | deeper _ hoperand ih =>
    exact ih (.inr (mem_mentionsOf_iff.mpr (.inr ⟨_, hoperand, hname⟩)))

/-- What is nested in a call is nested around it, too. -/
theorem Nests.of_operand {outer call : Call} (houter : HasOperand arguments (.call outer))
    (h : Nests outer.arguments call) : Nests arguments call := by
  induction h with
  | operand hoperand => exact .deeper (.operand houter) hoperand
  | deeper _ hoperand ih => exact .deeper ih hoperand

/-- Arguments mention the variables among their operands, and of all calls nested in them the callers
    and the variables among the operands. -/
theorem mem_mentionsOf_iff_nests :
    name ∈ Argument.mentionsOf arguments ↔
      HasOperand arguments (.var name) ∨ ∃ call, Nests arguments call ∧
        (IsCallerOf name call.name ∨ HasOperand call.arguments (.var name)) := by
  constructor
  · -- A mention leads to a call that is an operand, and then by induction to one nested in it.
    induction arguments using arguments_induction with
    | step arguments ih =>
      intro hname
      obtain hvar | ⟨outer, houter, hcaller | hinner⟩ := mem_mentionsOf_iff.mp hname
      · exact .inl hvar
      · exact .inr ⟨outer, .operand houter, .inl hcaller⟩
      · obtain hvar | ⟨call, hcall, hmentions⟩ := ih outer houter hinner
        · exact .inr ⟨outer, .operand houter, .inr hvar⟩
        · exact .inr ⟨call, hcall.of_operand houter, hmentions⟩
  · -- What a nested call mentions is mentioned at every depth around it.
    rintro (hvar | ⟨call, hcall, hcaller | hvar⟩)
    · exact mem_mentionsOf_iff.mpr (.inl hvar)
    · exact hcall.mem_mentionsOf (.inl hcaller)
    · exact hcall.mem_mentionsOf (.inr (mem_mentionsOf_iff.mpr (.inl hvar)))

end

/-! ## Changes at some depth -/

/-- Whether arguments become others by a change of the kind `R`, made in the arguments themselves or
    in those of a call nested in them. The texts around the change may change with it. -/
inductive AtDepth (R : List Argument → List Argument → Prop) :
    List Argument → List Argument → Prop
  | here {as bs : List Argument} : R as bs → AtDepth R as bs
  | nested (front back : List Argument) (left right : List Operand) {as bs : List Argument}
      {name source source' text text' : String} : AtDepth R as bs →
      AtDepth R (front ++ ⟨source, left ++ .call ⟨name, text, as⟩ :: right⟩ :: back)
        (front ++ ⟨source', left ++ .call ⟨name, text', bs⟩ :: right⟩ :: back)

/-- Whether the arguments, or the operands of one of them, are put in another order. -/
inductive Reordered : List Argument → List Argument → Prop
  | arguments {as bs : List Argument} : as.Perm bs → Reordered as bs
  | operands (front back : List Argument) {operands operands' : List Operand}
      {source source' : String} : operands.Perm operands' →
      Reordered (front ++ ⟨source, operands⟩ :: back) (front ++ ⟨source', operands'⟩ :: back)

/-- Whether an argument becomes the argument of a call of that name, which takes its place. -/
inductive Wraps (name : String) : List Argument → List Argument → Prop
  | argument (front back : List Argument) {a : Argument} {source text : String} :
      Wraps name (front ++ a :: back) (front ++ ⟨source, [.call ⟨name, text, [a]⟩]⟩ :: back)

section

variable {name : String}

/-- An argument may be looked at apart from those around it. -/
private theorem mem_mentionsOf_append_cons {front back : List Argument} {a : Argument} :
    name ∈ Argument.mentionsOf (front ++ a :: back) ↔
      name ∈ a.mentions ∨ name ∈ Argument.mentionsOf (front ++ back) := by
  simp only [mem_mentionsOf, List.mem_append, List.mem_cons]
  constructor
  · rintro ⟨b, hfront | rfl | hback, hname⟩
    · exact .inr ⟨b, .inl hfront, hname⟩
    · exact .inl hname
    · exact .inr ⟨b, .inr hback, hname⟩
  · rintro (hname | ⟨b, hfront | hback, hname⟩)
    · exact ⟨a, .inr (.inl rfl), hname⟩
    · exact ⟨b, .inl hfront, hname⟩
    · exact ⟨b, .inr (.inr hback), hname⟩

/-- An argument with a call among its operands mentions what the call does and what the other
    operands do. -/
private theorem mem_mentions_append_call {source text callee : String} {left right : List Operand}
    {arguments : List Argument} :
    name ∈ (Argument.mk source (left ++ .call ⟨callee, text, arguments⟩ :: right)).mentions ↔
      name ∈ Argument.mentionsOf arguments ∨ IsCallerOf name callee ∨
        ∃ operand ∈ left ++ right, name ∈ operand.mentions := by
  have hcall : name ∈ (Operand.call ⟨callee, text, arguments⟩).mentions ↔
      IsCallerOf name callee ∨ name ∈ Argument.mentionsOf arguments := by
    simp [mem_mentions_operand]
  simp only [mem_mentions, List.mem_append, List.mem_cons]
  -- The operand is the call, or one on either side of it.
  constructor
  · rintro ⟨operand, hleft | rfl | hright, hname⟩
    · exact .inr (.inr ⟨operand, .inl hleft, hname⟩)
    · exact (hcall.mp hname).elim (.inr ∘ .inl) .inl
    · exact .inr (.inr ⟨operand, .inr hright, hname⟩)
  · rintro (hname | hname | ⟨operand, hleft | hright, hname⟩)
    · exact ⟨_, .inr (.inl rfl), hcall.mpr (.inr hname)⟩
    · exact ⟨_, .inr (.inl rfl), hcall.mpr (.inl hname)⟩
    · exact ⟨operand, .inl hleft, hname⟩
    · exact ⟨operand, .inr (.inr hright), hname⟩

/-- What a change adds to what is mentioned, it adds at any depth. -/
theorem AtDepth.mem_mentionsOf_iff {R : List Argument → List Argument → Prop} {added : Prop}
    (hR : ∀ as bs, R as bs →
      (name ∈ Argument.mentionsOf bs ↔ added ∨ name ∈ Argument.mentionsOf as))
    {as bs : List Argument} (h : AtDepth R as bs) :
    name ∈ Argument.mentionsOf bs ↔ added ∨ name ∈ Argument.mentionsOf as := by
  induction h with
  | here h => exact hR _ _ h
  -- What stands around the change mentions the same on both sides.
  | nested _ _ _ _ _ ih =>
    rw [mem_mentionsOf_append_cons, mem_mentionsOf_append_cons, mem_mentions_append_call,
      mem_mentions_append_call, ih]
    simp only [or_assoc]

/-- What is mentioned does not depend on the order. -/
theorem Reordered.mem_mentionsOf_iff {as bs : List Argument} (h : Reordered as bs) :
    name ∈ Argument.mentionsOf bs ↔ name ∈ Argument.mentionsOf as := by
  cases h with
  | arguments hperm => simp only [mem_mentionsOf, hperm.mem_iff]
  | operands _ _ hperm =>
    simp only [mem_mentionsOf_append_cons, mem_mentions, hperm.mem_iff]

/-- Nor does it depend on the order however often this is changed. -/
theorem mem_mentionsOf_of_reordered {as bs : List Argument}
    (h : Relation.ReflTransGen (AtDepth Reordered) as bs) :
    name ∈ Argument.mentionsOf bs ↔ name ∈ Argument.mentionsOf as := by
  induction h with
  | refl => rfl
  | tail _ hstep ih =>
    have hsame : name ∈ Argument.mentionsOf _ ↔ False ∨ name ∈ Argument.mentionsOf _ :=
      hstep.mem_mentionsOf_iff fun as bs hR => by rw [hR.mem_mentionsOf_iff, false_or]
    rw [hsame, false_or, ih]

/-- A call around an argument adds its caller. -/
theorem Wraps.mem_mentionsOf_iff {callee : String} {as bs : List Argument}
    (h : Wraps callee as bs) :
    name ∈ Argument.mentionsOf bs ↔
      IsCallerOf name callee ∨ name ∈ Argument.mentionsOf as := by
  obtain ⟨⟩ := h
  have hwrapped (a : Argument) : name ∈ Argument.mentionsOf [a] ↔ name ∈ a.mentions := by
    simp [mem_mentionsOf]
  rw [mem_mentionsOf_append_cons, mem_mentionsOf_append_cons,
    ← List.nil_append [Operand.call _], mem_mentions_append_call, hwrapped]
  simp [or_left_comm, or_assoc]

end

/-! ## The set of variables -/

/-- Without its duplicates a list has every element once. -/
private theorem nodup_eraseDups {α : Type} [BEq α] [LawfulBEq α] (l : List α) :
    l.eraseDups.Nodup := by
  induction hn : l.length using Nat.strong_induction_on generalizing l with
  | _ n ih =>
    subst hn
    cases l with
    | nil => simp
    | cons a l =>
      rw [List.eraseDups_cons, List.nodup_cons]
      refine ⟨by simp [List.mem_eraseDups], ih _ ?_ _ rfl⟩
      exact Nat.lt_succ_of_le (List.length_filter_le _ l)

theorem mem_variableSet {site : CallSite} {name : String} :
    name ∈ site.variableSet ↔ name ∈ site.mentions := by
  rw [CallSite.variableSet, (List.mergeSort_perm _ _).mem_iff, List.mem_eraseDups]

/-- Calls that mention the same variables have one and the same set of them. -/
theorem variableSet_eq_of_mem_iff {s t : CallSite}
    (h : ∀ name, name ∈ s.mentions ↔ name ∈ t.mentions) : s.variableSet = t.variableSet := by
  -- Both are sorted and without duplicates, so their elements determine them.
  have hsorted (site : CallSite) :
      site.variableSet.Pairwise fun a b => decide (a ≤ b) = true :=
    List.pairwise_mergeSort
      (fun _ _ _ hab hbc => decide_eq_true
        ((of_decide_eq_true hab).trans (of_decide_eq_true hbc)))
      (fun a b : String => by simpa using le_total a b) _
  have hnodup (site : CallSite) : site.variableSet.Nodup :=
    (List.mergeSort_perm _ _).nodup_iff.mpr (nodup_eraseDups _)
  refine List.Perm.eq_of_pairwise ?_ (hsorted s) (hsorted t) ?_
  · exact fun a b _ _ hab hba => le_antisymm (of_decide_eq_true hab) (of_decide_eq_true hba)
  · rw [List.perm_ext_iff_of_nodup (hnodup s) (hnodup t)]
    simpa only [mem_variableSet] using h

/-- The variables of a call are the variables among its operands and, for each call nested in it, the
    caller and the variables among the operands. Arguments and operands may be put in another order,
    at any depth and as often as one likes: the set stays. An argument, at any depth, may become the
    argument of a further call: the set gains the caller of that call and loses nothing. -/
theorem variables_are_reached_through_calls (site : CallSite) :
    (∀ name, name ∈ site.variableSet ↔
      HasOperand site.arguments (.var name) ∨ ∃ call, Nests site.arguments call ∧
        (IsCallerOf name call.name ∨ HasOperand call.arguments (.var name))) ∧
    (∀ site' : CallSite,
      Relation.ReflTransGen (AtDepth Reordered) site.arguments site'.arguments →
      site'.variableSet = site.variableSet) ∧
    (∀ (site' : CallSite) (callee : String),
      AtDepth (Wraps callee) site.arguments site'.arguments →
      ∀ name, name ∈ site'.variableSet ↔
        IsCallerOf name callee ∨ name ∈ site.variableSet) := by
  refine ⟨fun name => mem_variableSet.trans mem_mentionsOf_iff_nests, fun site' h => ?_,
    fun site' callee h name => ?_⟩
  · exact variableSet_eq_of_mem_iff fun name => mem_mentionsOf_of_reordered h
  · rw [mem_variableSet, mem_variableSet]
    exact h.mem_mentionsOf_iff fun as bs hR => hR.mem_mentionsOf_iff

/-- The operand `user.greet(upper(n))`, with another argument for `n`. -/
def greetingOf (a : Argument) : Operand :=
  .call ⟨"user.greet", "", [⟨"", [.call ⟨"upper", "", [a]⟩]⟩]⟩

/-- The call `Log.d(TAG, user.greet(upper(n)) + k)`, with another argument for `n`. -/
def siteOfGreeting (a : Argument) : CallSite :=
  CallSite.ofCall ⟨"Log.d", "", [⟨"", [.var "TAG"]⟩, ⟨"", [greetingOf a, .var "k"]⟩]⟩

/-- The call `Log.d(k + user.greet(upper(n)), TAG)`, with another argument for `n`. -/
def siteOfGreetingLast (a : Argument) : CallSite :=
  CallSite.ofCall ⟨"Log.d", "", [⟨"", [.var "k", greetingOf a]⟩, ⟨"", [.var "TAG"]⟩]⟩

/-- The operands of the second argument are swapped, and then both arguments: the variables stay, the
    nested call without a receiver among them. A call around `n` adds its receiver, two levels
    down. -/
theorem variables_are_reached_through_calls_of_greeting :
    Relation.ReflTransGen (AtDepth Reordered) (siteOfGreeting ⟨"n", [.var "n"]⟩).arguments
        (siteOfGreetingLast ⟨"n", [.var "n"]⟩).arguments ∧
      (siteOfGreetingLast ⟨"n", [.var "n"]⟩).variableSet =
        (siteOfGreeting ⟨"n", [.var "n"]⟩).variableSet ∧
      "upper" ∈ (siteOfGreeting ⟨"n", [.var "n"]⟩).variableSet ∧
      AtDepth (Wraps "text.trim") (siteOfGreeting ⟨"n", [.var "n"]⟩).arguments
        (siteOfGreeting ⟨"", [.call ⟨"text.trim", "", [⟨"n", [.var "n"]⟩]⟩]⟩).arguments ∧
      "text" ∈ (siteOfGreeting
        ⟨"", [.call ⟨"text.trim", "", [⟨"n", [.var "n"]⟩]⟩]⟩).variableSet := by
  obtain ⟨hreached, hreordered, hwrapped⟩ :=
    variables_are_reached_through_calls (siteOfGreeting ⟨"n", [.var "n"]⟩)
  have hoperands : Reordered (siteOfGreeting ⟨"n", [.var "n"]⟩).arguments
      [⟨"", [.var "TAG"]⟩, ⟨"", [.var "k", greetingOf ⟨"n", [.var "n"]⟩]⟩] :=
    .operands [⟨"", [.var "TAG"]⟩] [] (List.Perm.swap _ _ _)
  have horder : Relation.ReflTransGen (AtDepth Reordered)
      (siteOfGreeting ⟨"n", [.var "n"]⟩).arguments
      (siteOfGreetingLast ⟨"n", [.var "n"]⟩).arguments :=
    .tail (.single (.here hoperands)) (.here (.arguments (List.Perm.swap _ _ _)))
  have hwrap : AtDepth (Wraps "text.trim") (siteOfGreeting ⟨"n", [.var "n"]⟩).arguments
      (siteOfGreeting ⟨"", [.call ⟨"text.trim", "", [⟨"n", [.var "n"]⟩]⟩]⟩).arguments :=
    .nested [⟨"", [.var "TAG"]⟩] [] [] [.var "k"] (.nested [] [] [] [] (.here (.argument [] [])))
  have hupper : Nests (siteOfGreeting ⟨"n", [.var "n"]⟩).arguments
      ⟨"upper", "", [⟨"n", [.var "n"]⟩]⟩ :=
    .deeper (.operand ⟨_, List.mem_cons_of_mem _ List.mem_cons_self, List.mem_cons_self⟩)
      ⟨_, List.mem_cons_self, List.mem_cons_self⟩
  refine ⟨horder, hreordered _ horder, ?_, hwrap, ?_⟩
  · exact (hreached "upper").mpr (.inr ⟨_, hupper, .inl (.inr ⟨by decide, rfl⟩)⟩)
  · exact (hwrapped _ _ hwrap "text").mpr (.inl (.inl ⟨"trim".toList, by decide, by decide⟩))

end LogDrift
