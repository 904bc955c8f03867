import LogDrift.Call.Site

/-! # Methods

A method of one version of a file: its signature, its text, and the statements of its body that
call a method. Statements nest; `Method.calls` lists their calls in the order of the text, and
`Method.callSites` keeps those that write to a log.
-/

namespace LogDrift

/-- A part of a method body. -/
inductive BodyNode where
  /-- A statement that is a call. -/
  | call (c : Call)
  /-- A statement or expression that holds further statements. -/
  | block (nodes : List BodyNode)

mutual

/-- The calls of a part of a body, in order. -/
def BodyNode.calls : BodyNode → List Call
  | .call c => [c]
  | .block nodes => BodyNode.callsOf nodes

/-- The calls of parts of a body, in order. -/
def BodyNode.callsOf : List BodyNode → List Call
  | [] => []
  | node :: nodes => node.calls ++ BodyNode.callsOf nodes

end

/-- The calls of parts are those of each part. -/
theorem BodyNode.callsOf_eq_flatMap (nodes : List BodyNode) :
    BodyNode.callsOf nodes = nodes.flatMap BodyNode.calls := by
  induction nodes with
  | nil => rfl
  | cons node nodes ih => simp [BodyNode.callsOf, ih]

/-- A method of one version of a file. -/
structure Method where
  name : String
  parameterTypes : List String
  /-- The text of the whole declaration. -/
  source : String
  /-- The text of the body, braces included. -/
  bodySource : String
  body : List BodyNode

/-- What tells the methods of a class apart. -/
structure Signature where
  name : String
  /-- The parameter types in parentheses. -/
  parameters : String
deriving DecidableEq, Repr

/-- A signature on one line. -/
def Signature.full (s : Signature) : String := s.name ++ s.parameters

namespace Method

/-- The signature of a method; that of a method without a name is empty. -/
def signature (m : Method) : Signature :=
  if m.name.isEmpty then ⟨"", ""⟩
  else ⟨m.name, "(" ++ ",".intercalate m.parameterTypes ++ ")"⟩

/-- The signature on one line. -/
def fullSignature (m : Method) : String := m.signature.full

/-- The calls that are statements of the body, at any depth, in order. -/
def calls (m : Method) : List Call := BodyNode.callsOf m.body

/-- The sites of the body that write to a log, in order. -/
def callSites (m : Method) : List CallSite :=
  (m.calls.filter fun call => isLogging call.name (!call.arguments.isEmpty)).map CallSite.ofCall

end Method

end LogDrift
