import LogDrift.Java.Tree
import LogDrift.Method

/-! # Methods of a syntax tree

`Tree.methods` lists the methods of a tree: every method declaration with a body that stands
directly in the body of a class declaration, at any depth, in the order of the text. The body of
a method is read as nested statements; a statement counts as a call if it is a method invocation and
nothing else. An argument is flattened over binary operators and parentheses into its operands.
-/

namespace LogDrift.Java.Tree

/-- A text without its blanks. -/
def compact (text : String) : String := String.ofList (Text.removeBlanks text.toList)

/-! ## Calls -/

/-- The name of an invocation, given its children: what it is invoked on, without blanks, and the
    name of the method. -/
def invocationName (children : List Tree) : String :=
  let name := ((inRole? .name children).map text).getD ""
  match inRole? .object children with
  | some object => compact object.text ++ "." ++ name
  | none => name

mutual

/-- The operands of an expression, from left to right. -/
def operands : Tree → List Operand
  | node .binary _ _ children =>
    operandsInRole .left children ++ operandsInRole .right children
  | node .parenthesized _ _ children => operandsOfAll children
  | node .textLiteral _ text _ => [.text text]
  | node .identifier _ text _ => [.var (compact text)]
  | node .fieldAccess _ text _ => [.var (compact text)]
  | node .arrayAccess _ text _ => [.var (compact text)]
  | node .thisReference _ text _ => [.var (compact text)]
  | node .methodInvocation _ text children =>
    [.call ⟨invocationName children, text, argumentsOf children⟩]
  | node _ _ text _ => [.other text]

/-- The operands of the first of the trees that plays a role. -/
def operandsInRole (role : Role) : List Tree → List Operand
  | [] => []
  | t :: trees => if t.role = some role then t.operands else operandsInRole role trees

/-- The operands of all trees but comments. -/
def operandsOfAll : List Tree → List Operand
  | [] => []
  | t :: trees => (if t.isComment then [] else t.operands) ++ operandsOfAll trees

/-- The arguments of an invocation, given its children. -/
def argumentsOf : List Tree → List Argument
  | [] => []
  | node _ role _ children :: trees =>
    if role = some .arguments then argumentsOfAll children else argumentsOf trees

/-- All trees but comments as arguments. -/
def argumentsOfAll : List Tree → List Argument
  | [] => []
  | t :: trees =>
    (if t.isComment then [] else [⟨t.text, t.operands⟩]) ++ argumentsOfAll trees

end

/-- An invocation as a call. -/
def call (t : Tree) : Call := ⟨invocationName t.children, t.text, argumentsOf t.children⟩

/-! ## Statements -/

/-- The call that a tree is, if it is a statement headed by an invocation. -/
def statementCall? (t : Tree) : Option Call :=
  if t.kind = .expressionStatement then
    t.children.head?.bind fun head => if head.kind = .methodInvocation then some head.call else none
  else none

/-- A block of nodes, unless there are none. -/
def blockOf : List BodyNode → List BodyNode
  | [] => []
  | nodes => [.block nodes]

mutual

/-- The statements inside a tree. -/
def bodyNodes : Tree → List BodyNode
  | node _ _ _ children => bodyNodesOf children

/-- The statements among and inside trees. Comments hold none. -/
def bodyNodesOf : List Tree → List BodyNode
  | [] => []
  | t :: trees =>
    (if t.isComment then []
      else (t.statementCall?.map BodyNode.call).toList ++ blockOf t.bodyNodes)
      ++ bodyNodesOf trees

end

/-! ## Methods -/

/-- The type of a parameter without blanks, or nothing if the tree declares none. The type of
    a variable number of arguments is what comes first besides modifiers and names. -/
def parameterType? (parameter : Tree) : Option String :=
  match parameter.kind with
  | .formalParameter => (parameter.child? .type).map fun type => compact type.text
  | .spreadParameter =>
    (parameter.children.find? fun child =>
      child.kind ≠ .modifiers && child.kind ≠ .variableDeclarator && !child.isComment).map
        fun type => compact type.text ++ "..."
  | _ => none

/-- The method that a declaration with a body makes. -/
def method? (t : Tree) : Option Method :=
  (t.child? .body).map fun body =>
    { name := ((t.child? .name).map text).getD ""
      parameterTypes := ((t.child? .parameters).map fun parameters =>
        parameters.children.filterMap parameterType?).getD []
      source := t.text
      bodySource := body.text
      body := body.bodyNodes }

mutual

/-- The methods of a tree, given the kinds of its parent and of its grandparent. -/
def methodsWithin (grandparent parent : Option Kind) : Tree → List Method
  | node kind role text children =>
    (if kind = .methodDeclaration && parent = some .classBody
        && grandparent = some .classDeclaration then
      (node kind role text children).method?.toList else [])
      ++ methodsWithinAll parent kind children

/-- The methods of trees, given the kinds of their parent and of their grandparent. -/
def methodsWithinAll (grandparent : Option Kind) (parent : Kind) : List Tree → List Method
  | [] => []
  | t :: trees =>
    methodsWithin grandparent (some parent) t ++ methodsWithinAll grandparent parent trees

end

/-- The methods of a tree, in the order of the text. -/
def methods (t : Tree) : List Method := methodsWithin none none t

end LogDrift.Java.Tree
