/-! # Syntax trees

A syntax tree of Java source: every node has a kind, the role it plays in its parent if the parent
tells its children apart, its text, and its children in the order of the text. Comments are nodes
like others. Only the kinds that something is decided by are told apart; `Kind.other` is any other
construct.
-/

namespace LogDrift.Java

/-- The kind of a node. -/
inductive Kind where
  | program
  | classDeclaration
  | classBody
  | methodDeclaration
  | formalParameters
  | formalParameter
  | spreadParameter
  | modifiers
  | variableDeclarator
  | block
  | expressionStatement
  | methodInvocation
  | argumentList
  | binary
  | parenthesized
  /-- A string or character literal. -/
  | textLiteral
  | identifier
  | fieldAccess
  | arrayAccess
  | thisReference
  | type
  | comment
  | other
deriving DecidableEq, Repr

/-- The role of a node in its parent. -/
inductive Role where
  | name
  | type
  | parameters
  | body
  | object
  | arguments
  | left
  | right
deriving DecidableEq, Repr

/-- A syntax tree. -/
inductive Tree where
  | node (kind : Kind) (role : Option Role) (text : String) (children : List Tree)

namespace Tree

def kind : Tree → Kind
  | node kind _ _ _ => kind

def role : Tree → Option Role
  | node _ role _ _ => role

def text : Tree → String
  | node _ _ text _ => text

def children : Tree → List Tree
  | node _ _ _ children => children

/-- The same tree in a role. -/
def withRole (role : Role) : Tree → Tree
  | node kind _ text children => node kind (some role) text children

def isComment (t : Tree) : Bool := t.kind = .comment

/-- The first of the trees that plays a role. -/
def inRole? (role : Role) (trees : List Tree) : Option Tree := trees.find? (·.role = some role)

/-- The child that plays a role. -/
def child? (t : Tree) (role : Role) : Option Tree := inRole? role t.children

end Tree

end LogDrift.Java
