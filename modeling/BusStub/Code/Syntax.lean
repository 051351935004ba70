import BusStub.Code.Place
import BusStub.Signature.Scalar

/-! The language of the generated stubs, as far as they use it: types, expressions, statements,
functions, structs and classes. Emitters build these trees; only the printer knows their text. -/

namespace BusStub.Code

inductive TypeName where
  | plain (text : String)
  | scalar (kind : Scalar)
  /-- A struct named by the generator: the definitions it is nested in, outermost first, and its own name. -/
  | composite (path : List String)
  deriving DecidableEq, Repr, Inhabited

/-- A type with its qualifier and its pointer levels. -/
structure CType where
  name : TypeName
  constant : Bool := false
  stars : Nat := 0
  deriving DecidableEq, Repr, Inhabited

structure Variable where
  type : CType
  name : String
  deriving DecidableEq, Repr, Inhabited

/-- How a parameter takes its argument: by value, as a place for a result, or as a shared object. -/
inductive Passing where
  | value | result | shared
  deriving DecidableEq, Repr, Inhabited

structure Param where
  type : CType
  name : String
  passing : Passing := .value
  default : Option String := none
  deriving DecidableEq, Repr, Inhabited

inductive Operator where
  | equal | unequal | conjunction | union
  deriving DecidableEq, Repr, Inhabited

inductive Expr where
  | name (text : String)
  | number (value : Nat)
  | quoted (text : String)
  | place (place : Place)
  /-- The number of elements of the counted value at a place. -/
  | count (place : Place)
  | address (target : Expr)
  | content (pointer : Expr)
  | negation (condition : Expr)
  | binary (operator : Operator) (left right : Expr)
  | member (object : Expr) (name : String)
  | arrow (pointer : Expr) (name : String)
  | call (callee : Expr) (args : List Expr)
  | newArray (type : CType) (size : Expr)
  | newObject (type : String) (args : List Expr)
  | cast (type : CType) (value : Expr)
  deriving Repr, Inhabited

inductive Stmt where
  | declare (v : Variable)
  | define (v : Variable) (value : Expr)
  | array (v : Variable) (length : Nat)
  | construct (v : Variable) (args : List Expr)
  | assign (target value : Expr)
  | perform (action : Expr)
  | delete (pointer : Expr)
  | deleteArray (pointer : Expr)
  | ret (value : Expr)
  /-- Runs the body once for each element of the counted value at a place. -/
  | loop (depth : Nat) (place : Place) (body : List Stmt)
  | branch (condition : Expr) (body : List Stmt)
  | choose (condition : Expr) (body otherwise : List Stmt)
  | comment (text : String)
  | blank
  deriving Repr, Inhabited

/-- A function without its body. Constructors and destructors have no result. -/
structure Prototype where
  result : Option String
  name : String
  params : List Param
  deriving DecidableEq, Repr, Inhabited

/-- A function with its body; `owner` is the class it belongs to. -/
structure Definition where
  prototype : Prototype
  owner : Option String := none
  /-- Members that a constructor initializes, with their arguments. -/
  initializers : List (String × String) := []
  body : List Stmt
  deriving Repr, Inhabited

/-- What a struct holds: variables, and structs defined in place, which may name a variable too. -/
inductive Field where
  | plain (v : Variable)
  | definition (name : String) (fields : List Field) (object : Option String)
  deriving Repr, Inhabited

inductive Member where
  | function (prototype : Prototype)
  | data (v : Variable)
  | comment (text : String)
  | blank
  deriving Repr, Inhabited

structure Klass where
  name : String
  base : String
  visible : List Member
  hidden : List Member
  deriving Repr, Inhabited

inductive Item where
  | line (text : String)
  | comment (text : String)
  | blank
  | record (name : String) (fields : List Field)
  | klass (klass : Klass)
  | function (definition : Definition)
  deriving Repr, Inhabited

end BusStub.Code
