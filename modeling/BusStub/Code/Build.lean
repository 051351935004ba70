import BusStub.Code.Syntax

/-! Short ways to build the trees that emitters use most. -/

namespace BusStub.Code

namespace TypeName

/-- The type of message arguments, which hold any value. -/
def message : TypeName := .plain "MsgArg"

def size : TypeName := .plain "size_t"

def character : TypeName := .plain "char"

end TypeName

namespace CType

def plain (text : String) : CType :=
  ⟨.plain text, false, 0⟩

def pointer (name : TypeName) : CType :=
  ⟨name, false, 1⟩

def constPointer (name : TypeName) : CType :=
  ⟨name, true, 1⟩

end CType

namespace Expr

def null : Expr := .name "NULL"

def apply (function : String) (args : List Expr) : Expr :=
  .call (.name function) args

def send (object : Expr) (function : String) (args : List Expr) : Expr :=
  .call (.member object function) args

/-- A call of a member function through a pointer. -/
def sendTo (pointer : Expr) (function : String) (args : List Expr) : Expr :=
  .call (.arrow pointer function) args

def equal (left right : Expr) : Expr :=
  .binary .equal left right

def unequal (left right : Expr) : Expr :=
  .binary .unequal left right

def isNull (pointer : Expr) : Expr :=
  equal pointer null

end Expr

namespace Stmt

/-- Leaves the function when a status is not a success. -/
def returnOnError (status : String) : Stmt :=
  .branch (.unequal (.name status) (.name "ER_OK")) [.ret (.name status)]

/-- Leaves the function with an error when a pointer is null. -/
def returnIfNull (pointer error : String) : Stmt :=
  .branch (.isNull (.name pointer)) [.ret (.name error)]

end Stmt
end BusStub.Code
