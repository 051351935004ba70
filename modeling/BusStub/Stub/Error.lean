import BusStub.Model
import BusStub.Signature.Parse

/-! Why no stubs can be generated for an object. -/

namespace BusStub

inductive MemberKind where
  | method | signal | property
  deriving DecidableEq, Repr, Inhabited

def MemberKind.name : MemberKind → String
  | method => "method"
  | signal => "signal"
  | property => "property"

def MemberKind.label (kind : MemberKind) (member : String) : String :=
  kind.name ++ " " ++ member

inductive StubError where
  | signature (member arg : String) (cause : SignatureError)
  /-- Two different types would be declared under one name. -/
  | collision (name existing conflicting : String)
  /-- Two members of one kind share a name; all members of an object end up in one class. -/
  | duplicate (kind : MemberKind) (name first second : String)
  /-- The name is taken by the code around it. -/
  | reserved (member name : String)
  deriving DecidableEq, Repr

def StubError.message : StubError → String
  | .signature member arg cause =>
    "invalid signature for '" ++ arg ++ "' in " ++ member ++ ": " ++ cause.message
  | .collision name existing conflicting =>
    "multiple containers with name '" ++ name ++ "': '" ++ existing ++ "' and '" ++ conflicting ++
      "' would both declare it"
  | .duplicate kind name first second =>
    kind.name ++ " '" ++ name ++ "' is declared by both " ++ first ++ " and " ++ second
  | .reserved member name =>
    "'" ++ name ++ "' in " ++ member ++ " clashes with a name the generated code declares"

/-- The messages from the error to its root cause. -/
def StubError.chain (error : StubError) : List String :=
  match error with
  | .signature _ _ cause => [error.message, cause.message]
  | _ => [error.message]

def Arg.parse (arg : Arg) (member : String) : Except StubError BusType :=
  match BusType.parse arg.signature with
  | .ok type => .ok type
  | .error cause => .error (.signature member arg.name cause)

end BusStub
