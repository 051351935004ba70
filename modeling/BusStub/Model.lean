/-! The model of bus objects: what an object offers, through which interfaces. An object with several
interfaces has one derived interface whose parents are the ones that exist on the bus. -/

namespace BusStub

inductive Direction where
  | input | output
  deriving DecidableEq, Repr, Inhabited

/-- The direction that an attribute value stands for; without a value, and when it is `unset`, the
argument is an input. -/
def Direction.ofAttribute? : Option String → Option Direction
  | none | some "" | some "in" | some "unset" => some .input
  | some "out" => some .output
  | some _ => none

def Direction.name : Direction → String
  | .input => "in"
  | .output => "out"

inductive Access where
  | read | write | readWrite
  deriving DecidableEq, Repr, Inhabited

namespace Access

def name : Access → String
  | read => "read" | write => "write" | readWrite => "readwrite"

def ofName? : String → Option Access
  | "read" => some read
  | "write" => some write
  | "readwrite" => some readWrite
  | _ => none

def readable : Access → Bool
  | read | readWrite => true
  | write => false

def writable : Access → Bool
  | write | readWrite => true
  | read => false

end Access

/-- A named argument of a method or signal, or a property seen as one. -/
structure Arg where
  name : String
  signature : String
  direction : Direction := .input
  /-- The types that a variant argument is said to hold. -/
  variantHint : Option String := none
  deriving DecidableEq, Repr, Inhabited

structure Method where
  name : String
  args : List Arg := []
  noReply : Bool := false
  secure : Bool := false
  deriving DecidableEq, Repr, Inhabited

structure Signal where
  name : String
  args : List Arg := []
  secure : Bool := false
  deriving DecidableEq, Repr, Inhabited

structure Property where
  name : String
  signature : String
  access : Access
  deriving DecidableEq, Repr, Inhabited

structure Interface where
  name : String
  methods : List Method := []
  signals : List Signal := []
  properties : List Property := []
  secure : Bool := false
  parents : List Interface := []
  deriving Repr, Inhabited

/-- An object on the bus. Generated classes and files are named after it. -/
structure ObjectNode where
  name : String
  path : String
  interface : Interface
  deriving Repr, Inhabited

namespace Method

def inArgs (method : Method) : List Arg :=
  method.args.filter (·.direction = .input)

def outArgs (method : Method) : List Arg :=
  method.args.filter (·.direction = .output)

def inSignature (method : Method) : String :=
  String.join (method.inArgs.map Arg.signature)

def outSignature (method : Method) : String :=
  String.join (method.outArgs.map Arg.signature)

/-- The argument names as an interface description wants them, inputs first. -/
def argNames (method : Method) : String :=
  String.intercalate "," ((method.inArgs ++ method.outArgs).map Arg.name)

def hasArg (method : Method) (name : String) : Bool :=
  method.args.any (·.name = name)

end Method

namespace Signal

def signature (signal : Signal) : String :=
  String.join (signal.args.map Arg.signature)

def argNames (signal : Signal) : String :=
  String.intercalate "," (signal.args.map Arg.name)

def hasArg (signal : Signal) (name : String) : Bool :=
  signal.args.any (·.name = name)

end Signal

namespace Property

def readable (property : Property) : Bool :=
  property.access.readable

def writable (property : Property) : Bool :=
  property.access.writable

/-- The property as an argument, which is what its reader gets back. -/
def arg (property : Property) : Arg :=
  { name := property.name, signature := property.signature, direction := .output }

end Property
end BusStub
