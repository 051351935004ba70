import BusStub.Model.Merge
import BusStub.Registry
import BusStub.Text.Upper

/-! Everything that the emitters need to know about one object. Making a plan reads every signature
and refuses names that would clash, so emitters cannot fail. -/

namespace BusStub

structure TypedArg where
  arg : Arg
  type : BusType

structure TypedMethod where
  method : Method
  /-- The concrete interface that declares the method. -/
  interface : String
  /-- Calls are encrypted: the method or its interface is marked secure. -/
  secure : Bool
  args : List TypedArg

structure TypedSignal where
  signal : Signal
  interface : String
  secure : Bool
  args : List TypedArg

structure TypedProperty where
  property : Property
  interface : String
  type : BusType

structure Plan where
  node : ObjectNode
  registry : Registry
  /-- The bus name that the service requests, when it has one. -/
  busName : Option String
  methods : List TypedMethod := []
  signals : List TypedSignal := []
  properties : List TypedProperty := []

namespace TypedArg

def name (arg : TypedArg) : String :=
  arg.arg.name

def slot (arg : TypedArg) : Slot :=
  Slot.of arg.type

def params (arg : TypedArg) (direction : Direction) : List Code.Param :=
  arg.slot.params arg.name direction

def arguments (arg : TypedArg) : List Code.Expr :=
  arg.slot.arguments arg.name

end TypedArg

namespace TypedMethod

def name (method : TypedMethod) : String :=
  method.method.name

def expectsReply (method : TypedMethod) : Bool :=
  !method.method.noReply

def inArgs (method : TypedMethod) : List TypedArg :=
  method.args.filter (·.arg.direction = .input)

def outArgs (method : TypedMethod) : List TypedArg :=
  method.args.filter (·.arg.direction = .output)

/-- Parameters in the order of declaration, each with its own direction. -/
def params (method : TypedMethod) : List Code.Param :=
  method.args.flatMap fun arg => arg.params arg.arg.direction

def arguments (method : TypedMethod) : List Code.Expr :=
  method.args.flatMap TypedArg.arguments

end TypedMethod

namespace TypedSignal

def name (signal : TypedSignal) : String :=
  signal.signal.name

/-- A signal's arguments are inputs of whoever handles it. -/
def params (signal : TypedSignal) : List Code.Param :=
  signal.args.flatMap fun arg => arg.params .input

def arguments (signal : TypedSignal) : List Code.Expr :=
  signal.args.flatMap TypedArg.arguments

end TypedSignal

namespace TypedProperty

def name (property : TypedProperty) : String :=
  property.property.name

def slot (property : TypedProperty) : Slot :=
  Slot.of property.type

def params (property : TypedProperty) (direction : Direction) : List Code.Param :=
  property.slot.params property.name direction

end TypedProperty

/-- Names that generated code declares next to arguments and properties. -/
def reservedNames : List String :=
  ["args", "destination", "iface", "ifcName", "member", "msg", "myBusAttachment", "numArgs", "propName",
   "propValue", "proxyBusObj", "replyMsg", "returnArgs", "serviceName", "sessionId", "srcPath", "status", "val"]

def isCounterName (name : String) : Bool :=
  match name.toList with
  | 'i' :: digits => !digits.isEmpty && digits.all Char.isDigit
  | _ => false

def isReserved (name : String) : Bool :=
  reservedNames.contains name || isCounterName name

namespace Plan

def checkName (member name : String) : Except StubError Unit :=
  if isReserved name then .error (.reserved member name) else .ok ()

def typeArg (member : String) (arg : Arg) : Except StubError TypedArg := do
  checkName member arg.name
  let type ← arg.parse member
  return ⟨arg, type⟩

/-- Fails when a member of the kind already has the name. -/
def checkOwner (kind : MemberKind) (name : String) (owner : Option String) (interface : String) :
    Except StubError Unit :=
  match owner with
  | some first => .error (.duplicate kind name first interface)
  | none => .ok ()

def addMethod (interface : Interface) (plan : Plan) (method : Method) : Except StubError Plan := do
  let owner := (plan.methods.find? (·.name = method.name)).map TypedMethod.interface
  checkOwner .method method.name owner interface.name
  let args ← method.args.mapM (typeArg (MemberKind.method.label method.name))
  return { plan with methods := plan.methods ++ [⟨method, interface.name, method.secure || interface.secure, args⟩] }

def addSignal (interface : Interface) (plan : Plan) (signal : Signal) : Except StubError Plan := do
  let owner := (plan.signals.find? (·.name = signal.name)).map TypedSignal.interface
  checkOwner .signal signal.name owner interface.name
  let args ← signal.args.mapM (typeArg (MemberKind.signal.label signal.name))
  return { plan with signals := plan.signals ++ [⟨signal, interface.name, signal.secure || interface.secure, args⟩] }

def addProperty (interface : Interface) (plan : Plan) (property : Property) : Except StubError Plan := do
  let owner := (plan.properties.find? (·.name = property.name)).map TypedProperty.interface
  checkOwner .property property.name owner interface.name
  let typed ← typeArg (MemberKind.property.label property.name) property.arg
  return { plan with properties := plan.properties ++ [⟨property, interface.name, typed.type⟩] }

def addInterface (plan : Plan) (interface : Interface) : Except StubError Plan := do
  let plan ← interface.methods.foldlM (addMethod interface) plan
  let plan ← interface.signals.foldlM (addSignal interface) plan
  interface.properties.foldlM (addProperty interface) plan

def make (node : ObjectNode) (registry : Registry) (busName : Option String) : Except StubError Plan :=
  node.interface.concrete.foldlM addInterface { node, registry, busName }

def name (plan : Plan) : String :=
  plan.node.name

def macroName (plan : Plan) : String :=
  Text.upper plan.name

def clientClass (plan : Plan) : String :=
  plan.name ++ "Client"

def serviceClass (plan : Plan) : String :=
  plan.name ++ "Service"

def typesHeader (plan : Plan) : String :=
  plan.name ++ "Types.h"

def pathConstant (plan : Plan) : String :=
  plan.macroName ++ "_OBJECT_PATH"

def busNameConstant (plan : Plan) : String :=
  plan.macroName ++ "_WELL_KNOWN_NAME"

end Plan
end BusStub
