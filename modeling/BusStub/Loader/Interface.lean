import BusStub.Loader.Error
import BusStub.Model
import BusStub.Xml.Element

/-! Interfaces as elements of a document describe them. Elements with other tags and attributes with
other names are passed over. -/

namespace BusStub

inductive Marking where
  | noReply | secure | itemSecure | variantTypes
  deriving DecidableEq, Repr, Inhabited

def Marking.name : Marking → String
  | noReply => "org.freedesktop.DBus.Method.NoReply"
  | secure => "org.alljoyn.Bus.Secure"
  | itemSecure => "org.alljoyn.Bus.Item.IsSecure"
  | variantTypes => "org.alljoyn.Bus.Arg.VariantTypes"

/-- Reading that may remark on what it finds before it fails or succeeds. -/
abbrev Reading := ExceptT LoadError (StateM (List LoadWarning))

namespace Reading

def warn (warning : LoadWarning) : Reading Unit :=
  modify (· ++ [warning])

end Reading

namespace Xml.Element

/-- An attribute that must be there and hold something. -/
def required (element : Element) (key : String) : Except LoadError String :=
  let value := element.attributeD key
  if value.isEmpty then .error (.missingAttribute element.tag key) else .ok value

/-- The element is an annotation of the given name that says yes. -/
def asserts (element : Element) (marking : Marking) : Bool :=
  element.attribute? "name" = some marking.name && element.attribute? "value" = some "true"

/-- What the first annotation about variant types among the children says. -/
def variantHint? (element : Element) : Option String :=
  (element.children.find? fun child =>
    child.tag = "annotation" && child.attribute? "name" = some Marking.variantTypes.name).bind
      (·.attribute? "value")

end Xml.Element

/-- What unnamed arguments are called, apart from their number. -/
inductive ArgRole where
  | input | output | signal
  deriving DecidableEq, Repr, Inhabited

namespace ArgRole

def stem : ArgRole → String
  | input => "inputArg"
  | output => "outputArg"
  | signal => "signalArg"

def direction : ArgRole → Direction
  | input | signal => .input
  | output => .output

end ArgRole

/-- How many unnamed arguments of each role have been numbered. -/
structure Unnamed where
  inputs : Nat := 0
  outputs : Nat := 0
  signals : Nat := 0
  deriving DecidableEq, Repr, Inhabited

namespace Unnamed

def count (unnamed : Unnamed) : ArgRole → Nat
  | .input => unnamed.inputs
  | .output => unnamed.outputs
  | .signal => unnamed.signals

def next (unnamed : Unnamed) : ArgRole → Unnamed
  | .input => { unnamed with inputs := unnamed.inputs + 1 }
  | .output => { unnamed with outputs := unnamed.outputs + 1 }
  | .signal => { unnamed with signals := unnamed.signals + 1 }

end Unnamed

namespace Arg

/-- The name of an argument, and the numbering after it. Only lax reading invents names. -/
def nameOf (lax : Bool) (member : String) (role : ArgRole) (unnamed : Unnamed) (element : Xml.Element) :
    Except LoadError (String × Unnamed) :=
  let name := element.attributeD "name"
  if !name.isEmpty then .ok (name, unnamed)
  else if lax then .ok (role.stem ++ toString (unnamed.count role), unnamed.next role)
  else .error (.unnamedArg member)

def ofElement (lax : Bool) (member : String) (role : ArgRole) (unnamed : Unnamed) (element : Xml.Element) :
    Except LoadError (Arg × Unnamed) := do
  let signature ← element.required "type"
  let (name, unnamed) ← nameOf lax member role unnamed element
  return ({ name, signature, direction := role.direction, variantHint := element.variantHint? }, unnamed)

end Arg

namespace Method

def roleOf (member : String) (element : Xml.Element) : Except LoadError ArgRole :=
  let written := element.attribute? "direction"
  match Direction.ofAttribute? written with
  | some .input => .ok .input
  | some .output => .ok .output
  | none => .error (.invalidDirection member (element.attributeD "name") (written.getD ""))

def takeChild (lax : Bool) (state : Method × Unnamed) (child : Xml.Element) :
    Except LoadError (Method × Unnamed) :=
  let (method, unnamed) := state
  let member := "method " ++ method.name
  match child.tag with
  | "arg" => do
    let role ← roleOf member child
    let (arg, unnamed) ← Arg.ofElement lax member role unnamed child
    if method.hasArg arg.name then throw (.duplicateArg member arg.name)
    return ({ method with args := method.args ++ [arg] }, unnamed)
  | "annotation" =>
    if child.asserts .noReply then .ok ({ method with noReply := true }, unnamed)
    else if child.asserts .itemSecure then .ok ({ method with secure := true }, unnamed)
    else .ok state
  | _ => .ok state

def ofElement (lax : Bool) (element : Xml.Element) : Except LoadError Method := do
  let name ← element.required "name"
  let (method, _) ← element.children.foldlM (takeChild lax) ({ name }, {})
  return method

end Method

namespace Signal

/-- A signal's argument is said to have a direction. -/
def isDirected (element : Xml.Element) : Bool :=
  match element.attribute? "direction" with
  | some value => value != "unset"
  | none => false

def takeChild (lax : Bool) (state : Signal × Unnamed) (child : Xml.Element) : Reading (Signal × Unnamed) :=
  let (signal, unnamed) := state
  let member := "signal " ++ signal.name
  match child.tag with
  | "arg" => do
    let (arg, unnamed) ← Arg.ofElement lax member .signal unnamed child
    if isDirected child then Reading.warn (.signalDirection arg.name signal.name)
    if signal.hasArg arg.name then throw (.duplicateArg member arg.name)
    return ({ signal with args := signal.args ++ [arg] }, unnamed)
  | "annotation" =>
    if child.asserts .itemSecure then return ({ signal with secure := true }, unnamed) else return state
  | _ => return state

def ofElement (lax : Bool) (element : Xml.Element) : Reading Signal := do
  let name ← element.required "name"
  let (signal, _) ← element.children.foldlM (takeChild lax) ({ name }, {})
  return signal

end Signal

def Property.ofElement (element : Xml.Element) : Except LoadError Property := do
  let name ← element.required "name"
  let signature ← element.required "type"
  let access ← element.required "access"
  match Access.ofName? access with
  | some access => return { name, signature, access }
  | none => throw (.invalidAccess name access)

namespace Interface

def takeChild (lax : Bool) (interface : Interface) (child : Xml.Element) : Reading Interface :=
  match child.tag with
  | "method" => do
    let method ← Method.ofElement lax child
    return { interface with methods := interface.methods ++ [method] }
  | "signal" => do
    let signal ← Signal.ofElement lax child
    return { interface with signals := interface.signals ++ [signal] }
  | "property" => do
    let property ← Property.ofElement child
    return { interface with properties := interface.properties ++ [property] }
  | "annotation" =>
    return { interface with secure := interface.secure || child.asserts .itemSecure || child.asserts .secure }
  | _ => return interface

def ofElement (lax : Bool) (element : Xml.Element) : Reading Interface := do
  let name ← element.required "name"
  element.children.foldlM (takeChild lax) { name }

end Interface
end BusStub
