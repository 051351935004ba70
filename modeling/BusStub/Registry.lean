import BusStub.Model
import BusStub.Signature.Scan
import BusStub.Slot.Declare
import BusStub.Stub.Error

/-! The composite types of one interface. Every argument and property whose type is a struct, a
dictionary or an array of either is entered once; its type is declared under a name made of the
argument's name, and no name may stand for two types. -/

namespace BusStub

inductive CompositeKind where
  | struct | dict | array
  deriving DecidableEq, Repr, Inhabited

/-- A composite type and the argument that brought it in. -/
structure Composite where
  kind : CompositeKind
  argName : String
  /-- The whole signature of the argument. -/
  signature : String
  typeName : String
  /-- The struct or dictionary declared under the name; for an array, what its levels hold. -/
  declared : BusType
  deriving Repr, Inhabited

structure Registry where
  interface : Option String := none
  structs : List Composite := []
  dicts : List Composite := []
  arrays : List Composite := []
  /-- The signature that each type name stands for. -/
  names : List (String × String) := []
  deriving Repr, Inhabited

/-- Arguments and properties in the order in which types are discovered, with their members' labels. -/
def Interface.values (interface : Interface) : List (String × Arg) :=
  (interface.methods.flatMap fun m => m.args.map fun arg => (MemberKind.method.label m.name, arg)) ++
  (interface.signals.flatMap fun s => s.args.map fun arg => (MemberKind.signal.label s.name, arg)) ++
  (interface.properties.map fun p => (MemberKind.property.label p.name, p.arg))

namespace Composite

/-- The composite that an argument of a type brings in, with the signature its name stands for. -/
def ofArg? (arg : Arg) (type : BusType) : Option (Composite × String) :=
  let struct (kind : CompositeKind) (declared : BusType) : Composite × String :=
    (⟨kind, arg.name, arg.signature, arg.name ++ "Struct", declared⟩, Scan.innerStruct arg.signature)
  let dict (kind : CompositeKind) (declared : BusType) : Composite × String :=
    (⟨kind, arg.name, arg.signature, arg.name ++ "DictEntry", declared⟩, Scan.innerDict arg.signature)
  match Scan.shape arg.signature with
  | .struct => some (struct .struct type)
  | .dict => some (dict .dict type)
  | .array => match type.peel.1 with
    | .struct members => some (struct .array (.struct members))
    | .dict key value => some (dict .array (.dict key value))
    | _ => none
  | .basic _ | .variant | .other => none

end Composite

namespace Registry

def entries (registry : Registry) : CompositeKind → List Composite
  | .struct => registry.structs
  | .dict => registry.dicts
  | .array => registry.arrays

def push (registry : Registry) (entry : Composite) : Registry :=
  match entry.kind with
  | .struct => { registry with structs := registry.structs ++ [entry] }
  | .dict => { registry with dicts := registry.dicts ++ [entry] }
  | .array => { registry with arrays := registry.arrays ++ [entry] }

/-- Enters a composite whose name stands for the given signature. -/
def insert (registry : Registry) (entry : Composite) (signature : String) : Except StubError Registry :=
  let seen := (registry.entries entry.kind).any fun other =>
    other.argName = entry.argName && other.signature = entry.signature
  if seen then .ok registry
  else match registry.names.lookup entry.typeName with
    | some existing =>
      if existing = signature then .ok (registry.push entry)
      else .error (.collision entry.typeName existing signature)
    | none => .ok ({ registry with names := registry.names ++ [(entry.typeName, signature)] }.push entry)

def consider (registry : Registry) (value : String × Arg) : Except StubError Registry := do
  let (member, arg) := value
  let type ← arg.parse member
  match Composite.ofArg? arg type with
  | none => .ok registry
  | some (entry, signature) => registry.insert entry signature

def scan (registry : Registry) (interface : Interface) : Except StubError Registry :=
  interface.values.foldlM consider { registry with interface := some interface.name }

def discover (interface : Interface) : Except StubError Registry :=
  scan {} interface

def clear (registry : Registry) : Registry :=
  { registry with interface := none, structs := [], dicts := [], arrays := [], names := [] }

/-- Forgets what is known and describes another interface. After an error the registry is empty. -/
def restart (registry : Registry) (interface : Interface) : Registry × Option StubError :=
  match registry.clear.scan interface with
  | .ok described => (described, none)
  | .error error => (registry.clear, some error)

/-- Keeps the first entry of each type name. -/
def firstPerName (seen : List String) : List Composite → List Composite
  | [] => []
  | entry :: rest =>
    if seen.contains entry.typeName then firstPerName seen rest
    else entry :: firstPerName (entry.typeName :: seen) rest

/-- The types to declare: structs, then dictionaries, then array elements, each name once. -/
def declarations (registry : Registry) : List Composite :=
  firstPerName [] (registry.structs ++ registry.dicts ++ registry.arrays)

end Registry

namespace Composite

def description : CompositeKind → String
  | .struct => "struct"
  | .dict => "dictionary entry"
  | .array => "array element"

/-- The declaration of a composite, after a comment that tells where it comes from. -/
def items (entry : Composite) : List Code.Item :=
  match (Slot.of entry.declared).record? with
  | none => []
  | some fields =>
    [.comment (description entry.kind ++ " for \"" ++ entry.argName ++ "\" with signature " ++ entry.signature),
     .record entry.typeName fields,
     .blank]

end Composite

def Registry.items (registry : Registry) : List Code.Item :=
  registry.declarations.flatMap Composite.items

end BusStub
