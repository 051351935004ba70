import BusStub.Json
import BusStub.Registry

/-! Types and registries as JSON. They are only written. -/

namespace BusStub

def Scalar.toJson (kind : Scalar) : Json :=
  .string kind.name

mutual
def BusType.toJson : BusType → Json
  | .basic kind => .object [("basic", kind.toJson)]
  | .variant => .string "variant"
  | .struct members => .object [("struct", .array (BusType.allToJson members))]
  | .array element => .object [("array", element.toJson)]
  | .dict key value => .object [("dict-entry", .object [("key", key.toJson), ("value", value.toJson)])]
termination_by structural type => type

def BusType.allToJson : List BusType → List Json
  | [] => []
  | type :: rest => type.toJson :: BusType.allToJson rest
termination_by structural types => types
end

def CompositeKind.name : CompositeKind → String
  | struct => "struct"
  | dict => "dict-entry"
  | array => "composite-array"

def Composite.toJson (entry : Composite) : Json :=
  .object [("kind", .string entry.kind.name), ("arg-name", .string entry.argName),
    ("signature", .string entry.signature), ("type-name", .string entry.typeName),
    ("declared", entry.declared.toJson)]

def Registry.toJson (registry : Registry) : Json :=
  .object [("interface", (registry.interface.map Json.string).getD .null),
    ("structs", .array (registry.structs.map Composite.toJson)),
    ("dict-entries", .array (registry.dicts.map Composite.toJson)),
    ("composite-arrays", .array (registry.arrays.map Composite.toJson))]

end BusStub
