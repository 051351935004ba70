import BusStub.Json.Read
import BusStub.Model

/-! The model as JSON. Everything is written except empty lists of parents and missing variant hints;
what is not written when it has its default need not be there to be read. -/

namespace BusStub

namespace Direction

def toJson (direction : Direction) : Json :=
  .string direction.name

def ofJson? (json : Json) : Option Direction :=
  json.tag?.bind fun
    | "in" => some input
    | "out" => some output
    | _ => none

end Direction

namespace Access

def toJson (access : Access) : Json :=
  .string access.name

def ofJson? (json : Json) : Option Access :=
  json.tag?.bind ofName?

end Access

namespace Arg

def fieldNames : List String :=
  ["name", "signature", "direction", "variant-hint"]

def toJson (arg : Arg) : Json :=
  .object <|
    [("name", .string arg.name), ("signature", .string arg.signature), ("direction", arg.direction.toJson)] ++
    match arg.variantHint with
    | none => []
    | some hint => [("variant-hint", .string hint)]

def ofJson? (json : Json) : Option Arg := do
  let fields ← json.fields? fieldNames
  let name ← Json.required fields "name" Json.text?
  let signature ← Json.required fields "signature" Json.text?
  let direction ← Json.optional fields "direction" Direction.ofJson? .input
  let variantHint ← Json.optional fields "variant-hint" Json.maybeText? none
  return { name, signature, direction, variantHint }

end Arg

namespace Method

def fieldNames : List String :=
  ["name", "args", "no-reply", "secure"]

def toJson (method : Method) : Json :=
  .object [("name", .string method.name), ("args", .array (method.args.map Arg.toJson)),
    ("no-reply", .bool method.noReply), ("secure", .bool method.secure)]

def ofJson? (json : Json) : Option Method := do
  let fields ← json.fields? fieldNames
  let name ← Json.required fields "name" Json.text?
  let args ← Json.optional fields "args" (Json.list? Arg.ofJson?) []
  let noReply ← Json.optional fields "no-reply" Json.flag? false
  let secure ← Json.optional fields "secure" Json.flag? false
  return { name, args, noReply, secure }

end Method

namespace Signal

def fieldNames : List String :=
  ["name", "args", "secure"]

def toJson (signal : Signal) : Json :=
  .object [("name", .string signal.name), ("args", .array (signal.args.map Arg.toJson)),
    ("secure", .bool signal.secure)]

def ofJson? (json : Json) : Option Signal := do
  let fields ← json.fields? fieldNames
  let name ← Json.required fields "name" Json.text?
  let args ← Json.optional fields "args" (Json.list? Arg.ofJson?) []
  let secure ← Json.optional fields "secure" Json.flag? false
  return { name, args, secure }

end Signal

namespace Property

def fieldNames : List String :=
  ["name", "signature", "access"]

def toJson (property : Property) : Json :=
  .object [("name", .string property.name), ("signature", .string property.signature),
    ("access", property.access.toJson)]

def ofJson? (json : Json) : Option Property := do
  let fields ← json.fields? fieldNames
  let name ← Json.required fields "name" Json.text?
  let signature ← Json.required fields "signature" Json.text?
  let access ← Json.required fields "access" Access.ofJson?
  return { name, signature, access }

end Property

namespace Interface

def fieldNames : List String :=
  ["name", "methods", "signals", "properties", "secure", "parents"]

def ownFields (interface : Interface) : List (String × Json) :=
  [("name", .string interface.name), ("methods", .array (interface.methods.map Method.toJson)),
   ("signals", .array (interface.signals.map Signal.toJson)),
   ("properties", .array (interface.properties.map Property.toJson)), ("secure", .bool interface.secure)]

def parentFields (parents : List Json) : List (String × Json) :=
  if parents.isEmpty then [] else [("parents", .array parents)]

mutual
def toJson : Interface → Json
  | ⟨name, methods, signals, properties, secure, parents⟩ =>
    .object (ownFields ⟨name, methods, signals, properties, secure, []⟩ ++ parentFields (allToJson parents))
termination_by structural interface => interface

def allToJson : List Interface → List Json
  | [] => []
  | interface :: rest => interface.toJson :: allToJson rest
termination_by structural interfaces => interfaces
end

/-- An interface from its fields, once its parents have been read. -/
def ofFields? (fields : List (String × Json)) (parents : List Interface) : Option Interface := do
  let name ← Json.required fields "name" Json.text?
  let methods ← Json.optional fields "methods" (Json.list? Method.ofJson?) []
  let signals ← Json.optional fields "signals" (Json.list? Signal.ofJson?) []
  let properties ← Json.optional fields "properties" (Json.list? Property.ofJson?) []
  let secure ← Json.optional fields "secure" Json.flag? false
  return { name, methods, signals, properties, secure, parents }

mutual
def ofJson? : Json → Option Interface
  | .object fields => (parentsNamed? fields).bind (ofFields? fields)
  | .array items =>
    if items.length ≤ fieldNames.length then
      (parentsAt? 5 items).bind (ofFields? (fieldNames.zip items))
    else none
  | _ => none
termination_by structural json => json

def parentsNamed? : List (String × Json) → Option (List Interface)
  | [] => some []
  | (name, value) :: rest => if name = "parents" then listOfJson? value else parentsNamed? rest
termination_by structural fields => fields

/-- The parents of an interface whose fields are given by position. -/
def parentsAt? (position : Nat) : List Json → Option (List Interface)
  | [] => some []
  | value :: rest => match position with
    | 0 => listOfJson? value
    | position + 1 => parentsAt? position rest
termination_by structural items => items

def listOfJson? : Json → Option (List Interface)
  | .array items => allOfJson? items
  | _ => none
termination_by structural json => json

def allOfJson? : List Json → Option (List Interface)
  | [] => some []
  | json :: rest => (ofJson? json).bind fun interface => (allOfJson? rest).map (interface :: ·)
termination_by structural items => items
end

end Interface

namespace ObjectNode

def fieldNames : List String :=
  ["name", "path", "interface"]

def toJson (node : ObjectNode) : Json :=
  .object [("name", .string node.name), ("path", .string node.path), ("interface", node.interface.toJson)]

def ofJson? (json : Json) : Option ObjectNode := do
  let fields ← json.fields? fieldNames
  let name ← Json.required fields "name" Json.text?
  let path ← Json.required fields "path" Json.text?
  let interface ← Json.required fields "interface" Interface.ofJson?
  return { name, path, interface }

end ObjectNode
end BusStub
