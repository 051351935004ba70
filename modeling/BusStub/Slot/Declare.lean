import BusStub.Slot
import BusStub.Model
import BusStub.Code.Build

/-! The variables, parameters and struct definitions that keep a value. A composite value named `x` is
kept in a struct called `xStruct` or `xDictEntry`, defined at the top of a file or in place. -/

namespace BusStub
open Code

namespace Slot

/-- The name of the struct that keeps one element of the value, if it needs one. -/
def recordName? (name : String) : Slot → Option String
  | .struct _ | .structs _ => some (name ++ "Struct")
  | .dict _ _ => some (name ++ "DictEntry")
  | _ => none

/-- The type of one element of a value, whose struct is defined inside those of `scope`. -/
def elementType (scope : List String) (name : String) : Slot → TypeName
  | .scalar kind | .scalars kind => .scalar kind
  | .variant | .boxed _ => .message
  | .struct _ | .structs _ => .composite (scope ++ [name ++ "Struct"])
  | .dict _ _ => .composite (scope ++ [name ++ "DictEntry"])

/-- The variables that keep a value called `name`. -/
def locals (slot : Slot) (name : String) : List Variable :=
  let type := slot.elementType [] name
  if slot.isCounted then [⟨.pointer type, name⟩, ⟨⟨.size, false, 0⟩, countName name⟩]
  else [⟨⟨type, false, 0⟩, name⟩]

/-- The parameters that take a value in or hand one out. -/
def params (slot : Slot) (name : String) (direction : Direction) : List Param :=
  let type := slot.elementType [] name
  match slot.isCounted, direction with
  | false, .input => [{ type := ⟨type, false, 0⟩, name }]
  | false, .output => [{ type := ⟨type, false, 0⟩, name, passing := .result }]
  | true, .input =>
    [{ type := .constPointer type, name }, { type := ⟨.size, false, 0⟩, name := countName name }]
  | true, .output =>
    [{ type := .pointer type, name, passing := .result },
     { type := ⟨.size, false, 0⟩, name := countName name, passing := .result }]

/-- The expressions that pass a value on to a function with `params`. -/
def arguments (slot : Slot) (name : String) : List Expr :=
  let place := Place.root name
  if slot.isCounted then [.place place, .count place] else [.place place]

end Slot

mutual
/-- The fields that keep a value called `name` inside a struct, with the definitions they need. -/
def Slot.fields (name : String) : Slot → List Field
  | .struct fields => [.definition (name ++ "Struct") fields.declared (some name)]
  | .structs fields =>
    .definition (name ++ "Struct") fields.declared none ::
      ((Slot.structs fields).locals name).map .plain
  | .dict key value =>
    .definition (name ++ "DictEntry") (.plain ⟨⟨.scalar key, false, 0⟩, "key"⟩ :: value.fields "value") none ::
      ((Slot.dict key value).locals name).map .plain
  | .scalar kind => ((Slot.scalar kind).locals name).map .plain
  | .variant => (Slot.variant.locals name).map .plain
  | .boxed type => ((Slot.boxed type).locals name).map .plain
  | .scalars kind => ((Slot.scalars kind).locals name).map .plain
termination_by structural slot => slot

def Fields.declared : Fields → List Field
  | .nil => []
  | .cons name slot rest => slot.fields name ++ rest.declared
termination_by structural fields => fields
end

def Slot.entryFields (key : Scalar) (value : Slot) : List Field :=
  .plain ⟨⟨.scalar key, false, 0⟩, "key"⟩ :: value.fields "value"

/-- What is in the struct declared for a struct or dictionary type; other types declare none. -/
def Slot.record? : Slot → Option (List Field)
  | .struct fields => some fields.declared
  | .dict key value => some (Slot.entryFields key value)
  | _ => none

end BusStub
