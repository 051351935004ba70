/-! Places of generated code: the expressions through which a value is reached. A place keeps its way
from the root, so that two places can be compared step by step and not only as texts. -/

namespace BusStub

/-- The loop counter used `depth` loops below the outermost one. -/
def counter (depth : Nat) : String :=
  "i" ++ toString depth

inductive Place where
  | root (text : String)
  | field (base : Place) (name : String)
  /-- The element that the counter of a loop stands at. -/
  | element (base : Place) (depth : Nat)
  /-- The element at a fixed index. -/
  | item (base : Place) (index : Nat)
  deriving DecidableEq, Repr, Inhabited

namespace Place

def text : Place → String
  | .root text => text
  | .field base name => base.text ++ "." ++ name
  | .element base depth => base.text ++ "[" ++ counter depth ++ "]"
  | .item base index => base.text ++ "[" ++ toString index ++ "]"

end Place

/-- The stem of a temporary's name: index brackets vanish and dots become underscores. -/
def flat (text : String) : String :=
  String.ofList ((text.toList.filter fun c => c != '[' && c != ']').map fun c => if c = '.' then '_' else c)

/-- The variable that tells how many elements a counted value has is named after the value. -/
def countName (name : String) : String :=
  name ++ "NumElements"

end BusStub
