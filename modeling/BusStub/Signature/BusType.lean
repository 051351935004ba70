import BusStub.Signature.Scalar

/-! The types of values on the bus and their written form, the signature. A dictionary is an array
of entries and is written `a{KV}`; its entry counts as no level of its own. -/

namespace BusStub

inductive BusType where
  | basic (kind : Scalar)
  | variant
  | struct (members : List BusType)
  | array (element : BusType)
  | dict (key : Scalar) (value : BusType)
  deriving Repr, Inhabited

namespace BusType

mutual
def chars : BusType → List Char
  | .basic kind => [kind.code]
  | .variant => ['v']
  | .struct members => '(' :: charsAll members ++ [')']
  | .array element => 'a' :: element.chars
  | .dict key value => 'a' :: '{' :: key.code :: value.chars ++ ['}']
termination_by structural type => type

def charsAll : List BusType → List Char
  | [] => []
  | type :: rest => type.chars ++ charsAll rest
termination_by structural types => types
end

def text (type : BusType) : String :=
  String.ofList type.chars

mutual
/-- Containers on the longest way from the type to one of its scalars. -/
def depth : BusType → Nat
  | .basic _ | .variant => 0
  | .struct members => depthAll members + 1
  | .array element => element.depth + 1
  | .dict _ value => value.depth + 1
termination_by structural type => type

def depthAll : List BusType → Nat
  | [] => 0
  | type :: rest => max type.depth (depthAll rest)
termination_by structural types => types
end

/-- The type below all outer array levels, and how many there are. -/
def peel : BusType → BusType × Nat
  | .array element => let (inner, levels) := element.peel; (inner, levels + 1)
  | type => (type, 0)

def typeId : BusType → String
  | .basic kind => kind.typeId
  | .variant => "ALLJOYN_VARIANT"
  | .struct _ => "ALLJOYN_STRUCT"
  | .array (.basic kind) => kind.arrayTypeId
  | .array _ | .dict _ _ => "ALLJOYN_ARRAY"

/-- Whether the type identifier tells the whole signature: scalars, and arrays of scalars other
than texts. -/
def typeIdIsExact : BusType → Bool
  | .basic _ => true
  | .array (.basic kind) => !kind.isText
  | _ => false

end BusType
end BusStub
