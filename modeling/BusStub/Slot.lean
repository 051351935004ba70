import BusStub.Signature.BusType

/-! How generated code keeps a value of a bus type. Every type has one slot; the fields of a struct
get their names when its slot is made, so that declarations, packing and unpacking agree on them. -/

namespace BusStub

mutual
inductive Slot where
  | scalar (kind : Scalar)
  | variant
  /-- Arrays of arrays, of variants or of dictionaries stay message arguments. -/
  | boxed (type : BusType)
  | scalars (kind : Scalar)
  | struct (fields : Fields)
  | structs (fields : Fields)
  | dict (key : Scalar) (value : Slot)

/-- The named fields of a struct, in the order of its members. -/
inductive Fields where
  | nil
  | cons (name : String) (slot : Slot) (rest : Fields)
end

instance : Inhabited Slot := ⟨.variant⟩
instance : Inhabited Fields := ⟨.nil⟩

/-- How many fields of each sort have been named. Each sort counts for itself. -/
structure Numbering where
  plain : Nat := 0
  structs : Nat := 0
  dicts : Nat := 0
  deriving DecidableEq, Repr, Inhabited

namespace Numbering

def name (numbering : Numbering) : Slot → String
  | .struct _ | .structs _ => "s" ++ toString numbering.structs
  | .dict _ _ => "d" ++ toString numbering.dicts
  | _ => "member" ++ toString numbering.plain

def next (numbering : Numbering) : Slot → Numbering
  | .struct _ | .structs _ => { numbering with structs := numbering.structs + 1 }
  | .dict _ _ => { numbering with dicts := numbering.dicts + 1 }
  | _ => { numbering with plain := numbering.plain + 1 }

end Numbering

mutual
def Slot.of : BusType → Slot
  | .basic kind => .scalar kind
  | .variant => .variant
  | .struct members => .struct (Fields.of {} members)
  | .dict key value => .dict key (Slot.of value)
  | .array (.basic kind) => .scalars kind
  | .array (.struct members) => .structs (Fields.of {} members)
  | .array element => .boxed (.array element)
termination_by structural type => type

/-- Names the members from the given numbering on. -/
def Fields.of (numbering : Numbering) : List BusType → Fields
  | [] => .nil
  | type :: rest =>
    let slot := Slot.of type
    .cons (numbering.name slot) slot (Fields.of (numbering.next slot) rest)
termination_by structural types => types
end

mutual
def Slot.type : Slot → BusType
  | .scalar kind => .basic kind
  | .variant => .variant
  | .boxed type => type
  | .scalars kind => .array (.basic kind)
  | .struct fields => .struct fields.types
  | .structs fields => .array (.struct fields.types)
  | .dict key value => .dict key value.type
termination_by structural slot => slot

def Fields.types : Fields → List BusType
  | .nil => []
  | .cons _ slot rest => slot.type :: rest.types
termination_by structural fields => fields
end

mutual
@[simp] theorem Slot.type_of : (type : BusType) → (Slot.of type).type = type
  | .basic _ | .variant | .array (.basic _) | .array .variant | .array (.array _) | .array (.dict _ _) => rfl
  | .struct members => by simp [Slot.of, Slot.type, Fields.types_of {} members]
  | .array (.struct members) => by simp [Slot.of, Slot.type, Fields.types_of {} members]
  | .dict _ value => by simp [Slot.of, Slot.type, Slot.type_of value]

@[simp] theorem Fields.types_of : (numbering : Numbering) → (types : List BusType) →
    (Fields.of numbering types).types = types
  | _, [] => rfl
  | numbering, type :: rest => by
    simp [Fields.of, Fields.types, Slot.type_of type, Fields.types_of _ rest]
end

def Fields.toList : Fields → List (String × Slot)
  | .nil => []
  | .cons name slot rest => (name, slot) :: rest.toList

def Slot.text (slot : Slot) : String :=
  slot.type.text

/-- Whether the value is kept as a pointer and a number of elements. -/
def Slot.isCounted : Slot → Bool
  | .scalars _ | .structs _ | .dict _ _ => true
  | _ => false

end BusStub
