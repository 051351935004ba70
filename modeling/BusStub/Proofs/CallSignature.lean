import BusStub.Proofs.Parcel

/-! The signature under which one call moves a parcel, and the arguments that it stands for. Structs are
inlined, so their members are arguments of the call; opaque members travel as `*`. Main statement: read
as text, the signature consumes exactly one argument for each leaf of the parcel. -/

namespace BusStub

/-- Arrays of arrays, of variants and of dictionaries, which generated code never looks into. -/
def BusType.isOpaque : BusType → Bool
  | .array (.array _) | .array .variant | .array (.dict _ _) => true
  | _ => false

mutual
def BusType.wire : BusType → List Char
  | .struct members => '(' :: BusType.wireAll members ++ [')']
  | type => if type.isOpaque then ['*'] else type.chars
termination_by structural type => type

def BusType.wireAll : List BusType → List Char
  | [] => []
  | type :: rest => type.wire ++ BusType.wireAll rest
termination_by structural types => types
end

mutual
def Slot.wire : Slot → List Char
  | .boxed _ => ['*']
  | .struct fields => '(' :: fields.wire ++ [')']
  | .scalar kind => [kind.code]
  | .variant => ['v']
  | .scalars kind => (Slot.scalars kind).type.chars
  | .structs fields => (Slot.structs fields).type.chars
  | .dict key value => (Slot.dict key value).type.chars
termination_by structural slot => slot

def Fields.wire : Fields → List Char
  | .nil => []
  | .cons _ slot rest => slot.wire ++ rest.wire
termination_by structural fields => fields
end

mutual
theorem Slot.wire_of : (type : BusType) → (Slot.of type).wire = type.wire
  | .basic _ | .variant | .array (.basic _) | .array .variant | .array (.array _) | .array (.dict _ _) => rfl
  | .struct members => by rw [Slot.of, Slot.wire, Fields.wire_of, BusType.wire]
  | .array (.struct members) => by
    simp [Slot.of, Slot.wire, Slot.type, BusType.wire, BusType.isOpaque]
  | .dict key value => by simp [Slot.of, Slot.wire, Slot.type, BusType.wire, BusType.isOpaque]

theorem Fields.wire_of : (numbering : Numbering) → (types : List BusType) →
    (Fields.of numbering types).wire = BusType.wireAll types
  | _, [] => rfl
  | numbering, type :: rest => by
    simp only [Fields.of, Fields.wire, BusType.wireAll]
    rw [Slot.wire_of type, Fields.wire_of _ rest]
end

namespace Signature

def isOpening (c : Char) : Bool := c = '(' || c = '{'

def isClosing (c : Char) : Bool := c = ')' || c = '}'

/-- How many arguments a signature consumes, read from its text: two for an array, whose element type is
passed over, none for a bracket, and one for any other character. While an element type is passed over,
the first argument holds how many of its brackets are open. -/
def consumed : Option Nat → List Char → Nat
  | _, [] => 0
  | none, c :: rest =>
    if c = 'a' then 2 + consumed (some 0) rest
    else if isOpening c || isClosing c then consumed none rest
    else 1 + consumed none rest
  | some level, c :: rest =>
    if c = 'a' then consumed (some level) rest
    else if isOpening c then consumed (some (level + 1)) rest
    else if isClosing c then consumed (if level ≤ 1 then none else some (level - 1)) rest
    else consumed (if level = 0 then none else some level) rest

/-- The number of arguments that a call with the signature takes after it. -/
def arity (signature : String) : Nat :=
  consumed none signature.toList

end Signature

open Signature

theorem Scalar.code_plain (kind : Scalar) :
    kind.code ≠ 'a' ∧ isOpening kind.code = false ∧ isClosing kind.code = false := by
  cases kind <;> decide

private theorem consumed_code (kind : Scalar) (rest : List Char) :
    consumed none (kind.code :: rest) = 1 + consumed none rest := by
  obtain ⟨array, opening, closing⟩ := kind.code_plain
  simp [consumed, array, opening, closing]

private theorem consumed_code_inside (kind : Scalar) (level : Nat) (rest : List Char) :
    consumed (some level) (kind.code :: rest) = consumed (if level = 0 then none else some level) rest := by
  obtain ⟨array, opening, closing⟩ := kind.code_plain
  simp [consumed, array, opening, closing]

private theorem consumed_opening {c : Char} (opening : isOpening c) (level : Nat) (rest : List Char) :
    consumed (some level) (c :: rest) = consumed (some (level + 1)) rest := by
  have array : c ≠ 'a' := by rintro rfl; cases opening
  simp [consumed, array, opening]

private theorem consumed_closing {c : Char} (closing : isClosing c) (level : Nat) (rest : List Char) :
    consumed (some (level + 1)) (c :: rest) = consumed (if level = 0 then none else some level) rest := by
  have array : c ≠ 'a' := by rintro rfl; cases closing
  have opening : isOpening c = false := by
    rcases (by simpa [isClosing] using closing : c = ')' ∨ c = '}') with rfl | rfl <;> rfl
  simp [consumed, array, opening, closing]

private theorem consumed_bracket {c : Char} (bracket : isOpening c ∨ isClosing c) (rest : List Char) :
    consumed none (c :: rest) = consumed none rest := by
  have array : c ≠ 'a' := by rintro rfl; rcases bracket with h | h <;> cases h
  simp [consumed, array, bracket]

mutual
private theorem consumed_type : (type : BusType) → (level : Nat) → (rest : List Char) →
    consumed (some level) (type.chars ++ rest) = consumed (if level = 0 then none else some level) rest
  | .basic kind, level, rest => consumed_code_inside kind level rest
  | .variant, level, rest => by simp [BusType.chars, consumed, isOpening, isClosing]
  | .struct members, level, rest => by
    simp only [BusType.chars, List.cons_append, List.append_assoc, List.nil_append]
    rw [consumed_opening rfl, consumed_types members, consumed_closing rfl]
  | .array element, level, rest => by
    simp only [BusType.chars, List.cons_append]
    rw [← consumed_type element level rest]
    rfl
  | .dict key value, level, rest => by
    simp only [BusType.chars, List.cons_append, List.append_assoc, List.nil_append]
    have array (rest : List Char) : consumed (some level) ('a' :: rest) = consumed (some level) rest := rfl
    rw [array, consumed_opening rfl, consumed_code_inside, if_neg (by omega), consumed_type value,
      if_neg (by omega), consumed_closing rfl]

private theorem consumed_types : (types : List BusType) → (level : Nat) → (rest : List Char) →
    consumed (some (level + 1)) (BusType.charsAll types ++ rest) = consumed (some (level + 1)) rest
  | [], _, _ => rfl
  | type :: types, level, rest => by
    simp only [BusType.charsAll, List.append_assoc]
    rw [consumed_type type, if_neg (by omega), consumed_types types]
end

/-- One argument of a call, by what it stands for: the value at a place or the number of its elements. -/
inductive Leaf where
  | value (place : Place)
  | count (place : Place)
  deriving DecidableEq, Repr

mutual
def Slot.leaves (place : Place) : Slot → List Leaf
  | .scalar _ | .variant | .boxed _ => [.value place]
  | .scalars _ | .structs _ | .dict _ _ => [.count place, .value place]
  | .struct fields => fields.leaves place
termination_by structural slot => slot

def Fields.leaves (place : Place) : Fields → List Leaf
  | .nil => []
  | .cons name slot rest => slot.leaves (place.field name) ++ rest.leaves place
termination_by structural fields => fields
end

mutual
theorem Slot.consumed_wire (place : Place) : (slot : Slot) → (rest : List Char) →
    consumed none (slot.wire ++ rest) = (slot.leaves place).length + consumed none rest
  | .scalar kind, rest => consumed_code kind rest
  | .variant, rest => by simp [Slot.wire, Slot.leaves, consumed, isOpening, isClosing]
  | .boxed _, rest => by simp [Slot.wire, Slot.leaves, consumed, isOpening, isClosing]
  | .scalars kind, rest => by
    have element := consumed_type (.basic kind) 0 rest
    simpa [Slot.wire, Slot.leaves, Slot.type, BusType.chars, consumed] using element
  | .structs fields, rest => by
    have element := consumed_type (.struct fields.types) 0 rest
    simpa [Slot.wire, Slot.leaves, Slot.type, BusType.chars, consumed] using element
  | .dict key value, rest => by
    have entry := consumed_type (.dict key value.type) 0 rest
    simpa [Slot.wire, Slot.leaves, Slot.type, BusType.chars, consumed] using entry
  | .struct fields, rest => by
    simp only [Slot.wire, Slot.leaves, List.cons_append, List.append_assoc, List.nil_append]
    rw [consumed_bracket (.inl rfl), Fields.consumed_wire place fields, consumed_bracket (.inr rfl)]

theorem Fields.consumed_wire (place : Place) : (fields : Fields) → (rest : List Char) →
    consumed none (fields.wire ++ rest) = (fields.leaves place).length + consumed none rest
  | .nil, _ => by simp [Fields.wire, Fields.leaves]
  | .cons name slot fields, rest => by
    simp only [Fields.wire, Fields.leaves, List.append_assoc, List.length_append]
    rw [Slot.consumed_wire (place.field name) slot, Fields.consumed_wire place fields]
    omega
end

namespace Parcel

def wire : Parcel → List Char
  | .whole slot => slot.wire
  | .entry key value => '{' :: key.code :: value.wire ++ ['}']

def signature (parcel : Parcel) : String :=
  String.ofList parcel.wire

def leaves (place : Place) : Parcel → List Leaf
  | .whole slot => slot.leaves place
  | .entry _ value => .value (place.field "key") :: value.leaves (place.field "value")

/-- The signature consumes one argument for each leaf, no more and no fewer. -/
theorem arity_signature (parcel : Parcel) (place : Place) :
    arity parcel.signature = (parcel.leaves place).length := by
  unfold arity signature
  rw [String.toList_ofList]
  cases parcel with
  | whole slot => simpa [wire, leaves, consumed] using slot.consumed_wire place []
  | entry key value =>
    simp only [wire, leaves, List.cons_append, List.length_cons]
    rw [consumed_bracket (.inl rfl), consumed_code, value.consumed_wire (place.field "value"),
      consumed_bracket (.inr rfl)]
    simp only [consumed]
    omega

end Parcel
end BusStub
