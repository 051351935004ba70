import BusStub.Slot.Unpack

/-! What one call moves between a variable and a message argument: a whole value, or one entry of a
dictionary. The elements of arrays of structs and of dictionaries are parcels of their own, moved by the
calls inside a loop, so facts about the calls are stated once for all parcels. -/

namespace BusStub
open Code

/-- What follows a `Set` call: the argument takes over what it borrowed, and the buffers are deleted. -/
def Pack.cleared (pack : Pack) (container : Place) : List Stmt :=
  if pack.buffers.isEmpty then []
  else .perform (.send (.place container) "Stabilize" []) ::
    pack.buffers.map fun buffer => .deleteArray (.name buffer)

theorem Pack.finish_eq (pack : Pack) (container : Place) :
    pack.finish container =
      pack.before ++ .perform (.send (.place container) "Set" (.quoted pack.signature :: pack.values)) ::
        pack.cleared container :=
  rfl

inductive Parcel where
  | whole (slot : Slot)
  | entry (key : Scalar) (value : Slot)

namespace Parcel

def pack (depth : Nat) (place : Place) : Parcel → Pack
  | .whole slot => slot.pack depth place
  | .entry key value =>
    (Pack.append (.direct key.code.toString [key.passed (.place (place.field "key"))])
      (value.pack depth (place.field "value"))).enclose "\x7b" "\x7d"

def unpack (depth : Nat) (place : Place) (type : TypeName) : Parcel → Unpack
  | .whole slot => slot.unpack depth place type
  | .entry key value =>
    (Unpack.append (key.unpack (place.field "key"))
      (value.unpack depth (place.field "value") (value.elementType type.scope "value"))).enclose "\x7b" "\x7d"

/-- Statements that put the parcel at a place into the message argument `target`. -/
def set (parcel : Parcel) (target place : Place) (depth : Nat) : List Stmt :=
  (parcel.pack depth place).finish target

def get (parcel : Parcel) (source place : Place) (type : TypeName) (depth : Nat) : List Stmt :=
  (parcel.unpack depth place type).finish source

/-- The temporary array of message arguments whose elements are moved one by one. -/
def buffer (place : Place) : Parcel → String
  | .whole _ => Buffer.structs place
  | .entry _ _ => Buffer.entries place

end Parcel

theorem Slot.pack_structs (depth : Nat) (place : Place) (fields : Fields) :
    (Slot.structs fields).pack depth place =
      let parcel := Parcel.whole (.struct fields)
      .buffered (.structs fields) place depth (parcel.buffer place) ⟨.message, false, 0⟩ ⟨.message, false, 1⟩
        (parcel.set ((Place.root (parcel.buffer place)).element depth) (place.element depth) (depth + 1)) :=
  rfl

theorem Slot.pack_dict (depth : Nat) (place : Place) (key : Scalar) (value : Slot) :
    (Slot.dict key value).pack depth place =
      let parcel := Parcel.entry key value
      .buffered (.dict key value) place depth (parcel.buffer place) ⟨.message, false, 0⟩ ⟨.message, false, 1⟩
        (parcel.set ((Place.root (parcel.buffer place)).element depth) (place.element depth) (depth + 1)) :=
  rfl

theorem Slot.unpack_structs (depth : Nat) (place : Place) (type : TypeName) (fields : Fields) :
    (Slot.structs fields).unpack depth place type =
      let parcel := Parcel.whole (.struct fields)
      .counted (.structs fields) place type depth ⟨.constPointer .message, parcel.buffer place⟩
        (parcel.get ((Place.root (parcel.buffer place)).element depth) (place.element depth) type (depth + 1)) :=
  rfl

theorem Slot.unpack_dict (depth : Nat) (place : Place) (type : TypeName) (key : Scalar) (value : Slot) :
    (Slot.dict key value).unpack depth place type =
      let parcel := Parcel.entry key value
      .counted (.dict key value) place type depth ⟨.constPointer .message, parcel.buffer place⟩
        (parcel.get ((Place.root (parcel.buffer place)).element depth) (place.element depth) type (depth + 1)) :=
  rfl

/-- Whether a value is assigned whole instead of being moved by a call. -/
def Slot.isAssigned : Slot → Bool
  | .variant | .boxed _ => true
  | _ => false

theorem Slot.set_eq {slot : Slot} (called : slot.isAssigned = false) (container source : Place) (depth : Nat) :
    slot.set container source depth = (Parcel.whole slot).set container source depth := by
  cases slot with
  | variant | boxed => cases called
  | scalar | scalars | struct | structs | dict => rfl

theorem Slot.get_eq {slot : Slot} (called : slot.isAssigned = false) (container : Place) (name : String)
    (declared : Bool) (depth : Nat) :
    slot.get container name declared depth =
      (if declared then (slot.locals name).map .declare else []) ++
        (Parcel.whole slot).get container (.root name) (slot.elementType [] name) depth := by
  cases slot with
  | variant | boxed => cases called
  | scalar | scalars | struct | structs | dict => rfl

theorem Slot.set_assigned {slot : Slot} (assigned : slot.isAssigned = true) (container source : Place) (depth : Nat) :
    slot.set container source depth = [.assign (.place container) (.place source)] := by
  cases slot with
  | variant | boxed => rfl
  | scalar | scalars | struct | structs | dict => cases assigned

theorem Slot.get_assigned {slot : Slot} (assigned : slot.isAssigned = true) (container : Place) (name : String)
    (declared : Bool) (depth : Nat) :
    slot.get container name declared depth =
      (if declared then (slot.locals name).map .declare else []) ++
        [.assign (.place (.root name)) (.place container)] := by
  cases slot with
  | variant | boxed => rfl
  | scalar | scalars | struct | structs | dict => cases assigned

end BusStub
