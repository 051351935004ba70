import BusStub.Slot.Declare
import BusStub.Slot.Pack

/-! Code that takes a value out of a message argument. What `Get` hands out belongs to the message:
texts are read into a temporary and copied, arrays are read as a count and a borrowed pointer and
copied element by element into an array of their own. -/

namespace BusStub
open Code

/-- What one `Get` call needs: temporaries before it, its signature and addresses, and the statements
that copy what it handed out. -/
structure Unpack where
  temporaries : List Variable := []
  signature : String := ""
  addresses : List Expr := []
  copies : List Stmt := []

namespace Unpack

def append (first second : Unpack) : Unpack :=
  ⟨first.temporaries ++ second.temporaries, first.signature ++ second.signature,
    first.addresses ++ second.addresses, first.copies ++ second.copies⟩

def enclose (opening closing : String) (unpack : Unpack) : Unpack :=
  { unpack with signature := opening ++ unpack.signature ++ closing }

/-- A value read into a temporary, from which `copied` makes the value that is kept. -/
def through (signature : String) (type : CType) (place : Place) (copied : Expr → Expr) : Unpack :=
  let temporary := "temp" ++ flat place.text
  { temporaries := [⟨type, temporary⟩]
    signature
    addresses := [.address (.name temporary)]
    copies := [.assign (.place place) (copied (.name temporary))] }

/-- A counted value: count and borrowed elements are read, then each element is copied by `body`. -/
def counted (slot : Slot) (place : Place) (type : TypeName) (depth : Nat) (temporary : Variable)
    (body : List Stmt) : Unpack :=
  { temporaries := [temporary]
    signature := slot.text
    addresses := [.address (.count place), .address (.name temporary.name)]
    copies :=
      [.assign (.place place) (.newArray ⟨type, false, 0⟩ (.count place)), .loop depth place body] }

def finish (unpack : Unpack) (container : Place) : List Stmt :=
  unpack.temporaries.map .declare ++
    .perform (.send (.place container) "Get" (.quoted unpack.signature :: unpack.addresses)) :: unpack.copies

end Unpack

def Scalar.unpack (kind : Scalar) (place : Place) : Unpack :=
  if kind.isText then .through kind.code.toString (.pointer .character) place id
  else { signature := kind.code.toString, addresses := [.address (.place place)] }

/-- The definitions that a type name leads through. -/
def Code.TypeName.scope : TypeName → List String
  | .composite path => path
  | _ => []

mutual
/-- What the value at a place adds to a `Get` call; `type` is the type of its elements. -/
def Slot.unpack (depth : Nat) (place : Place) (type : TypeName) : Slot → Unpack
  | .scalar kind => kind.unpack place
  | .variant => .through "v" (.pointer .message) place .content
  | .boxed _ => .through "*" (.pointer .message) place .content
  | .scalars kind =>
    let temporary := Buffer.texts place
    let element := place.element depth
    let borrowed := (Place.root temporary).element depth
    if kind.isText then
      .counted (.scalars kind) place type depth ⟨.constPointer .message, temporary⟩
        ((kind.unpack element).finish borrowed)
    else
      .counted (.scalars kind) place type depth ⟨.pointer (.scalar kind), temporary⟩
        [.assign (.place element) (.place borrowed)]
  | .struct fields => (fields.unpack depth place type.scope).enclose "(" ")"
  | .structs fields =>
    let temporary := Buffer.structs place
    .counted (.structs fields) place type depth ⟨.constPointer .message, temporary⟩
      (((fields.unpack (depth + 1) (place.element depth) type.scope).enclose "(" ")").finish
        ((Place.root temporary).element depth))
  | .dict key value =>
    let temporary := Buffer.entries place
    let entry := place.element depth
    let unpacked := Unpack.append (key.unpack (entry.field "key"))
      (value.unpack (depth + 1) (entry.field "value") (value.elementType type.scope "value"))
    .counted (.dict key value) place type depth ⟨.constPointer .message, temporary⟩
      ((unpacked.enclose "\x7b" "\x7d").finish ((Place.root temporary).element depth))
termination_by structural slot => slot

/-- What the fields of the struct at a place add, the struct being the last of `scope`. -/
def Fields.unpack (depth : Nat) (place : Place) (scope : List String) : Fields → Unpack
  | .nil => {}
  | .cons name slot rest =>
    (slot.unpack depth (place.field name) (slot.elementType scope name)).append
      (rest.unpack depth place scope)
termination_by structural fields => fields
end

/-- Statements that copy the value of the message argument `container` into variables called `name`,
which are declared first if asked for. -/
def Slot.get (slot : Slot) (container : Place) (name : String) (declared : Bool) (depth : Nat) : List Stmt :=
  let target := Place.root name
  let locals := if declared then (slot.locals name).map .declare else []
  locals ++ match slot with
    | .variant | .boxed _ => [.assign (.place target) (.place container)]
    | _ => (slot.unpack depth target (slot.elementType [] name)).finish container

end BusStub
