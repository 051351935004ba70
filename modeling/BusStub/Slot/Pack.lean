import BusStub.Slot
import BusStub.Code.Build

/-! Code that puts a value into a message argument. A struct or dictionary entry takes one `Set` call
with the signature of all its members, nested structs included. Members that must be converted first
(arrays of texts, arrays of structs, dictionaries) get a buffer that a loop fills; after the call the
argument is made independent of the buffers, and they are deleted. -/

namespace BusStub
open Code

/-- What one `Set` call needs: statements before it, its signature and values, and the buffers to
delete after it. -/
structure Pack where
  before : List Stmt := []
  signature : String := ""
  values : List Expr := []
  buffers : List String := []

namespace Pack

def append (first second : Pack) : Pack :=
  ⟨first.before ++ second.before, first.signature ++ second.signature, first.values ++ second.values,
    first.buffers ++ second.buffers⟩

def enclose (opening closing : String) (pack : Pack) : Pack :=
  { pack with signature := opening ++ pack.signature ++ closing }

/-- A value that is passed as it is. -/
def direct (signature : String) (values : List Expr) : Pack :=
  { signature, values }

/-- A counted value whose elements a loop puts into a buffer first. -/
def buffered (slot : Slot) (place : Place) (depth : Nat) (buffer : String) (element stored : CType)
    (body : List Stmt) : Pack :=
  { before := [.define ⟨stored, buffer⟩ (.newArray element (.count place)), .loop depth place body]
    signature := slot.text
    values := [.count place, .name buffer]
    buffers := [buffer] }

/-- The call, and the end of the buffers. -/
def finish (pack : Pack) (container : Place) : List Stmt :=
  let target := Expr.place container
  let cleanUp := if pack.buffers.isEmpty then []
    else .perform (.send target "Stabilize" []) :: pack.buffers.map fun buffer => .deleteArray (.name buffer)
  pack.before ++ .perform (.send target "Set" (.quoted pack.signature :: pack.values)) :: cleanUp

end Pack

def Scalar.passed (kind : Scalar) (value : Expr) : Expr :=
  if kind.isText then .send value "c_str" [] else value

namespace Buffer

def texts (place : Place) : String :=
  "temp" ++ flat place.text ++ "Array"

def structs (place : Place) : String :=
  "temp" ++ flat place.text ++ "Arg"

def entries (place : Place) : String :=
  "temp" ++ flat place.text ++ "DictEntries"

end Buffer

mutual
/-- What the value at a place adds to a `Set` call. Loops start at counter `depth`. -/
def Slot.pack (depth : Nat) (place : Place) : Slot → Pack
  | .scalar kind => .direct kind.code.toString [kind.passed (.place place)]
  | .variant => .direct "v" [.address (.place place)]
  | .boxed _ => .direct "*" [.address (.place place)]
  | .scalars kind =>
    if kind.isText then
      let buffer := Buffer.texts place
      .buffered (.scalars kind) place depth buffer ⟨.character, true, 1⟩ ⟨.character, true, 2⟩
        [.assign (.place ((Place.root buffer).element depth)) (kind.passed (.place (place.element depth)))]
    else .direct (Slot.scalars kind).text [.count place, .place place]
  | .struct fields => (fields.pack depth place).enclose "(" ")"
  | .structs fields =>
    let buffer := Buffer.structs place
    .buffered (.structs fields) place depth buffer ⟨.message, false, 0⟩ ⟨.message, false, 1⟩
      (((fields.pack (depth + 1) (place.element depth)).enclose "(" ")").finish ((Place.root buffer).element depth))
  | .dict key value =>
    let buffer := Buffer.entries place
    let entry := place.element depth
    let packed := Pack.append (.direct key.code.toString [key.passed (.place (entry.field "key"))])
      (value.pack (depth + 1) (entry.field "value"))
    .buffered (.dict key value) place depth buffer ⟨.message, false, 0⟩ ⟨.message, false, 1⟩
      ((packed.enclose "\x7b" "\x7d").finish ((Place.root buffer).element depth))
termination_by structural slot => slot

def Fields.pack (depth : Nat) (place : Place) : Fields → Pack
  | .nil => {}
  | .cons name slot rest => (slot.pack depth (place.field name)).append (rest.pack depth place)
termination_by structural fields => fields
end

/-- Statements that put the value at `source` into the message argument `container`. -/
def Slot.set (slot : Slot) (container source : Place) (depth : Nat) : List Stmt :=
  match slot with
  | .variant | .boxed _ => [.assign (.place container) (.place source)]
  | _ => (slot.pack depth source).finish container

end BusStub
