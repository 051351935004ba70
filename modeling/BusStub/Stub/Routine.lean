import BusStub.Slot.Unpack
import BusStub.Stub.Plan

/-! Pieces of functions that client and service have in common: packing arguments into an array of
message arguments, reading them back, and prototypes of member functions. -/

namespace BusStub
open Code

namespace Routine

/-- The array element that holds the argument at a position. -/
def slotAt (array : String) (index : Nat) : Place :=
  (Place.root array).item index

/-- Packs arguments into the elements of an array, in order. -/
def packAll (array : String) (args : List TypedArg) : List Stmt :=
  args.zipIdx.flatMap fun (arg, index) => arg.slot.set (slotAt array index) (.root arg.name) 0

def unpackAll (array : String) (args : List TypedArg) (declared : Bool) : List Stmt :=
  args.zipIdx.flatMap fun (arg, index) => arg.slot.get (slotAt array index) arg.name declared 0

/-- Asks a message for its arguments, which then are in `array`. -/
def receive (message array : String) : List Stmt :=
  [.declare ⟨.constPointer .message, array⟩,
   .declare ⟨⟨.size, false, 0⟩, "numArgs"⟩,
   .perform (.sendTo (.name message) "GetArgs" [.name "numArgs", .name array])]

/-- Whether a message brought as many arguments as are expected. -/
def countIs (expected : Nat) : Expr :=
  .equal (.name "numArgs") (.number expected)

def noSuchInterface : Stmt :=
  .returnIfNull "iface" "ER_BUS_NO_SUCH_INTERFACE"

def interfaceDescription : CType :=
  .constPointer (.plain "InterfaceDescription")

def memberDescription : CType :=
  .constPointer (.plain "InterfaceDescription::Member")

/-- Looks an interface up through a pointer to the bus or to the remote object. -/
def lookUp (through interface : String) : Expr :=
  .sendTo (.name through) "GetInterface" [.quoted interface]

def statusFunction (name : String) (params : List Param) : Prototype :=
  ⟨some "QStatus", name, params⟩

def procedure (name : String) (params : List Param) : Prototype :=
  ⟨some "void", name, params⟩

def busParam : Param :=
  { type := .plain "BusAttachment", name := "bus", passing := .shared }

def messageParam : Param :=
  { type := .plain "Message", name := "msg", passing := .shared }

def memberParam : Param :=
  { type := memberDescription, name := "member" }

def textParam (name : String) : Param :=
  { type := .constPointer .character, name }

def statusIs (value : Expr) : Stmt :=
  .define ⟨.plain "QStatus", "status"⟩ value

def busPointer : Variable :=
  ⟨.pointer (.plain "BusAttachment"), "myBusAttachment"⟩

end Routine
end BusStub
