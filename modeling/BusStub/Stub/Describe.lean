import BusStub.Code.Print
import BusStub.Model.Merge

/-! The function that describes an object's interfaces to the bus, each unless it is known there. It
works from the model alone: the bus takes signatures as texts. -/

namespace BusStub
open Code

namespace Describe

def functionName (node : ObjectNode) : String :=
  "Create" ++ node.name ++ "Interfaces"

def quotedOrNull (text : String) : Expr :=
  if text.isEmpty then .null else .quoted text

/-- Assigns the status of a call through the description and leaves on an error. -/
def added (function : String) (args : List Expr) : List Stmt :=
  [.assign (.name "status") (.sendTo (.name "iface") function args), .returnOnError "status"]

def method (method : Method) : List Stmt :=
  added "AddMethod"
    [.quoted method.name, quotedOrNull method.inSignature, quotedOrNull method.outSignature,
     quotedOrNull method.argNames, .name (if method.noReply then "MEMBER_ANNOTATE_NO_REPLY" else "0")]

def signal (signal : Signal) : List Stmt :=
  added "AddSignal"
    [.quoted signal.name, quotedOrNull signal.signature, quotedOrNull signal.argNames, .name "0"]

def accessConstant : Access → String
  | .read => "PROP_ACCESS_READ"
  | .write => "PROP_ACCESS_WRITE"
  | .readWrite => "PROP_ACCESS_RW"

def property (property : Property) : List Stmt :=
  added "AddProperty"
    [.quoted property.name, .quoted property.signature, .name (accessConstant property.access)]

def policy (interface : Interface) : String :=
  if interface.secure then "AJ_IFC_SECURITY_REQUIRED" else "AJ_IFC_SECURITY_INHERIT"

def interface (interface : Interface) : List Stmt :=
  [.assign (.name "status")
     (.send (.name "bus") "CreateInterface" [.quoted interface.name, .name "iface", .name (policy interface)]),
   .returnOnError "status"] ++
  interface.methods.flatMap method ++ interface.signals.flatMap signal ++ interface.properties.flatMap property ++
  [.perform (.sendTo (.name "iface") "Activate" [])]

def unlessKnown (part : Interface) : Stmt :=
  .branch (.isNull (.send (.name "bus") "GetInterface" [.quoted part.name])) (interface part)

def function (node : ObjectNode) : Definition :=
  { prototype :=
      { result := some "static QStatus"
        name := functionName node
        params := [{ type := .plain "BusAttachment", name := "bus", passing := .shared }] }
    body :=
      [.define ⟨.plain "QStatus", "status"⟩ (.name "ER_OK"),
       .define ⟨.pointer (.plain "InterfaceDescription"), "iface"⟩ .null,
       .blank] ++
      node.interface.concrete.map unlessKnown ++ [.ret (.name "status")] }

def items (node : ObjectNode) : List Item :=
  [.comment ("Create the interface descriptions implemented by " ++ node.name ++ " on the bus attachment."),
   .function (function node)]

end Describe
end BusStub
