import BusStub.Stub.Client
import BusStub.Stub.Service

/-! The files generated for one object. Files that hold the developer's code are editable: writing
them again must not destroy what is in them. -/

namespace BusStub

structure StubOptions where
  /-- The bus name that the service requests and the client looks for. -/
  busName : Option String := none
  /-- Whether the service is generated beside the client. -/
  service : Bool := true
  deriving DecidableEq, Repr, Inhabited

structure StubFile where
  name : String
  editable : Bool
  items : List Code.Item

structure OutputFile where
  name : String
  contents : String
  editable : Bool
  deriving DecidableEq, Repr, Inhabited

def StubFile.print (file : StubFile) : OutputFile :=
  ⟨file.name, Code.print file.items, file.editable⟩

namespace Plan

def clientFiles (plan : Plan) : List StubFile :=
  [⟨plan.typesHeader, false, TypesHeader.items plan⟩,
   ⟨plan.name ++ "Client.h", false, Client.header plan⟩,
   ⟨plan.name ++ "Client.cc", false, Client.source plan⟩,
   ⟨plan.name ++ "ClientHandlers.cc", true, Client.handlers plan⟩]

def serviceFiles (plan : Plan) : List StubFile :=
  [⟨plan.name ++ "Service.h", false, Service.header plan⟩,
   ⟨plan.name ++ "Service.cc", false, Service.source plan⟩,
   ⟨plan.name ++ "ServiceMethods.cc", true, Service.methods plan⟩]

def files (plan : Plan) (service : Bool) : List StubFile :=
  plan.clientFiles ++ if service then plan.serviceFiles else []

end Plan

/-- The plan of an object, after its composite types have been found. -/
def ObjectNode.plan (node : ObjectNode) (options : StubOptions) : Except StubError Plan := do
  let registry ← Registry.discover node.interface
  Plan.make node registry options.busName

/-- All files of an object, or the first reason why there are none. -/
def ObjectNode.emit (node : ObjectNode) (options : StubOptions) : Except StubError (List OutputFile) := do
  let plan ← node.plan options
  return (plan.files options.service).map StubFile.print

end BusStub
