import BusStub.Stub.Describe
import BusStub.Stub.Plan

/-! The header that client and service share: composite types, bus constants and the function that
describes the interfaces. -/

namespace BusStub
open Code

def guardOpening (guard : String) : List Item :=
  [.line ("#ifndef " ++ guard), .line ("#define " ++ guard), .blank]

def guardClosing (guard : String) : Item :=
  .line ("#endif /* " ++ guard ++ " */")

namespace TypesHeader

def includes : List String :=
  ["<string.h>", "<alljoyn/BusAttachment.h>", "<alljoyn/BusObject.h>", "<alljoyn/InterfaceDescription.h>",
   "<alljoyn/MsgArg.h>", "<alljoyn/ProxyBusObject.h>", "<qcc/String.h>"]

def constant (name value : String) : Item :=
  .line ("static const char *const " ++ name ++ " = \"" ++ value ++ "\";")

def constants (plan : Plan) : List Item :=
  (plan.busName.toList.map (constant plan.busNameConstant)) ++ [constant plan.pathConstant plan.node.path]

def items (plan : Plan) : List Item :=
  let guard := plan.macroName ++ "_TYPES_H"
  let about := plan.typesHeader ++ "\nTypes and constants shared by the " ++ plan.name ++ " client and service."
  .comment about :: guardOpening guard ++
    includes.map (fun file => .line ("#include " ++ file)) ++
    [.blank, .line "using namespace ajn;", .line "using namespace qcc;", .blank] ++
    constants plan ++ [.blank] ++
    plan.registry.items ++ Describe.items plan.node ++ [.blank, guardClosing guard]

end TypesHeader
end BusStub
