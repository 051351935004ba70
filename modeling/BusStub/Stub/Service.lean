import BusStub.Stub.Routine
import BusStub.Stub.TypesHeader

/-! The service class: it reads incoming calls, hands them to methods that the developer writes, and
packs replies, signals and properties. -/

namespace BusStub
open Code Routine

namespace Service

def constructorPrototype (plan : Plan) : Prototype :=
  ⟨none, plan.serviceClass, [busParam, textParam "path"]⟩

def destructorPrototype (plan : Plan) : Prototype :=
  ⟨none, "~" ++ plan.serviceClass, []⟩

def start : Prototype :=
  statusFunction "Initialize" []

/-- The parameters that say where a signal goes; only the header gives their defaults. -/
def destinationParams (defaults : Bool) : List Param :=
  [{ textParam "destination" with default := if defaults then some "NULL" else none },
   { type := .plain "SessionId", name := "sessionId", default := if defaults then some "0" else none }]

def send (signal : TypedSignal) (defaults : Bool) : Prototype :=
  statusFunction ("Send" ++ signal.name) (signal.params ++ destinationParams defaults)

def propertyParams : List Param :=
  [textParam "ifcName", textParam "propName", { type := ⟨.message, false, 0⟩, name := "val", passing := .shared }]

def getProperty : Prototype :=
  statusFunction "Get" propertyParams

def setProperty : Prototype :=
  statusFunction "Set" propertyParams

def handler (method : TypedMethod) : Prototype :=
  procedure (method.name ++ "Handler") [memberParam, messageParam]

/-- A reply takes the method's outputs in. -/
def reply (method : TypedMethod) : Prototype :=
  statusFunction (method.name ++ "MethodReply")
    (messageParam :: method.outArgs.flatMap fun arg => arg.params .input)

def implementation (method : TypedMethod) : Prototype :=
  procedure method.name method.params

def startMembers (plan : Plan) : List Member :=
  let about := "Create the interfaces on the bus, attach them to this object and " ++
    "install the method handlers. Call before registering the object."
  [.function (constructorPrototype plan), .function (destructorPrototype plan), .blank, .comment about,
   .function start]

def signalMembers (signal : TypedSignal) : List Member :=
  [.blank, .comment ("Emit \"" ++ signal.name ++ "\". Without a destination the signal is broadcast."),
   .function (send signal true)]

def propertyMembers (plan : Plan) : List Member :=
  if plan.properties.isEmpty then [] else [.blank, .function getProperty, .function setProperty]

def visibleMembers (plan : Plan) : List Member :=
  startMembers plan ++ plan.signals.flatMap signalMembers ++ propertyMembers plan

def methodMembers (method : TypedMethod) : List Member :=
  .function (handler method) :: (if method.expectsReply then [.function (reply method)] else []) ++
  [.comment "Implemented in the methods file.", .function (implementation method), .blank]

def storage (plan : Plan) : List Variable :=
  plan.properties.flatMap fun p => p.slot.locals p.name

def hiddenMembers (plan : Plan) : List Member :=
  plan.methods.flatMap methodMembers ++ .data busPointer :: (storage plan).map .data

def klass (plan : Plan) : Klass :=
  ⟨plan.serviceClass, "BusObject", visibleMembers plan, hiddenMembers plan⟩

def header (plan : Plan) : List Item :=
  let name := plan.serviceClass
  let guard := plan.macroName ++ "_SERVICE_H"
  .comment (name ++ ".h\nService side of the " ++ plan.name ++ " object.") :: guardOpening guard ++
    [.line ("#include \"" ++ plan.typesHeader ++ "\""), .blank, .klass (klass plan), .blank, guardClosing guard]

def bus : Expr := .name "myBusAttachment"

/-- The properties that own an array. -/
def countedProperties (plan : Plan) : List TypedProperty :=
  plan.properties.filter (·.slot.isCounted)

def constructorDefinition (plan : Plan) : Definition :=
  { prototype := constructorPrototype plan
    owner := plan.serviceClass
    initializers :=
      [("BusObject", "path"), ("myBusAttachment", "&bus")] ++
      (countedProperties plan).flatMap fun p => [(p.name, "NULL"), (countName p.name, "0")]
    body := [] }

def destructorDefinition (plan : Plan) : Definition :=
  { prototype := destructorPrototype plan
    owner := plan.serviceClass
    body := (countedProperties plan).map fun p => .deleteArray (.name p.name) }

def installHandler (plan : Plan) (method : TypedMethod) : List Stmt :=
  let function := Expr.address (.name (plan.serviceClass ++ "::" ++ method.name ++ "Handler"))
  [.assign (.name "status") (.apply "AddMethodHandler"
     [.sendTo (.name "iface") "GetMember" [.quoted method.name],
      .cast (.plain "MessageReceiver::MethodHandler") function]),
   .returnOnError "status"]

/-- Attaches an interface and installs the handlers of its methods. -/
def attach (plan : Plan) (interface : Interface) : List Stmt :=
  [.blank,
   .assign (.name "iface") (lookUp "myBusAttachment" interface.name),
   noSuchInterface,
   .assign (.name "status") (.apply "AddInterface" [.content (.name "iface")]),
   .returnOnError "status"] ++
  (plan.methods.filter (·.interface = interface.name)).flatMap (installHandler plan)

def initializeDefinition (plan : Plan) : Definition :=
  { prototype := start
    owner := plan.serviceClass
    body :=
      [statusIs (.apply (Describe.functionName plan.node) [.content bus]),
       .returnOnError "status",
       .define ⟨interfaceDescription, "iface"⟩ .null] ++
      plan.node.interface.concrete.flatMap (attach plan) ++ [.ret (.name "status")] }

/-- Calls the developer's method and, when a reply is expected, the reply function. -/
def serve (method : TypedMethod) : List Stmt :=
  .perform (.apply (implementation method).name method.arguments) ::
  if method.expectsReply then
    [.perform (.apply (reply method).name (.name "msg" :: method.outArgs.flatMap TypedArg.arguments))]
  else []

def handlerDefinition (plan : Plan) (method : TypedMethod) : Definition :=
  let serving := unpackAll "args" method.inArgs true ++
    (method.outArgs.flatMap fun arg => (arg.slot.locals arg.name).map .declare) ++ serve method
  let expected := countIs method.inArgs.length
  { prototype := handler method
    owner := plan.serviceClass
    body := receive "msg" "args" ++
      [if method.expectsReply then
         .choose expected serving [.perform (.apply "MethodReply" [.name "msg", .name "ER_BUS_BAD_VALUE"])]
       else .branch expected serving] }

def replyDefinition (plan : Plan) (method : TypedMethod) : Definition :=
  { prototype := reply method
    owner := plan.serviceClass
    body :=
      if method.outArgs.isEmpty then
        [.ret (.apply "MethodReply" [.name "msg", .cast (.constPointer .message) .null, .number 0])]
      else
        .array ⟨⟨.message, false, 0⟩, "args"⟩ method.outArgs.length :: packAll "args" method.outArgs ++
        [.ret (.apply "MethodReply" [.name "msg", .name "args", .number method.outArgs.length])] }

def sendDefinition (plan : Plan) (signal : TypedSignal) : Definition :=
  let args := if signal.args.isEmpty then Expr.null else .name "args"
  let flags := Expr.name (if signal.secure then "ALLJOYN_FLAG_ENCRYPTED" else "0")
  { prototype := send signal false
    owner := plan.serviceClass
    body :=
      [.define ⟨interfaceDescription, "iface"⟩ (lookUp "myBusAttachment" signal.interface),
       noSuchInterface,
       .define ⟨memberDescription, "member"⟩ (.sendTo (.name "iface") "GetMember" [.quoted signal.name]),
       .returnIfNull "member" "ER_BUS_INTERFACE_NO_SUCH_MEMBER"] ++
      (if signal.args.isEmpty then []
       else .blank :: .array ⟨⟨.message, false, 0⟩, "args"⟩ signal.args.length :: packAll "args" signal.args) ++
      [.ret (.apply "Signal"
        [.name "destination", .name "sessionId", .content (.name "member"), args, .number signal.args.length,
         .number 0, flags])] }

def textIs (param text : String) : Expr :=
  .equal (.apply "strcmp" [.name param, .quoted text]) (.number 0)

/-- The condition under which a request is for the property. -/
def asksFor (property : TypedProperty) : Expr :=
  .binary .conjunction (textIs "ifcName" property.interface) (textIs "propName" property.name)

def accessDenied : Stmt :=
  .ret (.name "ER_BUS_PROPERTY_ACCESS_DENIED")

def getBranch (property : TypedProperty) : Stmt :=
  .branch (asksFor property)
    (if property.property.readable then
       property.slot.set (.root "val") (.root property.name) 0 ++ [.ret (.name "ER_OK")]
     else [accessDenied])

/-- The condition that refuses a value of another type. Arrays of texts, structs and dictionaries share
a type identifier, so their whole signature is compared. A variant takes anything. -/
def valueCheck? (property : TypedProperty) : Option Expr :=
  let value := Expr.name "val"
  match property.type with
  | .variant => none
  | type =>
    if type.typeIdIsExact then some (.unequal (.member value "typeId") (.name type.typeId))
    else some (.negation (.send value "HasSignature" [.quoted property.property.signature]))

def setBranch (property : TypedProperty) : Stmt :=
  .branch (asksFor property)
    (if property.property.writable then
       ((valueCheck? property).toList.map fun check => .branch check [.ret (.name "ER_BUS_BAD_VALUE")]) ++
       (if property.slot.isCounted then [.deleteArray (.name property.name)] else []) ++
       property.slot.get (.root "val") property.name false 0 ++ [.ret (.name "ER_OK")]
     else [accessDenied])

def noSuchProperty : Stmt :=
  .ret (.name "ER_BUS_NO_SUCH_PROPERTY")

def getDefinition (plan : Plan) : Definition :=
  { prototype := getProperty, owner := plan.serviceClass, body := plan.properties.map getBranch ++ [noSuchProperty] }

def setDefinition (plan : Plan) : Definition :=
  { prototype := setProperty, owner := plan.serviceClass, body := plan.properties.map setBranch ++ [noSuchProperty] }

def lifetimeItems (plan : Plan) : List Item :=
  [.function (constructorDefinition plan), .blank, .function (destructorDefinition plan), .blank]

def methodItems (plan : Plan) (method : TypedMethod) : List Item :=
  [.comment ("Unpacks a call to \"" ++ method.name ++ "\" on " ++ method.interface ++ "."),
   .function (handlerDefinition plan method), .blank] ++
  if method.expectsReply then [.function (replyDefinition plan method), .blank] else []

def signalItems (plan : Plan) (signal : TypedSignal) : List Item :=
  [.function (sendDefinition plan signal), .blank]

def propertyItems (plan : Plan) : List Item :=
  if plan.properties.isEmpty then []
  else [.function (getDefinition plan), .blank, .function (setDefinition plan)]

def sourceOpening (plan : Plan) : List Item :=
  let name := plan.serviceClass
  [.comment (name ++ ".cc\nImplementation of the " ++ plan.name ++ " service class."),
   .line ("#include \"" ++ name ++ ".h\""), .blank]

def source (plan : Plan) : List Item :=
  sourceOpening plan ++ lifetimeItems plan ++ [.function (initializeDefinition plan), .blank] ++
  plan.methods.flatMap (methodItems plan) ++ plan.signals.flatMap (signalItems plan) ++ propertyItems plan

def implementationDefinition (plan : Plan) (method : TypedMethod) : Definition :=
  { prototype := implementation method
    owner := plan.serviceClass
    body := [.comment "Fill in method implementation here."] }

def methods (plan : Plan) : List Item :=
  let name := plan.serviceClass
  let about := name ++ "Methods.cc\nMethod implementations of the " ++ plan.name ++
    " service. Output arguments are sent back to the caller once the method returns. " ++
    "Regenerating the stubs does not overwrite this file."
  [.comment about, .line ("#include \"" ++ name ++ ".h\""), .blank] ++
  plan.methods.flatMap fun m => [.function (implementationDefinition plan m), .blank]

end Service
end BusStub
