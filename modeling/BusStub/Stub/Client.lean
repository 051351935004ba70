import BusStub.Stub.Routine
import BusStub.Stub.TypesHeader

/-! The client class: methods, signals and properties of a remote object behind functions with typed
parameters. Its header declares the functions that its source and its handler file define. -/

namespace BusStub
open Code Routine

namespace Client

def constructorPrototype (plan : Plan) : Prototype :=
  ⟨none, plan.clientClass, [busParam, textParam "serviceName", textParam "path"]⟩

def destructorPrototype (plan : Plan) : Prototype :=
  ⟨none, "~" ++ plan.clientClass, []⟩

def findName : Prototype :=
  statusFunction "FindName" []

def setUpProxy : Prototype :=
  statusFunction "SetUpProxy" [{ type := .plain "SessionId", name := "sessionId" }]

def call (method : TypedMethod) : Prototype :=
  statusFunction method.name method.params

def register (signal : TypedSignal) : Prototype :=
  statusFunction ("Register" ++ signal.name ++ "Handler") []

def wrapper (signal : TypedSignal) : Prototype :=
  procedure (signal.name ++ "Wrapper") [memberParam, textParam "srcPath", messageParam]

def handler (signal : TypedSignal) : Prototype :=
  procedure (signal.name ++ "Handler") signal.params

def getter (property : TypedProperty) : Prototype :=
  statusFunction ("Get" ++ Text.capitalize property.name) (property.params .output)

def setter (property : TypedProperty) : Prototype :=
  statusFunction ("Set" ++ Text.capitalize property.name) (property.params .input)

def accessors (property : TypedProperty) : List Prototype :=
  (if property.property.readable then [getter property] else []) ++
  (if property.property.writable then [setter property] else [])

def connectionMembers (plan : Plan) : List Member :=
  [.comment "Connects to the object at `path` owned by `serviceName` on the given bus.",
   .function (constructorPrototype plan), .function (destructorPrototype plan), .blank]

def findMembers (plan : Plan) : List Member :=
  [.comment ("Look for a service advertising " ++ plan.busNameConstant ++ "."), .function findName]

def proxyMembers : List Member :=
  [.comment "Create the proxy object for a joined session and attach the interfaces to it.", .function setUpProxy]

def methodMembers (method : TypedMethod) : List Member :=
  let about := "Call \"" ++ method.name ++ "\" on the remote object. Output arguments are filled from the reply."
  [.blank, .comment about, .function (call method)]

def signalMembers (signal : TypedSignal) : List Member :=
  let about := "Start listening for the \"" ++ signal.name ++ "\" signal; " ++ signal.name ++
    "Handler() is called for each one."
  [.blank, .comment about, .function (register signal)]

def propertyMembers (property : TypedProperty) : List Member :=
  .blank :: (accessors property).map .function

def visibleMembers (plan : Plan) : List Member :=
  connectionMembers plan ++ (if plan.busName.isSome then findMembers plan else []) ++ proxyMembers ++
  plan.methods.flatMap methodMembers ++ plan.signals.flatMap signalMembers ++
  plan.properties.flatMap propertyMembers

def callbackMembers (signal : TypedSignal) : List Member :=
  [.function (wrapper signal), .function (handler signal), .blank]

def fields : List Member :=
  [.data busPointer, .data ⟨.constPointer .character, "serviceName"⟩,
   .data ⟨.pointer (.plain "ProxyBusObject"), "proxyBusObj"⟩]

def hiddenMembers (plan : Plan) : List Member :=
  plan.signals.flatMap callbackMembers ++ fields

def klass (plan : Plan) : Klass :=
  ⟨plan.clientClass, "BusObject", visibleMembers plan, hiddenMembers plan⟩

def header (plan : Plan) : List Item :=
  let name := plan.clientClass
  let guard := plan.macroName ++ "_CLIENT_H"
  let about := name ++ ".h\nClient side of the " ++ plan.name ++ " object. " ++ name ++
    " hides the proxy object and the message packing behind typed methods."
  .comment about :: guardOpening guard ++
    [.line ("#include \"" ++ plan.typesHeader ++ "\""), .blank, .klass (klass plan), .blank, guardClosing guard]

def proxy : Expr := .name "proxyBusObj"

def bus : Expr := .name "myBusAttachment"

def constructorDefinition (plan : Plan) : Definition :=
  { prototype := constructorPrototype plan
    owner := plan.clientClass
    initializers :=
      [("BusObject", "path"), ("myBusAttachment", "&bus"), ("serviceName", "serviceName"), ("proxyBusObj", "NULL")]
    body := [] }

def destructorDefinition (plan : Plan) : Definition :=
  { prototype := destructorPrototype plan, owner := plan.clientClass, body := [.delete proxy] }

def findNameDefinition (plan : Plan) : Definition :=
  { prototype := findName
    owner := plan.clientClass
    body := [.ret (.sendTo bus "FindAdvertisedName" [.name plan.busNameConstant])] }

def attach (interface : Interface) : List Stmt :=
  [.assign (.name "iface") (lookUp "myBusAttachment" interface.name),
   noSuchInterface,
   .assign (.name "status") (.sendTo proxy "AddInterface" [.content (.name "iface")]),
   .returnOnError "status"]

def setUpProxyDefinition (plan : Plan) : Definition :=
  let proxyArgs := [.content bus, .name "serviceName", .apply "GetPath" [], .name "sessionId"]
  { prototype := setUpProxy
    owner := plan.clientClass
    body :=
      [statusIs (.apply (Describe.functionName plan.node) [.content bus]),
       .returnOnError "status",
       .blank,
       .branch (.isNull proxy) [.assign proxy (.newObject "ProxyBusObject" proxyArgs)],
       .define ⟨interfaceDescription, "iface"⟩ .null] ++
      plan.node.interface.concrete.flatMap attach ++ [.ret (.name "status")] }

/-- What follows the argument count in a call: flags without a reply, else the reply and flags for it. -/
def callTail (method : TypedMethod) : List Expr :=
  let encrypted := Expr.name "ALLJOYN_FLAG_ENCRYPTED"
  if method.expectsReply then
    .name "replyMsg" :: if method.secure then [.name "ProxyBusObject::DefaultCallTimeout", encrypted] else []
  else
    let silent := Expr.name "ALLJOYN_FLAG_NO_REPLY_EXPECTED"
    [if method.secure then .binary .union silent encrypted else silent]

def methodCall (method : TypedMethod) : Expr :=
  let args := if method.inArgs.isEmpty then Expr.null else .name "args"
  .sendTo proxy "MethodCall"
    (.quoted method.interface :: .quoted method.name :: args :: .number method.inArgs.length :: callTail method)

/-- Reads the reply when it brings something back. -/
def readReply (method : TypedMethod) : List Stmt :=
  if method.expectsReply && !method.outArgs.isEmpty then
    .blank :: receive "replyMsg" "returnArgs" ++
      [.choose (countIs method.outArgs.length)
        (unpackAll "returnArgs" method.outArgs false ++ [.ret (.name "status")])
        [.ret (.name "ER_BUS_BAD_VALUE")]]
  else [.ret (.name "status")]

def callDefinition (plan : Plan) (method : TypedMethod) : Definition :=
  { prototype := call method
    owner := plan.clientClass
    body :=
      statusIs (.name "ER_OK") ::
      (if method.inArgs.isEmpty then []
       else .array ⟨⟨.message, false, 0⟩, "args"⟩ method.inArgs.length :: packAll "args" method.inArgs) ++
      (if method.expectsReply then [.construct ⟨.plain "Message", "replyMsg"⟩ [.content bus]] else []) ++
      [.assign (.name "status") (methodCall method), .returnOnError "status"] ++
      readReply method }

/-- The rule by which the bus selects a signal for delivery. -/
def matchRule (signal : TypedSignal) : String :=
  "type='signal',interface='" ++ signal.interface ++ "',member='" ++ signal.name ++ "'"

def registerDefinition (plan : Plan) (signal : TypedSignal) : Definition :=
  let function := Expr.address (.name (plan.clientClass ++ "::" ++ signal.name ++ "Wrapper"))
  { prototype := register signal
    owner := plan.clientClass
    body :=
      [.returnIfNull "proxyBusObj" "ER_FAIL",
       .define ⟨interfaceDescription, "iface"⟩ (lookUp "proxyBusObj" signal.interface),
       noSuchInterface,
       statusIs (.sendTo bus "RegisterSignalHandler"
         [.name "this", .cast (.plain "MessageReceiver::SignalHandler") function,
          .sendTo (.name "iface") "GetMember" [.quoted signal.name], .null]),
       .returnOnError "status",
       .ret (.sendTo bus "AddMatch" [.quoted (matchRule signal)])] }

def handlerCall (signal : TypedSignal) : Stmt :=
  .perform (.apply (handler signal).name signal.arguments)

def wrapperDefinition (plan : Plan) (signal : TypedSignal) : Definition :=
  { prototype := wrapper signal
    owner := plan.clientClass
    body :=
      if signal.args.isEmpty then [handlerCall signal]
      else receive "msg" "args" ++
        [.branch (countIs signal.args.length) (unpackAll "args" signal.args true ++ [handlerCall signal])] }

def getterDefinition (plan : Plan) (property : TypedProperty) : Definition :=
  { prototype := getter property
    owner := plan.clientClass
    body :=
      [.declare ⟨⟨.message, false, 0⟩, "propValue"⟩,
       statusIs (.sendTo proxy "GetProperty"
         [.quoted property.interface, .quoted property.name, .name "propValue"]),
       .returnOnError "status"] ++
      property.slot.get (.root "propValue") property.name false 0 ++ [.ret (.name "status")] }

def setterDefinition (plan : Plan) (property : TypedProperty) : Definition :=
  { prototype := setter property
    owner := plan.clientClass
    body :=
      .declare ⟨⟨.message, false, 0⟩, "propValue"⟩ ::
      property.slot.set (.root "propValue") (.root property.name) 0 ++
      [.ret (.sendTo proxy "SetProperty" [.quoted property.interface, .quoted property.name, .name "propValue"])] }

def accessorDefinitions (plan : Plan) (property : TypedProperty) : List Definition :=
  (if property.property.readable then [getterDefinition plan property] else []) ++
  (if property.property.writable then [setterDefinition plan property] else [])

def lifetimeItems (plan : Plan) : List Item :=
  [.function (constructorDefinition plan), .blank, .function (destructorDefinition plan), .blank]

def methodItems (plan : Plan) (method : TypedMethod) : List Item :=
  [.comment ("Method call wrapper for \"" ++ method.name ++ "\" on " ++ method.interface ++ "."),
   .function (callDefinition plan method), .blank]

def signalItems (plan : Plan) (signal : TypedSignal) : List Item :=
  [.function (registerDefinition plan signal), .blank, .function (wrapperDefinition plan signal), .blank]

def propertyItems (plan : Plan) (property : TypedProperty) : List Item :=
  (accessorDefinitions plan property).flatMap fun definition => [.function definition, .blank]

def sourceOpening (plan : Plan) : List Item :=
  let name := plan.clientClass
  [.comment (name ++ ".cc\nImplementation of the " ++ plan.name ++ " client class."),
   .line ("#include \"" ++ name ++ ".h\""), .blank]

def source (plan : Plan) : List Item :=
  sourceOpening plan ++ lifetimeItems plan ++
  (if plan.busName.isSome then [.function (findNameDefinition plan), .blank] else []) ++
  [.function (setUpProxyDefinition plan), .blank] ++
  plan.methods.flatMap (methodItems plan) ++ plan.signals.flatMap (signalItems plan) ++
  plan.properties.flatMap (propertyItems plan)

def handlerDefinition (plan : Plan) (signal : TypedSignal) : Definition :=
  { prototype := handler signal
    owner := plan.clientClass
    body := [.comment "Fill in signal handler implementation here."] }

def handlers (plan : Plan) : List Item :=
  let name := plan.clientClass
  let about := name ++ "Handlers.cc\nSignal handlers of the " ++ plan.name ++
    " client. Fill in the bodies; regenerating the stubs does not overwrite this file."
  [.comment about, .line ("#include \"" ++ name ++ ".h\""), .blank] ++
  plan.signals.flatMap fun s =>
    [.comment ("Called for every \"" ++ s.name ++ "\" signal received after Register" ++ s.name ++ "Handler()."),
     .function (handlerDefinition plan s), .blank]

end Client
end BusStub
