import BusStub.Proofs.DeclaredRecords
import BusStub.Proofs.Messages

/-! Every member is described, called and served through the interface that declares it. The description and the
service look up one interface after another; the calls between two look-ups go to the first of them. -/

namespace BusStub
open Code Routine

theorem Code.Stmt.withinAll_flatMap {α : Type} (items : List α) (code : α → List Stmt) :
    Stmt.withinAll (items.flatMap code) = items.flatMap fun item => Stmt.withinAll (code item) := by
  induction items with
  | nil => rfl
  | cons item rest ih => rw [List.flatMap_cons, Stmt.withinAll_append, ih, List.flatMap_cons]

/-- The interfaces that a block looks up or creates, at any depth. -/
def Code.entered (block : List Stmt) : List String :=
  (Stmt.withinAll block).filterMap Stmt.enters?

theorem Code.entered_append (first second : List Stmt) :
    entered (first ++ second) = entered first ++ entered second := by
  rw [entered, Stmt.withinAll_append, List.filterMap_append]
  rfl

theorem Code.entered_flatMap {α : Type} (items : List α) (code : α → List Stmt) :
    entered (items.flatMap code) = items.flatMap fun item => entered (code item) := by
  rw [entered, Stmt.withinAll_flatMap, List.filterMap_flatMap]
  rfl

theorem Code.entered_once {block before after : List Stmt} {enter : Stmt} {interface : String}
    (parts : Stmt.withinAll block = before ++ enter :: after) (outside : ∀ stmt ∈ before, stmt.enters? = none)
    (enters : enter.enters? = some interface) (inside : ∀ stmt ∈ after, stmt.enters? = none) :
    entered block = [interface] := by
  rw [entered, parts, List.filterMap_append, List.filterMap_eq_nil_iff.mpr outside, List.filterMap_cons_some enters,
    List.filterMap_eq_nil_iff.mpr inside]
  rfl

/-- The signature of arguments that are sent together. -/
def signatureOf (args : List TypedArg) : String :=
  String.join (args.map (·.type.text))

private theorem texts_of {args : List Arg} {typed : List TypedArg} (related : List.Forall₂ TypedArg.Of args typed) :
    String.join (args.map Arg.signature) = signatureOf typed := by
  have same : args.map Arg.signature = typed.map (·.type.text) :=
    map_eq_of_forall₂ related fun _ _ typed => (BusType.text_of_parse typed.type).symm
  rw [signatureOf, same]

private theorem directed {args : List Arg} {typed : List TypedArg} (related : List.Forall₂ TypedArg.Of args typed)
    (direction : Direction) : List.Forall₂ TypedArg.Of (args.filter (·.direction = direction))
      (typed.filter (·.arg.direction = direction)) := by
  refine List.rel_filter ?_ related
  intro arg typed same
  obtain rfl := same.arg
  exact Iff.rfl

theorem TypedMethod.Of.inSignature {declared : Interface × Method} {typed : TypedMethod} (same : typed.Of declared) :
    declared.2.inSignature = signatureOf typed.inArgs :=
  texts_of (directed same.args .input)

theorem TypedMethod.Of.outSignature {declared : Interface × Method} {typed : TypedMethod} (same : typed.Of declared) :
    declared.2.outSignature = signatureOf typed.outArgs :=
  texts_of (directed same.args .output)

theorem TypedSignal.Of.signature {declared : Interface × Signal} {typed : TypedSignal} (same : typed.Of declared) :
    declared.2.signature = signatureOf typed.args :=
  texts_of same.args

namespace Describe

def methodArgs (declared : Method) : List Expr :=
  [.quoted declared.name, quotedOrNull declared.inSignature, quotedOrNull declared.outSignature,
   quotedOrNull declared.argNames, .name (if declared.noReply then "MEMBER_ANNOTATE_NO_REPLY" else "0")]

def signalArgs (declared : Signal) : List Expr :=
  [.quoted declared.name, quotedOrNull declared.signature, quotedOrNull declared.argNames, .name "0"]

def propertyArgs (declared : Property) : List Expr :=
  [.quoted declared.name, .quoted declared.signature, .name (accessConstant declared.access)]

private def additions (part : Interface) : List (String × List Expr) :=
  part.methods.map (fun declared => ("AddMethod", methodArgs declared)) ++
  part.signals.map (fun declared => ("AddSignal", signalArgs declared)) ++
  part.properties.map (fun declared => ("AddProperty", propertyArgs declared))

private theorem additions_code (part : Interface) :
    (additions part).flatMap (fun (function, args) => added function args) =
      part.methods.flatMap method ++ part.signals.flatMap signal ++ part.properties.flatMap property := by
  simp only [additions, List.flatMap_append, List.flatMap_map]
  rfl

private theorem quotedOrNull_quiet (text : String) : (quotedOrNull text).calls = [] := by
  unfold quotedOrNull
  split <;> rfl

private theorem additions_quiet (part : Interface) : ∀ addition ∈ additions part, Expr.callsAll addition.2 = [] := by
  intro addition member
  simp only [additions, List.mem_append, List.mem_map] at member
  rcases member with (⟨_, -, rfl⟩ | ⟨_, -, rfl⟩) | ⟨_, -, rfl⟩
  · simp [methodArgs, Expr.callsAll, Expr.calls, quotedOrNull_quiet]
  · simp [signalArgs, Expr.callsAll, Expr.calls, quotedOrNull_quiet]
  · simp [propertyArgs, Expr.callsAll, Expr.calls]

private theorem added_calls (function : String) {args : List Expr} (quiet : Expr.callsAll args = []) (other : String) :
    (Stmt.withinAll (added function args)).flatMap (Stmt.callsOf (.member other)) =
      if function = other then [.name "iface" :: args] else [] := by
  split <;> simp_all [added, Stmt.within, Stmt.returnOnError, Stmt.callsOf, Stmt.calls, Expr.calls]

private theorem added_stays (function : String) (args : List Expr) :
    ∀ stmt ∈ Stmt.withinAll (added function args), stmt.enters? = none := by
  simp [added, Stmt.withinAll, Stmt.within, Stmt.returnOnError, Stmt.enters?, Expr.sendTo]

private def described (other : String) (part : Interface) : List (List Expr) :=
  (additions part).flatMap fun (function, args) => if function = other then [.name "iface" :: args] else []

private def create (part : Interface) : Stmt :=
  .assign (.name "status")
    (.send (.name "bus") "CreateInterface" [.quoted part.name, .name "iface", .name (policy part)])

private def filling (part : Interface) : List Stmt :=
  [.returnOnError "status"] ++ (additions part).flatMap (fun (function, args) => added function args) ++
  [.perform (.sendTo (.name "iface") "Activate" [])]

private theorem unlessKnown_within (part : Interface) :
    Stmt.withinAll [unlessKnown part] = [unlessKnown part] ++ create part :: Stmt.withinAll (filling part) := by
  have body : interface part = create part :: filling part := by
    simp [interface, filling, additions_code, create]
  simp [unlessKnown, body, Stmt.withinAll, Stmt.within, create]

private theorem filling_stays (part : Interface) : ∀ stmt ∈ Stmt.withinAll (filling part), stmt.enters? = none := by
  intro stmt member
  simp only [filling, Stmt.withinAll_append, Stmt.withinAll_flatMap, List.mem_append, List.mem_flatMap] at member
  rcases member with (member | ⟨_, -, member⟩) | member
  · simp only [Stmt.withinAll, Stmt.within, Stmt.returnOnError, List.append_nil, List.mem_cons, List.not_mem_nil,
      or_false] at member
    rcases member with rfl | rfl <;> rfl
  · exact added_stays _ _ stmt member
  · simp only [Stmt.withinAll, Stmt.within, List.append_nil, List.mem_singleton] at member
    subst member
    rfl

private theorem filling_calls {other : String} (foreign : other ≠ "Activate") (part : Interface) :
    (Stmt.withinAll (filling part)).flatMap (Stmt.callsOf (.member other)) = described other part := by
  have opened : (Stmt.withinAll [.returnOnError "status"]).flatMap (Stmt.callsOf (.member other)) = [] := by
    simp [Stmt.within, Stmt.returnOnError, Stmt.callsOf, Stmt.calls, Expr.calls]
  have activated : (Stmt.withinAll [.perform (.sendTo (.name "iface") "Activate" [])]).flatMap
      (Stmt.callsOf (.member other)) = [] := by
    simp [Stmt.within, Stmt.callsOf, Stmt.calls, Expr.calls, Expr.callsAll, foreign.symm]
  rw [filling, Stmt.withinAll_append, Stmt.withinAll_append, List.flatMap_append, List.flatMap_append, opened,
    activated, Stmt.withinAll_flatMap, List.flatMap_assoc, List.nil_append, List.append_nil]
  exact List.flatMap_congr fun addition member => added_calls addition.1 (additions_quiet part addition member) other

/-- All that is added goes to the interface that has just been created. -/
private theorem part_route {other : String} (foreign : other ∉ ["GetInterface", "CreateInterface", "Activate"])
    (part : Interface) (current : Option String) (rest : List Stmt) :
    route (.member other) current (Stmt.withinAll [unlessKnown part] ++ rest) =
      (described other part).map (some part.name, ·) ++ route (.member other) (some part.name) rest := by
  simp only [List.mem_cons, List.not_mem_nil, or_false, not_or] at foreign
  obtain ⟨get, make, activate⟩ := foreign
  rw [unlessKnown_within, ← filling_calls activate]
  refine route_entering ?_ rfl (filling_stays part) ?_ ?_ current rest
  · simp [unlessKnown, Stmt.enters?]
  · simp [unlessKnown, Stmt.callsOf, Stmt.calls, Expr.isNull, Expr.calls, Expr.callsAll, Ne.symm get]
  · simp [create, Stmt.callsOf, Stmt.calls, Expr.calls, Expr.callsAll, Ne.symm make]

/-- The description of a node adds members to each of its interfaces in turn. -/
private theorem function_routed {other : String} (foreign : other ∉ ["GetInterface", "CreateInterface", "Activate"])
    (node : ObjectNode) : routed (.member other) (function node).body =
      node.interface.concrete.flatMap fun part => (described other part).map (some part.name, ·) := by
  have opened (rest : List Stmt) : route (.member other) none (Stmt.withinAll
      [.define ⟨.plain "QStatus", "status"⟩ (.name "ER_OK"),
       .define ⟨.pointer (.plain "InterfaceDescription"), "iface"⟩ .null, .blank] ++ rest) =
      route (.member other) none rest :=
    rfl
  rw [routed, function, List.append_assoc, Stmt.withinAll_append, opened, Stmt.withinAll_append, List.map_eq_flatMap]
  exact route_interfaces (part_route foreign) (fun _ => rfl) node.interface.concrete none

private theorem flatMap_nothing {α : Type} (items : List α) :
    items.flatMap (fun _ => ([] : List (List Expr))) = [] := by
  simp

private theorem described_methods (part : Interface) :
    described "AddMethod" part = part.methods.map fun declared => .name "iface" :: methodArgs declared := by
  simp [described, additions, List.flatMap_map, ← List.map_eq_flatMap, flatMap_nothing]

private theorem described_signals (part : Interface) :
    described "AddSignal" part = part.signals.map fun declared => .name "iface" :: signalArgs declared := by
  simp [described, additions, List.flatMap_map, ← List.map_eq_flatMap, flatMap_nothing]

private theorem described_properties (part : Interface) :
    described "AddProperty" part = part.properties.map fun declared => .name "iface" :: propertyArgs declared := by
  simp [described, additions, List.flatMap_map, ← List.map_eq_flatMap, flatMap_nothing]

theorem function_adds_methods (node : ObjectNode) : routed (.member "AddMethod") (function node).body =
    (node.interface.concrete.flatMap (Interface.among Interface.methods)).map fun declared =>
      (some declared.1.name, .name "iface" :: methodArgs declared.2) := by
  simp [function_routed, described_methods, List.map_flatMap, Interface.among, Function.comp_def]

theorem function_adds_signals (node : ObjectNode) : routed (.member "AddSignal") (function node).body =
    (node.interface.concrete.flatMap (Interface.among Interface.signals)).map fun declared =>
      (some declared.1.name, .name "iface" :: signalArgs declared.2) := by
  simp [function_routed, described_signals, List.map_flatMap, Interface.among, Function.comp_def]

theorem function_adds_properties (node : ObjectNode) : routed (.member "AddProperty") (function node).body =
    (node.interface.concrete.flatMap (Interface.among Interface.properties)).map fun declared =>
      (some declared.1.name, .name "iface" :: propertyArgs declared.2) := by
  simp [function_routed, described_properties, List.map_flatMap, Interface.among, Function.comp_def]

/-- Each interface is created in one place. -/
theorem function_enters (node : ObjectNode) :
    entered (function node).body = node.interface.concrete.map Interface.name := by
  have each (part : Interface) : entered [unlessKnown part] = [part.name] :=
    entered_once (unlessKnown_within part) (by simp [unlessKnown, Stmt.enters?]) rfl (filling_stays part)
  rw [function, entered_append, entered_append, List.map_eq_flatMap, entered_flatMap,
    List.flatMap_congr fun part _ => each part, ← List.map_eq_flatMap]
  exact List.append_nil _

end Describe

namespace Service

def handlerArgs (plan : Plan) (method : TypedMethod) : List Expr :=
  [.sendTo (.name "iface") "GetMember" [.quoted method.name],
   .cast (.plain "MessageReceiver::MethodHandler")
     (.address (.name (plan.serviceClass ++ "::" ++ method.name ++ "Handler")))]

private def lookUpInterface (part : Interface) : Stmt :=
  .assign (.name "iface") (lookUp "myBusAttachment" part.name)

private def attaching (plan : Plan) (part : Interface) : List Stmt :=
  [noSuchInterface, .assign (.name "status") (.apply "AddInterface" [.content (.name "iface")]),
   .returnOnError "status"] ++
  (plan.methods.filter (·.interface = part.name)).flatMap (installHandler plan)

private theorem attach_within (plan : Plan) (part : Interface) : Stmt.withinAll (attach plan part) =
    [.blank] ++ lookUpInterface part :: Stmt.withinAll (attaching plan part) := by
  simp [attach, attaching, Stmt.withinAll, Stmt.within, lookUpInterface]

private theorem install_stays (plan : Plan) (method : TypedMethod) :
    ∀ stmt ∈ Stmt.withinAll (installHandler plan method), stmt.enters? = none := by
  simp [installHandler, Stmt.withinAll, Stmt.within, Stmt.returnOnError, Stmt.enters?, Expr.apply]

private theorem attaching_stays (plan : Plan) (part : Interface) :
    ∀ stmt ∈ Stmt.withinAll (attaching plan part), stmt.enters? = none := by
  intro stmt member
  simp only [attaching, Stmt.withinAll_append, Stmt.withinAll_flatMap, List.mem_append, List.mem_flatMap] at member
  rcases member with member | ⟨method, -, member⟩
  · revert stmt
    simp [Stmt.withinAll, Stmt.within, noSuchInterface, Stmt.returnIfNull, Stmt.returnOnError, Stmt.enters?, Expr.apply]
  · exact install_stays plan method stmt member

private theorem install_calls (plan : Plan) (method : TypedMethod) :
    (Stmt.withinAll (installHandler plan method)).flatMap (Stmt.callsOf (.function "AddMethodHandler")) =
      [handlerArgs plan method] := by
  simp [installHandler, Stmt.within, Stmt.returnOnError, Stmt.callsOf, Stmt.calls, Expr.calls, Expr.callsAll, handlerArgs]

private theorem attaching_calls (plan : Plan) (part : Interface) :
    (Stmt.withinAll (attaching plan part)).flatMap (Stmt.callsOf (.function "AddMethodHandler")) =
      (plan.methods.filter (·.interface = part.name)).map (handlerArgs plan) := by
  have opened : (Stmt.withinAll [noSuchInterface,
      .assign (.name "status") (.apply "AddInterface" [.content (.name "iface")]), .returnOnError "status"]).flatMap
        (Stmt.callsOf (.function "AddMethodHandler")) = [] :=
    rfl
  rw [attaching, Stmt.withinAll_append, List.flatMap_append, opened, List.nil_append, Stmt.withinAll_flatMap,
    List.flatMap_assoc, List.map_eq_flatMap]
  exact List.flatMap_congr fun method _ => install_calls plan method

private theorem attach_route (plan : Plan) (part : Interface) (current : Option String) (rest : List Stmt) :
    route (.function "AddMethodHandler") current (Stmt.withinAll (attach plan part) ++ rest) =
      ((plan.methods.filter (·.interface = part.name)).map (handlerArgs plan)).map (some part.name, ·) ++
        route (.function "AddMethodHandler") (some part.name) rest := by
  rw [attach_within, ← attaching_calls]
  exact route_entering (by simp [Stmt.enters?]) rfl (attaching_stays plan part) rfl rfl current rest

private theorem functionName_ne (node : ObjectNode) : Describe.functionName node ≠ "AddMethodHandler" := by
  intro same
  have first := congrArg (fun text => text.toList.head?) same
  simp [Describe.functionName] at first

/-- The service looks up each interface and installs the handlers of the methods that it declares. -/
theorem initialize_installs (plan : Plan) :
    routed (.function "AddMethodHandler") (initializeDefinition plan).body =
      plan.node.interface.concrete.flatMap fun part =>
        (plan.methods.filter (·.interface = part.name)).map fun method => (some part.name, handlerArgs plan method) := by
  have opened (rest : List Stmt) : route (.function "AddMethodHandler") none (Stmt.withinAll
      [statusIs (.apply (Describe.functionName plan.node) [.content bus]), .returnOnError "status",
       .define ⟨interfaceDescription, "iface"⟩ .null] ++ rest) =
      route (.function "AddMethodHandler") none rest := by
    simp [route, Stmt.withinAll, Stmt.within, statusIs, Stmt.returnOnError, Stmt.callsOf, Stmt.calls, Expr.calls,
      Expr.callsAll, functionName_ne, Stmt.enters?, bus]
    rfl
  rw [routed, initializeDefinition, List.append_assoc, Stmt.withinAll_append, opened, Stmt.withinAll_append,
    route_interfaces (attach_route plan) (fun _ => rfl) plan.node.interface.concrete none]
  simp only [List.map_map, Function.comp_def]

/-- The service looks up each interface once, to attach it. -/
theorem initialize_enters (plan : Plan) :
    entered (initializeDefinition plan).body = plan.node.interface.concrete.map Interface.name := by
  have each (part : Interface) : entered (attach plan part) = [part.name] :=
    entered_once (attach_within plan part) (by simp [Stmt.enters?]) rfl (attaching_stays plan part)
  rw [initializeDefinition, entered_append, entered_append, entered_flatMap,
    List.flatMap_congr fun part _ => each part, ← List.map_eq_flatMap]
  exact List.append_nil _

end Service

/-- So does the client, for the remote object. -/
theorem Client.setUpProxy_enters (plan : Plan) :
    entered (setUpProxyDefinition plan).body = plan.node.interface.concrete.map Interface.name := by
  rw [setUpProxyDefinition, entered_append, entered_append, entered_flatMap, List.map_eq_flatMap]
  exact List.append_nil _

private theorem emitting_routed (signal : TypedSignal) (rest : List Stmt) :
    route (.member "GetMember") none (Stmt.withinAll (emitting signal) ++ rest) =
      (some signal.interface, [.name "iface", .quoted signal.name]) ::
        route (.member "GetMember") (some signal.interface) rest :=
  rfl

theorem send_routed (plan : Plan) (signal : TypedSignal) :
    routed (.member "GetMember") (Service.sendDefinition plan signal).body =
      [(some signal.interface, [.name "iface", .quoted signal.name])] := by
  have packing := (opening_moves signal.args).calls (.member "GetMember") (by decide)
  have rest : observe (Stmt.callsOf (.member "GetMember"))
      ((if signal.args.isEmpty then [] else [.blank]) ++ (opening signal.args ++ [.ret (emission signal)])) = [] := by
    rw [observe_append, observe_append, packing]
    split <;> simp [Stmt.within, Stmt.callsOf, Stmt.calls, emission, Expr.calls, Expr.callsAll, passed_quiet]
  rw [sendDefinition_body, List.append_assoc, List.append_assoc, routed, Stmt.withinAll_append, emitting_routed,
    route_silent rest]

def Client.receiverArgs (plan : Plan) (signal : TypedSignal) : List Expr :=
  [.name "this",
   .cast (.plain "MessageReceiver::SignalHandler")
     (.address (.name (plan.clientClass ++ "::" ++ signal.name ++ "Wrapper"))),
   .sendTo (.name "iface") "GetMember" [.quoted signal.name], .null]

theorem register_routed (plan : Plan) (signal : TypedSignal) :
    routed (.member "RegisterSignalHandler") (Client.registerDefinition plan signal).body =
      [(some signal.interface, Client.bus :: Client.receiverArgs plan signal)] :=
  rfl

theorem register_matches (plan : Plan) (signal : TypedSignal) :
    observe (Stmt.callsOf (.member "AddMatch")) (Client.registerDefinition plan signal).body =
      [[Client.bus, .quoted ("type='signal',interface='" ++ signal.interface ++ "',member='" ++ signal.name ++ "'")]] :=
  rfl

theorem getter_calls (plan : Plan) (property : TypedProperty) :
    observe (Stmt.callsOf (.member "GetProperty")) (Client.getterDefinition plan property).body =
      [[Client.proxy, .quoted property.interface, .quoted property.name, .name "propValue"]] := by
  have reading :=
    (property.slot.get_moves (.root "propValue") property.name false rfl).calls (.member "GetProperty") (by decide)
  simp [Client.getterDefinition, reading, Stmt.within, Stmt.returnOnError, statusIs, Stmt.callsOf, Stmt.calls,
    Expr.calls, Expr.callsAll, Client.proxy]

theorem setter_calls (plan : Plan) (property : TypedProperty) :
    observe (Stmt.callsOf (.member "SetProperty")) (Client.setterDefinition plan property).body =
      [[Client.proxy, .quoted property.interface, .quoted property.name, .name "propValue"]] := by
  have packing :=
    (property.slot.set_moves (.root "propValue") property.name rfl).calls (.member "SetProperty") (by decide)
  simp [Client.setterDefinition, packing, Stmt.within, Stmt.callsOf, Stmt.calls, Expr.calls, Expr.callsAll, Client.proxy]

/-- The interface and the property that a request must be for so that the branch is taken. -/
def Code.Stmt.asked? : Stmt → Option (String × String)
  | .branch (.binary .conjunction
      (.binary .equal (.call (.name "strcmp") [.name "ifcName", .quoted interface]) (.number 0))
      (.binary .equal (.call (.name "strcmp") [.name "propName", .quoted property]) (.number 0))) _ =>
    some (interface, property)
  | _ => none

theorem get_asks (plan : Plan) : (Service.getDefinition plan).body.filterMap Stmt.asked? =
    plan.properties.map fun property => (property.interface, property.name) := by
  have each : plan.properties.filterMap (Stmt.asked? ∘ Service.getBranch) =
      plan.properties.map fun property => (property.interface, property.name) := by
    rw [← List.filterMap_eq_map]
    rfl
  rw [Service.getDefinition, List.filterMap_append, List.filterMap_map, each]
  exact List.append_nil _

theorem set_asks (plan : Plan) : (Service.setDefinition plan).body.filterMap Stmt.asked? =
    plan.properties.map fun property => (property.interface, property.name) := by
  have each : plan.properties.filterMap (Stmt.asked? ∘ Service.setBranch) =
      plan.properties.map fun property => (property.interface, property.name) := by
    rw [← List.filterMap_eq_map]
    rfl
  rw [Service.setDefinition, List.filterMap_append, List.filterMap_map, each]
  exact List.append_nil _

end BusStub
