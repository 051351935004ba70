import BusStub.Proofs.Routing

/-! Client, service and interface description agree. Each of them goes through the arguments of a member on its
own, in the order of the plan or of the model; what one sends is what the other expects, and what the
description says, under the interface that declares the member. -/

namespace BusStub
open Code Routine Describe

/-- Calls of a method and replies to them. -/
structure TypedMethod.Agrees (plan : Plan) (method : TypedMethod) : Prop where
  clientCode : .function (Client.callDefinition plan method) ∈ Client.source plan
  serviceCode : .function (Service.handlerDefinition plan method) ∈ Service.source plan
  replyCode : method.expectsReply → .function (Service.replyDefinition plan method) ∈ Service.source plan
  packs : Packs method.inArgs (Client.callDefinition plan method).body
  calls : observe (Stmt.callsOf (.member "MethodCall")) (Client.callDefinition plan method).body =
    [.name "proxyBusObj" :: .quoted method.interface :: .quoted method.name :: passed method.inArgs ::
      .number method.inArgs.length :: Client.callTail method]
  serves : Reads method.inArgs "msg" "args" true (Service.handlerDefinition plan method).body
  replies : method.expectsReply → Packs method.outArgs (Service.replyDefinition plan method).body ∧
    observe (Stmt.callsOf (.function "MethodReply")) (Service.replyDefinition plan method).body =
      [[.name "msg", if method.outArgs.isEmpty then .cast (.constPointer .message) .null else .name "args",
        .number method.outArgs.length]]
  returns : method.expectsReply → method.outArgs ≠ [] →
    Reads method.outArgs "replyMsg" "returnArgs" false (Client.callDefinition plan method).body
  ignores : ¬(method.expectsReply ∧ method.outArgs ≠ []) → Ignores (Client.callDefinition plan method).body

/-- Signals, from the function that sends them to the one that receives them. -/
structure TypedSignal.Agrees (plan : Plan) (signal : TypedSignal) : Prop where
  serviceCode : .function (Service.sendDefinition plan signal) ∈ Service.source plan
  clientCode : .function (Client.registerDefinition plan signal) ∈ Client.source plan ∧
    .function (Client.wrapperDefinition plan signal) ∈ Client.source plan
  packs : Packs signal.args (Service.sendDefinition plan signal).body
  sends : observe (Stmt.callsOf (.function "Signal")) (Service.sendDefinition plan signal).body =
    [[.name "destination", .name "sessionId", .content (.name "member"), passed signal.args,
      .number signal.args.length, .number 0, .name (if signal.secure then "ALLJOYN_FLAG_ENCRYPTED" else "0")]]
  sender : routed (.member "GetMember") (Service.sendDefinition plan signal).body =
    [(some signal.interface, [.name "iface", .quoted signal.name])]
  receives : signal.args ≠ [] → Reads signal.args "msg" "args" true (Client.wrapperDefinition plan signal).body
  ignores : signal.args = [] → Ignores (Client.wrapperDefinition plan signal).body
  receiver : routed (.member "RegisterSignalHandler") (Client.registerDefinition plan signal).body =
    [(some signal.interface, .name "myBusAttachment" :: Client.receiverArgs plan signal)]
  rule : observe (Stmt.callsOf (.member "AddMatch")) (Client.registerDefinition plan signal).body =
    [[.name "myBusAttachment",
      .quoted ("type='signal',interface='" ++ signal.interface ++ "',member='" ++ signal.name ++ "'")]]

/-- Requests for a property. Of all branches of the service only one is for a property of that name. -/
structure TypedProperty.Agrees (plan : Plan) (property : TypedProperty) : Prop where
  getCode : property.property.readable → .function (Client.getterDefinition plan property) ∈ Client.source plan
  setCode : property.property.writable → .function (Client.setterDefinition plan property) ∈ Client.source plan
  serviceCode : .function (Service.getDefinition plan) ∈ Service.source plan ∧
    .function (Service.setDefinition plan) ∈ Service.source plan
  gets : observe (Stmt.callsOf (.member "GetProperty")) (Client.getterDefinition plan property).body =
    [[.name "proxyBusObj", .quoted property.interface, .quoted property.name, .name "propValue"]]
  sets : observe (Stmt.callsOf (.member "SetProperty")) (Client.setterDefinition plan property).body =
    [[.name "proxyBusObj", .quoted property.interface, .quoted property.name, .name "propValue"]]
  answers : ((Service.getDefinition plan).body.filterMap Stmt.asked?).filter (·.2 = property.name) =
    [(property.interface, property.name)]
  accepts : ((Service.setDefinition plan).body.filterMap Stmt.asked?).filter (·.2 = property.name) =
    [(property.interface, property.name)]

structure Plan.Described (plan : Plan) : Prop where
  code : .function (Describe.function plan.node) ∈ TypesHeader.items plan
  methods : routed (.member "AddMethod") (Describe.function plan.node).body = plan.methods.map fun method =>
    (some method.interface, [.name "iface", .quoted method.name, quotedOrNull (signatureOf method.inArgs),
      quotedOrNull (signatureOf method.outArgs), quotedOrNull method.method.argNames,
      .name (if method.expectsReply then "0" else "MEMBER_ANNOTATE_NO_REPLY")])
  signals : routed (.member "AddSignal") (Describe.function plan.node).body = plan.signals.map fun signal =>
    (some signal.interface, [.name "iface", .quoted signal.name, quotedOrNull (signatureOf signal.args),
      quotedOrNull signal.signal.argNames, .name "0"])
  properties : routed (.member "AddProperty") (Describe.function plan.node).body = plan.properties.map fun property =>
    (some property.interface, [.name "iface", .quoted property.name, .quoted property.type.text,
      .name (accessConstant property.property.access)])

/-- The service installs the handler of each method at the interface that declares it, and no other. -/
structure Plan.Installed (plan : Plan) : Prop where
  code : .function (Service.initializeDefinition plan) ∈ Service.source plan
  handlers : ∀ entry, entry ∈ routed (.function "AddMethodHandler") (Service.initializeDefinition plan).body ↔
    ∃ method ∈ plan.methods, entry = (some method.interface, Service.handlerArgs plan method)

section
variable {plan : Plan}

private theorem client_method {method : TypedMethod} (member : method ∈ plan.methods) {item : Item}
    (inside : item ∈ Client.methodItems plan method) : item ∈ Client.source plan := by
  have listed := List.mem_flatMap.mpr ⟨method, member, inside⟩
  simp only [Client.source, List.mem_append]
  exact .inl (.inl (.inr listed))

private theorem service_method {method : TypedMethod} (member : method ∈ plan.methods) {item : Item}
    (inside : item ∈ Service.methodItems plan method) : item ∈ Service.source plan := by
  have listed := List.mem_flatMap.mpr ⟨method, member, inside⟩
  simp only [Service.source, List.mem_append]
  exact .inl (.inl (.inr listed))

private theorem client_signal {signal : TypedSignal} (member : signal ∈ plan.signals) {item : Item}
    (inside : item ∈ Client.signalItems plan signal) : item ∈ Client.source plan := by
  have listed := List.mem_flatMap.mpr ⟨signal, member, inside⟩
  simp only [Client.source, List.mem_append]
  exact .inl (.inr listed)

private theorem service_signal {signal : TypedSignal} (member : signal ∈ plan.signals) {item : Item}
    (inside : item ∈ Service.signalItems plan signal) : item ∈ Service.source plan := by
  have listed := List.mem_flatMap.mpr ⟨signal, member, inside⟩
  simp only [Service.source, List.mem_append]
  exact .inl (.inr listed)

private theorem client_property {property : TypedProperty} (member : property ∈ plan.properties) {item : Item}
    (inside : item ∈ Client.propertyItems plan property) : item ∈ Client.source plan := by
  have listed := List.mem_flatMap.mpr ⟨property, member, inside⟩
  simp only [Client.source, List.mem_append]
  exact .inr listed

private theorem service_properties {property : TypedProperty} (member : property ∈ plan.properties) :
    .function (Service.getDefinition plan) ∈ Service.source plan ∧
    .function (Service.setDefinition plan) ∈ Service.source plan := by
  have nonempty : ¬plan.properties.isEmpty := by
    simpa using List.ne_nil_of_mem member
  have listed : Service.propertyItems plan =
      [.function (Service.getDefinition plan), .blank, .function (Service.setDefinition plan)] := if_neg nonempty
  simp only [Service.source, List.mem_append, listed]
  exact ⟨.inr (by simp), .inr (by simp)⟩

theorem TypedMethod.agrees {method : TypedMethod} (member : method ∈ plan.methods) : method.Agrees plan where
  clientCode := client_method member (by simp [Client.methodItems])
  serviceCode := service_method member (by simp [Service.methodItems])
  replyCode replied := service_method member (by simp [Service.methodItems, replied])
  packs := call_packs plan method
  calls := call_calls plan method
  serves := handler_reads plan method
  replies _ := ⟨reply_packs plan method, reply_calls plan method⟩
  returns := call_reads plan method
  ignores := call_ignores plan method

theorem TypedSignal.agrees {signal : TypedSignal} (member : signal ∈ plan.signals) : signal.Agrees plan where
  serviceCode := service_signal member (by simp [Service.signalItems])
  clientCode :=
    ⟨client_signal member (by simp [Client.signalItems]), client_signal member (by simp [Client.signalItems])⟩
  packs := send_packs plan signal
  sends := send_calls plan signal
  sender := send_routed plan signal
  receives := wrapper_reads plan signal
  ignores := wrapper_ignores plan signal
  receiver := register_routed plan signal
  rule := register_matches plan signal

private theorem filter_property {properties : List TypedProperty} (nodup : (properties.map TypedProperty.name).Nodup)
    {property : TypedProperty} (member : property ∈ properties) :
    (properties.map fun property => (property.interface, property.name)).filter (·.2 = property.name) =
      [(property.interface, property.name)] := by
  have found := List.filter_of_nodup_map TypedProperty.name property nodup member
  simp only [List.filter_map, Function.comp_def, found, List.map_cons, List.map_nil]

theorem TypedProperty.agrees (nodup : (plan.properties.map TypedProperty.name).Nodup) {property : TypedProperty}
    (member : property ∈ plan.properties) : property.Agrees plan where
  getCode readable := client_property member (by simp [Client.propertyItems, Client.accessorDefinitions, readable])
  setCode writable := client_property member (by simp [Client.propertyItems, Client.accessorDefinitions, writable])
  serviceCode := service_properties member
  gets := getter_calls plan property
  sets := setter_calls plan property
  answers := by rw [get_asks, filter_property nodup member]
  accepts := by rw [set_asks, filter_property nodup member]

end

section
variable {node : ObjectNode} {registry : Registry} {busName : Option String} {plan : Plan}

theorem Plan.described (lists : plan.Lists node registry busName
      (node.interface.concrete.flatMap (Interface.among Interface.methods))
      (node.interface.concrete.flatMap (Interface.among Interface.signals))
      (node.interface.concrete.flatMap (Interface.among Interface.properties))) : plan.Described where
  code := by simp [TypesHeader.items, Describe.items]
  methods := by
    rw [lists.node, function_adds_methods]
    refine map_eq_of_forall₂ lists.methods fun declared method typed => ?_
    simp only [methodArgs, typed.inSignature, typed.outSignature, typed.interface, TypedMethod.name, typed.method,
      TypedMethod.expectsReply]
    cases declared.2.noReply <;> rfl
  signals := by
    rw [lists.node, function_adds_signals]
    refine map_eq_of_forall₂ lists.signals fun declared signal typed => ?_
    simp only [signalArgs, typed.signature, typed.interface, TypedSignal.name, typed.signal]
  properties := by
    rw [lists.node, function_adds_properties]
    refine map_eq_of_forall₂ lists.properties fun declared property typed => ?_
    simp only [propertyArgs, BusType.text_of_parse typed.type, typed.interface, TypedProperty.name, typed.property]

theorem Plan.installed (lists : plan.Lists node registry busName
      (node.interface.concrete.flatMap (Interface.among Interface.methods))
      (node.interface.concrete.flatMap (Interface.among Interface.signals))
      (node.interface.concrete.flatMap (Interface.among Interface.properties))) : plan.Installed where
  code := by simp [Service.source]
  handlers entry := by
    rw [Service.initialize_installs, lists.node]
    simp only [List.mem_flatMap, List.mem_map, List.mem_filter, decide_eq_true_eq]
    constructor
    · rintro ⟨part, -, method, ⟨member, same⟩, rfl⟩
      exact ⟨method, member, by rw [same]⟩
    · rintro ⟨method, member, rfl⟩
      obtain ⟨declared, listed, typed⟩ := exists_of_forall₂ lists.methods member
      obtain ⟨part, inside, among⟩ := List.mem_flatMap.mp listed
      obtain ⟨_, -, rfl⟩ := List.mem_map.mp among
      exact ⟨part, inside, method, ⟨member, typed.interface⟩, by rw [typed.interface]⟩

end

/-- Whenever stubs are generated with the service, client, service and description agree on every member of
the object's concrete interfaces: on the arguments that travel, in order, number and type, on the signatures
that the bus is told, and on the interface that everything goes through. -/
theorem sides_agree (node : ObjectNode) (options : StubOptions) (files : List OutputFile)
    (service : options.service = true) (emitted : node.emit options = .ok files) :
    ∃ plan, node.plan options = .ok plan ∧ files = (plan.files true).map StubFile.print ∧
      plan.Lists node plan.registry options.busName
        (node.interface.concrete.flatMap (Interface.among Interface.methods))
        (node.interface.concrete.flatMap (Interface.among Interface.signals))
        (node.interface.concrete.flatMap (Interface.among Interface.properties)) ∧
      plan.Described ∧ plan.Installed ∧ (∀ method ∈ plan.methods, method.Agrees plan) ∧
      (∀ signal ∈ plan.signals, signal.Agrees plan) ∧ ∀ property ∈ plan.properties, property.Agrees plan := by
  obtain ⟨plan, planned, printed⟩ := ObjectNode.emit_spec emitted
  obtain ⟨registry, -, made⟩ := ObjectNode.plan_spec planned
  have lists := Plan.make_lists made
  obtain rfl := lists.registry
  rw [service] at printed
  refine ⟨plan, planned, printed, lists, Plan.described lists, Plan.installed lists, ?_, ?_, ?_⟩
  · exact fun method member => TypedMethod.agrees member
  · exact fun signal member => TypedSignal.agrees member
  · exact fun property member => TypedProperty.agrees lists.propertyNames member

/-- An object with two interfaces: inputs and outputs of a method stand in any order, one method has no reply, and
one signal brings nothing. -/
def door : ObjectNode :=
  let unlock : Method :=
    { name := "Unlock"
      args := [⟨"code", "s", .input, none⟩, ⟨"log", "a(ts)", .output, none⟩, ⟨"steps", "au", .input, none⟩] }
  let knock : Method := { name := "Knock", args := [⟨"how", "v", .input, none⟩], noReply := true }
  let moved : Signal := { name := "Moved", args := [⟨"angle", "d", .input, none⟩] }
  let closed : Signal := { name := "Closed" }
  let lock : Interface := { name := "org.house.Lock", methods := [unlock], signals := [closed], secure := true }
  let panel : Interface :=
    { name := "org.house.Panel", methods := [knock], signals := [moved]
      properties := [⟨"color", "(yyy)", .readWrite⟩] }
  { name := "Door", path := "/door"
    interface :=
      { name := "Lock__Panel", methods := [unlock, knock], signals := [closed, moved]
        properties := [⟨"color", "(yyy)", .readWrite⟩], parents := [lock, panel] } }

theorem door_sides_agree : ({} : StubOptions).service = true ∧
    ∃ files plan, door.emit {} = .ok files ∧ door.plan {} = .ok plan ∧
    plan.methods.map (fun method => (method.interface, signatureOf method.inArgs, signatureOf method.outArgs)) =
      [("org.house.Lock", "sau", "a(ts)"), ("org.house.Panel", "v", "")] ∧
    plan.Described ∧ plan.Installed ∧ (∀ method ∈ plan.methods, method.Agrees plan) ∧
    (∀ signal ∈ plan.signals, signal.Agrees plan) ∧ ∀ property ∈ plan.properties, property.Agrees plan := by
  obtain ⟨files, emitted⟩ : ∃ files, door.emit {} = .ok files := ⟨_, rfl⟩
  obtain ⟨plan, planned, -, -, agrees⟩ := sides_agree door {} files rfl emitted
  refine ⟨rfl, files, plan, emitted, planned, ?_, agrees⟩
  cases planned
  decide

end BusStub
