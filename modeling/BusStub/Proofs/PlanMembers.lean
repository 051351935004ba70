import BusStub.Proofs.InterfaceMembers
import BusStub.Proofs.RegistryEntries
import BusStub.Stub.Files

/-! What a plan is made of. The members of the concrete interfaces are listed in their order, each with the
interface that declares it and with the types that its arguments' signatures denote, and no two members of a
kind share a name. -/

namespace BusStub

/-- An argument with the type that its signature denotes. -/
structure TypedArg.Of (declared : Arg) (typed : TypedArg) : Prop where
  arg : typed.arg = declared
  type : BusType.parse declared.signature = .ok typed.type

structure TypedMethod.Of (declared : Interface × Method) (typed : TypedMethod) : Prop where
  method : typed.method = declared.2
  interface : typed.interface = declared.1.name
  secure : typed.secure = (declared.2.secure || declared.1.secure)
  args : List.Forall₂ TypedArg.Of declared.2.args typed.args

structure TypedSignal.Of (declared : Interface × Signal) (typed : TypedSignal) : Prop where
  signal : typed.signal = declared.2
  interface : typed.interface = declared.1.name
  secure : typed.secure = (declared.2.secure || declared.1.secure)
  args : List.Forall₂ TypedArg.Of declared.2.args typed.args

structure TypedProperty.Of (declared : Interface × Property) (typed : TypedProperty) : Prop where
  property : typed.property = declared.2
  interface : typed.interface = declared.1.name
  type : BusType.parse declared.2.signature = .ok typed.type

def Interface.among {α : Type} (members : Interface → List α) (part : Interface) : List (Interface × α) :=
  (members part).map (part, ·)

/-- All arguments and properties, in the order in which an interface lists them. -/
def Plan.values (plan : Plan) : List TypedArg :=
  plan.methods.flatMap TypedMethod.args ++ plan.signals.flatMap TypedSignal.args ++
  plan.properties.map fun property => ⟨property.property.arg, property.type⟩

namespace Plan

/-- The plan lists exactly the given members, no name twice, for a node that it leaves alone. -/
structure Lists (node : ObjectNode) (registry : Registry) (busName : Option String)
    (methods : List (Interface × Method)) (signals : List (Interface × Signal))
    (properties : List (Interface × Property)) (plan : Plan) : Prop where
  node : plan.node = node
  registry : plan.registry = registry
  busName : plan.busName = busName
  methods : List.Forall₂ TypedMethod.Of methods plan.methods
  signals : List.Forall₂ TypedSignal.Of signals plan.signals
  properties : List.Forall₂ TypedProperty.Of properties plan.properties
  methodNames : (plan.methods.map TypedMethod.name).Nodup
  signalNames : (plan.signals.map TypedSignal.name).Nodup
  propertyNames : (plan.properties.map TypedProperty.name).Nodup

theorem typeArg_spec {member : String} {arg : Arg} {typed : TypedArg} (made : typeArg member arg = .ok typed) :
    typed.Of arg := by
  obtain ⟨_, -, made⟩ := bind_ok made
  obtain ⟨type, parsed, made⟩ := bind_ok made
  cases made
  exact ⟨rfl, Arg.parse_ok parsed⟩

theorem typeArgs_spec {member : String} {args : List Arg} {typed : List TypedArg}
    (made : args.mapM (typeArg member) = .ok typed) : List.Forall₂ TypedArg.Of args typed :=
  (mapM_ok made).imp fun _ _ => typeArg_spec

private theorem names_append {α : Type} {members : List α} {name : α → String} {owner : α → String} {kind : MemberKind}
    {interface : String} {added : α} {passed : Unit} (nodup : (members.map name).Nodup)
    (checked : checkOwner kind (name added) ((members.find? (name · = name added)).map owner) interface = .ok passed) :
    ((members ++ [added]).map name).Nodup := by
  cases found : members.find? (name · = name added) with
  | some first => simp [found, checkOwner] at checked
  | none =>
    have fresh : ∀ member ∈ members, name member ≠ name added := by simpa using found
    rw [List.map_append, List.nodup_append]
    exact ⟨nodup, by simp, by simpa using fresh⟩

section
variable {node : ObjectNode} {registry : Registry} {busName : Option String} {methods : List (Interface × Method)}
variable {signals : List (Interface × Signal)} {properties : List (Interface × Property)} {part : Interface}
variable {plan next : Plan}

namespace Lists

theorem addMethod {method : Method} (lists : Lists node registry busName methods signals properties plan)
    (added : plan.addMethod part method = .ok next) :
    Lists node registry busName (methods ++ [(part, method)]) signals properties next := by
  obtain ⟨_, free, added⟩ := bind_ok added
  obtain ⟨args, made, added⟩ := bind_ok added
  cases added
  have typed : TypedMethod.Of (part, method) ⟨method, part.name, method.secure || part.secure, args⟩ :=
    ⟨rfl, rfl, rfl, typeArgs_spec made⟩
  exact { lists with
    methods := List.rel_append lists.methods (.cons typed .nil)
    methodNames := names_append lists.methodNames free }

theorem addSignal {signal : Signal} (lists : Lists node registry busName methods signals properties plan)
    (added : plan.addSignal part signal = .ok next) :
    Lists node registry busName methods (signals ++ [(part, signal)]) properties next := by
  obtain ⟨_, free, added⟩ := bind_ok added
  obtain ⟨args, made, added⟩ := bind_ok added
  cases added
  have typed : TypedSignal.Of (part, signal) ⟨signal, part.name, signal.secure || part.secure, args⟩ :=
    ⟨rfl, rfl, rfl, typeArgs_spec made⟩
  exact { lists with
    signals := List.rel_append lists.signals (.cons typed .nil)
    signalNames := names_append lists.signalNames free }

theorem addProperty {property : Property} (lists : Lists node registry busName methods signals properties plan)
    (added : plan.addProperty part property = .ok next) :
    Lists node registry busName methods signals (properties ++ [(part, property)]) next := by
  obtain ⟨_, free, added⟩ := bind_ok added
  obtain ⟨arg, made, added⟩ := bind_ok added
  cases added
  have typed : TypedProperty.Of (part, property) ⟨property, part.name, arg.type⟩ :=
    ⟨rfl, rfl, (typeArg_spec made).type⟩
  exact { lists with
    properties := List.rel_append lists.properties (.cons typed .nil)
    propertyNames := names_append lists.propertyNames free }

theorem addMethods {done : List Method} (lists : Lists node registry busName methods signals properties plan)
    (run : done.foldlM (Plan.addMethod part) plan = .ok next) :
    Lists node registry busName (methods ++ done.map (part, ·)) signals properties next := by
  refine foldlM_ok
    (fun before state => Lists node registry busName (methods ++ before.map (part, ·)) signals properties state)
    run (by simpa using lists) ?_
  intro before method state next lists added
  simpa using lists.addMethod added

theorem addSignals {done : List Signal} (lists : Lists node registry busName methods signals properties plan)
    (run : done.foldlM (Plan.addSignal part) plan = .ok next) :
    Lists node registry busName methods (signals ++ done.map (part, ·)) properties next := by
  refine foldlM_ok
    (fun before state => Lists node registry busName methods (signals ++ before.map (part, ·)) properties state)
    run (by simpa using lists) ?_
  intro before signal state next lists added
  simpa using lists.addSignal added

theorem addProperties {done : List Property} (lists : Lists node registry busName methods signals properties plan)
    (run : done.foldlM (Plan.addProperty part) plan = .ok next) :
    Lists node registry busName methods signals (properties ++ done.map (part, ·)) next := by
  refine foldlM_ok
    (fun before state => Lists node registry busName methods signals (properties ++ before.map (part, ·)) state)
    run (by simpa using lists) ?_
  intro before property state next lists added
  simpa using lists.addProperty added

theorem addInterface (lists : Lists node registry busName methods signals properties plan)
    (added : plan.addInterface part = .ok next) :
    Lists node registry busName (methods ++ part.among Interface.methods) (signals ++ part.among Interface.signals)
      (properties ++ part.among Interface.properties) next := by
  obtain ⟨first, methodRun, added⟩ := bind_ok added
  obtain ⟨second, signalRun, propertyRun⟩ := bind_ok added
  exact ((lists.addMethods methodRun).addSignals signalRun).addProperties propertyRun

end Lists
end

theorem added_lists {node : ObjectNode} {registry : Registry} {busName : Option String} {parts : List Interface}
    {plan : Plan} (added : parts.foldlM addInterface { node, registry, busName } = .ok plan) :
    plan.Lists node registry busName (parts.flatMap (Interface.among Interface.methods))
      (parts.flatMap (Interface.among Interface.signals)) (parts.flatMap (Interface.among Interface.properties)) := by
  refine foldlM_ok (fun before state => Lists node registry busName (before.flatMap (Interface.among Interface.methods))
    (before.flatMap (Interface.among Interface.signals)) (before.flatMap (Interface.among Interface.properties)) state)
    added ?_ ?_
  · exact ⟨rfl, rfl, rfl, .nil, .nil, .nil, .nil, .nil, .nil⟩
  · intro before part state next lists added
    simpa using lists.addInterface added

theorem make_lists {node : ObjectNode} {registry : Registry} {busName : Option String} {plan : Plan}
    (made : make node registry busName = .ok plan) :
    plan.Lists node registry busName (node.interface.concrete.flatMap (Interface.among Interface.methods))
      (node.interface.concrete.flatMap (Interface.among Interface.signals))
      (node.interface.concrete.flatMap (Interface.among Interface.properties)) :=
  added_lists made

private theorem flatMap_among {α β : Type} (parts : List Interface) (members : Interface → List α) (f : α → List β) :
    (parts.flatMap (Interface.among members)).flatMap (fun declared => f declared.2) =
      (parts.flatMap members).flatMap f := by
  simp [List.flatMap_assoc, Interface.among, List.flatMap_map]

/-- The values of a plan are those of the interface, with the types that their signatures denote. -/
theorem make_values {node : ObjectNode} {registry : Registry} {busName : Option String} {plan : Plan}
    (listed : node.interface.Listed) (made : make node registry busName = .ok plan) :
    List.Forall₂ TypedArg.Of (node.interface.values.map Prod.snd) plan.values := by
  have lists := make_lists made
  have methods : List.Forall₂ TypedArg.Of (node.interface.methods.flatMap Method.args)
      (plan.methods.flatMap TypedMethod.args) := by
    rw [listed.methods, ← flatMap_among]
    exact List.rel_flatMap lists.methods fun _ _ typed => typed.args
  have signals : List.Forall₂ TypedArg.Of (node.interface.signals.flatMap Signal.args)
      (plan.signals.flatMap TypedSignal.args) := by
    rw [listed.signals, ← flatMap_among]
    exact List.rel_flatMap lists.signals fun _ _ typed => typed.args
  have properties : List.Forall₂ TypedArg.Of (node.interface.properties.map Property.arg)
      (plan.properties.map fun property => ⟨property.property.arg, property.type⟩) := by
    rw [listed.properties, List.map_eq_flatMap, List.map_eq_flatMap, ← flatMap_among]
    refine List.rel_flatMap lists.properties fun declared property typed => .cons ⟨?_, typed.type⟩ .nil
    simp [typed.property]
  have values := List.rel_append (List.rel_append methods signals) properties
  simpa [Interface.values, Plan.values, List.map_flatMap, Function.comp_def] using values

/-- No value is called by a name that generated code declares beside it. -/
def Unreserved (plan : Plan) : Prop :=
  ∀ value ∈ plan.values, isReserved value.name = false

theorem typeArg_unreserved {member : String} {arg : Arg} {typed : TypedArg} (made : typeArg member arg = .ok typed) :
    isReserved typed.name = false := by
  have same : typed.arg = arg := (typeArg_spec made).arg
  obtain ⟨_, checked, -⟩ := bind_ok made
  rw [TypedArg.name, same]
  cases reserved : isReserved arg.name with
  | true => simp [checkName, reserved] at checked
  | false => rfl

theorem typeArgs_unreserved {member : String} {args : List Arg} {typed : List TypedArg}
    (made : args.mapM (typeArg member) = .ok typed) : ∀ arg ∈ typed, isReserved arg.name = false := by
  intro arg inside
  obtain ⟨_, -, one⟩ := exists_of_forall₂ (mapM_ok made) inside
  exact typeArg_unreserved one

namespace Unreserved

variable {part : Interface} {plan next : Plan}

theorem addMethod {method : Method} (free : plan.Unreserved) (added : plan.addMethod part method = .ok next) :
    next.Unreserved := by
  obtain ⟨_, -, added⟩ := bind_ok added
  obtain ⟨args, made, added⟩ := bind_ok added
  cases added
  have others := typeArgs_unreserved made
  simp only [Unreserved, values, List.forall_mem_append, List.flatMap_append] at free ⊢
  exact ⟨⟨⟨free.1.1, by simpa using others⟩, free.1.2⟩, free.2⟩

theorem addSignal {signal : Signal} (free : plan.Unreserved) (added : plan.addSignal part signal = .ok next) :
    next.Unreserved := by
  obtain ⟨_, -, added⟩ := bind_ok added
  obtain ⟨args, made, added⟩ := bind_ok added
  cases added
  have others := typeArgs_unreserved made
  simp only [Unreserved, values, List.forall_mem_append, List.flatMap_append] at free ⊢
  exact ⟨⟨free.1.1, free.1.2, by simpa using others⟩, free.2⟩

theorem addProperty {property : Property} (free : plan.Unreserved)
    (added : plan.addProperty part property = .ok next) : next.Unreserved := by
  obtain ⟨_, -, added⟩ := bind_ok added
  obtain ⟨arg, made, added⟩ := bind_ok added
  cases added
  have other : isReserved property.arg.name = false := by
    have checked := typeArg_unreserved made
    rwa [TypedArg.name, (typeArg_spec made).arg] at checked
  simp only [Unreserved, values, List.forall_mem_append, List.map_append] at free ⊢
  exact ⟨free.1, free.2, by simpa [TypedArg.name] using other⟩

theorem addInterface (free : plan.Unreserved) (added : plan.addInterface part = .ok next) : next.Unreserved := by
  obtain ⟨first, methodRun, added⟩ := bind_ok added
  obtain ⟨second, signalRun, propertyRun⟩ := bind_ok added
  have afterMethods : first.Unreserved :=
    foldlM_ok (fun _ state => Unreserved state) methodRun free fun _ _ _ _ free added => free.addMethod added
  have afterSignals : second.Unreserved :=
    foldlM_ok (fun _ state => Unreserved state) signalRun afterMethods fun _ _ _ _ free added => free.addSignal added
  exact foldlM_ok (fun _ state => Unreserved state) propertyRun afterSignals
    fun _ _ _ _ free added => free.addProperty added

theorem method {method : TypedMethod} (free : plan.Unreserved) (member : method ∈ plan.methods) :
    ∀ arg ∈ method.args, isReserved arg.name = false := by
  intro arg inside
  refine free arg (List.mem_append_left _ (List.mem_append_left _ ?_))
  exact List.mem_flatMap.mpr ⟨method, member, inside⟩

theorem signal {signal : TypedSignal} (free : plan.Unreserved) (member : signal ∈ plan.signals) :
    ∀ arg ∈ signal.args, isReserved arg.name = false := by
  intro arg inside
  refine free arg (List.mem_append_left _ (List.mem_append_right _ ?_))
  exact List.mem_flatMap.mpr ⟨signal, member, inside⟩

theorem property {property : TypedProperty} (free : plan.Unreserved) (member : property ∈ plan.properties) :
    isReserved property.name = false :=
  free ⟨property.property.arg, property.type⟩ (List.mem_append_right _ (List.mem_map_of_mem member))

end Unreserved

theorem make_unreserved {node : ObjectNode} {registry : Registry} {busName : Option String} {plan : Plan}
    (made : make node registry busName = .ok plan) : plan.Unreserved := by
  refine foldlM_ok (fun _ state => Unreserved state) made ?_ fun _ _ _ _ free added => free.addInterface added
  exact fun _ inside => nomatch inside

end Plan
end BusStub
