import BusStub.Proofs.Agreement
import BusStub.Proofs.ClassMembers
import BusStub.Proofs.FunctionScopes

/-! Headers and the sources that belong to them. Both are emitted for themselves, from the same members of an object;
every function that a class declares is defined once for that class, and no other function is. -/

namespace BusStub
open Code Routine

namespace Code

def Param.withoutDefault (param : Param) : Param :=
  { param with default := none }

/-- Defaults are not said again where a function is defined. -/
def Prototype.withoutDefaults (prototype : Prototype) : Prototype :=
  { prototype with params := prototype.params.map Param.withoutDefault }

/-- The header declares one class, whose functions are exactly those that the sources define, each as often and as it is
said again there; and the sources define them for that class. -/
def Implements (sources header : List Item) (again : Prototype → Prototype) : Prop :=
  ∃ klass, classes header = [klass] ∧
    (klass.functions.map again).Perm ((functions sources).map Definition.prototype) ∧
    ∀ definition ∈ functions sources, definition.owner = some klass.name

end Code

theorem functions_append (first second : List Item) :
    functions (first ++ second) = functions first ++ functions second :=
  List.filterMap_append

namespace Client

theorem handlers_functions (plan : Plan) : functions (handlers plan) = plan.signals.map (handlerDefinition plan) := by
  simp only [handlers, functions, List.filterMap_append, List.filterMap_flatMap, List.map_eq_flatMap]
  rfl

theorem accessors_defined (plan : Plan) (property : TypedProperty) :
    (accessorDefinitions plan property).map Definition.prototype = accessors property := by
  unfold accessorDefinitions accessors
  cases property.property.readable <;> cases property.property.writable <;> rfl

/-- The functions that the source defines, as they are declared. -/
theorem source_prototypes (plan : Plan) : (functions (source plan)).map Definition.prototype =
    [constructorPrototype plan, destructorPrototype plan] ++ (if plan.busName.isSome then [findName] else []) ++
    [setUpProxy] ++ plan.methods.flatMap (fun method => [call method]) ++
    plan.signals.flatMap (fun signal => [register signal, wrapper signal]) ++ plan.properties.flatMap accessors := by
  have found : (if plan.busName.isSome then [findNameDefinition plan] else []).map Definition.prototype =
      if plan.busName.isSome then [findName] else [] := by
    split <;> rfl
  simp only [Plan.client_functions, List.map_append, List.map_flatMap, found, accessors_defined]
  rfl

theorem source_owned (plan : Plan) :
    ∀ definition ∈ functions (source plan), definition.owner = some plan.clientClass := by
  have found : ∀ definition ∈ (if plan.busName.isSome then [findNameDefinition plan] else []),
      definition.owner = some plan.clientClass := by
    split <;> simp [findNameDefinition]
  have accessed (property : TypedProperty) : ∀ definition ∈ accessorDefinitions plan property,
      definition.owner = some plan.clientClass := by
    unfold accessorDefinitions
    split <;> split <;> simp [getterDefinition, setterDefinition]
  simp only [Plan.client_functions, List.forall_mem_append, List.forall_mem_cons, List.forall_mem_flatMap]
  have none := List.forall_mem_nil fun definition : Definition => definition.owner = some plan.clientClass
  exact ⟨⟨⟨⟨⟨⟨rfl, rfl, none⟩, found⟩, rfl, none⟩, fun _ _ => ⟨rfl, none⟩⟩, fun _ _ => ⟨rfl, rfl, none⟩⟩,
    fun property _ => accessed property⟩

/-- The class has the wrapper of a signal beside its handler, the source beside its registration. -/
theorem functions_defined (plan : Plan) :
    (klass plan).functions.Perm ((functions (source plan ++ handlers plan)).map Definition.prototype) := by
  have declared : (plan.signals.flatMap fun signal => [wrapper signal, handler signal]).Perm
      (plan.signals.map wrapper ++ plan.signals.map handler) := by
    rw [List.map_eq_flatMap (f := handler)]
    exact (List.map_append_flatMap_perm plan.signals wrapper _).symm
  have defined : (plan.signals.flatMap fun signal => [register signal, wrapper signal]).Perm
      (plan.signals.map register ++ plan.signals.map wrapper) := by
    rw [List.map_eq_flatMap (f := wrapper)]
    exact (List.map_append_flatMap_perm plan.signals register _).symm
  have handled : (functions (handlers plan)).map Definition.prototype = plan.signals.map handler := by
    rw [handlers_functions, List.map_map]
    rfl
  rw [functions_append, List.map_append, source_prototypes, handled, functions_eq]
  refine List.perm_iff_count.mpr fun prototype => ?_
  have := declared.count_eq prototype
  have := defined.count_eq prototype
  simp only [List.count_append, ← List.map_eq_flatMap] at *
  omega

end Client

theorem Slot.params_plain (slot : Slot) (name : String) (direction : Direction) :
    (slot.params name direction).map Param.withoutDefault = slot.params name direction := by
  unfold params
  cases slot.isCounted <;> cases direction <;> rfl

/-- Only where a signal goes has defaults; values never do. -/
theorem params_plain (args : List TypedArg) (direction : TypedArg → Direction) :
    (args.flatMap fun arg => arg.params (direction arg)).map Param.withoutDefault =
      args.flatMap fun arg => arg.params (direction arg) := by
  rw [List.map_flatMap]
  exact List.flatMap_congr fun arg _ => arg.slot.params_plain arg.name (direction arg)

namespace Service

theorem send_again (signal : TypedSignal) : (send signal true).withoutDefaults = send signal false := by
  have values : signal.params.map Param.withoutDefault = signal.params := params_plain signal.args fun _ => .input
  rw [send, statusFunction, Prototype.withoutDefaults, List.map_append, values]
  rfl

theorem reply_again (method : TypedMethod) : (reply method).withoutDefaults = reply method := by
  have values := params_plain method.outArgs fun _ => .input
  rw [reply, statusFunction, Prototype.withoutDefaults, List.map_cons, values]
  rfl

theorem implementation_again (method : TypedMethod) :
    (implementation method).withoutDefaults = implementation method := by
  have values : method.params.map Param.withoutDefault = method.params :=
    params_plain method.args fun arg => arg.arg.direction
  rw [implementation, procedure, Prototype.withoutDefaults, values]

theorem methods_functions (plan : Plan) :
    functions (methods plan) = plan.methods.map (implementationDefinition plan) := by
  simp only [methods, functions, List.filterMap_append, List.filterMap_flatMap, List.map_eq_flatMap]
  rfl

/-- The functions that the header declares, as they are said again. -/
theorem header_prototypes (plan : Plan) : (klass plan).functions.map Prototype.withoutDefaults =
    [constructorPrototype plan, destructorPrototype plan, start] ++ plan.signals.map (send · false) ++ accessors plan ++
    plan.methods.flatMap fun method =>
      [handler method] ++ ((if method.expectsReply then [reply method] else []) ++ [implementation method]) := by
  have sent : (plan.signals.map (send · true)).map Prototype.withoutDefaults = plan.signals.map (send · false) := by
    rw [List.map_map]
    exact List.map_congr_left fun signal _ => send_again signal
  have accessed : (accessors plan).map Prototype.withoutDefaults = accessors plan := by
    unfold accessors
    split <;> rfl
  have replied (method : TypedMethod) :
      (if method.expectsReply then [reply method] else []).map Prototype.withoutDefaults =
        if method.expectsReply then [reply method] else [] := by
    split <;> simp [reply_again]
  simp only [functions_eq, List.map_append, List.map_flatMap, sent, accessed, replied, List.map_singleton,
    implementation_again]
  rfl

theorem source_prototypes (plan : Plan) : (functions (source plan)).map Definition.prototype =
    [constructorPrototype plan, destructorPrototype plan, start] ++
    plan.methods.flatMap (fun method => handler method :: if method.expectsReply then [reply method] else []) ++
    plan.signals.flatMap (fun signal => [send signal false]) ++ accessors plan := by
  have replied (method : TypedMethod) :
      (if method.expectsReply then [replyDefinition plan method] else []).map Definition.prototype =
        if method.expectsReply then [reply method] else [] := by
    split <;> rfl
  have accessed : (if plan.properties.isEmpty then [] else [getDefinition plan, setDefinition plan]).map
      Definition.prototype = accessors plan := by
    unfold accessors
    split <;> rfl
  simp only [Plan.service_functions, List.map_append, List.map_flatMap, List.map_cons, replied, accessed]
  rfl

theorem source_owned (plan : Plan) :
    ∀ definition ∈ functions (source plan), definition.owner = some plan.serviceClass := by
  have replied (method : TypedMethod) :
      ∀ definition ∈ (if method.expectsReply then [replyDefinition plan method] else []),
        definition.owner = some plan.serviceClass := by
    split <;> simp [replyDefinition]
  have accessed : ∀ definition ∈ (if plan.properties.isEmpty then [] else [getDefinition plan, setDefinition plan]),
      definition.owner = some plan.serviceClass := by
    split <;> simp [getDefinition, setDefinition]
  simp only [Plan.service_functions, List.forall_mem_append, List.forall_mem_cons, List.forall_mem_flatMap]
  have none := List.forall_mem_nil fun definition : Definition => definition.owner = some plan.serviceClass
  exact ⟨⟨⟨⟨rfl, rfl, rfl, none⟩, fun method _ => ⟨rfl, replied method⟩⟩, fun _ _ => ⟨rfl, none⟩⟩, accessed⟩

/-- The class has the method itself beside its handler and its reply; it is defined in a source of its own. -/
theorem functions_defined (plan : Plan) : ((klass plan).functions.map Prototype.withoutDefaults).Perm
    ((functions (source plan ++ methods plan)).map Definition.prototype) := by
  have declared : (plan.methods.flatMap fun method =>
      [handler method] ++ ((if method.expectsReply then [reply method] else []) ++ [implementation method])).Perm
        ((plan.methods.flatMap fun method => handler method :: if method.expectsReply then [reply method] else []) ++
          plan.methods.map implementation) := by
    rw [List.map_eq_flatMap]
    refine .trans (.of_eq ?_) (List.flatMap_append_perm plan.methods _ _).symm
    simp only [List.cons_append, List.nil_append]
  have implemented : (functions (methods plan)).map Definition.prototype = plan.methods.map implementation := by
    rw [methods_functions, List.map_map]
    rfl
  rw [functions_append, List.map_append, source_prototypes, implemented, header_prototypes]
  refine List.perm_iff_count.mpr fun prototype => ?_
  have := declared.count_eq prototype
  simp only [List.count_append, ← List.map_eq_flatMap] at *
  omega

end Service

/-- For every object that stubs are generated for, each class has exactly the functions that its sources define. In the
service's header only, defaults are added. -/
theorem headers_match_sources (node : ObjectNode) (options : StubOptions) (files : List OutputFile)
    (emitted : node.emit options = .ok files) :
    ∃ plan, node.plan options = .ok plan ∧ files = (plan.files options.service).map StubFile.print ∧
      Implements (Client.source plan ++ Client.handlers plan) (Client.header plan) id ∧
      Implements (Service.source plan ++ Service.methods plan) (Service.header plan) Prototype.withoutDefaults := by
  obtain ⟨plan, planned, printed⟩ := ObjectNode.emit_spec emitted
  refine ⟨plan, planned, printed, ⟨Client.klass plan, rfl, ?_, ?_⟩, ⟨Service.klass plan, rfl, ?_, ?_⟩⟩
  · rw [List.map_id]
    exact Client.functions_defined plan
  · rw [functions_append, List.forall_mem_append, Client.handlers_functions]
    exact ⟨Client.source_owned plan, List.forall_mem_map.mpr fun _ _ => rfl⟩
  · exact Service.functions_defined plan
  · rw [functions_append, List.forall_mem_append, Service.methods_functions]
    exact ⟨Service.source_owned plan, List.forall_mem_map.mpr fun _ _ => rfl⟩

theorem door_headers_match : ∃ files plan,
    door.emit { busName := some "org.house" } = .ok files ∧ door.plan { busName := some "org.house" } = .ok plan ∧
    (Client.klass plan).functions.map Prototype.name =
      ["DoorClient", "~DoorClient", "FindName", "SetUpProxy", "Unlock", "Knock", "RegisterClosedHandler",
       "RegisterMovedHandler", "GetColor", "SetColor", "ClosedWrapper", "ClosedHandler", "MovedWrapper",
       "MovedHandler"] ∧
    Implements (Client.source plan ++ Client.handlers plan) (Client.header plan) id ∧
    Implements (Service.source plan ++ Service.methods plan) (Service.header plan) Prototype.withoutDefaults := by
  obtain ⟨files, emitted⟩ : ∃ files, door.emit { busName := some "org.house" } = .ok files := ⟨_, rfl⟩
  obtain ⟨plan, planned, -, client, service⟩ := headers_match_sources door _ files emitted
  refine ⟨files, plan, emitted, planned, ?_, client, service⟩
  cases planned
  decide

end BusStub
