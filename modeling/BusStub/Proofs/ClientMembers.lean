import BusStub.Proofs.Overloads

/-! The members of the client class. Whether they clash is up to a few combinations: a method may be called like
a data member or like a function that is made for another member, and takes the same then. -/

namespace BusStub
open Code Routine

namespace Client

/-- The data members of every client class. -/
def fieldNames : List String :=
  ["myBusAttachment", "serviceName", "proxyBusObj"]

def getters (plan : Plan) : List Prototype :=
  (plan.properties.filter (·.property.readable)).map getter

def setters (plan : Plan) : List Prototype :=
  (plan.properties.filter (·.property.writable)).map setter

/-- The functions for signals and properties that take nothing or values. -/
def derived (plan : Plan) : List Prototype :=
  plan.signals.map register ++ (getters plan ++ (setters plan ++ plan.signals.map handler))

/-- All functions that take nothing or values of members. -/
def valued (plan : Plan) : List Prototype :=
  destructorPrototype plan :: ((if plan.busName.isSome then [findName] else []) ++
    (plan.methods.map call ++ derived plan))

/-- All functions, together with what they take from the bus. -/
def groups (plan : Plan) : List (List String × List Prototype) :=
  [(["BusAttachment&", "const char *", "const char *"], [constructorPrototype plan]),
   (["SessionId"], [setUpProxy]),
   (["const InterfaceDescription::Member *", "const char *", "Message&"], plan.signals.map wrapper),
   ([], valued plan)]

theorem functions_eq (plan : Plan) : (klass plan).functions =
    [constructorPrototype plan, destructorPrototype plan] ++ (if plan.busName.isSome then [findName] else []) ++
    [setUpProxy] ++ plan.methods.map call ++ plan.signals.map register ++ plan.properties.flatMap accessors ++
    plan.signals.flatMap fun signal => [wrapper signal, handler signal] := by
  have accessed (property : TypedProperty) :
      (propertyMembers property).filterMap Member.function? = accessors property :=
    Member.functions_function (accessors property)
  have found : (if plan.busName.isSome then findMembers plan else []).filterMap Member.function? =
      if plan.busName.isSome then [findName] else [] := by
    split <;> rfl
  have stored : Client.fields.filterMap Member.function? = [] := rfl
  simp only [Klass.functions, klass, visibleMembers, hiddenMembers, List.filterMap_append, List.filterMap_flatMap,
    accessed, found, stored, List.append_nil, List.map_eq_flatMap]
  rfl

theorem fields_eq (plan : Plan) : (klass plan).fields = fieldNames := by
  have accessed : (plan.properties.flatMap propertyMembers).filterMap Member.data? = [] :=
    Member.data_flatMap _ fun property => Member.data_function (accessors property)
  have found : (if plan.busName.isSome then findMembers plan else []).filterMap Member.data? = [] := by
    split <;> rfl
  have methods : (plan.methods.flatMap methodMembers).filterMap Member.data? = [] := Member.data_flatMap _ fun _ => rfl
  have signals : (plan.signals.flatMap signalMembers).filterMap Member.data? = [] := Member.data_flatMap _ fun _ => rfl
  have callbacks : (plan.signals.flatMap callbackMembers).filterMap Member.data? = [] :=
    Member.data_flatMap _ fun _ => rfl
  simp only [Klass.fields, klass, visibleMembers, hiddenMembers, List.filterMap_append, found, methods, signals,
    callbacks, accessed]
  rfl

theorem functions_perm (plan : Plan) : (klass plan).functions.Perm ((groups plan).flatMap Prod.snd) := by
  have accessors : (plan.properties.flatMap accessors).Perm (getters plan ++ setters plan) := by
    rw [getters, setters, ← flatMap_if, ← flatMap_if]
    exact (List.flatMap_append_perm plan.properties _ _).symm
  have callbacks : (plan.signals.flatMap fun signal => [wrapper signal, handler signal]).Perm
      (plan.signals.map wrapper ++ plan.signals.map handler) := by
    rw [List.map_eq_flatMap (f := handler)]
    exact (List.map_append_flatMap_perm plan.signals wrapper _).symm
  rw [functions_eq]
  refine List.perm_iff_count.mpr fun prototype => ?_
  have := accessors.count_eq prototype
  have := callbacks.count_eq prototype
  simp only [groups, valued, derived, List.flatMap_cons, List.flatMap_nil, List.count_append, List.count_cons,
    List.count_nil] at *
  omega

variable {plan : Plan}

theorem forall_found {P : Prototype → Prop} :
    (∀ function ∈ (if plan.busName.isSome then [findName] else []), P function) ↔
      (plan.busName.isSome → P findName) := by
  split <;> simp [*]

theorem forall_getters {P : Prototype → Prop} : (∀ function ∈ Client.getters plan, P function) ↔
    ∀ property ∈ plan.properties, property.property.readable → P (getter property) := by
  rw [Client.getters, List.forall_mem_map]
  simp [List.mem_filter]

theorem forall_setters {P : Prototype → Prop} : (∀ function ∈ Client.setters plan, P function) ↔
    ∀ property ∈ plan.properties, property.property.writable → P (setter property) := by
  rw [Client.setters, List.forall_mem_map]
  simp [List.mem_filter]

theorem valued_own : ∀ function ∈ valued plan, ∀ text ∈ function.types, text ∉ foreignTypes := by
  have nothing {function : Prototype} (none : function.params = []) : ∀ text ∈ function.types, text ∉ foreignTypes := by
    simp [Prototype.types, none]
  simp only [valued, derived, List.forall_mem_cons, List.forall_mem_append, List.forall_mem_map, forall_found,
    forall_getters, forall_setters]
  exact ⟨nothing rfl, fun _ => nothing rfl, fun method _ => types_own method.args _, fun signal _ => nothing rfl,
    fun property _ _ => property.slot.types_own property.name .output,
    fun property _ _ => property.slot.types_own property.name .input, fun signal _ => types_own signal.args _⟩

theorem groups_taken : ∀ group ∈ groups plan, ∀ function ∈ group.2, function.foreign = group.1 := by
  have constructed : (constructorPrototype plan).foreign = ["BusAttachment&", "const char *", "const char *"] := rfl
  have connected : setUpProxy.foreign = ["SessionId"] := rfl
  have wrapped (signal : TypedSignal) : (wrapper signal).foreign =
      ["const InterfaceDescription::Member *", "const char *", "Message&"] := rfl
  have own : ∀ function ∈ valued plan, function.foreign = [] :=
    fun function inside => foreign_eq_nil (valued_own function inside)
  simp only [groups, List.forall_mem_cons, List.forall_mem_map]
  exact ⟨⟨constructed, nofun⟩, ⟨connected, nofun⟩, fun signal _ => wrapped signal, own, nofun⟩

/-- Only functions that take no more than values need to be compared. -/
theorem functions_apart (signalNames : (plan.signals.map TypedSignal.name).Nodup) :
    (klass plan).functions.Pairwise Prototype.Apart ↔ (valued plan).Pairwise Prototype.Apart := by
  have wrappers : (plan.signals.map wrapper).Pairwise Prototype.Apart :=
    Prototype.Apart.pairwise signalNames fun _ _ same => by simpa [wrapper, procedure] using same
  have different : ((groups plan).map Prod.fst).Nodup := by
    simp [groups]
  rw [(functions_perm plan).pairwise_iff .symm, Prototype.Apart.groups_iff different groups_taken]
  simp [groups, wrappers]

theorem call_types {method : TypedMethod} : (call method).types = [] ↔ method.args = [] :=
  types_eq_nil

theorem handler_types {signal : TypedSignal} : (handler signal).types = [] ↔ signal.args = [] :=
  types_eq_nil

/-- What keeps functions apart that may have one name. -/
structure Apart (plan : Plan) : Prop where
  destructor : ∀ method ∈ plan.methods, method.name = "~" ++ plan.clientClass → method.args ≠ []
  find : plan.busName.isSome → ∀ method ∈ plan.methods, method.name = "FindName" → method.args ≠ []
  registering : ∀ method ∈ plan.methods, ∀ signal ∈ plan.signals,
    method.name = "Register" ++ signal.name ++ "Handler" → method.args ≠ []
  getting : ∀ method ∈ plan.methods, ∀ property ∈ plan.properties, property.property.readable →
    (call method).Apart (getter property)
  setting : ∀ method ∈ plan.methods, ∀ property ∈ plan.properties, property.property.writable →
    (call method).Apart (setter property)
  handling : ∀ method ∈ plan.methods, ∀ signal ∈ plan.signals, (call method).Apart (handler signal)
  registration : ∀ signal ∈ plan.signals, ∀ other ∈ plan.signals,
    other.name = "Register" ++ signal.name → other.args ≠ []
  getters : (getters plan).Pairwise Prototype.Apart
  setters : (setters plan).Pairwise Prototype.Apart
  handlers : ∀ property ∈ plan.properties, property.property.writable → ∀ signal ∈ plan.signals,
    (setter property).Apart (handler signal)

theorem accessor_apart {function : Prototype} (none : function.types = []) (property : TypedProperty) :
    function.Apart (getter property) ∧ function.Apart (setter property) := by
  rw [Prototype.Apart.empty_iff none, Prototype.Apart.empty_iff none]
  exact ⟨fun _ => property.slot.types_ne_nil property.name .output,
    fun _ => property.slot.types_ne_nil property.name .input⟩

theorem register_apart {function : Prototype} (other : function.name.toList.head? ≠ some 'R') (signal : TypedSignal) :
    function.Apart (register signal) :=
  .of_name (ne_of_head (by simpa [register, statusFunction] using other))

theorem handler_apart {function : Prototype} (other : function.name.toList.getLast? ≠ some 'r') (signal : TypedSignal) :
    function.Apart (handler signal) :=
  .of_name (ne_of_last (by simpa [handler, procedure] using other))

theorem getter_apart_setter (property other : TypedProperty) : (getter property).Apart (setter other) :=
  .of_name (ne_of_head (by simp [getter, setter, statusFunction]))

/-- A getter hands its value out, a handler only takes values. -/
theorem getter_apart_handler (property : TypedProperty) (signal : TypedSignal) :
    (getter property).Apart (handler signal) := by
  obtain ⟨text, inside⟩ := List.exists_mem_of_ne_nil _ (property.slot.types_ne_nil property.name .output)
  refine .of_type inside fun taken => ?_
  rw [handler, procedure, Prototype.types, TypedSignal.params, List.map_flatMap] at taken
  obtain ⟨arg, -, taken⟩ := List.mem_flatMap.mp taken
  exact arg.slot.inputs_plain arg.name text taken (property.slot.outputs_references property.name text inside)

/-- What takes nothing is apart from these functions, unless it is called like one of them. -/
theorem derived_apart_of_empty {function : Prototype} (none : function.types = [])
    (head : function.name.toList.head? ≠ some 'R') (last : function.name.toList.getLast? ≠ some 'r') :
    ∀ other ∈ derived plan, function.Apart other := by
  simp only [derived, List.forall_mem_append, List.forall_mem_map, forall_getters, forall_setters]
  exact ⟨fun signal _ => register_apart head signal, fun property _ _ => (accessor_apart none property).1,
    fun property _ _ => (accessor_apart none property).2, fun signal _ => handler_apart last signal⟩

theorem derived_apart (signalNames : (plan.signals.map TypedSignal.name).Nodup) :
    (derived plan).Pairwise Prototype.Apart ↔
      (∀ signal ∈ plan.signals, ∀ other ∈ plan.signals, other.name = "Register" ++ signal.name → other.args ≠ []) ∧
      (getters plan).Pairwise Prototype.Apart ∧ (setters plan).Pairwise Prototype.Apart ∧
      ∀ property ∈ plan.properties, property.property.writable → ∀ signal ∈ plan.signals,
        (setter property).Apart (handler signal) := by
  have registers : (plan.signals.map register).Pairwise Prototype.Apart :=
    Prototype.Apart.pairwise signalNames fun _ _ same => by simpa [register, statusFunction] using same
  have handlers : (plan.signals.map handler).Pairwise Prototype.Apart :=
    Prototype.Apart.pairwise signalNames fun _ _ same => by simpa [handler, procedure] using same
  have registration (signal other : TypedSignal) : (register signal).Apart (handler other) ↔
      (other.name = "Register" ++ signal.name → other.args ≠ []) := by
    rw [Prototype.Apart.empty_iff rfl, Ne, handler_types]
    simp [handler, register, procedure, statusFunction]
  simp only [derived, List.pairwise_append, List.forall_mem_append, List.forall_mem_map, forall_getters, forall_setters,
    registration]
  constructor
  · rintro ⟨-, ⟨getters, ⟨setters, -, setting⟩, -⟩, registered⟩
    exact ⟨fun signal member => (registered signal member).2.2, getters, setters, setting⟩
  · rintro ⟨registered, getters, setters, setting⟩
    refine ⟨registers, ⟨getters, ⟨setters, handlers, setting⟩, fun property _ _ => ?_⟩, fun signal member => ?_⟩
    · exact ⟨fun other _ _ => getter_apart_setter property other, fun signal _ => getter_apart_handler property signal⟩
    · exact ⟨fun property _ _ => (accessor_apart rfl property).1, fun property _ _ => (accessor_apart rfl property).2,
        registered signal member⟩

/-- A function that takes nothing meets the call of a method without arguments that is called so. -/
theorem apart_call {function : Prototype} (none : function.types = []) (method : TypedMethod) :
    function.Apart (call method) ↔ (method.name = function.name → method.args ≠ []) := by
  rw [Prototype.Apart.empty_iff none, Ne, call_types]
  rfl

theorem call_apart_derived : (∀ method ∈ plan.methods, ∀ other ∈ derived plan, (call method).Apart other) ↔
    (∀ method ∈ plan.methods, ∀ signal ∈ plan.signals,
      method.name = "Register" ++ signal.name ++ "Handler" → method.args ≠ []) ∧
    (∀ method ∈ plan.methods, ∀ property ∈ plan.properties, property.property.readable →
      (call method).Apart (getter property)) ∧
    (∀ method ∈ plan.methods, ∀ property ∈ plan.properties, property.property.writable →
      (call method).Apart (setter property)) ∧
    ∀ method ∈ plan.methods, ∀ signal ∈ plan.signals, (call method).Apart (handler signal) := by
  have registering (method : TypedMethod) (signal : TypedSignal) : (call method).Apart (register signal) ↔
      (method.name = "Register" ++ signal.name ++ "Handler" → method.args ≠ []) :=
    Prototype.Apart.comm.trans (apart_call rfl method)
  simp only [derived, List.forall_mem_append, List.forall_mem_map, forall_getters, forall_setters, registering,
    forall_and]

theorem valued_apart (methodNames : (plan.methods.map TypedMethod.name).Nodup)
    (signalNames : (plan.signals.map TypedSignal.name).Nodup) :
    (valued plan).Pairwise Prototype.Apart ↔ Apart plan := by
  have calls : (plan.methods.map call).Pairwise Prototype.Apart :=
    Prototype.Apart.pairwise methodNames fun _ _ => id
  have destroyed (method : TypedMethod) : (destructorPrototype plan).Apart (call method) ↔
      (method.name = "~" ++ plan.clientClass → method.args ≠ []) := apart_call rfl method
  have found (method : TypedMethod) : findName.Apart (call method) ↔ (method.name = "FindName" → method.args ≠ []) :=
    apart_call rfl method
  have head : (destructorPrototype plan).name.toList.head? = some '~' := by
    simp [destructorPrototype]
  have last : (destructorPrototype plan).name.toList.getLast? = some 't' := by
    simp only [destructorPrototype, Plan.clientClass, String.toList_append, List.getLast?_append]
    rfl
  have destructorFind : (destructorPrototype plan).Apart findName :=
    .of_name (ne_of_head (by simp [head, findName, statusFunction]))
  have destructorDerived : ∀ other ∈ derived plan, (destructorPrototype plan).Apart other :=
    derived_apart_of_empty rfl (by simp [head]) (by simp [last])
  have findDerived : ∀ other ∈ derived plan, findName.Apart other :=
    derived_apart_of_empty rfl (by decide) (by decide)
  have search : (if plan.busName.isSome then [findName] else []).Pairwise Prototype.Apart := by
    split <;> simp
  rw [valued, List.pairwise_cons, List.pairwise_append, List.pairwise_append, derived_apart signalNames]
  simp only [List.forall_mem_append, List.forall_mem_map, forall_found, destroyed, found, call_apart_derived]
  constructor
  · rintro ⟨⟨-, destructor, -⟩, -, ⟨-, ⟨registration, getters, setters, handlers⟩,
      registering, getting, setting, handling⟩, find⟩
    exact ⟨destructor, fun present => (find present).1, registering, getting, setting, handling, registration, getters,
      setters, handlers⟩
  · intro apart
    exact ⟨⟨fun _ => destructorFind, apart.destructor, destructorDerived⟩, search,
      ⟨calls, ⟨apart.registration, apart.getters, apart.setters, apart.handlers⟩,
        apart.registering, apart.getting, apart.setting, apart.handling⟩,
      fun present => ⟨apart.find present, findDerived⟩⟩

/-- Only a method can be called like a data member. -/
theorem names_separate : (∀ field ∈ (klass plan).fields, ∀ function ∈ (klass plan).functions, field ≠ function.name) ↔
    ∀ method ∈ plan.methods, method.name ∉ fieldNames := by
  have heads : ∀ field ∈ fieldNames, field.toList.head? ∉ [some 'F', some 'G', some 'R', some 'S', some '~'] := by
    decide
  have lasts : ∀ field ∈ fieldNames, field.toList.getLast? ≠ some 'r' := by decide
  have ends : ∀ field ∈ fieldNames, field.toList.reverse.take 4 ≠ "tnei".toList := by decide
  simp only [fields_eq, (functions_perm plan).mem_iff, groups, valued, derived, List.flatMap_cons, List.flatMap_nil,
    List.forall_mem_append, List.forall_mem_cons, List.forall_mem_map, forall_found, forall_getters, forall_setters]
  constructor
  · intro separate method member inside
    obtain ⟨-, -, -, ⟨-, -, called, -⟩, -⟩ := separate _ inside
    exact called method member rfl
  · intro named field inside
    have byHead {function : Prototype}
        (known : function.name.toList.head? ∈ [some 'F', some 'G', some 'R', some 'S', some '~']) :
        field ≠ function.name := fun same => heads field inside (same ▸ known)
    have byLast {function : Prototype} (known : function.name.toList.getLast? = some 'r') : field ≠ function.name :=
      fun same => lasts field inside (same ▸ known)
    have constructed : field ≠ (constructorPrototype plan).name :=
      fun same => ends field inside (by simp [same, constructorPrototype, Plan.clientClass])
    have called : ∀ method ∈ plan.methods, field ≠ (call method).name := by
      rintro method member rfl
      exact named method member inside
    refine ⟨⟨constructed, nofun⟩, ⟨byHead (by decide), nofun⟩, fun signal _ => byLast ?_,
      ⟨byHead ?_, fun _ => byHead (by decide), called, fun signal _ => byHead ?_, fun property _ _ => byHead ?_,
        fun property _ _ => byHead ?_, fun signal _ => byLast ?_⟩, nofun⟩
    · simp [wrapper, procedure]
    · simp [destructorPrototype]
    · simp [register, statusFunction]
    · simp [getter, statusFunction]
    · simp [setter, statusFunction]
    · simp [handler, procedure]

theorem legal_iff (methodNames : (plan.methods.map TypedMethod.name).Nodup)
    (signalNames : (plan.signals.map TypedSignal.name).Nodup) :
    (klass plan).Legal ↔ (∀ method ∈ plan.methods, method.name ∉ fieldNames) ∧ Apart plan := by
  have functions : (klass plan).functions.Pairwise Prototype.Apart ↔ Apart plan :=
    (functions_apart signalNames).trans (valued_apart methodNames signalNames)
  have fields : (klass plan).fields.Nodup := by
    rw [fields_eq]
    decide
  constructor
  · intro legal
    exact ⟨names_separate.mp legal.separate, functions.mp legal.functions⟩
  · rintro ⟨named, apart⟩
    exact ⟨fields, names_separate.mpr named, functions.mpr apart⟩

end Client
end BusStub
