import Mathlib.Data.List.Pairwise
import BusStub.Loader
import BusStub.Proofs.ClientMembers
import BusStub.Proofs.DeclaredRecords
import BusStub.Proofs.LocalNames

/-! The members of the service class, and of both classes that are generated for an object. A service has a data
member for every property, beside functions that are named after methods and signals. -/

namespace BusStub
open Code Routine

namespace Service

def replies (plan : Plan) : List Prototype :=
  (plan.methods.filter TypedMethod.expectsReply).map reply

def accessors (plan : Plan) : List Prototype :=
  if plan.properties.isEmpty then [] else [getProperty, setProperty]

/-- The functions that take nothing or values of members. -/
def valued (plan : Plan) : List Prototype :=
  destructorPrototype plan :: start :: plan.methods.map implementation

/-- All functions, together with what they take from the bus. -/
def groups (plan : Plan) : List (List String × List Prototype) :=
  [(["BusAttachment&", "const char *"], [constructorPrototype plan]),
   (["const char *", "SessionId"], plan.signals.map (send · true)),
   (["const char *", "const char *"], accessors plan),
   (["const InterfaceDescription::Member *", "Message&"], plan.methods.map handler),
   (["Message&"], replies plan),
   ([], valued plan)]

/-- The names of the data members that keep properties. -/
def storageNames (plan : Plan) : List String :=
  plan.properties.flatMap fun property => property.value.localNames

theorem functions_eq (plan : Plan) : (klass plan).functions =
    [constructorPrototype plan, destructorPrototype plan, start] ++ plan.signals.map (send · true) ++ accessors plan ++
    plan.methods.flatMap fun method =>
      [handler method] ++ ((if method.expectsReply then [reply method] else []) ++ [implementation method]) := by
  have accessed : (propertyMembers plan).filterMap Member.function? = accessors plan := by
    unfold propertyMembers accessors
    split <;> rfl
  have implemented (method : TypedMethod) : (methodMembers method).filterMap Member.function? =
      [handler method] ++ ((if method.expectsReply then [reply method] else []) ++ [implementation method]) := by
    unfold methodMembers
    split <;> rfl
  have stored : (Member.data busPointer :: (storage plan).map .data).filterMap Member.function? = [] :=
    Member.functions_data (storage plan)
  have sent : (plan.signals.flatMap signalMembers).filterMap Member.function? = plan.signals.map (send · true) := by
    rw [List.filterMap_flatMap, List.map_eq_flatMap]
    rfl
  have methods : (plan.methods.flatMap methodMembers).filterMap Member.function? = plan.methods.flatMap fun method =>
      [handler method] ++ ((if method.expectsReply then [reply method] else []) ++ [implementation method]) := by
    rw [List.filterMap_flatMap]
    exact List.flatMap_congr fun method _ => implemented method
  simp only [Klass.functions, klass, visibleMembers, hiddenMembers, List.filterMap_append, accessed, sent, methods,
    stored, List.append_nil]
  rfl

theorem fields_eq (plan : Plan) : (klass plan).fields = "myBusAttachment" :: storageNames plan := by
  have accessed : (propertyMembers plan).filterMap Member.data? = [] := by
    unfold propertyMembers
    split <;> rfl
  have implemented : (plan.methods.flatMap methodMembers).filterMap Member.data? = [] := by
    refine Member.data_flatMap _ fun method => ?_
    unfold methodMembers
    split <;> rfl
  have signals : (plan.signals.flatMap signalMembers).filterMap Member.data? = [] := Member.data_flatMap _ fun _ => rfl
  have stored : ((storage plan).map Member.data).filterMap Member.data? = storageNames plan := by
    rw [Member.data_data, storage, List.map_flatMap]
    rfl
  simp only [Klass.fields, klass, visibleMembers, hiddenMembers, List.filterMap_append, accessed, signals,
    implemented]
  exact congrArg ("myBusAttachment" :: ·) stored

theorem functions_perm (plan : Plan) : (klass plan).functions.Perm ((groups plan).flatMap Prod.snd) := by
  have inner : (plan.methods.flatMap fun method =>
      (if method.expectsReply then [reply method] else []) ++ [implementation method]).Perm
        (replies plan ++ plan.methods.map implementation) := by
    rw [replies, ← flatMap_if, List.map_eq_flatMap]
    exact (List.flatMap_append_perm plan.methods _ _).symm
  have methods : (plan.methods.flatMap fun method =>
      [handler method] ++ ((if method.expectsReply then [reply method] else []) ++ [implementation method])).Perm
        (plan.methods.map handler ++ (replies plan ++ plan.methods.map implementation)) := by
    refine (List.map_append_flatMap_perm plan.methods handler _).symm.trans ?_
    exact inner.append_left _
  rw [functions_eq]
  refine List.perm_iff_count.mpr fun prototype => ?_
  have counts := methods.count_eq prototype
  simp only [groups, valued, List.flatMap_cons, List.flatMap_nil, List.count_append, List.count_cons,
    List.count_nil] at *
  omega

variable {plan : Plan}

theorem send_foreign (signal : TypedSignal) (defaults : Bool) :
    (send signal defaults).foreign = ["const char *", "SessionId"] := by
  have values := foreign_eq_nil (types_own signal.args fun _ => .input)
  have types : (send signal defaults).types = signal.params.map Param.typeText ++ ["const char *", "SessionId"] := by
    rw [send, statusFunction, Prototype.types, List.map_append]
    rfl
  rw [Prototype.foreign, types, List.filter_append]
  exact congrArg (· ++ ["const char *", "SessionId"]) values

theorem reply_foreign (method : TypedMethod) : (reply method).foreign = ["Message&"] := by
  have values := foreign_eq_nil (types_own method.outArgs fun _ => .input)
  exact congrArg ("Message&" :: ·) values

theorem valued_own : ∀ function ∈ valued plan, ∀ text ∈ function.types, text ∉ foreignTypes := by
  refine List.forall_mem_cons.mpr ⟨nofun, List.forall_mem_cons.mpr ⟨nofun, List.forall_mem_map.mpr ?_⟩⟩
  exact fun method _ => types_own method.args _

theorem groups_taken : ∀ group ∈ groups plan, ∀ function ∈ group.2, function.foreign = group.1 := by
  have constructed : (constructorPrototype plan).foreign = ["BusAttachment&", "const char *"] := rfl
  have accessed : ∀ function ∈ accessors plan, function.foreign = ["const char *", "const char *"] := by
    unfold accessors
    split
    · simp
    · exact List.forall_mem_cons.mpr ⟨rfl, List.forall_mem_singleton.mpr rfl⟩
  have handled (method : TypedMethod) :
      (handler method).foreign = ["const InterfaceDescription::Member *", "Message&"] := rfl
  have replied : ∀ function ∈ replies plan, function.foreign = ["Message&"] :=
    List.forall_mem_map.mpr fun method _ => reply_foreign method
  have own : ∀ function ∈ valued plan, function.foreign = [] :=
    fun function inside => foreign_eq_nil (valued_own function inside)
  simp only [groups, List.forall_mem_cons, List.forall_mem_map]
  exact ⟨⟨constructed, nofun⟩, fun signal _ => send_foreign signal true, accessed, fun method _ => handled method,
    replied, own, nofun⟩

/-- Only functions that take no more than values need to be compared. -/
theorem functions_apart (methodNames : (plan.methods.map TypedMethod.name).Nodup)
    (signalNames : (plan.signals.map TypedSignal.name).Nodup) :
    (klass plan).functions.Pairwise Prototype.Apart ↔ (valued plan).Pairwise Prototype.Apart := by
  have sends : (plan.signals.map (send · true)).Pairwise Prototype.Apart :=
    Prototype.Apart.pairwise signalNames fun _ _ same => by simpa [send, statusFunction] using same
  have accessed : (accessors plan).Pairwise Prototype.Apart := by
    have names : getProperty.Apart setProperty := .of_name (by decide)
    unfold accessors
    split
    · exact .nil
    · exact List.pairwise_pair.mpr names
  have handlers : (plan.methods.map handler).Pairwise Prototype.Apart :=
    Prototype.Apart.pairwise methodNames fun _ _ same => by simpa [handler, procedure] using same
  have answered : (replies plan).Pairwise Prototype.Apart := by
    have names : ((plan.methods.filter TypedMethod.expectsReply).map TypedMethod.name).Nodup :=
      methodNames.sublist (List.filter_sublist.map TypedMethod.name)
    exact Prototype.Apart.pairwise names fun _ _ same => by simpa [reply, statusFunction] using same
  have different : ((groups plan).map Prod.fst).Nodup := by
    simp [groups]
  rw [(functions_perm plan).pairwise_iff .symm, Prototype.Apart.groups_iff different groups_taken]
  simp [groups, sends, accessed, handlers, answered]

/-- Which methods may be called like a function of every service. -/
theorem valued_apart (methodNames : (plan.methods.map TypedMethod.name).Nodup) :
    (valued plan).Pairwise Prototype.Apart ↔ ∀ method ∈ plan.methods,
      method.name = "~" ++ plan.serviceClass ∨ method.name = "Initialize" → method.args ≠ [] := by
  have implementations : (plan.methods.map implementation).Pairwise Prototype.Apart :=
    Prototype.Apart.pairwise methodNames fun _ _ => id
  have types (method : TypedMethod) : (implementation method).types = [] ↔ method.args = [] := types_eq_nil
  have lifetime : (destructorPrototype plan).Apart start :=
    .of_name (ne_of_head (by simp [destructorPrototype, start, statusFunction]))
  have destroyed (method : TypedMethod) : (destructorPrototype plan).Apart (implementation method) ↔
      (method.name = "~" ++ plan.serviceClass → method.args ≠ []) := by
    rw [Prototype.Apart.empty_iff rfl, Ne, types]
    rfl
  have started (method : TypedMethod) : start.Apart (implementation method) ↔
      (method.name = "Initialize" → method.args ≠ []) := by
    rw [Prototype.Apart.empty_iff rfl, Ne, types]
    rfl
  rw [valued, List.pairwise_cons, List.pairwise_cons, List.forall_mem_cons]
  simp only [List.forall_mem_map, destroyed, started]
  constructor
  · rintro ⟨⟨-, destructor⟩, started, -⟩ method member (named | named)
    · exact destructor method member named
    · exact started method member named
  · intro apart
    exact ⟨⟨lifetime, fun method member named => apart method member (.inl named)⟩,
      fun method member named => apart method member (.inr named), implementations⟩

/-- The names of the functions of a service that has properties. -/
def functionNames (plan : Plan) : List String :=
  [plan.serviceClass, "~" ++ plan.serviceClass, "Initialize"] ++
    plan.signals.map (fun signal => "Send" ++ signal.name) ++ ["Get", "Set"] ++
    plan.methods.flatMap fun method => [method.name ++ "Handler"] ++
      ((if method.expectsReply then [method.name ++ "MethodReply"] else []) ++ [method.name])

theorem functions_names (some : plan.properties ≠ []) :
    (klass plan).functions.map Prototype.name = functionNames plan := by
  have accessed : accessors plan = [getProperty, setProperty] := if_neg (by simpa using some)
  have replied (method : TypedMethod) : (if method.expectsReply then [reply method] else []).map Prototype.name =
      if method.expectsReply then [method.name ++ "MethodReply"] else [] := by
    split <;> rfl
  simp only [functions_eq, accessed, functionNames, List.map_append, List.map_flatMap, replied, List.map_map]
  rfl

theorem mem_localNames {property : TypedProperty} {text : String} : text ∈ property.value.localNames ↔
    text = property.name ∨ property.slot.isCounted ∧ text = countName property.name := by
  have names : property.value.localNames =
      if property.slot.isCounted then [property.name, countName property.name] else [property.name] :=
    property.slot.locals_names property.name
  rw [names]
  cases property.slot.isCounted <;> simp

/-- Properties are kept apart unless one is called like the number of another's elements. -/
theorem storage_nodup (propertyNames : (plan.properties.map TypedProperty.name).Nodup) :
    (storageNames plan).Nodup ↔ ∀ property ∈ plan.properties, property.slot.isCounted → ∀ other ∈ plan.properties,
      other.name ≠ countName property.name := by
  rw [storageNames, List.nodup_flatMap, and_iff_right fun property _ => property.slot.localNames_nodup property.name]
  constructor
  · intro disjoint property member counted other inside same
    have different : property ≠ other := by
      rintro rfl
      exact ne_countName property.name same
    have : Std.Symm (Function.onFun List.Disjoint fun property : TypedProperty => property.value.localNames) :=
      ⟨fun _ _ apart _ one other => apart other one⟩
    have apart := disjoint.forall member inside different
    exact apart (mem_localNames.mpr (.inr ⟨counted, rfl⟩)) (mem_localNames.mpr (.inl same.symm))
  · intro counts
    refine (List.pairwise_map.mp propertyNames).imp_of_mem ?_
    intro first second inFirst inSecond different text one other
    rcases mem_localNames.mp one with rfl | ⟨counted, rfl⟩ <;>
      rcases mem_localNames.mp other with same | ⟨counted', same⟩
    · exact different same
    · exact counts second inSecond counted' first inFirst same
    · exact counts first inFirst counted second inSecond same.symm
    · exact different (countName_inj same)

/-- Besides what keeps properties, only a method can be called like the member that keeps the bus. -/
theorem bus_separate : (∀ function ∈ (klass plan).functions, "myBusAttachment" ≠ function.name) ↔
    ∀ method ∈ plan.methods, method.name ≠ "myBusAttachment" := by
  have byHead {function : Prototype} (known : function.name.toList.head? ∈ [some 'S', some '~']) :
      "myBusAttachment" ≠ function.name := fun same => absurd known (by rw [← same]; decide)
  have byLast {function : Prototype} (known : function.name.toList.getLast? ∈ [some 'e', some 'r', some 'y']) :
      "myBusAttachment" ≠ function.name := fun same => absurd known (by rw [← same]; decide)
  have accessed : ∀ function ∈ accessors plan, "myBusAttachment" ≠ function.name := by
    unfold accessors
    split <;> decide
  have replied : ∀ function ∈ replies plan, "myBusAttachment" ≠ function.name :=
    List.forall_mem_map.mpr fun method _ => byLast (by simp [reply, statusFunction])
  simp only [(functions_perm plan).mem_iff, groups, valued, List.flatMap_cons, List.flatMap_nil, List.forall_mem_append,
    List.forall_mem_cons, List.forall_mem_map]
  constructor
  · rintro ⟨-, -, -, -, -, ⟨-, -, implemented⟩, -⟩ method member same
    exact implemented method member same.symm
  · intro named
    refine ⟨⟨byLast ?_, List.forall_mem_nil _⟩, fun signal _ => byHead ?_, accessed, fun method _ => byLast ?_, replied,
      ⟨byHead ?_, by decide, fun method member => (named method member).symm⟩, List.forall_mem_nil _⟩
    · simp [constructorPrototype, Plan.serviceClass]
    · simp [send, statusFunction]
    · simp [handler, procedure]
    · simp [destructorPrototype]

theorem storage_separate : (∀ name ∈ storageNames plan, ∀ function ∈ (klass plan).functions, name ≠ function.name) ↔
    ∀ name ∈ storageNames plan, name ∉ functionNames plan := by
  refine forall₂_congr fun name inside => ?_
  obtain ⟨property, member, -⟩ := List.mem_flatMap.mp inside
  rw [← functions_names (List.ne_nil_of_mem member), List.mem_map]
  exact ⟨fun other ⟨function, listed, same⟩ => other function listed same.symm,
    fun other function listed same => other ⟨function, listed, same.symm⟩⟩

/-- Names of properties and of their counts are never that of the member that keeps the bus. -/
theorem bus_kept (free : plan.Unreserved) : "myBusAttachment" ∉ storageNames plan := by
  intro inside
  obtain ⟨property, member, named⟩ := List.mem_flatMap.mp inside
  rcases mem_localNames.mp named with same | ⟨-, same⟩
  · have reserved := free.property member
    rw [← same] at reserved
    exact absurd reserved (by decide)
  · exact countName_free property.name (by rw [← same]; decide)

/-- What members of the service may not be called. -/
structure Apart (plan : Plan) : Prop where
  methods : ∀ method ∈ plan.methods,
    method.name = "~" ++ plan.serviceClass ∨ method.name = "Initialize" → method.args ≠ []
  bus : ∀ method ∈ plan.methods, method.name ≠ "myBusAttachment"
  counts : ∀ property ∈ plan.properties, property.slot.isCounted → ∀ other ∈ plan.properties,
    other.name ≠ countName property.name
  storage : ∀ name ∈ storageNames plan, name ∉ functionNames plan

theorem legal_iff (free : plan.Unreserved) (methodNames : (plan.methods.map TypedMethod.name).Nodup)
    (signalNames : (plan.signals.map TypedSignal.name).Nodup)
    (propertyNames : (plan.properties.map TypedProperty.name).Nodup) : (klass plan).Legal ↔ Apart plan := by
  have functions := (functions_apart methodNames signalNames).trans (valued_apart methodNames)
  have fields : (klass plan).fields.Nodup ↔ ∀ property ∈ plan.properties, property.slot.isCounted →
      ∀ other ∈ plan.properties, other.name ≠ countName property.name := by
    rw [fields_eq, List.nodup_cons, and_iff_right (bus_kept free), storage_nodup propertyNames]
  have separate : (∀ field ∈ (klass plan).fields, ∀ function ∈ (klass plan).functions, field ≠ function.name) ↔
      (∀ method ∈ plan.methods, method.name ≠ "myBusAttachment") ∧
        ∀ name ∈ storageNames plan, name ∉ functionNames plan := by
    rw [fields_eq, List.forall_mem_cons, bus_separate, storage_separate]
  constructor
  · intro legal
    obtain ⟨bus, stored⟩ := separate.mp legal.separate
    exact ⟨functions.mp legal.functions, bus, fields.mp legal.fields, stored⟩
  · intro apart
    exact ⟨fields.mpr apart.counts, separate.mpr ⟨apart.bus, apart.storage⟩, functions.mpr apart.methods⟩

end Service

/-- The classes that a header declares. -/
def classes (items : List Item) : List Klass :=
  items.filterMap fun
    | .klass klass => some klass
    | _ => none

/-- In the classes generated for an object, no member is declared twice exactly if the members that are made for
different methods, signals and properties are kept apart by their names or by their types. -/
theorem members_declared_once (node : ObjectNode) (options : StubOptions) (files : List OutputFile)
    (emitted : node.emit options = .ok files) :
    ∃ plan, node.plan options = .ok plan ∧ files = (plan.files options.service).map StubFile.print ∧
      ((∀ klass ∈ classes (Client.header plan), klass.Legal) ↔
        (∀ method ∈ plan.methods, method.name ∉ Client.fieldNames) ∧ Client.Apart plan) ∧
      ((∀ klass ∈ classes (Service.header plan), klass.Legal) ↔ Service.Apart plan) := by
  obtain ⟨plan, planned, printed⟩ := ObjectNode.emit_spec emitted
  obtain ⟨registry, -, made⟩ := ObjectNode.plan_spec planned
  have lists := Plan.make_lists made
  have client : classes (Client.header plan) = [Client.klass plan] := rfl
  have service : classes (Service.header plan) = [Service.klass plan] := rfl
  refine ⟨plan, planned, printed, ?_, ?_⟩
  · rw [client, List.forall_mem_singleton]
    exact Client.legal_iff lists.methodNames lists.signalNames
  · rw [service, List.forall_mem_singleton]
    exact Service.legal_iff (Plan.make_unreserved made) lists.methodNames lists.signalNames lists.propertyNames

/-- An object with a color, and with a method that hands a color out. -/
def colored (method : String) : ObjectNode :=
  let light : Interface :=
    { name := "org.lamp.Light"
      methods := [{ name := method, args := [⟨"color", "i", .output, none⟩] }]
      properties := [{ name := "color", signature := "i", access := .read }] }
  { name := "Lamp", path := "/Lamp", interface := light }

theorem color_declared_once : ∃ files plan,
    (colored "Pick").emit {} = .ok files ∧ (colored "Pick").plan {} = .ok plan ∧
      Client.Apart plan ∧ Service.Apart plan ∧
      (∀ klass ∈ classes (Client.header plan), klass.Legal) ∧ ∀ klass ∈ classes (Service.header plan), klass.Legal := by
  obtain ⟨files, emitted⟩ : ∃ files, (colored "Pick").emit {} = .ok files := ⟨_, rfl⟩
  obtain ⟨plan, planned, -, client, service⟩ := members_declared_once (colored "Pick") {} files emitted
  have apart : (∀ method ∈ plan.methods, method.name ∉ Client.fieldNames) ∧ Client.Apart plan ∧ Service.Apart plan := by
    cases planned
    refine ⟨by decide, ⟨?_, ?_, ?_, ?_, ?_, ?_, ?_, ?_, ?_, ?_⟩, ?_, ?_, ?_, ?_⟩ <;> decide
  exact ⟨files, plan, emitted, planned, apart.2.1, apart.2.2, client.mpr ⟨apart.1, apart.2.1⟩, service.mpr apart.2.2⟩

/-- The method may not be called like what gets the color. -/
theorem color_declared_twice :
    ((Loader.document {} ("<node name=\"Lamp\"><interface name=\"org.lamp.Light\"><method name=\"GetColor\">" ++
      "<arg name=\"color\" type=\"i\" direction=\"out\"/></method>" ++
      "<property name=\"color\" type=\"i\" access=\"read\"/></interface></node>")).run {}).2.objects =
      [colored "GetColor"] ∧
    ∃ files plan, (colored "GetColor").emit {} = .ok files ∧ (colored "GetColor").plan {} = .ok plan ∧
      ∃ klass ∈ classes (Client.header plan), ¬ klass.Legal := by
  refine ⟨by decide +kernel, _, _, rfl, rfl, _, List.mem_singleton_self _, fun legal => ?_⟩
  exact absurd legal.functions (by decide)

end BusStub
