import BusStub.Proofs.Counterparts

/-! What generated functions call by name. Apart from the handlers of methods and the wrappers of signals, they call no
other generated function than the one that describes an object's interfaces to the bus. -/

namespace BusStub
open Code Routine

/-- Moving values calls no function by its name. -/
theorem Code.Moves.not_applied {into origin : List Cell} {block : List Stmt} (moves : Moves into origin block)
    (name : String) (args : List Expr) : (.function name, args) ∉ observe Stmt.calls block := by
  intro member
  obtain ⟨stmt, within, inside⟩ := List.mem_flatMap.mp member
  have none := moves.calls (.function name) (by simp [moving])
  have some : args ∈ observe (Stmt.callsOf (.function name)) block :=
    List.mem_flatMap.mpr ⟨stmt, within, List.mem_filterMap.mpr ⟨_, inside, if_pos rfl⟩⟩
  rw [none] at some
  exact List.not_mem_nil some

/-- The functions of the bus and of the standard library that generated code calls by their names. -/
def framework : List String :=
  ["AddInterface", "AddMethodHandler", "GetPath", "MethodReply", "Signal", "strcmp"]

/-- A call of a member function of an object, of a function that is not generated, or of the function that describes an
object's interfaces to the bus. -/
def External (node : ObjectNode) : Callee × List Expr → Prop
  | (.member _, _) => True
  | (.function name, args) =>
    name ∈ framework ∨ name = Describe.functionName node ∧ args = [.content (.name "myBusAttachment")]

/-- A block whose calls are external. -/
def CallsOut (node : ObjectNode) (block : List Stmt) : Prop :=
  ∀ call ∈ observe Stmt.calls block, External node call

namespace CallsOut

variable {node : ObjectNode} {first second body : List Stmt} {stmt : Stmt}

theorem nil : CallsOut node [] :=
  List.forall_mem_nil _

theorem append (one : CallsOut node first) (other : CallsOut node second) : CallsOut node (first ++ second) := by
  rw [CallsOut, observe_append]
  exact List.forall_mem_append.mpr ⟨one, other⟩

theorem cons (one : CallsOut node [stmt]) (other : CallsOut node second) : CallsOut node (stmt :: second) :=
  one.append other

theorem single (alone : stmt.within = [stmt]) (outside : ∀ call ∈ stmt.calls, External node call) :
    CallsOut node [stmt] := by
  rw [CallsOut, observe_plain _ alone]
  exact outside

theorem branch {condition : Expr} (outside : ∀ call ∈ condition.calls, External node call)
    (inner : CallsOut node body) : CallsOut node [.branch condition body] := by
  have seen : observe Stmt.calls [.branch condition body] = condition.calls ++ observe Stmt.calls body := by
    simp [Stmt.within, Stmt.calls]
  rw [CallsOut, seen]
  exact List.forall_mem_append.mpr ⟨outside, inner⟩

theorem choose {condition : Expr} (outside : ∀ call ∈ condition.calls, External node call)
    (inner : CallsOut node first) (other : CallsOut node second) : CallsOut node [.choose condition first second] := by
  have seen : observe Stmt.calls [.choose condition first second] =
      condition.calls ++ (observe Stmt.calls first ++ observe Stmt.calls second) := by
    simp [Stmt.within, Stmt.calls]
  rw [CallsOut, seen]
  exact List.forall_mem_append.mpr ⟨outside, List.forall_mem_append.mpr ⟨inner, other⟩⟩

theorem flatMap {α : Type} {f : α → List Stmt} {items : List α} (each : ∀ item ∈ items, CallsOut node (f item)) :
    CallsOut node (items.flatMap f) := by
  induction items with
  | nil => exact nil
  | cons item rest ih =>
    obtain ⟨first, others⟩ := List.forall_mem_cons.mp each
    exact first.append (ih others)

theorem moves {into origin : List Cell} (moves : Moves into origin body) : CallsOut node body
  | (.function name, args), member => absurd member (moves.not_applied name args)
  | (.member _, _), _ => trivial

end CallsOut

section
variable {plan : Plan} {node : ObjectNode}

theorem returnOnError_callsOut (status : String) : CallsOut node [.returnOnError status] :=
  .branch (by simp [Expr.calls]) (.single rfl (by simp [Stmt.calls, Expr.calls]))

theorem returnIfNull_callsOut (pointer error : String) : CallsOut node [.returnIfNull pointer error] :=
  .branch (by simp [Expr.isNull, Expr.calls]) (.single rfl (by simp [Stmt.calls, Expr.calls]))

theorem retName_callsOut (name : String) : CallsOut node [.ret (.name name)] :=
  .single rfl (by simp [Stmt.calls, Expr.calls])

theorem declare_callsOut (v : Variable) : CallsOut node [.declare v] :=
  .single rfl (by simp [Stmt.calls])

theorem lookUp_external (through interface : String) :
    ∀ call ∈ (lookUp through interface).calls, External node call := by
  simp [lookUp, Expr.calls, Expr.callsAll, External]

theorem describe_callsOut :
    CallsOut plan.node [statusIs (.apply (Describe.functionName plan.node) [.content Client.bus])] :=
  .single rfl (by simp [statusIs, Stmt.calls, Client.bus, Expr.calls, Expr.callsAll, External])

theorem receive_callsOut (message array : String) : CallsOut node (receive message array) :=
  .cons (declare_callsOut _) (.cons (declare_callsOut _)
    (.single rfl (by simp [Stmt.calls, Expr.calls, Expr.callsAll, External])))

theorem countIs_external (count : Nat) : ∀ call ∈ (countIs count).calls, External node call := by
  simp [countIs, Expr.calls]

theorem packing_callsOut (v : Variable) (length : Nat) (args : List TypedArg) :
    CallsOut node (.array v length :: packAll "args" args) :=
  .cons (.single rfl (by simp [Stmt.calls])) (.moves (packAll_moves "args" args))

theorem Slot.set_callsOut (slot : Slot) {container : Place} {name : String} (apart : container.cell?.toList = []) :
    CallsOut node (slot.set container (.root name) 0) :=
  .moves (slot.set_moves container name apart)

theorem Slot.get_callsOut (slot : Slot) {container : Place} {name : String} {declared : Bool}
    (apart : container.cell?.toList = []) : CallsOut node (slot.get container name declared 0) :=
  .moves (slot.get_moves container name declared apart)

namespace Client

theorem setUpProxy_callsOut : CallsOut plan.node (setUpProxyDefinition plan).body := by
  have attached (part : Interface) : CallsOut plan.node (attach part) := by
    refine .cons (.single rfl ?_) (.cons (returnIfNull_callsOut _ _)
      (.cons (.single rfl ?_) (returnOnError_callsOut _)))
    · simpa [Stmt.calls, Expr.calls] using lookUp_external "myBusAttachment" part.name
    · simp [Stmt.calls, Expr.calls, Expr.callsAll, proxy, External]
  have created : CallsOut plan.node [.branch (.isNull proxy) [.assign proxy (.newObject "ProxyBusObject"
      [.content bus, .name "serviceName", .apply "GetPath" [], .name "sessionId"])]] := by
    refine .branch (by simp [Expr.isNull, proxy, Expr.calls]) (.single rfl ?_)
    simp [Stmt.calls, Expr.calls, Expr.callsAll, proxy, bus, External, framework]
  have entered : CallsOut plan.node [.define ⟨interfaceDescription, "iface"⟩ .null] :=
    .single rfl (by simp [Stmt.calls])
  exact .append (.append (.cons describe_callsOut (.cons (returnOnError_callsOut _) (.cons
    (.single rfl (by simp [Stmt.calls])) (.cons created entered)))) (.flatMap fun part _ => attached part))
    (retName_callsOut _)

theorem readReply_callsOut (method : TypedMethod) : CallsOut node (readReply method) := by
  unfold readReply
  split
  · have read : CallsOut node (unpackAll "returnArgs" method.outArgs false ++ [.ret (.name "status")]) :=
      (CallsOut.moves (unpackAll_moves _ _ _)).append (retName_callsOut _)
    exact .cons (.single rfl (by simp [Stmt.calls])) ((receive_callsOut _ _).append
      (.choose (countIs_external _) read (retName_callsOut _)))
  · exact retName_callsOut _

theorem methodCall_external (method : TypedMethod) : ∀ call ∈ (methodCall method).calls, External node call := by
  have tail : Expr.callsAll (callTail method) = [] := by
    unfold callTail
    split <;> split <;> simp [Expr.callsAll, Expr.calls]
  unfold methodCall
  split <;> simp [Expr.calls, Expr.callsAll, proxy, tail, External]

theorem call_callsOut (method : TypedMethod) : CallsOut node (callDefinition plan method).body := by
  have packing : CallsOut node (if method.inArgs.isEmpty then []
      else .array ⟨⟨.message, false, 0⟩, "args"⟩ method.inArgs.length :: packAll "args" method.inArgs) := by
    split
    · exact .nil
    · exact packing_callsOut _ _ _
  have reply : CallsOut node
      (if method.expectsReply then [.construct ⟨.plain "Message", "replyMsg"⟩ [.content bus]] else []) := by
    split
    · exact .single rfl (by simp [Stmt.calls, Expr.callsAll, Expr.calls, bus])
    · exact .nil
  have called : CallsOut node [.assign (.name "status") (methodCall method)] :=
    .single rfl (by simpa [Stmt.calls, Expr.calls] using methodCall_external method)
  have started : CallsOut node [statusIs (.name "ER_OK")] := .single rfl (by simp [statusIs, Stmt.calls, Expr.calls])
  exact .append (.append (.append (.cons started packing) reply) (.cons called (returnOnError_callsOut _)))
    (readReply_callsOut method)

theorem register_callsOut (signal : TypedSignal) : CallsOut node (registerDefinition plan signal).body := by
  refine .cons (returnIfNull_callsOut _ _) (.cons (.single rfl (lookUp_external _ _)) (.cons (returnIfNull_callsOut _ _)
    (.cons (.single rfl ?_) (.cons (returnOnError_callsOut _) (.single rfl ?_)))))
  · simp [statusIs, Stmt.calls, Expr.calls, Expr.callsAll, bus, External]
  · simp [Stmt.calls, Expr.calls, Expr.callsAll, bus, External]

theorem getter_callsOut (property : TypedProperty) : CallsOut node (getterDefinition plan property).body := by
  have asked (args : List Expr) (quiet : ∀ arg ∈ args, arg.calls = []) :
      CallsOut node [statusIs (.sendTo proxy "GetProperty" args)] :=
    .single rfl (by simp [statusIs, Stmt.calls, Expr.calls, Expr.callsAll_eq_nil quiet, proxy, External])
  have got : CallsOut node (property.slot.get (.root "propValue") property.name false 0) :=
    property.slot.get_callsOut rfl
  exact .append (.append (.cons (declare_callsOut _)
    (.cons (asked _ (by simp [Expr.calls])) (returnOnError_callsOut _))) got) (retName_callsOut _)

theorem setter_callsOut (property : TypedProperty) : CallsOut node (setterDefinition plan property).body := by
  have set : CallsOut node (property.slot.set (.root "propValue") (.root property.name) 0) :=
    property.slot.set_callsOut rfl
  refine .append (.cons (declare_callsOut _) set) (.single rfl ?_)
  simp [Stmt.calls, Expr.calls, Expr.callsAll, proxy, External]

theorem source_callsOut (plan : Plan) : ∀ definition ∈ functions (source plan ++ handlers plan),
    (∃ signal ∈ plan.signals, definition = wrapperDefinition plan signal) ∨ CallsOut plan.node definition.body := by
  have destroyed : CallsOut plan.node (destructorDefinition plan).body :=
    .single rfl (by simp [Stmt.calls, Expr.calls, proxy])
  have found : CallsOut plan.node (findNameDefinition plan).body :=
    .single rfl (by simp [Stmt.calls, Expr.calls, Expr.callsAll, bus, External])
  have accessed (property : TypedProperty) : ∀ definition ∈ accessorDefinitions plan property,
      CallsOut plan.node definition.body := by
    intro definition member
    rcases List.mem_append.mp member with get | set
    · obtain ⟨-, rfl⟩ : _ ∧ definition = _ := by simpa using get
      exact getter_callsOut property
    · obtain ⟨-, rfl⟩ : _ ∧ definition = _ := by simpa using set
      exact setter_callsOut property
  have filled (signal : TypedSignal) : CallsOut plan.node (handlerDefinition plan signal).body :=
    .single rfl (by simp [Stmt.calls])
  have connected : ∀ definition ∈ (if plan.busName.isSome then [findNameDefinition plan] else []),
      CallsOut plan.node definition.body := by
    split
    · exact List.forall_mem_singleton.mpr found
    · exact List.forall_mem_nil _
  have none := List.forall_mem_nil fun definition =>
    (∃ signal ∈ plan.signals, definition = wrapperDefinition plan signal) ∨ CallsOut plan.node definition.body
  rw [functions_append, handlers_functions, Plan.client_functions]
  simp only [List.forall_mem_append, List.forall_mem_cons, List.forall_mem_flatMap, List.forall_mem_map]
  exact ⟨⟨⟨⟨⟨⟨⟨.inr .nil, .inr destroyed, none⟩, fun definition member => .inr (connected definition member)⟩,
    .inr setUpProxy_callsOut, none⟩, fun method _ => ⟨.inr (call_callsOut method), none⟩⟩,
    fun signal member => ⟨.inr (register_callsOut signal), .inl ⟨signal, member, rfl⟩, none⟩⟩,
    fun property _ definition member => .inr (accessed property definition member)⟩,
    fun signal _ => .inr (filled signal)⟩

end Client

namespace Service

theorem initialize_callsOut : CallsOut plan.node (initializeDefinition plan).body := by
  have installed (method : TypedMethod) : CallsOut plan.node (installHandler plan method) := by
    refine .cons (.single rfl ?_) (returnOnError_callsOut _)
    simp [Stmt.calls, Expr.calls, Expr.callsAll, External, framework]
  have attached (part : Interface) : CallsOut plan.node (attach plan part) := by
    refine .append (.cons (.single rfl (by simp [Stmt.calls])) (.cons (.single rfl ?_)
      (.cons (returnIfNull_callsOut _ _) (.cons (.single rfl ?_) (returnOnError_callsOut _)))))
      (.flatMap fun method _ => installed method)
    · simpa [Stmt.calls, Expr.calls] using lookUp_external "myBusAttachment" part.name
    · simp [Stmt.calls, Expr.calls, Expr.callsAll, External, framework]
  have entered : CallsOut plan.node [.define ⟨interfaceDescription, "iface"⟩ .null] :=
    .single rfl (by simp [Stmt.calls])
  exact .append (.append (.cons describe_callsOut (.cons (returnOnError_callsOut _) entered))
    (.flatMap fun part _ => attached part)) (retName_callsOut _)

theorem reply_callsOut (method : TypedMethod) : CallsOut node (replyDefinition plan method).body := by
  unfold replyDefinition
  split
  · exact .single rfl (by simp [Stmt.calls, Expr.calls, Expr.callsAll, External, framework])
  · refine (packing_callsOut _ _ _).append (.single rfl ?_)
    simp [Stmt.calls, Expr.calls, Expr.callsAll, External, framework]

theorem send_callsOut (signal : TypedSignal) : CallsOut node (sendDefinition plan signal).body := by
  have packing : CallsOut node (if signal.args.isEmpty then []
      else .blank :: .array ⟨⟨.message, false, 0⟩, "args"⟩ signal.args.length :: packAll "args" signal.args) := by
    split
    · exact .nil
    · exact .cons (.single rfl (by simp [Stmt.calls])) (packing_callsOut _ _ _)
  refine .append (.append (.cons (.single rfl (lookUp_external _ _)) (.cons (returnIfNull_callsOut _ _)
    (.cons (.single rfl ?_) (returnIfNull_callsOut _ _)))) packing) (.single rfl ?_)
  · simp [Stmt.calls, Expr.calls, Expr.callsAll, External]
  · split <;> simp [Stmt.calls, Expr.calls, Expr.callsAll, External, framework]

theorem asksFor_external (property : TypedProperty) : ∀ call ∈ (asksFor property).calls, External node call := by
  simp [asksFor, textIs, Expr.calls, Expr.callsAll, External, framework]

theorem get_callsOut : CallsOut node (getDefinition plan).body := by
  have answered (property : TypedProperty) : CallsOut node [getBranch property] := by
    refine .branch (asksFor_external property) ?_
    split
    · exact .append (property.slot.set_callsOut rfl) (retName_callsOut _)
    · exact retName_callsOut _
  rw [getDefinition, List.map_eq_flatMap]
  exact .append (.flatMap fun property _ => answered property) (retName_callsOut _)

theorem valueCheck_external (property : TypedProperty) :
    ∀ check ∈ valueCheck? property, ∀ call ∈ check.calls, External node call := by
  intro check found
  unfold valueCheck? at found
  split at found
  · cases found
  · split at found
    · cases found
      simp [Expr.calls]
    · cases found
      simp [Expr.calls, Expr.callsAll, External]

theorem set_callsOut : CallsOut node (setDefinition plan).body := by
  have checked (property : TypedProperty) : CallsOut node ((valueCheck? property).toList.map fun check =>
      .branch check [.ret (.name "ER_BUS_BAD_VALUE")]) := by
    rw [List.map_eq_flatMap]
    refine .flatMap fun check found => .branch ?_ (retName_callsOut _)
    exact valueCheck_external property check (by simpa using found)
  have cleared (property : TypedProperty) :
      CallsOut node (if property.slot.isCounted then [.deleteArray (.name property.name)] else []) := by
    split
    · exact .single rfl (by simp [Stmt.calls, Expr.calls])
    · exact .nil
  have accepted (property : TypedProperty) : CallsOut node [setBranch property] := by
    refine .branch (asksFor_external property) ?_
    split
    · have got : CallsOut node (property.slot.get (.root "val") property.name false 0) := property.slot.get_callsOut rfl
      exact .append (.append (.append (checked property) (cleared property)) got) (retName_callsOut _)
    · exact retName_callsOut _
  rw [setDefinition, List.map_eq_flatMap]
  exact .append (.flatMap fun property _ => accepted property) (retName_callsOut _)

theorem source_callsOut (plan : Plan) : ∀ definition ∈ functions (source plan ++ methods plan),
    (∃ method ∈ plan.methods, definition = handlerDefinition plan method) ∨ CallsOut plan.node definition.body := by
  have destroyed : CallsOut plan.node (destructorDefinition plan).body := by
    rw [destructorDefinition, List.map_eq_flatMap]
    exact .flatMap fun property _ => .single rfl (by simp [Stmt.calls, Expr.calls])
  have filled (method : TypedMethod) : CallsOut plan.node (implementationDefinition plan method).body :=
    .single rfl (by simp [Stmt.calls])
  have replied (method : TypedMethod) :
      ∀ definition ∈ (if method.expectsReply then [replyDefinition plan method] else []),
        CallsOut plan.node definition.body := by
    split
    · exact List.forall_mem_singleton.mpr (reply_callsOut method)
    · exact List.forall_mem_nil _
  have accessed : ∀ definition ∈ (if plan.properties.isEmpty then [] else [getDefinition plan, setDefinition plan]),
      CallsOut plan.node definition.body := by
    split
    · exact List.forall_mem_nil _
    · exact List.forall_mem_cons.mpr ⟨get_callsOut, List.forall_mem_singleton.mpr set_callsOut⟩
  have none := List.forall_mem_nil fun definition =>
    (∃ method ∈ plan.methods, definition = handlerDefinition plan method) ∨ CallsOut plan.node definition.body
  rw [functions_append, methods_functions, Plan.service_functions]
  simp only [List.forall_mem_append, List.forall_mem_cons, List.forall_mem_flatMap, List.forall_mem_map]
  exact ⟨⟨⟨⟨⟨.inr .nil, .inr destroyed, .inr initialize_callsOut, none⟩,
    fun method member =>
      ⟨.inl ⟨method, member, rfl⟩, fun definition inside => .inr (replied method definition inside)⟩⟩,
    fun signal _ => ⟨.inr (send_callsOut signal), none⟩⟩,
    fun definition member => .inr (accessed definition member)⟩,
    fun method _ => .inr (filled method)⟩

end Service

namespace Describe

theorem added_callsOut (function : String) {args : List Expr} (quiet : ∀ arg ∈ args, arg.calls = []) :
    CallsOut node (added function args) :=
  .cons (.single rfl (by simp [Stmt.calls, Expr.calls, Expr.callsAll_eq_nil quiet, External]))
    (returnOnError_callsOut _)

theorem quotedOrNull_calls (text : String) : (quotedOrNull text).calls = [] := by
  unfold quotedOrNull
  split <;> rfl

theorem interface_callsOut (part : Interface) : CallsOut node (interface part) := by
  have methods (m : Method) : CallsOut node (method m) :=
    added_callsOut _ (by simp [quotedOrNull_calls, Expr.calls])
  have signals (s : Signal) : CallsOut node (signal s) :=
    added_callsOut _ (by simp [quotedOrNull_calls, Expr.calls])
  have properties (p : Property) : CallsOut node (property p) :=
    added_callsOut _ (by simp [Expr.calls])
  refine .append (.append (.append (.append (.cons (.single rfl ?_) (returnOnError_callsOut _))
    (.flatMap fun m _ => methods m)) (.flatMap fun s _ => signals s)) (.flatMap fun p _ => properties p))
    (.single rfl ?_)
  · simp [Stmt.calls, Expr.calls, Expr.callsAll, External]
  · simp [Stmt.calls, Expr.calls, Expr.callsAll, External]

theorem function_callsOut (node : ObjectNode) : CallsOut node (function node).body := by
  have described (part : Interface) : CallsOut node [unlessKnown part] :=
    .branch (by simp [Expr.isNull, Expr.calls, Expr.callsAll, External]) (interface_callsOut part)
  have started : CallsOut node [.define ⟨.plain "QStatus", "status"⟩ (.name "ER_OK"),
      .define ⟨.pointer (.plain "InterfaceDescription"), "iface"⟩ .null, .blank] :=
    .cons (.single rfl (by simp [Stmt.calls, Expr.calls])) (.cons (.single rfl (by simp [Stmt.calls]))
      (.single rfl (by simp [Stmt.calls])))
  rw [function, List.map_eq_flatMap]
  exact .append (.append started (.flatMap fun part _ => described part)) (retName_callsOut _)

end Describe
end

namespace Plan

theorem types_functions (plan : Plan) : functions (TypesHeader.items plan) = [Describe.function plan.node] := by
  have constants : functions (TypesHeader.constants plan) = [] := by
    simp [functions, TypesHeader.constants, TypesHeader.constant, List.filterMap_map, Function.comp_def]
  have composite (entry : Composite) : functions entry.items = [] := by
    unfold Composite.items
    split <;> rfl
  have registered : functions plan.registry.items = [] := by
    unfold functions at composite ⊢
    simp [Registry.items, List.filterMap_flatMap, composite]
  simp only [TypesHeader.items, functions_append, constants, registered]
  rfl

/-- The functions that the files of an object define. -/
theorem files_callsOut (plan : Plan) (service : Bool) :
    ∀ file ∈ plan.files service, ∀ definition ∈ functions file.items,
      (∃ method ∈ plan.methods, definition = Service.handlerDefinition plan method) ∨
      (∃ signal ∈ plan.signals, definition = Client.wrapperDefinition plan signal) ∨
      CallsOut plan.node definition.body := by
  have client := Client.source_callsOut plan
  have served := Service.source_callsOut plan
  simp only [functions_append, List.forall_mem_append] at client served
  have types : ∀ definition ∈ functions (TypesHeader.items plan), CallsOut plan.node definition.body := by
    rw [types_functions]
    exact List.forall_mem_singleton.mpr (Describe.function_callsOut plan.node)
  have clientFiles : ∀ file ∈ plan.clientFiles, ∀ definition ∈ functions file.items,
      (∃ signal ∈ plan.signals, definition = Client.wrapperDefinition plan signal) ∨
      CallsOut plan.node definition.body := by
    simp only [Plan.clientFiles, List.forall_mem_cons]
    exact ⟨fun definition member => .inr (types definition member), List.forall_mem_nil _, client.1, client.2,
      List.forall_mem_nil _⟩
  have serviceFiles : ∀ file ∈ plan.serviceFiles, ∀ definition ∈ functions file.items,
      (∃ method ∈ plan.methods, definition = Service.handlerDefinition plan method) ∨
      CallsOut plan.node definition.body := by
    simp only [Plan.serviceFiles, List.forall_mem_cons]
    exact ⟨List.forall_mem_nil _, served.1, served.2, List.forall_mem_nil _⟩
  intro file member definition inside
  rcases List.mem_append.mp member with client | service
  · exact .inr (clientFiles file client definition inside)
  · have among : file ∈ plan.serviceFiles := by
      split at service
      · exact service
      · cases service
    exact (serviceFiles file among definition inside).imp_right .inr

end Plan

end BusStub
