import BusStub.Loader
import BusStub.Proofs.DeclaredRecords
import BusStub.Proofs.LocalNames

/-! What each generated function declares: its parameters, a few names of its own, and the names made from the values
that it moves. A function that moves one value or none never declares a name twice; for those that move the arguments
of a member, this is up to the arguments alone. -/

namespace BusStub
open Code Routine

theorem Code.Declares.once {definition : Definition} {names : List String} (params : List String)
    (block : Declares names [] definition.body) (same : definition.prototype.params.map Param.name = params)
    (nodup : (params ++ names).Nodup) : definition.DeclaresOnce := by
  rw [Definition.declaresOnce_iff block, same]
  exact ⟨nodup, by simp⟩

theorem returnOnError_declares (status : String) : Declares [] [] [.returnOnError status] :=
  .settled (Declares.ret (.name status)).branch (by simp)

theorem returnIfNull_declares (pointer error : String) : Declares [] [] [.returnIfNull pointer error] :=
  .settled (Declares.ret (.name error)).branch (by simp)

theorem statusIs_declares (value : Expr) : Declares ["status"] [] [statusIs value] :=
  .single rfl rfl rfl

theorem interface_declares (value : Expr) : Declares ["iface"] [] [.define ⟨interfaceDescription, "iface"⟩ value] :=
  .single rfl rfl rfl

theorem receive_declares (message array : String) : Declares [array, "numArgs"] [] (receive message array) := by
  have declared := Declares.declare [⟨.constPointer .message, array⟩, ⟨⟨.size, false, 0⟩, "numArgs"⟩]
  exact declared.append (.perform _)

theorem packing_declares (args : List TypedArg) (room : Nat) :
    Declares ("args" :: args.flatMap TypedArg.buffers) []
      (.array ⟨⟨.message, false, 0⟩, "args"⟩ room :: packAll "args" args) := by
  have array : Declares ["args"] [] [.array ⟨⟨.message, false, 0⟩, "args"⟩ room] := .single rfl rfl rfl
  exact .cons array (packAll_declares "args" args)

section
variable (plan : Plan) {method : TypedMethod} {signal : TypedSignal} {property : TypedProperty}

namespace Client

def reads (method : TypedMethod) : Bool :=
  method.expectsReply && !method.outArgs.isEmpty

private theorem readReply_declares (method : TypedMethod) :
    Declares (if reads method then ["returnArgs", "numArgs"] else [])
      (if reads method then [method.outArgs.flatMap TypedArg.borrowed, []] else []) (readReply method) := by
  unfold readReply reads
  split
  · have blank : Declares [] [] [.blank] := .single rfl rfl rfl
    have read := (unpackAll_declares "returnArgs" method.outArgs false).append (.ret (.name "status"))
    simp only [Bool.false_eq_true, if_false, List.nil_append, List.append_nil] at read
    exact .cons .blank ((receive_declares "replyMsg" "returnArgs").append (read.choose (.ret _)))
  · exact .ret _

/-- The names that a call declares for itself. -/
private def callNames (method : TypedMethod) : List String :=
  ["status"] ++ (if method.inArgs.isEmpty then [] else ["args"]) ++
    (if method.expectsReply then ["replyMsg"] else []) ++ if reads method then ["returnArgs", "numArgs"] else []

private theorem callNames_own (method : TypedMethod) : (callNames method).Nodup ∧ callNames method ⊆ reservedNames := by
  unfold callNames
  split <;> split <;> split <;> decide

private theorem call_declares (plan : Plan) (method : TypedMethod) :
    ∃ names, Declares names (if reads method then [method.outArgs.flatMap TypedArg.borrowed, []] else [])
        (callDefinition plan method).body ∧
      names.Perm (callNames method ++ method.inArgs.flatMap TypedArg.buffers) := by
  have opening : Declares
      ((if method.inArgs.isEmpty then [] else ["args"]) ++ method.inArgs.flatMap TypedArg.buffers) []
      (if method.inArgs.isEmpty then []
       else .array ⟨⟨.message, false, 0⟩, "args"⟩ method.inArgs.length :: packAll "args" method.inArgs) := by
    cases inputs : method.inArgs with
    | nil => exact .nil
    | cons arg rest => exact packing_declares _ _
  have reply : Declares (if method.expectsReply then ["replyMsg"] else []) []
      (if method.expectsReply then [.construct ⟨.plain "Message", "replyMsg"⟩ [.content bus]] else []) := by
    split
    · exact .single rfl rfl rfl
    · exact .nil
  have called : Declares [] [] [.assign (.name "status") (methodCall method), .returnOnError "status"] :=
    .cons (.assign _ _) (returnOnError_declares "status")
  have before := (((statusIs_declares (.name "ER_OK")).append opening).append reply).append called
  refine ⟨_, before.append (readReply_declares method), ?_⟩
  refine List.perm_iff_count.mpr fun name => ?_
  simp only [callNames, List.count_append, List.count_nil]
  omega

theorem call_declaresOnce (free : ∀ arg ∈ method.args, isReserved arg.name = false) :
    (callDefinition plan method).DeclaresOnce ↔
      Separate TypedArg.inCall method.args ∧ (method.expectsReply → Separate TypedArg.borrowed method.outArgs) := by
  obtain ⟨names, declares, perm⟩ := call_declares plan method
  obtain ⟨different, reserved⟩ := callNames_own method
  have outer : ((callDefinition plan method).prototype.params.map Param.name ++ names).Nodup ↔
      Separate TypedArg.inCall method.args := by
    refine scope_nodup_iff ?_ different reserved fun arg inside => TypedArg.inCall_fresh (free arg inside)
    have params : (callDefinition plan method).prototype.params.map Param.name = _ := method.params_names
    refine .trans ?_ (method.call_perm.append_left (callNames method))
    rw [params]
    refine (perm.append_left _).trans (List.perm_append_comm_assoc _ _ _)
  have inner : (method.outArgs.flatMap TypedArg.borrowed).Nodup ↔ Separate TypedArg.borrowed method.outArgs :=
    flatMap_nodup_iff fun arg inside =>
      (TypedArg.unpacked_fresh (free arg (List.mem_of_mem_filter inside))).sublist (List.sublist_append_right _ _)
  rw [Definition.declaresOnce_iff declares, outer, and_congr_right_iff]
  intro _
  rw [← inner, reads]
  cases method.expectsReply with
  | false => simp
  | true =>
    cases outputs : method.outArgs <;> simp

theorem register_declaresOnce : (registerDefinition plan signal).DeclaresOnce := by
  have body : Declares ["iface", "status"] [] (registerDefinition plan signal).body :=
    .cons (returnIfNull_declares _ _) (.cons (interface_declares _) (.cons (returnIfNull_declares _ _)
      (.cons (statusIs_declares _) (.cons (returnOnError_declares _) (.ret _)))))
  exact body.once [] rfl (by decide)

theorem wrapper_declaresOnce (free : ∀ arg ∈ signal.args, isReserved arg.name = false) :
    (wrapperDefinition plan signal).DeclaresOnce ↔ Separate TypedArg.unpacked signal.args := by
  have called : Declares [] [] [handlerCall signal] := .perform _
  cases none : signal.args.isEmpty with
  | true =>
    have body : Declares [] [] (wrapperDefinition plan signal).body := by
      simpa [wrapperDefinition, none] using called
    rw [List.isEmpty_iff.mp none]
    exact iff_of_true (body.once ["member", "srcPath", "msg"] rfl (by decide)) .nil
  | false =>
    have body : Declares ["args", "numArgs"] [signal.args.flatMap TypedArg.unpacked]
        (wrapperDefinition plan signal).body := by
      have unpacked := (unpackAll_declares "args" signal.args true).append called
      simp only [if_true, List.append_nil] at unpacked
      simp only [wrapperDefinition, none, Bool.false_eq_true, if_false]
      exact (receive_declares "msg" "args").append unpacked.branch
    have outer : (["member", "srcPath", "msg"] ++ ["args", "numArgs"]).Nodup := by decide
    rw [Definition.declaresOnce_iff body,
      ← flatMap_nodup_iff fun arg inside => TypedArg.unpacked_fresh (free arg inside)]
    exact ⟨fun once => once.2 _ (List.mem_singleton_self _), fun nodup => ⟨outer, by simpa using nodup⟩⟩

theorem getter_declaresOnce (free : isReserved property.value.name = false) :
    (getterDefinition plan property).DeclaresOnce := by
  have value : Declares ["propValue"] [] [.declare ⟨⟨.message, false, 0⟩, "propValue"⟩] := .single rfl rfl rfl
  have got := Slot.get_declares property.type (.root "propValue") property.name false 0
  have body : Declares (["propValue", "status"] ++ property.value.borrowed ++ []) []
      (getterDefinition plan property).body :=
    ((value.cons ((statusIs_declares _).cons (returnOnError_declares "status"))).append got).append (.ret _)
  refine body.once property.value.localNames (property.params_names .output) ?_
  rw [List.append_nil, (List.perm_append_comm_assoc _ _ _).nodup_iff]
  exact (TypedArg.unpacked_fresh free).beside (by decide) (by decide)

theorem setter_declaresOnce (free : isReserved property.value.name = false) :
    (setterDefinition plan property).DeclaresOnce := by
  have value : Declares ["propValue"] [] [.declare ⟨⟨.message, false, 0⟩, "propValue"⟩] := .single rfl rfl rfl
  have set := Slot.set_declares property.type (.root "propValue") property.name 0
  have body : Declares (["propValue"] ++ property.value.buffers ++ []) [] (setterDefinition plan property).body :=
    (value.cons set).append (.ret _)
  refine body.once property.value.localNames (property.params_names .input) ?_
  rw [List.append_nil, (List.perm_append_comm_assoc _ _ _).nodup_iff]
  exact (TypedArg.packed_fresh free).beside (by decide) (by decide)

theorem setUpProxy_declaresOnce : (setUpProxyDefinition plan).DeclaresOnce := by
  have created (value : Expr) : Declares [] [] [.branch (.isNull proxy) [.assign proxy value]] :=
    .settled (Declares.assign proxy value).branch (by simp)
  have attached (interface : Interface) : Declares [] [] (attach interface) :=
    .cons (.assign _ _) (.cons (returnIfNull_declares _ _) (.cons (.assign _ _) (returnOnError_declares _)))
  have body : Declares ["status", "iface"] [] (setUpProxyDefinition plan).body :=
    .append (.append (.cons (statusIs_declares _) (.cons (returnOnError_declares _) (.cons .blank (.cons (created _)
      (interface_declares _))))) (.flatMap fun interface _ => attached interface)) (.ret _)
  exact body.once ["sessionId"] rfl (by decide)

theorem constructor_declaresOnce : (constructorDefinition plan).DeclaresOnce :=
  Declares.nil.once ["bus", "serviceName", "path"] rfl (by decide)

theorem destructor_declaresOnce : (destructorDefinition plan).DeclaresOnce := by
  have body : Declares [] [] (destructorDefinition plan).body := .single rfl rfl rfl
  exact body.once [] rfl (by decide)

theorem findName_declaresOnce : (findNameDefinition plan).DeclaresOnce := by
  have body : Declares [] [] (findNameDefinition plan).body := .ret _
  exact body.once [] rfl (by decide)

end Client

namespace Service

theorem constructor_declaresOnce : (constructorDefinition plan).DeclaresOnce :=
  Declares.nil.once ["bus", "path"] rfl (by decide)

theorem destructor_declaresOnce : (destructorDefinition plan).DeclaresOnce := by
  have deleted (property : TypedProperty) : Declares [] [] [.deleteArray (.name property.name)] := .single rfl rfl rfl
  have body : Declares [] [] (destructorDefinition plan).body := by
    rw [destructorDefinition, List.map_eq_flatMap]
    exact .flatMap fun property _ => deleted property
  exact body.once [] rfl (by decide)

theorem initialize_declaresOnce : (initializeDefinition plan).DeclaresOnce := by
  have installed (method : TypedMethod) : Declares [] [] (installHandler plan method) :=
    .cons (.assign _ _) (returnOnError_declares _)
  have attached (interface : Interface) : Declares [] [] (attach plan interface) :=
    .append (.cons .blank (.cons (.assign _ _) (.cons (returnIfNull_declares _ _)
      (.cons (.assign _ _) (returnOnError_declares _))))) (.flatMap fun method _ => installed method)
  have body : Declares ["status", "iface"] [] (initializeDefinition plan).body :=
    .append (.append (.cons (statusIs_declares _) (.cons (returnOnError_declares _) (interface_declares _)))
      (.flatMap fun interface _ => attached interface)) (.ret _)
  exact body.once [] rfl (by decide)

theorem handler_declaresOnce (free : ∀ arg ∈ method.args, isReserved arg.name = false) :
    (handlerDefinition plan method).DeclaresOnce ↔ Separate TypedArg.inHandler method.args := by
  have inputs : Declares (method.inArgs.flatMap TypedArg.unpacked) [] (unpackAll "args" method.inArgs true) :=
    unpackAll_declares "args" method.inArgs true
  have outputs : Declares (method.outArgs.flatMap TypedArg.localNames) []
      (method.outArgs.flatMap fun arg => (arg.slot.locals arg.name).map .declare) := by
    have declared := Declares.declare (method.outArgs.flatMap fun arg => arg.slot.locals arg.name)
    rwa [List.map_flatMap, List.map_flatMap] at declared
  have called : Declares [] [] (serve method) := by
    unfold serve
    split
    · exact .cons (.perform _) (.perform _)
    · exact .perform _
  have serving := (inputs.append outputs).append called
  have body : Declares ["args", "numArgs"]
      ((method.inArgs.flatMap TypedArg.unpacked ++ method.outArgs.flatMap TypedArg.localNames ++ []) ::
        if method.expectsReply then [[]] else [])
      (handlerDefinition plan method).body := by
    cases replied : method.expectsReply with
    | true =>
      simp only [handlerDefinition, replied, if_true]
      exact (receive_declares "msg" "args").append (serving.choose (.perform _))
    | false =>
      simp only [handlerDefinition, replied, Bool.false_eq_true, if_false]
      exact (receive_declares "msg" "args").append serving.branch
  have outer : (["member", "msg"] ++ ["args", "numArgs"]).Nodup := by decide
  have other : ∀ scope ∈ (if method.expectsReply then [[]] else [] : List (List String)), scope.Nodup := by
    split <;> simp
  rw [Definition.declaresOnce_iff body, List.forall_mem_cons, List.append_nil, method.handler_perm.nodup_iff,
    flatMap_nodup_iff fun arg inside => TypedArg.inHandler_fresh (free arg inside)]
  exact ⟨fun once => once.2.1, fun separate => ⟨outer, separate, other⟩⟩

theorem reply_declaresOnce (free : ∀ arg ∈ method.args, isReserved arg.name = false) :
    (replyDefinition plan method).DeclaresOnce ↔ Separate TypedArg.packed method.outArgs := by
  have params : (replyDefinition plan method).prototype.params.map Param.name =
      "msg" :: method.outArgs.flatMap TypedArg.localNames := by
    have named : (method.outArgs.flatMap fun arg => arg.params .input).map Param.name = _ :=
      input_names method.outArgs
    exact congrArg _ named
  have fresh : ∀ arg ∈ method.outArgs, Fresh arg.packed := fun arg inside =>
    TypedArg.packed_fresh (free arg (List.mem_of_mem_filter inside))
  cases none : method.outArgs.isEmpty with
  | true =>
    have body : Declares [] [] (replyDefinition plan method).body := by
      simp only [replyDefinition, none, if_true]
      exact .ret _
    rw [List.isEmpty_iff.mp none] at params ⊢
    exact iff_of_true (body.once ["msg"] params (by decide)) .nil
  | false =>
    have body : Declares ("args" :: method.outArgs.flatMap TypedArg.buffers ++ []) []
        (replyDefinition plan method).body := by
      simp only [replyDefinition, none, Bool.false_eq_true, if_false]
      exact (packing_declares _ _).append (.ret _)
    have perm : ("msg" :: method.outArgs.flatMap TypedArg.localNames ++
        ("args" :: method.outArgs.flatMap TypedArg.buffers ++ [])).Perm
          (["msg", "args"] ++ method.outArgs.flatMap TypedArg.packed) := by
      refine .trans ?_ ((packed_perm method.outArgs).append_left _)
      refine List.perm_iff_count.mpr fun name => ?_
      simp only [List.count_append, List.count_cons, List.count_nil]
      omega
    rw [Definition.declaresOnce_iff body, params, scope_nodup_iff perm (by decide) (by decide) fresh]
    exact and_iff_left (by simp)

theorem send_declaresOnce (free : ∀ arg ∈ signal.args, isReserved arg.name = false) :
    (sendDefinition plan signal).DeclaresOnce ↔ Separate TypedArg.packed signal.args := by
  have params : (sendDefinition plan signal).prototype.params.map Param.name =
      signal.args.flatMap TypedArg.localNames ++ ["destination", "sessionId"] := by
    change (signal.params ++ destinationParams false).map Param.name = _
    have named : signal.params.map Param.name = _ := input_names signal.args
    rw [List.map_append, named]
    rfl
  have member (value : Expr) : Declares ["member"] [] [.define ⟨memberDescription, "member"⟩ value] :=
    .single rfl rfl rfl
  have packing : Declares ((if signal.args.isEmpty then [] else ["args"]) ++ signal.args.flatMap TypedArg.buffers) []
      (if signal.args.isEmpty then []
       else .blank :: .array ⟨⟨.message, false, 0⟩, "args"⟩ signal.args.length :: packAll "args" signal.args) := by
    cases arguments : signal.args with
    | nil => exact .nil
    | cons arg rest => exact .cons .blank (packing_declares _ _)
  have body : Declares (["iface", "member"] ++
      ((if signal.args.isEmpty then [] else ["args"]) ++ signal.args.flatMap TypedArg.buffers) ++ []) []
      (sendDefinition plan signal).body :=
    .append (.append (.cons (interface_declares _) (.cons (returnIfNull_declares _ _)
      (.cons (member _) (returnIfNull_declares _ _)))) packing) (.ret _)
  have perm : (signal.args.flatMap TypedArg.localNames ++ ["destination", "sessionId"] ++ (["iface", "member"] ++
      ((if signal.args.isEmpty then [] else ["args"]) ++ signal.args.flatMap TypedArg.buffers) ++ [])).Perm
        (["destination", "sessionId", "iface", "member"] ++ (if signal.args.isEmpty then [] else ["args"]) ++
          signal.args.flatMap TypedArg.packed) := by
    refine .trans ?_ ((packed_perm signal.args).append_left _)
    refine List.perm_iff_count.mpr fun name => ?_
    simp only [List.count_append, List.count_cons, List.count_nil]
    omega
  rw [Definition.declaresOnce_iff body, params, scope_nodup_iff perm ?_ ?_ fun arg inside =>
    TypedArg.packed_fresh (free arg inside)]
  · exact and_iff_left (by simp)
  · split <;> decide
  · split <;> decide

theorem get_declaresOnce (free : ∀ property ∈ plan.properties, isReserved property.value.name = false) :
    (getDefinition plan).DeclaresOnce := by
  have answered (property : TypedProperty) (inside : property ∈ plan.properties) :
      Declares [] [] [getBranch property] := by
    have fresh := (TypedArg.packed_fresh (free property inside)).sublist (List.sublist_append_right _ _)
    unfold getBranch
    split
    · have set : Declares property.value.buffers [] (property.slot.set (.root "val") (.root property.name) 0) :=
        Slot.set_declares property.type (.root "val") property.name 0
      exact .settled (set.append (.ret _)).branch (by simpa using fresh.nodup)
    · exact .settled (Declares.ret _).branch (by simp)
  have body : Declares [] [] (getDefinition plan).body := by
    rw [getDefinition, List.map_eq_flatMap]
    exact .append (.flatMap answered) (.ret _)
  exact body.once ["ifcName", "propName", "val"] rfl (by decide)

theorem set_declaresOnce (free : ∀ property ∈ plan.properties, isReserved property.value.name = false) :
    (setDefinition plan).DeclaresOnce := by
  have refused (check : Expr) : Declares [] [] [.branch check [.ret (.name "ER_BUS_BAD_VALUE")]] :=
    .settled (Declares.ret _).branch (by simp)
  have deleted (name : String) : Declares [] [] [.deleteArray (.name name)] := .single rfl rfl rfl
  have accepted (property : TypedProperty) (inside : property ∈ plan.properties) :
      Declares [] [] [setBranch property] := by
    have fresh := (TypedArg.unpacked_fresh (free property inside)).sublist (List.sublist_append_right _ _)
    unfold setBranch
    split
    · have checked : Declares [] [] ((valueCheck? property).toList.map fun check =>
          .branch check [.ret (.name "ER_BUS_BAD_VALUE")]) := by
        rw [List.map_eq_flatMap]
        exact .flatMap fun check _ => refused check
      have cleared : Declares [] [] (if property.slot.isCounted then [.deleteArray (.name property.name)] else []) := by
        split
        · exact deleted _
        · exact .nil
      have got : Declares property.value.borrowed [] (property.slot.get (.root "val") property.name false 0) :=
        Slot.get_declares property.type (.root "val") property.name false 0
      exact .settled (((checked.append cleared).append got).append (.ret _)).branch (by simpa using fresh.nodup)
    · exact .settled (Declares.ret _).branch (by simp)
  have body : Declares [] [] (setDefinition plan).body := by
    rw [setDefinition, List.map_eq_flatMap]
    exact .append (.flatMap accepted) (.ret _)
  exact body.once ["ifcName", "propName", "val"] rfl (by decide)

end Service
end

/-- The functions that a source file defines. -/
def functions (items : List Item) : List Definition :=
  items.filterMap fun
    | .function definition => some definition
    | _ => none

namespace Plan

/-- Wherever arguments are packed or unpacked together on the client's side, their names are separate. -/
structure ClientSeparate (plan : Plan) : Prop where
  calls : ∀ method ∈ plan.methods, Separate TypedArg.inCall method.args
  replies : ∀ method ∈ plan.methods, method.expectsReply → Separate TypedArg.borrowed method.outArgs
  signals : ∀ signal ∈ plan.signals, Separate TypedArg.unpacked signal.args

/-- Wherever arguments are packed or unpacked together on the service's side, their names are separate. -/
structure ServiceSeparate (plan : Plan) : Prop where
  handlers : ∀ method ∈ plan.methods, Separate TypedArg.inHandler method.args
  replies : ∀ method ∈ plan.methods, method.expectsReply → Separate TypedArg.packed method.outArgs
  signals : ∀ signal ∈ plan.signals, Separate TypedArg.packed signal.args

theorem client_functions (plan : Plan) : functions (Client.source plan) =
    [Client.constructorDefinition plan, Client.destructorDefinition plan] ++
    (if plan.busName.isSome then [Client.findNameDefinition plan] else []) ++ [Client.setUpProxyDefinition plan] ++
    plan.methods.flatMap (fun method => [Client.callDefinition plan method]) ++
    plan.signals.flatMap (fun signal =>
      [Client.registerDefinition plan signal, Client.wrapperDefinition plan signal]) ++
    plan.properties.flatMap (Client.accessorDefinitions plan) := by
  have accessors (property : TypedProperty) :
      functions (Client.propertyItems plan property) = Client.accessorDefinitions plan property := by
    simp [functions, Client.propertyItems, List.filterMap_flatMap]
  have named : functions (if plan.busName.isSome then [.function (Client.findNameDefinition plan), .blank] else []) =
      if plan.busName.isSome then [Client.findNameDefinition plan] else [] := by
    split <;> rfl
  simp only [functions] at accessors named
  simp only [Client.source, functions, List.filterMap_append, List.filterMap_flatMap, accessors, named]
  rfl

theorem service_functions (plan : Plan) : functions (Service.source plan) =
    [Service.constructorDefinition plan, Service.destructorDefinition plan, Service.initializeDefinition plan] ++
    plan.methods.flatMap (fun method => Service.handlerDefinition plan method ::
      if method.expectsReply then [Service.replyDefinition plan method] else []) ++
    plan.signals.flatMap (fun signal => [Service.sendDefinition plan signal]) ++
    if plan.properties.isEmpty then [] else [Service.getDefinition plan, Service.setDefinition plan] := by
  have handlers (method : TypedMethod) : functions (Service.methodItems plan method) =
      Service.handlerDefinition plan method ::
        if method.expectsReply then [Service.replyDefinition plan method] else [] := by
    unfold Service.methodItems
    split <;> rfl
  have properties : functions (Service.propertyItems plan) =
      if plan.properties.isEmpty then [] else [Service.getDefinition plan, Service.setDefinition plan] := by
    unfold Service.propertyItems
    split <;> rfl
  simp only [functions] at handlers properties
  simp only [Service.source, functions, List.filterMap_append, List.filterMap_flatMap, handlers, properties]
  rfl

theorem Unreserved.client {plan : Plan} (free : plan.Unreserved) :
    (∀ definition ∈ functions (Client.source plan), definition.DeclaresOnce) ↔ plan.ClientSeparate := by
  have accessors : ∀ property ∈ plan.properties, ∀ definition ∈ Client.accessorDefinitions plan property,
      definition.DeclaresOnce := by
    intro property member definition inside
    rcases List.mem_append.mp inside with get | set
    · obtain ⟨-, rfl⟩ : _ ∧ definition = _ := by simpa using get
      exact Client.getter_declaresOnce plan (free.property member)
    · obtain ⟨-, rfl⟩ : _ ∧ definition = _ := by simpa using set
      exact Client.setter_declaresOnce plan (free.property member)
  have call (method : TypedMethod) (member : method ∈ plan.methods) :=
    Client.call_declaresOnce plan (free.method member)
  have wrapper (signal : TypedSignal) (member : signal ∈ plan.signals) :=
    Client.wrapper_declaresOnce plan (free.signal member)
  rw [client_functions]
  simp only [List.forall_mem_append, List.forall_mem_flatMap, List.forall_mem_cons, List.not_mem_nil, false_imp_iff,
    implies_true, and_true]
  constructor
  · rintro ⟨⟨⟨-, calls⟩, signals⟩, -⟩
    exact ⟨fun method member => ((call method member).mp (calls method member)).1,
      fun method member => ((call method member).mp (calls method member)).2,
      fun signal member => (wrapper signal member).mp (signals signal member).2⟩
  · intro separate
    have connection : ∀ definition ∈ (if plan.busName.isSome then [Client.findNameDefinition plan] else []),
        definition.DeclaresOnce := by
      split
      · simpa using Client.findName_declaresOnce plan
      · simp
    refine ⟨⟨⟨⟨⟨⟨Client.constructor_declaresOnce plan, Client.destructor_declaresOnce plan⟩, connection⟩,
      Client.setUpProxy_declaresOnce plan⟩, ?_⟩, ?_⟩, accessors⟩
    · exact fun method member => (call method member).mpr ⟨separate.calls method member, separate.replies method member⟩
    · exact fun signal member =>
        ⟨Client.register_declaresOnce plan, (wrapper signal member).mpr (separate.signals signal member)⟩

theorem Unreserved.service {plan : Plan} (free : plan.Unreserved) :
    (∀ definition ∈ functions (Service.source plan), definition.DeclaresOnce) ↔ plan.ServiceSeparate := by
  have handler (method : TypedMethod) (member : method ∈ plan.methods) :=
    Service.handler_declaresOnce plan (free.method member)
  have reply (method : TypedMethod) (member : method ∈ plan.methods) :=
    Service.reply_declaresOnce plan (free.method member)
  have send (signal : TypedSignal) (member : signal ∈ plan.signals) :=
    Service.send_declaresOnce plan (free.signal member)
  rw [service_functions]
  simp only [List.forall_mem_append, List.forall_mem_flatMap, List.forall_mem_cons, List.not_mem_nil, false_imp_iff,
    implies_true, and_true]
  constructor
  · rintro ⟨⟨⟨-, methods⟩, signals⟩, -⟩
    refine ⟨fun method member => (handler method member).mp (methods method member).1, ?_,
      fun signal member => (send signal member).mp (signals signal member)⟩
    intro method member replied
    exact (reply method member).mp ((methods method member).2 _ (by simp [replied]))
  · intro separate
    refine ⟨⟨⟨⟨Service.constructor_declaresOnce plan, Service.destructor_declaresOnce plan,
      Service.initialize_declaresOnce plan⟩, ?_⟩, ?_⟩, ?_⟩
    · intro method member
      refine ⟨(handler method member).mpr (separate.handlers method member), ?_⟩
      split
      next replied => simpa using (reply method member).mpr (separate.replies method member replied)
      next => simp
    · exact fun signal member => (send signal member).mpr (separate.signals signal member)
    · have get := Service.get_declaresOnce plan fun property member => free.property member
      have set := Service.set_declaresOnce plan fun property member => free.property member
      split
      · simp
      · simp [get, set]

/-- Arguments with plain names are always separate. -/
theorem separate_of_plain {plan : Plan} (methods : ∀ method ∈ plan.methods, PlainArgs method.args)
    (signals : ∀ signal ∈ plan.signals, PlainArgs signal.args) : plan.ClientSeparate ∧ plan.ServiceSeparate where
  left :=
    { calls := fun method member => (methods method member).separate TypedArg.inCall_made
      replies := fun method member _ => ((methods method member).filter _).separate TypedArg.borrowed_made
      signals := fun signal member => (signals signal member).separate TypedArg.unpacked_made }
  right :=
    { handlers := fun method member => (methods method member).separate TypedArg.inHandler_made
      replies := fun method member _ => ((methods method member).filter _).separate TypedArg.packed_made
      signals := fun signal member => (signals signal member).separate TypedArg.packed_made }

end Plan

/-- In the sources generated for an object, no function declares a name twice in one scope exactly if the names
made from one argument are not made from another that the function packs or unpacks in the same scope. -/
theorem functions_declare_once (node : ObjectNode) (options : StubOptions) (files : List OutputFile)
    (emitted : node.emit options = .ok files) :
    ∃ plan, node.plan options = .ok plan ∧ files = (plan.files options.service).map StubFile.print ∧
      ((∀ definition ∈ functions (Client.source plan), definition.DeclaresOnce) ↔ plan.ClientSeparate) ∧
      ((∀ definition ∈ functions (Service.source plan), definition.DeclaresOnce) ↔ plan.ServiceSeparate) := by
  obtain ⟨plan, planned, printed⟩ := ObjectNode.emit_spec emitted
  obtain ⟨registry, -, made⟩ := ObjectNode.plan_spec planned
  have free := Plan.make_unreserved made
  exact ⟨plan, planned, printed, free.client, free.service⟩

/-- An object with one method, which takes an array and a number and hands a label out. -/
def lamp (number : String) : ObjectNode :=
  let light : Interface :=
    { name := "org.lamp.Light"
      methods :=
        [{ name := "Name"
           args := [⟨"x", "ai", .input, none⟩, ⟨number, "u", .input, none⟩, ⟨"label", "(sas)", .output, none⟩] }] }
  { name := "Lamp", path := "/Lamp", interface := light }

theorem lamp_declares_once : ∃ files plan,
    (lamp "y").emit {} = .ok files ∧ (lamp "y").plan {} = .ok plan ∧ plan.ClientSeparate ∧ plan.ServiceSeparate ∧
      (∀ definition ∈ functions (Client.source plan), definition.DeclaresOnce) ∧
      ∀ definition ∈ functions (Service.source plan), definition.DeclaresOnce := by
  obtain ⟨files, emitted⟩ : ∃ files, (lamp "y").emit {} = .ok files := ⟨_, rfl⟩
  obtain ⟨plan, planned, -, client, service⟩ := functions_declare_once (lamp "y") {} files emitted
  have separate : plan.ClientSeparate ∧ plan.ServiceSeparate := by
    cases planned
    exact ⟨⟨by decide, by decide, by decide⟩, by decide, by decide, by decide⟩
  exact ⟨files, plan, emitted, planned, separate.1, separate.2, client.mpr separate.1, service.mpr separate.2⟩

/-- The number may not be called like the number of the array's elements: then the call and the handler declare
that name twice. -/
theorem lamp_declares_twice :
    ((Loader.document {} ("<node name=\"Lamp\"><interface name=\"org.lamp.Light\"><method name=\"Name\">" ++
      "<arg name=\"x\" type=\"ai\"/><arg name=\"xNumElements\" type=\"u\"/>" ++
      "<arg name=\"label\" type=\"(sas)\" direction=\"out\"/></method></interface></node>")).run {}).2.objects =
      [lamp "xNumElements"] ∧
    ∃ files plan, (lamp "xNumElements").emit {} = .ok files ∧ (lamp "xNumElements").plan {} = .ok plan ∧
      (∃ definition ∈ functions (Client.source plan), ¬ definition.DeclaresOnce) ∧
      ∃ definition ∈ functions (Service.source plan), ¬ definition.DeclaresOnce := by
  refine ⟨by decide +kernel, _, _, rfl, rfl, ?_, ?_⟩
  · decide
  · decide

end BusStub
