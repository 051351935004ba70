import BusStub.Proofs.ExternalCalls

/-! Calls between generated functions. What a handler passes on, and what the wrapper of a signal does, are variables
that it declares before, one for each parameter of the function that is called, with the parameter's name and type. -/

namespace BusStub
open Code Routine

namespace Code

def Param.variable (param : Param) : Variable :=
  ⟨param.type, param.name⟩

/-- The variable that a statement declares in the block where it stands; an array is known by its first element. -/
def Stmt.variable? : Stmt → Option Variable
  | .declare v | .define v _ | .construct v _ => some v
  | .array v _ => some { v with type.stars := v.type.stars + 1 }
  | .assign _ _ | .perform _ | .delete _ | .deleteArray _ | .ret _ | .loop _ _ _ | .branch _ _ | .choose _ _ _
  | .comment _ | .blank => none

def declarations (block : List Stmt) : List Variable :=
  block.filterMap Stmt.variable?

/-- A call of a function by its name, and the variables that are known where it is made, in the order in which they
are declared. -/
structure Call where
  known : List Variable
  function : String
  args : List Expr

def Call.among (known : List Variable) (calls : List (Callee × List Expr)) : List Call :=
  calls.filterMap fun
    | (.function name, args) => some ⟨known, name, args⟩
    | (.member _, _) => none

mutual
/-- The calls in a statement, at any depth. What a block declares is known until the block ends. -/
def Stmt.callsKnowing (known : List Variable) (stmt : Stmt) : List Call :=
  Call.among known stmt.calls ++ match stmt with
    | .loop depth _ body => Stmt.callsKnowingAll (known ++ [⟨⟨.size, false, 0⟩, counter depth⟩]) body
    | .branch _ body => Stmt.callsKnowingAll known body
    | .choose _ body otherwise => Stmt.callsKnowingAll known body ++ Stmt.callsKnowingAll known otherwise
    | _ => []
termination_by structural stmt

def Stmt.callsKnowingAll (known : List Variable) : List Stmt → List Call
  | [] => []
  | stmt :: rest => stmt.callsKnowing known ++ Stmt.callsKnowingAll (known ++ stmt.variable?.toList) rest
termination_by structural stmts => stmts
end

def Definition.calls (definition : Definition) : List Call :=
  Stmt.callsKnowingAll (definition.prototype.params.map Param.variable) definition.body

/-- A call as such, without what is known where it is made. -/
def Call.said (call : Call) : Callee × List Expr :=
  (.function call.function, call.args)

theorem Call.said_among (known : List Variable) (calls : List (Callee × List Expr)) :
    ∀ call ∈ Call.among known calls, call.said ∈ calls := by
  intro call member
  obtain ⟨⟨callee, args⟩, inside, same⟩ := List.mem_filterMap.mp member
  cases callee with
  | function name =>
    cases same
    exact inside
  | member name => cases same

theorem Stmt.mem_within (stmt : Stmt) : stmt ∈ stmt.within := by
  cases stmt <;> exact List.mem_cons_self

mutual
theorem Stmt.said_callsKnowing (known : List Variable) (stmt : Stmt) :
    ∀ call ∈ stmt.callsKnowing known, call.said ∈ stmt.within.flatMap Stmt.calls := by
  have own : ∀ call ∈ Call.among known stmt.calls, call.said ∈ stmt.within.flatMap Stmt.calls :=
    fun call member => List.mem_flatMap.mpr ⟨stmt, stmt.mem_within, Call.said_among known _ call member⟩
  cases stmt with
  | loop depth place body =>
    rw [Stmt.callsKnowing]
    refine List.forall_mem_append.mpr ⟨own, fun call member => List.mem_append_right _ ?_⟩
    exact Stmt.said_callsKnowingAll _ body call member
  | branch condition body =>
    rw [Stmt.callsKnowing]
    refine List.forall_mem_append.mpr ⟨own, fun call member => List.mem_append_right _ ?_⟩
    exact Stmt.said_callsKnowingAll _ body call member
  | choose condition body otherwise =>
    rw [Stmt.callsKnowing]
    refine List.forall_mem_append.mpr ⟨own, fun call member => List.mem_append_right _ ?_⟩
    rw [← List.flatMap_def, List.flatMap_append]
    exact List.mem_append.mpr ((List.mem_append.mp member).imp (Stmt.said_callsKnowingAll _ body call)
      (Stmt.said_callsKnowingAll _ otherwise call))
  | _ => simpa only [Stmt.callsKnowing, List.append_nil] using own
termination_by structural stmt

theorem Stmt.said_callsKnowingAll (known : List Variable) (block : List Stmt) :
    ∀ call ∈ Stmt.callsKnowingAll known block, call.said ∈ observe Stmt.calls block := by
  cases block with
  | nil => exact List.forall_mem_nil _
  | cons stmt rest =>
    rw [Stmt.callsKnowingAll, List.forall_mem_append, observe_cons]
    exact ⟨fun call member => List.mem_append_left _ (Stmt.said_callsKnowing known stmt call member),
      fun call member => List.mem_append_right _ (Stmt.said_callsKnowingAll _ rest call member)⟩
termination_by structural block
end

theorem Stmt.callsKnowingAll_append (known : List Variable) (first second : List Stmt) :
    Stmt.callsKnowingAll known (first ++ second) =
      Stmt.callsKnowingAll known first ++ Stmt.callsKnowingAll (known ++ declarations first) second := by
  induction first generalizing known with
  | nil => rw [declarations, List.filterMap_nil, List.append_nil]; rfl
  | cons stmt rest ih =>
    have more : declarations (stmt :: rest) = stmt.variable?.toList ++ declarations rest := by
      unfold declarations
      cases seen : stmt.variable? <;> simp [seen]
    rw [List.cons_append, Stmt.callsKnowingAll, Stmt.callsKnowingAll, ih, more, List.append_assoc, List.append_assoc]

theorem Moves.callsKnowing {into origin : List Cell} {block : List Stmt} (moves : Moves into origin block)
    (known : List Variable) : Stmt.callsKnowingAll known block = [] :=
  List.eq_nil_iff_forall_not_mem.mpr fun call member =>
    moves.not_applied call.function call.args (Stmt.said_callsKnowingAll known block call member)

theorem declarations_append (first second : List Stmt) :
    declarations (first ++ second) = declarations first ++ declarations second :=
  List.filterMap_append

theorem declarations_declare (vs : List Variable) : declarations (vs.map .declare) = vs := by
  rw [declarations, List.filterMap_map]
  exact List.filterMap_some

theorem declarations_names (block : List Stmt) : (declarations block).map Variable.name = declared block := by
  rw [declarations, declared, List.map_filterMap]
  refine List.filterMap_congr fun stmt _ => ?_
  cases stmt <;> rfl

/-- The type but for its qualifier. -/
def CType.unqualified (type : CType) : CType :=
  { type with constant := false }

/-- A parameter takes the known variable that is named as it is and has its type. -/
def Param.Takes (known : List Variable) (arg : Expr) (param : Param) : Prop :=
  arg.text = param.name ∧ ∃ v ∈ known, v.name = param.name ∧ v.type.unqualified = param.type.unqualified

/-- The call is one of the function, each of whose parameters takes a variable. -/
structure Call.Fits (call : Call) (callee : Prototype) : Prop where
  name : call.function = callee.name
  args : List.Forall₂ (Param.Takes call.known) call.args callee.params

end Code

theorem Slot.arguments_taken (slot : Slot) (name : String) (direction : Direction) {known : List Variable}
    (locals : slot.locals name ⊆ known) :
    List.Forall₂ (Param.Takes known) (slot.arguments name) (slot.params name direction) := by
  unfold Slot.locals at locals
  unfold Slot.arguments Slot.params
  cases counted : slot.isCounted with
  | false =>
    simp only [counted, Bool.false_eq_true, if_false, List.cons_subset] at locals ⊢
    cases direction <;> exact .cons ⟨rfl, _, locals.1, rfl, rfl⟩ .nil
  | true =>
    simp only [counted, if_true, List.cons_subset] at locals ⊢
    cases direction <;> exact .cons ⟨rfl, _, locals.1, rfl, rfl⟩ (.cons ⟨rfl, _, locals.2.1, rfl, rfl⟩ .nil)

theorem arguments_taken {args : List TypedArg} {known : List Variable} (direction : TypedArg → Direction)
    (locals : ∀ arg ∈ args, arg.slot.locals arg.name ⊆ known) :
    List.Forall₂ (Param.Takes known) (args.flatMap TypedArg.arguments)
      (args.flatMap fun arg => arg.params (direction arg)) := by
  have same : List.Forall₂ (fun first second => first = second ∧ first ∈ args) args args :=
    List.forall₂_same.mpr fun arg inside => ⟨rfl, inside⟩
  refine List.rel_flatMap same ?_
  rintro arg _ ⟨rfl, inside⟩
  exact arg.slot.arguments_taken arg.name (direction arg) (locals arg inside)

theorem locals_unpackAll (array : String) {args : List TypedArg} {arg : TypedArg} (inside : arg ∈ args) :
    arg.slot.locals arg.name ⊆ declarations (unpackAll array args true) := by
  obtain ⟨index, found⟩ := List.mem_iff_getElem?.mp inside
  have part : arg.slot.get (slotAt array index) arg.name true 0 <:+: unpackAll array args true :=
    get_infix_unpackAll true found
  have own : arg.slot.locals arg.name ⊆ declarations (arg.slot.get (slotAt array index) arg.name true 0) := by
    unfold Slot.get
    rw [if_pos rfl, declarations_append]
    rw [declarations_declare]
    exact List.subset_append_left _ _
  exact List.Subset.trans own (part.sublist.filterMap _).subset

theorem arguments_quiet (args : List TypedArg) : ∀ arg ∈ args.flatMap TypedArg.arguments, arg.calls = [] := by
  refine List.forall_mem_flatMap.mpr fun arg _ => ?_
  rw [TypedArg.arguments, Slot.arguments]
  split <;> simp [Expr.calls]

theorem perform_calls (known : List Variable) (function : String) (args : List Expr)
    (quiet : ∀ arg ∈ args, arg.calls = []) :
    Stmt.callsKnowingAll known [.perform (.apply function args)] = [⟨known, function, args⟩] := by
  simp [Stmt.callsKnowingAll, Stmt.callsKnowing, Stmt.calls, Expr.callsAll_eq_nil quiet, Call.among]

theorem branch_calls (known : List Variable) (expected : Nat) (body : List Stmt) :
    Stmt.callsKnowingAll known [.branch (countIs expected) body] = Stmt.callsKnowingAll known body :=
  List.append_nil _

theorem choose_calls (known : List Variable) (expected : Nat) (body otherwise : List Stmt) :
    Stmt.callsKnowingAll known [.choose (countIs expected) body otherwise] =
      Stmt.callsKnowingAll known body ++ Stmt.callsKnowingAll known otherwise :=
  List.append_nil _

section
variable (plan : Plan) (method : TypedMethod) (signal : TypedSignal)

namespace Service

/-- What a handler knows once it has asked the message for its arguments. -/
def received : List Variable :=
  [memberParam, messageParam].map Param.variable ++ declarations (receive "msg" "args")

/-- What it knows when it has the inputs and places for the outputs. -/
def prepared : List Variable :=
  received ++ (declarations (unpackAll "args" method.inArgs true) ++
    method.outArgs.flatMap fun arg => arg.slot.locals arg.name)

/-- The generated functions that a handler calls. -/
def served : List Prototype :=
  implementation method :: if method.expectsReply then [reply method] else []

/-- A call with another number of arguments is refused, unless nobody waits for a reply. -/
def refusals : List Call :=
  if method.expectsReply then [⟨received, "MethodReply", [.name "msg", .name "ER_BUS_BAD_VALUE"]⟩] else []

theorem serve_calls (known : List Variable) : Stmt.callsKnowingAll known (serve method) =
    ⟨known, method.name, method.arguments⟩ ::
      if method.expectsReply then
        [⟨known, (reply method).name, .name "msg" :: method.outArgs.flatMap TypedArg.arguments⟩]
      else [] := by
  have outputs : ∀ arg ∈ Expr.name "msg" :: method.outArgs.flatMap TypedArg.arguments, arg.calls = [] :=
    List.forall_mem_cons.mpr ⟨rfl, arguments_quiet method.outArgs⟩
  have served := perform_calls known (implementation method).name method.arguments (arguments_quiet method.args)
  have replied := perform_calls known (reply method).name _ outputs
  unfold serve
  split
  next =>
    have nothing (action : Expr) : known ++ declarations [.perform action] = known := List.append_nil known
    rw [← List.singleton_append, Stmt.callsKnowingAll_append, nothing, served, replied]
    rfl
  next => exact served

theorem serving_calls : Stmt.callsKnowingAll received
    (unpackAll "args" method.inArgs true ++
      (method.outArgs.flatMap fun arg => (arg.slot.locals arg.name).map .declare) ++ serve method) =
    ⟨prepared method, method.name, method.arguments⟩ ::
      if method.expectsReply then
        [⟨prepared method, (reply method).name, .name "msg" :: method.outArgs.flatMap TypedArg.arguments⟩]
      else [] := by
  have outputs : (method.outArgs.flatMap fun arg => (arg.slot.locals arg.name).map Stmt.declare) =
      (method.outArgs.flatMap fun arg => arg.slot.locals arg.name).map .declare := by rw [List.map_flatMap]
  have unpacked := (unpackAll_moves "args" method.inArgs true).callsKnowing received
  have declares (vs : List Variable) (known : List Variable) :
      Stmt.callsKnowingAll known (vs.map .declare) = [] := (Moves.declare vs).callsKnowing known
  rw [outputs, Stmt.callsKnowingAll_append, Stmt.callsKnowingAll_append, unpacked, declares, declarations_append,
    declarations_declare, serve_calls]
  rfl

theorem handler_calls : (handlerDefinition plan method).calls =
    ⟨prepared method, method.name, method.arguments⟩ ::
      if method.expectsReply then
        [⟨prepared method, (reply method).name, .name "msg" :: method.outArgs.flatMap TypedArg.arguments⟩,
         ⟨received, "MethodReply", [.name "msg", .name "ER_BUS_BAD_VALUE"]⟩]
      else [] := by
  have serving := serving_calls method
  have asked : Stmt.callsKnowingAll ((handler method).params.map Param.variable) (receive "msg" "args") = [] := rfl
  rw [Definition.calls, handlerDefinition, Stmt.callsKnowingAll_append, asked, List.nil_append]
  cases replied : method.expectsReply with
  | true =>
    have refused := perform_calls received "MethodReply" [.name "msg", .name "ER_BUS_BAD_VALUE"]
      (by simp [Expr.calls])
    rw [replied, if_pos rfl] at serving
    rw [if_pos rfl, if_pos rfl]
    exact (choose_calls received _ _ _).trans (congrArg₂ _ serving refused)
  | false =>
    rw [replied, if_neg Bool.false_ne_true] at serving
    rw [if_neg Bool.false_ne_true, if_neg Bool.false_ne_true]
    exact (branch_calls received _ _).trans serving

theorem handler_fits : ∃ calls, (handlerDefinition plan method).calls = calls ++ refusals method ∧
    List.Forall₂ Call.Fits calls (served method) ∧ ∀ call ∈ calls, call.known = prepared method := by
  have locals : ∀ arg ∈ method.args, arg.slot.locals arg.name ⊆ prepared method := by
    intro arg inside
    refine List.subset_append_of_subset_right _ ?_
    -- Inputs are declared where they are unpacked, outputs after all of them.
    cases direction : arg.arg.direction with
    | input =>
      have input : arg ∈ method.inArgs := List.mem_filter.mpr ⟨inside, by simp [direction]⟩
      exact List.subset_append_of_subset_left _ (locals_unpackAll "args" input)
    | output =>
      have output : arg ∈ method.outArgs := List.mem_filter.mpr ⟨inside, by simp [direction]⟩
      exact List.subset_append_of_subset_right _ fun v member => List.mem_flatMap.mpr ⟨arg, output, member⟩
  have implemented : Call.Fits ⟨prepared method, method.name, method.arguments⟩ (implementation method) :=
    ⟨rfl, arguments_taken (fun arg => arg.arg.direction) locals⟩
  have message : Param.Takes (prepared method) (.name "msg") messageParam :=
    ⟨rfl, messageParam.variable, List.mem_append_left _ (by simp [received]), rfl, rfl⟩
  have replied : Call.Fits ⟨prepared method, (reply method).name, .name "msg" :: method.outArgs.flatMap TypedArg.arguments⟩
      (reply method) :=
    ⟨rfl, .cons message (arguments_taken (fun _ => .input) fun arg inside => locals arg (List.mem_of_mem_filter inside))⟩
  rw [handler_calls, served, refusals]
  split
  · exact ⟨[_, _], rfl, .cons implemented (.cons replied .nil), by simp⟩
  · exact ⟨[_], rfl, .cons implemented .nil, by simp⟩

theorem prepared_nodup (free : ∀ arg ∈ method.args, isReserved arg.name = false) :
    ((prepared method).map Variable.name).Nodup ↔ (handlerDefinition plan method).DeclaresOnce := by
  have names : (prepared method).map Variable.name =
      ["member", "msg", "args", "numArgs"] ++
        (method.inArgs.flatMap TypedArg.unpacked ++ method.outArgs.flatMap TypedArg.localNames) := by
    have inputs : declared (unpackAll "args" method.inArgs true) = method.inArgs.flatMap TypedArg.unpacked :=
      (unpackAll_declares "args" method.inArgs true).here
    rw [prepared, List.map_append, List.map_append, declarations_names, inputs, List.map_flatMap]
    rfl
  rw [handler_declaresOnce plan free, names]
  exact scope_nodup_iff (method.handler_perm.append_left _) (by decide) (by decide)
    fun arg inside => TypedArg.inHandler_fresh (free arg inside)

end Service

namespace Client

/-- What the wrapper of a signal knows when it has the signal's arguments. -/
def prepared : List Variable :=
  [memberParam, textParam "srcPath", messageParam].map Param.variable ++
    if signal.args.isEmpty then []
    else declarations (receive "msg" "args") ++ declarations (unpackAll "args" signal.args true)

theorem wrapper_calls : (wrapperDefinition plan signal).calls =
    [⟨prepared signal, (handler signal).name, signal.arguments⟩] := by
  have called (known : List Variable) := perform_calls known (handler signal).name signal.arguments
    (arguments_quiet signal.args)
  have unpacked (known : List Variable) := (unpackAll_moves "args" signal.args true).callsKnowing known
  have asked : Stmt.callsKnowingAll ((wrapper signal).params.map Param.variable) (receive "msg" "args") = [] := rfl
  rw [Definition.calls, wrapperDefinition, prepared]
  split
  next => exact called _
  next =>
    rw [Stmt.callsKnowingAll_append, asked, List.nil_append, branch_calls, Stmt.callsKnowingAll_append, unpacked,
      List.append_assoc]
    exact called _

theorem wrapper_fits : Call.Fits ⟨prepared signal, (handler signal).name, signal.arguments⟩ (handler signal) := by
  have locals : ∀ arg ∈ signal.args, arg.slot.locals arg.name ⊆ prepared signal := by
    intro arg inside
    have some : ¬ signal.args.isEmpty := by simpa using List.ne_nil_of_mem inside
    rw [prepared, if_neg some]
    refine List.subset_append_of_subset_right _ ?_
    exact List.subset_append_of_subset_right _ (locals_unpackAll "args" inside)
  exact ⟨rfl, arguments_taken (fun _ => .input) locals⟩

theorem prepared_nodup (free : ∀ arg ∈ signal.args, isReserved arg.name = false) :
    ((prepared signal).map Variable.name).Nodup ↔ (wrapperDefinition plan signal).DeclaresOnce := by
  rw [wrapper_declaresOnce plan free, prepared]
  split
  next none =>
    rw [List.isEmpty_iff.mp none]
    exact iff_of_true (by decide) .nil
  next =>
    have unpacked : declared (unpackAll "args" signal.args true) = signal.args.flatMap TypedArg.unpacked :=
      (unpackAll_declares "args" signal.args true).here
    have own : (["member", "srcPath", "msg"] ++ ["args", "numArgs"]).Nodup := by decide
    rw [List.map_append, List.map_append, declarations_names, declarations_names, unpacked, ← List.append_assoc]
    exact scope_nodup_iff (.refl _) own (by decide) fun arg inside => TypedArg.unpacked_fresh (free arg inside)

end Client
end

/-- Generated functions call each other in two places only: a handler calls the developer's method and the function that
replies, and the wrapper of a signal calls the signal's handler. Each parameter takes a variable of its name and type, and
no other variable has that name unless the caller declares one twice. -/
structure Plan.CallsFit (plan : Plan) (service : Bool) : Prop where
  handlers : ∀ method ∈ plan.methods, ∃ calls,
    (Service.handlerDefinition plan method).calls = calls ++ Service.refusals method ∧
    List.Forall₂ Call.Fits calls (Service.served method) ∧
    ∀ call ∈ calls, (Service.handlerDefinition plan method).DeclaresOnce → (call.known.map Variable.name).Nodup
  wrappers : ∀ signal ∈ plan.signals, ∃ call,
    (Client.wrapperDefinition plan signal).calls = [call] ∧ call.Fits (Client.handler signal) ∧
    ((Client.wrapperDefinition plan signal).DeclaresOnce → (call.known.map Variable.name).Nodup)
  others : ∀ file ∈ plan.files service, ∀ definition ∈ functions file.items,
    (∃ method ∈ plan.methods, definition = Service.handlerDefinition plan method) ∨
    (∃ signal ∈ plan.signals, definition = Client.wrapperDefinition plan signal) ∨
    ∀ call ∈ definition.calls, External plan.node call.said

theorem generated_calls_fit (node : ObjectNode) (options : StubOptions) (files : List OutputFile)
    (emitted : node.emit options = .ok files) :
    ∃ plan, node.plan options = .ok plan ∧ files = (plan.files options.service).map StubFile.print ∧
      plan.CallsFit options.service := by
  obtain ⟨plan, planned, printed⟩ := ObjectNode.emit_spec emitted
  obtain ⟨registry, -, made⟩ := ObjectNode.plan_spec planned
  have free := Plan.make_unreserved made
  refine ⟨plan, planned, printed, fun method member => ?_, fun signal member => ?_,
    fun file member definition inside => ?_⟩
  · obtain ⟨calls, whole, fits, known⟩ := Service.handler_fits plan method
    refine ⟨calls, whole, fits, fun call among once => ?_⟩
    rw [known call among]
    exact (Service.prepared_nodup plan method (free.method member)).mpr once
  · refine ⟨_, Client.wrapper_calls plan signal, Client.wrapper_fits signal, fun once => ?_⟩
    exact (Client.prepared_nodup plan signal (free.signal member)).mpr once
  · have called := plan.files_callsOut options.service file member definition inside
    refine called.imp_right (.imp_right fun out call among => ?_)
    exact out _ (Stmt.said_callsKnowingAll _ _ call among)

theorem door_calls_fit : ∃ files plan, door.emit {} = .ok files ∧ door.plan {} = .ok plan ∧
    (plan.methods.map fun method =>
        (Service.handlerDefinition plan method).calls.map fun call => (call.function, Expr.texts call.args)) =
      [[("Unlock", ["code", "log", "logNumElements", "steps", "stepsNumElements"]),
        ("UnlockMethodReply", ["msg", "log", "logNumElements"]), ("MethodReply", ["msg", "ER_BUS_BAD_VALUE"])],
       [("Knock", ["how"])]] ∧
    plan.CallsFit true := by
  obtain ⟨files, emitted⟩ : ∃ files, door.emit {} = .ok files := ⟨_, rfl⟩
  obtain ⟨plan, planned, -, fit⟩ := generated_calls_fit door {} files emitted
  refine ⟨files, plan, emitted, planned, ?_, fit⟩
  simp only [Service.handler_calls]
  cases planned
  decide

end BusStub
