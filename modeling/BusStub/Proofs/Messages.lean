import BusStub.Proofs.PlanMembers
import BusStub.Proofs.Traffic

/-! Functions that send or receive. What a sender puts into an argument array, a receiver expects there: one
element for each argument, in order, and no others. -/

namespace BusStub
open Code Routine

/-- The block packs each argument into the element of `args` at its position, and fills no other element. -/
structure Packs (args : List TypedArg) (block : List Stmt) : Prop where
  room : args ≠ [] → .array ⟨⟨.message, false, 0⟩, "args"⟩ args.length ∈ block
  fills : observe Stmt.fills block = cells "args" args.length
  each : ∀ (index : Nat) (arg : TypedArg), args[index]? = some arg →
    arg.slot.set (slotAt "args" index) (.root arg.name) 0 <:+: block

/-- The block asks a message for its arguments and, if there are as many as expected, reads each from the element
at its position. It reads no other element and nothing otherwise. -/
structure Reads (args : List TypedArg) (message array : String) (declared : Bool) (block : List Stmt) : Prop where
  asks : observe (Stmt.callsOf (.member "GetArgs")) block = [[.name message, .name "numArgs", .name array]]
  drains : observe Stmt.drains block = cells array args.length
  guarded : ∃ body, observe Stmt.guards block = [(args.length, body)] ∧
    observe Stmt.drains body = cells array args.length ∧
    ∀ (index : Nat) (arg : TypedArg), args[index]? = some arg →
      arg.slot.get (slotAt array index) arg.name declared 0 <:+: body

/-- The block does not look at the arguments of any message. -/
structure Ignores (block : List Stmt) : Prop where
  asks : observe (Stmt.callsOf (.member "GetArgs")) block = []
  drains : observe Stmt.drains block = []
  guards : observe Stmt.guards block = []

variable {args : List TypedArg} {before block after : List Stmt}

namespace Packs

theorem nothing (unfilled : observe Stmt.fills block = []) : Packs [] block :=
  ⟨fun nonempty => absurd rfl nonempty, unfilled, by simp⟩

theorem packAll (args : List TypedArg) :
    Packs args (.array ⟨⟨.message, false, 0⟩, "args"⟩ args.length :: Routine.packAll "args" args) where
  room _ := List.mem_cons_self ..
  fills := by simpa [Stmt.within, Stmt.fills, Stmt.filled?] using (packAll_moves "args" args).fills
  each _ _ found := (set_infix_packAll found).trans (List.suffix_cons ..).isInfix

theorem around (packs : Packs args block) (before after : List Stmt) (unfilled : observe Stmt.fills before = [])
    (untouched : observe Stmt.fills after = []) : Packs args (before ++ block ++ after) where
  room nonempty := List.mem_append_left _ (List.mem_append_right _ (packs.room nonempty))
  fills := by rw [observe_append, observe_append, unfilled, untouched, packs.fills, List.nil_append, List.append_nil]
  each index arg found := (packs.each index arg found).trans (List.infix_append before block after)

end Packs

namespace Ignores

theorem append (first : Ignores before) (second : Ignores after) : Ignores (before ++ after) where
  asks := by rw [observe_append, first.asks, second.asks]; rfl
  drains := by rw [observe_append, first.drains, second.drains]; rfl
  guards := by rw [observe_append, first.guards, second.guards]; rfl

theorem of_moves {into : List Cell} (moves : Moves into [] block) : Ignores block :=
  ⟨moves.calls _ (by decide), moves.drains, moves.guards⟩

end Ignores

namespace Reads

variable {message array : String} {declared : Bool} {otherwise : List Stmt}

theorem around (reads : Reads args message array declared block) (first : Ignores before) (second : Ignores after) :
    Reads args message array declared (before ++ block ++ after) where
  asks := by rw [observe_append, observe_append, first.asks, second.asks, reads.asks]; rfl
  drains := by
    rw [observe_append, observe_append, first.drains, second.drains, reads.drains, List.nil_append, List.append_nil]
  guarded := by
    obtain ⟨body, guards, rest⟩ := reads.guarded
    exact ⟨body, by rw [observe_append, observe_append, first.guards, second.guards, guards]; rfl, rest⟩

private theorem receive_asks (message array : String) :
    observe (Stmt.callsOf (.member "GetArgs")) (receive message array) =
      [[.name message, .name "numArgs", .name array]] := by
  simp [receive, Stmt.within, Stmt.callsOf, Stmt.calls, Expr.calls, Expr.callsAll]

/-- The statement that follows the receipt may be of either kind, as long as all that is looked at in it is its one
guarded body. -/
private theorem receipt {guard : Stmt} (declared : Bool) (ignored : Ignores after)
    (asks : observe (Stmt.callsOf (.member "GetArgs")) [guard] =
      observe (Stmt.callsOf (.member "GetArgs")) (unpackAll array args declared ++ after))
    (drains : observe Stmt.drains [guard] = observe Stmt.drains (unpackAll array args declared ++ after))
    (guards : observe Stmt.guards [guard] = (args.length, unpackAll array args declared ++ after) ::
      observe Stmt.guards (unpackAll array args declared ++ after)) :
    Reads args message array declared (receive message array ++ [guard]) := by
  have moves := unpackAll_moves array args declared
  have drained : observe Stmt.drains (unpackAll array args declared ++ after) = cells array args.length := by
    rw [observe_append, moves.drains, ignored.drains, List.append_nil]
  refine ⟨?_, ?_, unpackAll array args declared ++ after, ?_, drained, ?_⟩
  · rw [observe_append, receive_asks, asks, observe_append, moves.calls _ (by decide), ignored.asks, List.nil_append,
      List.append_nil]
  · exact drains.trans drained
  · change observe Stmt.guards [guard] = _
    rw [guards, observe_append, moves.guards, ignored.guards, List.nil_append]
  · intro index arg found
    exact (get_infix_unpackAll declared found).trans (List.prefix_append ..).isInfix

theorem choose (message array : String) (args : List TypedArg) (declared : Bool) (ignored : Ignores after)
    (rest : Ignores otherwise) : Reads args message array declared (receive message array ++
      [.choose (countIs args.length) (unpackAll array args declared ++ after) otherwise]) := by
  apply receipt declared ignored
  · simp [Stmt.within, rest.asks, Stmt.callsOf, Stmt.calls, countIs, Expr.calls]
  · simp [Stmt.within, rest.drains, Stmt.drains, Stmt.drained?]
  · simp [Stmt.within, rest.guards, Stmt.guards, countIs, Expr.equal]

theorem branch (message array : String) (args : List TypedArg) (declared : Bool) (ignored : Ignores after) :
    Reads args message array declared (receive message array ++
      [.branch (countIs args.length) (unpackAll array args declared ++ after)]) := by
  apply receipt declared ignored
  · simp [Stmt.within, Stmt.callsOf, Stmt.calls, countIs, Expr.calls]
  · simp [Stmt.within, Stmt.drains, Stmt.drained?]
  · simp [Stmt.within, Stmt.guards, countIs, Expr.equal]

end Reads

def passed (args : List TypedArg) : Expr :=
  if args.isEmpty then .null else .name "args"

theorem passed_quiet (args : List TypedArg) : (passed args).calls = [] := by
  unfold passed
  split <;> rfl

theorem TypedArg.arguments_quiet (args : List TypedArg) : Expr.callsAll (args.flatMap TypedArg.arguments) = [] := by
  refine Expr.callsAll_eq_nil fun expr member => ?_
  obtain ⟨arg, -, inside⟩ := List.mem_flatMap.mp member
  unfold TypedArg.arguments Slot.arguments at inside
  split at inside <;> simp at inside
  · rcases inside with rfl | rfl <;> rfl
  · subst inside
    rfl

def opening (args : List TypedArg) : List Stmt :=
  if args.isEmpty then [] else .array ⟨⟨.message, false, 0⟩, "args"⟩ args.length :: packAll "args" args

private theorem opening_packs (args : List TypedArg) : Packs args (opening args) := by
  unfold opening
  split
  next empty =>
    obtain rfl := List.isEmpty_iff.mp empty
    exact .nothing rfl
  next => exact .packAll args

theorem opening_moves (args : List TypedArg) : Moves (cells "args" args.length) [] (opening args) := by
  unfold opening
  split
  next empty =>
    obtain rfl := List.isEmpty_iff.mp empty
    exact .nil
  next =>
    have room : Moves [] [] [.array ⟨⟨.message, false, 0⟩, "args"⟩ args.length] :=
      .single rfl rfl rfl rfl (by simp [Stmt.calls])
    exact room.cons (packAll_moves "args" args)

private def calling (method : TypedMethod) : List Stmt :=
  (if method.expectsReply then [.construct ⟨.plain "Message", "replyMsg"⟩ [.content Client.bus]] else []) ++
  [.assign (.name "status") (Client.methodCall method), .returnOnError "status"]

private theorem callDefinition_body (plan : Plan) (method : TypedMethod) : (Client.callDefinition plan method).body =
    [statusIs (.name "ER_OK")] ++ opening method.inArgs ++ (calling method ++ Client.readReply method) := by
  simp [Client.callDefinition, opening, calling]

private theorem callTail_quiet (method : TypedMethod) : Expr.callsAll (Client.callTail method) = [] := by
  refine Expr.callsAll_eq_nil fun expr member => ?_
  unfold Client.callTail at member
  split at member <;> split at member <;> simp at member <;> rcases member with rfl | rfl | rfl <;> rfl

private theorem methodCall_calls (method : TypedMethod) : (Client.methodCall method).calls =
    [(.member "MethodCall", Client.proxy :: .quoted method.interface :: .quoted method.name :: passed method.inArgs ::
      .number method.inArgs.length :: Client.callTail method)] := by
  change [(Callee.member "MethodCall", _)] ++ [] ++ ([] ++ ([] ++ ((passed method.inArgs).calls ++
    ([] ++ Expr.callsAll (Client.callTail method))))) = _
  rw [passed_quiet, callTail_quiet]
  rfl

private theorem calling_ignores (method : TypedMethod) : Ignores (calling method) := by
  have constructed : Ignores (if method.expectsReply then
      [.construct ⟨.plain "Message", "replyMsg"⟩ [.content Client.bus]] else []) := by
    split <;> exact ⟨rfl, rfl, rfl⟩
  refine constructed.append ⟨?_, rfl, rfl⟩
  simp [Stmt.within, Stmt.returnOnError, Stmt.callsOf, Stmt.calls, methodCall_calls, Expr.calls, Expr.unequal]

theorem call_packs (plan : Plan) (method : TypedMethod) :
    Packs method.inArgs (Client.callDefinition plan method).body := by
  have called : observe Stmt.fills (calling method) = [] := by
    unfold calling
    split <;> rfl
  have reply : observe Stmt.fills (Client.readReply method) = [] := by
    unfold Client.readReply
    split
    · have moves := unpackAll_moves "returnArgs" method.outArgs false
      simp [Stmt.within, Stmt.fills, Stmt.filled?, receive, Expr.sendTo, moves.fills]
    · rfl
  rw [callDefinition_body]
  exact (opening_packs method.inArgs).around _ _ rfl (by rw [observe_append, called, reply]; rfl)

theorem call_calls (plan : Plan) (method : TypedMethod) :
    observe (Stmt.callsOf (.member "MethodCall")) (Client.callDefinition plan method).body =
      [Client.proxy :: .quoted method.interface :: .quoted method.name :: passed method.inArgs ::
        .number method.inArgs.length :: Client.callTail method] := by
  have made : observe (Stmt.callsOf (.member "MethodCall")) (calling method) =
      [Client.proxy :: .quoted method.interface :: .quoted method.name :: passed method.inArgs ::
        .number method.inArgs.length :: Client.callTail method] := by
    unfold calling
    split <;> simp [Stmt.within, Stmt.returnOnError, Stmt.callsOf, Stmt.calls, methodCall_calls, Expr.calls,
      Expr.callsAll, Client.bus]
  have reply : observe (Stmt.callsOf (.member "MethodCall")) (Client.readReply method) = [] := by
    unfold Client.readReply
    split
    · have quiet := (unpackAll_moves "returnArgs" method.outArgs false).calls (.member "MethodCall") (by decide)
      simp [Stmt.within, Stmt.callsOf, Stmt.calls, receive, Expr.calls, Expr.callsAll, countIs, quiet]
    · rfl
  have packing := (opening_moves method.inArgs).calls (.member "MethodCall") (by decide)
  rw [callDefinition_body]
  simp only [observe_append, made, reply, packing]
  rfl

/-- The service reads the inputs of a method, in the same places, if as many have come. -/
theorem handler_reads (plan : Plan) (method : TypedMethod) :
    Reads method.inArgs "msg" "args" true (Service.handlerDefinition plan method).body := by
  have locals : Ignores (method.outArgs.flatMap fun arg => (arg.slot.locals arg.name).map .declare) := by
    rw [← List.map_flatMap]
    exact .of_moves (.declare _)
  have served : Ignores (Service.serve method) := by
    refine ⟨?_, ?_, ?_⟩
    · unfold Service.serve
      split <;> simp [Stmt.within, Stmt.callsOf, Stmt.calls, TypedMethod.arguments, TypedArg.arguments_quiet,
        Expr.callsAll, Expr.calls]
    · unfold Service.serve
      split <;> rfl
    · unfold Service.serve
      split <;> rfl
  have refused : Ignores [.perform (.apply "MethodReply" [.name "msg", .name "ER_BUS_BAD_VALUE"])] := ⟨rfl, rfl, rfl⟩
  have ignored := locals.append served
  simp only [Service.handlerDefinition, List.append_assoc]
  -- Only a method that replies can refuse a wrong number of arguments.
  split
  · exact .choose "msg" "args" method.inArgs true ignored refused
  · exact .branch "msg" "args" method.inArgs true ignored

theorem reply_packs (plan : Plan) (method : TypedMethod) :
    Packs method.outArgs (Service.replyDefinition plan method).body := by
  simp only [Service.replyDefinition]
  split
  next empty =>
    rw [List.isEmpty_iff.mp empty]
    exact .nothing rfl
  next => exact (Packs.packAll method.outArgs).around [] [_] rfl rfl

theorem reply_calls (plan : Plan) (method : TypedMethod) :
    observe (Stmt.callsOf (.function "MethodReply")) (Service.replyDefinition plan method).body =
      [[.name "msg", if method.outArgs.isEmpty then .cast (.constPointer .message) .null else .name "args",
        .number method.outArgs.length]] := by
  simp only [Service.replyDefinition]
  split
  next empty => simp [Stmt.within, Stmt.callsOf, Stmt.calls, Expr.calls, Expr.callsAll, List.isEmpty_iff.mp empty]
  next =>
    have packing := (packAll_moves "args" method.outArgs).calls (.function "MethodReply") (by decide)
    simp [Stmt.within, Stmt.callsOf, Stmt.calls, Expr.calls, Expr.callsAll, packing]

private theorem call_opens (method : TypedMethod) :
    Ignores ([statusIs (.name "ER_OK")] ++ opening method.inArgs ++ calling method) :=
  (Ignores.append ⟨rfl, rfl, rfl⟩ (.of_moves (opening_moves method.inArgs))).append (calling_ignores method)

theorem call_reads (plan : Plan) (method : TypedMethod) (replied : method.expectsReply)
    (nonempty : method.outArgs ≠ []) :
    Reads method.outArgs "replyMsg" "returnArgs" false (Client.callDefinition plan method).body := by
  have reply : Client.readReply method = [.blank] ++ (receive "replyMsg" "returnArgs" ++
      [.choose (countIs method.outArgs.length) (unpackAll "returnArgs" method.outArgs false ++ [.ret (.name "status")])
        [.ret (.name "ER_BUS_BAD_VALUE")]]) ++ [] := by
    simp [Client.readReply, replied, nonempty]
  have returned : Ignores [.ret (.name "status")] := ⟨rfl, rfl, rfl⟩
  have refused : Ignores [.ret (.name "ER_BUS_BAD_VALUE")] := ⟨rfl, rfl, rfl⟩
  have read := Reads.choose "replyMsg" "returnArgs" method.outArgs false returned refused
  have gap : Ignores [.blank] := ⟨rfl, rfl, rfl⟩
  have ending : Ignores [] := ⟨rfl, rfl, rfl⟩
  have whole := read.around ((call_opens method).append gap) ending
  rw [callDefinition_body, reply]
  simpa using whole

/-- Where nothing comes back, it looks at no reply. -/
theorem call_ignores (plan : Plan) (method : TypedMethod) (nothing : ¬(method.expectsReply ∧ method.outArgs ≠ [])) :
    Ignores (Client.callDefinition plan method).body := by
  have reply : Client.readReply method = [.ret (.name "status")] := by
    unfold Client.readReply
    rw [if_neg]
    simpa using nothing
  have returned : Ignores [.ret (.name "status")] := ⟨rfl, rfl, rfl⟩
  rw [callDefinition_body, reply, ← List.append_assoc]
  exact (call_opens method).append returned

def emitting (signal : TypedSignal) : List Stmt :=
  [.define ⟨interfaceDescription, "iface"⟩ (lookUp "myBusAttachment" signal.interface), noSuchInterface,
   .define ⟨memberDescription, "member"⟩ (.sendTo (.name "iface") "GetMember" [.quoted signal.name]),
   .returnIfNull "member" "ER_BUS_INTERFACE_NO_SUCH_MEMBER"]

def emission (signal : TypedSignal) : Expr :=
  .apply "Signal" [.name "destination", .name "sessionId", .content (.name "member"), passed signal.args,
    .number signal.args.length, .number 0, .name (if signal.secure then "ALLJOYN_FLAG_ENCRYPTED" else "0")]

theorem sendDefinition_body (plan : Plan) (signal : TypedSignal) : (Service.sendDefinition plan signal).body =
    (emitting signal ++ if signal.args.isEmpty then [] else [.blank]) ++ opening signal.args ++
      [.ret (emission signal)] := by
  simp only [Service.sendDefinition, emitting, opening, emission, passed]
  split <;> simp

theorem send_packs (plan : Plan) (signal : TypedSignal) :
    Packs signal.args (Service.sendDefinition plan signal).body := by
  rw [sendDefinition_body]
  refine (opening_packs signal.args).around _ _ ?_ rfl
  split <;> rfl

theorem send_calls (plan : Plan) (signal : TypedSignal) :
    observe (Stmt.callsOf (.function "Signal")) (Service.sendDefinition plan signal).body =
      [[.name "destination", .name "sessionId", .content (.name "member"), passed signal.args,
        .number signal.args.length, .number 0, .name (if signal.secure then "ALLJOYN_FLAG_ENCRYPTED" else "0")]] := by
  have packing := (opening_moves signal.args).calls (.function "Signal") (by decide)
  have before : observe (Stmt.callsOf (.function "Signal"))
      (emitting signal ++ if signal.args.isEmpty then [] else [.blank]) = [] := by
    split <;> rfl
  rw [sendDefinition_body, observe_append, observe_append, packing, before]
  simp [Stmt.within, Stmt.callsOf, Stmt.calls, emission, Expr.calls, Expr.callsAll, passed_quiet]

private theorem handlerCall_ignores (signal : TypedSignal) : Ignores [Client.handlerCall signal] := by
  refine ⟨?_, rfl, rfl⟩
  simp [Client.handlerCall, Stmt.within, Stmt.callsOf, Stmt.calls, TypedSignal.arguments, TypedArg.arguments_quiet]

theorem wrapper_reads (plan : Plan) (signal : TypedSignal) (nonempty : signal.args ≠ []) :
    Reads signal.args "msg" "args" true (Client.wrapperDefinition plan signal).body := by
  simp only [Client.wrapperDefinition, List.isEmpty_iff, if_neg nonempty]
  exact .branch "msg" "args" signal.args true (handlerCall_ignores signal)

theorem wrapper_ignores (plan : Plan) (signal : TypedSignal) (empty : signal.args = []) :
    Ignores (Client.wrapperDefinition plan signal).body := by
  simp only [Client.wrapperDefinition, List.isEmpty_iff, if_pos empty]
  exact handlerCall_ignores signal

end BusStub
