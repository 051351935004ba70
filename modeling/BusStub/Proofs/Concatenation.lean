import BusStub.Proofs.Agreement
import BusStub.Proofs.SignatureErrors

/-! Signatures one after the other, as members are described to the bus. No signature is the beginning of another, so
there is one way to take such a text apart; the number of its types is the number of arguments that senders and
receivers count. -/

namespace BusStub
open Code Routine Describe

namespace BusType

/-- The types that come to their end one after the other, until a character cannot stand where it is. -/
def typesFrom (state : State) : List Char → List BusType
  | [] => []
  | c :: rest => match step state c with
    | .error _ => []
    | .ok (.done type) => type :: typesFrom (.reading []) rest
    | .ok next => typesFrom next rest

/-- The complete types that can be read off the front of a text. -/
def typesOf (text : String) : List BusType :=
  typesFrom (.reading []) text.toList

/-- The pieces are signatures, and the text begins with them. -/
def AtFront (pieces : List String) (text : String) : Prop :=
  (∀ piece ∈ pieces, ∃ type, parse piece = .ok type) ∧ ∃ rest, text = String.join pieces ++ rest

theorem typesFrom_append {frames : List Frame} {cs : List Char} {type : BusType}
    (run : cs.foldlM step (.reading frames) = .ok (.done type)) (rest : List Char) :
    typesFrom (.reading frames) (cs ++ rest) = type :: typesFrom (.reading []) rest := by
  induction cs generalizing frames with
  | nil => cases run
  | cons c cs ih =>
    rw [List.foldlM_cons] at run
    obtain ⟨next, stepped, run⟩ := bind_ok run
    rw [List.cons_append, typesFrom, stepped]
    cases next with
    | reading frames => exact ih run
    | done found => cases cs with
      | nil =>
        cases run
        rfl
      | cons c cs => cases run

theorem typesOf_append {types : List BusType} (read : ∀ type ∈ types, parse type.text = .ok type) (rest : String) :
    typesOf (String.join (types.map text) ++ rest) = types ++ typesOf rest := by
  induction types with
  | nil => simp
  | cons type others ih =>
    obtain ⟨parsed, read⟩ := List.forall_mem_cons.mp read
    rw [List.map_cons, String.join_cons, String.append_assoc, typesOf, String.toList_append,
      typesFrom_append (parse_ok_iff.mp parsed), List.cons_append, ← ih read, typesOf]

theorem typesOf_join {types : List BusType} (read : ∀ type ∈ types, parse type.text = .ok type) :
    typesOf (String.join (types.map text)) = types := by
  have whole := typesOf_append read ""
  have nothing : typesOf "" = [] := rfl
  rwa [String.append_empty, nothing, List.append_nil] at whole

theorem exists_types {texts : List String} (accepted : ∀ text ∈ texts, ∃ type, parse text = .ok type) :
    ∃ types : List BusType, texts = types.map text ∧ ∀ type ∈ types, parse type.text = .ok type := by
  induction texts with
  | nil => exact ⟨[], rfl, nofun⟩
  | cons first rest ih =>
    obtain ⟨⟨type, parsed⟩, others⟩ := List.forall_mem_cons.mp accepted
    obtain ⟨types, rfl, read⟩ := ih others
    obtain rfl := text_of_parse parsed
    exact ⟨type :: types, rfl, List.forall_mem_cons.mpr ⟨parsed, read⟩⟩

theorem join_inj {texts others : List String} (accepted : ∀ text ∈ texts, ∃ type, parse text = .ok type)
    (accepted' : ∀ text ∈ others, ∃ type, parse text = .ok type) (same : String.join texts = String.join others) :
    texts = others := by
  obtain ⟨types, rfl, read⟩ := exists_types accepted
  obtain ⟨types', rfl, read'⟩ := exists_types accepted'
  rw [← typesOf_join read, same, typesOf_join read']

theorem typesOf_length {texts : List String} (accepted : ∀ text ∈ texts, ∃ type, parse text = .ok type) :
    (typesOf (String.join texts)).length = texts.length := by
  obtain ⟨types, rfl, read⟩ := exists_types accepted
  rw [typesOf_join read, List.length_map]

/-- A concatenation begins with the signatures it is made of, in their order, and with no others. -/
theorem atFront_iff {texts pieces : List String} (accepted : ∀ text ∈ texts, ∃ type, parse text = .ok type) :
    AtFront pieces (String.join texts) ↔ pieces <+: texts := by
  constructor
  · rintro ⟨signatures, rest, parts⟩
    obtain ⟨types, rfl, read⟩ := exists_types accepted
    obtain ⟨found, rfl, pieceRead⟩ := exists_types signatures
    have split : types = found ++ typesOf rest := by
      rw [← typesOf_join read, parts, typesOf_append pieceRead]
    rw [split, List.map_append]
    exact List.prefix_append ..
  · rintro ⟨others, rfl⟩
    exact ⟨fun piece member => accepted piece (List.mem_append_left _ member), String.join others, String.join_append⟩

end BusType

/-- What a method is described with, and the number of arguments that each function for it sends or expects. -/
structure TypedMethod.Counts (plan : Plan) (method : TypedMethod) (inputs outputs : String) : Prop where
  described : ∃ names flag, (some method.interface, [.name "iface", .quoted method.name, quotedOrNull inputs,
    quotedOrNull outputs, names, flag]) ∈ routed (.member "AddMethod") (Describe.function plan.node).body
  calls : ∃ args, observe (Stmt.callsOf (.member "MethodCall")) (Client.callDefinition plan method).body =
    [.name "proxyBusObj" :: .quoted method.interface :: .quoted method.name :: args ::
      .number (BusType.typesOf inputs).length :: Client.callTail method]
  serves : (observe Stmt.guards (Service.handlerDefinition plan method).body).map Prod.fst =
    [(BusType.typesOf inputs).length]
  replies : ∃ args, observe (Stmt.callsOf (.function "MethodReply")) (Service.replyDefinition plan method).body =
    [[.name "msg", args, .number (BusType.typesOf outputs).length]]
  returns : (observe Stmt.guards (Client.callDefinition plan method).body).map Prod.fst =
    if method.expectsReply ∧ 0 < (BusType.typesOf outputs).length then [(BusType.typesOf outputs).length] else []

/-- The same for a signal. -/
structure TypedSignal.Counts (plan : Plan) (signal : TypedSignal) (signature : String) : Prop where
  described : ∃ names flag, (some signal.interface, [.name "iface", .quoted signal.name, quotedOrNull signature,
    names, flag]) ∈ routed (.member "AddSignal") (Describe.function plan.node).body
  sends : ∃ args flag, observe (Stmt.callsOf (.function "Signal")) (Service.sendDefinition plan signal).body =
    [[.name "destination", .name "sessionId", .content (.name "member"), args,
      .number (BusType.typesOf signature).length, .number 0, flag]]
  receives : (observe Stmt.guards (Client.wrapperDefinition plan signal).body).map Prod.fst =
    if 0 < (BusType.typesOf signature).length then [(BusType.typesOf signature).length] else []

theorem typesOf_signatureOf {args : List TypedArg} (read : ∀ arg ∈ args, BusType.parse arg.type.text = .ok arg.type) :
    (BusType.typesOf (signatureOf args)).length = args.length := by
  have texts : args.map (·.type.text) = (args.map TypedArg.type).map BusType.text := by simp
  rw [signatureOf, texts, BusType.typesOf_join (by simpa using read), List.length_map]

theorem TypedArg.Of.reads {declared : List Arg} {args : List TypedArg}
    (related : List.Forall₂ TypedArg.Of declared args) :
    ∀ arg ∈ args, BusType.parse arg.type.text = .ok arg.type := by
  intro arg member
  obtain ⟨source, -, typed⟩ := exists_of_forall₂ related member
  rw [BusType.text_of_parse typed.type]
  exact typed.type

section
variable {node : ObjectNode} {options : StubOptions} {plan : Plan}

theorem TypedMethod.counts {method : TypedMethod} (planned : node.plan options = .ok plan)
    (member : method ∈ plan.methods) : method.Counts plan method.method.inSignature method.method.outSignature := by
  obtain ⟨registry, -, made⟩ := ObjectNode.plan_spec planned
  have lists := Plan.make_lists made
  obtain rfl := lists.registry
  obtain ⟨declared, -, typed⟩ := exists_of_forall₂ lists.methods member
  have agrees : method.Agrees plan := TypedMethod.agrees member
  have read := TypedArg.Of.reads typed.args
  have inputs : (BusType.typesOf (signatureOf method.inArgs)).length = method.inArgs.length :=
    typesOf_signatureOf fun arg inside => read arg (List.mem_filter.mp inside).1
  have outputs : (BusType.typesOf (signatureOf method.outArgs)).length = method.outArgs.length :=
    typesOf_signatureOf fun arg inside => read arg (List.mem_filter.mp inside).1
  rw [typed.method, typed.inSignature, typed.outSignature]
  refine ⟨?_, ?_, ?_, ?_, ?_⟩
  · rw [(Plan.described lists).methods]
    exact ⟨_, _, List.mem_map_of_mem member⟩
  · rw [inputs]
    exact ⟨_, agrees.calls⟩
  · obtain ⟨body, guards, -⟩ := agrees.serves.guarded
    rw [guards, inputs]
    rfl
  · rw [outputs]
    exact ⟨_, reply_calls plan method⟩
  · rw [outputs]
    split
    next returned =>
      obtain ⟨body, guards, -⟩ := (agrees.returns returned.1 (List.ne_nil_of_length_pos returned.2)).guarded
      rw [guards]
      rfl
    next nothing =>
      have ignores := agrees.ignores fun ⟨replied, returned⟩ =>
        nothing ⟨replied, List.length_pos_iff.mpr returned⟩
      rw [ignores.guards]
      rfl

theorem TypedSignal.counts {signal : TypedSignal} (planned : node.plan options = .ok plan)
    (member : signal ∈ plan.signals) : signal.Counts plan signal.signal.signature := by
  obtain ⟨registry, -, made⟩ := ObjectNode.plan_spec planned
  have lists := Plan.make_lists made
  obtain rfl := lists.registry
  obtain ⟨declared, -, typed⟩ := exists_of_forall₂ lists.signals member
  have agrees : signal.Agrees plan := TypedSignal.agrees member
  have count : (BusType.typesOf (signatureOf signal.args)).length = signal.args.length :=
    typesOf_signatureOf (TypedArg.Of.reads typed.args)
  rw [typed.signal, typed.signature]
  refine ⟨?_, ?_, ?_⟩
  · rw [(Plan.described lists).signals]
    exact ⟨_, _, List.mem_map_of_mem member⟩
  · rw [count]
    exact ⟨_, _, agrees.sends⟩
  · rw [count]
    split
    next received =>
      obtain ⟨body, guards, -⟩ := (agrees.receives (List.ne_nil_of_length_pos received)).guarded
      rw [guards]
      rfl
    next nothing =>
      have empty : signal.args = [] := by simpa using nothing
      rw [(agrees.ignores empty).guards]
      rfl

end

/-- Lists of arguments whose signatures make the same text have the same signature at every position. Nothing but the
arguments' own signatures can be read off the front of the text, and all of them can; as many arguments are what
every function for a method or signal sends or expects, with that text in the description. -/
theorem concatenation_decodes (first second : List Arg)
    (accepted : ∀ arg ∈ first, ∃ type, BusType.parse arg.signature = .ok type)
    (accepted' : ∀ arg ∈ second, ∃ type, BusType.parse arg.signature = .ok type) :
    (String.join (first.map Arg.signature) = String.join (second.map Arg.signature) →
      first.length = second.length ∧ List.Forall₂ (fun arg other => arg.signature = other.signature ∧
        ∃ type, BusType.parse arg.signature = .ok type ∧ BusType.parse other.signature = .ok type) first second) ∧
    (BusType.typesOf (String.join (first.map Arg.signature))).length = first.length ∧
    (∀ pieces, BusType.AtFront pieces (String.join (first.map Arg.signature)) ↔
      pieces <+: first.map Arg.signature) ∧
    ∀ (node : ObjectNode) (options : StubOptions) (files : List OutputFile), node.emit options = .ok files →
      ∃ plan, node.plan options = .ok plan ∧ files = (plan.files options.service).map StubFile.print ∧
        (∀ method ∈ plan.methods, method.Counts plan method.method.inSignature method.method.outSignature) ∧
        ∀ signal ∈ plan.signals, signal.Counts plan signal.signal.signature := by
  have read : ∀ text ∈ first.map Arg.signature, ∃ type, BusType.parse text = .ok type := by simpa using accepted
  have read' : ∀ text ∈ second.map Arg.signature, ∃ type, BusType.parse text = .ok type := by simpa using accepted'
  refine ⟨fun same => ?_, ?_, fun pieces => BusType.atFront_iff read, fun node options files emitted => ?_⟩
  · have signatures := BusType.join_inj read read' same
    have related : List.Forall₂ (fun arg other : Arg => arg.signature = other.signature) first second := by
      rwa [← List.forall₂_eq_eq_eq, List.forall₂_map_left_iff, List.forall₂_map_right_iff] at signatures
    refine ⟨related.length_eq, List.Forall₂.imp ?_ ((List.forall₂_and_left first second).mpr ⟨accepted, related⟩)⟩
    rintro arg other ⟨⟨type, parsed⟩, same⟩
    exact ⟨same, type, parsed, same ▸ parsed⟩
  · rw [BusType.typesOf_length read, List.length_map]
  · obtain ⟨plan, planned, printed⟩ := ObjectNode.emit_spec emitted
    exact ⟨plan, planned, printed, fun method member => TypedMethod.counts planned member,
      fun signal member => TypedSignal.counts planned member⟩

/-- Two structs and a dictionary under different names, and an object with two interfaces. -/
theorem concatenation_decodes_door :
    let first : List Arg := [⟨"from", "(ii)", .input, none⟩, ⟨"to", "(ii)", .input, none⟩, ⟨"by", "a{sas}", .input, none⟩]
    let second : List Arg := [⟨"x", "(ii)", .input, none⟩, ⟨"y", "(ii)", .input, none⟩, ⟨"z", "a{sas}", .input, none⟩]
    (∀ arg ∈ first, ∃ type, BusType.parse arg.signature = .ok type) ∧
      (∀ arg ∈ second, ∃ type, BusType.parse arg.signature = .ok type) ∧
      String.join (first.map Arg.signature) = "(ii)(ii)a{sas}" ∧
      String.join (first.map Arg.signature) = String.join (second.map Arg.signature) ∧
      List.Forall₂ (fun arg other => arg.signature = other.signature ∧
        ∃ type, BusType.parse arg.signature = .ok type ∧ BusType.parse other.signature = .ok type) first second ∧
      (BusType.typesOf "(ii)(ii)a{sas}").length = 3 ∧
      ∃ files plan, door.emit {} = .ok files ∧ door.plan {} = .ok plan ∧
        (∀ method ∈ plan.methods, method.Counts plan method.method.inSignature method.method.outSignature) ∧
        ∀ signal ∈ plan.signals, signal.Counts plan signal.signal.signature := by
  intro first second
  have accepted : ∀ arg ∈ first, ∃ type, BusType.parse arg.signature = .ok type := by
    simp only [first, List.forall_mem_cons]
    exact ⟨⟨_, rfl⟩, ⟨_, rfl⟩, ⟨_, rfl⟩, nofun⟩
  have accepted' : ∀ arg ∈ second, ∃ type, BusType.parse arg.signature = .ok type := by
    simp only [second, List.forall_mem_cons]
    exact ⟨⟨_, rfl⟩, ⟨_, rfl⟩, ⟨_, rfl⟩, nofun⟩
  obtain ⟨files, emitted⟩ : ∃ files, door.emit {} = .ok files := ⟨_, rfl⟩
  obtain ⟨decodes, count, -, counted⟩ := concatenation_decodes first second accepted accepted'
  obtain ⟨plan, planned, -, counts⟩ := counted door {} files emitted
  exact ⟨accepted, accepted', rfl, rfl, (decodes rfl).2, count, files, plan, emitted, planned, counts⟩

end BusStub
