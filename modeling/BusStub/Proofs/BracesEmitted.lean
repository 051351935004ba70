import BusStub.Proofs.BracesMoved
import BusStub.Stub.Files

/-! Braces in the code of one object. Emitters open none themselves: what closes the braces that it opens in the
names and signatures of an object does so in all functions that are made of them. -/

namespace BusStub
open Text Code Routine

structure Arg.Neat (arg : Arg) : Prop where
  name : Level arg.name
  signature : Level arg.signature

structure Method.Neat (method : Method) : Prop where
  name : Level method.name
  args : ∀ arg ∈ method.args, arg.Neat

structure Signal.Neat (signal : Signal) : Prop where
  name : Level signal.name
  args : ∀ arg ∈ signal.args, arg.Neat

structure Property.Neat (property : Property) : Prop where
  name : Level property.name
  signature : Level property.signature

structure Interface.Neat (interface : Interface) : Prop where
  name : Level interface.name
  methods : ∀ method ∈ interface.methods, method.Neat
  signals : ∀ signal ∈ interface.signals, signal.Neat
  properties : ∀ property ∈ interface.properties, property.Neat

structure TypedMethod.Neat (method : TypedMethod) : Prop where
  name : Level method.name
  interface : Level method.interface
  args : ∀ arg ∈ method.args, Level arg.name

structure TypedSignal.Neat (signal : TypedSignal) : Prop where
  name : Level signal.name
  interface : Level signal.interface
  args : ∀ arg ∈ signal.args, Level arg.name

structure TypedProperty.Neat (property : TypedProperty) : Prop where
  name : Level property.name
  interface : Level property.interface
  signature : Level property.property.signature

structure Composite.Neat (entry : Composite) : Prop where
  argName : Level entry.argName
  signature : Level entry.signature
  typeName : Level entry.typeName

/-- All texts that emitters take from a plan close the braces that they open. -/
structure Plan.Neat (plan : Plan) : Prop where
  name : Level plan.name
  path : Level plan.node.path
  busName : ∀ name ∈ plan.busName, Level name
  parts : ∀ part ∈ plan.node.interface.concrete, part.Neat
  entries : ∀ entry ∈ plan.registry.declarations, entry.Neat
  methods : ∀ method ∈ plan.methods, method.Neat
  signals : ∀ signal ∈ plan.signals, signal.Neat
  properties : ∀ property ∈ plan.properties, property.Neat

namespace Plan.Neat

variable {plan : Plan}

theorem clientClass (neat : plan.Neat) : Level plan.clientClass :=
  neat.name.append (.literal rfl)

theorem serviceClass (neat : plan.Neat) : Level plan.serviceClass :=
  neat.name.append (.literal rfl)

theorem typesHeader (neat : plan.Neat) : Level plan.typesHeader :=
  neat.name.append (.literal rfl)

theorem macroName (neat : plan.Neat) : Level plan.macroName :=
  level_upper neat.name

theorem pathConstant (neat : plan.Neat) : Level plan.pathConstant :=
  neat.macroName.append (.literal rfl)

theorem busNameConstant (neat : plan.Neat) : Level plan.busNameConstant :=
  neat.macroName.append (.literal rfl)

theorem functionName (neat : plan.Neat) : Level (Describe.functionName plan.node) :=
  .append₃ (.literal rfl) neat.name (.literal rfl)

end Plan.Neat

namespace Code

@[simp] theorem Expr.null_neat : Expr.null.Neat :=
  (.literal rfl : Level "NULL")

@[simp] theorem Expr.equal_neat {left right : Expr} : (Expr.equal left right).Neat ↔ left.Neat ∧ right.Neat :=
  Iff.rfl

@[simp] theorem Expr.unequal_neat {left right : Expr} : (Expr.unequal left right).Neat ↔ left.Neat ∧ right.Neat :=
  Iff.rfl

@[simp] theorem Expr.isNull_neat {pointer : Expr} : pointer.isNull.Neat ↔ pointer.Neat := by
  simp [Expr.isNull]

@[simp] theorem Stmt.returnOnError_neat {status : String} : (Stmt.returnOnError status).Neat ↔ Level status := by
  simp +decide [Stmt.returnOnError, Stmt.Neat, Expr.Neat]

@[simp] theorem Stmt.returnIfNull_neat {pointer error : String} :
    (Stmt.returnIfNull pointer error).Neat ↔ Level pointer ∧ Level error := by
  simp [Stmt.returnIfNull, Stmt.Neat, Expr.Neat]

/-- A member function of a class. -/
theorem Definition.Neat.owned {prototype : Prototype} (signed : prototype.Neat) {owner : String} (named : Level owner)
    {body : List Stmt} (inner : ∀ stmt ∈ body, stmt.Neat) : Definition.Neat { prototype, owner, body } where
  prototype := signed
  owner := by simpa using named
  initializers := List.forall_mem_nil _
  body := Stmt.allNeat_iff.mpr inner

@[simp] theorem TypeName.plain_neat {text : String} : (TypeName.plain text).Neat ↔ Level text :=
  Iff.rfl

@[simp] theorem CType.plain_neat {text : String} : (CType.plain text).Neat ↔ Level text :=
  Iff.rfl

@[simp] theorem CType.pointer_neat {name : TypeName} : (CType.pointer name).Neat ↔ name.Neat :=
  Iff.rfl

@[simp] theorem CType.constPointer_neat {name : TypeName} : (CType.constPointer name).Neat ↔ name.Neat :=
  Iff.rfl

end Code

namespace Routine

@[simp] theorem noSuchInterface_neat : noSuchInterface.Neat := by
  simp +decide [noSuchInterface]

@[simp] theorem lookUp_neat {through interface : String} :
    (lookUp through interface).Neat ↔ Level through ∧ Level interface := by
  simp +decide [lookUp, Expr.Neat]

@[simp] theorem statusIs_neat {value : Expr} : (statusIs value).Neat ↔ value.Neat := by
  simp +decide [statusIs, Stmt.Neat, Variable.neat_iff]

@[simp] theorem statusFunction_neat {name : String} {params : List Param} :
    (statusFunction name params).Neat ↔ Level name ∧ ∀ param ∈ params, param.Neat := by
  simp +decide [statusFunction, Prototype.neat_iff]

@[simp] theorem procedure_neat {name : String} {params : List Param} :
    (procedure name params).Neat ↔ Level name ∧ ∀ param ∈ params, param.Neat := by
  simp +decide [procedure, Prototype.neat_iff]

@[simp] theorem textParam_neat {name : String} : (textParam name).Neat ↔ Level name := by
  simp [textParam, Param.neat_iff]

@[simp] theorem busParam_neat : busParam.Neat := by
  simp +decide [busParam, Param.neat_iff]

@[simp] theorem messageParam_neat : messageParam.Neat := by
  simp +decide [messageParam, Param.neat_iff]

@[simp] theorem interfaceDescription_neat : interfaceDescription.Neat :=
  (.literal rfl : Level "InterfaceDescription")

@[simp] theorem memberDescription_neat : memberDescription.Neat :=
  (.literal rfl : Level "InterfaceDescription::Member")

@[simp] theorem memberParam_neat : memberParam.Neat := by
  simp +decide [memberParam, Param.neat_iff]

@[simp] theorem countIs_neat (expected : Nat) : (countIs expected).Neat := by
  simp +decide [countIs, Expr.Neat]

theorem receive_neat {message array : String} (origin : Level message) (into : Level array) :
    ∀ stmt ∈ receive message array, stmt.Neat := by
  simp +decide [receive, Stmt.Neat, Variable.neat_iff, Expr.Neat, origin, into]

variable {array : String} {args : List TypedArg}

theorem packAll_neat (into : Level array) (named : ∀ arg ∈ args, Level arg.name) :
    ∀ stmt ∈ packAll array args, stmt.Neat := by
  refine List.forall_mem_flatMap.mpr fun (arg, index) member => ?_
  have target : (slotAt array index).Neat := into
  have source : (Place.root arg.name).Neat := named arg (List.fst_mem_of_mem_zipIdx member)
  exact Slot.set_neat (Slot.neat_of arg.type) target source 0

theorem unpackAll_neat (origin : Level array) (named : ∀ arg ∈ args, Level arg.name) (declared : Bool) :
    ∀ stmt ∈ unpackAll array args declared, stmt.Neat := by
  refine List.forall_mem_flatMap.mpr fun (arg, index) member => ?_
  have source : (slotAt array index).Neat := origin
  exact Slot.get_neat (Slot.neat_of arg.type) source (named arg (List.fst_mem_of_mem_zipIdx member)) declared 0

end Routine

theorem TypedArg.params_neat {args : List TypedArg} (named : ∀ arg ∈ args, Level arg.name)
    (direction : TypedArg → Direction) : ∀ param ∈ args.flatMap fun arg => arg.params (direction arg), param.Neat :=
  List.forall_mem_flatMap.mpr fun arg member => arg.slot.params_neat (named arg member) (direction arg)

theorem TypedArg.arguments_neat {args : List TypedArg} (named : ∀ arg ∈ args, Level arg.name) :
    ∀ expr ∈ args.flatMap TypedArg.arguments, expr.Neat :=
  List.forall_mem_flatMap.mpr fun arg member => arg.slot.arguments_neat (named arg member)

namespace TypedMethod.Neat

variable {method : TypedMethod}

theorem inArgs (neat : method.Neat) : ∀ arg ∈ method.inArgs, Level arg.name :=
  fun arg member => neat.args arg (List.mem_of_mem_filter member)

theorem outArgs (neat : method.Neat) : ∀ arg ∈ method.outArgs, Level arg.name :=
  fun arg member => neat.args arg (List.mem_of_mem_filter member)

end TypedMethod.Neat

namespace Client

variable {plan : Plan} {method : TypedMethod} {signal : TypedSignal} {property : TypedProperty}

@[simp] theorem proxy_neat : proxy.Neat :=
  (.literal rfl : Level "proxyBusObj")

@[simp] theorem bus_neat : bus.Neat :=
  (.literal rfl : Level "myBusAttachment")

theorem constructorPrototype_neat (neat : plan.Neat) : (constructorPrototype plan).Neat := by
  simp +decide [constructorPrototype, Prototype.neat_iff, neat.clientClass]

theorem destructorPrototype_neat (neat : plan.Neat) : (destructorPrototype plan).Neat := by
  have named : Level ("~" ++ plan.clientClass) := .append (.literal rfl) neat.clientClass
  simp [destructorPrototype, Prototype.neat_iff, named]

theorem findName_neat : findName.Neat := by
  simp +decide [findName]

theorem setUpProxy_neat : setUpProxy.Neat := by
  simp +decide [setUpProxy, Param.neat_iff]

theorem call_neat (neat : method.Neat) : (call method).Neat :=
  statusFunction_neat.mpr ⟨neat.name, TypedArg.params_neat neat.args _⟩

theorem register_neat (neat : signal.Neat) : (register signal).Neat :=
  statusFunction_neat.mpr ⟨Level.append₃ (.literal rfl) neat.name (.literal rfl), List.forall_mem_nil _⟩

theorem wrapper_neat (neat : signal.Neat) : (wrapper signal).Neat := by
  have named : Level (signal.name ++ "Wrapper") := neat.name.append (.literal rfl)
  simp +decide [wrapper, named]

theorem handler_neat (neat : signal.Neat) : (handler signal).Neat :=
  procedure_neat.mpr ⟨neat.name.append (.literal rfl), TypedArg.params_neat neat.args _⟩

theorem getter_neat (neat : property.Neat) : (getter property).Neat :=
  statusFunction_neat.mpr ⟨.append (.literal rfl) (level_capitalize neat.name), property.slot.params_neat neat.name _⟩

theorem setter_neat (neat : property.Neat) : (setter property).Neat :=
  statusFunction_neat.mpr ⟨.append (.literal rfl) (level_capitalize neat.name), property.slot.params_neat neat.name _⟩

theorem constructorDefinition_neat (neat : plan.Neat) : (constructorDefinition plan).Neat where
  prototype := constructorPrototype_neat neat
  owner := by simp [constructorDefinition, neat.clientClass]
  initializers := by simp +decide [constructorDefinition]
  body := trivial

theorem destructorDefinition_neat (neat : plan.Neat) : (destructorDefinition plan).Neat :=
  .owned (destructorPrototype_neat neat) neat.clientClass (by simp [Stmt.Neat])

theorem findNameDefinition_neat (neat : plan.Neat) : (findNameDefinition plan).Neat :=
  .owned findName_neat neat.clientClass (by simp +decide [Stmt.Neat, Expr.Neat, neat.busNameConstant])

theorem attach_neat {part : Interface} (neat : part.Neat) : ∀ stmt ∈ attach part, stmt.Neat := by
  simp +decide [attach, Stmt.Neat, Expr.Neat, neat.name]

theorem setUpProxyDefinition_neat (neat : plan.Neat) : (setUpProxyDefinition plan).Neat := by
  have attached : ∀ stmt ∈ plan.node.interface.concrete.flatMap attach, stmt.Neat :=
    List.forall_mem_flatMap.mpr fun part member => attach_neat (neat.parts part member)
  refine .owned setUpProxy_neat neat.clientClass
    (List.forall_mem_append.mpr ⟨List.forall_mem_append.mpr ⟨?_, attached⟩, ?_⟩)
  · simp +decide [Stmt.Neat, Expr.Neat, Variable.neat_iff, neat.functionName]
  · simp +decide [Stmt.Neat, Expr.Neat]

theorem callTail_neat (method : TypedMethod) : ∀ expr ∈ callTail method, expr.Neat := by
  unfold callTail
  split <;> split <;> simp +decide [Expr.Neat]

theorem methodCall_neat (neat : method.Neat) : (methodCall method).Neat := by
  have tail := callTail_neat method
  unfold methodCall
  split <;> simpa +decide [Expr.Neat, neat.name, neat.interface] using tail

theorem readReply_neat (neat : method.Neat) : ∀ stmt ∈ readReply method, stmt.Neat := by
  have received := receive_neat (.literal rfl : Level "replyMsg") (.literal rfl : Level "returnArgs")
  have read := unpackAll_neat (.literal rfl : Level "returnArgs") neat.outArgs false
  have left : ∀ stmt ∈ [Stmt.ret (.name "status")], stmt.Neat := by simp +decide [Stmt.Neat, Expr.Neat]
  have refused : ∀ stmt ∈ [Stmt.ret (.name "ER_BUS_BAD_VALUE")], stmt.Neat := by simp +decide [Stmt.Neat, Expr.Neat]
  have served : Stmt.Neat (.choose (countIs method.outArgs.length)
      (unpackAll "returnArgs" method.outArgs false ++ [.ret (.name "status")]) [.ret (.name "ER_BUS_BAD_VALUE")]) :=
    ⟨countIs_neat _, Stmt.allNeat_iff.mpr (List.forall_mem_append.mpr ⟨read, left⟩), Stmt.allNeat_iff.mpr refused⟩
  unfold readReply
  split
  · exact List.forall_mem_cons.mpr
      ⟨trivial, List.forall_mem_append.mpr ⟨received, List.forall_mem_singleton.mpr served⟩⟩
  · exact left

theorem callDefinition_neat (neat : plan.Neat) (one : method.Neat) : (callDefinition plan method).Neat := by
  have packed := packAll_neat (.literal rfl : Level "args") one.inArgs
  have called := methodCall_neat one
  refine .owned (call_neat one) neat.clientClass (List.forall_mem_append.mpr ⟨List.forall_mem_append.mpr
    ⟨List.forall_mem_append.mpr ⟨List.forall_mem_cons.mpr ⟨?started, ?packing⟩, ?reply⟩, ?sent⟩, readReply_neat one⟩)
  case started => simp +decide [Expr.Neat]
  case packing =>
    split
    · exact List.forall_mem_nil _
    · exact List.forall_mem_cons.mpr ⟨⟨TypeName.message_neat, .literal rfl⟩, packed⟩
  case reply =>
    split
    · simp +decide [Stmt.Neat, Expr.Neat, Variable.neat_iff]
    · exact List.forall_mem_nil _
  case sent => simp +decide [Stmt.Neat, Expr.Neat, called]

theorem registerDefinition_neat (neat : plan.Neat) (one : signal.Neat) : (registerDefinition plan signal).Neat := by
  have function : Level (plan.clientClass ++ "::" ++ signal.name ++ "Wrapper") :=
    .append (.append₃ neat.clientClass (.literal rfl) one.name) (.literal rfl)
  have rule : Level (matchRule signal) :=
    .append₃ (.append₃ (.literal rfl) one.interface (.literal rfl)) one.name (.literal rfl)
  refine .owned (register_neat one) neat.clientClass ?_
  simp +decide [Stmt.Neat, Expr.Neat, Variable.neat_iff, one.name, one.interface, function, rule]

theorem handlerCall_neat (one : signal.Neat) : (handlerCall signal).Neat :=
  Expr.apply_neat.mpr ⟨(handler_neat one).name, TypedArg.arguments_neat one.args⟩

theorem wrapperDefinition_neat (neat : plan.Neat) (one : signal.Neat) : (wrapperDefinition plan signal).Neat := by
  have handled := List.forall_mem_singleton.mpr (handlerCall_neat one)
  have received := receive_neat (.literal rfl : Level "msg") (.literal rfl : Level "args")
  have read := unpackAll_neat (.literal rfl : Level "args") one.args true
  have served : Stmt.Neat (.branch (countIs signal.args.length)
      (unpackAll "args" signal.args true ++ [handlerCall signal])) :=
    ⟨countIs_neat _, Stmt.allNeat_iff.mpr (List.forall_mem_append.mpr ⟨read, handled⟩)⟩
  refine .owned (wrapper_neat one) neat.clientClass ?_
  split
  · exact handled
  · exact List.forall_mem_append.mpr ⟨received, List.forall_mem_singleton.mpr served⟩

theorem getterDefinition_neat (neat : plan.Neat) (one : property.Neat) : (getterDefinition plan property).Neat := by
  have value : (Place.root "propValue").Neat := (.literal rfl : Level "propValue")
  have read := Slot.get_neat (Slot.neat_of property.type) value one.name false 0
  refine .owned (getter_neat one) neat.clientClass
    (List.forall_mem_append.mpr ⟨List.forall_mem_append.mpr ⟨?_, read⟩, ?_⟩)
  · simp +decide [Stmt.Neat, Expr.Neat, Variable.neat_iff, one.name, one.interface]
  · simp +decide [Stmt.Neat, Expr.Neat]

theorem setterDefinition_neat (neat : plan.Neat) (one : property.Neat) : (setterDefinition plan property).Neat := by
  have value : (Place.root "propValue").Neat := (.literal rfl : Level "propValue")
  have source : (Place.root property.name).Neat := one.name
  have written := Slot.set_neat (Slot.neat_of property.type) value source 0
  refine .owned (setter_neat one) neat.clientClass
    (List.forall_mem_append.mpr ⟨List.forall_mem_cons.mpr ⟨?_, written⟩, ?_⟩)
  · simp +decide [Stmt.Neat, Variable.neat_iff]
  · simp +decide [Stmt.Neat, Expr.Neat, one.name, one.interface]

theorem handlerDefinition_neat (neat : plan.Neat) (one : signal.Neat) : (handlerDefinition plan signal).Neat :=
  .owned (handler_neat one) neat.clientClass (by simp +decide [Stmt.Neat])

end Client

namespace Service

variable {plan : Plan} {method : TypedMethod} {signal : TypedSignal} {property : TypedProperty}

theorem constructorPrototype_neat (neat : plan.Neat) : (constructorPrototype plan).Neat := by
  simp +decide [constructorPrototype, Prototype.neat_iff, neat.serviceClass]

theorem destructorPrototype_neat (neat : plan.Neat) : (destructorPrototype plan).Neat := by
  have named : Level ("~" ++ plan.serviceClass) := .append (.literal rfl) neat.serviceClass
  simp [destructorPrototype, Prototype.neat_iff, named]

theorem start_neat : start.Neat := by
  simp +decide [start]

theorem send_neat (one : signal.Neat) (defaults : Bool) : (send signal defaults).Neat := by
  have destination : ∀ param ∈ destinationParams defaults, param.Neat := by
    cases defaults <;> simp +decide [destinationParams, textParam, Param.neat_iff]
  exact statusFunction_neat.mpr ⟨.append (.literal rfl) one.name,
    List.forall_mem_append.mpr ⟨TypedArg.params_neat one.args _, destination⟩⟩

theorem propertyParams_neat : ∀ param ∈ propertyParams, param.Neat := by
  simp +decide [propertyParams, textParam, Param.neat_iff]

theorem getProperty_neat : getProperty.Neat :=
  statusFunction_neat.mpr ⟨.literal rfl, propertyParams_neat⟩

theorem setProperty_neat : setProperty.Neat :=
  statusFunction_neat.mpr ⟨.literal rfl, propertyParams_neat⟩

theorem handler_neat (one : method.Neat) : (handler method).Neat := by
  have named : Level (method.name ++ "Handler") := one.name.append (.literal rfl)
  simp [handler, named]

theorem reply_neat (one : method.Neat) : (reply method).Neat :=
  statusFunction_neat.mpr ⟨one.name.append (.literal rfl),
    List.forall_mem_cons.mpr ⟨messageParam_neat, TypedArg.params_neat one.outArgs _⟩⟩

theorem implementation_neat (one : method.Neat) : (implementation method).Neat :=
  procedure_neat.mpr ⟨one.name, TypedArg.params_neat one.args _⟩

theorem storage_neat (neat : plan.Neat) : ∀ v ∈ storage plan, v.Neat :=
  List.forall_mem_flatMap.mpr fun property member => property.slot.locals_neat (neat.properties property member).name

theorem countedProperties_neat (neat : plan.Neat) : ∀ property ∈ countedProperties plan, property.Neat :=
  fun property member => neat.properties property (List.mem_of_mem_filter member)

theorem constructorDefinition_neat (neat : plan.Neat) : (constructorDefinition plan).Neat where
  prototype := constructorPrototype_neat neat
  owner := by simp [constructorDefinition, neat.serviceClass]
  initializers := by
    refine List.forall_mem_append.mpr ⟨by simp +decide, List.forall_mem_flatMap.mpr fun property member => ?_⟩
    have named : Level property.name := (countedProperties_neat neat property member).name
    simp +decide [named, level_countName named]
  body := trivial

theorem destructorDefinition_neat (neat : plan.Neat) : (destructorDefinition plan).Neat := by
  have deleted : ∀ stmt ∈ (countedProperties plan).map fun p => Stmt.deleteArray (.name p.name), stmt.Neat :=
    List.forall_mem_map.mpr fun property member => (countedProperties_neat neat property member).name
  exact .owned (destructorPrototype_neat neat) neat.serviceClass deleted

theorem installHandler_neat (neat : plan.Neat) (one : method.Neat) :
    ∀ stmt ∈ installHandler plan method, stmt.Neat := by
  have function : Level (plan.serviceClass ++ "::" ++ method.name ++ "Handler") :=
    .append (.append₃ neat.serviceClass (.literal rfl) one.name) (.literal rfl)
  simp +decide [installHandler, Stmt.Neat, Expr.Neat, one.name, function]

theorem attach_neat (neat : plan.Neat) {part : Interface} (named : part.Neat) :
    ∀ stmt ∈ attach plan part, stmt.Neat := by
  have installed : ∀ stmt ∈ (plan.methods.filter (·.interface = part.name)).flatMap (installHandler plan), stmt.Neat :=
    List.forall_mem_flatMap.mpr fun method member =>
      installHandler_neat neat (neat.methods method (List.mem_of_mem_filter member))
  refine List.forall_mem_append.mpr ⟨?_, installed⟩
  simp +decide [Stmt.Neat, Expr.Neat, named.name]

theorem initializeDefinition_neat (neat : plan.Neat) : (initializeDefinition plan).Neat := by
  have attached : ∀ stmt ∈ plan.node.interface.concrete.flatMap (attach plan), stmt.Neat :=
    List.forall_mem_flatMap.mpr fun part member => attach_neat neat (neat.parts part member)
  refine .owned start_neat neat.serviceClass
    (List.forall_mem_append.mpr ⟨List.forall_mem_append.mpr ⟨?_, attached⟩, ?_⟩)
  · simp +decide [Stmt.Neat, Expr.Neat, Variable.neat_iff, neat.functionName, bus]
  · simp +decide [Stmt.Neat, Expr.Neat]

theorem serve_neat (one : method.Neat) : ∀ stmt ∈ serve method, stmt.Neat := by
  have served : Stmt.Neat (.perform (.apply (implementation method).name method.arguments)) :=
    Expr.apply_neat.mpr ⟨one.name, TypedArg.arguments_neat one.args⟩
  have message : Expr.Neat (.name "msg") := (.literal rfl : Level "msg")
  have replied : Stmt.Neat
      (.perform (.apply (reply method).name (.name "msg" :: method.outArgs.flatMap TypedArg.arguments))) :=
    Expr.apply_neat.mpr
      ⟨(reply_neat one).name, List.forall_mem_cons.mpr ⟨message, TypedArg.arguments_neat one.outArgs⟩⟩
  unfold serve
  refine List.forall_mem_cons.mpr ⟨served, ?_⟩
  split
  · exact List.forall_mem_singleton.mpr replied
  · exact List.forall_mem_nil _

theorem handlerDefinition_neat (neat : plan.Neat) (one : method.Neat) : (handlerDefinition plan method).Neat := by
  have received := receive_neat (.literal rfl : Level "msg") (.literal rfl : Level "args")
  have read := unpackAll_neat (.literal rfl : Level "args") one.inArgs true
  have declared : ∀ stmt ∈ method.outArgs.flatMap fun arg => (arg.slot.locals arg.name).map Stmt.declare, stmt.Neat :=
    List.forall_mem_flatMap.mpr fun arg member =>
      List.forall_mem_map.mpr (arg.slot.locals_neat (one.outArgs arg member))
  have serving := List.forall_mem_append.mpr ⟨List.forall_mem_append.mpr ⟨read, declared⟩, serve_neat one⟩
  refine .owned (handler_neat one) neat.serviceClass
    (List.forall_mem_append.mpr ⟨received, List.forall_mem_singleton.mpr ?_⟩)
  split
  · exact ⟨countIs_neat _, Stmt.allNeat_iff.mpr serving, by simp +decide [Stmt.Neat, Expr.Neat]⟩
  · exact ⟨countIs_neat _, Stmt.allNeat_iff.mpr serving⟩

theorem replyDefinition_neat (neat : plan.Neat) (one : method.Neat) : (replyDefinition plan method).Neat := by
  have packed := packAll_neat (.literal rfl : Level "args") one.outArgs
  refine .owned (reply_neat one) neat.serviceClass ?_
  split
  · simp +decide [Stmt.Neat, Expr.Neat]
  · refine List.forall_mem_append.mpr ⟨List.forall_mem_cons.mpr ⟨⟨TypeName.message_neat, .literal rfl⟩, packed⟩, ?_⟩
    simp +decide [Stmt.Neat, Expr.Neat]

theorem sendDefinition_neat (neat : plan.Neat) (one : signal.Neat) : (sendDefinition plan signal).Neat := by
  have packed := packAll_neat (.literal rfl : Level "args") one.args
  refine .owned (send_neat one false) neat.serviceClass
    (List.forall_mem_append.mpr ⟨List.forall_mem_append.mpr ⟨?looked, ?packing⟩, List.forall_mem_singleton.mpr ?sent⟩)
  case looked => simp +decide [Stmt.Neat, Expr.Neat, Variable.neat_iff, one.name, one.interface]
  case packing =>
    split
    · exact List.forall_mem_nil _
    · exact List.forall_mem_cons.mpr
        ⟨trivial, List.forall_mem_cons.mpr ⟨⟨TypeName.message_neat, .literal rfl⟩, packed⟩⟩
  case sent => split <;> split <;> simp +decide [Stmt.Neat, Expr.Neat]

theorem asksFor_neat (one : property.Neat) : (asksFor property).Neat := by
  simp +decide [asksFor, textIs, Expr.Neat, one.name, one.interface]

theorem accessDenied_neat : accessDenied.Neat :=
  (.literal rfl : Level "ER_BUS_PROPERTY_ACCESS_DENIED")

theorem noSuchProperty_neat : noSuchProperty.Neat :=
  (.literal rfl : Level "ER_BUS_NO_SUCH_PROPERTY")

theorem accepted_neat : ∀ stmt ∈ [Stmt.ret (.name "ER_OK")], stmt.Neat := by
  simp +decide [Stmt.Neat, Expr.Neat]

theorem getBranch_neat (one : property.Neat) : (getBranch property).Neat := by
  have value : (Place.root "val").Neat := (.literal rfl : Level "val")
  have source : (Place.root property.name).Neat := one.name
  have written := Slot.set_neat (Slot.neat_of property.type) value source 0
  refine ⟨asksFor_neat one, Stmt.allNeat_iff.mpr ?_⟩
  split
  · exact List.forall_mem_append.mpr ⟨written, accepted_neat⟩
  · exact List.forall_mem_singleton.mpr accessDenied_neat

theorem level_typeId (type : BusType) : Level type.typeId := by
  unfold BusType.typeId
  split
  next kind => cases kind <;> decide
  · decide
  · decide
  next kind => cases kind <;> decide
  · decide
  · decide

theorem valueCheck_neat (one : property.Neat) : ∀ check ∈ valueCheck? property, check.Neat := by
  intro check found
  unfold valueCheck? at found
  split at found
  · cases found
  · split at found
    · cases found
      simp +decide [Expr.Neat, level_typeId]
    · cases found
      simp +decide [Expr.Neat, one.signature]

theorem setBranch_neat (one : property.Neat) : (setBranch property).Neat := by
  have value : (Place.root "val").Neat := (.literal rfl : Level "val")
  have read := Slot.get_neat (Slot.neat_of property.type) value one.name false 0
  have refused : Stmt.Neat (.ret (.name "ER_BUS_BAD_VALUE")) := (.literal rfl : Level "ER_BUS_BAD_VALUE")
  refine ⟨asksFor_neat one, Stmt.allNeat_iff.mpr ?_⟩
  split
  · refine List.forall_mem_append.mpr ⟨List.forall_mem_append.mpr ⟨List.forall_mem_append.mpr
      ⟨List.forall_mem_map.mpr fun check found => ?checked, ?cleared⟩, read⟩, accepted_neat⟩
    case checked =>
      have checked := valueCheck_neat one check (by simpa using found)
      exact ⟨checked, Stmt.allNeat_iff.mpr (List.forall_mem_singleton.mpr refused)⟩
    case cleared =>
      split
      · exact List.forall_mem_singleton.mpr one.name
      · exact List.forall_mem_nil _
  · exact List.forall_mem_singleton.mpr accessDenied_neat

theorem getDefinition_neat (neat : plan.Neat) : (getDefinition plan).Neat :=
  .owned getProperty_neat neat.serviceClass (List.forall_mem_append.mpr
    ⟨List.forall_mem_map.mpr fun property member => getBranch_neat (neat.properties property member),
      List.forall_mem_singleton.mpr noSuchProperty_neat⟩)

theorem setDefinition_neat (neat : plan.Neat) : (setDefinition plan).Neat :=
  .owned setProperty_neat neat.serviceClass (List.forall_mem_append.mpr
    ⟨List.forall_mem_map.mpr fun property member => setBranch_neat (neat.properties property member),
      List.forall_mem_singleton.mpr noSuchProperty_neat⟩)

theorem implementationDefinition_neat (neat : plan.Neat) (one : method.Neat) :
    (implementationDefinition plan method).Neat :=
  .owned (implementation_neat one) neat.serviceClass (by simp +decide [Stmt.Neat])

end Service

end BusStub
