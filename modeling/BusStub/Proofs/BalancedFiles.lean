import BusStub.Proofs.BracesEmitted
import BusStub.Proofs.DeclaredRecords

/-! Every generated file is balanced. The names of an object may not have braces in them, for they are printed as
they are. Its signatures may, and do as soon as there is a dictionary: those that can be read close what they open. -/

namespace BusStub
open Text Code

theorem Arg.Neat.signatures {args : List Arg} (neat : ∀ arg ∈ args, arg.Neat) :
    Level (String.join (args.map Arg.signature)) :=
  .join (List.forall_mem_map.mpr fun arg member => (neat arg member).signature)

theorem Arg.Neat.names {args : List Arg} (neat : ∀ arg ∈ args, arg.Neat) :
    Level (String.intercalate "," (args.map Arg.name)) :=
  .intercalate (.literal rfl) (List.forall_mem_map.mpr fun arg member => (neat arg member).name)

namespace Describe

theorem quotedOrNull_neat {text : String} (level : Level text) : (quotedOrNull text).Neat := by
  unfold quotedOrNull
  split
  · exact Expr.null_neat
  · exact level

theorem added_neat {function : String} (named : Level function) {args : List Expr} (neat : ∀ arg ∈ args, arg.Neat) :
    ∀ stmt ∈ added function args, stmt.Neat := by
  simpa +decide [added, Stmt.Neat, Expr.Neat, named] using neat

theorem method_neat {m : Method} (neat : m.Neat) : ∀ stmt ∈ method m, stmt.Neat := by
  have inputs : ∀ arg ∈ m.inArgs, arg.Neat := fun arg member => neat.args arg (List.mem_of_mem_filter member)
  have outputs : ∀ arg ∈ m.outArgs, arg.Neat := fun arg member => neat.args arg (List.mem_of_mem_filter member)
  have read : (quotedOrNull m.inSignature).Neat := quotedOrNull_neat (Arg.Neat.signatures inputs)
  have written : (quotedOrNull m.outSignature).Neat := quotedOrNull_neat (Arg.Neat.signatures outputs)
  have names : (quotedOrNull m.argNames).Neat :=
    quotedOrNull_neat (Arg.Neat.names (List.forall_mem_append.mpr ⟨inputs, outputs⟩))
  refine added_neat (.literal rfl) ?_
  cases m.noReply <;> simp +decide [Expr.Neat, neat.name, read, written, names]

theorem signal_neat {s : Signal} (neat : s.Neat) : ∀ stmt ∈ signal s, stmt.Neat := by
  have sent : (quotedOrNull s.signature).Neat := quotedOrNull_neat (Arg.Neat.signatures neat.args)
  have names : (quotedOrNull s.argNames).Neat := quotedOrNull_neat (Arg.Neat.names neat.args)
  refine added_neat (.literal rfl) ?_
  simp +decide [Expr.Neat, neat.name, sent, names]

theorem property_neat {p : Property} (neat : p.Neat) : ∀ stmt ∈ property p, stmt.Neat := by
  refine added_neat (.literal rfl) ?_
  cases p.access <;> simp +decide [Expr.Neat, neat.name, neat.signature, accessConstant]

theorem interface_neat {part : Interface} (neat : part.Neat) : ∀ stmt ∈ interface part, stmt.Neat := by
  refine List.forall_mem_append.mpr ⟨List.forall_mem_append.mpr ⟨List.forall_mem_append.mpr
    ⟨List.forall_mem_append.mpr ⟨?created, ?methods⟩, ?signals⟩, ?properties⟩, ?activated⟩
  case created =>
    cases secure : part.secure <;> simp +decide [Stmt.Neat, Expr.Neat, neat.name, policy, secure]
  case methods => exact List.forall_mem_flatMap.mpr fun m member => method_neat (neat.methods m member)
  case signals => exact List.forall_mem_flatMap.mpr fun s member => signal_neat (neat.signals s member)
  case properties => exact List.forall_mem_flatMap.mpr fun p member => property_neat (neat.properties p member)
  case activated => simp +decide [Stmt.Neat, Expr.Neat]

theorem unlessKnown_neat {part : Interface} (neat : part.Neat) : (unlessKnown part).Neat := by
  have known : (Expr.isNull (.send (.name "bus") "GetInterface" [.quoted part.name])).Neat := by
    simp +decide [Expr.Neat, neat.name]
  exact ⟨known, Stmt.allNeat_iff.mpr (interface_neat neat)⟩

theorem function_neat {node : ObjectNode} (named : Level (functionName node))
    (parts : ∀ part ∈ node.interface.concrete, part.Neat) : (function node).Neat where
  prototype := by simp +decide [function, Prototype.neat_iff, Param.neat_iff, named]
  owner := by simp [function]
  initializers := List.forall_mem_nil _
  body := by
    rw [function, Stmt.allNeat_iff]
    refine List.forall_mem_append.mpr ⟨List.forall_mem_append.mpr ⟨?_, List.forall_mem_map.mpr ?_⟩, ?_⟩
    · simp +decide [Stmt.Neat, Expr.Neat, Variable.neat_iff]
    · exact fun part member => unlessKnown_neat (parts part member)
    · simp +decide [Stmt.Neat, Expr.Neat]

end Describe

section
variable {plan : Plan} {guard : String}

theorem guardOpening_neat (level : Level guard) : ∀ item ∈ guardOpening guard, item.Neat :=
  List.forall_mem_cons.mpr ⟨.append (.literal rfl) level,
    List.forall_mem_cons.mpr ⟨.append (.literal rfl) level, List.forall_mem_singleton.mpr trivial⟩⟩

theorem guardClosing_neat (level : Level guard) : (guardClosing guard).Neat :=
  .append₃ (.literal rfl) level (.literal rfl)

theorem Composite.items_neat {entry : Composite} (neat : entry.Neat) : ∀ item ∈ entry.items, item.Neat := by
  have described : Level (description entry.kind) := by cases entry.kind <;> decide
  have comment : Level
      (description entry.kind ++ " for \"" ++ entry.argName ++ "\" with signature " ++ entry.signature) :=
    .append₃ (.append₃ described (.literal rfl) neat.argName) (.literal rfl) neat.signature
  have record : ∀ fields ∈ (Slot.of entry.declared).record?, ∀ field ∈ fields, field.Neat := by
    have named := Slot.neat_of entry.declared
    intro fields kept
    cases slot : Slot.of entry.declared with
    | struct members =>
      rw [slot] at kept named
      cases kept
      exact Fields.declared_neat members named
    | dict key value =>
      rw [slot] at kept named
      cases kept
      have entered : Field.Neat (.plain ⟨⟨.scalar key, false, 0⟩, "key"⟩) := ⟨trivial, (.literal rfl : Level "key")⟩
      exact List.forall_mem_cons.mpr ⟨entered, Slot.fields_neat (.literal rfl) value named⟩
    | scalar | variant | boxed | scalars | structs =>
      rw [slot] at kept
      cases kept
  unfold items
  split
  · exact List.forall_mem_nil _
  next fields kept =>
    exact List.forall_mem_cons.mpr ⟨comment, List.forall_mem_cons.mpr
      ⟨⟨neat.typeName, Field.allNeat_iff.mpr (record fields kept)⟩, List.forall_mem_singleton.mpr trivial⟩⟩

namespace TypesHeader

theorem constant_neat {name value : String} (named : Level name) (valued : Level value) : (constant name value).Neat :=
  .append₃ (.append₃ (.literal rfl) named (.literal rfl)) valued (.literal rfl)

theorem constants_neat (neat : plan.Neat) : ∀ item ∈ constants plan, item.Neat := by
  refine List.forall_mem_append.mpr ⟨List.forall_mem_map.mpr fun name given => ?_, List.forall_mem_singleton.mpr ?_⟩
  · exact constant_neat neat.busNameConstant (neat.busName name (by simpa using given))
  · exact constant_neat neat.pathConstant neat.path

theorem items_neat (neat : plan.Neat) : ∀ item ∈ items plan, item.Neat := by
  have guard : Level (plan.macroName ++ "_TYPES_H") := neat.macroName.append (.literal rfl)
  have about : Level
      (plan.typesHeader ++ "\nTypes and constants shared by the " ++ plan.name ++ " client and service.") :=
    .append (.append₃ neat.typesHeader (.literal rfl) neat.name) (.literal rfl)
  have included : ∀ item ∈ includes.map fun file => Item.line ("#include " ++ file), item.Neat := by
    have levels : ∀ file ∈ includes, Level file := by decide
    exact List.forall_mem_map.mpr fun file member => Level.append (.literal rfl) (levels file member)
  have registered : ∀ item ∈ plan.registry.items, item.Neat :=
    List.forall_mem_flatMap.mpr fun entry member => Composite.items_neat (neat.entries entry member)
  have purpose : Level
      ("Create the interface descriptions implemented by " ++ plan.node.name ++ " on the bus attachment.") :=
    .append₃ (.literal rfl) neat.name (.literal rfl)
  have described : ∀ item ∈ Describe.items plan.node, item.Neat :=
    List.forall_mem_cons.mpr ⟨purpose,
      List.forall_mem_singleton.mpr (Describe.function_neat neat.functionName neat.parts)⟩
  unfold items
  simp only [List.forall_mem_cons, List.forall_mem_append]
  exact ⟨⟨⟨⟨⟨⟨⟨⟨about, guardOpening_neat guard⟩, included⟩, by simp +decide [Item.Neat]⟩, constants_neat neat⟩,
    trivial, List.forall_mem_nil _⟩, registered⟩, described⟩, trivial, guardClosing_neat guard, List.forall_mem_nil _⟩

end TypesHeader

theorem header_neat {about file : String} {klass : Klass} (described : Level about) (level : Level guard)
    (included : Level file) (inner : klass.Neat) :
    ∀ item ∈ .comment about :: guardOpening guard ++
      [.line ("#include \"" ++ file ++ "\""), .blank, .klass klass, .blank, guardClosing guard], item.Neat := by
  have line : Level ("#include \"" ++ file ++ "\"") := .append₃ (.literal rfl) included (.literal rfl)
  simp only [List.forall_mem_cons, List.forall_mem_append]
  exact ⟨⟨described, guardOpening_neat level⟩, line, trivial, inner, trivial, guardClosing_neat level,
    List.forall_mem_nil _⟩

/-- How the sources of a class begin. -/
theorem opening_neat {about name : String} (described : Level about) (level : Level name) :
    ∀ item ∈ [Item.comment about, .line ("#include \"" ++ name ++ ".h\""), .blank], item.Neat := by
  have line : Level ("#include \"" ++ name ++ ".h\"") := .append₃ (.literal rfl) level (.literal rfl)
  exact List.forall_mem_cons.mpr
    ⟨described, List.forall_mem_cons.mpr ⟨line, List.forall_mem_singleton.mpr trivial⟩⟩

namespace Client

variable {method : TypedMethod} {signal : TypedSignal} {property : TypedProperty}

theorem methodMembers_neat (one : method.Neat) : ∀ member ∈ methodMembers method, member.Neat := by
  have about : Level ("Call \"" ++ method.name ++
      "\" on the remote object. Output arguments are filled from the reply.") :=
    .append₃ (.literal rfl) one.name (.literal (by decide))
  simp [methodMembers, Member.Neat, about, call_neat one]

theorem signalMembers_neat (one : signal.Neat) : ∀ member ∈ signalMembers signal, member.Neat := by
  have about : Level ("Start listening for the \"" ++ signal.name ++ "\" signal; " ++ signal.name ++
      "Handler() is called for each one.") :=
    .append₃ (.append₃ (.literal rfl) one.name (.literal rfl)) one.name (.literal rfl)
  simp [signalMembers, Member.Neat, about, register_neat one]

theorem accessors_neat (one : property.Neat) : ∀ prototype ∈ accessors property, prototype.Neat := by
  refine List.forall_mem_append.mpr ⟨?_, ?_⟩
  · split <;> simp [getter_neat one]
  · split <;> simp [setter_neat one]

theorem visibleMembers_neat (neat : plan.Neat) : ∀ member ∈ visibleMembers plan, member.Neat := by
  have found : ∀ member ∈ (if plan.busName.isSome then findMembers plan else []), member.Neat := by
    have about : Level ("Look for a service advertising " ++ plan.busNameConstant ++ ".") :=
      .append₃ (.literal rfl) neat.busNameConstant (.literal rfl)
    split <;> simp [findMembers, Member.Neat, about, findName_neat]
  unfold visibleMembers
  simp only [List.forall_mem_append, List.forall_mem_flatMap]
  refine ⟨⟨⟨⟨⟨?connected, found⟩, ?joined⟩, ?methods⟩, ?signals⟩, ?properties⟩
  case connected =>
    simp +decide [connectionMembers, Member.Neat, constructorPrototype_neat neat, destructorPrototype_neat neat]
  case joined => simp +decide [proxyMembers, Member.Neat, setUpProxy_neat]
  case methods => exact fun method member => methodMembers_neat (neat.methods method member)
  case signals => exact fun signal member => signalMembers_neat (neat.signals signal member)
  case properties =>
    exact fun property member =>
      List.forall_mem_cons.mpr ⟨trivial, List.forall_mem_map.mpr (accessors_neat (neat.properties property member))⟩

theorem klass_neat (neat : plan.Neat) : (klass plan).Neat where
  name := neat.clientClass
  base := (.literal rfl : Level "BusObject")
  visible := visibleMembers_neat neat
  hidden := by
    refine List.forall_mem_append.mpr ⟨List.forall_mem_flatMap.mpr fun signal member => ?_, ?_⟩
    · have one := neat.signals signal member
      simp [callbackMembers, Member.Neat, wrapper_neat one, handler_neat one]
    · simp +decide [fields, Member.Neat, Routine.busPointer, Variable.neat_iff]

theorem header_neat (neat : plan.Neat) : ∀ item ∈ header plan, item.Neat := by
  have guard : Level (plan.macroName ++ "_CLIENT_H") := neat.macroName.append (.literal rfl)
  have about : Level (plan.clientClass ++ ".h\nClient side of the " ++ plan.name ++ " object. " ++ plan.clientClass ++
      " hides the proxy object and the message packing behind typed methods.") :=
    .append (.append₃ (.append₃ neat.clientClass (.literal rfl) neat.name) (.literal rfl) neat.clientClass)
      (.literal (by decide))
  exact BusStub.header_neat about guard neat.typesHeader (klass_neat neat)

theorem accessorDefinitions_neat (neat : plan.Neat) (one : property.Neat) :
    ∀ definition ∈ accessorDefinitions plan property, definition.Neat := by
  refine List.forall_mem_append.mpr ⟨?_, ?_⟩
  · split <;> simp [getterDefinition_neat neat one]
  · split <;> simp [setterDefinition_neat neat one]

theorem methodItems_neat (neat : plan.Neat) (one : method.Neat) : ∀ item ∈ methodItems plan method, item.Neat := by
  have about : Level ("Method call wrapper for \"" ++ method.name ++ "\" on " ++ method.interface ++ ".") :=
    .append₃ (.append₃ (.literal rfl) one.name (.literal rfl)) one.interface (.literal rfl)
  simp [methodItems, Item.Neat, about, callDefinition_neat neat one]

theorem signalItems_neat (neat : plan.Neat) (one : signal.Neat) : ∀ item ∈ signalItems plan signal, item.Neat := by
  simp [signalItems, Item.Neat, registerDefinition_neat neat one, wrapperDefinition_neat neat one]

theorem propertyItems_neat (neat : plan.Neat) (one : property.Neat) :
    ∀ item ∈ propertyItems plan property, item.Neat := by
  refine List.forall_mem_flatMap.mpr fun definition member => ?_
  simp [Item.Neat, accessorDefinitions_neat neat one definition member]

theorem source_neat (neat : plan.Neat) : ∀ item ∈ source plan, item.Neat := by
  have about : Level (plan.clientClass ++ ".cc\nImplementation of the " ++ plan.name ++ " client class.") :=
    .append (.append₃ neat.clientClass (.literal rfl) neat.name) (.literal rfl)
  have found : ∀ item ∈ (if plan.busName.isSome then [Item.function (findNameDefinition plan), .blank] else []),
      item.Neat := by
    split <;> simp [Item.Neat, findNameDefinition_neat neat]
  unfold source
  simp only [List.forall_mem_append, List.forall_mem_flatMap]
  refine ⟨⟨⟨⟨⟨⟨?opening, ?lifetime⟩, found⟩, ?proxied⟩, ?methods⟩, ?signals⟩, ?properties⟩
  case opening => exact opening_neat about neat.clientClass
  case lifetime => simp [lifetimeItems, Item.Neat, constructorDefinition_neat neat, destructorDefinition_neat neat]
  case proxied => simp [Item.Neat, setUpProxyDefinition_neat neat]
  case methods => exact fun method member => methodItems_neat neat (neat.methods method member)
  case signals => exact fun signal member => signalItems_neat neat (neat.signals signal member)
  case properties => exact fun property member => propertyItems_neat neat (neat.properties property member)

theorem handlers_neat (neat : plan.Neat) : ∀ item ∈ handlers plan, item.Neat := by
  have about : Level (plan.clientClass ++ "Handlers.cc\nSignal handlers of the " ++ plan.name ++
      " client. Fill in the bodies; regenerating the stubs does not overwrite this file.") :=
    .append (.append₃ neat.clientClass (.literal rfl) neat.name) (.literal (by decide))
  have called (signal : TypedSignal) (one : signal.Neat) : Level
      ("Called for every \"" ++ signal.name ++ "\" signal received after Register" ++ signal.name ++ "Handler().") :=
    .append₃ (.append₃ (.literal rfl) one.name (.literal rfl)) one.name (.literal rfl)
  unfold handlers
  refine List.forall_mem_append.mpr
    ⟨opening_neat about neat.clientClass, List.forall_mem_flatMap.mpr fun signal member => ?_⟩
  have one := neat.signals signal member
  simp [Item.Neat, called signal one, handlerDefinition_neat neat one]

end Client

namespace Service

variable {method : TypedMethod} {signal : TypedSignal}

theorem visibleMembers_neat (neat : plan.Neat) : ∀ member ∈ visibleMembers plan, member.Neat := by
  have emitted (signal : TypedSignal) (one : signal.Neat) : ∀ member ∈ signalMembers signal, member.Neat := by
    have about : Level ("Emit \"" ++ signal.name ++ "\". Without a destination the signal is broadcast.") :=
      .append₃ (.literal rfl) one.name (.literal rfl)
    simp [signalMembers, Member.Neat, about, send_neat one]
  unfold visibleMembers
  simp only [List.forall_mem_append, List.forall_mem_flatMap]
  refine ⟨⟨?started, fun signal member => emitted signal (neat.signals signal member)⟩, ?requested⟩
  case started =>
    have about : Level ("Create the interfaces on the bus, attach them to this object and " ++
        "install the method handlers. Call before registering the object.") :=
      Level.append (.literal rfl) (.literal rfl)
    simp [startMembers, Member.Neat, -String.reduceAppend, about, constructorPrototype_neat neat,
      destructorPrototype_neat neat, start_neat]
  case requested =>
    unfold propertyMembers
    split <;> simp [Member.Neat, getProperty_neat, setProperty_neat]

theorem methodMembers_neat (one : method.Neat) : ∀ member ∈ methodMembers method, member.Neat := by
  have replied : ∀ member ∈ (if method.expectsReply then [Member.function (reply method)] else []), member.Neat := by
    split <;> simp [Member.Neat, reply_neat one]
  refine List.forall_mem_cons.mpr ⟨handler_neat one, List.forall_mem_append.mpr ⟨replied, ?_⟩⟩
  simp +decide [Member.Neat, implementation_neat one]

theorem klass_neat (neat : plan.Neat) : (klass plan).Neat where
  name := neat.serviceClass
  base := (.literal rfl : Level "BusObject")
  visible := visibleMembers_neat neat
  hidden := by
    have pointer : Routine.busPointer.Neat := ⟨(.literal rfl : Level "BusAttachment"), .literal rfl⟩
    refine List.forall_mem_append.mpr ⟨List.forall_mem_flatMap.mpr fun method member => ?_,
      List.forall_mem_cons.mpr ⟨pointer, List.forall_mem_map.mpr (storage_neat neat)⟩⟩
    exact methodMembers_neat (neat.methods method member)

theorem header_neat (neat : plan.Neat) : ∀ item ∈ header plan, item.Neat := by
  have guard : Level (plan.macroName ++ "_SERVICE_H") := neat.macroName.append (.literal rfl)
  have about : Level (plan.serviceClass ++ ".h\nService side of the " ++ plan.name ++ " object.") :=
    .append (.append₃ neat.serviceClass (.literal rfl) neat.name) (.literal rfl)
  exact BusStub.header_neat about guard neat.typesHeader (klass_neat neat)

theorem methodItems_neat (neat : plan.Neat) (one : method.Neat) : ∀ item ∈ methodItems plan method, item.Neat := by
  have about : Level ("Unpacks a call to \"" ++ method.name ++ "\" on " ++ method.interface ++ ".") :=
    .append₃ (.append₃ (.literal rfl) one.name (.literal rfl)) one.interface (.literal rfl)
  refine List.forall_mem_append.mpr ⟨?_, ?_⟩
  · simp [Item.Neat, about, handlerDefinition_neat neat one]
  · split <;> simp [Item.Neat, replyDefinition_neat neat one]

theorem source_neat (neat : plan.Neat) : ∀ item ∈ source plan, item.Neat := by
  have about : Level (plan.serviceClass ++ ".cc\nImplementation of the " ++ plan.name ++ " service class.") :=
    .append (.append₃ neat.serviceClass (.literal rfl) neat.name) (.literal rfl)
  unfold source
  simp only [List.forall_mem_append, List.forall_mem_flatMap]
  refine ⟨⟨⟨⟨⟨?opening, ?lifetime⟩, ?started⟩, ?methods⟩, ?signals⟩, ?properties⟩
  case opening => exact opening_neat about neat.serviceClass
  case lifetime => simp [lifetimeItems, Item.Neat, constructorDefinition_neat neat, destructorDefinition_neat neat]
  case started => simp [Item.Neat, initializeDefinition_neat neat]
  case methods => exact fun method member => methodItems_neat neat (neat.methods method member)
  case signals =>
    intro signal member
    simp [signalItems, Item.Neat, sendDefinition_neat neat (neat.signals signal member)]
  case properties =>
    unfold propertyItems
    split <;> simp [Item.Neat, getDefinition_neat neat, setDefinition_neat neat]

theorem methods_neat (neat : plan.Neat) : ∀ item ∈ methods plan, item.Neat := by
  have about : Level (plan.serviceClass ++ "Methods.cc\nMethod implementations of the " ++ plan.name ++
      " service. Output arguments are sent back to the caller once the method returns. " ++
      "Regenerating the stubs does not overwrite this file.") :=
    .append₃ (.append₃ neat.serviceClass (.literal rfl) neat.name) (.literal (by decide)) (.literal rfl)
  unfold methods
  refine List.forall_mem_append.mpr
    ⟨opening_neat about neat.serviceClass, List.forall_mem_flatMap.mpr fun method member => ?_⟩
  simp [Item.Neat, implementationDefinition_neat neat (neat.methods method member)]

end Service

theorem Plan.files_neat (neat : plan.Neat) (service : Bool) :
    ∀ file ∈ plan.files service, ∀ item ∈ file.items, item.Neat := by
  refine List.forall_mem_append.mpr ⟨?_, ?_⟩
  · simp only [Plan.clientFiles, List.forall_mem_cons]
    exact ⟨TypesHeader.items_neat neat, Client.header_neat neat, Client.source_neat neat, Client.handlers_neat neat,
      List.forall_mem_nil _⟩
  · split
    · simp only [Plan.serviceFiles, List.forall_mem_cons]
      exact ⟨Service.header_neat neat, Service.source_neat neat, Service.methods_neat neat, List.forall_mem_nil _⟩
    · exact List.forall_mem_nil _
end

/-- A text without braces. -/
def Text.Braceless (text : String) : Prop :=
  '{' ∉ text.toList ∧ '}' ∉ text.toList

instance (text : String) : Decidable (Braceless text) :=
  inferInstanceAs (Decidable (_ ∧ _))

theorem Text.Braceless.level {text : String} (plain : Braceless text) : Level text :=
  .plain plain.1 plain.2

/-- The names that an interface gives to itself, its members and their arguments. -/
def Interface.names (interface : Interface) : List String :=
  interface.name ::
  (interface.methods.flatMap fun method => method.name :: method.args.map Arg.name) ++
  (interface.signals.flatMap fun signal => signal.name :: signal.args.map Arg.name) ++
  interface.properties.map Property.name

/-- All names in an object, those of its concrete interfaces among them. -/
def ObjectNode.names (node : ObjectNode) : List String :=
  node.name :: (node.interface :: node.interface.concrete).flatMap Interface.names

/-- The names of an interface, each where it stands. -/
structure Interface.Named (interface : Interface) : Prop where
  name : Level interface.name
  methods : ∀ method ∈ interface.methods, Level method.name ∧ ∀ arg ∈ method.args, Level arg.name
  signals : ∀ signal ∈ interface.signals, Level signal.name ∧ ∀ arg ∈ signal.args, Level arg.name
  properties : ∀ property ∈ interface.properties, Level property.name

theorem Interface.Named.of_names {interface : Interface} (level : ∀ text ∈ interface.names, Level text) :
    interface.Named := by
  simp only [names, List.forall_mem_append, List.forall_mem_cons, List.forall_mem_flatMap, List.forall_mem_map] at level
  obtain ⟨⟨⟨name, methods⟩, signals⟩, properties⟩ := level
  exact ⟨name, methods, signals, properties⟩

theorem Interface.values_named {interface : Interface} {value : String × Arg} (member : value ∈ interface.values) :
    value.2.name ∈ interface.names := by
  unfold Interface.values at member
  unfold Interface.names
  simp only [List.mem_append, List.mem_flatMap, List.mem_map, List.mem_cons] at member ⊢
  obtain (⟨method, inside, arg, among, rfl⟩ | ⟨signal, inside, arg, among, rfl⟩) | ⟨property, inside, rfl⟩ := member
  · exact .inl (.inl (.inr ⟨method, inside, .inr ⟨arg, among, rfl⟩⟩))
  · exact .inl (.inr ⟨signal, inside, .inr ⟨arg, among, rfl⟩⟩)
  · exact .inr ⟨property, inside, rfl⟩

/-- A signature that can be read is the text of its type. -/
theorem BusType.level_parse {signature : String} {type : BusType} (parsed : parse signature = .ok type) :
    Level signature := by
  rw [← text_of_parse parsed]
  exact type.level_text

theorem Slot.recordName_level {slot : Slot} {name record : String} (named : Level name)
    (kept : slot.recordName? name = some record) : Level record := by
  cases slot with
  | struct | structs | dict =>
    cases kept
    exact named.append (.literal rfl)
  | scalar | variant | boxed | scalars => cases kept

theorem Registry.Describes.entries_neat {seen : List Arg} {registry : Registry} (describes : registry.Describes seen)
    (named : ∀ arg ∈ seen, Level arg.name) : ∀ entry ∈ registry.declarations, entry.Neat := by
  intro entry declared
  -- An entry was brought by an argument that was seen, and the signature of that was read then.
  obtain ⟨kind, present⟩ := mem_entries.mp (firstPerName_subset _ _ declared)
  obtain ⟨arg, member, text, brought, -⟩ := describes.sound kind entry present
  obtain ⟨type, parsed, origin⟩ := Composite.brought?_spec brought
  have name := named arg member
  have signature := BusType.level_parse parsed
  exact ⟨origin.argName ▸ name, origin.signature ▸ signature, Slot.recordName_level name origin.typeName⟩

section
variable {plan : Plan}

theorem TypedArg.Of.neat {args : List Arg} {typed : List TypedArg} (related : List.Forall₂ TypedArg.Of args typed)
    (named : ∀ arg ∈ args, Level arg.name) : (∀ arg ∈ args, arg.Neat) ∧ ∀ arg ∈ typed, Level arg.name := by
  constructor
  · intro arg member
    obtain ⟨_, -, read⟩ := exists_of_forall₂ related.flip member
    exact ⟨named arg member, BusType.level_parse read.type⟩
  · intro arg member
    obtain ⟨declared, listed, read⟩ := exists_of_forall₂ related member
    rw [TypedArg.name, read.arg]
    exact named declared listed

theorem TypedMethod.Of.neat {declared : Interface × Method} {typed : TypedMethod} (same : typed.Of declared)
    (named : declared.1.Named) (member : declared.2 ∈ declared.1.methods) : declared.2.Neat ∧ typed.Neat := by
  obtain ⟨name, names⟩ := named.methods declared.2 member
  obtain ⟨args, known⟩ := TypedArg.Of.neat same.args names
  exact ⟨⟨name, args⟩, by rwa [TypedMethod.name, same.method], same.interface ▸ named.name, known⟩

theorem TypedSignal.Of.neat {declared : Interface × Signal} {typed : TypedSignal} (same : typed.Of declared)
    (named : declared.1.Named) (member : declared.2 ∈ declared.1.signals) : declared.2.Neat ∧ typed.Neat := by
  obtain ⟨name, names⟩ := named.signals declared.2 member
  obtain ⟨args, known⟩ := TypedArg.Of.neat same.args names
  exact ⟨⟨name, args⟩, by rwa [TypedSignal.name, same.signal], same.interface ▸ named.name, known⟩

theorem TypedProperty.Of.neat {declared : Interface × Property} {typed : TypedProperty} (same : typed.Of declared)
    (named : declared.1.Named) (member : declared.2 ∈ declared.1.properties) : declared.2.Neat ∧ typed.Neat := by
  have name := named.properties declared.2 member
  have signature := BusType.level_parse same.type
  exact ⟨⟨name, signature⟩, by rwa [TypedProperty.name, same.property], same.interface ▸ named.name,
    same.property ▸ signature⟩

theorem Interface.mem_among {α : Type} {parts : List Interface} {members : Interface → List α} {part : Interface}
    {member : α} : (part, member) ∈ parts.flatMap (among members) ↔ part ∈ parts ∧ member ∈ members part := by
  simp only [among, List.mem_flatMap, List.mem_map]
  constructor
  · rintro ⟨part, inside, member, listed, same⟩
    cases same
    exact ⟨inside, listed⟩
  · rintro ⟨inside, listed⟩
    exact ⟨part, inside, member, listed, rfl⟩

namespace Plan.Lists

variable {node : ObjectNode} {registry : Registry} {busName : Option String}

/-- Whatever is declared is in the plan, which has read its signatures. -/
theorem parts_neat (lists : plan.Lists node registry busName
      (node.interface.concrete.flatMap (Interface.among Interface.methods))
      (node.interface.concrete.flatMap (Interface.among Interface.signals))
      (node.interface.concrete.flatMap (Interface.among Interface.properties)))
    (named : ∀ part ∈ node.interface.concrete, part.Named) : ∀ part ∈ node.interface.concrete, part.Neat := by
  intro part inside
  have names := named part inside
  refine ⟨names.name, fun method member => ?_, fun signal member => ?_, fun property member => ?_⟩
  · obtain ⟨typed, -, same⟩ := exists_of_forall₂ lists.methods.flip (Interface.mem_among.mpr ⟨inside, member⟩)
    exact (same.neat names member).1
  · obtain ⟨typed, -, same⟩ := exists_of_forall₂ lists.signals.flip (Interface.mem_among.mpr ⟨inside, member⟩)
    exact (same.neat names member).1
  · obtain ⟨typed, -, same⟩ := exists_of_forall₂ lists.properties.flip (Interface.mem_among.mpr ⟨inside, member⟩)
    exact (same.neat names member).1

theorem neat (lists : plan.Lists node registry busName
      (node.interface.concrete.flatMap (Interface.among Interface.methods))
      (node.interface.concrete.flatMap (Interface.among Interface.signals))
      (node.interface.concrete.flatMap (Interface.among Interface.properties)))
    (describes : registry.Describes (node.interface.values.map Prod.snd))
    (named : ∀ text ∈ node.names, Level text) (path : Level node.path) (known : ∀ name ∈ busName, Level name) :
    plan.Neat := by
  have parts (part : Interface) (inside : part ∈ node.interface :: node.interface.concrete) :
      ∀ text ∈ part.names, Level text :=
    fun text member => named text (List.mem_cons_of_mem _ (List.mem_flatMap.mpr ⟨part, inside, member⟩))
  have concrete : ∀ part ∈ node.interface.concrete, part.Named :=
    fun part inside => .of_names (parts part (List.mem_cons_of_mem _ inside))
  have values : ∀ arg ∈ node.interface.values.map Prod.snd, Level arg.name :=
    List.forall_mem_map.mpr fun value member => parts _ (List.mem_cons_self ..) _ (Interface.values_named member)
  refine ⟨?name, lists.node ▸ path, lists.busName ▸ known, lists.node ▸ lists.parts_neat concrete,
    lists.registry ▸ describes.entries_neat values, ?methods, ?signals, ?properties⟩
  case name =>
    rw [Plan.name, lists.node]
    exact named _ (List.mem_cons_self ..)
  case methods =>
    intro method member
    obtain ⟨⟨part, declared⟩, listed, same⟩ := exists_of_forall₂ lists.methods member
    obtain ⟨inside, among⟩ := Interface.mem_among.mp listed
    exact (same.neat (concrete part inside) among).2
  case signals =>
    intro signal member
    obtain ⟨⟨part, declared⟩, listed, same⟩ := exists_of_forall₂ lists.signals member
    obtain ⟨inside, among⟩ := Interface.mem_among.mp listed
    exact (same.neat (concrete part inside) among).2
  case properties =>
    intro property member
    obtain ⟨⟨part, declared⟩, listed, same⟩ := exists_of_forall₂ lists.properties member
    obtain ⟨inside, among⟩ := Interface.mem_among.mp listed
    exact (same.neat (concrete part inside) among).2

end Plan.Lists
end

/-- In every file that is generated for an object, no beginning closes more braces than it opens, and the whole
closes as many as it opens, when there are none in the names, the path and the bus name. -/
theorem files_balanced (node : ObjectNode) (options : StubOptions) (files : List OutputFile)
    (plain : ∀ text ∈ node.path :: node.names ++ options.busName.toList, Braceless text)
    (emitted : node.emit options = .ok files) : ∀ file ∈ files, Balanced file.contents := by
  obtain ⟨plan, planned, rfl⟩ := ObjectNode.emit_spec emitted
  obtain ⟨registry, discovered, made⟩ := ObjectNode.plan_spec planned
  have level (text : String) (member : text ∈ node.path :: node.names ++ options.busName.toList) : Level text :=
    (plain text member).level
  have neat : plan.Neat := (Plan.make_lists made).neat (Registry.discover_describes discovered)
    (fun text member => level text (List.mem_append_left _ (List.mem_cons_of_mem _ member)))
    (level _ (List.mem_append_left _ (List.mem_cons_self ..)))
    (fun name known => level name (List.mem_append_right _ (by simpa using known)))
  exact List.forall_mem_map.mpr fun file member => print_balanced (Plan.files_neat neat options.service file member)

/-- An object whose signatures nest dictionaries in structs and structs in dictionaries. -/
def shelf : ObjectNode :=
  let lend : Method :=
    { name := "Lend"
      args :=
        [⟨"book", "(sa{sv})", .input, none⟩, ⟨"until", "t", .output, none⟩, ⟨"notes", "a(ua{is})", .output, none⟩] }
  let missing : Signal := { name := "Missing", args := [⟨"books", "a{u(sas)}", .input, none⟩] }
  { name := "Shelf", path := "/library/shelf"
    interface :=
      { name := "org.library.Shelf", methods := [lend], signals := [missing]
        properties := [⟨"owners", "a{sa{us}}", .readWrite⟩] } }

theorem shelf_files_balanced : (∀ text ∈ shelf.path :: shelf.names ++ ["org.library"], Braceless text) ∧
    ∃ files, shelf.emit { busName := some "org.library" } = .ok files ∧ files.length = 7 ∧
      ∀ file ∈ files, Balanced file.contents := by
  have plain : ∀ text ∈ shelf.path :: shelf.names ++ ["org.library"], Braceless text := by decide
  obtain ⟨files, emitted⟩ : ∃ files, shelf.emit { busName := some "org.library" } = .ok files := ⟨_, rfl⟩
  refine ⟨plain, files, emitted, ?_, files_balanced shelf { busName := some "org.library" } files plain emitted⟩
  cases emitted
  rfl

end BusStub
