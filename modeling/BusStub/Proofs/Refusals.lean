import BusStub.Proofs.Declarations
import BusStub.Proofs.PlanMembers

/-! Why no stubs are generated. Registry and plan stop at the first value or member that they refuse. What they
hold by then are the values and members before it, so every error reports a fault that the interface really has. -/

namespace BusStub

/-- Values of these types would be kept in structs of one kind, so of one name if the values share theirs. -/
inductive BusType.Alike : BusType → BusType → Prop where
  | structs (members others : List BusType) : Alike (.struct members) (.struct others)
  | dicts (key : Scalar) (value : BusType) (key' : Scalar) (value' : BusType) :
      Alike (.dict key value) (.dict key' value')

/-- Names that the code around arguments and properties declares, among them `i` with a number. -/
def TakenName (name : String) : Prop :=
  name ∈ reservedNames ∨ ∃ digits, digits ≠ [] ∧ (∀ c ∈ digits, c.isDigit) ∧ name.toList = 'i' :: digits

theorem isReserved_iff {name : String} : isReserved name = true ↔ TakenName name := by
  have counter : isCounterName name = true ↔
      ∃ digits, digits ≠ [] ∧ (∀ c ∈ digits, c.isDigit) ∧ name.toList = 'i' :: digits := by
    unfold isCounterName
    split
    next digits shape => simp [shape]
    next other =>
      constructor
      · intro impossible
        cases impossible
      · rintro ⟨digits, -, -, shape⟩
        exact absurd shape (other digits)
  rw [isReserved, Bool.or_eq_true, counter, List.contains_iff_mem, TakenName]

namespace Interface

def memberNames (part : Interface) : MemberKind → List String
  | .method => part.methods.map Method.name
  | .signal => part.signals.map Signal.name
  | .property => part.properties.map Property.name

/-- Every member of a kind in the concrete interfaces: which interface declares it, and its name. -/
def owners (interface : Interface) (kind : MemberKind) : List (String × String) :=
  interface.concrete.flatMap fun part => (part.memberNames kind).map (part.name, ·)

/-- The members before one of a concrete interface, and that one, come first. -/
theorem owners_first {interface part : Interface} {before after : List Interface} {kind : MemberKind}
    {done rest : List String} {name : String} (concrete : interface.concrete = before ++ part :: after)
    (members : part.memberNames kind = done ++ name :: rest) :
    before.flatMap (fun other => (other.memberNames kind).map (other.name, ·)) ++ done.map (part.name, ·) ++
      [(part.name, name)] <+: interface.owners kind :=
  ⟨rest.map (part.name, ·) ++ after.flatMap fun other => (other.memberNames kind).map (other.name, ·),
    by simp [owners, concrete, members]⟩

namespace Listed

variable {interface part : Interface}

theorem method_values (listed : interface.Listed) (concrete : part ∈ interface.concrete) {method : Method}
    (member : method ∈ part.methods) : method.args.map (MemberKind.method.label method.name, ·) ⊆ interface.values := by
  intro value inside
  have known : method ∈ interface.methods := by
    rw [listed.methods]
    exact List.mem_flatMap.mpr ⟨part, concrete, member⟩
  exact List.mem_append_left _ (List.mem_append_left _ (List.mem_flatMap.mpr ⟨method, known, inside⟩))

theorem signal_values (listed : interface.Listed) (concrete : part ∈ interface.concrete) {signal : Signal}
    (member : signal ∈ part.signals) : signal.args.map (MemberKind.signal.label signal.name, ·) ⊆ interface.values := by
  intro value inside
  have known : signal ∈ interface.signals := by
    rw [listed.signals]
    exact List.mem_flatMap.mpr ⟨part, concrete, member⟩
  exact List.mem_append_left _ (List.mem_append_right _ (List.mem_flatMap.mpr ⟨signal, known, inside⟩))

theorem property_value (listed : interface.Listed) (concrete : part ∈ interface.concrete) {property : Property}
    (member : property ∈ part.properties) :
    [(MemberKind.property.label property.name, property.arg)] ⊆ interface.values := by
  intro value inside
  obtain rfl := List.mem_singleton.mp inside
  have known : property ∈ interface.properties := by
    rw [listed.properties]
    exact List.mem_flatMap.mpr ⟨part, concrete, member⟩
  exact List.mem_append_right _ (List.mem_map_of_mem known)

end Listed
end Interface

/-- Two values of one name need different structs of one name. -/
structure Clash (first second : Arg) (type other : BusType) : Prop where
  name : first.name = second.name
  parsed : BusType.parse first.signature = .ok type
  parsed' : BusType.parse second.signature = .ok other
  alike : type.peel.1.Alike other.peel.1
  different : type.peel.1 ≠ other.peel.1

/-- What an error reports is a fault of the interface. -/
def StubError.Faults (interface : Interface) : StubError → Prop
  | .signature member arg cause =>
    ∃ value ∈ interface.values, value.1 = member ∧ value.2.name = arg ∧
      BusType.parse value.2.signature = .error cause
  | .collision name existing conflicting =>
    ∃ first second type other, [first, second].Sublist (interface.values.map Prod.snd) ∧
      Clash first second type other ∧ (Slot.of type.peel.1).recordName? first.name = some name ∧
      type.peel.1.text = existing ∧ other.peel.1.text = conflicting
  | .duplicate kind name first second => [(first, name), (second, name)].Sublist (interface.owners kind)
  | .reserved member name =>
    ∃ value ∈ interface.values, value.1 = member ∧ value.2.name = name ∧ TakenName name

theorem Arg.parse_error {arg : Arg} {member : String} {error : StubError} (failed : arg.parse member = .error error) :
    ∃ cause, BusType.parse arg.signature = .error cause ∧ error = .signature member arg.name cause := by
  unfold Arg.parse at failed
  split at failed
  next => cases failed
  next cause unread =>
    cases failed
    exact ⟨cause, unread, rfl⟩

theorem BusType.alike_of_recordName {type other : BusType} {name name' record : String}
    (one : (Slot.of type.peel.1).recordName? name = some record)
    (two : (Slot.of other.peel.1).recordName? name' = some record) : type.peel.1.Alike other.peel.1 := by
  cases first : type.peel.1 with
  | array element => exact absurd first (peel_ne_array element type)
  | basic | variant =>
    rw [first] at one
    cases one
  | struct members =>
    rw [first] at one
    cases second : other.peel.1 with
    | array element => exact absurd second (peel_ne_array element other)
    | basic | variant =>
      rw [second] at two
      cases two
    | struct others => exact .structs members others
    | dict key value =>
      rw [second] at two
      exact absurd (Option.some.inj (one.trans two.symm)) (struct_ne_entry name name')
  | dict key value =>
    rw [first] at one
    cases second : other.peel.1 with
    | array element => exact absurd second (peel_ne_array element other)
    | basic | variant =>
      rw [second] at two
      cases two
    | struct others =>
      rw [second] at two
      exact absurd (Option.some.inj (two.trans one.symm)) (struct_ne_entry name' name)
    | dict key' value' => exact .dicts key value key' value'

theorem Registry.insert_error {registry : Registry} {entry : Composite} {text : String} {error : StubError}
    (failed : registry.insert entry text = .error error) :
    ∃ existing, registry.names.lookup entry.typeName = some existing ∧ existing ≠ text ∧
      error = .collision entry.typeName existing text := by
  simp only [Registry.insert] at failed
  split at failed
  · cases failed
  · split at failed
    next existing stands =>
      split at failed
      · cases failed
      next different =>
        cases failed
        exact ⟨existing, stands, different, rfl⟩
    next => cases failed

/-- A value is refused for its signature, or for the struct that an earlier value has under the same name. -/
theorem Registry.Describes.refused {seen : List Arg} {registry : Registry} {value : String × Arg} {error : StubError}
    (describes : registry.Describes seen) (failed : registry.consider value = .error error) :
    (∃ cause, BusType.parse value.2.signature = .error cause ∧ error = .signature value.1 value.2.name cause) ∨
    ∃ first ∈ seen, ∃ type other record, Clash first value.2 type other ∧
      (Slot.of type.peel.1).recordName? first.name = some record ∧
      error = .collision record type.peel.1.text other.peel.1.text := by
  rcases bind_error failed with unread | ⟨other, read, failed⟩
  · exact .inl (Arg.parse_error unread)
  have parsed := Arg.parse_ok read
  split at failed
  · cases failed
  next entry text found =>
    obtain ⟨existing, stands, different, rfl⟩ := insert_error failed
    obtain ⟨first, before, theirs, brought, same⟩ := describes.named _ _ stands
    obtain ⟨type, read, earlier⟩ := Composite.brought?_spec brought
    have later := Composite.ofArg?_spec parsed found
    have one := earlier.typeName
    have two := later.typeName
    rw [earlier.declared, same] at one
    rw [later.declared] at two
    have oldText : existing = type.peel.1.text := by rw [earlier.text, earlier.declared]
    have newText : text = other.peel.1.text := by rw [later.text, later.declared]
    refine .inr ⟨first, before, type, other, entry.typeName, ?_, one, by rw [oldText, newText]⟩
    refine ⟨Slot.recordName?_inj one two, read, parsed, BusType.alike_of_recordName one two, ?_⟩
    intro equal
    exact different (by rw [oldText, newText, equal])

theorem Registry.discover_error {interface : Interface} {error : StubError}
    (failed : discover interface = .error error) : error.Faults interface := by
  obtain ⟨before, value, after, registry, values, scanned, failed⟩ := foldlM_error failed
  rcases (scanned_describes scanned).refused failed with
    ⟨cause, unread, rfl⟩ | ⟨first, seen, type, other, record, clash, named, rfl⟩
  · exact ⟨value, by simp [values], rfl, rfl, unread⟩
  · refine ⟨first, value.2, type, other, ?_, clash, named, rfl, rfl⟩
    rw [values, List.map_append, List.map_cons]
    exact (List.singleton_sublist.mpr seen).append ((List.nil_sublist _).cons_cons _)

namespace Plan

/-- A value is refused for its name or for its signature. -/
def Denies (value : String × Arg) (error : StubError) : Prop :=
  (error = .reserved value.1 value.2.name ∧ TakenName value.2.name) ∨
  ∃ cause, BusType.parse value.2.signature = .error cause ∧ error = .signature value.1 value.2.name cause

/-- A member is refused for its name, which an earlier member of its kind has, or for one of its values. -/
def Refuses (earlier : List (String × String)) (kind : MemberKind) (owner name : String) (values : List (String × Arg))
    (error : StubError) : Prop :=
  (∃ first, (first, name) ∈ earlier ∧ error = .duplicate kind name first owner) ∨ ∃ value ∈ values, Denies value error

theorem typeArg_error {member : String} {arg : Arg} {error : StubError} (failed : typeArg member arg = .error error) :
    Denies (member, arg) error := by
  rcases bind_error failed with reserved | ⟨_, -, failed⟩
  · unfold checkName at reserved
    split at reserved
    next taken =>
      cases reserved
      exact .inl ⟨rfl, isReserved_iff.mp taken⟩
    next => cases reserved
  · rcases bind_error failed with unread | ⟨_, -, failed⟩
    · exact .inr (Arg.parse_error unread)
    · cases failed

theorem typeArgs_error {member : String} {args : List Arg} {error : StubError}
    (failed : args.mapM (typeArg member) = .error error) : ∃ value ∈ args.map (member, ·), Denies value error := by
  obtain ⟨arg, inside, untyped⟩ := mapM_error failed
  exact ⟨_, List.mem_map_of_mem inside, typeArg_error untyped⟩

theorem checkOwner_error {α : Type} {members : List α} {name owner : α → String} {kind : MemberKind}
    {called interface : String} {error : StubError}
    (failed : checkOwner kind called ((members.find? (name · = called)).map owner) interface = .error error) :
    ∃ first, (first, called) ∈ members.map (fun member => (owner member, name member)) ∧
      error = .duplicate kind called first interface := by
  cases found : members.find? (name · = called) with
  | none => simp [found, checkOwner] at failed
  | some first =>
    simp only [found, Option.map_some, checkOwner] at failed
    cases failed
    have same : name first = called := by simpa using List.find?_some found
    exact ⟨owner first, List.mem_map.mpr ⟨first, List.mem_of_find?_eq_some found, by rw [same]⟩, rfl⟩

section
variable {part : Interface} {plan : Plan} {error : StubError}

theorem addMethod_error {method : Method} (failed : plan.addMethod part method = .error error) :
    Refuses (plan.methods.map fun member => (member.interface, member.name)) .method part.name method.name
      (method.args.map (MemberKind.method.label method.name, ·)) error := by
  rcases bind_error failed with owned | ⟨_, -, failed⟩
  · exact .inl (checkOwner_error owned)
  · rcases bind_error failed with untyped | ⟨_, -, failed⟩
    · exact .inr (typeArgs_error untyped)
    · cases failed

theorem addSignal_error {signal : Signal} (failed : plan.addSignal part signal = .error error) :
    Refuses (plan.signals.map fun member => (member.interface, member.name)) .signal part.name signal.name
      (signal.args.map (MemberKind.signal.label signal.name, ·)) error := by
  rcases bind_error failed with owned | ⟨_, -, failed⟩
  · exact .inl (checkOwner_error owned)
  · rcases bind_error failed with untyped | ⟨_, -, failed⟩
    · exact .inr (typeArgs_error untyped)
    · cases failed

theorem addProperty_error {property : Property} (failed : plan.addProperty part property = .error error) :
    Refuses (plan.properties.map fun member => (member.interface, member.name)) .property part.name property.name
      [(MemberKind.property.label property.name, property.arg)] error := by
  rcases bind_error failed with owned | ⟨_, -, failed⟩
  · exact .inl (checkOwner_error owned)
  · rcases bind_error failed with untyped | ⟨_, -, failed⟩
    · exact .inr ⟨_, List.mem_singleton_self _, typeArg_error untyped⟩
    · cases failed

theorem Refuses.faults {interface : Interface} {earlier : List (String × String)} {kind : MemberKind}
    {owner name : String} {values : List (String × Arg)} (refuses : Refuses earlier kind owner name values error)
    (owners : earlier ++ [(owner, name)] <+: interface.owners kind) (inside : values ⊆ interface.values) :
    error.Faults interface := by
  rcases refuses with ⟨first, before, rfl⟩ | ⟨value, member, ⟨rfl, taken⟩ | ⟨cause, unread, rfl⟩⟩
  · have twice := (List.singleton_sublist.mpr before).append (List.Sublist.refl [(owner, name)])
    exact twice.trans owners.sublist
  · exact ⟨value, inside member, rfl, rfl, taken⟩
  · exact ⟨value, inside member, rfl, rfl, unread⟩

end

section
variable {node : ObjectNode} {registry : Registry} {busName : Option String} {methods : List (Interface × Method)}
variable {signals : List (Interface × Signal)} {properties : List (Interface × Property)} {plan : Plan}

theorem Lists.methodOwners (lists : Lists node registry busName methods signals properties plan) :
    plan.methods.map (fun member => (member.interface, member.name)) =
      methods.map fun declared => (declared.1.name, declared.2.name) :=
  (map_eq_of_forall₂ lists.methods fun _ _ typed => by rw [typed.interface, TypedMethod.name, typed.method]).symm

theorem Lists.signalOwners (lists : Lists node registry busName methods signals properties plan) :
    plan.signals.map (fun member => (member.interface, member.name)) =
      signals.map fun declared => (declared.1.name, declared.2.name) :=
  (map_eq_of_forall₂ lists.signals fun _ _ typed => by rw [typed.interface, TypedSignal.name, typed.signal]).symm

theorem Lists.propertyOwners (lists : Lists node registry busName methods signals properties plan) :
    plan.properties.map (fun member => (member.interface, member.name)) =
      properties.map fun declared => (declared.1.name, declared.2.name) :=
  (map_eq_of_forall₂ lists.properties fun _ _ typed => by
    rw [typed.interface, TypedProperty.name, typed.property]).symm

end

section
variable {node : ObjectNode} {registry : Registry} {busName : Option String} {before after : List Interface}
variable {part : Interface} {plan : Plan} {error : StubError}

/-- What stops a concrete interface, after those before it, is a fault of the whole. -/
theorem addInterface_error {interface : Interface} (listed : interface.Listed)
    (concrete : interface.concrete = before ++ part :: after)
    (added : before.foldlM addInterface { node, registry, busName } = .ok plan)
    (failed : plan.addInterface part = .error error) : error.Faults interface := by
  have lists := added_lists added
  have whole : part ∈ interface.concrete := by simp [concrete]
  rcases bind_error failed with failed | ⟨first, methodRun, failed⟩
  · obtain ⟨done, method, rest, state, members, run, failed⟩ := foldlM_error failed
    refine (addMethod_error failed).faults ?_ (listed.method_values whole (by simp [members]))
    have names : part.memberNames .method = done.map Method.name ++ method.name :: rest.map Method.name := by
      simp [Interface.memberNames, members]
    have first := Interface.owners_first concrete names
    rw [(lists.addMethods run).methodOwners]
    simpa [Interface.among, Interface.memberNames, List.map_flatMap, Function.comp_def] using first
  rcases bind_error failed with failed | ⟨second, signalRun, failed⟩
  · obtain ⟨done, signal, rest, state, members, run, failed⟩ := foldlM_error failed
    refine (addSignal_error failed).faults ?_ (listed.signal_values whole (by simp [members]))
    have names : part.memberNames .signal = done.map Signal.name ++ signal.name :: rest.map Signal.name := by
      simp [Interface.memberNames, members]
    have first := Interface.owners_first concrete names
    rw [((lists.addMethods methodRun).addSignals run).signalOwners]
    simpa [Interface.among, Interface.memberNames, List.map_flatMap, Function.comp_def] using first
  · obtain ⟨done, property, rest, state, members, run, failed⟩ := foldlM_error failed
    refine (addProperty_error failed).faults ?_ (listed.property_value whole (by simp [members]))
    have names : part.memberNames .property = done.map Property.name ++ property.name :: rest.map Property.name := by
      simp [Interface.memberNames, members]
    have first := Interface.owners_first concrete names
    rw [(((lists.addMethods methodRun).addSignals signalRun).addProperties run).propertyOwners]
    simpa [Interface.among, Interface.memberNames, List.map_flatMap, Function.comp_def] using first

theorem make_error (listed : node.interface.Listed) (failed : make node registry busName = .error error) :
    error.Faults node.interface := by
  obtain ⟨before, part, after, plan, concrete, added, failed⟩ := foldlM_error failed
  exact addInterface_error listed concrete added failed

end
end Plan

/-- Whatever error comes instead of files, the interface has that fault. -/
theorem ObjectNode.emit_error {node : ObjectNode} {options : StubOptions} {error : StubError}
    (listed : node.interface.Listed) (failed : node.emit options = .error error) : error.Faults node.interface := by
  rcases bind_error failed with unplanned | ⟨plan, -, failed⟩
  · rcases bind_error unplanned with undiscovered | ⟨registry, -, unmade⟩
    · exact Registry.discover_error undiscovered
    · exact Plan.make_error listed unmade
  · cases failed

end BusStub
