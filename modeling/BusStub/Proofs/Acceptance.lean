import BusStub.Proofs.DeclaredRecords
import BusStub.Proofs.Refusals

/-! Which objects stubs are generated for: exactly those whose signatures can be read, whose values of one name
agree on the struct that would keep them, and whose members and values have names of their own. -/

namespace BusStub

/-- What an interface must be like to be generated. -/
structure Interface.Generatable (interface : Interface) : Prop where
  signatures : ∀ value ∈ interface.values, ∃ type, BusType.parse value.2.signature = .ok type
  types : ∀ first ∈ interface.values, ∀ second ∈ interface.values, first.2.name = second.2.name →
    ∀ type other, BusType.parse first.2.signature = .ok type → BusType.parse second.2.signature = .ok other →
      type.peel.1.Alike other.peel.1 → type.peel.1 = other.peel.1
  members : ∀ kind, ((interface.owners kind).map Prod.snd).Nodup
  names : ∀ value ∈ interface.values, ¬ TakenName value.2.name

theorem StubError.Faults.not_generatable {interface : Interface} {error : StubError} (faults : error.Faults interface) :
    ¬ interface.Generatable := by
  intro generatable
  cases error with
  | signature member arg cause =>
    obtain ⟨value, inside, -, -, unread⟩ := faults
    obtain ⟨type, read⟩ := generatable.signatures value inside
    rw [unread] at read
    cases read
  | collision name existing conflicting =>
    obtain ⟨first, second, type, other, listed, clash, -, -, -⟩ := faults
    obtain ⟨one, inside, rfl⟩ := List.mem_map.mp (listed.subset List.mem_cons_self)
    obtain ⟨two, inside', rfl⟩ := List.mem_map.mp (listed.subset (List.mem_cons_of_mem _ List.mem_cons_self))
    apply clash.different
    exact generatable.types one inside two inside' clash.name type other clash.parsed clash.parsed' clash.alike
  | duplicate kind name first second =>
    have twice : [name, name].Sublist ((interface.owners kind).map Prod.snd) := faults.map Prod.snd
    exact List.nodup_iff_sublist.mp (generatable.members kind) name twice
  | reserved member name =>
    obtain ⟨value, inside, -, rfl, taken⟩ := faults
    exact generatable.names value inside taken

theorem BusType.Alike.recordName {type other : BusType} (alike : type.Alike other) (name : String) :
    ∃ record, (Slot.of type).recordName? name = some record ∧ (Slot.of other).recordName? name = some record := by
  cases alike with
  | structs => exact ⟨_, rfl, rfl⟩
  | dicts => exact ⟨_, rfl, rfl⟩

theorem Plan.Lists.owners_nodup {node : ObjectNode} {registry : Registry} {busName : Option String} {plan : Plan}
    (lists : plan.Lists node registry busName (node.interface.concrete.flatMap (Interface.among Interface.methods))
      (node.interface.concrete.flatMap (Interface.among Interface.signals))
      (node.interface.concrete.flatMap (Interface.among Interface.properties))) (kind : MemberKind) :
    ((node.interface.owners kind).map Prod.snd).Nodup := by
  cases kind with
  | method =>
    have same := congrArg (List.map Prod.snd) lists.methodOwners
    simp only [Interface.among, List.map_flatMap, List.map_map, Function.comp_def] at same
    simpa [Interface.owners, Interface.memberNames, List.map_flatMap, Function.comp_def, ← same] using lists.methodNames
  | signal =>
    have same := congrArg (List.map Prod.snd) lists.signalOwners
    simp only [Interface.among, List.map_flatMap, List.map_map, Function.comp_def] at same
    simpa [Interface.owners, Interface.memberNames, List.map_flatMap, Function.comp_def, ← same] using lists.signalNames
  | property =>
    have same := congrArg (List.map Prod.snd) lists.propertyOwners
    simp only [Interface.among, List.map_flatMap, List.map_map, Function.comp_def] at same
    simpa [Interface.owners, Interface.memberNames, List.map_flatMap, Function.comp_def, ← same]
      using lists.propertyNames

/-- An object for which there are files has none of the faults. -/
theorem ObjectNode.generatable {node : ObjectNode} {options : StubOptions} {files : List OutputFile}
    (listed : node.interface.Listed) (emitted : node.emit options = .ok files) : node.interface.Generatable := by
  obtain ⟨plan, planned, -⟩ := ObjectNode.emit_spec emitted
  obtain ⟨registry, discovered, made⟩ := ObjectNode.plan_spec planned
  have describes := Registry.discover_describes discovered
  have values := Plan.make_values listed made
  have typed (value : String × Arg) (inside : value ∈ node.interface.values) :
      ∃ typed ∈ plan.values, typed.Of value.2 :=
    exists_of_forall₂ values.flip (List.mem_map_of_mem inside)
  constructor
  · intro value inside
    obtain ⟨known, -, read⟩ := typed value inside
    exact ⟨known.type, read.type⟩
  · intro first one second two name type other parsed parsed' alike
    obtain ⟨record, kept, kept'⟩ := alike.recordName first.2.name
    rw [name] at kept'
    obtain ⟨entry, declared, called, same⟩ := describes.declares (List.mem_map_of_mem one) parsed kept
    obtain ⟨entry', declared', called', same'⟩ := describes.declares (List.mem_map_of_mem two) parsed' kept'
    -- Both are declared under one name, and no name is declared twice.
    have once := List.inj_on_of_nodup_map (Registry.declarations_nodup registry) declared declared'
      (called.trans called'.symm)
    rw [← same, ← same', once]
  · exact (Plan.make_lists made).owners_nodup
  · intro value inside taken
    obtain ⟨known, member, read⟩ := typed value inside
    have free := Plan.make_unreserved made known member
    rw [TypedArg.name, read.arg, isReserved_iff.mpr taken] at free
    cases free

/-- Files are generated for exactly the objects that can be generated, whatever the options; for any other object
there is an error instead, and the object has the fault that the error reports. -/
theorem emit_iff_generatable (node : ObjectNode) (options : StubOptions) (loaded : node.interface.Loaded) :
    ((∃ files, node.emit options = .ok files) ↔ node.interface.Generatable) ∧
      ∀ error, node.emit options = .error error → error.Faults node.interface := by
  have faults (error : StubError) (failed : node.emit options = .error error) : error.Faults node.interface :=
    ObjectNode.emit_error loaded.listed failed
  refine ⟨⟨?_, ?_⟩, faults⟩
  · rintro ⟨files, emitted⟩
    exact ObjectNode.generatable loaded.listed emitted
  · intro generatable
    cases emitted : node.emit options with
    | ok files => exact ⟨files, rfl⟩
    | error error => exact absurd generatable (faults error emitted).not_generatable

/-- An object that can be drawn on: a mark is a list of points for one interface, and of the given type for the
other. -/
def board (signature : String) : ObjectNode :=
  let lines : Interface :=
    { name := "org.board.Lines", methods := [{ name := "Draw", args := [⟨"mark", "aa(dd)", .input, none⟩] }] }
  let notes : Interface :=
    { name := "org.board.Notes", signals := [{ name := "Draw", args := [⟨"mark", signature, .input, none⟩] }] }
  { name := "Board", path := "/board"
    interface :=
      { name := "Lines__Notes", methods := lines.methods, signals := notes.signals, parents := [lines, notes] } }

theorem board_loaded {signature : String}
    (merged : Interface.merged (board signature).interface.parents = (board signature).interface) :
    (board signature).interface.Loaded := by
  rw [← merged]
  exact .merged (by simp [board, Interface.isDerived])

/-- A dictionary called like the struct below an array is no clash; another struct is. -/
theorem board_generatable :
    (board "a{sd}").interface.Loaded ∧ (board "a{sd}").interface.Generatable ∧
    (board "(ds)").interface.Loaded ∧ ¬ (board "(ds)").interface.Generatable ∧
    (board "(ds)").emit {} = .error (.collision "markStruct" "(dd)" "(ds)") ∧
    (StubError.collision "markStruct" "(dd)" "(ds)").Faults (board "(ds)").interface := by
  have lists : (board "a{sd}").interface.Loaded := board_loaded (Interface.merged_of_sorted (by decide))
  have pairs : (board "(ds)").interface.Loaded := board_loaded (Interface.merged_of_sorted (by decide))
  have accepted := (emit_iff_generatable (board "a{sd}") {} lists).1
  have refused := emit_iff_generatable (board "(ds)") {} pairs
  have failed : (board "(ds)").emit {} = .error (.collision "markStruct" "(dd)" "(ds)") := rfl
  refine ⟨lists, accepted.mp ⟨_, rfl⟩, pairs, ?_, failed, refused.2 _ failed⟩
  intro generatable
  obtain ⟨files, emitted⟩ := refused.1.mpr generatable
  rw [failed] at emitted
  cases emitted

end BusStub
