import BusStub.Proofs.Accesses
import BusStub.Proofs.PlanMembers

/-! The structs at the top of the types header. Client and service name a struct after the argument it keeps
and the registry names the ones it declares by a rule of its own; every struct that is named is declared,
once, with the fields of the type that it keeps. -/

namespace BusStub
open Code

namespace Code

def Item.record? : Item → Option (String × List Field)
  | .record name fields => some (name, fields)
  | _ => none

/-- The structs defined at the top of a file. -/
def records (items : List Item) : List (String × List Field) :=
  items.filterMap Item.record?

theorem records_append (first second : List Item) : records (first ++ second) = records first ++ records second :=
  List.filterMap_append

end Code

def Composite.record? (entry : Composite) : Option (String × List Field) :=
  (Slot.of entry.declared).record?.map (entry.typeName, ·)

theorem Composite.records_items (entry : Composite) : records entry.items = entry.record?.toList := by
  unfold Composite.items Composite.record?
  split
  next none => simp [records, none]
  next fields some => simp [records, List.filterMap_cons, Item.record?, some]

theorem Registry.records_items (registry : Registry) :
    records registry.items = registry.declarations.filterMap Composite.record? := by
  unfold Registry.items
  induction registry.declarations with
  | nil => rfl
  | cons entry rest ih =>
    rw [List.flatMap_cons, records_append, ih, Composite.records_items, List.filterMap_cons]
    cases entry.record? <;> rfl

theorem TypesHeader.records_items (plan : Plan) :
    records (TypesHeader.items plan) = plan.registry.declarations.filterMap Composite.record? := by
  have constants : records (TypesHeader.constants plan) = [] := by
    simp [records, TypesHeader.constants, TypesHeader.constant, Item.record?, List.filterMap_map, Function.comp_def]
  rw [← Registry.records_items]
  simp only [TypesHeader.items, records_append, constants]
  simp [records, List.filterMap_cons, Item.record?, guardOpening, guardClosing, TypesHeader.includes, Describe.items]

/-- Where no two composites share a name, a struct is found under its name and nothing else is. -/
theorem Composite.filter_records {entries : List Composite} {entry : Composite} {fields : List Field}
    (nodup : (entries.map typeName).Nodup) (member : entry ∈ entries)
    (declares : (Slot.of entry.declared).record? = some fields) :
    (entries.filterMap record?).filter (·.1 = entry.typeName) = [(entry.typeName, fields)] := by
  have same : (entries.filterMap record?).filter (·.1 = entry.typeName) =
      (entries.filter (·.typeName = entry.typeName)).filterMap record? := by
    rw [List.filter_filterMap, List.filterMap_filter]
    congr 1
    funext other
    unfold record?
    cases (Slot.of other.declared).record? <;> simp [Option.filter]
  rw [same, List.filter_of_nodup_map typeName entry nodup member]
  simp [record?, declares]

namespace Slot

/-- A value called `name` is kept in structs called `record` everywhere: in its variable, in parameters, and in
all code that moves it, which goes through the given fields only. -/
structure KeptIn (slot : Slot) (name record : String) (fields : List Field) : Prop where
  named : slot.elementType [] name = .composite [record]
  locals : (slot.locals name).head? = some ⟨slot.recordType record, name⟩
  params : ∀ direction, (slot.params name direction).head?.map (·.type.name) = some (.composite [record])
  served : slot.Served [.definition record fields none] record

/-- A named struct keeps what is below the arrays of a type. -/
theorem record_peel {type : BusType} {name record : String} (named : (Slot.of type).recordName? name = some record) :
    (Slot.of type.peel.1).recordName? name = some record ∧
    ∃ fields, (Slot.of type.peel.1).record? = some fields ∧ (Slot.of type).parts? = some fields := by
  cases type with
  | basic | variant => cases named
  | struct | dict => exact ⟨named, _, rfl, rfl⟩
  | array element =>
    cases element with
    | struct => exact ⟨named, _, rfl, rfl⟩
    | basic | variant | array | dict => cases named

theorem keptIn {type : BusType} {name record : String} {fields : List Field}
    (named : (Slot.of type).recordName? name = some record) (parts : (Slot.of type).parts? = some fields) :
    (Slot.of type).KeptIn name record fields := by
  have element : (Slot.of type).elementType [] name = .composite [record] := by
    cases shape : Slot.of type <;> simp [shape, recordName?, elementType] at named ⊢ <;> exact named
  refine ⟨element, ?_, ?_, Slot.served type parts record⟩
  · cases counted : (Slot.of type).isCounted <;> simp [locals, counted, element, recordType, CType.pointer]
  · intro direction
    cases counted : (Slot.of type).isCounted <;> cases direction <;>
      simp [params, counted, element, CType.pointer, CType.constPointer]

end Slot

theorem ObjectNode.plan_spec {node : ObjectNode} {options : StubOptions} {plan : Plan}
    (planned : node.plan options = .ok plan) :
    ∃ registry, Registry.discover node.interface = .ok registry ∧
      Plan.make node registry options.busName = .ok plan :=
  bind_ok planned

theorem ObjectNode.emit_spec {node : ObjectNode} {options : StubOptions} {files : List OutputFile}
    (emitted : node.emit options = .ok files) :
    ∃ plan, node.plan options = .ok plan ∧ files = (plan.files options.service).map StubFile.print := by
  obtain ⟨plan, planned, printed⟩ := bind_ok emitted
  cases printed
  exact ⟨plan, planned, rfl⟩

/-- In the files of an object, every struct that keeps an argument or a property is defined at the top of the
types header, once, with the fields that its own type needs, also where arguments share the name. -/
theorem records_declared_once (node : ObjectNode) (options : StubOptions) (files : List OutputFile)
    (loaded : node.interface.Loaded) (emitted : node.emit options = .ok files) :
    ∃ plan, node.plan options = .ok plan ∧ files = (plan.files options.service).map StubFile.print ∧
      ⟨plan.typesHeader, false, TypesHeader.items plan⟩ ∈ plan.files options.service ∧
      (plan.registry.declarations.map Composite.typeName).Nodup ∧
      plan.values.map TypedArg.arg = node.interface.values.map Prod.snd ∧
      ∀ value ∈ plan.values, BusType.parse value.arg.signature = .ok value.type ∧
        ∀ record, value.slot.recordName? value.name = some record →
          ∃ fields, (Slot.of value.type.peel.1).record? = some fields ∧
            (records (TypesHeader.items plan)).filter (·.1 = record) = [(record, fields)] ∧
            value.slot.KeptIn value.name record fields := by
  obtain ⟨plan, planned, printed⟩ := ObjectNode.emit_spec emitted
  obtain ⟨registry, discovered, made⟩ := ObjectNode.plan_spec planned
  have describes := Registry.discover_describes discovered
  have values := Plan.make_values loaded.listed made
  obtain rfl := (Plan.make_lists made).registry
  refine ⟨plan, planned, printed, by simp [Plan.files, Plan.clientFiles], Registry.declarations_nodup _, ?_, ?_⟩
  · have same := map_eq_of_forall₂ (f := id) (g := TypedArg.arg) values fun _ _ typed => typed.arg.symm
    simpa using same.symm
  · intro value member
    obtain ⟨arg, seen, typed⟩ := exists_of_forall₂ values member
    obtain rfl := typed.arg
    refine ⟨typed.type, fun record named => ?_⟩
    obtain ⟨below, fields, declares, parts⟩ := Slot.record_peel named
    obtain ⟨entry, listed, rfl, declared⟩ := describes.declares seen typed.type below
    refine ⟨fields, declares, ?_, Slot.keptIn named parts⟩
    rw [TypesHeader.records_items]
    rw [← declared] at declares
    exact Composite.filter_records (Registry.declarations_nodup _) listed declares

/-- An object with two interfaces, in which two values share a name. -/
def shapes : ObjectNode :=
  let all : Method := { name := "all", args := [{ name := "point", signature := "a(dd)", direction := .output }] }
  let add : Method := { name := "add", args := [{ name := "point", signature := "(dd)" }] }
  let colors : Property := ⟨"colors", "a{s(yyy)}", .read⟩
  let lines : Interface := { name := "org.shapes.Lines", methods := [all] }
  let points : Interface := { name := "org.shapes.Points", methods := [add], properties := [colors] }
  { name := "Shapes", path := "/shapes"
    interface := { name := "Lines__Points", methods := [all, add], properties := [colors], parents := [lines, points] } }

theorem shapes_loaded : shapes.interface.Loaded := by
  have sorted : Interface.merged shapes.interface.parents = shapes.interface :=
    Interface.merged_of_sorted (by decide)
  rw [← sorted]
  exact .merged (by decide)

theorem shapes_records : shapes.interface.Loaded ∧
    ∃ files plan, shapes.emit {} = .ok files ∧ shapes.plan {} = .ok plan ∧
    plan.values.map (fun value => value.slot.recordName? value.name) =
      [some "pointStruct", some "pointStruct", some "colorsDictEntry"] ∧
    ∀ value ∈ plan.values, ∀ record, value.slot.recordName? value.name = some record →
      ∃ fields, (Slot.of value.type.peel.1).record? = some fields ∧
        (records (TypesHeader.items plan)).filter (·.1 = record) = [(record, fields)] := by
  obtain ⟨files, emitted⟩ : ∃ files, shapes.emit {} = .ok files := ⟨_, rfl⟩
  obtain ⟨plan, planned, -, -, -, -, kept⟩ := records_declared_once shapes {} files shapes_loaded emitted
  refine ⟨shapes_loaded, files, plan, emitted, planned, ?_, ?_⟩
  · cases planned
    decide
  · intro value member record named
    obtain ⟨fields, declares, once, -⟩ := (kept value member).2 record named
    exact ⟨fields, declares, once⟩

end BusStub
