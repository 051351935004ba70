import BusStub.Model.Equality
import BusStub.Proofs.Acceptance
import BusStub.Proofs.LoaderHistory
import BusStub.Proofs.ObjectOrigins
import BusStub.Proofs.Routing
import Mathlib.Data.List.Dedup
import Mathlib.Data.List.Duplicate
import Mathlib.Data.List.Flatten

/-! How often an object carries an interface: as often as its node declares it. An interface that is declared again in
the same way is accepted, but within one node it is not reused: the object has it twice, and so all its members. -/

namespace BusStub

section
variable {α β : Type} [DecidableEq α] {items : List α} {f : α → List β} {b : β}

theorem duplicate_append {first second : List β} (twice : List.Duplicate b (first ++ second)) :
    List.Duplicate b first ∨ List.Duplicate b second ∨ b ∈ first ∧ b ∈ second := by
  induction first with
  | nil => exact .inr (.inl twice)
  | cons c rest ih =>
    rw [List.cons_append, List.duplicate_cons_iff] at twice
    rcases twice with ⟨rfl, again⟩ | later
    · rcases List.mem_append.mp again with again | again
      · exact .inl again.duplicate_cons_self
      · exact .inr (.inr ⟨List.mem_cons_self, again⟩)
    · rcases ih later with later | later | ⟨here, there⟩
      · exact .inl (later.duplicate_cons c)
      · exact .inr (.inl later)
      · exact .inr (.inr ⟨List.mem_cons_of_mem _ here, there⟩)

/-- What is listed twice comes from an item that is there twice, when the different items list nothing twice. -/
theorem duplicate_flatMap (twice : List.Duplicate b (items.flatMap f)) (once : (items.dedup.flatMap f).Nodup) :
    ∃ a, List.Duplicate a items ∧ b ∈ f a := by
  induction items with
  | nil => exact absurd twice (List.not_duplicate_nil b)
  | cons a rest ih =>
    by_cases again : a ∈ rest
    · rw [List.dedup_cons_of_mem again] at once
      rcases duplicate_append twice with own | later | ⟨here, -⟩
      · exact ⟨a, again.duplicate_cons_self, own.mem⟩
      · obtain ⟨other, found, listed⟩ := ih later once
        exact ⟨other, found.duplicate_cons a, listed⟩
      · exact ⟨a, again.duplicate_cons_self, here⟩
    · rw [List.dedup_cons_of_notMem again, List.flatMap_cons, List.nodup_append'] at once
      obtain ⟨single, others, apart⟩ := once
      rcases duplicate_append twice with own | later | ⟨here, there⟩
      · exact absurd single own.not_nodup
      · obtain ⟨other, found, listed⟩ := ih later others
        exact ⟨other, found.duplicate_cons a, listed⟩
      · have there : b ∈ rest.dedup.flatMap f := by
          simpa [List.mem_flatMap] using there
        exact absurd there (apart here)

/-- The items list nothing twice exactly when the different items do not, and those that are there twice are empty. -/
theorem flatMap_nodup_dedup : (items.flatMap f).Nodup ↔
    (items.dedup.flatMap f).Nodup ∧ ∀ a, List.Duplicate a items → f a = [] := by
  constructor
  · intro once
    refine ⟨once.sublist ((List.dedup_sublist items).flatMap f), ?_⟩
    intro a twice
    rw [List.eq_nil_iff_forall_not_mem]
    intro b listed
    have inside := (List.duplicate_iff_sublist.mp twice).flatMap f
    have both := (List.singleton_sublist.mpr listed).append (List.singleton_sublist.mpr listed)
    exact List.nodup_iff_sublist.mp once b (both.trans (by simpa using inside))
  · rintro ⟨once, nothing⟩
    rw [List.nodup_iff_sublist]
    intro b twice
    obtain ⟨a, again, listed⟩ := duplicate_flatMap (List.duplicate_iff_sublist.mpr twice) once
    rw [nothing a again] at listed
    cases listed

end

/-- The object with each of its interfaces attached once. -/
def ObjectNode.once (object : ObjectNode) : ObjectNode :=
  { object with interface := .merged object.interface.concrete.dedup }

namespace Interface

variable {interface : Interface}

theorem mem_values (listed : interface.Listed) {value : String × Arg} :
    value ∈ interface.values ↔ ∃ part ∈ interface.concrete, value ∈ part.values := by
  simp only [values, listed.methods, listed.signals, listed.properties, List.mem_append, List.flatMap_assoc,
    List.map_flatMap, List.mem_flatMap, exists_or, and_or_left]

theorem owners_names (interface : Interface) (kind : MemberKind) :
    (interface.owners kind).map Prod.snd = interface.concrete.flatMap (·.memberNames kind) := by
  simp [owners, List.map_flatMap, Function.comp_def]

theorem mem_owners {kind : MemberKind} {owner name : String} :
    (owner, name) ∈ interface.owners kind ↔
      ∃ part ∈ interface.concrete, part.name = owner ∧ name ∈ part.memberNames kind := by
  simp [owners, and_comm]

private theorem itself_underived (underived : interface.isDerived = false) :
    ∀ part ∈ interface.concrete, part.isDerived = false := by
  simp [concrete, underived]

theorem Loaded.concrete_underived (loaded : interface.Loaded) :
    ∀ part ∈ interface.concrete, part.isDerived = false := by
  cases loaded with
  | own underived => exact itself_underived underived
  | @merged parts underived =>
    by_cases some : parts = []
    · subst some
      exact itself_underived (by simp [isDerived, Interface.merged, sortByName])
    · intro part inside
      rw [concrete_merged some underived] at inside
      exact underived part (mem_sortByName.mp inside)

theorem concrete_ne_nil (interface : Interface) : interface.concrete ≠ [] := by
  unfold concrete
  split
  next derived => simpa [isDerived] using derived
  next => exact List.cons_ne_nil _ _

/-- Values of interfaces that can be generated, among members with names of their own. -/
theorem Generatable.of_values {other : Interface} (generatable : interface.Generatable)
    (values : other.values ⊆ interface.values) (members : ∀ kind, ((other.owners kind).map Prod.snd).Nodup) :
    other.Generatable where
  signatures value inside := generatable.signatures value (values inside)
  types first one second two := generatable.types first (values one) second (values two)
  members := members
  names value inside := generatable.names value (values inside)

end Interface

namespace ObjectNode

open Interface

variable {object : ObjectNode} {options : StubOptions}

theorem once_concrete (loaded : object.interface.Loaded) :
    object.once.interface.concrete.Perm object.interface.concrete.dedup := by
  have some : object.interface.concrete.dedup ≠ [] := by
    simpa [List.dedup_eq_nil] using object.interface.concrete_ne_nil
  rw [once, concrete_merged some fun part inside => loaded.concrete_underived part (List.mem_dedup.mp inside)]
  exact List.mergeSort_perm _ _

theorem once_listed (loaded : object.interface.Loaded) : object.once.interface.Listed :=
  (Loaded.merged fun part inside => loaded.concrete_underived part (List.mem_dedup.mp inside)).listed

theorem mem_once (loaded : object.interface.Loaded) {part : Interface} :
    part ∈ object.once.interface.concrete ↔ part ∈ object.interface.concrete :=
  (once_concrete loaded).mem_iff.trans List.mem_dedup

theorem once_values (loaded : object.interface.Loaded) {value : String × Arg} :
    value ∈ object.once.interface.values ↔ value ∈ object.interface.values := by
  simp only [mem_values (once_listed loaded), mem_values loaded.listed, mem_once loaded]

theorem once_members (loaded : object.interface.Loaded) (kind : MemberKind) :
    ((object.once.interface.owners kind).map Prod.snd).Nodup ↔
      (object.interface.concrete.dedup.flatMap (·.memberNames kind)).Nodup := by
  rw [owners_names]
  exact ((once_concrete loaded).flatMap_right _).nodup_iff

/-- It makes a difference to attach interfaces once when they have members. -/
theorem generatable_iff (loaded : object.interface.Loaded) : object.interface.Generatable ↔
    object.once.interface.Generatable ∧
      ∀ part, List.Duplicate part object.interface.concrete → ∀ kind, part.memberNames kind = [] := by
  have members (kind : MemberKind) : ((object.interface.owners kind).map Prod.snd).Nodup ↔
      ((object.once.interface.owners kind).map Prod.snd).Nodup ∧
        ∀ part, List.Duplicate part object.interface.concrete → part.memberNames kind = [] := by
    rw [once_members loaded, owners_names]
    exact flatMap_nodup_dedup
  constructor
  · intro generatable
    have apart (kind : MemberKind) := (members kind).mp (generatable.members kind)
    refine ⟨generatable.of_values (fun _ => (once_values loaded).mp) fun kind => (apart kind).1, ?_⟩
    exact fun part twice kind => (apart kind).2 part twice
  · rintro ⟨generatable, nothing⟩
    apply generatable.of_values fun _ => (once_values loaded).mpr
    exact fun kind => (members kind).mpr ⟨generatable.members kind, fun part twice => nothing part twice kind⟩

/-- If an object can be generated with its interfaces attached once, it has no other faults than members of interfaces
that it has more than once. -/
theorem fault_repeats (loaded : object.interface.Loaded) {error : StubError} (faults : error.Faults object.interface)
    (generatable : object.once.interface.Generatable) :
    ∃ kind name part, List.Duplicate part object.interface.concrete ∧ name ∈ part.memberNames kind ∧
      error = .duplicate kind name part.name part.name := by
  cases error with
  | signature member arg cause =>
    obtain ⟨value, inside, -, -, unread⟩ := faults
    obtain ⟨type, read⟩ := generatable.signatures value ((once_values loaded).mpr inside)
    rw [unread] at read
    cases read
  | collision name existing conflicting =>
    obtain ⟨first, second, type, other, listed, clash, -, -, -⟩ := faults
    obtain ⟨one, inside, rfl⟩ := List.mem_map.mp (listed.subset List.mem_cons_self)
    obtain ⟨two, inside', rfl⟩ := List.mem_map.mp (listed.subset (List.mem_cons_of_mem _ List.mem_cons_self))
    have same := generatable.types one ((once_values loaded).mpr inside) two ((once_values loaded).mpr inside')
      clash.name type other clash.parsed clash.parsed' clash.alike
    exact absurd same clash.different
  | duplicate kind name first second =>
    have apart := generatable.members kind
    have twice : List.Duplicate name (object.interface.concrete.flatMap (·.memberNames kind)) := by
      rw [List.duplicate_iff_sublist, ← owners_names]
      exact faults.map Prod.snd
    obtain ⟨part, again, listed⟩ := duplicate_flatMap twice ((once_members loaded kind).mp apart)
    have owner {other : String} (declares : (other, name) ∈ object.interface.owners kind) : other = part.name := by
      obtain ⟨source, inside, called, member⟩ := mem_owners.mp declares
      have one := mem_owners.mpr ⟨source, (mem_once loaded).mpr inside, called, member⟩
      have two := mem_owners.mpr ⟨part, (mem_once loaded).mpr again.mem, rfl, listed⟩
      exact congrArg Prod.fst (List.inj_on_of_nodup_map apart one two rfl)
    obtain rfl := owner (faults.subset List.mem_cons_self)
    obtain rfl := owner (faults.subset (List.mem_cons_of_mem _ List.mem_cons_self))
    exact ⟨kind, name, part, again, listed, rfl⟩
  | reserved member name =>
    obtain ⟨value, inside, -, rfl, taken⟩ := faults
    exact absurd taken (generatable.names value ((once_values loaded).mpr inside))

theorem emits_iff (listed : object.interface.Listed) :
    (∃ files, object.emit options = .ok files) ↔ object.interface.Generatable := by
  constructor
  · rintro ⟨files, emitted⟩
    exact object.generatable listed emitted
  · intro generatable
    cases emitted : object.emit options with
    | ok files => exact ⟨files, rfl⟩
    | error error => exact absurd generatable (object.emit_error listed emitted).not_generatable

end ObjectNode

namespace Loader

open Code (entered)
open Xml (Element)

variable {read : String → Option Element} {options : LoadOptions}

/-- An object carries the interfaces that a node declares. The code that enters interfaces does so for each of them, and
files are generated unless members come from an interface that is declared more than once. -/
structure Site.Carries (site : Site) (object : ObjectNode) : Prop where
  becomes : site.Becomes object
  names : (object.interface.concrete.map Interface.name).Perm
    ((ownInterfaces site.element.children).map (·.attributeD "name"))
  distinct : (object.interface.concrete.map Interface.name).Nodup ↔
    ((ownInterfaces site.element.children).map (·.attributeD "name")).Nodup
  describes : entered (Describe.function object).body = object.interface.concrete.map Interface.name
  enters : ∀ stubs plan, object.plan stubs = .ok plan →
    entered (Service.initializeDefinition plan).body = object.interface.concrete.map Interface.name ∧
    entered (Client.setUpProxyDefinition plan).body = object.interface.concrete.map Interface.name
  emits : ∀ stubs, (∃ files, object.emit stubs = .ok files) ↔ (∃ files, object.once.emit stubs = .ok files) ∧
    ∀ part, List.Duplicate part object.interface.concrete → ∀ kind, part.memberNames kind = []
  refuses : ∀ stubs error, object.emit stubs = .error error → (∃ files, object.once.emit stubs = .ok files) →
    ∃ kind name part, List.Duplicate part object.interface.concrete ∧ name ∈ part.memberNames kind ∧
      error = .duplicate kind name part.name part.name

theorem Site.Becomes.carries {site : Site} {object : ObjectNode} (becomes : site.Becomes object)
    (offers : site.offers) : site.Carries object := by
  have underived : ∀ part ∈ (ownInterfaces site.element.children).map Interface.written, part.isDerived = false := by
    intro part inside
    obtain ⟨element, -, rfl⟩ := List.mem_map.mp inside
    rfl
  have some : (ownInterfaces site.element.children).map Interface.written ≠ [] := by
    simpa [Site.offers] using offers
  have loaded : object.interface.Loaded := by
    rw [becomes.interface]
    exact .merged underived
  have names : (object.interface.concrete.map Interface.name).Perm
      ((ownInterfaces site.element.children).map (·.attributeD "name")) := by
    have declared : (ownInterfaces site.element.children).map (·.attributeD "name") =
        ((ownInterfaces site.element.children).map Interface.written).map Interface.name := by
      rw [List.map_map]
      rfl
    rw [declared, becomes.interface, Interface.concrete_merged some underived]
    exact (List.mergeSort_perm _ _).map Interface.name
  refine ⟨becomes, names, names.nodup_iff, Describe.function_enters object, ?_, ?_, ?_⟩
  · intro stubs plan planned
    obtain ⟨registry, -, made⟩ := ObjectNode.plan_spec planned
    rw [← (Plan.make_lists made).node]
    exact ⟨Service.initialize_enters plan, Client.setUpProxy_enters plan⟩
  · intro stubs
    rw [ObjectNode.emits_iff loaded.listed, ObjectNode.emits_iff (ObjectNode.once_listed loaded)]
    exact ObjectNode.generatable_iff loaded
  · intro stubs error failed emitted
    exact ObjectNode.fault_repeats loaded (object.emit_error loaded.listed failed)
      ((ObjectNode.emits_iff (ObjectNode.once_listed loaded)).mp emitted)

/-- After any documents, loaded or not, every object carries exactly the interfaces that one of their nodes declares, as
often as it declares them. -/
theorem interfaces_as_declared {texts : List String} {object : ObjectNode}
    (loaded : object ∈ (history read options texts).objects) :
    ∃ text ∈ texts, ∃ element, read text = some element ∧
      ∃ site ∈ documentSites options element, site.Carries object := by
  obtain ⟨text, inside, element, found, site, member, offers, becomes⟩ := history_origins loaded
  exact ⟨text, inside, element, found, site, member, becomes.carries offers⟩

/-- A lamp that declares its light any number of times. -/
def lights (times : Nat) : String :=
  "<node name=\"Lamp\">" ++
  String.join (List.replicate times "<interface name=\"b.Light\"><method name=\"On\"/></interface>") ++
  "</node>"

theorem light_as_declared :
    ∃ object ∈ (history Element.ofDocument? {} [lights 1]).objects,
      object.interface.concrete.map Interface.name = ["b.Light"] ∧
      ∃ text ∈ [lights 1], ∃ element, Element.ofDocument? text = some element ∧
        ∃ site ∈ documentSites {} element, site.Carries object := by
  have carried : (history Element.ofDocument? {} [lights 1]).objects.map
      (·.interface.concrete.map Interface.name) = [["b.Light"]] := by
    decide +kernel
  obtain ⟨object, alone, names⟩ := List.map_eq_singleton_iff.mp carried
  have loaded : object ∈ (history Element.ofDocument? {} [lights 1]).objects := by
    rw [alone]
    exact List.mem_singleton_self object
  exact ⟨object, loaded, names, interfaces_as_declared loaded⟩

def lightDeclaration : Element :=
  ⟨"interface", [("name", "b.Light")], [⟨"method", [("name", "On")], []⟩]⟩

def light : Interface :=
  { name := "b.Light", methods := [{ name := "On" }] }

set_option maxRecDepth 4000 in
private theorem lights_read : Element.ofDocument? (lights 2) =
    some ⟨"node", [("name", "Lamp")], [lightDeclaration, lightDeclaration]⟩ := by
  with_unfolding_all rfl

private theorem lights_run :
    ((documentBy Element.ofDocument? {} (lights 2)).run {}).1 = .ok () ∧
      (history Element.ofDocument? {} [lights 2]).objects = [⟨"Lamp", "/Lamp", .merged [light, light]⟩] := by
  simp only [history, List.foldl_cons, List.foldl_nil, take, documentBy, lights_read]
  exact ⟨by with_unfolding_all rfl, by with_unfolding_all rfl⟩

/-- A light that is declared twice is attached twice, and the lamp, for which there were files, has none any more. -/
theorem light_attached_twice :
    let once := (history Element.ofDocument? {} [lights 1]).objects
    let twice := (history Element.ofDocument? {} [lights 2]).objects
    ((documentBy Element.ofDocument? {} (lights 2)).run {}).1 = .ok () ∧
      twice.map (·.interface.concrete.map Interface.name) = [["b.Light", "b.Light"]] ∧
      once.map (fun object => (object.emit {}).toBool) = [true] ∧
      twice.map (fun object => (object.emit {}).map fun _ => ()) =
        [.error (.duplicate .method "On" "b.Light" "b.Light")] := by
  have sorted : [light, light].Pairwise fun a b => a.name ≤ b.name := by decide
  obtain ⟨loads, objects⟩ := lights_run
  rw [objects, Interface.merged_of_sorted sorted]
  exact ⟨loads, rfl, by decide +kernel, rfl⟩

end Loader
end BusStub
