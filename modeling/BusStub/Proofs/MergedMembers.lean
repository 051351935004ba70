import BusStub.Proofs.InterfaceMembers

/-! What merging keeps and where the members of a merged interface are found. To look in the list of all members and to
ask the parts one after the other is the same: both stop at the first part, by full name, that declares the name. -/

namespace BusStub.Interface

section
variable {μ : Type} (listed : Interface → List μ) (called : μ → String)

/-- Members of one kind, which interfaces list, can be looked up in the whole and in its parts. `find?` gives the
declaration of a name and `owner?` the part that it comes from. -/
structure Routes (whole : Interface) (parts : List Interface) (find? : Interface → String → Option μ)
    (owner? : Interface → String → Option String) : Prop where
  members : listed whole = whole.concrete.flatMap listed
  owned : ∀ name, (owner? whole name).isSome ↔ (find? whole name).isSome
  declared : ∀ name, (find? whole name).isSome ↔ ∃ part ∈ parts, ∃ member ∈ listed part, called member = name
  first : ∀ name owner, owner? whole name = some owner →
    ∃ before part after member, whole.concrete = before ++ part :: after ∧
      (∀ other ∈ before, ∀ earlier ∈ listed other, called earlier ≠ name) ∧
      part.name = owner ∧ member ∈ listed part ∧ called member = name ∧
      find? part name = some member ∧ find? whole name = some member

variable {listed called} {parts before after : List Interface} {part : Interface} {name : String}

theorem find?_isSome_iff :
    ((listed part).find? (called · = name)).isSome ↔ ∃ member ∈ listed part, called member = name := by
  simp [List.find?_isSome]

/-- Parts that do not declare a name are passed over. -/
theorem find?_parts (missing : ∀ other ∈ before, ∀ earlier ∈ listed other, called earlier ≠ name) :
    ((before ++ part :: after).flatMap listed).find? (called · = name) =
      ((listed part).find? (called · = name)).or ((after.flatMap listed).find? (called · = name)) := by
  have none : (before.flatMap listed).find? (called · = name) = none := by
    simpa [List.find?_flatMap] using missing
  rw [List.flatMap_append, List.flatMap_cons, List.find?_append, List.find?_append, none, Option.none_or]

/-- Whatever the members are, both ways to look one up agree when the whole lists what its parts list. -/
theorem routes {whole : Interface} (order : whole.concrete.Perm parts)
    (members : listed whole = whole.concrete.flatMap listed) :
    Routes listed called whole parts (fun interface name => (listed interface).find? (called · = name))
      (fun interface name => (interface.concrete.find? fun part =>
        ((listed part).find? (called · = name)).isSome).map Interface.name) where
  members := members
  owned name := by
    rw [Option.isSome_map, List.find?_isSome, find?_isSome_iff, members]
    simp only [find?_isSome_iff, List.mem_flatMap]
    constructor
    · rintro ⟨part, inside, member, declared, same⟩
      exact ⟨member, ⟨part, inside, declared⟩, same⟩
    · rintro ⟨member, ⟨part, inside, declared⟩, same⟩
      exact ⟨part, inside, member, declared, same⟩
  declared name := by
    rw [find?_isSome_iff, members]
    constructor
    · rintro ⟨member, declared, same⟩
      obtain ⟨part, inside, declared⟩ := List.mem_flatMap.mp declared
      exact ⟨part, order.mem_iff.mp inside, member, declared, same⟩
    · rintro ⟨part, inside, member, declared, same⟩
      exact ⟨member, List.mem_flatMap.mpr ⟨part, order.mem_iff.mpr inside, declared⟩, same⟩
  first name owner owned := by
    obtain ⟨part, found, rfl⟩ := Option.map_eq_some_iff.mp owned
    obtain ⟨declares, before, after, split, missing⟩ := List.find?_eq_some_iff_append.mp found
    obtain ⟨member, declared⟩ := Option.isSome_iff_exists.mp declares
    have absent : ∀ other ∈ before, ∀ earlier ∈ listed other, called earlier ≠ name := by
      intro other inside
      simpa using missing other inside
    refine ⟨before, part, after, member, split, absent, rfl, List.mem_of_find?_eq_some declared, ?_, declared, ?_⟩
    · simpa using List.find?_some declared
    · rw [members, split, find?_parts absent, declared, Option.some_or]

end

/-- Nothing is lost when underived interfaces are merged that agree on their names, in whichever order they are given.
What exists on the bus are these interfaces, by full name; all their members are listed in that order; and members are
found where the first of them declares them. -/
theorem merged_routes {parts : List Interface} (some : parts ≠ []) (underived : ∀ part ∈ parts, part.isDerived = false)
    (agree : Agree parts) :
    (∀ others, others.Perm parts → merged others = merged parts) ∧
    (merged parts).concrete.Perm parts ∧ (merged parts).concrete.Pairwise (·.name ≤ ·.name) ∧
    Routes methods Method.name (merged parts) parts method? byMethod? ∧
    Routes signals Signal.name (merged parts) parts signal? bySignal? ∧
    Routes properties Property.name (merged parts) parts property? byProperty? := by
  have concrete := concrete_merged some underived
  have order : (merged parts).concrete.Perm parts := by
    rw [concrete]
    exact List.mergeSort_perm parts _
  have listed := (Loaded.merged underived).listed
  refine ⟨?_, order, ?_, routes order listed.methods, routes order listed.signals, routes order listed.properties⟩
  · intro others moved
    exact (agree.merged_perm moved.symm).symm
  · rw [concrete]
    exact sortByName_sorted parts

def lampSwitch : Interface :=
  { name := "home.Switch", methods := [{ name := "Toggle" }, { name := "Reset" }], signals := [{ name := "Toggled" }] }

def lampDimmer : Interface :=
  { name := "home.Dimmer", methods := [{ name := "Reset", noReply := true }], properties := [⟨"level", "y", .read⟩] }

theorem merged_routes_lamp :
    (∀ part ∈ [lampSwitch, lampDimmer], part.isDerived = false) ∧ Agree [lampSwitch, lampDimmer] ∧
      merged [lampDimmer, lampSwitch] = merged [lampSwitch, lampDimmer] ∧
      (merged [lampSwitch, lampDimmer]).byMethod? "Reset" = some "home.Dimmer" ∧
      Routes methods Method.name (merged [lampSwitch, lampDimmer]) [lampSwitch, lampDimmer] method? byMethod? := by
  have underived : ∀ part ∈ [lampSwitch, lampDimmer], part.isDerived = false := by decide
  have agree : Agree [lampSwitch, lampDimmer] := by
    simp [Agree, lampSwitch, lampDimmer]
  obtain ⟨turned, -, -, routes, -⟩ := merged_routes (List.cons_ne_nil _ _) underived agree
  have same := turned [lampDimmer, lampSwitch] (.swap lampSwitch lampDimmer [])
  have sorted : [lampDimmer, lampSwitch].Pairwise fun a b => a.name ≤ b.name := by decide
  have owner : (merged [lampDimmer, lampSwitch]).byMethod? "Reset" = some "home.Dimmer" := by
    rw [merged_of_sorted sorted]
    decide
  exact ⟨underived, agree, same, same ▸ owner, routes⟩

end BusStub.Interface
