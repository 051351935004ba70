import BusStub.Model.Merge

/-! The members of the interfaces that objects are given. What a derived interface lists are the members of
the interfaces that exist on the bus, in their order, so it does not matter where members are looked for. -/

namespace BusStub.Interface

/-- What exists on the bus of a merged interface is what was merged. -/
theorem concrete_merged {parts : List Interface} (some : parts ≠ [])
    (underived : ∀ part ∈ parts, part.isDerived = false) : (merged parts).concrete = sortByName parts := by
  match parts, underived with
  | [part], underived =>
    have own := underived part (List.mem_singleton_self part)
    simp [merged, concrete, own, sortByName]
  | first :: second :: rest, _ =>
    have several : (sortByName (first :: second :: rest)).isEmpty = false := by
      rw [← Bool.not_eq_true, List.isEmpty_iff_length_eq_zero]
      simp [sortByName]
    simp [concrete, isDerived, merged, several]

theorem mem_sortByName {parts : List Interface} {part : Interface} : part ∈ sortByName parts ↔ part ∈ parts :=
  (List.mergeSort_perm parts _).mem_iff

theorem sortByName_sorted (parts : List Interface) : (sortByName parts).Pairwise (·.name ≤ ·.name) := by
  have sorted : (sortByName parts).Pairwise fun a b => decide (a.name ≤ b.name) = true := by
    apply List.pairwise_mergeSort
    · intro a b c below above
      exact decide_eq_true (String.le_trans (of_decide_eq_true below) (of_decide_eq_true above))
    · intro a b
      simpa using String.le_total a.name b.name
  exact sorted.imp of_decide_eq_true

/-- Names of merged interfaces are put together from last segments, so there is no dot in them. -/
theorem merged_name_plain (first second : Interface) (rest : List Interface) :
    '.' ∉ (merged (first :: second :: rest)).name.toList := by
  have joined (parts : List Interface) : '.' ∉ (String.intercalate "__" (parts.map shortName)).toList := by
    induction parts with
    | nil => simp
    | cons part others ih =>
      have own : '.' ∉ part.shortName.toList := Text.not_mem_afterLast '.' part.name
      cases others with
      | nil => simpa using own
      | cons next others =>
        rw [List.map_cons, List.map_cons, String.intercalate_cons_cons, ← List.map_cons]
        simp only [String.toList_append, List.mem_append, not_or]
        exact ⟨⟨own, by decide⟩, ih⟩
  exact joined (sortByName (first :: second :: rest))

theorem merged_of_sorted {first second : Interface} {rest : List Interface}
    (sorted : (first :: second :: rest).Pairwise fun a b => a.name ≤ b.name) :
    merged (first :: second :: rest) =
      { name := String.intercalate "__" ((first :: second :: rest).map shortName)
        methods := (first :: second :: rest).flatMap methods
        signals := (first :: second :: rest).flatMap signals
        properties := (first :: second :: rest).flatMap properties
        parents := first :: second :: rest } := by
  simp only [merged, sortByName]
  rw [List.mergeSort_of_pairwise (sorted.imp fun ordered => decide_eq_true ordered)]

/-- No name stands for two interfaces. -/
def Agree (parts : List Interface) : Prop :=
  ∀ part ∈ parts, ∀ other ∈ parts, part.name = other.name → part = other

namespace Agree

variable {parts others : List Interface}

theorem of_subset (agree : Agree others) (inside : parts ⊆ others) : Agree parts :=
  fun part present other present' => agree part (inside present) other (inside present')

theorem of_append (agree : Agree (parts ++ others)) : Agree parts ∧ Agree others :=
  ⟨agree.of_subset (List.subset_append_left _ _), agree.of_subset (List.subset_append_right _ _)⟩

/-- Interfaces that agree are found by name wherever they stand. -/
theorem find?_perm (agree : Agree parts) (order : parts.Perm others) (name : String) :
    parts.find? (·.name = name) = others.find? (·.name = name) := by
  cases found : parts.find? (·.name = name) with
  | none =>
    symm
    simpa [order.mem_iff] using found
  | some part =>
    have called : part.name = name := by simpa using List.find?_some found
    have inside := List.mem_of_find?_eq_some found
    have present : (others.find? (·.name = name)).isSome := by
      rw [List.find?_isSome]
      exact ⟨part, order.mem_iff.mp inside, by simp [called]⟩
    obtain ⟨other, same⟩ := Option.isSome_iff_exists.mp present
    have called' : other.name = name := by simpa using List.find?_some same
    have inside' := order.mem_iff.mpr (List.mem_of_find?_eq_some same)
    rw [same, agree part inside other inside' (called.trans called'.symm)]

theorem sortByName_perm (agree : Agree parts) (order : parts.Perm others) : sortByName parts = sortByName others := by
  have both : (sortByName parts).Perm (sortByName others) :=
    (List.mergeSort_perm parts _).trans (order.trans (List.mergeSort_perm others _).symm)
  refine List.Perm.eq_of_pairwise ?_ (sortByName_sorted parts) (sortByName_sorted others) both
  intro part other inside inside' below above
  have same := String.le_antisymm below above
  exact agree part (mem_sortByName.mp inside) other (order.mem_iff.mpr (mem_sortByName.mp inside')) same

/-- Merging does not depend on the order of interfaces that agree. -/
theorem merged_perm (agree : Agree parts) (order : parts.Perm others) : merged parts = merged others := by
  have sorted := agree.sortByName_perm order
  have sizes := order.length_eq
  match parts, others, sizes with
  | [], [], _ => rfl
  | [part], [other], _ => rw [List.singleton_perm_singleton.mp order]
  | _ :: _ :: _, _ :: _ :: _, _ => simp only [merged, sorted]

end Agree

/-- An interface that an object is given: one of its own, or one merged from such. -/
inductive Loaded : Interface → Prop where
  | own {interface : Interface} (underived : interface.isDerived = false) : Loaded interface
  | merged {parts : List Interface} (underived : ∀ part ∈ parts, part.isDerived = false) : Loaded (merged parts)

/-- Its members are those of the concrete interfaces. -/
structure Listed (interface : Interface) : Prop where
  methods : interface.methods = interface.concrete.flatMap Interface.methods
  signals : interface.signals = interface.concrete.flatMap Interface.signals
  properties : interface.properties = interface.concrete.flatMap Interface.properties

private theorem listed_own {interface : Interface} (underived : interface.isDerived = false) : interface.Listed := by
  have itself : interface.concrete = [interface] := by simp [concrete, underived]
  constructor <;> simp [itself]

theorem Loaded.listed {interface : Interface} (loaded : interface.Loaded) : interface.Listed := by
  cases loaded with
  | own underived => exact listed_own underived
  | @merged parts underived =>
    match parts, underived with
    | [], _ => exact listed_own (by simp [isDerived, Interface.merged, sortByName])
    | [part], underived => exact listed_own (underived part (List.mem_singleton_self part))
    | first :: second :: rest, underived =>
      have parents := concrete_merged (List.cons_ne_nil first (second :: rest)) underived
      constructor <;> rw [parents] <;> rfl

end BusStub.Interface
