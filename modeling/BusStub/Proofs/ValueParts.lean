import Mathlib.Data.List.Nodup
import BusStub.Proofs.Declarations

/-! The parts of a value when its arrays have certain sizes: what is kept as it is, and the arrays themselves. Every
part has a place of its own. -/

namespace BusStub

/-- What is kept as it is and not looked into. -/
def Slot.isAtom : Slot → Bool
  | .scalar _ | .variant | .boxed _ => true
  | .scalars _ | .struct _ | .structs _ | .dict _ _ => false

section
variable (own : Slot → Bool) (sizes : Place → Nat)

/-- The place itself, if it belongs to the parts that are asked for. -/
def Slot.self (slot : Slot) (place : Place) : List Place :=
  if own slot then [place] else []

/-- What comes of every element of an array. -/
def Place.items {α : Type} (place : Place) (f : Place → List α) : List α :=
  (List.range (sizes place)).flatMap fun index => f (place.item index)

mutual
/-- The parts of the value at a place that are of some kind. -/
def Slot.parts (place : Place) : Slot → List Place
  | .struct fields => fields.parts place
  | .scalars kind => Slot.self own (.scalars kind) place ++ place.items sizes (Slot.self own (.scalar kind))
  | .structs fields => Slot.self own (.structs fields) place ++ place.items sizes fields.parts
  | .dict key value =>
    Slot.self own (.dict key value) place ++ place.items sizes fun entry =>
      Slot.self own (.scalar key) (entry.field "key") ++ value.parts (entry.field "value")
  | .scalar kind => Slot.self own (.scalar kind) place
  | .variant => Slot.self own .variant place
  | .boxed type => Slot.self own (.boxed type) place
termination_by structural slot => slot

def Fields.parts (place : Place) : Fields → List Place
  | .nil => []
  | .cons name slot rest => slot.parts (place.field name) ++ rest.parts place
termination_by structural fields => fields
end

end

namespace Place

/-- The second place is the first one or a part of what is there. -/
inductive Leads (origin : Place) : Place → Prop where
  | refl : Leads origin origin
  | field {place : Place} {name : String} (leads : Leads origin place) : Leads origin (place.field name)
  | item {place : Place} {index : Nat} (leads : Leads origin place) : Leads origin (place.item index)

/-- The number of steps from the variable. -/
def steps : Place → Nat
  | .root _ => 0
  | .field base _ | .element base _ | .item base _ => base.steps + 1

namespace Leads

variable {first second place : Place}

theorem trans (one : first.Leads second) (other : second.Leads place) : first.Leads place := by
  induction other with
  | refl => exact one
  | field _ ih => exact ih.field
  | item _ ih => exact ih.item

theorem steps_le (leads : first.Leads place) : first.steps ≤ place.steps := by
  induction leads with
  | refl => exact Nat.le_refl _
  | field _ ih | item _ ih => exact Nat.le_succ_of_le ih

/-- Of the places on the way to one place, no two are equally far. -/
theorem unique (one : first.Leads place) (other : second.Leads place) (far : first.steps = second.steps) :
    first = second := by
  induction one with
  | refl =>
    cases other with
    | refl => rfl
    | field leads | item leads => exact absurd leads.steps_le (by simp [← far, steps])
  | field leads ih =>
    cases other with
    | refl => exact absurd leads.steps_le (by simp [far, steps])
    | field other => exact ih other
  | item leads ih =>
    cases other with
    | refl => exact absurd leads.steps_le (by simp [far, steps])
    | item other => exact ih other

theorem field_inj {name name' : String} (one : (first.field name).Leads place)
    (other : (first.field name').Leads place) : name = name' := by
  cases one.unique other rfl
  rfl

end Leads

theorem fields_lead {place : Place} {first second : List Place} {name name' : String}
    (one : ∀ part ∈ first, (place.field name).Leads part) (other : ∀ part ∈ second, (place.field name').Leads part) :
    ∀ part ∈ first ++ second, place.Leads part :=
  List.forall_mem_append.mpr
    ⟨fun part inside => Leads.refl.field.trans (one part inside), fun part inside =>
      Leads.refl.field.trans (other part inside)⟩

theorem items_lead {sizes : Place → Nat} {f : Place → List Place} {place : Place}
    (inside : ∀ item, ∀ part ∈ f item, item.Leads part) : ∀ part ∈ place.items sizes f, place.Leads part := by
  intro part member
  obtain ⟨index, -, member⟩ := List.mem_flatMap.mp member
  exact Leads.refl.item.trans (inside _ part member)

end Place

section
variable (own : Slot → Bool) (sizes : Place → Nat)

theorem Slot.self_leads {slot : Slot} {place : Place} : ∀ part ∈ slot.self own place, place.Leads part := by
  unfold Slot.self
  split
  · exact List.forall_mem_singleton.mpr .refl
  · exact nofun

theorem Slot.self_nodup {slot : Slot} {place : Place} : (slot.self own place).Nodup := by
  unfold Slot.self
  split
  · exact List.nodup_singleton _
  · exact List.nodup_nil

/-- Parts of different elements are different, and none is the array. -/
theorem Slot.items_nodup {f : Place → List Place} {slot : Slot} (place : Place) (each : ∀ item, (f item).Nodup)
    (inside : ∀ item, ∀ part ∈ f item, item.Leads part) : (slot.self own place ++ place.items sizes f).Nodup := by
  have items : (place.items sizes f).Nodup := by
    refine List.nodup_flatMap.mpr ⟨fun index _ => each _, ?_⟩
    refine List.nodup_range.imp fun {first second} different => List.disjoint_left.mpr fun part one other => ?_
    cases (inside _ part one).unique (inside _ part other) rfl
    exact different rfl
  refine List.nodup_append.mpr ⟨Slot.self_nodup own, items, ?_⟩
  rintro part itself _ member rfl
  obtain ⟨index, -, member⟩ := List.mem_flatMap.mp member
  have far : place.steps < part.steps := (inside _ part member).steps_le
  unfold Slot.self at itself
  split at itself
  · cases List.mem_singleton.mp itself
    exact Nat.lt_irrefl _ far
  · cases itself

mutual
theorem Slot.parts_lead (place : Place) : (slot : Slot) → ∀ part ∈ slot.parts own sizes place, place.Leads part
  | .struct fields => Fields.parts_lead place fields
  | .scalars kind =>
    List.forall_mem_append.mpr ⟨Slot.self_leads own, Place.items_lead fun _ => Slot.self_leads own⟩
  | .structs fields =>
    List.forall_mem_append.mpr ⟨Slot.self_leads own, Place.items_lead fun item => Fields.parts_lead item fields⟩
  | .dict key value => by
    refine List.forall_mem_append.mpr ⟨Slot.self_leads own, Place.items_lead fun item => ?_⟩
    exact Place.fields_lead (Slot.self_leads own) (Slot.parts_lead (item.field "value") value)
  | .scalar _ | .variant | .boxed _ => Slot.self_leads own

theorem Fields.parts_lead (place : Place) : (fields : Fields) → ∀ part ∈ fields.parts own sizes place, place.Leads part
  | .nil => nofun
  | .cons name slot rest =>
    List.forall_mem_append.mpr
      ⟨fun part inside => Place.Leads.refl.field.trans (Slot.parts_lead (place.field name) slot part inside),
        Fields.parts_lead place rest⟩
end

theorem Fields.parts_eq (place : Place) (fields : Fields) :
    fields.parts own sizes place =
      fields.toList.flatMap fun field => field.2.parts own sizes (place.field field.1) := by
  cases fields with
  | nil => rfl
  | cons name slot rest => rw [Fields.parts, Fields.toList, List.flatMap_cons, Fields.parts_eq place rest]

mutual
/-- No place is more than one part. -/
theorem Slot.parts_nodup (place : Place) : (type : BusType) → ((Slot.of type).parts own sizes place).Nodup
  | .basic _ | .variant | .array .variant | .array (.array _) | .array (.dict _ _) => Slot.self_nodup own
  | .array (.basic _) => Slot.items_nodup own sizes place (fun _ => Slot.self_nodup own) fun _ => Slot.self_leads own
  | .array (.struct members) =>
    Slot.items_nodup own sizes place (fun item => Fields.parts_nodup item {} members) fun item =>
      Fields.parts_lead own sizes item _
  | .struct members => Fields.parts_nodup place {} members
  | .dict key value => by
    refine Slot.items_nodup own sizes place (fun item => ?_) fun item => ?_
    · refine List.nodup_append.mpr ⟨Slot.self_nodup own, Slot.parts_nodup (item.field "value") value, ?_⟩
      rintro part inKey _ inValue rfl
      have same := (Slot.self_leads own part inKey).field_inj (Slot.parts_lead own sizes _ _ part inValue)
      exact absurd same (by decide)
    · exact Place.fields_lead (Slot.self_leads own) (Slot.parts_lead own sizes (item.field "value") _)

theorem Fields.parts_nodup (place : Place) (numbering : Numbering) : (types : List BusType) →
    ((Fields.of numbering types).parts own sizes place).Nodup
  | [] => List.nodup_nil
  | type :: rest => by
    have names := Fields.names_nodup numbering (type :: rest)
    simp only [Fields.of, Fields.toList, List.map_cons, List.nodup_cons] at names
    refine List.nodup_append.mpr ⟨Slot.parts_nodup _ type, Fields.parts_nodup place _ rest, ?_⟩
    rintro part inFirst _ inRest rfl
    rw [Fields.parts_eq] at inRest
    obtain ⟨field, member, inField⟩ := List.mem_flatMap.mp inRest
    have same := (Slot.parts_lead own sizes _ _ part inFirst).field_inj (Slot.parts_lead own sizes _ _ part inField)
    exact names.1 (same ▸ List.mem_map_of_mem member)
end

end

end BusStub
