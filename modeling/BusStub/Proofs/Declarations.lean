import Mathlib.Data.List.Nodup
import BusStub.Proofs.MemberNames
import BusStub.Proofs.Parcel

/-! What a struct declaration says: the variables it holds, the structs nested in it, and the type of every
place below a variable of that struct. A qualified name is walked through the nested definitions component
by component. Main statement: no struct declared for a value has two fields of one name, at any level. -/

namespace BusStub
open Code

namespace Code

/-- The variable that a field declares; a struct defined in place may declare one too. -/
def Field.variable? : Field → Option Variable
  | .plain v => some v
  | .definition name _ (some object) => some ⟨⟨.composite [name], false, 0⟩, object⟩
  | .definition _ _ none => none

def Field.definition? : Field → Option (String × List Field)
  | .plain _ => none
  | .definition name fields _ => some (name, fields)

def objects (fields : List Field) : List Variable :=
  fields.filterMap Field.variable?

def definitions (fields : List Field) : List (String × List Field) :=
  fields.filterMap Field.definition?

mutual
/-- In a struct and in all structs nested in it, fields have different names, and so have definitions. -/
def Field.Distinct : Field → Prop
  | .plain _ => True
  | .definition _ fields _ =>
    ((objects fields).map Variable.name).Nodup ∧ ((definitions fields).map Prod.fst).Nodup ∧ Field.AllDistinct fields
termination_by structural field => field

def Field.AllDistinct : List Field → Prop
  | [] => True
  | field :: rest => field.Distinct ∧ Field.AllDistinct rest
termination_by structural fields => fields
end

theorem Field.allDistinct_append {first second : List Field} :
    Field.AllDistinct (first ++ second) ↔ Field.AllDistinct first ∧ Field.AllDistinct second := by
  induction first with
  | nil => simp [Field.AllDistinct]
  | cons field rest ih => simp only [List.cons_append, Field.AllDistinct, ih, and_assoc]

theorem Field.allDistinct_plain (vs : List Variable) : Field.AllDistinct (vs.map .plain) := by
  induction vs with
  | nil => trivial
  | cons v rest ih => exact ⟨trivial, ih⟩

/-- The fields of the struct that a qualified name leads to. -/
def inside? : List Field → List String → Option (List Field)
  | fields, [] => some fields
  | fields, name :: rest => ((definitions fields).find? (·.1 = name)).bind fun found => inside? found.2 rest

theorem inside?_append (fields : List Field) (path rest : List String) :
    inside? fields (path ++ rest) = (inside? fields path).bind (inside? · rest) := by
  induction path generalizing fields with
  | nil => rfl
  | cons name path ih =>
    simp only [List.cons_append, inside?, ih, Option.bind_assoc]

/-- The type of a field of the struct that `path` leads to. Where the field is declared, its type is named
from within that struct. -/
def memberType? (declared : List Field) (path : List String) (name : String) : Option CType :=
  (inside? declared path).bind fun fields =>
    ((objects fields).find? (·.name = name)).bind fun v =>
      match v.type.name with
      | .composite inner => (inside? fields inner).map fun _ => { v.type with name := .composite (path ++ inner) }
      | _ => some v.type

end Code

def Place.base : Place → String
  | .root text => text
  | .field place _ | .element place _ | .item place _ => place.base

/-- The type of a place below the variable `text`, whose type is `type`. Fields are looked up in the struct
that the type so far names; an index takes one star away. -/
def Place.type? (declared : List Field) (text : String) (type : CType) : Place → Option CType
  | .root other => if other = text then some type else none
  | .field place name => (place.type? declared text type).bind fun
    | ⟨.composite path, _, 0⟩ => memberType? declared path name
    | _ => none
  | .element place _ | .item place _ => (place.type? declared text type).bind fun
    | ⟨name, constant, stars + 1⟩ => some ⟨name, constant, stars⟩
    | _ => none

namespace Slot

/-- The fields of the struct that keeps the value or one of its elements. -/
def parts? : Slot → Option (List Field)
  | .struct fields | .structs fields => some fields.declared
  | .dict key value => some (entryFields key value)
  | _ => none

def definition? (name : String) (slot : Slot) : Option (String × List Field) :=
  (slot.recordName? name).bind fun record => slot.parts?.map fun fields => (record, fields)

theorem objects_fields (name : String) (slot : Slot) : objects (slot.fields name) = slot.locals name := by
  cases slot <;> rfl

theorem definitions_fields (name : String) (slot : Slot) :
    definitions (slot.fields name) = (slot.definition? name).toList := by
  cases slot <;> rfl

end Slot

namespace Fields

theorem objects_declared : (fields : Fields) →
    objects fields.declared = fields.toList.flatMap fun field => field.2.locals field.1
  | .nil => rfl
  | .cons name slot rest => by
    have first := slot.objects_fields name
    have others := rest.objects_declared
    simp only [objects] at first others
    simp only [objects, declared, List.filterMap_append, toList, List.flatMap_cons, first, others]

theorem definitions_declared : (fields : Fields) →
    definitions fields.declared = fields.toList.filterMap fun field => field.2.definition? field.1
  | .nil => rfl
  | .cons name slot rest => by
    have first := slot.definitions_fields name
    have others := rest.definitions_declared
    simp only [definitions] at first others
    simp only [definitions, declared, List.filterMap_append, toList, List.filterMap_cons, first, others]
    cases slot.definition? name <;> rfl

theorem fields_subset {field : String × Slot} : (fields : Fields) → field ∈ fields.toList →
    field.2.fields field.1 ⊆ fields.declared
  | .nil, member => by cases member
  | .cons name slot rest, member => by
    rcases List.mem_cons.mp member with rfl | member
    · exact List.subset_append_left _ _
    · exact List.subset_append_of_subset_right _ (rest.fields_subset member)

end Fields

theorem Slot.locals_names (slot : Slot) (name : String) :
    (slot.locals name).map Variable.name = if slot.isCounted then [name, countName name] else [name] := by
  unfold locals
  split <;> rfl

theorem struct_ne_entry (first second : String) : first ++ "Struct" ≠ second ++ "DictEntry" := by
  intro same
  have last := congrArg (fun text => text.toList.getLast?) same
  simp [List.getLast?_append] at last

theorem Slot.recordName?_inj {first second : Slot} {name name' record : String}
    (one : first.recordName? name = some record) (other : second.recordName? name' = some record) : name = name' := by
  cases first <;> cases second <;> simp only [recordName?, reduceCtorEq, Option.some.injEq] at one other <;>
    subst one <;> first
    | simpa using other.symm
    | exact absurd other (struct_ne_entry _ _)
    | exact absurd other.symm (struct_ne_entry _ _)

theorem Fields.different (numbering : Numbering) (types : List BusType) :
    (Fields.of numbering types).toList.Pairwise fun first second =>
      first.1 ≠ second.1 ∧ IsMember first.1 ∧ IsMember second.1 := by
  have names : (Fields.of numbering types).toList.Pairwise fun first second => first.1 ≠ second.1 :=
    List.pairwise_map.mp (Fields.names_nodup numbering types)
  exact names.imp_of_mem fun first second different => ⟨different, Fields.isMember first, Fields.isMember second⟩

theorem Fields.objects_nodup (numbering : Numbering) (types : List BusType) :
    ((objects (Fields.of numbering types).declared).map Variable.name).Nodup := by
  rw [Fields.objects_declared, List.map_flatMap]
  simp only [Slot.locals_names]
  rw [List.nodup_flatMap]
  constructor
  · intro field member
    split
    · simpa using (Fields.isMember member).ne_countName field.1
    · simp
  · refine (Fields.different numbering types).imp ?_
    intro first second ⟨different, one, two⟩ name inFirst inSecond
    have spelled (field : String × Slot)
        (inside : name ∈ if field.2.isCounted then [field.1, countName field.1] else [field.1]) :
        name = field.1 ∨ name = countName field.1 := by
      split at inside <;> simp_all
    rcases spelled first inFirst with rfl | rfl <;> rcases spelled second inSecond with same | same
    · exact different same
    · exact one.ne_countName _ same
    · exact two.ne_countName _ same.symm
    · exact different (countName_inj same)

theorem Fields.definitions_nodup (numbering : Numbering) (types : List BusType) :
    ((definitions (Fields.of numbering types).declared).map Prod.fst).Nodup := by
  have named (field : String × Slot) (found : String × List Field)
      (defined : field.2.definition? field.1 = some found) : field.2.recordName? field.1 = some found.1 := by
    simp only [Slot.definition?, Option.bind_eq_some_iff, Option.map_eq_some_iff] at defined
    obtain ⟨record, spelled, fields, -, rfl⟩ := defined
    exact spelled
  rw [Fields.definitions_declared]
  refine List.pairwise_map.mpr (List.Pairwise.filterMap _ ?_ (Fields.different numbering types))
  intro first second ⟨different, _⟩ one defined two defined' same
  have left := named first one defined
  have right := named second two defined'
  rw [← same] at right
  exact different (Slot.recordName?_inj left right)

mutual
theorem Slot.fields_distinct (name : String) : (type : BusType) → Field.AllDistinct ((Slot.of type).fields name)
  | .basic _ | .variant | .array (.basic _) | .array .variant | .array (.array _) | .array (.dict _ _) =>
    Field.allDistinct_plain _
  | .struct members =>
    ⟨⟨Fields.objects_nodup {} members, Fields.definitions_nodup {} members, Fields.declared_distinct {} members⟩,
      trivial⟩
  | .array (.struct members) =>
    ⟨⟨Fields.objects_nodup {} members, Fields.definitions_nodup {} members, Fields.declared_distinct {} members⟩,
      Field.allDistinct_plain _⟩
  | .dict key value => by
    have inner := Slot.fields_distinct "value" value
    have names : (objects (Slot.entryFields key (Slot.of value))).map Variable.name =
        "key" :: ((Slot.of value).locals "value").map Variable.name := by
      have rest := (Slot.of value).objects_fields "value"
      simp only [objects] at rest
      simp [objects, Slot.entryFields, Field.variable?, rest]
    have nested : definitions (Slot.entryFields key (Slot.of value)) = ((Slot.of value).definition? "value").toList :=
      (Slot.of value).definitions_fields "value"
    refine ⟨⟨?_, ?_, trivial, inner⟩, Field.allDistinct_plain _⟩
    · change ((objects (Slot.entryFields key (Slot.of value))).map Variable.name).Nodup
      rw [names, Slot.locals_names]
      split <;> decide
    · change ((definitions (Slot.entryFields key (Slot.of value))).map Prod.fst).Nodup
      rw [nested]
      cases (Slot.of value).definition? "value" <;> simp

theorem Fields.declared_distinct (numbering : Numbering) : (types : List BusType) →
    Field.AllDistinct (Fields.of numbering types).declared
  | [] => trivial
  | type :: rest =>
    Field.allDistinct_append.mpr ⟨Slot.fields_distinct _ type, Fields.declared_distinct _ rest⟩
end

end BusStub
