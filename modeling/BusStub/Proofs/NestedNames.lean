import BusStub.Proofs.Declarations
import BusStub.Signature.Parse

/-! Structs that are called like the struct around them. The numbers in member names begin again in every struct,
and the value of a dictionary has one name everywhere, so a definition may hold another one of its own name,
which the language of the generated code refuses. Main statement: exactly when this happens. A struct called
`s{k}` must not hold more than `k` structs, and a dictionary called `value` must not hold a dictionary. -/

namespace BusStub
open Code

namespace Code

mutual
/-- No struct, at any level, holds the definition of a struct of its own name. -/
def Field.Legal : Field → Prop
  | .plain _ => True
  | .definition name fields _ => name ∉ (definitions fields).map Prod.fst ∧ Field.AllLegal fields
termination_by structural field => field

def Field.AllLegal : List Field → Prop
  | [] => True
  | field :: rest => field.Legal ∧ Field.AllLegal rest
termination_by structural fields => fields
end

theorem Field.allLegal_append {first second : List Field} :
    Field.AllLegal (first ++ second) ↔ Field.AllLegal first ∧ Field.AllLegal second := by
  induction first with
  | nil => simp [Field.AllLegal]
  | cons field rest ih => simp only [List.cons_append, Field.AllLegal, ih, and_assoc]

theorem Field.allLegal_plain (vs : List Variable) : Field.AllLegal (vs.map .plain) := by
  induction vs with
  | nil => trivial
  | cons v rest ih => exact ⟨trivial, ih⟩

end Code

def Slot.isStruct : Slot → Bool
  | .struct _ | .structs _ => true
  | _ => false

def Slot.isDict : Slot → Bool
  | .dict _ _ => true
  | _ => false

/-- How many of the fields keep structs, alone or in arrays. -/
def Fields.structCount : Fields → Nat
  | .nil => 0
  | .cons _ slot rest => rest.structCount + if slot.isStruct then 1 else 0

mutual
/-- No struct that keeps the value, or a value inside it, is called like a struct right inside it. -/
def Slot.Nestable (name : String) : Slot → Prop
  | .struct fields | .structs fields => (∀ k < fields.structCount, name ≠ "s" ++ Nat.repr k) ∧ fields.Nestable
  | .dict _ value => ¬(name = "value" ∧ value.isDict) ∧ value.Nestable "value"
  | .scalar _ | .variant | .boxed _ | .scalars _ => True
termination_by structural slot => slot

def Fields.Nestable : Fields → Prop
  | .nil => True
  | .cons name slot rest => slot.Nestable name ∧ rest.Nestable
termination_by structural fields => fields
end

mutual
def Slot.decNestable (name : String) : (slot : Slot) → Decidable (slot.Nestable name)
  | .struct fields | .structs fields =>
    have := fields.decNestable
    inferInstanceAs (Decidable ((∀ k < fields.structCount, name ≠ "s" ++ Nat.repr k) ∧ fields.Nestable))
  | .dict _ value =>
    have := value.decNestable "value"
    inferInstanceAs (Decidable (¬(name = "value" ∧ value.isDict) ∧ value.Nestable "value"))
  | .scalar _ | .variant | .boxed _ | .scalars _ => inferInstanceAs (Decidable True)
termination_by structural slot => slot

def Fields.decNestable : (fields : Fields) → Decidable fields.Nestable
  | .nil => inferInstanceAs (Decidable True)
  | .cons name slot rest =>
    have := slot.decNestable name
    have := rest.decNestable
    inferInstanceAs (Decidable (slot.Nestable name ∧ rest.Nestable))
termination_by structural fields => fields
end

instance (name : String) (slot : Slot) : Decidable (slot.Nestable name) := slot.decNestable name

theorem Slot.definition?_name (name : String) (slot : Slot) :
    (slot.definition? name).map Prod.fst = slot.recordName? name := by
  cases slot <;> rfl

theorem Fields.definitions_cons (name : String) (slot : Slot) (rest : Fields) :
    (definitions (Fields.cons name slot rest).declared).map Prod.fst =
      (slot.recordName? name).toList ++ (definitions rest.declared).map Prod.fst := by
  have first := slot.definitions_fields name
  simp only [definitions] at first
  simp only [definitions, Fields.declared, List.filterMap_append, List.map_append, first, ← Slot.definition?_name]
  cases slot.definition? name <;> rfl

/-- Structs are numbered without gaps from where the numbering stands. -/
theorem Fields.mem_structs (numbering : Numbering) (types : List BusType) (name : String) :
    name ++ "Struct" ∈ (definitions (Fields.of numbering types).declared).map Prod.fst ↔
      ∃ k, numbering.structs ≤ k ∧ k < numbering.structs + (Fields.of numbering types).structCount ∧
        name = "s" ++ Nat.repr k := by
  induction types generalizing numbering with
  | nil =>
    simp only [Fields.of, Fields.declared, definitions, Fields.structCount]
    simp
    omega
  | cons type rest ih =>
    simp only [Fields.of, Fields.definitions_cons, List.mem_append, ih, Fields.structCount]
    cases struct : (Slot.of type).isStruct with
    | true =>
      have first : (Slot.of type).recordName? (numbering.name (Slot.of type)) =
          some ("s" ++ Nat.repr numbering.structs ++ "Struct") ∧
          (numbering.next (Slot.of type)).structs = numbering.structs + 1 := by
        cases shape : Slot.of type <;> simp [shape, Slot.isStruct] at struct <;> exact ⟨rfl, rfl⟩
      simp only [first, Option.toList_some, List.mem_singleton, String.append_left_inj, if_true]
      constructor
      · rintro (rfl | ⟨k, low, high, rfl⟩)
        · exact ⟨_, Nat.le_refl _, by omega, rfl⟩
        · exact ⟨k, by omega, by omega, rfl⟩
      · rintro ⟨k, low, high, rfl⟩
        rcases Nat.eq_or_lt_of_le low with rfl | above
        · exact .inl rfl
        · exact .inr ⟨k, above, by omega, rfl⟩
    | false =>
      have first : name ++ "Struct" ∉ ((Slot.of type).recordName? (numbering.name (Slot.of type))).toList ∧
          (numbering.next (Slot.of type)).structs = numbering.structs := by
        cases shape : Slot.of type <;> simp [shape, Slot.isStruct] at struct <;>
          simp [Slot.recordName?, Numbering.next, struct_ne_entry]
      simp [first]

theorem Slot.mem_entry (key : Scalar) (value : Slot) (name : String) :
    name ++ "DictEntry" ∈ (definitions (Slot.entryFields key value)).map Prod.fst ↔
      name = "value" ∧ value.isDict := by
  have inner : definitions (Slot.entryFields key value) = (value.definition? "value").toList :=
    value.definitions_fields "value"
  rw [inner, ← Option.toList_map, Slot.definition?_name]
  cases value with
  | struct | structs =>
    simpa [Slot.recordName?, Slot.isDict, -String.reduceAppend] using (struct_ne_entry "value" name).symm
  | dict => simp [Slot.recordName?, Slot.isDict, -String.reduceAppend]
  | scalar | variant | boxed | scalars => simp [Slot.recordName?, Slot.isDict]

private theorem holds_fewer (members : List BusType) (name : String) :
    name ++ "Struct" ∉ (definitions (Fields.of {} members).declared).map Prod.fst ↔
      ∀ k < (Fields.of {} members).structCount, name ≠ "s" ++ Nat.repr k := by
  simp only [Fields.mem_structs, not_exists, not_and, Nat.zero_le, Nat.zero_add, true_implies, ne_eq]

mutual
theorem Slot.fields_legal (name : String) : (type : BusType) →
    (Field.AllLegal ((Slot.of type).fields name) ↔ (Slot.of type).Nestable name)
  | .basic _ | .variant | .array (.basic _) | .array .variant | .array (.array _) | .array (.dict _ _) =>
    iff_of_true (Field.allLegal_plain _) trivial
  | .struct members => by
    simp only [Slot.of, Slot.fields, Field.AllLegal, Field.Legal, Slot.Nestable, holds_fewer,
      Fields.declared_legal {} members, and_true]
  | .array (.struct members) => by
    simp only [Slot.of, Slot.fields, Field.AllLegal, Field.Legal, Slot.Nestable, holds_fewer,
      Fields.declared_legal {} members, Field.allLegal_plain, and_true]
  | .dict key value => by
    have inner := Slot.fields_legal "value" value
    have entry := (Slot.mem_entry key (Slot.of value) name).not
    simp only [Slot.entryFields] at entry
    simp only [Slot.of, Slot.fields, Field.AllLegal, Field.Legal, Slot.Nestable, entry, inner, Field.allLegal_plain,
      true_and, and_true]

theorem Fields.declared_legal (numbering : Numbering) : (types : List BusType) →
    (Field.AllLegal (Fields.of numbering types).declared ↔ (Fields.of numbering types).Nestable)
  | [] => Iff.rfl
  | type :: rest => by
    simp only [Fields.of, Fields.declared, Field.allLegal_append, Fields.Nestable,
      Slot.fields_legal _ type, Fields.declared_legal _ rest]
end

/-- The struct declared for a value called `name` nests properly exactly if, within it and itself included, each
struct called `s{k}` holds at most `k` structs and no dictionary called `value` holds a dictionary. -/
theorem declaration_legal_iff (name record : String) (type : BusType) (fields : List Field)
    (named : (Slot.of type).recordName? name = some record) (declares : (Slot.of type).record? = some fields) :
    (Field.definition record fields none).Legal ↔ (Slot.of type).Nestable name := by
  rw [← Slot.fields_legal name type]
  cases shape : Slot.of type with
  | struct members =>
    simp only [shape, Slot.recordName?, Slot.record?, Option.some.injEq] at named declares
    subst named declares
    simp only [Slot.fields, Field.AllLegal, Field.Legal, and_true]
  | dict key value =>
    simp only [shape, Slot.recordName?, Slot.record?, Option.some.injEq] at named declares
    subst named declares
    simp only [Slot.fields, Slot.entryFields, Field.AllLegal, Field.Legal, Field.allLegal_plain, and_true]
  | scalar | variant | boxed | scalars | structs =>
    simp only [shape, Slot.record?, reduceCtorEq] at declares

/-- The second of its structs holds one, and the values of its dictionary are dictionaries. -/
def shape : BusType :=
  .struct [.struct [.basic .int32], .struct [.array (.struct [.basic .double])], .dict .string (.dict .string .variant)]

theorem shape_legal : BusType.parse "((i)(a(d))a{sa{sv}})" = .ok shape ∧
    (Slot.of shape).recordName? "shape" = some "shapeStruct" ∧
    ∃ fields, (Slot.of shape).record? = some fields ∧ (Field.definition "shapeStruct" fields none).Legal := by
  refine ⟨rfl, rfl, _, rfl, ?_⟩
  exact (declaration_legal_iff "shape" "shapeStruct" shape _ rfl rfl).mpr (by decide)

/-- A struct in a struct in a struct: the two inner ones are both called `s0`. -/
theorem box_illegal : ∃ type fields, BusType.parse "(((i)))" = .ok type ∧
    (Slot.of type).recordName? "box" = some "boxStruct" ∧ (Slot.of type).record? = some fields ∧
    ¬(Field.definition "boxStruct" fields none).Legal := by
  refine ⟨_, _, rfl, rfl, rfl, ?_⟩
  intro legal
  exact legal.2.1.1 (List.mem_singleton_self _)

end BusStub
