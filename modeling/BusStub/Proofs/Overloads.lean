import Mathlib.Data.List.Perm.Basic
import BusStub.Proofs.PlanMembers

/-! What tells the members of a class apart. Functions of one name may differ in the types of their parameters,
as these are written. What the bus brings along has types that no value is ever kept in, and only outputs are
references; so some functions are told apart by what they take, whatever they are called. -/

namespace BusStub
open Code

/-- Types of what the bus brings along. -/
def foreignTypes : List String :=
  ["BusAttachment&", "const char *", "SessionId", "const InterfaceDescription::Member *", "Message&"]

namespace Code

/-- The type of a parameter as it is written, and that it is a reference. -/
def Param.typeText (param : Param) : String :=
  param.type.text ++ if param.passing = .value then "" else "&"

def Prototype.types (prototype : Prototype) : List String :=
  prototype.params.map Param.typeText

/-- What a function takes from the bus. -/
def Prototype.foreign (prototype : Prototype) : List String :=
  prototype.types.filter (· ∈ foreignTypes)

def Member.function? : Member → Option Prototype
  | .function prototype => some prototype
  | .data _ | .comment _ | .blank => none

def Member.data? : Member → Option String
  | .data v => some v.name
  | .function _ | .comment _ | .blank => none

namespace Klass

def functions (klass : Klass) : List Prototype :=
  (klass.visible ++ klass.hidden).filterMap Member.function?

/-- The names of the data members. -/
def fields (klass : Klass) : List String :=
  (klass.visible ++ klass.hidden).filterMap Member.data?

end Klass

/-- Functions of one name must take different types. -/
def Prototype.Apart (first second : Prototype) : Prop :=
  first.name = second.name → first.types ≠ second.types

instance (first second : Prototype) : Decidable (first.Apart second) :=
  inferInstanceAs (Decidable (_ → _))

/-- No member of a class is declared twice. -/
structure Klass.Legal (klass : Klass) : Prop where
  fields : klass.fields.Nodup
  separate : ∀ field ∈ klass.fields, ∀ function ∈ klass.functions, field ≠ function.name
  functions : klass.functions.Pairwise Prototype.Apart

namespace Prototype.Apart

variable {first second : Prototype}

theorem symm (apart : first.Apart second) : second.Apart first :=
  fun same types => apart same.symm types.symm

theorem of_name (different : first.name ≠ second.name) : first.Apart second :=
  fun same => absurd same different

theorem empty_iff (none : first.types = []) :
    first.Apart second ↔ (second.name = first.name → second.types ≠ []) := by
  rw [Apart, none]
  exact ⟨fun apart same => (apart same.symm).symm, fun apart same => (apart same.symm).symm⟩

theorem comm : first.Apart second ↔ second.Apart first :=
  ⟨symm, symm⟩

theorem of_type {text : String} (inside : text ∈ first.types) (outside : text ∉ second.types) : first.Apart second :=
  fun _ same => outside (same ▸ inside)

theorem of_foreign (different : first.foreign ≠ second.foreign) : first.Apart second :=
  fun _ same => different (congrArg (List.filter (· ∈ foreignTypes)) same)

/-- Functions made for items whose names differ, and named after these. -/
theorem pairwise {α : Type} {items : List α} {name : α → String} {function : α → Prototype}
    (names : (items.map name).Nodup)
    (named : ∀ first second, (function first).name = (function second).name → name first = name second) :
    (items.map function).Pairwise Prototype.Apart := by
  refine List.pairwise_map.mpr ((List.pairwise_map.mp names).imp ?_)
  exact fun {first second} different => .of_name fun same => different (named first second same)

/-- Only functions that take the same from the bus need to be compared. -/
theorem groups_iff {groups : List (List String × List Prototype)} (different : (groups.map Prod.fst).Nodup)
    (taken : ∀ group ∈ groups, ∀ function ∈ group.2, function.foreign = group.1) :
    (groups.flatMap Prod.snd).Pairwise Prototype.Apart ↔ ∀ group ∈ groups, group.2.Pairwise Prototype.Apart := by
  rw [List.pairwise_flatMap]
  refine and_iff_left ((List.pairwise_map.mp different).imp_of_mem ?_)
  intro one other inOne inOther different first inFirst second inSecond
  refine .of_foreign ?_
  rwa [taken one inOne first inFirst, taken other inOther second inSecond]

end Prototype.Apart

namespace Member

@[simp] theorem functions_function (functions : List Prototype) :
    (functions.map Member.function).filterMap function? = functions := by
  rw [List.filterMap_map]
  exact List.filterMap_some

@[simp] theorem functions_data (vs : List Variable) : (vs.map Member.data).filterMap function? = [] := by
  rw [List.filterMap_map]
  exact List.filterMap_eq_nil_iff.mpr fun _ _ => rfl

@[simp] theorem data_function (functions : List Prototype) : (functions.map Member.function).filterMap data? = [] := by
  rw [List.filterMap_map]
  exact List.filterMap_eq_nil_iff.mpr fun _ _ => rfl

@[simp] theorem data_data (vs : List Variable) : (vs.map Member.data).filterMap data? = vs.map Variable.name := by
  rw [List.filterMap_map]
  exact congrFun List.filterMap_eq_map vs

/-- Members made for items hold no data if none of them does. -/
theorem data_flatMap {α : Type} (items : List α) {members : α → List Member}
    (none : ∀ item, (members item).filterMap data? = []) : (items.flatMap members).filterMap data? = [] := by
  rw [List.filterMap_flatMap]
  exact List.flatMap_eq_nil_iff.mpr fun item _ => none item

end Member
end Code

theorem ne_of_head {first second : String} (different : first.toList.head? ≠ second.toList.head?) : first ≠ second := by
  rintro rfl
  exact different rfl

theorem ne_of_last {first second : String} (different : first.toList.getLast? ≠ second.toList.getLast?) :
    first ≠ second := by
  rintro rfl
  exact different rfl

/-- What these types are made of. -/
def foreignElements : List String :=
  ["BusAttachment", "char", "InterfaceDescription::Member", "Message"]

namespace Slot

/-- The name of the type that keeps one element of a value. -/
def elementText (slot : Slot) (name : String) : String :=
  (slot.elementType [] name).text

theorem elementText_cases (slot : Slot) (name : String) :
    (∃ kind : Scalar, slot.elementText name = kind.typeText) ∨ slot.elementText name = "MsgArg" ∨
      slot.elementText name = name ++ "Struct" ∨ slot.elementText name = name ++ "DictEntry" := by
  cases slot with
  | scalar kind | scalars kind => exact .inl ⟨kind, rfl⟩
  | variant | boxed => exact .inr (.inl rfl)
  | struct | structs => exact .inr (.inr (.inl rfl))
  | dict => exact .inr (.inr (.inr rfl))

/-- The last letter tells a value's type from the types of what the bus brings along. -/
theorem elementText_last (slot : Slot) (name : String) :
    ∃ c, (slot.elementText name).toList.getLast? = some c ∧ c ∉ ['&', '*', 'd'] := by
  rcases slot.elementText_cases name with ⟨kind, same⟩ | same | same | same <;> rw [same]
  · cases kind <;> exact ⟨_, rfl, by decide⟩
  · exact ⟨'g', rfl, by decide⟩
  · exact ⟨'t', by simp, by decide⟩
  · exact ⟨'y', by simp, by decide⟩

theorem elementText_own (slot : Slot) (name : String) : slot.elementText name ∉ foreignElements := by
  rcases slot.elementText_cases name with ⟨kind, same⟩ | same | same | same <;> rw [same]
  · cases kind <;> decide
  · decide
  · intro inside
    have others : ∀ text ∈ foreignElements, text.toList.reverse.take 2 ≠ ['t', 'c'] := by decide
    exact others _ inside (by simp)
  · intro inside
    have others : ∀ text ∈ foreignElements, text.toList.getLast? ≠ some 'y' := by decide
    exact others _ inside (by simp)

theorem input_types (slot : Slot) (name : String) : (slot.params name .input).map Param.typeText =
    if slot.isCounted then ["const " ++ slot.elementText name ++ " *", "size_t"] else [slot.elementText name] := by
  unfold params
  cases slot.isCounted <;>
    simp [Param.typeText, CType.text, CType.stem, CType.starText, CType.constPointer, elementText, String.append_assoc]
  rfl

theorem output_types (slot : Slot) (name : String) : (slot.params name .output).map Param.typeText =
    if slot.isCounted then [slot.elementText name ++ " *&", "size_t&"] else [slot.elementText name ++ "&"] := by
  unfold params
  cases slot.isCounted <;>
    simp [Param.typeText, CType.text, CType.stem, CType.starText, CType.pointer, elementText, String.append_assoc]
  rfl

theorem value_own (slot : Slot) (name : String) : slot.elementText name ∉ foreignTypes := by
  obtain ⟨c, last, letters⟩ := slot.elementText_last name
  have signs : ∀ text ∈ foreignTypes, text.toList.getLast? ∈ ['&', '*', 'd'].map some := by decide
  intro inside
  obtain ⟨sign, known, same⟩ := List.mem_map.mp (signs _ inside)
  obtain rfl : sign = c := Option.some.inj (same.trans last)
  exact letters known

theorem pointer_own (slot : Slot) (name : String) : "const " ++ slot.elementText name ++ " *" ∉ foreignTypes := by
  have pointers : ∀ text ∈ foreignTypes, text.toList.head? = some 'c' →
      ∃ element ∈ foreignElements, text = "const " ++ element ++ " *" := by decide
  intro inside
  obtain ⟨element, known, same⟩ := pointers _ inside (by simp)
  obtain rfl : slot.elementText name = element := by simpa using same
  exact slot.elementText_own name known

theorem reference_own (slot : Slot) (name : String) : slot.elementText name ++ "&" ∉ foreignTypes := by
  have references : ∀ text ∈ foreignTypes, text.toList.getLast? = some '&' →
      ∃ element ∈ foreignElements, text = element ++ "&" := by decide
  intro inside
  obtain ⟨element, known, same⟩ := references _ inside (by simp)
  obtain rfl : slot.elementText name = element := by simpa using same
  exact slot.elementText_own name known

theorem pointerReference_own (slot : Slot) (name : String) : slot.elementText name ++ " *&" ∉ foreignTypes := by
  have others : ∀ text ∈ foreignTypes, text.toList.reverse.take 2 ≠ ['&', '*'] := by decide
  intro inside
  exact others _ inside (by simp)

theorem types_own (slot : Slot) (name : String) (direction : Direction) :
    ∀ text ∈ (slot.params name direction).map Param.typeText, text ∉ foreignTypes := by
  cases direction with
  | input =>
    rw [input_types]
    split
    · exact List.forall_mem_cons.mpr ⟨slot.pointer_own name, by simp [foreignTypes]⟩
    · simpa using slot.value_own name
  | output =>
    rw [output_types]
    split
    · exact List.forall_mem_cons.mpr ⟨slot.pointerReference_own name, by simp [foreignTypes]⟩
    · simpa using slot.reference_own name

theorem inputs_plain (slot : Slot) (name : String) :
    ∀ text ∈ (slot.params name .input).map Param.typeText, text.toList.getLast? ≠ some '&' := by
  obtain ⟨c, last, letters⟩ := slot.elementText_last name
  rw [input_types]
  split
  · have pointer : ("const " ++ slot.elementText name ++ " *").toList.getLast? = some '*' := by
      rw [String.toList_append, List.getLast?_append]
      rfl
    simp only [List.forall_mem_cons, pointer]
    decide
  · simp only [List.forall_mem_singleton, last, ne_eq, Option.some.injEq]
    rintro rfl
    exact letters (by simp)

theorem outputs_references (slot : Slot) (name : String) :
    ∀ text ∈ (slot.params name .output).map Param.typeText, text.toList.getLast? = some '&' := by
  rw [output_types]
  split <;> simp

theorem types_ne_nil (slot : Slot) (name : String) (direction : Direction) :
    (slot.params name direction).map Param.typeText ≠ [] := by
  cases direction with
  | input => rw [input_types]; split <;> simp
  | output => rw [output_types]; split <;> simp

end Slot

/-- No value is brought along by the bus. -/
theorem types_own (args : List TypedArg) (direction : TypedArg → Direction) :
    ∀ text ∈ (args.flatMap fun arg => arg.params (direction arg)).map Param.typeText, text ∉ foreignTypes := by
  rw [List.map_flatMap]
  intro text inside
  obtain ⟨arg, -, inside⟩ := List.mem_flatMap.mp inside
  exact arg.slot.types_own arg.name (direction arg) text inside

theorem foreign_eq_nil {texts : List String} (own : ∀ text ∈ texts, text ∉ foreignTypes) :
    texts.filter (· ∈ foreignTypes) = [] := by
  simpa [List.filter_eq_nil_iff] using own

theorem types_eq_nil {args : List TypedArg} {direction : TypedArg → Direction} :
    (args.flatMap fun arg => arg.params (direction arg)).map Param.typeText = [] ↔ args = [] := by
  cases args with
  | nil => simp
  | cons arg rest =>
    rw [List.flatMap_cons, List.map_append, List.append_eq_nil_iff]
    simp only [reduceCtorEq, iff_false, not_and]
    intro none
    exact absurd none (arg.slot.types_ne_nil arg.name (direction arg))

theorem flatMap_if {α β : Type} (items : List α) (p : α → Bool) (f : α → β) :
    (items.flatMap fun item => if p item then [f item] else []) = (items.filter p).map f := by
  induction items with
  | nil => rfl
  | cons item rest ih => cases chosen : p item <;> simp [chosen, ih]

end BusStub
