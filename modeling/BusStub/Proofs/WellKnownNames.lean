import Mathlib.Logic.Basic
import BusStub.BusName

/-! Well-known names as elements between dots. A name is accepted exactly if its grammar writes it, and one that is
refused is told the first rule that it breaks. Empty elements are looked for as two dots in a row. The empty name has
no dots, so it is told that it has too few elements although the one that it has is empty. -/

namespace BusStub.BusName

/-- The elements of a name stand between its dots. -/
structure Dotted (name : String) (elements : List String) : Prop where
  nonempty : elements ≠ []
  plain : ∀ element ∈ elements, '.' ∉ element.toList
  joined : ".".intercalate elements = name

/-- An ASCII digit comes first. -/
def Numbered (element : String) : Prop :=
  ∃ c ∈ element.toList.head?, '0' ≤ c ∧ c ≤ '9'

structure IsWellKnown (name : String) : Prop where
  plain : ':' ∉ name.toList
  short : name.utf8ByteSize ≤ 255
  dotted : ∃ elements, Dotted name elements ∧ 2 ≤ elements.length ∧
    ∀ element ∈ elements, element ≠ "" ∧ ¬ Numbered element

def Breaks (name : String) : BusNameFault → Prop
  | .colon => ':' ∈ name.toList
  | .leadingDot => ∃ rest, name = "." ++ rest
  | .trailingDot => ∃ front, name = front ++ "."
  | .emptyElement => ∃ elements, Dotted name elements ∧ "" ∈ elements
  | .leadingDigit => ∃ elements, Dotted name elements ∧ ∃ element ∈ elements, Numbered element
  | .tooFew => ∃ elements, Dotted name elements ∧ elements.length < 2
  | .tooLong => 255 < name.utf8ByteSize

/-- The rules in the order in which a name is told about them. -/
def rules : List BusNameFault :=
  [.colon, .leadingDot, .trailingDot, .emptyElement, .leadingDigit, .tooFew, .tooLong]

def FirstBroken (name : String) (rule : BusNameFault) : Prop :=
  Breaks name rule ∧ ∃ before after, rules = before ++ rule :: after ∧ ∀ earlier ∈ before, ¬ Breaks name earlier

variable {name : String}

/-- There is one way to take a name apart. -/
theorem dotted_iff {elements : List String} : Dotted name elements ↔ elements = Text.pieces '.' name := by
  constructor
  · intro dotted
    have plain : ∀ piece ∈ elements.map String.toList, '.' ∉ piece := List.forall_mem_map.mpr dotted.plain
    have chars : name.toList = ['.'].intercalate (elements.map String.toList) := by
      rw [← dotted.joined, String.toList_intercalate]
      rfl
    rw [Text.pieces, chars, Text.split_intercalate (by simpa using dotted.nonempty) plain]
    simp
  · rintro rfl
    refine ⟨by simp [Text.pieces, Text.split_ne_nil], ?_, ?_⟩
    · intro element member
      obtain ⟨piece, inside, rfl⟩ := List.mem_map.mp member
      rw [String.toList_ofList]
      exact Text.not_mem_of_mem_split inside
    · rw [← String.toList_inj, String.toList_intercalate, Text.pieces, List.map_map]
      simpa [Function.comp_def] using Text.intercalate_split '.' name.toList

theorem exists_dotted_iff {p : List String → Prop} :
    (∃ elements, Dotted name elements ∧ p elements) ↔ p (Text.pieces '.' name) := by
  simp [dotted_iff]

theorem startsWith_dot_iff : name.startsWith '.' ↔ Breaks name .leadingDot := by
  rw [String.startsWith_char_eq_head?, beq_iff_eq, List.head?_eq_some_iff]
  constructor
  · intro ⟨rest, chars⟩
    exact ⟨String.ofList rest, by simp [← String.toList_inj, chars]⟩
  · rintro ⟨rest, rfl⟩
    exact ⟨rest.toList, by simp⟩

theorem endsWith_dot_iff : name.endsWith '.' ↔ Breaks name .trailingDot := by
  rw [String.endsWith_char_eq_getLast?, beq_iff_eq, List.getLast?_eq_some_iff]
  constructor
  · intro ⟨front, chars⟩
    exact ⟨String.ofList front, by simp [← String.toList_inj, chars]⟩
  · rintro ⟨front, rfl⟩
    exact ⟨front.toList, by simp⟩

theorem nil_mem_elements_iff : [] ∈ elements name ↔ Breaks name .emptyElement := by
  rw [Breaks, exists_dotted_iff, Text.pieces, List.mem_map]
  simp [elements]

/-- In a name that has characters, an empty element is next to a dot at an end or between two dots in a row. -/
theorem breaks_emptyElement_iff (nonempty : name ≠ "") :
    Breaks name .emptyElement ↔ Breaks name .leadingDot ∨ Breaks name .trailingDot ∨ name.contains ".." := by
  rw [← nil_mem_elements_iff, elements, Text.nil_mem_split (by simpa using nonempty), ← startsWith_dot_iff,
    ← endsWith_dot_iff, String.startsWith_char_eq_head?, String.endsWith_char_eq_getLast?,
    String.contains_string_iff, beq_iff_eq, beq_iff_eq]
  rfl

theorem startsWithDigit_iff {element : List Char} : startsWithDigit element ↔ Numbered (String.ofList element) := by
  cases element <;> simp [startsWithDigit, Numbered, Char.isDigit, Char.le_def]

theorem any_startsWithDigit_iff : (elements name).any startsWithDigit ↔ Breaks name .leadingDigit := by
  rw [Breaks, exists_dotted_iff]
  simp [Text.pieces, elements, startsWithDigit_iff]

theorem length_elements_iff : (elements name).length < 2 ↔ Breaks name .tooFew := by
  rw [Breaks, exists_dotted_iff, Text.pieces, List.length_map]
  rfl

instance : DecidablePred (Breaks name)
  | .colon => inferInstanceAs (Decidable (':' ∈ name.toList))
  | .leadingDot => decidable_of_iff _ startsWith_dot_iff
  | .trailingDot => decidable_of_iff _ endsWith_dot_iff
  | .emptyElement => decidable_of_iff _ nil_mem_elements_iff
  | .leadingDigit => decidable_of_iff _ any_startsWithDigit_iff
  | .tooFew => decidable_of_iff _ length_elements_iff
  | .tooLong => inferInstanceAs (Decidable (255 < name.utf8ByteSize))

theorem isWellKnown_iff : IsWellKnown name ↔ ∀ rule, ¬ Breaks name rule := by
  constructor
  · intro ⟨plain, short, elements, dotted, enough, sound⟩
    obtain rfl := dotted_iff.mp dotted
    have filled : ¬ Breaks name .emptyElement := by
      rw [Breaks, exists_dotted_iff]
      exact fun empty => (sound "" empty).1 rfl
    have nonempty : name ≠ "" := by
      rintro rfl
      exact filled (by decide)
    intro rule
    cases rule with
    | colon => exact plain
    | leadingDot => exact fun leading => filled ((breaks_emptyElement_iff nonempty).mpr (.inl leading))
    | trailingDot => exact fun trailing => filled ((breaks_emptyElement_iff nonempty).mpr (.inr (.inl trailing)))
    | emptyElement => exact filled
    | leadingDigit =>
      rw [Breaks, exists_dotted_iff]
      intro ⟨element, member, digit⟩
      exact (sound element member).2 digit
    | tooFew =>
      rw [Breaks, exists_dotted_iff]
      exact Nat.not_lt.mpr enough
    | tooLong => exact Nat.not_lt.mpr short
  · intro sound
    have dotted : Dotted name (Text.pieces '.' name) := dotted_iff.mpr rfl
    refine ⟨sound .colon, Nat.not_lt.mp (sound .tooLong), _, dotted, ?_, ?_⟩
    · exact Nat.not_lt.mp fun few => sound .tooFew ⟨_, dotted, few⟩
    · intro element member
      refine ⟨?_, fun digit => sound .leadingDigit ⟨_, dotted, element, member, digit⟩⟩
      rintro rfl
      exact sound .emptyElement ⟨_, dotted, member⟩

theorem find?_cons_ite {α : Type} (p : α → Prop) [DecidablePred p] (a : α) (rest : List α) :
    (a :: rest).find? (fun b => decide (p b)) = if p a then some a else rest.find? fun b => decide (p b) := by
  by_cases holds : p a <;> simp [holds]

/-- The check goes through the rules in their order. Two dots in a row are every empty element that is left once there
is no dot at an end. -/
theorem fault?_eq_find? (nonempty : name ≠ "") :
    fault? name = rules.find? fun rule => decide (Breaks name rule) := by
  have colon : name.contains ':' ↔ Breaks name .colon := by
    simp [Breaks, String.contains_char_eq]
  simp only [rules, find?_cons_ite]
  refine if_congr colon rfl ?_
  refine ite_congr (propext startsWith_dot_iff) (fun _ => rfl) fun leading => ?_
  refine ite_congr (propext endsWith_dot_iff) (fun _ => rfl) fun trailing => ?_
  have inner : name.contains ".." ↔ Breaks name .emptyElement := by
    simp [breaks_emptyElement_iff nonempty, leading, trailing]
  refine if_congr inner rfl ?_
  refine if_congr any_startsWithDigit_iff rfl ?_
  exact if_congr length_elements_iff rfl (if_congr Iff.rfl rfl rfl)

/-- The empty name has nothing that is looked for, and one element. -/
theorem fault?_empty : fault? "" = some .tooFew := by
  have dots : "".contains ".." = false := by
    simp [Bool.eq_false_iff, String.contains_string_iff]
  simp [fault?, dots, String.startsWith_char_eq_head?, String.endsWith_char_eq_getLast?, elements, Text.split,
    startsWithDigit]

theorem mem_rules (rule : BusNameFault) : rule ∈ rules := by
  cases rule <;> decide

theorem fault?_eq_none_iff : fault? name = none ↔ IsWellKnown name := by
  rw [isWellKnown_iff]
  by_cases empty : name = ""
  · subst empty
    rw [fault?_empty]
    exact iff_of_false nofun fun sound => sound .tooFew (by decide)
  · simp [fault?_eq_find? empty, mem_rules]

theorem fault?_eq_some_iff {rule : BusNameFault} :
    fault? name = some rule ↔ name = "" ∧ rule = .tooFew ∨ name ≠ "" ∧ FirstBroken name rule := by
  by_cases empty : name = ""
  · subst empty
    simp [fault?_empty, eq_comm]
  · rw [fault?_eq_find? empty, List.find?_eq_some_iff_append]
    simp [FirstBroken, empty]

theorem reason_inj {first second : BusNameFault} : first.reason = second.reason ↔ first = second := by
  cases first <;> cases second <;> simp [BusNameFault.reason]

/-- A name is accepted exactly if the grammar writes it. The reason for which another is refused is that of the first
rule that it breaks, but for the empty name, which is told that it has too few elements. -/
theorem grammar_or_first_broken (name : String) :
    (fault? name = none ↔ IsWellKnown name) ∧
    ∀ rule, (fault? name).map BusNameFault.reason = some rule.reason ↔
      name = "" ∧ rule = .tooFew ∨ name ≠ "" ∧ FirstBroken name rule := by
  refine ⟨fault?_eq_none_iff, fun rule => ?_⟩
  rw [← fault?_eq_some_iff, Option.map_eq_some_iff]
  simp [reason_inj]

/-- The one element of the empty name is empty, and the rule on that comes before the one that the name is told. -/
theorem empty_name_told_few :
    FirstBroken "" .emptyElement ∧ (fault? "").map BusNameFault.reason = some BusNameFault.tooFew.reason ∧
      BusNameFault.tooFew.reason ≠ BusNameFault.emptyElement.reason := by
  refine ⟨⟨by decide, [.colon, .leadingDot, .trailingDot], _, rfl, by decide⟩, ?_, by decide⟩
  rw [fault?_empty]
  rfl

end BusStub.BusName
