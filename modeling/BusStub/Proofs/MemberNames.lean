import Std.Data.String.ToNat
import BusStub.Slot.Declare

/-! The names that a struct gives to its members. A name is a stem that tells the sort of the member and a
number that no other member of that sort has; the names of counts and of nested structs are longer ones
that no member is called by. -/

namespace BusStub
open Code

namespace Slot

def stem : Slot → String
  | .struct _ | .structs _ => "s"
  | .dict _ _ => "d"
  | _ => "member"

end Slot

namespace Numbering

def index (numbering : Numbering) : Slot → Nat
  | .struct _ | .structs _ => numbering.structs
  | .dict _ _ => numbering.dicts
  | _ => numbering.plain

theorem name_eq (numbering : Numbering) (slot : Slot) :
    numbering.name slot = slot.stem ++ Nat.repr (numbering.index slot) := by
  cases slot <;> rfl

theorem index_next (numbering : Numbering) (slot other : Slot) :
    (numbering.next slot).index other = numbering.index other + if slot.stem = other.stem then 1 else 0 := by
  cases slot <;> cases other <;> rfl

end Numbering

private theorem Slot.stem_cases (slot : Slot) : slot.stem = "s" ∨ slot.stem = "d" ∨ slot.stem = "member" := by
  cases slot <;> simp [stem]

/-- The text does not go on with a digit. -/
def NoDigit (text : String) : Prop :=
  ∀ c ∈ text.toList.head?, c.isDigit = false

theorem repr_digits (n : Nat) : ∀ c ∈ (Nat.repr n).toList, c.isDigit := by
  intro c inside
  have digit : c ∈ Nat.toDigits 10 n := by simpa using inside
  exact Nat.isDigit_of_mem_toDigits (by decide) (by decide) digit

private theorem takeWhile_repr (n : Nat) {tail : String} (plain : NoDigit tail) :
    ((Nat.repr n).toList ++ tail.toList).takeWhile Char.isDigit = (Nat.repr n).toList := by
  rw [List.takeWhile_append_of_pos (repr_digits n)]
  cases text : tail.toList with
  | nil => simp
  | cons c rest => simp [plain c (by simp [text])]

/-- The stem and the number can be read off the front of a text that begins with a name. -/
private theorem member_append_inj {first second : Slot} {m n : Nat} {left right : String}
    (same : first.stem ++ Nat.repr m ++ left = second.stem ++ Nat.repr n ++ right)
    (plain : NoDigit left) (plain' : NoDigit right) : first.stem = second.stem ∧ m = n ∧ left = right := by
  have chars := congrArg String.toList same
  simp only [String.toList_append, List.append_assoc] at chars
  have number (tails : (Nat.repr m).toList ++ left.toList = (Nat.repr n).toList ++ right.toList) :
      m = n ∧ left = right := by
    have digits := congrArg (List.takeWhile Char.isDigit) tails
    rw [takeWhile_repr m plain, takeWhile_repr n plain'] at digits
    obtain rfl := Nat.repr_injective (String.toList_inj.mp digits)
    exact ⟨rfl, String.toList_inj.mp (List.append_cancel_left tails)⟩
  rcases first.stem_cases with a | a | a <;> rcases second.stem_cases with b | b | b <;>
    simp only [a, b, String.reduceToList, List.cons_append, List.nil_append, List.cons.injEq] at chars <;>
    first
    | exact ⟨a.trans b.symm, number (by simpa using chars)⟩
    | exact absurd chars.1 (by decide)

/-- A name that a member can have. It ends in a digit. -/
def IsMember (name : String) : Prop :=
  ∃ (slot : Slot) (n : Nat), name = slot.stem ++ Nat.repr n

theorem IsMember.getLast? {name : String} (member : IsMember name) :
    ∃ c, name.toList.getLast? = some c ∧ c.isDigit := by
  obtain ⟨slot, n, rfl⟩ := member
  cases last : (Nat.repr n).toList.getLast? with
  | none => simp at last
  | some c =>
    refine ⟨c, by simp [List.getLast?_append, -Nat.toList_repr, last], ?_⟩
    exact repr_digits n c (List.mem_of_getLast? last)

theorem IsMember.alphanum {name : String} (member : IsMember name) : ∀ c ∈ name.toList, c.isAlphanum := by
  obtain ⟨slot, n, rfl⟩ := member
  have stem : slot.stem.toList.all Char.isAlphanum := by
    rcases slot.stem_cases with same | same | same <;> rw [same] <;> decide
  intro c inside
  rw [String.toList_append] at inside
  rcases List.mem_append.mp inside with letter | digit
  · exact List.all_eq_true.mp stem c letter
  · simp [Char.isAlphanum, repr_digits n c digit]

theorem IsMember.ne_append {name : String} (member : IsMember name) (other ending : String) {c : Char}
    (ends : ending.toList.getLast? = some c) (letter : c.isDigit = false) : name ≠ other ++ ending := by
  rintro rfl
  obtain ⟨d, last, digit⟩ := member.getLast?
  simp only [String.toList_append, List.getLast?_append, ends, Option.some_or, Option.some.injEq] at last
  rw [← last, letter] at digit
  cases digit

/-- Names of members are apart also where something follows them. -/
theorem IsMember.append_inj {first second left right : String} (one : IsMember first) (other : IsMember second)
    (plain : NoDigit left) (plain' : NoDigit right) (same : first ++ left = second ++ right) :
    first = second ∧ left = right := by
  obtain ⟨slot, m, rfl⟩ := one
  obtain ⟨slot', n, rfl⟩ := other
  obtain ⟨stem, rfl, tails⟩ := member_append_inj same plain plain'
  exact ⟨by rw [stem], tails⟩

/-- Later members have greater numbers. -/
theorem Fields.numbered (numbering : Numbering) (types : List BusType) :
    ∀ field ∈ (Fields.of numbering types).toList,
      ∃ n, numbering.index field.2 ≤ n ∧ field.1 = field.2.stem ++ Nat.repr n := by
  induction types generalizing numbering with
  | nil => simp [Fields.of, Fields.toList]
  | cons type rest ih =>
    intro field member
    simp only [Fields.of, Fields.toList, List.mem_cons] at member
    rcases member with rfl | member
    · exact ⟨_, Nat.le_refl _, numbering.name_eq _⟩
    · obtain ⟨n, bound, named⟩ := ih _ field member
      rw [Numbering.index_next] at bound
      exact ⟨n, by omega, named⟩

theorem Fields.isMember {numbering : Numbering} {types : List BusType} {field : String × Slot}
    (member : field ∈ (Fields.of numbering types).toList) : IsMember field.1 := by
  obtain ⟨n, _, named⟩ := Fields.numbered numbering types field member
  exact ⟨field.2, n, named⟩

theorem Fields.names_nodup (numbering : Numbering) (types : List BusType) :
    ((Fields.of numbering types).toList.map Prod.fst).Nodup := by
  induction types generalizing numbering with
  | nil => simp [Fields.of, Fields.toList]
  | cons type rest ih =>
    simp only [Fields.of, Fields.toList, List.map_cons, List.nodup_cons]
    refine ⟨?_, ih _⟩
    intro repeated
    obtain ⟨field, member, same⟩ := List.mem_map.mp repeated
    obtain ⟨n, bound, named⟩ := Fields.numbered _ rest field member
    rw [named, Numbering.name_eq] at same
    obtain ⟨stem, rfl, -⟩ := member_append_inj (congrArg (· ++ "") same) (by simp [NoDigit]) (by simp [NoDigit])
    -- The head took the number that the tail starts above.
    rw [Numbering.index_next, if_pos stem.symm] at bound
    have equal : numbering.index field.2 = numbering.index (Slot.of type) := by
      revert stem
      cases field.2 <;> cases Slot.of type <;> simp [Slot.stem, Numbering.index]
    omega

theorem countName_inj {first second : String} (same : countName first = countName second) : first = second := by
  simpa [countName] using same

theorem IsMember.ne_countName {name : String} (member : IsMember name) (other : String) :
    name ≠ countName other :=
  member.ne_append other "NumElements" (c := 's') rfl rfl

end BusStub
