import BusStub.Proofs.Accesses

/-! The names of temporaries. Code that moves a value declares a temporary for each part that cannot be moved as
it is, and names it after the place of the part: after the place of the value, that is, with a tail for the way
from there to the part. No two parts of one value have the same tail, whatever the value is called. -/

namespace BusStub
open Code

/-- The temporary for the part of a value that the tail leads to. -/
def temporary (place : Place) (tail : String) : String :=
  "temp" ++ flat place.text ++ tail

theorem flat_append (first second : String) : flat (first ++ second) = flat first ++ flat second := by
  simp [flat]

theorem flat_plain {text : String} (plain : ∀ c ∈ text.toList, c.isAlphanum) : flat text = text := by
  have other {c : Char} (inside : c ∈ text.toList) (d : Char) (sign : d.isAlphanum = false) : c ≠ d := by
    rintro rfl
    simp [plain c inside] at sign
  have kept : text.toList.filter (fun c => c != '[' && c != ']') = text.toList := by
    refine List.filter_eq_self.mpr fun c inside => ?_
    simp [other inside '[' (by decide), other inside ']' (by decide)]
  have same : (text.toList.map fun c => if c = '.' then '_' else c) = text.toList := by
    refine (List.map_congr_left fun c inside => ?_).trans (List.map_id _)
    exact if_neg (other inside '.' (by decide))
  rw [flat, kept, same, String.ofList_toList]

theorem IsMember.flat {name : String} (member : IsMember name) : flat name = name :=
  flat_plain member.alphanum

theorem temporary_field {place : Place} {name : String} (plain : flat name = name) (tail : String) :
    temporary (place.field name) tail = temporary place ("_" ++ name ++ tail) := by
  have dot : flat "." = "_" := by decide
  simp only [temporary, Place.text, flat_append, plain, dot, String.append_assoc]

theorem temporaries_field {place : Place} {name : String} (plain : flat name = name) (tails : List String) :
    tails.map (temporary (place.field name)) = (tails.map ("_" ++ name ++ ·)).map (temporary place) := by
  rw [List.map_map]
  exact List.map_congr_left fun tail _ => temporary_field plain tail

theorem temporary_element (place : Place) (depth : Nat) (tail : String) :
    temporary (place.element depth) tail = temporary place (counter depth ++ tail) := by
  have plain : flat (counter depth) = counter depth := by
    refine flat_plain fun c inside => ?_
    rcases List.mem_cons.mp (by simpa [counter] using inside : c ∈ 'i' :: _) with rfl | digit
    · decide
    · simp [Char.isAlphanum, repr_digits depth c (by simpa using digit)]
  have brackets : flat "[" = "" ∧ flat "]" = "" := by decide
  simp only [temporary, Place.text, flat_append, plain, brackets.1, brackets.2, String.append_assoc,
    String.empty_append]

theorem temporary_inj {place : Place} {tail tail' : String} (same : temporary place tail = temporary place tail') :
    tail = tail' := by
  simpa [temporary] using same

theorem counter_ne_temporary (depth : Nat) (place : Place) (tail : String) : counter depth ≠ temporary place tail := by
  intro same
  have first := congrArg (fun text => text.toList.head?) same
  simp [counter, temporary] at first

theorem scope_nodup (depth : Nat) (place : Place) {tails : List String} (nodup : tails.Nodup) :
    (counter depth :: tails.map (temporary place)).Nodup := by
  refine List.nodup_cons.mpr ⟨?_, nodup.map fun _ _ => temporary_inj⟩
  intro inside
  obtain ⟨tail, -, same⟩ := List.mem_map.mp inside
  exact counter_ne_temporary depth place tail same.symm

mutual
/-- The tails of the temporaries for a value: those of its members if it is a struct, else what `own` says. -/
def Slot.tails (own : Slot → List String) : Slot → List String
  | .struct fields => fields.tails own
  | slot => own slot
termination_by structural slot => slot

def Fields.tails (own : Slot → List String) : Fields → List String
  | .nil => []
  | .cons name slot rest => (slot.tails own).map ("_" ++ name ++ ·) ++ rest.tails own
termination_by structural fields => fields
end

mutual
/-- The tails of the temporaries for a value and, in loops from counter `depth` on, for its elements. -/
def Slot.allTails (own : Slot → List String) (depth : Nat) : Slot → List String
  | .struct fields => fields.allTails own depth
  | .scalars kind => own (.scalars kind) ++ (own (.scalar kind)).map (counter depth ++ ·)
  | .structs fields => own (.structs fields) ++ (fields.allTails own (depth + 1)).map (counter depth ++ ·)
  | .dict key value =>
    own (.dict key value) ++ ((own (.scalar key)).map ("_" ++ "key" ++ ·) ++
      (value.allTails own (depth + 1)).map ("_" ++ "value" ++ ·)).map (counter depth ++ ·)
  | .scalar kind => own (.scalar kind)
  | .variant => own .variant
  | .boxed type => own (.boxed type)
termination_by structural slot => slot

def Fields.allTails (own : Slot → List String) (depth : Nat) : Fields → List String
  | .nil => []
  | .cons name slot rest => (slot.allTails own depth).map ("_" ++ name ++ ·) ++ rest.allTails own depth
termination_by structural fields => fields
end

def Parcel.allTails (own : Slot → List String) (depth : Nat) : Parcel → List String
  | .whole slot => slot.allTails own depth
  | .entry key value =>
    (own (.scalar key)).map ("_" ++ "key" ++ ·) ++ (value.allTails own depth).map ("_" ++ "value" ++ ·)

/-- Packing declares a buffer for a counted value whose elements are converted first. -/
def Slot.bufferTails : Slot → List String
  | .scalars kind => if kind.isText then ["Array"] else []
  | .structs _ => ["Arg"]
  | .dict _ _ => ["DictEntries"]
  | .scalar _ | .variant | .boxed _ | .struct _ => []

/-- Unpacking declares a temporary for everything that the message only lends. -/
def Slot.borrowTails : Slot → List String
  | .scalar kind => if kind.isText then [""] else []
  | .variant | .boxed _ => [""]
  | .scalars _ => ["Array"]
  | .structs _ => ["Arg"]
  | .dict _ _ => ["DictEntries"]
  | .struct _ => []

theorem Fields.tails_eq (own : Slot → List String) (fields : Fields) :
    fields.tails own = fields.toList.flatMap fun field => (field.2.tails own).map ("_" ++ field.1 ++ ·) := by
  cases fields with
  | nil => rfl
  | cons name slot rest => rw [Fields.tails, Fields.toList, List.flatMap_cons, Fields.tails_eq own rest]

theorem Fields.allTails_eq (own : Slot → List String) (depth : Nat) (fields : Fields) :
    fields.allTails own depth =
      fields.toList.flatMap fun field => (field.2.allTails own depth).map ("_" ++ field.1 ++ ·) := by
  cases fields with
  | nil => rfl
  | cons name slot rest => rw [Fields.allTails, Fields.toList, List.flatMap_cons, Fields.allTails_eq own depth rest]

mutual
theorem Slot.tails_sublist (own : Slot → List String) (depth : Nat) : (slot : Slot) →
    (slot.tails own).Sublist (slot.allTails own depth)
  | .struct fields => Fields.tails_sublist own depth fields
  | .scalars _ | .structs _ | .dict _ _ => List.sublist_append_left _ _
  | .scalar _ | .variant | .boxed _ => List.Sublist.refl _

theorem Fields.tails_sublist (own : Slot → List String) (depth : Nat) : (fields : Fields) →
    (fields.tails own).Sublist (fields.allTails own depth)
  | .nil => List.Sublist.refl _
  | .cons _ slot rest =>
    ((Slot.tails_sublist own depth slot).map _).append (Fields.tails_sublist own depth rest)
end

/-- The last part of a tail: nothing, or what the temporary holds instead of the value. -/
def endings : List String :=
  ["", "Array", "Arg", "DictEntries"]

/-- A tail is only an ending, or leads to a member first. -/
def IsTail (tail : String) : Prop :=
  tail ∈ endings ∨ tail.toList.head? = some '_'

/-- A tail is only an ending, or leads to a member or an element first. -/
def IsWay (tail : String) : Prop :=
  tail ∈ endings ∨ tail.toList.head? = some '_' ∨ tail.toList.head? = some 'i'

theorem IsWay.noDigit {tail : String} (known : IsWay tail) : NoDigit tail := by
  have none : ∀ ending ∈ endings, NoDigit ending := by simp [endings, NoDigit]
  rcases known with ending | member | element
  · exact none tail ending
  · simp [NoDigit, member]
  · simp [NoDigit, element]

/-- What `own` says of each value that is no struct: different endings, for a counted value that of its elements. -/
structure Tailed (own : Slot → List String) : Prop where
  nodup : ∀ slot, (own slot).Nodup
  known : ∀ slot, ∀ tail ∈ own slot, tail ∈ endings
  counted : ∀ slot, slot.isCounted → "" ∉ own slot

theorem Slot.bufferTails_tailed : Tailed Slot.bufferTails where
  nodup slot := by cases slot <;> simp only [bufferTails] <;> (try split) <;> decide
  known slot := by cases slot <;> simp only [bufferTails] <;> (try split) <;> simp [endings]
  counted slot := by cases slot <;> simp only [bufferTails] <;> (try split) <;> simp [isCounted]

theorem Slot.borrowTails_tailed : Tailed Slot.borrowTails where
  nodup slot := by cases slot <;> simp only [borrowTails] <;> (try split) <;> decide
  known slot := by cases slot <;> simp only [borrowTails] <;> (try split) <;> simp [endings]
  counted slot := by cases slot <;> simp only [borrowTails] <;> (try split) <;> simp [isCounted]

section
variable {own : Slot → List String} (tailed : Tailed own)
include tailed

theorem Slot.tails_known (slot : Slot) : ∀ tail ∈ slot.tails own, IsTail tail := by
  cases slot with
  | struct fields =>
    rw [Slot.tails, Fields.tails_eq]
    intro tail inside
    obtain ⟨field, -, inside⟩ := List.mem_flatMap.mp inside
    obtain ⟨rest, -, rfl⟩ := List.mem_map.mp inside
    simp [IsTail]
  | scalar | variant | boxed | scalars | structs | dict => exact fun tail inside => .inl (tailed.known _ tail inside)

theorem Slot.tails_counted {slot : Slot} (counted : slot.isCounted) :
    ∀ tail ∈ slot.tails own, tail ∈ endings ∧ tail ≠ "" := by
  cases slot with
  | scalars | structs | dict =>
    intro tail inside
    refine ⟨tailed.known _ tail inside, ?_⟩
    rintro rfl
    exact tailed.counted _ counted inside
  | scalar | variant | boxed | struct => cases counted

theorem Slot.allTails_known (depth : Nat) (slot : Slot) : ∀ tail ∈ slot.allTails own depth, IsWay tail := by
  have member {name : String} {tails : List String} : ∀ tail ∈ tails.map ("_" ++ name ++ ·), IsWay tail := by
    intro tail inside
    obtain ⟨rest, -, rfl⟩ := List.mem_map.mp inside
    simp [IsWay]
  have element {slot : Slot} {tails : List String} :
      ∀ tail ∈ own slot ++ tails.map (counter depth ++ ·), IsWay tail := by
    refine List.forall_mem_append.mpr ⟨fun tail inside => .inl (tailed.known slot tail inside), ?_⟩
    intro tail inside
    obtain ⟨rest, -, rfl⟩ := List.mem_map.mp inside
    simp [IsWay, counter]
  cases slot with
  | struct fields =>
    rw [Slot.allTails, Fields.allTails_eq]
    intro tail inside
    obtain ⟨field, -, inside⟩ := List.mem_flatMap.mp inside
    exact member tail inside
  | scalars | structs | dict => exact element
  | scalar | variant | boxed => exact fun tail inside => .inl (tailed.known _ tail inside)

/-- What a value's own temporary is called does not meet what those of its elements are called. -/
theorem Slot.elementTails_nodup (slot : Slot) (depth : Nat) {tails : List String} (nodup : tails.Nodup) :
    (own slot ++ tails.map (counter depth ++ ·)).Nodup := by
  refine List.nodup_append.mpr ⟨tailed.nodup slot, nodup.map fun _ _ same => by simpa using same, ?_⟩
  intro tail inOwn tail' inTails same
  obtain ⟨rest, -, rfl⟩ := List.mem_map.mp inTails
  have none : ∀ ending ∈ endings, ending.toList.head? ≠ some 'i' := by decide
  exact none tail (tailed.known slot tail inOwn) (by simp [same, counter])

mutual
theorem Slot.allTails_nodup (depth : Nat) : (type : BusType) → ((Slot.of type).allTails own depth).Nodup
  | .basic _ | .variant | .array .variant | .array (.array _) | .array (.dict _ _) => tailed.nodup _
  | .array (.basic kind) => Slot.elementTails_nodup tailed _ depth (tailed.nodup (.scalar kind))
  | .array (.struct members) => Slot.elementTails_nodup tailed _ depth (Fields.allTails_nodup (depth + 1) {} members)
  | .dict key value => Slot.elementTails_nodup tailed _ depth (Parcel.entryTails_nodup (depth + 1) key value)
  | .struct members => Fields.allTails_nodup depth {} members

theorem Parcel.entryTails_nodup (depth : Nat) (key : Scalar) (value : BusType) :
    ((Parcel.entry key (Slot.of value)).allTails own depth).Nodup := by
  have first : (own (.scalar key)).Nodup := tailed.nodup (.scalar key)
  have second := Slot.allTails_nodup depth value
  refine List.nodup_append.mpr
    ⟨first.map fun _ _ same => by simpa using same, second.map fun _ _ same => by simpa using same, ?_⟩
  intro tail inFirst tail' inSecond same
  obtain ⟨left, -, rfl⟩ := List.mem_map.mp inFirst
  obtain ⟨right, -, rfl⟩ := List.mem_map.mp inSecond
  have letters := congrArg (fun text => text.toList[1]?) same
  simp at letters

theorem Fields.allTails_nodup (depth : Nat) (numbering : Numbering) : (types : List BusType) →
    ((Fields.of numbering types).allTails own depth).Nodup
  | [] => List.nodup_nil
  | type :: rest => by
    have different := Fields.different numbering (type :: rest)
    simp only [Fields.of, Fields.toList, List.pairwise_cons] at different
    simp only [Fields.of, Fields.allTails]
    have first : ((Slot.of type).allTails own depth).Nodup := Slot.allTails_nodup depth type
    refine List.nodup_append.mpr
      ⟨first.map fun _ _ same => by simpa using same, Fields.allTails_nodup depth _ rest, ?_⟩
    -- The tails of different members part at the members' names.
    rw [Fields.allTails_eq]
    intro tail inFirst tail' inRest same
    obtain ⟨left, inside, rfl⟩ := List.mem_map.mp inFirst
    obtain ⟨field, member, inRest⟩ := List.mem_flatMap.mp inRest
    obtain ⟨right, inside', rfl⟩ := List.mem_map.mp inRest
    obtain ⟨names, one, other⟩ := different.1 field member
    rw [String.append_assoc, String.append_assoc, String.append_right_inj] at same
    exact names (one.append_inj other (Slot.allTails_known tailed depth _ left inside).noDigit
      (Slot.allTails_known tailed depth _ right inside').noDigit same).1
end

theorem Slot.tails_nodup (type : BusType) : ((Slot.of type).tails own).Nodup :=
  (Slot.allTails_nodup tailed 0 type).sublist (Slot.tails_sublist own 0 _)

theorem Fields.tails_nodup (numbering : Numbering) (types : List BusType) :
    ((Fields.of numbering types).tails own).Nodup :=
  (Fields.allTails_nodup tailed 0 numbering types).sublist (Fields.tails_sublist own 0 _)

/-- The key of a dictionary's entry has a tail of its own. -/
theorem Slot.entry_nodup (key : Scalar) (value : BusType) :
    (((Slot.scalar key).tails own).map ("_" ++ "key" ++ ·) ++
      ((Slot.of value).tails own).map ("_" ++ "value" ++ ·)).Nodup :=
  (Parcel.entryTails_nodup tailed 0 key value).sublist
    ((List.Sublist.refl _).append ((Slot.tails_sublist own 0 _).map _))

end

end BusStub
