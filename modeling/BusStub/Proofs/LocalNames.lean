import Mathlib.Data.List.Infix
import Mathlib.Data.List.Perm.Basic
import BusStub.Proofs.Scopes

/-! Names declared twice. One argument never brings a name twice into a function, nor a name that the function
declares for itself; but the names made from one argument may meet those made from another. Whether a function
declares a name twice is up to this alone. -/

namespace BusStub
open Code Routine

/-- Different names, none of which generated code declares for itself. -/
structure Fresh (names : List String) : Prop where
  nodup : names.Nodup
  free : ∀ name ∈ names, name ∉ reservedNames

theorem Fresh.sublist {names more : List String} (fresh : Fresh more) (fewer : names.Sublist more) : Fresh names :=
  ⟨fresh.nodup.sublist fewer, fun name inside => fresh.free name (fewer.subset inside)⟩

theorem Fresh.only {names more : List String} {condition : Prop} [Decidable condition] (fresh : Fresh (names ++ more)) :
    Fresh (names ++ if condition then more else []) := by
  refine fresh.sublist ((List.Sublist.refl names).append ?_)
  split
  · exact List.Sublist.refl more
  · exact List.nil_sublist more

theorem countName_free (name : String) : countName name ∉ reservedNames := by
  have others : ∀ reserved ∈ reservedNames, reserved.length < 11 ∨ reserved.toList.getLast? ≠ some 's' := by decide
  intro inside
  rcases others _ inside with short | last
  · have ending : "NumElements".length = 11 := rfl
    rw [countName, String.length_append] at short
    omega
  · simp [countName] at last

theorem temporary_free (place : Place) (tail : String) : temporary place tail ∉ reservedNames := by
  have others : ∀ reserved ∈ reservedNames, reserved.toList.take 4 ≠ "temp".toList := by decide
  intro inside
  exact others _ inside (by simp [temporary])

theorem ne_countName (name : String) : name ≠ countName name := by
  intro same
  have length := congrArg String.length same
  simp [countName] at length

theorem countName_ne_temporary (name : String) (place : Place) {tail : String}
    (ending : tail ∈ endings ∧ tail ≠ "") : countName name ≠ temporary place tail := by
  intro same
  have last := congrArg (fun text => text.toList.reverse.take 2) same
  simp only [endings, List.mem_cons, List.not_mem_nil, or_false] at ending
  rcases ending with ⟨rfl | rfl | rfl | rfl, nonempty⟩
  · exact nonempty rfl
  all_goals simp [countName, temporary] at last

theorem Slot.localNames_nodup (slot : Slot) (name : String) : (slot.localNames name).Nodup := by
  rw [localNames, Slot.locals_names]
  split
  · simpa using ne_countName name
  · exact List.nodup_singleton name

/-- The variables that keep a value and its temporaries have different names. -/
theorem Slot.names_nodup {own : Slot → List String} (tailed : Tailed own) (type : BusType) (name : String) :
    ((Slot.of type).localNames name ++ ((Slot.of type).tails own).map (temporary (.root name))).Nodup := by
  refine List.nodup_append.mpr
    ⟨Slot.localNames_nodup _ name, (Slot.tails_nodup tailed type).map fun _ _ => temporary_inj, ?_⟩
  intro text inKept other inMoved same
  obtain ⟨tail, inside, rfl⟩ := List.mem_map.mp inMoved
  rw [localNames, Slot.locals_names] at inKept
  split at inKept
  next counted =>
    rcases List.mem_pair.mp inKept with rfl | rfl
    · exact temporary_ne (.root text) tail same.symm
    · exact countName_ne_temporary name _ (Slot.tails_counted tailed counted tail inside) same
  next =>
    obtain rfl := List.mem_singleton.mp inKept
    exact temporary_ne (.root text) tail same.symm

theorem Slot.borrowed_sublist (slot : Slot) (name : String) :
    (slot.borrowed name).Sublist ((slot.tails borrowTails).map (temporary (.root name))) := by
  unfold borrowed
  split
  · exact List.nil_sublist _
  · exact List.Sublist.refl _

/-- The names that one value brings into a function. -/
theorem Slot.fresh {own : Slot → List String} (tailed : Tailed own) (type : BusType) {name : String}
    (free : isReserved name = false) :
    Fresh ((Slot.of type).localNames name ++ ((Slot.of type).tails own).map (temporary (.root name))) := by
  have unreserved : name ∉ reservedNames := by
    intro inside
    simp [isReserved, inside] at free
  refine ⟨Slot.names_nodup tailed type name, List.forall_mem_append.mpr ⟨?_, fun text inside => ?_⟩⟩
  · rw [localNames, Slot.locals_names]
    split
    · simpa using ⟨unreserved, countName_free name⟩
    · simpa using unreserved
  · obtain ⟨tail, -, rfl⟩ := List.mem_map.mp inside
    exact temporary_free _ _

namespace TypedArg

/-- What an argument brings into a function that packs it. -/
def packed (arg : TypedArg) : List String :=
  arg.localNames ++ arg.buffers

/-- What an argument brings into a function that unpacks it. -/
def unpacked (arg : TypedArg) : List String :=
  arg.localNames ++ arg.borrowed

/-- What an argument brings into a call, which packs inputs. -/
def inCall (arg : TypedArg) : List String :=
  arg.localNames ++ if arg.arg.direction = .input then arg.buffers else []

/-- What an argument brings into a method handler, which unpacks inputs. -/
def inHandler (arg : TypedArg) : List String :=
  arg.localNames ++ if arg.arg.direction = .input then arg.borrowed else []

variable {arg : TypedArg}

theorem packed_fresh (free : isReserved arg.name = false) : Fresh arg.packed :=
  Slot.fresh Slot.bufferTails_tailed arg.type free

theorem unpacked_fresh (free : isReserved arg.name = false) : Fresh arg.unpacked :=
  (Slot.fresh Slot.borrowTails_tailed arg.type free).sublist
    ((List.Sublist.refl _).append (Slot.borrowed_sublist arg.slot arg.name))

theorem inCall_fresh (free : isReserved arg.name = false) : Fresh arg.inCall :=
  (packed_fresh free).only

theorem inHandler_fresh (free : isReserved arg.name = false) : Fresh arg.inHandler :=
  (unpacked_fresh free).only

theorem params_names (arg : TypedArg) (direction : Direction) :
    (arg.params direction).map Param.name = arg.localNames := by
  rw [params, localNames, Slot.localNames, Slot.locals_names]
  cases direction <;> cases counted : arg.slot.isCounted <;> simp [Slot.params, counted]

end TypedArg

/-- No name that one argument brings is brought by another. -/
def Separate (names : TypedArg → List String) (args : List TypedArg) : Prop :=
  args.Pairwise fun first second => ∀ name ∈ names first, name ∉ names second

instance (names : TypedArg → List String) (args : List TypedArg) : Decidable (Separate names args) :=
  inferInstanceAs (Decidable (args.Pairwise _))

theorem flatMap_nodup_iff {names : TypedArg → List String} {args : List TypedArg}
    (fresh : ∀ arg ∈ args, Fresh (names arg)) : (args.flatMap names).Nodup ↔ Separate names args := by
  rw [List.nodup_flatMap, and_iff_right fun arg inside => (fresh arg inside).nodup]
  exact List.Pairwise.iff fun _ _ => List.disjoint_left

theorem Fresh.beside {own names : List String} (fresh : Fresh names) (different : own.Nodup)
    (reserved : own ⊆ reservedNames) : (own ++ names).Nodup := by
  refine List.nodup_append.mpr ⟨different, fresh.nodup, ?_⟩
  rintro name inOwn _ inside rfl
  exact fresh.free name inside (reserved inOwn)

/-- A scope that holds the names of some arguments and, beside them, only names that are reserved for it. -/
theorem scope_nodup_iff {scope own : List String} {names : TypedArg → List String} {args : List TypedArg}
    (perm : scope.Perm (own ++ args.flatMap names)) (different : own.Nodup) (reserved : own ⊆ reservedNames)
    (fresh : ∀ arg ∈ args, Fresh (names arg)) : scope.Nodup ↔ Separate names args := by
  rw [perm.nodup_iff, ← flatMap_nodup_iff fresh]
  refine ⟨fun nodup => (List.nodup_append.mp nodup).2.1, fun nodup => Fresh.beside ⟨nodup, ?_⟩ different reserved⟩
  intro name inArgs
  obtain ⟨arg, inside, member⟩ := List.mem_flatMap.mp inArgs
  exact (fresh arg inside).free name member

theorem TypedMethod.params_names (method : TypedMethod) :
    method.params.map Param.name = method.args.flatMap TypedArg.localNames := by
  rw [params, List.map_flatMap]
  exact List.flatMap_congr fun arg _ => arg.params_names _

theorem input_names (args : List TypedArg) :
    (args.flatMap fun arg => arg.params .input).map Param.name = args.flatMap TypedArg.localNames := by
  rw [List.map_flatMap]
  exact List.flatMap_congr fun arg _ => arg.params_names _

/-- A property's value as an argument of its accessors. -/
def TypedProperty.value (property : TypedProperty) : TypedArg :=
  ⟨property.property.arg, property.type⟩

theorem TypedProperty.params_names (property : TypedProperty) (direction : Direction) :
    (property.params direction).map Param.name = property.value.localNames :=
  property.value.params_names direction

theorem packed_perm (args : List TypedArg) :
    (args.flatMap TypedArg.localNames ++ args.flatMap TypedArg.buffers).Perm (args.flatMap TypedArg.packed) :=
  List.flatMap_append_perm args _ _

theorem TypedMethod.call_perm (method : TypedMethod) :
    (method.args.flatMap TypedArg.localNames ++ method.inArgs.flatMap TypedArg.buffers).Perm
      (method.args.flatMap TypedArg.inCall) := by
  have inputs : method.inArgs.flatMap TypedArg.buffers =
      method.args.flatMap fun arg => if arg.arg.direction = .input then arg.buffers else [] := by
    unfold inArgs
    induction method.args with
    | nil => rfl
    | cons arg rest ih => by_cases input : arg.arg.direction = .input <;> simp [input, ih]
  rw [inputs]
  exact List.flatMap_append_perm method.args _ _

theorem TypedMethod.handler_perm (method : TypedMethod) :
    (method.inArgs.flatMap TypedArg.unpacked ++ method.outArgs.flatMap TypedArg.localNames).Perm
      (method.args.flatMap TypedArg.inHandler) := by
  unfold inArgs outArgs
  induction method.args with
  | nil => exact .refl _
  | cons arg rest ih =>
    cases direction : arg.arg.direction with
    | input =>
      have first : arg.inHandler = arg.unpacked := by simp [TypedArg.inHandler, TypedArg.unpacked, direction]
      simpa [direction, first] using ih.append_left arg.unpacked
    | output =>
      have first : arg.inHandler = arg.localNames := by simp [TypedArg.inHandler, direction]
      simpa [direction, first] using (List.perm_append_comm_assoc _ _ _).trans (ih.append_left arg.localNames)

/-- A name that does not look like one made from another name. -/
structure PlainName (name : String) : Prop where
  letters : ∀ c ∈ name.toList, c.isAlphanum
  start : ¬ "temp".toList <+: name.toList
  ending : ∀ ending ∈ "NumElements" :: endings, ending ≠ "" → ¬ ending.toList <:+ name.toList

theorem PlainName.ne_countName {name : String} (plain : PlainName name) (other : String) : name ≠ countName other := by
  rintro rfl
  exact plain.ending "NumElements" (by simp) (by decide) (by simp [countName])

theorem PlainName.ne_temporary {name : String} (plain : PlainName name) (place : Place) (tail : String) :
    name ≠ temporary place tail := by
  rintro rfl
  exact plain.start (by simp [temporary])

theorem PlainName.countName_ne_temporary {name : String} (plain : PlainName name) (place : Place) (tail : String) :
    countName name ≠ temporary place tail := by
  intro same
  have start : "temp".toList <+: name.toList ++ "NumElements".toList := by
    rw [← String.toList_append, ← countName, same]
    simp [temporary]
  -- A shorter name cannot be filled up to the start of a temporary.
  have none : ∀ front ∈ "temp".toList.inits, front ≠ "temp".toList →
      ¬ "temp".toList <+: front ++ "NumElements".toList := by decide
  rcases List.prefix_or_prefix_of_prefix start (List.prefix_append _ _) with whole | short
  · exact plain.start whole
  · refine none _ ((List.mem_inits _ _).mpr short) ?_ start
    intro whole
    exact plain.start (whole ▸ List.prefix_refl _)

private theorem eq_of_longer {name name' tail tail' : String} {middle : List Char} (plain : PlainName name')
    (known : IsTail tail) (known' : IsTail tail') (longer : name'.toList = name.toList ++ middle)
    (rest : tail.toList = middle ++ tail'.toList) : name = name' := by
  have nothing : middle = [] := by
    refine by_contra fun nonempty => ?_
    rcases known with ending | member
    · rcases known' with ending' | member'
      · have parts : ∀ ending ∈ endings, ∀ ending' ∈ endings, ending'.toList <:+ ending.toList →
            ending' = ending ∨ ending' = "" := by decide
        rcases parts tail ending tail' ending' ⟨middle, rest.symm⟩ with rfl | rfl
        · exact nonempty (by simpa using rest)
        · obtain rfl : tail.toList = middle := by simpa using rest
          refine plain.ending tail (List.mem_cons_of_mem _ ending) ?_ ⟨_, longer.symm⟩
          rintro rfl
          exact nonempty rfl
      · have none : ∀ ending ∈ endings, '_' ∉ ending.toList := by decide
        refine none tail ending ?_
        rw [rest]
        exact List.mem_append_right _ (List.mem_of_mem_head? member')
    · -- The name would go on with the line that leads to a member.
      obtain ⟨c, others, rfl⟩ := List.exists_cons_of_ne_nil nonempty
      obtain rfl : c = '_' := by simpa [rest] using member
      exact absurd (plain.letters '_' (by simp [longer])) (by decide)
  rw [nothing, List.append_nil] at longer
  exact (String.toList_inj.mp longer).symm

theorem PlainName.temporary_inj {name name' tail tail' : String} (plain : PlainName name) (plain' : PlainName name')
    (known : IsTail tail) (known' : IsTail tail')
    (same : temporary (.root name) tail = temporary (.root name') tail') : name = name' := by
  have chars : name.toList ++ tail.toList = name'.toList ++ tail'.toList := by
    simpa [temporary, Place.text, flat_plain plain.letters, flat_plain plain'.letters] using congrArg String.toList same
  rcases List.append_eq_append_iff.mp chars with ⟨middle, longer, rest⟩ | ⟨middle, longer, rest⟩
  · exact eq_of_longer plain' known known' longer rest
  · exact (eq_of_longer plain known' known longer rest).symm

/-- The names that are made from a value called `name`. -/
inductive MadeFrom (name : String) : String → Prop where
  | itself : MadeFrom name name
  | count : MadeFrom name (countName name)
  | temporary {tail : String} (known : IsTail tail) : MadeFrom name (temporary (.root name) tail)

theorem MadeFrom.name_eq {name name' text : String} (plain : PlainName name) (plain' : PlainName name')
    (made : MadeFrom name text) (made' : MadeFrom name' text) : name = name' := by
  cases made with
  | itself =>
    cases made' with
    | itself => rfl
    | count => exact absurd rfl (plain.ne_countName name')
    | temporary => exact absurd rfl (plain.ne_temporary _ _)
  | count =>
    generalize same : countName name = text at made'
    cases made' with
    | itself => exact absurd same.symm (plain'.ne_countName name)
    | count => exact countName_inj same
    | temporary => exact absurd same (plain.countName_ne_temporary _ _)
  | temporary known =>
    generalize same : BusStub.temporary (.root name) _ = text at made'
    cases made' with
    | itself => exact absurd same.symm (plain'.ne_temporary _ _)
    | count => exact absurd same.symm (plain'.countName_ne_temporary _ _)
    | temporary known' => exact plain.temporary_inj plain' known known' same

theorem Slot.localNames_made (slot : Slot) (name : String) : ∀ text ∈ slot.localNames name, MadeFrom name text := by
  rw [localNames, Slot.locals_names]
  split
  · simpa using ⟨MadeFrom.itself, MadeFrom.count⟩
  · simpa using MadeFrom.itself

namespace TypedArg

theorem buffers_made (arg : TypedArg) : ∀ text ∈ arg.buffers, MadeFrom arg.name text := by
  intro text inside
  obtain ⟨tail, known, rfl⟩ := List.mem_map.mp inside
  exact .temporary (Slot.tails_known Slot.bufferTails_tailed _ tail known)

theorem borrowed_made (arg : TypedArg) : ∀ text ∈ arg.borrowed, MadeFrom arg.name text := by
  intro text inside
  unfold borrowed Slot.borrowed at inside
  split at inside
  · cases inside
  · obtain ⟨tail, known, rfl⟩ := List.mem_map.mp inside
    exact .temporary (Slot.tails_known Slot.borrowTails_tailed _ tail known)

theorem packed_made (arg : TypedArg) : ∀ text ∈ arg.packed, MadeFrom arg.name text :=
  List.forall_mem_append.mpr ⟨arg.slot.localNames_made arg.name, arg.buffers_made⟩

theorem unpacked_made (arg : TypedArg) : ∀ text ∈ arg.unpacked, MadeFrom arg.name text :=
  List.forall_mem_append.mpr ⟨arg.slot.localNames_made arg.name, arg.borrowed_made⟩

theorem inCall_made (arg : TypedArg) : ∀ text ∈ arg.inCall, MadeFrom arg.name text := by
  refine List.forall_mem_append.mpr ⟨arg.slot.localNames_made arg.name, ?_⟩
  split
  · exact arg.buffers_made
  · simp

theorem inHandler_made (arg : TypedArg) : ∀ text ∈ arg.inHandler, MadeFrom arg.name text := by
  refine List.forall_mem_append.mpr ⟨arg.slot.localNames_made arg.name, ?_⟩
  split
  · exact arg.borrowed_made
  · simp

end TypedArg

/-- Different names, all plain. -/
structure PlainArgs (args : List TypedArg) : Prop where
  plain : ∀ arg ∈ args, PlainName arg.name
  different : (args.map TypedArg.name).Nodup

theorem PlainArgs.filter {args : List TypedArg} (plain : PlainArgs args) (p : TypedArg → Bool) :
    PlainArgs (args.filter p) where
  plain arg inside := plain.plain arg (List.mem_of_mem_filter inside)
  different := plain.different.sublist (List.filter_sublist.map _)

/-- Arguments with plain names never get in each other's way. -/
theorem PlainArgs.separate {args : List TypedArg} (plain : PlainArgs args) {names : TypedArg → List String}
    (made : ∀ arg, ∀ text ∈ names arg, MadeFrom arg.name text) : Separate names args := by
  refine (List.pairwise_map.mp plain.different).imp_of_mem ?_
  intro first second inFirst inSecond apart text one other
  exact apart (MadeFrom.name_eq (plain.plain first inFirst) (plain.plain second inSecond) (made first text one)
    (made second text other))

end BusStub
