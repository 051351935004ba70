import Mathlib.Data.List.Perm.Basic
import Mathlib.Logic.Function.Basic
import BusStub.Proofs.LoopCounters
import BusStub.Proofs.ValueParts

/-! What a run writes that takes a value out of a message. Whatever the sizes of the arrays are, every part that is kept
is given its value once, and every array is made once, with the number of elements that was received for it, before
anything is written into it. -/

namespace BusStub
open Code

namespace Place

/-- The place that is meant while each loop is in the given turn. -/
def fixed (turn : Nat → Nat) : Place → Place
  | .root text => .root text
  | .field base name => .field (base.fixed turn) name
  | .element base depth => .item (base.fixed turn) (turn depth)
  | .item base index => .item (base.fixed turn) index

/-- The arrays that a place is inside of. -/
def arrays : Place → List Place
  | .root _ => []
  | .field base _ => base.arrays
  | .element base _ | .item base _ => base :: base.arrays

/-- Another turn of a loop makes no difference to places that are not reached by its counter. -/
theorem fixed_update {place : Place} {depth : Nat} (fresh : depth ∉ place.counters) (turn : Nat → Nat) (index : Nat) :
    place.fixed (Function.update turn depth index) = place.fixed turn := by
  induction place with
  | root => rfl
  | field base name ih => rw [fixed, ih fresh, fixed]
  | item base i ih => rw [fixed, ih fresh, fixed]
  | element base other ih =>
    obtain ⟨different, fresh⟩ := List.ne_and_not_mem_of_not_mem_cons fresh
    rw [fixed, ih fresh, Function.update_of_ne different.symm, fixed]

theorem fixed_element {place : Place} {depth : Nat} (fresh : depth ∉ place.counters) (turn : Nat → Nat) (index : Nat) :
    (place.element depth).fixed (Function.update turn depth index) = (place.fixed turn).item index := by
  rw [fixed, fixed_update fresh, Function.update_self]

end Place

/-- What happens to the value that is taken out: a place is written, the number of its elements is received, or an array
is made for it with the number of elements of some place. -/
inductive Event where
  | stored (place : Place)
  | counted (place : Place)
  | allocated (place size : Place)
  deriving DecidableEq

/-- The arrays around a place have been made, each in its own size. -/
def Place.ready (place : Place) : List Event :=
  place.arrays.map fun array => .allocated array array

namespace Event

def stored? : Event → Option Place
  | .stored place => some place
  | .counted _ | .allocated _ _ => none

def counted? : Event → Option Place
  | .counted place => some place
  | .stored _ | .allocated _ _ => none

def allocated? : Event → Option (Place × Place)
  | .allocated place size => some (place, size)
  | .stored _ | .counted _ => none

/-- What must have happened before. -/
def needs : Event → List Event
  | .stored place | .counted place => place.ready
  | .allocated place size => .counted size :: place.ready

end Event

/-- Everything happens after what it needs, which can have happened before the trace began. -/
inductive Orderly : List Event → List Event → Prop where
  | nil {known : List Event} : Orderly known []
  | cons {known : List Event} {event : Event} {rest : List Event} (met : event.needs ⊆ known)
      (others : Orderly (event :: known) rest) : Orderly known (event :: rest)

namespace Orderly

variable {known more first second : List Event}

theorem mono (orderly : Orderly known first) (sub : known ⊆ more) : Orderly more first := by
  induction orderly generalizing more with
  | nil => exact .nil
  | cons met _ ih => exact .cons (List.Subset.trans met sub) (ih (List.cons_subset_cons _ sub))

theorem append (one : Orderly known first) (other : Orderly known second) : Orderly known (first ++ second) := by
  induction one with
  | nil => exact other
  | cons met _ ih => exact .cons met (ih (other.mono (List.subset_cons_self _ _)))

/-- What has happened in the first part is known in the second. -/
theorem trans (one : Orderly known first) (other : Orderly (first ++ known) second) :
    Orderly known (first ++ second) := by
  induction one with
  | nil => exact other
  | cons met _ ih => exact .cons met (ih (other.mono (by simp)))

theorem flatMap {f : Nat → List Event} {indices : List Nat} (each : ∀ index, Orderly known (f index)) :
    Orderly known (indices.flatMap f) := by
  induction indices with
  | nil => exact .nil
  | cons index rest ih => exact (each index).append ih

end Orderly

namespace Code

/-- What `Get` fills in at an address that it is handed. -/
def Expr.delivered (turn : Nat → Nat) : Expr → List Event
  | .address (.place p) => [.stored (p.fixed turn)]
  | .address (.count p) => [.counted (p.fixed turn)]
  | _ => []

/-- What a statement does itself. -/
def Stmt.event (turn : Nat → Nat) : Stmt → List Event
  | .assign (.place target) (.newArray _ (.count size)) => [.allocated (target.fixed turn) (size.fixed turn)]
  | .assign (.place target) _ => [.stored (target.fixed turn)]
  | .perform (.call (.member _ function) args) => if function = "Get" then args.flatMap (Expr.delivered turn) else []
  | _ => []

mutual
/-- What happens when a statement runs that only copies. A loop has as many turns as the array has elements. -/
def Stmt.events (sizes : Place → Nat) (turn : Nat → Nat) : Stmt → List Event
  | .loop depth place body =>
    (List.range (sizes (place.fixed turn))).flatMap fun index =>
      Stmt.eventsAll sizes (Function.update turn depth index) body
  | stmt => stmt.event turn
termination_by structural stmt => stmt

def Stmt.eventsAll (sizes : Place → Nat) (turn : Nat → Nat) : List Stmt → List Event
  | [] => []
  | stmt :: rest => stmt.events sizes turn ++ Stmt.eventsAll sizes turn rest
termination_by structural stmts => stmts
end

section
variable (sizes : Place → Nat) (turn : Nat → Nat)

theorem Stmt.eventsAll_append (first second : List Stmt) :
    Stmt.eventsAll sizes turn (first ++ second) =
      Stmt.eventsAll sizes turn first ++ Stmt.eventsAll sizes turn second := by
  induction first with
  | nil => rfl
  | cons stmt rest ih => simp only [List.cons_append, Stmt.eventsAll, ih, List.append_assoc]

theorem Stmt.eventsAll_declare (vs : List Variable) (others : List Stmt) :
    Stmt.eventsAll sizes turn (vs.map .declare ++ others) = Stmt.eventsAll sizes turn others := by
  induction vs with
  | nil => rfl
  | cons v rest ih => exact ih

end
end Code

/-- The trace fills in the given parts and arrays, nothing else, and each of them once. -/
structure Fills (atoms arrays : List Place) (trace : List Event) : Prop where
  stored : (trace.filterMap Event.stored?).Perm atoms
  counted : (trace.filterMap Event.counted?).Perm arrays
  allocated : (trace.filterMap Event.allocated?).Perm (arrays.map fun array => (array, array))

namespace Fills

variable {atoms atoms' arrays arrays' : List Place} {first second : List Event}

theorem nil : Fills [] [] [] :=
  ⟨.refl _, .refl _, .refl _⟩

theorem append (one : Fills atoms arrays first) (other : Fills atoms' arrays' second) :
    Fills (atoms ++ atoms') (arrays ++ arrays') (first ++ second) where
  stored := by
    rw [List.filterMap_append]
    exact one.stored.append other.stored
  counted := by
    rw [List.filterMap_append]
    exact one.counted.append other.counted
  allocated := by
    rw [List.filterMap_append, List.map_append]
    exact one.allocated.append other.allocated

theorem perm (one : Fills atoms arrays first) (same : second.Perm first) : Fills atoms arrays second :=
  ⟨(same.filterMap _).trans one.stored, (same.filterMap _).trans one.counted, (same.filterMap _).trans one.allocated⟩

theorem stored_at (place : Place) : Fills [place] [] [.stored place] :=
  ⟨.refl _, .refl _, .refl _⟩

theorem flatMap {atoms arrays : Nat → List Place} {trace : Nat → List Event} {indices : List Nat}
    (each : ∀ index, Fills (atoms index) (arrays index) (trace index)) :
    Fills (indices.flatMap atoms) (indices.flatMap arrays) (indices.flatMap trace) := by
  induction indices with
  | nil => exact nil
  | cons index rest ih => exact (each index).append ih

end Fills

/-- The trace fills in the value at a place, in an order that only needs the arrays around the place. -/
structure Delivers (place : Place) (atoms arrays : List Place) (trace : List Event) : Prop where
  fills : Fills atoms arrays trace
  orderly : ∀ known, place.ready ⊆ known → Orderly known trace

theorem Delivers.stored (place : Place) : Delivers place [place] [] [.stored place] :=
  ⟨.stored_at place, fun _ ready => .cons ready .nil⟩

/-- The part of an unpack in a run: what the call hands out, then the copies, which may need all of that. -/
private structure Unpack.Delivers (sizes : Place → Nat) (turn : Nat → Nat) (place : Place) (atoms arrays : List Place)
    (unpack : Unpack) : Prop where
  fills : Fills atoms arrays
    (unpack.addresses.flatMap (Expr.delivered turn) ++ Stmt.eventsAll sizes turn unpack.copies)
  addresses : ∀ known, place.ready ⊆ known → Orderly known (unpack.addresses.flatMap (Expr.delivered turn))
  copies : ∀ known, unpack.addresses.flatMap (Expr.delivered turn) ++ place.ready ⊆ known →
    Orderly known (Stmt.eventsAll sizes turn unpack.copies)

namespace Unpack.Delivers

variable {sizes : Place → Nat} {turn : Nat → Nat} {place : Place} {atoms atoms' arrays arrays' : List Place}
variable {unpack unpack' : Unpack}

private theorem append (first : unpack.Delivers sizes turn place atoms arrays)
    (second : unpack'.Delivers sizes turn place atoms' arrays') :
    (unpack.append unpack').Delivers sizes turn place (atoms ++ atoms') (arrays ++ arrays') where
  fills := by
    refine (first.fills.append second.fills).perm ?_
    rw [Unpack.append, List.flatMap_append, Stmt.eventsAll_append]
    simp only [List.append_assoc]
    exact (List.perm_append_comm_assoc _ _ _).append_left _
  addresses known ready := by
    rw [Unpack.append, List.flatMap_append]
    exact (first.addresses known ready).append (second.addresses known ready)
  copies known ready := by
    rw [Unpack.append, List.flatMap_append] at ready
    obtain ⟨delivered, around⟩ := List.append_subset.mp ready
    obtain ⟨one, other⟩ := List.append_subset.mp delivered
    rw [Unpack.append, Stmt.eventsAll_append]
    exact (first.copies known (List.append_subset.mpr ⟨one, around⟩)).append
      (second.copies known (List.append_subset.mpr ⟨other, around⟩))

private theorem enclose (delivers : unpack.Delivers sizes turn place atoms arrays) (opening closing : String) :
    (unpack.enclose opening closing).Delivers sizes turn place atoms arrays :=
  ⟨delivers.fills, delivers.addresses, delivers.copies⟩

private theorem field {name : String} (delivers : unpack.Delivers sizes turn (place.field name) atoms arrays) :
    unpack.Delivers sizes turn place atoms arrays :=
  ⟨delivers.fills, delivers.addresses, delivers.copies⟩

private theorem finish (delivers : unpack.Delivers sizes turn place atoms arrays) (container : Place) :
    BusStub.Delivers place atoms arrays (Stmt.eventsAll sizes turn (unpack.finish container)) := by
  have events : Stmt.eventsAll sizes turn (unpack.finish container) =
      unpack.addresses.flatMap (Expr.delivered turn) ++ Stmt.eventsAll sizes turn unpack.copies := by
    rw [Unpack.finish, Stmt.eventsAll_declare]
    rfl
  rw [events]
  refine ⟨delivers.fills, fun known ready => (delivers.addresses known ready).trans (delivers.copies _ ?_)⟩
  exact List.append_subset.mpr
    ⟨List.subset_append_left _ _, List.subset_append_of_subset_right _ ready⟩

private theorem through {code : String} {type : CType} {copied : Expr → Expr} {target : Place}
    (event : ∀ text, (Stmt.assign (.place target) (copied (.name text))).event turn = [.stored (target.fixed turn)]) :
    (Unpack.through code type target copied).Delivers sizes turn (target.fixed turn) [target.fixed turn] [] := by
  have events : Stmt.eventsAll sizes turn (Unpack.through code type target copied).copies =
      [.stored (target.fixed turn)] := by
    simp [Unpack.through, Stmt.eventsAll, Stmt.events, event]
  refine ⟨events ▸ .stored_at _, fun known ready => .nil, fun known ready => events ▸ .cons ?_ .nil⟩
  exact ready

private theorem scalar (kind : Scalar) (target : Place) :
    (kind.unpack target).Delivers sizes turn (target.fixed turn) [target.fixed turn] [] := by
  unfold Scalar.unpack
  split
  · exact through fun _ => rfl
  · exact ⟨.stored_at _, fun known ready => .cons ready .nil, fun known ready => .nil⟩

private theorem counted {slot : Slot} {type : TypeName} {depth : Nat} {temporary : Variable} {body : List Stmt}
    {target : Place} {atoms arrays : Place → List Place} (array : slot.isCounted = true)
    (inner : ∀ index, BusStub.Delivers ((target.fixed turn).item index) (atoms ((target.fixed turn).item index))
      (arrays ((target.fixed turn).item index)) (Stmt.eventsAll sizes (Function.update turn depth index) body)) :
    (Unpack.counted slot target type depth temporary body).Delivers sizes turn (target.fixed turn)
      (slot.self Slot.isAtom (target.fixed turn) ++ (target.fixed turn).items sizes atoms)
      (slot.self Slot.isCounted (target.fixed turn) ++ (target.fixed turn).items sizes arrays) := by
  have atom : slot.isAtom = false := by cases slot <;> first | rfl | cases array
  have noAtom : slot.self Slot.isAtom (target.fixed turn) = [] := by rw [Slot.self, atom]; rfl
  have oneArray : slot.self Slot.isCounted (target.fixed turn) = [target.fixed turn] := by rw [Slot.self, array]; rfl
  have addresses : (Unpack.counted slot target type depth temporary body).addresses.flatMap (Expr.delivered turn) =
      [.counted (target.fixed turn)] := rfl
  have copies : Stmt.eventsAll sizes turn (Unpack.counted slot target type depth temporary body).copies =
      .allocated (target.fixed turn) (target.fixed turn) ::
        (List.range (sizes (target.fixed turn))).flatMap fun index =>
          Stmt.eventsAll sizes (Function.update turn depth index) body := by
    simp [Unpack.counted, Stmt.eventsAll, Stmt.events, Stmt.event]
  refine ⟨?_, fun known ready => ?_, fun known ready => ?_⟩
  · rw [addresses, copies, noAtom, oneArray]
    have itself : Fills [] [target.fixed turn]
        [.counted (target.fixed turn), .allocated (target.fixed turn) (target.fixed turn)] :=
      ⟨.refl _, .refl _, .refl _⟩
    exact itself.append (.flatMap fun index => (inner index).fills)
  · rw [addresses]
    exact .cons ready .nil
  · rw [addresses, List.singleton_append] at ready
    rw [copies]
    refine .cons ready (.flatMap fun index => (inner index).orderly _ (List.cons_subset_cons _ ?_))
    exact List.Subset.trans (List.subset_cons_self _ _) ready

end Unpack.Delivers

/-- The place is reached by counters of loops that come before the next one. -/
private def Place.Before (depth : Nat) (place : Place) : Prop :=
  ∀ counter ∈ place.counters, counter < depth

private theorem Place.Before.fresh {place : Place} {depth : Nat} (before : place.Before depth) :
    depth ∉ place.counters :=
  fun inside => Nat.lt_irrefl depth (before depth inside)

private theorem Place.Before.element {place : Place} {depth : Nat} (before : place.Before depth) :
    (place.element depth).Before (depth + 1) :=
  List.forall_mem_cons.mpr ⟨Nat.lt_succ_self depth, fun counter inside => Nat.lt_succ_of_lt (before counter inside)⟩

section
variable {sizes : Place → Nat}

mutual
private theorem Slot.unpack_delivers {depth : Nat} (place : Place) (before : place.Before depth)
    (turn : Nat → Nat) (type : TypeName) : (slot : Slot) →
    (slot.unpack depth place type).Delivers sizes turn (place.fixed turn)
      (slot.parts Slot.isAtom sizes (place.fixed turn)) (slot.parts Slot.isCounted sizes (place.fixed turn))
  | .scalar kind => .scalar kind place
  | .variant | .boxed _ => .through fun _ => rfl
  | .scalars kind => by
    rw [Slot.unpack]
    split
    · refine .counted rfl fun index => ?_
      have element : (kind.unpack (place.element depth)).Delivers sizes (Function.update turn depth index) _ _ _ :=
        .scalar kind _
      rw [Place.fixed_element before.fresh] at element
      exact element.finish _
    · refine .counted rfl fun index => ?_
      have stored := Delivers.stored ((place.fixed turn).item index)
      rw [← Place.fixed_element before.fresh] at stored ⊢
      exact stored
  | .struct fields => (Fields.unpack_delivers place before turn type.scope fields).enclose "(" ")"
  | .structs fields => by
    rw [Slot.unpack, Slot.parts, Slot.parts]
    refine .counted rfl fun index => ?_
    have unpacked := Fields.unpack_delivers (place.element depth) before.element
      (Function.update turn depth index) type.scope fields
    rw [Place.fixed_element before.fresh] at unpacked
    exact (unpacked.enclose "(" ")").finish _
  | .dict key value => by
    rw [Slot.unpack, Slot.parts, Slot.parts]
    refine .counted rfl fun index => ?_
    have keyed : (key.unpack ((place.element depth).field "key")).Delivers sizes (Function.update turn depth index)
      _ _ _ := .scalar key _
    have valued := Slot.unpack_delivers ((place.element depth).field "value") before.element
      (Function.update turn depth index) (value.elementType type.scope "value") value
    rw [Place.fixed, Place.fixed_element before.fresh] at keyed valued
    exact ((keyed.field.append valued.field).enclose "\x7b" "\x7d").finish _

private theorem Fields.unpack_delivers {depth : Nat} (place : Place) (before : place.Before depth)
    (turn : Nat → Nat) (scope : List String) : (fields : Fields) →
    (fields.unpack depth place scope).Delivers sizes turn (place.fixed turn)
      (fields.parts Slot.isAtom sizes (place.fixed turn)) (fields.parts Slot.isCounted sizes (place.fixed turn))
  | .nil => ⟨.nil, fun _ _ => .nil, fun _ _ => .nil⟩
  | .cons name slot rest => by
    have first := Slot.unpack_delivers (place.field name) before turn (slot.elementType scope name) slot
    exact first.field.append (Fields.unpack_delivers place before turn scope rest)
end

/-- A run fills in the whole value, whatever the sizes of its arrays are. -/
theorem Slot.get_delivers (slot : Slot) (container : Place) (name : String) (declared : Bool) (depth : Nat)
    (sizes : Place → Nat) (turn : Nat → Nat) :
    Delivers (.root name) (slot.parts Slot.isAtom sizes (.root name)) (slot.parts Slot.isCounted sizes (.root name))
      (Stmt.eventsAll sizes turn (slot.get container name declared depth)) := by
  have moved : Delivers (.root name) (slot.parts Slot.isAtom sizes (.root name))
      (slot.parts Slot.isCounted sizes (.root name))
      (Stmt.eventsAll sizes turn (slot.get container name false depth)) := by
    cases assigned : slot.isAssigned with
    | false =>
      rw [Slot.get_eq assigned]
      exact (Slot.unpack_delivers (.root name) nofun turn (slot.elementType [] name) slot).finish container
    | true =>
      rw [Slot.get_assigned assigned]
      cases slot with
      | variant | boxed => exact .stored _
      | scalar | scalars | struct | structs | dict => cases assigned
  cases declared with
  | false => exact moved
  | true =>
    have same := Stmt.eventsAll_declare sizes turn (slot.locals name) (slot.get container name false depth)
    exact same ▸ moved

end

-- A dictionary with one entry: the text is copied after the number has been handed out.
example : Stmt.eventsAll (fun _ => 1) id ((Slot.of (.dict .string (.basic .int32))).get (.root "arg") "x" false 0) =
    let entry := (Place.root "x").item 0
    [.counted (.root "x"), .allocated (.root "x") (.root "x"), .stored (entry.field "value"),
      .stored (entry.field "key")] := by
  decide

end BusStub
