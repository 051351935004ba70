import BusStub.Proofs.Accesses
import BusStub.Proofs.Parcel

/-! The counters of loops. Code that moves a value gives every loop the next counter after those of the loops around
it, and goes through elements only by counters of loops that it is inside. -/

namespace BusStub
open Code

/-- The counters in the indices of a place. -/
@[simp] def Place.counters : Place → List Nat
  | .root _ => []
  | .field base _ | .item base _ => base.counters
  | .element base depth => depth :: base.counters

namespace Code

def Expr.counters (expr : Expr) : List Nat :=
  expr.uses.flatMap fun leaf => leaf.place.counters

/-- The expressions of a statement, without those of the blocks that it opens. -/
def Stmt.expressions : Stmt → List Expr
  | .define _ value | .perform value | .delete value | .deleteArray value | .ret value | .branch value _
  | .choose value _ _ => [value]
  | .assign target value => [target, value]
  | .construct _ args => args
  | .loop _ place _ => [.count place]
  | .declare _ | .array _ _ | .comment _ | .blank => []

/-- Inside loops with the counters `around`, every further loop has the counter that comes after `start` and as many
others as there are loops, which none of these has; and all indices are counters of the loops around them. -/
inductive Numbered (start : Nat) : List Nat → List Stmt → Prop where
  | nil {around : List Nat} : Numbered start around []
  | plain {around : List Nat} {stmt : Stmt} {rest : List Stmt} (alone : stmt.within = [stmt])
      (bound : ∀ expr ∈ stmt.expressions, expr.counters ⊆ around) (others : Numbered start around rest) :
      Numbered start around (stmt :: rest)
  | loop {around : List Nat} {place : Place} {body rest : List Stmt} (fresh : start + around.length ∉ around)
      (bound : place.counters ⊆ around) (inner : Numbered start ((start + around.length) :: around) body)
      (others : Numbered start around rest) :
      Numbered start around (.loop (start + around.length) place body :: rest)

section
variable (place : Place)

@[simp] theorem Expr.counters_place : (Expr.place place).counters = place.counters := by
  simp [Expr.counters, Expr.uses, Leaf.place]

@[simp] theorem Expr.counters_count : (Expr.count place).counters = place.counters := by
  simp [Expr.counters, Expr.uses, Leaf.place]

@[simp] theorem Expr.counters_name (text : String) : (Expr.name text).counters = [] :=
  rfl

@[simp] theorem Expr.counters_address (inner : Expr) : (Expr.address inner).counters = inner.counters := by
  simp [Expr.counters, Expr.uses]

@[simp] theorem Expr.counters_content (inner : Expr) : (Expr.content inner).counters = inner.counters := by
  simp [Expr.counters, Expr.uses]

@[simp] theorem Expr.counters_newArray (type : CType) (size : Expr) :
    (Expr.newArray type size).counters = size.counters := by
  simp [Expr.counters, Expr.uses]

@[simp] theorem Expr.counters_passed (kind : Scalar) : (kind.passed (.place place)).counters = place.counters := by
  unfold Scalar.passed
  split <;> simp [Expr.counters, Expr.uses, Expr.usesAll, Expr.send, Leaf.place]

variable {place} {around : List Nat}

theorem Expr.counters_send {function : String} {args : List Expr} (bound : place.counters ⊆ around)
    (inside : ∀ arg ∈ args, arg.counters ⊆ around) : (Expr.send (.place place) function args).counters ⊆ around := by
  have all : ∀ args : List Expr, (∀ arg ∈ args, arg.counters ⊆ around) →
      ((Expr.usesAll args).flatMap fun leaf => leaf.place.counters) ⊆ around := by
    intro args inside
    induction args with
    | nil => exact List.nil_subset _
    | cons arg rest ih =>
      obtain ⟨first, others⟩ := List.forall_mem_cons.mp inside
      rw [Expr.usesAll, List.flatMap_append]
      exact List.append_subset.mpr ⟨first, ih others⟩
  simpa [Expr.counters, Expr.send, Expr.uses, Leaf.place] using ⟨bound, all args inside⟩

end

namespace Numbered

variable {start : Nat} {around : List Nat}

theorem append {first second : List Stmt} (one : Numbered start around first) (other : Numbered start around second) :
    Numbered start around (first ++ second) := by
  induction one with
  | nil => exact other
  | plain alone bound _ ih => exact .plain alone bound (ih other)
  | loop fresh bound inner _ _ ih => exact .loop fresh bound inner (ih other)

theorem assign {target value : Expr} (bound : target.counters ⊆ around) (bound' : value.counters ⊆ around) :
    Numbered start around [.assign target value] :=
  .plain rfl (List.forall_mem_cons.mpr ⟨bound, List.forall_mem_singleton.mpr bound'⟩) .nil

theorem perform {action : Expr} (bound : action.counters ⊆ around) : Numbered start around [.perform action] :=
  .plain rfl (List.forall_mem_singleton.mpr bound) .nil

theorem declare (vs : List Variable) : Numbered start around (vs.map .declare) := by
  induction vs with
  | nil => exact .nil
  | cons v rest ih => exact .plain rfl nofun ih

end Numbered
end Code

/-- The counters of the loops around come before the next one. -/
def Below (start : Nat) (around : List Nat) : Prop :=
  ∀ counter ∈ around, counter < start + around.length

namespace Below

variable {start : Nat} {around : List Nat}

theorem fresh (below : Below start around) : start + around.length ∉ around :=
  fun inside => Nat.lt_irrefl _ (below _ inside)

theorem next (below : Below start around) : Below start ((start + around.length) :: around) :=
  List.forall_mem_cons.mpr ⟨Nat.lt_succ_self _, fun counter inside => Nat.lt_succ_of_lt (below counter inside)⟩

end Below

/-- The element that a loop stands at is reached by the counters around the loop and its own. -/
theorem Place.element_counters {place : Place} {around : List Nat} (bound : place.counters ⊆ around) (depth : Nat) :
    (place.element depth).counters ⊆ depth :: around :=
  List.cons_subset_cons depth bound

private structure Pack.Numbered (start : Nat) (around : List Nat) (pack : Pack) : Prop where
  before : Code.Numbered start around pack.before
  values : ∀ value ∈ pack.values, value.counters ⊆ around

namespace Pack.Numbered

variable {start : Nat} {around : List Nat} {pack pack' : Pack} {place : Place}

private theorem append (first : pack.Numbered start around) (second : pack'.Numbered start around) :
    (pack.append pack').Numbered start around :=
  ⟨first.before.append second.before, List.forall_mem_append.mpr ⟨first.values, second.values⟩⟩

private theorem enclose (numbered : pack.Numbered start around) (opening closing : String) :
    (pack.enclose opening closing).Numbered start around :=
  ⟨numbered.before, numbered.values⟩

private theorem direct {signature : String} {values : List Expr}
    (bound : ∀ value ∈ values, value.counters ⊆ around) : (Pack.direct signature values).Numbered start around :=
  ⟨.nil, bound⟩

private theorem finish (numbered : pack.Numbered start around) (bound : place.counters ⊆ around) :
    Code.Numbered start around (pack.finish place) := by
  have call : Code.Numbered start around
      [.perform (.send (.place place) "Set" (.quoted pack.signature :: pack.values))] :=
    .perform (Expr.counters_send bound (List.forall_mem_cons.mpr ⟨List.nil_subset _, numbered.values⟩))
  have deleted (buffers : List String) :
      Code.Numbered start around (buffers.map fun buffer => .deleteArray (.name buffer)) := by
    induction buffers with
    | nil => exact .nil
    | cons buffer rest ih => exact .plain rfl (List.forall_mem_singleton.mpr (List.nil_subset _)) ih
  have stable : Code.Numbered start around [.perform (.send (.place place) "Stabilize" [])] :=
    .perform (Expr.counters_send bound nofun)
  have cleared : Code.Numbered start around (pack.cleared place) := by
    unfold Pack.cleared
    split
    · exact .nil
    · exact stable.append (deleted _)
  rw [Pack.finish_eq]
  exact numbered.before.append (call.append cleared)

private theorem buffered {slot : Slot} {element stored : CType} {buffer : String} {body : List Stmt}
    (below : Below start around) (bound : place.counters ⊆ around)
    (inner : Code.Numbered start ((start + around.length) :: around) body) :
    (Pack.buffered slot place (start + around.length) buffer element stored body).Numbered start around where
  before := .plain rfl (by simpa [Stmt.expressions] using bound) (.loop below.fresh bound inner .nil)
  values := by simpa [Pack.buffered] using bound

end Pack.Numbered

section
variable {start : Nat}

mutual
private theorem Slot.pack_numbered {around : List Nat} (below : Below start around) (place : Place)
    (bound : place.counters ⊆ around) : (slot : Slot) →
    (slot.pack (start + around.length) place).Numbered start around
  | .scalar kind | .variant | .boxed _ => .direct (by simpa using bound)
  | .scalars kind => by
    rw [Slot.pack]
    split
    · refine .buffered below bound (.assign ?_ ?_)
      · simp
      · simpa using Place.element_counters bound _
    · exact .direct (by simpa using bound)
  | .struct fields => (Fields.pack_numbered below place bound fields).enclose "(" ")"
  | .structs fields => by
    have packed := Fields.pack_numbered below.next _ (Place.element_counters bound _) fields
    refine .buffered below bound ((packed.enclose "(" ")").finish ?_)
    simp
  | .dict key value => by
    have element := Place.element_counters bound (start + around.length)
    have keyed : Pack.Numbered start ((start + around.length) :: around) (.direct key.code.toString
        [key.passed (.place ((place.element (start + around.length)).field "key"))]) :=
      .direct (by simpa using element)
    have valued := Slot.pack_numbered below.next ((place.element (start + around.length)).field "value") element value
    refine .buffered below bound (((keyed.append valued).enclose "\x7b" "\x7d").finish ?_)
    simp

private theorem Fields.pack_numbered {around : List Nat} (below : Below start around) (place : Place)
    (bound : place.counters ⊆ around) : (fields : Fields) →
    (fields.pack (start + around.length) place).Numbered start around
  | .nil => ⟨.nil, nofun⟩
  | .cons name slot rest => by
    have first := Slot.pack_numbered below (place.field name) bound slot
    exact first.append (Fields.pack_numbered below place bound rest)
end

private structure Unpack.Numbered (start : Nat) (around : List Nat) (unpack : Unpack) : Prop where
  addresses : ∀ address ∈ unpack.addresses, address.counters ⊆ around
  copies : Code.Numbered start around unpack.copies

namespace Unpack.Numbered

variable {around : List Nat} {unpack unpack' : Unpack} {place : Place}

private theorem append (first : unpack.Numbered start around) (second : unpack'.Numbered start around) :
    (unpack.append unpack').Numbered start around :=
  ⟨List.forall_mem_append.mpr ⟨first.addresses, second.addresses⟩, first.copies.append second.copies⟩

private theorem enclose (numbered : unpack.Numbered start around) (opening closing : String) :
    (unpack.enclose opening closing).Numbered start around :=
  ⟨numbered.addresses, numbered.copies⟩

private theorem finish (numbered : unpack.Numbered start around) (bound : place.counters ⊆ around) :
    Code.Numbered start around (unpack.finish place) := by
  have call : Code.Numbered start around
      [.perform (.send (.place place) "Get" (.quoted unpack.signature :: unpack.addresses))] :=
    .perform (Expr.counters_send bound (List.forall_mem_cons.mpr ⟨List.nil_subset _, numbered.addresses⟩))
  exact (Code.Numbered.declare _).append (call.append numbered.copies)

private theorem scalar (kind : Scalar) (bound : place.counters ⊆ around) :
    (kind.unpack place).Numbered start around := by
  unfold Scalar.unpack
  split
  · exact ⟨by simp [through], .assign (by simpa using bound) (by simp)⟩
  · exact ⟨by simpa using bound, .nil⟩

private theorem message {code : String} (bound : place.counters ⊆ around) :
    (Unpack.through code (.pointer .message) place .content).Numbered start around :=
  ⟨by simp [through], .assign (by simpa using bound) (by simp)⟩

private theorem counted {slot : Slot} {type : TypeName} {temporary : Variable} {body : List Stmt}
    (below : Below start around) (bound : place.counters ⊆ around)
    (inner : Code.Numbered start ((start + around.length) :: around) body) :
    (Unpack.counted slot place type (start + around.length) temporary body).Numbered start around where
  addresses := by simpa [Unpack.counted] using bound
  copies := .plain rfl (by simpa [Stmt.expressions] using bound) (.loop below.fresh bound inner .nil)

end Unpack.Numbered

mutual
private theorem Slot.unpack_numbered {around : List Nat} (below : Below start around) (place : Place)
    (bound : place.counters ⊆ around) (type : TypeName) : (slot : Slot) →
    (slot.unpack (start + around.length) place type).Numbered start around
  | .scalar kind => .scalar kind bound
  | .variant | .boxed _ => .message bound
  | .scalars kind => by
    have element := Place.element_counters bound (start + around.length)
    rw [Slot.unpack]
    split
    · refine .counted below bound ((Unpack.Numbered.scalar kind element).finish ?_)
      simp
    · refine .counted below bound (.assign ?_ ?_)
      · simpa using element
      · simp
  | .struct fields => (Fields.unpack_numbered below place bound type.scope fields).enclose "(" ")"
  | .structs fields => by
    have unpacked := Fields.unpack_numbered below.next _ (Place.element_counters bound _) type.scope fields
    refine .counted below bound ((unpacked.enclose "(" ")").finish ?_)
    simp
  | .dict key value => by
    have element := Place.element_counters bound (start + around.length)
    have keyed : (key.unpack ((place.element (start + around.length)).field "key")).Numbered start _ :=
      .scalar key element
    have valued := Slot.unpack_numbered below.next ((place.element (start + around.length)).field "value") element
      (value.elementType type.scope "value") value
    refine .counted below bound (((keyed.append valued).enclose "\x7b" "\x7d").finish ?_)
    simp

private theorem Fields.unpack_numbered {around : List Nat} (below : Below start around) (place : Place)
    (bound : place.counters ⊆ around) (scope : List String) : (fields : Fields) →
    (fields.unpack (start + around.length) place scope).Numbered start around
  | .nil => ⟨nofun, .nil⟩
  | .cons name slot rest => by
    have first := Slot.unpack_numbered below (place.field name) bound (slot.elementType scope name) slot
    exact first.append (Fields.unpack_numbered below place bound scope rest)
end

end

namespace Slot

variable (slot : Slot) (container : String) (depth : Nat)

theorem set_numbered (source : String) :
    Code.Numbered depth [] (slot.set (.root container) (.root source) depth) := by
  cases assigned : slot.isAssigned with
  | false =>
    have outermost : Below depth [] := nofun
    have packed := Slot.pack_numbered outermost (.root source) nofun slot
    rw [Slot.set_eq assigned]
    exact packed.finish nofun
  | true =>
    rw [Slot.set_assigned assigned]
    exact .assign (by simp) (by simp)

theorem get_numbered (name : String) (declared : Bool) :
    Code.Numbered depth [] (slot.get (.root container) name declared depth) := by
  have locals : Code.Numbered depth [] (if declared then (slot.locals name).map .declare else []) := by
    split
    · exact .declare _
    · exact .nil
  cases assigned : slot.isAssigned with
  | false =>
    have outermost : Below depth [] := nofun
    have unpacked := Slot.unpack_numbered outermost (.root name) nofun (slot.elementType [] name) slot
    rw [Slot.get_eq assigned]
    exact locals.append (unpacked.finish nofun)
  | true =>
    rw [Slot.get_assigned assigned]
    exact locals.append (.assign (by simp) (by simp))

end Slot
end BusStub
