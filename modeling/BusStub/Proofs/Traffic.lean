import BusStub.Proofs.Accesses
import BusStub.Proofs.Exchange
import BusStub.Stub.Routine

/-! What a function has to do with messages: the elements of argument arrays that it fills and reads, the calls
that it makes, and the argument counts that it checks. Moving a value does nothing of this but fill or read
the one element that the value belongs to. -/

namespace BusStub
open Code Routine

/-- An element of an array of message arguments. -/
structure Cell where
  array : String
  index : Nat

def Place.cell? : Place → Option Cell
  | .item (.root array) index => some ⟨array, index⟩
  | _ => none

def cells (array : String) (count : Nat) : List Cell :=
  (List.range count).map (Cell.mk array)

namespace Code

/-- What is called: a function, or a member function of an object. -/
inductive Callee where
  | function (name : String)
  | member (name : String)
  deriving DecidableEq

def Expr.callee? : Expr → Option (Callee × List Expr)
  | .name text => some (.function text, [])
  | .member object text | .arrow object text => some (.member text, [object])
  | _ => none

mutual
/-- The calls in an expression, an object among its member function's arguments. -/
def Expr.calls : Expr → List (Callee × List Expr)
  | .call function args =>
    (function.callee?.map fun (callee, object) => (callee, object ++ args)).toList ++ function.calls ++ Expr.callsAll args
  | .address inner | .content inner | .negation inner | .member inner _ | .arrow inner _ | .newArray _ inner
  | .cast _ inner => inner.calls
  | .binary _ left right => left.calls ++ right.calls
  | .newObject _ args => Expr.callsAll args
  | .name _ | .number _ | .quoted _ | .place _ | .count _ => []
termination_by structural expr => expr

def Expr.callsAll : List Expr → List (Callee × List Expr)
  | [] => []
  | expr :: rest => expr.calls ++ Expr.callsAll rest
termination_by structural exprs => exprs
end

def Stmt.calls : Stmt → List (Callee × List Expr)
  | .perform value | .define _ value | .delete value | .deleteArray value | .ret value | .branch value _
  | .choose value _ _ => value.calls
  | .assign target value => target.calls ++ value.calls
  | .construct _ args => Expr.callsAll args
  | .declare _ | .array _ _ | .loop _ _ _ | .comment _ | .blank => []

def Stmt.callsOf (callee : Callee) (stmt : Stmt) : List (List Expr) :=
  stmt.calls.filterMap fun call => if call.1 = callee then some call.2 else none

def Stmt.fills (stmt : Stmt) : List Cell :=
  (stmt.filled?.bind Place.cell?).toList

def Stmt.drains (stmt : Stmt) : List Cell :=
  (stmt.drained?.bind Place.cell?).toList

/-- The argument count that a statement checks, and what it does if the count is right. -/
def Stmt.guards : Stmt → List (Nat × List Stmt)
  | .branch (.binary .equal (.name "numArgs") (.number count)) body
  | .choose (.binary .equal (.name "numArgs") (.number count)) body _ => [(count, body)]
  | _ => []

/-- What is seen of a block when all its statements are looked at in order, at any depth. -/
def observe {α : Type} (see : Stmt → List α) (block : List Stmt) : List α :=
  (Stmt.withinAll block).flatMap see

section
variable {α : Type} (see : Stmt → List α)

@[simp] theorem observe_nil : observe see [] = [] :=
  rfl

@[simp] theorem observe_append (first second : List Stmt) :
    observe see (first ++ second) = observe see first ++ observe see second := by
  simp [observe, Stmt.withinAll_append]

@[simp] theorem flatMap_withinAll (block : List Stmt) : (Stmt.withinAll block).flatMap see = observe see block :=
  rfl

@[simp] theorem observe_cons (stmt : Stmt) (rest : List Stmt) :
    observe see (stmt :: rest) = stmt.within.flatMap see ++ observe see rest := by
  simp only [observe, Stmt.withinAll, List.flatMap_append]

theorem observe_plain {stmt : Stmt} (alone : stmt.within = [stmt]) : observe see [stmt] = see stmt := by
  simp [alone]

theorem observe_flat {block : List Stmt} (alone : ∀ stmt ∈ block, stmt.within = [stmt]) :
    observe see block = block.flatMap see := by
  induction block with
  | nil => rfl
  | cons stmt rest ih =>
    obtain ⟨first, others⟩ := List.forall_mem_cons.mp alone
    rw [observe_cons, first, ih others]
    simp

theorem observe_loop (depth : Nat) (place : Place) (body : List Stmt) :
    observe see [.loop depth place body] = see (.loop depth place body) ++ observe see body := by
  simp [Stmt.within]

end

def moving : List Callee :=
  [.member "Set", .member "Get", .member "Stabilize", .member "c_str"]

/-- A block that does nothing with messages but fill and read the given elements. -/
structure Moves (into origin : List Cell) (block : List Stmt) : Prop where
  fills : observe Stmt.fills block = into
  drains : observe Stmt.drains block = origin
  guards : observe Stmt.guards block = []
  calls : ∀ callee, callee ∉ moving → observe (Stmt.callsOf callee) block = []

namespace Moves

variable {into into' origin origin' : List Cell} {first second body : List Stmt} {stmt : Stmt}

theorem nil : Moves [] [] [] :=
  ⟨rfl, rfl, rfl, fun _ _ => rfl⟩

theorem append (one : Moves into origin first) (other : Moves into' origin' second) :
    Moves (into ++ into') (origin ++ origin') (first ++ second) where
  fills := by rw [observe_append, one.fills, other.fills]
  drains := by rw [observe_append, one.drains, other.drains]
  guards := by rw [observe_append, one.guards, other.guards]; rfl
  calls callee outside := by rw [observe_append, one.calls callee outside, other.calls callee outside]; rfl

theorem cons (one : Moves into origin [stmt]) (other : Moves into' origin' second) :
    Moves (into ++ into') (origin ++ origin') (stmt :: second) :=
  one.append other

theorem single (alone : stmt.within = [stmt]) (fills : stmt.fills = into) (drains : stmt.drains = origin)
    (unguarded : stmt.guards = []) (inside : ∀ call ∈ stmt.calls, call.1 ∈ moving) : Moves into origin [stmt] where
  fills := by rw [observe_plain _ alone, fills]
  drains := by rw [observe_plain _ alone, drains]
  guards := by rw [observe_plain _ alone, unguarded]
  calls callee outside := by
    rw [observe_plain _ alone]
    refine List.filterMap_eq_nil_iff.mpr fun call member => if_neg ?_
    rintro rfl
    exact outside (inside call member)

theorem loop {depth : Nat} {place : Place} (inner : Moves [] [] body) : Moves [] [] [.loop depth place body] where
  fills := by rw [observe_loop, inner.fills]; rfl
  drains := by rw [observe_loop, inner.drains]; rfl
  guards := by rw [observe_loop, inner.guards]; rfl
  calls callee outside := by rw [observe_loop, inner.calls callee outside]; rfl

theorem declare (vs : List Variable) : Moves [] [] (vs.map .declare) := by
  induction vs with
  | nil => exact nil
  | cons v rest ih =>
    have one : Moves [] [] [.declare v] := single rfl rfl rfl rfl (by simp [Stmt.calls])
    exact cons one ih

end Moves

section
variable (object pointer left right : Expr) (name : String) (args : List Expr)

@[simp] theorem Expr.calls_apply : (Expr.apply name args).calls = (.function name, args) :: Expr.callsAll args := by
  simp [Expr.apply, Expr.calls, Expr.callee?]

@[simp] theorem Expr.calls_send :
    (object.send name args).calls = (.member name, object :: args) :: (object.calls ++ Expr.callsAll args) := by
  simp [Expr.send, Expr.calls, Expr.callee?]

@[simp] theorem Expr.calls_sendTo :
    (pointer.sendTo name args).calls = (.member name, pointer :: args) :: (pointer.calls ++ Expr.callsAll args) := by
  simp [Expr.sendTo, Expr.calls, Expr.callee?]

@[simp] theorem Expr.calls_equal : (Expr.equal left right).calls = left.calls ++ right.calls := by
  simp [Expr.equal, Expr.calls]

@[simp] theorem Expr.calls_unequal : (Expr.unequal left right).calls = left.calls ++ right.calls := by
  simp [Expr.unequal, Expr.calls]

@[simp] theorem Expr.calls_null : Expr.null.calls = [] :=
  rfl

end

theorem Expr.callsAll_eq_nil {exprs : List Expr} (quiet : ∀ expr ∈ exprs, expr.calls = []) :
    Expr.callsAll exprs = [] := by
  induction exprs with
  | nil => rfl
  | cons expr rest ih =>
    obtain ⟨first, others⟩ := List.forall_mem_cons.mp quiet
    rw [Expr.callsAll, first, ih others, List.nil_append]

theorem Expr.callsAll_append (first second : List Expr) :
    Expr.callsAll (first ++ second) = Expr.callsAll first ++ Expr.callsAll second := by
  induction first with
  | nil => rfl
  | cons expr rest ih => simp only [List.cons_append, Expr.callsAll, ih, List.append_assoc]

end Code

namespace Code

/-- The interface that `iface` stands for once the statement has run, where the statement looks one up or
creates one. -/
def Stmt.enters? : Stmt → Option String
  | .assign (.name "iface") (.call (.arrow _ "GetInterface") [.quoted interface])
  | .define ⟨_, "iface"⟩ (.call (.arrow _ "GetInterface") [.quoted interface])
  | .assign _ (.call (.member _ "CreateInterface") (.quoted interface :: .name "iface" :: _)) => some interface
  | _ => none

/-- The calls of a function, each with the interface that `iface` stands for when it is made. -/
def route (callee : Callee) (current : Option String) : List Stmt → List (Option String × List Expr)
  | [] => []
  | stmt :: rest =>
    let current := stmt.enters?.or current
    (stmt.callsOf callee).map (current, ·) ++ route callee current rest

def routed (callee : Callee) (block : List Stmt) : List (Option String × List Expr) :=
  route callee none (Stmt.withinAll block)

/-- While `iface` stays the same, all calls go to its interface. -/
theorem route_append {first : List Stmt} (still : ∀ stmt ∈ first, stmt.enters? = none) (callee : Callee)
    (current : Option String) (rest : List Stmt) :
    route callee current (first ++ rest) =
      (first.flatMap (Stmt.callsOf callee)).map (current, ·) ++ route callee current rest := by
  induction first with
  | nil => rfl
  | cons stmt first ih =>
    obtain ⟨same, still⟩ := List.forall_mem_cons.mp still
    simp only [List.cons_append, route, same, Option.none_or, ih still, List.flatMap_cons, List.map_append,
      List.append_assoc]

theorem route_silent {callee : Callee} {block : List Stmt} (silent : block.flatMap (Stmt.callsOf callee) = [])
    (current : Option String) : route callee current block = [] := by
  induction block generalizing current with
  | nil => rfl
  | cons stmt rest ih =>
    obtain ⟨first, others⟩ := List.append_eq_nil_iff.mp silent
    rw [route, first, ih others]
    rfl

/-- A stretch of code that enters an interface first and makes its calls then. -/
theorem route_entering {callee : Callee} {before after : List Stmt} {enter : Stmt} {interface : String}
    (outside : ∀ stmt ∈ before, stmt.enters? = none) (enters : enter.enters? = some interface)
    (inside : ∀ stmt ∈ after, stmt.enters? = none) (silent : before.flatMap (Stmt.callsOf callee) = [])
    (quiet : enter.callsOf callee = []) (current : Option String) (rest : List Stmt) :
    route callee current ((before ++ enter :: after) ++ rest) =
      (after.flatMap (Stmt.callsOf callee)).map (some interface, ·) ++ route callee (some interface) rest := by
  rw [List.append_assoc, route_append outside, silent, List.cons_append, route, enters, quiet, Option.some_or,
    route_append inside]
  rfl

/-- Code that is made of one such stretch for each interface. -/
theorem route_interfaces {callee : Callee} {code : Interface → List Stmt} {calls : Interface → List (List Expr)}
    {rest : List Stmt} (each : ∀ part current rest, route callee current (Stmt.withinAll (code part) ++ rest) =
      (calls part).map (some part.name, ·) ++ route callee (some part.name) rest)
    (ending : ∀ current, route callee current rest = []) (parts : List Interface) (current : Option String) :
    route callee current (Stmt.withinAll (parts.flatMap code) ++ rest) =
      parts.flatMap fun part => (calls part).map (some part.name, ·) := by
  induction parts generalizing current with
  | nil => exact ending current
  | cons part parts ih =>
    rw [List.flatMap_cons, Stmt.withinAll_append, List.append_assoc, each, ih, List.flatMap_cons]

end Code

private structure Pack.Still (pack : Pack) : Prop where
  before : Moves [] [] pack.before
  values : ∀ call ∈ Expr.callsAll pack.values, call.1 ∈ moving

namespace Pack.Still

variable {pack pack' : Pack}

private theorem append (first : pack.Still) (second : pack'.Still) : (pack.append pack').Still where
  before := first.before.append second.before
  values := by
    intro call member
    rw [Pack.append, Expr.callsAll_append, List.mem_append] at member
    exact member.elim (first.values call) (second.values call)

private theorem enclose (still : pack.Still) (opening closing : String) : (pack.enclose opening closing).Still :=
  ⟨still.before, still.values⟩

private theorem direct {signature : String} {values : List Expr}
    (inside : ∀ call ∈ Expr.callsAll values, call.1 ∈ moving) :
    (Pack.direct signature values).Still :=
  ⟨.nil, inside⟩

private theorem passed (kind : Scalar) (place : Place) :
    ∀ call ∈ (kind.passed (.place place)).calls, call.1 ∈ moving := by
  unfold Scalar.passed
  split <;> simp [Expr.calls, Expr.callsAll, moving]

private theorem finish (still : pack.Still) (container : Place) {into : List Cell}
    (cell : container.cell?.toList = into) : Moves into [] (pack.finish container) := by
  have call : Moves into [] [.perform (.send (.place container) "Set" (.quoted pack.signature :: pack.values))] := by
    refine .single rfl cell rfl rfl ?_
    simpa [Stmt.calls, Expr.calls, Expr.callsAll, moving] using still.values
  have stable : Moves [] [] [.perform (.send (.place container) "Stabilize" [])] := by
    refine .single rfl rfl rfl rfl ?_
    simp [Stmt.calls, Expr.calls, Expr.callsAll, moving]
  have deleted (buffers : List String) : Moves [] [] (buffers.map fun buffer => .deleteArray (.name buffer)) := by
    induction buffers with
    | nil => exact .nil
    | cons buffer rest ih =>
      have one : Moves [] [] [.deleteArray (.name buffer)] := .single rfl rfl rfl rfl (by simp [Stmt.calls, Expr.calls])
      exact .cons one ih
  have cleared : Moves [] [] (pack.cleared container) := by
    unfold Pack.cleared
    split
    · exact .nil
    · exact .cons stable (deleted _)
  rw [Pack.finish_eq]
  have moved := still.before.append (.cons call cleared)
  simp only [List.nil_append, List.append_nil] at moved
  exact moved

private theorem buffered {slot : Slot} {place : Place} {element stored : CType} {depth : Nat} {buffer : String}
    {body : List Stmt} (inner : Moves [] [] body) :
    (Pack.buffered slot place depth buffer element stored body).Still where
  before := by
    have allocated : Moves [] [] [.define ⟨stored, buffer⟩ (.newArray element (.count place))] :=
      .single rfl rfl rfl rfl (by simp [Stmt.calls, Expr.calls])
    exact .cons allocated (.loop inner)
  values := by simp [Pack.buffered, Expr.callsAll, Expr.calls]

end Pack.Still

mutual
private theorem Slot.pack_still (depth : Nat) (place : Place) : (slot : Slot) → (slot.pack depth place).Still
  | .scalar kind => .direct (by simpa [Expr.callsAll] using Pack.Still.passed kind place)
  | .variant | .boxed _ => .direct (by simp [Expr.callsAll, Expr.calls])
  | .scalars kind => by
    rw [Slot.pack]
    split
    next text =>
      have copied : Moves [] [] [.assign (.place ((Place.root (Buffer.texts place)).element depth))
          (kind.passed (.place (place.element depth)))] := by
        refine .single rfl rfl ?_ rfl ?_
        · simp [Scalar.passed, text, Expr.send, Stmt.drains, Stmt.drained?]
        · simpa [Stmt.calls, Expr.calls] using Pack.Still.passed kind (place.element depth)
      exact .buffered copied
    next => exact .direct (by simp [Expr.callsAll, Expr.calls])
  | .struct fields => (Fields.pack_still depth place fields).enclose "(" ")"
  | .structs fields => by
    have packed := Fields.pack_still (depth + 1) (place.element depth) fields
    exact .buffered ((packed.enclose "(" ")").finish _ rfl)
  | .dict key value => by
    have keyed : (Pack.direct key.code.toString [key.passed (.place ((place.element depth).field "key"))]).Still :=
      .direct (by simpa [Expr.callsAll] using Pack.Still.passed key _)
    have packed := keyed.append (Slot.pack_still (depth + 1) ((place.element depth).field "value") value)
    exact .buffered ((packed.enclose "\x7b" "\x7d").finish _ rfl)

private theorem Fields.pack_still (depth : Nat) (place : Place) : (fields : Fields) → (fields.pack depth place).Still
  | .nil => ⟨.nil, by simp [Fields.pack, Expr.callsAll]⟩
  | .cons name slot rest => (Slot.pack_still depth (place.field name) slot).append (Fields.pack_still depth place rest)
end

theorem Slot.set_moves (slot : Slot) (container : Place) (name : String) {into : List Cell}
    (cell : container.cell?.toList = into) : Moves into [] (slot.set container (.root name) 0) := by
  cases assigned : slot.isAssigned with
  | false =>
    rw [Slot.set_eq assigned]
    exact (slot.pack_still 0 (.root name)).finish container cell
  | true =>
    rw [Slot.set_assigned assigned]
    exact .single rfl cell rfl rfl (by simp [Stmt.calls, Expr.calls])

private structure Unpack.Still (unpack : Unpack) : Prop where
  addresses : ∀ call ∈ Expr.callsAll unpack.addresses, call.1 ∈ moving
  copies : Moves [] [] unpack.copies

namespace Unpack.Still

variable {unpack unpack' : Unpack}

private theorem append (first : unpack.Still) (second : unpack'.Still) : (unpack.append unpack').Still where
  addresses := by
    intro call member
    rw [Unpack.append, Expr.callsAll_append, List.mem_append] at member
    exact member.elim (first.addresses call) (second.addresses call)
  copies := first.copies.append second.copies

private theorem enclose (still : unpack.Still) (opening closing : String) : (unpack.enclose opening closing).Still :=
  ⟨still.addresses, still.copies⟩

private theorem finish (still : unpack.Still) (container : Place) {origin : List Cell}
    (cell : container.cell?.toList = origin) : Moves [] origin (unpack.finish container) := by
  have call : Moves [] origin
      [.perform (.send (.place container) "Get" (.quoted unpack.signature :: unpack.addresses))] := by
    refine .single rfl rfl cell rfl ?_
    simpa [Stmt.calls, Expr.calls, Expr.callsAll, moving] using still.addresses
  have moved := (Moves.declare unpack.temporaries).append (.cons call still.copies)
  simp only [List.nil_append, List.append_nil] at moved
  exact moved

private theorem assign {place : Place} {value : Expr} (target : place.cell? = none) (plain : ∀ p, value ≠ .place p)
    (inside : ∀ call ∈ value.calls, call.1 ∈ moving) : Moves [] [] [.assign (.place place) value] := by
  refine .single rfl ?_ ?_ rfl ?_
  · simp [Stmt.fills, Stmt.filled?, target]
  · cases value <;> first | exact absurd rfl (plain _) | rfl
  · simpa [Stmt.calls, Expr.calls] using inside

private theorem through {code : String} {type : CType} {place : Place} {copied : Expr → Expr}
    (target : place.cell? = none)
    (plain : ∀ name p, copied (.name name) ≠ .place p) (inside : ∀ name, (copied (.name name)).calls = []) :
    (Unpack.through code type place copied).Still where
  addresses := by simp [Unpack.through, Expr.callsAll, Expr.calls]
  copies := assign target (plain _) (by simp [inside])

private theorem scalar {place : Place} (kind : Scalar) (target : place.cell? = none) : (kind.unpack place).Still := by
  unfold Scalar.unpack
  split
  · exact through target (by simp) (by simp [Expr.calls])
  · exact ⟨by simp [Expr.callsAll, Expr.calls], .nil⟩

private theorem counted {slot : Slot} {place : Place} {type : TypeName} {depth : Nat} {temporary : Variable}
    {body : List Stmt} (target : place.cell? = none) (inner : Moves [] [] body) :
    (Unpack.counted slot place type depth temporary body).Still where
  addresses := by simp [Unpack.counted, Expr.callsAll, Expr.calls]
  copies := .cons (assign target (by simp) (by simp [Expr.calls])) (.loop inner)

end Unpack.Still

mutual
private theorem Slot.unpack_still (depth : Nat) (place : Place) (type : TypeName) (target : place.cell? = none) :
    (slot : Slot) → (slot.unpack depth place type).Still
  | .scalar kind => .scalar kind target
  | .variant | .boxed _ => .through target (by simp) (by simp [Expr.calls])
  | .scalars kind => by
    rw [Slot.unpack]
    split
    · exact .counted target ((Unpack.Still.scalar kind rfl).finish _ rfl)
    · exact .counted target (.single rfl rfl rfl rfl (by simp [Stmt.calls, Expr.calls]))
  | .struct fields => (Fields.unpack_still depth place type.scope fields).enclose "(" ")"
  | .structs fields => by
    have unpacked := Fields.unpack_still (depth + 1) (place.element depth) type.scope fields
    exact .counted target ((unpacked.enclose "(" ")").finish _ rfl)
  | .dict key value => by
    have keyed : (key.unpack ((place.element depth).field "key")).Still := .scalar key rfl
    have unpacked := keyed.append (Slot.unpack_still (depth + 1) ((place.element depth).field "value")
      (value.elementType type.scope "value") rfl value)
    exact .counted target ((unpacked.enclose "\x7b" "\x7d").finish _ rfl)

private theorem Fields.unpack_still (depth : Nat) (place : Place) (scope : List String) :
    (fields : Fields) → (fields.unpack depth place scope).Still
  | .nil => ⟨by simp [Fields.unpack, Expr.callsAll], .nil⟩
  | .cons name slot rest =>
    (Slot.unpack_still depth (place.field name) (slot.elementType scope name) rfl slot).append
      (Fields.unpack_still depth place scope rest)
end

theorem Slot.get_moves (slot : Slot) (container : Place) (name : String) (declared : Bool) {origin : List Cell}
    (cell : container.cell?.toList = origin) : Moves [] origin (slot.get container name declared 0) := by
  have locals : Moves [] [] (if declared then (slot.locals name).map .declare else []) := by
    split
    · exact .declare _
    · exact .nil
  cases assigned : slot.isAssigned with
  | false =>
    rw [Slot.get_eq assigned]
    exact locals.append ((slot.unpack_still 0 (.root name) _ rfl).finish container cell)
  | true =>
    rw [Slot.get_assigned assigned]
    have copied : Moves [] origin [.assign (.place (.root name)) (.place container)] :=
      .single rfl rfl cell rfl (by simp [Stmt.calls, Expr.calls])
    exact locals.append copied

private theorem moves_zipIdx {f : TypedArg × Nat → List Stmt} {into origin : Nat → List Cell}
    (each : ∀ arg index, Moves (into index) (origin index) (f (arg, index))) (args : List TypedArg) (start : Nat) :
    Moves ((List.range' start args.length).flatMap into) ((List.range' start args.length).flatMap origin)
      ((args.zipIdx start).flatMap f) := by
  induction args generalizing start with
  | nil => exact .nil
  | cons arg rest ih => exact (each arg start).append (ih (start + 1))

private theorem cells_eq (array : String) (count : Nat) :
    cells array count = (List.range' 0 count).flatMap fun index => [⟨array, index⟩] := by
  rw [cells, List.range_eq_range', List.map_eq_flatMap]

private theorem nothing_eq (count : Nat) : ([] : List Cell) = (List.range' 0 count).flatMap fun _ => [] := by
  simp

/-- Packing fills the first elements, one for each argument, in order. -/
theorem packAll_moves (array : String) (args : List TypedArg) :
    Moves (cells array args.length) [] (packAll array args) := by
  have moved : Moves ((List.range' 0 args.length).flatMap fun index => [⟨array, index⟩])
      ((List.range' 0 args.length).flatMap fun _ => []) (packAll array args) :=
    moves_zipIdx (fun arg index => arg.slot.set_moves (slotAt array index) arg.name rfl) args 0
  rwa [← cells_eq, ← nothing_eq] at moved

theorem unpackAll_moves (array : String) (args : List TypedArg) (declared : Bool) :
    Moves [] (cells array args.length) (unpackAll array args declared) := by
  have moved : Moves ((List.range' 0 args.length).flatMap fun _ => [])
      ((List.range' 0 args.length).flatMap fun index => [⟨array, index⟩]) (unpackAll array args declared) :=
    moves_zipIdx (fun arg index => arg.slot.get_moves (slotAt array index) arg.name declared rfl) args 0
  rwa [← cells_eq, ← nothing_eq] at moved

theorem set_infix_packAll {array : String} {args : List TypedArg} {index : Nat} {arg : TypedArg}
    (found : args[index]? = some arg) :
    arg.slot.set (slotAt array index) (.root arg.name) 0 <:+: packAll array args := by
  have member := List.mk_mem_zipIdx_iff_getElem?.mpr found
  exact List.infix_of_mem_flatten (List.mem_map.mpr ⟨_, member, rfl⟩)

theorem get_infix_unpackAll {array : String} {args : List TypedArg} {index : Nat} {arg : TypedArg} (declared : Bool)
    (found : args[index]? = some arg) :
    arg.slot.get (slotAt array index) arg.name declared 0 <:+: unpackAll array args declared := by
  have member := List.mk_mem_zipIdx_iff_getElem?.mpr found
  exact List.infix_of_mem_flatten (List.mem_map.mpr ⟨_, member, rfl⟩)

end BusStub
