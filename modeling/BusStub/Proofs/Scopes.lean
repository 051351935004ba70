import BusStub.Proofs.TemporaryNames
import BusStub.Proofs.Traffic

/-! What the scopes of a function declare. Every loop that moves a value runs in a scope of its own, where the
names of the temporaries differ from each other and from the loop's counter; so only the temporaries that are
declared outside all loops can meet names from elsewhere. -/

namespace BusStub
open Code Routine

namespace Code

/-- The name that a statement declares in the block where it stands. -/
def Stmt.declared? : Stmt → Option String
  | .declare v | .define v _ | .array v _ | .construct v _ => some v.name
  | .assign _ _ | .perform _ | .delete _ | .deleteArray _ | .ret _ | .loop _ _ _ | .branch _ _ | .choose _ _ _
  | .comment _ | .blank => none

def declared (block : List Stmt) : List String :=
  block.filterMap Stmt.declared?

/-- What is declared in the blocks that a statement opens, a loop's counter included. -/
def Stmt.scopes : Stmt → List (List String)
  | .loop depth _ body => [counter depth :: declared body]
  | .branch _ body => [declared body]
  | .choose _ body otherwise => [declared body, declared otherwise]
  | .declare _ | .define _ _ | .array _ _ | .construct _ _ | .assign _ _ | .perform _ | .delete _ | .deleteArray _
  | .ret _ | .comment _ | .blank => []

/-- The scopes of a function, the outermost one first, to which the parameters belong. -/
def Definition.scopes (definition : Definition) : List (List String) :=
  (definition.prototype.params.map Param.name ++ declared definition.body) :: observe Stmt.scopes definition.body

def Definition.DeclaresOnce (definition : Definition) : Prop :=
  ∀ scope ∈ definition.scopes, scope.Nodup

instance (definition : Definition) : Decidable definition.DeclaresOnce :=
  inferInstanceAs (Decidable (∀ scope ∈ definition.scopes, scope.Nodup))

/-- A block that declares the given names itself. Nothing inside it is declared twice in one scope if that is so
for the scopes in `nested`. -/
structure Declares (names : List String) (nested : List (List String)) (block : List Stmt) : Prop where
  here : declared block = names
  inside : (∀ scope ∈ observe Stmt.scopes block, scope.Nodup) ↔ ∀ scope ∈ nested, scope.Nodup

theorem Definition.declaresOnce_iff {definition : Definition} {names : List String} {nested : List (List String)}
    (block : Declares names nested definition.body) :
    definition.DeclaresOnce ↔
      (definition.prototype.params.map Param.name ++ names).Nodup ∧ ∀ scope ∈ nested, scope.Nodup := by
  rw [DeclaresOnce, scopes, List.forall_mem_cons, block.here, block.inside]

namespace Declares

variable {names names' : List String} {nested nested' : List (List String)} {first second body otherwise : List Stmt}
variable {stmt : Stmt} {condition : Expr}

theorem nil : Declares [] [] [] :=
  ⟨rfl, Iff.rfl⟩

theorem append (one : Declares names nested first) (other : Declares names' nested' second) :
    Declares (names ++ names') (nested ++ nested') (first ++ second) where
  here := by rw [declared, List.filterMap_append, ← declared, ← declared, one.here, other.here]
  inside := by rw [observe_append, List.forall_mem_append, List.forall_mem_append, one.inside, other.inside]

theorem cons (one : Declares names nested [stmt]) (other : Declares names' nested' second) :
    Declares (names ++ names') (nested ++ nested') (stmt :: second) :=
  one.append other

theorem single (alone : stmt.within = [stmt]) (own : stmt.declared?.toList = names) (unnested : stmt.scopes = []) :
    Declares names [] [stmt] where
  here := by cases name : stmt.declared? <;> simpa [declared, name] using own
  inside := by rw [observe_plain _ alone, unnested]

theorem perform (action : Expr) : Declares [] [] [.perform action] :=
  single rfl rfl rfl

theorem assign (target value : Expr) : Declares [] [] [.assign target value] :=
  single rfl rfl rfl

theorem ret (value : Expr) : Declares [] [] [.ret value] :=
  single rfl rfl rfl

theorem blank : Declares [] [] [.blank] :=
  single rfl rfl rfl

theorem branch (inner : Declares names nested body) : Declares [] (names :: nested) [.branch condition body] where
  here := rfl
  inside := by
    have seen : observe Stmt.scopes [.branch condition body] = declared body :: observe Stmt.scopes body := by
      simp [Stmt.within, Stmt.scopes]
    rw [seen, List.forall_mem_cons, List.forall_mem_cons, inner.here, inner.inside]

theorem choose (inner : Declares names nested body) (other : Declares names' nested' otherwise) :
    Declares [] (names :: names' :: (nested ++ nested')) [.choose condition body otherwise] where
  here := rfl
  inside := by
    have seen : observe Stmt.scopes [.choose condition body otherwise] =
        declared body :: declared otherwise :: (observe Stmt.scopes body ++ observe Stmt.scopes otherwise) := by
      simp [Stmt.within, Stmt.scopes]
    rw [seen]
    simp only [List.forall_mem_cons, List.forall_mem_append, inner.here, inner.inside, other.here, other.inside]

theorem settled (block : Declares names nested body) (once : ∀ scope ∈ nested, scope.Nodup) :
    Declares names [] body :=
  ⟨block.here, iff_of_true (block.inside.mpr once) (by simp)⟩

theorem loop {depth : Nat} {place : Place} (inner : Declares names [] body)
    (once : (counter depth :: names).Nodup) : Declares [] [] [.loop depth place body] where
  here := rfl
  inside := by
    rw [observe_loop, List.forall_mem_append, inner.inside, Stmt.scopes, inner.here]
    simpa using once

theorem declare (vs : List Variable) : Declares (vs.map Variable.name) [] (vs.map .declare) := by
  induction vs with
  | nil => exact nil
  | cons v rest ih =>
    have one : Declares [v.name] [] [.declare v] := single rfl rfl rfl
    exact cons one ih

theorem flatMap {α : Type} {f : α → List Stmt} {items : List α} (each : ∀ item ∈ items, Declares [] [] (f item)) :
    Declares [] [] (items.flatMap f) := by
  induction items with
  | nil => exact nil
  | cons item rest ih =>
    obtain ⟨first, others⟩ := List.forall_mem_cons.mp each
    exact first.append (ih others)

end Declares
end Code

theorem Pack.buffered_declares {slot : Slot} {place : Place} {depth : Nat} {buffer : String} {element stored : CType}
    {names : List String} {body : List Stmt} (inner : Declares names [] body)
    (once : (counter depth :: names).Nodup) :
    Declares [buffer] [] (Pack.buffered slot place depth buffer element stored body).before := by
  have allocated : Declares [buffer] [] [.define ⟨stored, buffer⟩ (.newArray element (.count place))] :=
    .single rfl rfl rfl
  exact .cons allocated (.loop inner once)

theorem Pack.finish_declares {pack : Pack} {names : List String} (before : Declares names [] pack.before)
    (container : Place) : Declares names [] (pack.finish container) := by
  have deleted (buffers : List String) : Declares [] [] (buffers.map fun buffer => .deleteArray (.name buffer)) := by
    have one (buffer : String) : Declares [] [] [.deleteArray (.name buffer)] := .single rfl rfl rfl
    rw [List.map_eq_flatMap]
    exact .flatMap fun buffer _ => one buffer
  have cleared : Declares [] [] (pack.cleared container) := by
    unfold Pack.cleared
    split
    · exact .nil
    · exact .cons (.perform _) (deleted _)
  rw [Pack.finish_eq]
  simpa using before.append (.cons (.perform _) cleared)

theorem Parcel.set_declares (parcel : Parcel) {place target : Place} {depth : Nat} {names : List String}
    (before : Declares names [] (parcel.pack depth place).before) :
    Declares names [] (parcel.set target place depth) :=
  Pack.finish_declares before target

mutual
theorem Slot.pack_declares (depth : Nat) (place : Place) : (type : BusType) →
    Declares (((Slot.of type).tails Slot.bufferTails).map (temporary place)) [] ((Slot.of type).pack depth place).before
  | .basic _ | .variant | .array .variant | .array (.array _) | .array (.dict _ _) => .nil
  | .array (.basic kind) => by
    rw [Slot.of, Slot.pack, Slot.tails, Slot.bufferTails]
    · split
      next =>
        exact Pack.buffered_declares (.assign _ _) (List.nodup_singleton _)
      next => exact .nil
    · exact nofun
  | .struct members => Fields.pack_declares depth place {} members
  | .array (.struct members) => by
    have inner := Fields.pack_declares (depth + 1) (place.element depth) {} members
    have once := scope_nodup depth (place.element depth) (Fields.tails_nodup Slot.bufferTails_tailed {} members)
    rw [Slot.of, Slot.pack_structs]
    exact Pack.buffered_declares (Parcel.set_declares (.whole (.struct (Fields.of {} members))) inner) once
  | .dict key value => by
    have inner := Slot.pack_declares (depth + 1) ((place.element depth).field "value") value
    have once := scope_nodup depth ((place.element depth).field "value")
      (Slot.tails_nodup Slot.bufferTails_tailed value)
    rw [Slot.of, Slot.pack_dict]
    exact Pack.buffered_declares (Parcel.set_declares (.entry key (Slot.of value)) inner) once

theorem Fields.pack_declares (depth : Nat) (place : Place) (numbering : Numbering) : (types : List BusType) →
    Declares (((Fields.of numbering types).tails Slot.bufferTails).map (temporary place)) []
      ((Fields.of numbering types).pack depth place).before
  | [] => .nil
  | type :: rest => by
    have first := Slot.pack_declares depth (place.field (numbering.name (Slot.of type))) type
    rw [temporaries_field (IsMember.flat ⟨_, _, numbering.name_eq _⟩)] at first
    rw [Fields.of, Fields.tails, List.map_append]
    exact first.append (Fields.pack_declares depth place _ rest)
end

/-- Temporaries for the given tails, and copies that declare nothing outside their own scopes. -/
private structure Unpack.Tidy (place : Place) (tails : List String) (unpack : Unpack) : Prop where
  temporaries : unpack.temporaries.map Variable.name = tails.map (temporary place)
  copies : Declares [] [] unpack.copies

namespace Unpack.Tidy

variable {place : Place} {tails tails' : List String} {unpack unpack' : Unpack}

private theorem append (first : unpack.Tidy place tails) (second : unpack'.Tidy place tails') :
    (unpack.append unpack').Tidy place (tails ++ tails') where
  temporaries := by rw [Unpack.append, List.map_append, List.map_append, first.temporaries, second.temporaries]
  copies := first.copies.append second.copies

private theorem enclose (tidy : unpack.Tidy place tails) (opening closing : String) :
    (unpack.enclose opening closing).Tidy place tails :=
  ⟨tidy.temporaries, tidy.copies⟩

private theorem field {name : String} (tidy : unpack.Tidy (place.field name) tails) (plain : flat name = name) :
    unpack.Tidy place (tails.map ("_" ++ name ++ ·)) :=
  ⟨by rw [tidy.temporaries, temporaries_field plain], tidy.copies⟩

private theorem finish (tidy : unpack.Tidy place tails) (container : Place) :
    Declares (tails.map (temporary place)) [] (unpack.finish container) := by
  have declares : Declares (unpack.temporaries.map Variable.name ++ []) [] (unpack.finish container) :=
    (Declares.declare unpack.temporaries).append (.cons (.perform _) tidy.copies)
  rwa [List.append_nil, tidy.temporaries] at declares

private theorem through {code : String} {type : CType} {copied : Expr → Expr} :
    (Unpack.through code type place copied).Tidy place [""] where
  temporaries := by simp [Unpack.through, temporary]
  copies := .assign _ _

private theorem scalar (kind : Scalar) : (kind.unpack place).Tidy place (Slot.scalar kind).borrowTails := by
  simp only [Scalar.unpack, Slot.borrowTails]
  cases kind.isText with
  | true => exact through
  | false => exact ⟨rfl, .nil⟩

private theorem counted {slot : Slot} {type : TypeName} {depth : Nat} {borrowed : CType} {tail : String}
    {names : List String} {body : List Stmt} (inner : Declares names [] body)
    (once : (counter depth :: names).Nodup) :
    (Unpack.counted slot place type depth ⟨borrowed, temporary place tail⟩ body).Tidy place [tail] where
  temporaries := rfl
  copies := .cons (.assign _ _) (.loop inner once)

end Unpack.Tidy

mutual
private theorem Slot.unpack_tidy (depth : Nat) (place : Place) (name : TypeName) : (type : BusType) →
    ((Slot.of type).unpack depth place name).Tidy place ((Slot.of type).tails Slot.borrowTails)
  | .basic kind => .scalar kind
  | .variant | .array .variant | .array (.array _) | .array (.dict _ _) => .through
  | .array (.basic kind) => by
    rw [Slot.of, Slot.unpack]
    split
    next text =>
      have once := scope_nodup depth (place.element depth) (Slot.borrowTails_tailed.nodup (.scalar kind))
      exact .counted (Unpack.Tidy.scalar kind |>.finish _) once
    next => exact .counted (.assign _ _) (List.nodup_singleton _)
  | .struct members => (Fields.unpack_tidy depth place name.scope {} members).enclose "(" ")"
  | .array (.struct members) => by
    have inner := (Fields.unpack_tidy (depth + 1) (place.element depth) name.scope {} members).enclose "(" ")"
    have once := scope_nodup depth (place.element depth) (Fields.tails_nodup Slot.borrowTails_tailed {} members)
    exact .counted (inner.finish _) once
  | .dict key value => by
    have keyed : (key.unpack ((place.element depth).field "key")).Tidy _ _ := .scalar key
    have valued := Slot.unpack_tidy (depth + 1) ((place.element depth).field "value")
      ((Slot.of value).elementType name.scope "value") value
    have inner := ((keyed.field (by decide)).append (valued.field (by decide))).enclose "\x7b" "\x7d"
    have once := scope_nodup depth (place.element depth) (Slot.entry_nodup Slot.borrowTails_tailed key value)
    exact .counted (inner.finish _) once

private theorem Fields.unpack_tidy (depth : Nat) (place : Place) (scope : List String) (numbering : Numbering) :
    (types : List BusType) →
    ((Fields.of numbering types).unpack depth place scope).Tidy place
      ((Fields.of numbering types).tails Slot.borrowTails)
  | [] => ⟨rfl, .nil⟩
  | type :: rest => by
    have first := Slot.unpack_tidy depth (place.field (numbering.name (Slot.of type)))
      ((Slot.of type).elementType scope (numbering.name (Slot.of type))) type
    have plain := IsMember.flat ⟨_, _, numbering.name_eq (Slot.of type)⟩
    exact (first.field plain).append (Fields.unpack_tidy depth place scope _ rest)
end

namespace Slot

def localNames (slot : Slot) (name : String) : List String :=
  (slot.locals name).map Variable.name

/-- What packing a value called `name` declares outside all loops. -/
def buffers (slot : Slot) (name : String) : List String :=
  (slot.tails bufferTails).map (temporary (.root name))

/-- What unpacking declares outside all loops, apart from the variables that keep the value. -/
def borrowed (slot : Slot) (name : String) : List String :=
  if slot.isAssigned then [] else (slot.tails borrowTails).map (temporary (.root name))

theorem set_declares (type : BusType) (container : Place) (name : String) (depth : Nat) :
    Declares ((Slot.of type).buffers name) [] ((Slot.of type).set container (.root name) depth) := by
  cases assigned : (Slot.of type).isAssigned with
  | false =>
    rw [Slot.set_eq assigned]
    exact Pack.finish_declares (Slot.pack_declares depth (.root name) type) container
  | true =>
    have unbuffered : (Slot.of type).buffers name = [] := by
      cases slot : Slot.of type <;> simp [slot, isAssigned, buffers, tails, bufferTails] at assigned ⊢
    rw [Slot.set_assigned assigned, unbuffered]
    exact .assign _ _

theorem get_declares (type : BusType) (container : Place) (name : String) (declared : Bool) (depth : Nat) :
    Declares ((if declared then (Slot.of type).localNames name else []) ++ (Slot.of type).borrowed name) []
      ((Slot.of type).get container name declared depth) := by
  have locals : Declares (if declared then (Slot.of type).localNames name else []) []
      (if declared then ((Slot.of type).locals name).map .declare else []) := by
    split
    · exact .declare _
    · exact .nil
  cases assigned : (Slot.of type).isAssigned with
  | false =>
    have moved := (Slot.unpack_tidy depth (.root name) ((Slot.of type).elementType [] name) type).finish container
    rw [Slot.get_eq assigned, borrowed, assigned]
    exact locals.append moved
  | true =>
    rw [Slot.get_assigned assigned, borrowed, assigned]
    exact locals.append (.assign _ _)

end Slot

namespace TypedArg

def localNames (arg : TypedArg) : List String :=
  arg.slot.localNames arg.name

def buffers (arg : TypedArg) : List String :=
  arg.slot.buffers arg.name

def borrowed (arg : TypedArg) : List String :=
  arg.slot.borrowed arg.name

end TypedArg

private theorem declares_zipIdx {f : TypedArg × Nat → List Stmt} {names : TypedArg → List String}
    (each : ∀ arg index, Declares (names arg) [] (f (arg, index))) (args : List TypedArg) (start : Nat) :
    Declares (args.flatMap names) [] ((args.zipIdx start).flatMap f) := by
  induction args generalizing start with
  | nil => exact .nil
  | cons arg rest ih => exact (each arg start).append (ih (start + 1))

theorem packAll_declares (array : String) (args : List TypedArg) :
    Declares (args.flatMap TypedArg.buffers) [] (packAll array args) :=
  declares_zipIdx (fun arg index => Slot.set_declares arg.type (slotAt array index) arg.name 0) args 0

theorem unpackAll_declares (array : String) (args : List TypedArg) (declared : Bool) :
    Declares (args.flatMap fun arg => (if declared then arg.localNames else []) ++ arg.borrowed) []
      (unpackAll array args declared) :=
  declares_zipIdx (fun arg index => Slot.get_declares arg.type (slotAt array index) arg.name declared 0) args 0

end BusStub
