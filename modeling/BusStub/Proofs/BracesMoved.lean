import BusStub.Proofs.BracesPrinted
import BusStub.Stub.Routine

/-! Braces in the code that keeps and moves values. Dictionary entries are packed with the one signature that
opens a brace apart from its end; the names of fields and of temporaries have none. -/

namespace BusStub
open Text Code

namespace Code

@[simp] theorem Expr.allNeat_iff {exprs : List Expr} : Expr.AllNeat exprs ↔ ∀ expr ∈ exprs, expr.Neat := by
  induction exprs with
  | nil => exact iff_of_true trivial (List.forall_mem_nil _)
  | cons expr rest ih => rw [Expr.AllNeat, ih, List.forall_mem_cons]

@[simp] theorem Stmt.allNeat_iff {block : List Stmt} : Stmt.AllNeat block ↔ ∀ stmt ∈ block, stmt.Neat := by
  induction block with
  | nil => exact iff_of_true trivial (List.forall_mem_nil _)
  | cons stmt rest ih => rw [Stmt.AllNeat, ih, List.forall_mem_cons]

@[simp] theorem Field.allNeat_iff {fields : List Field} : Field.AllNeat fields ↔ ∀ field ∈ fields, field.Neat := by
  induction fields with
  | nil => exact iff_of_true trivial (List.forall_mem_nil _)
  | cons field rest ih => rw [Field.AllNeat, ih, List.forall_mem_cons]

@[simp] theorem CType.neat_mk {name : TypeName} {constant : Bool} {stars : Nat} :
    CType.Neat ⟨name, constant, stars⟩ ↔ name.Neat :=
  Iff.rfl

@[simp] theorem TypeName.size_neat : TypeName.size.Neat :=
  (.literal rfl : Level "size_t")

@[simp] theorem TypeName.character_neat : TypeName.character.Neat :=
  (.literal rfl : Level "char")

@[simp] theorem TypeName.message_neat : TypeName.message.Neat :=
  (.literal rfl : Level "MsgArg")

section
variable {object : Expr} {name : String} {args : List Expr}

@[simp] theorem Expr.apply_neat : (Expr.apply name args).Neat ↔ Level name ∧ ∀ arg ∈ args, arg.Neat := by
  simp [Expr.apply, Expr.Neat]

@[simp] theorem Expr.send_neat :
    (object.send name args).Neat ↔ (object.Neat ∧ Level name) ∧ ∀ arg ∈ args, arg.Neat := by
  simp [Expr.send, Expr.Neat]

@[simp] theorem Expr.sendTo_neat :
    (object.sendTo name args).Neat ↔ (object.Neat ∧ Level name) ∧ ∀ arg ∈ args, arg.Neat := by
  simp [Expr.sendTo, Expr.Neat]

end
end Code

mutual
/-- The names of all fields close the braces that they open. -/
def Slot.Neat : Slot → Prop
  | .struct fields | .structs fields => fields.Neat
  | .dict _ value => value.Neat
  | .scalar _ | .variant | .boxed _ | .scalars _ => True
termination_by structural slot => slot

def Fields.Neat : Fields → Prop
  | .nil => True
  | .cons name slot rest => Level name ∧ slot.Neat ∧ rest.Neat
termination_by structural fields => fields
end

theorem Numbering.level_name (numbering : Numbering) (slot : Slot) : Level (numbering.name slot) := by
  cases slot <;> exact .append (.literal rfl) (level_digits _)

mutual
theorem Slot.neat_of : (type : BusType) → (Slot.of type).Neat
  | .basic _ | .variant | .array (.basic _) | .array .variant | .array (.array _) | .array (.dict _ _) => trivial
  | .struct members => Fields.neat_of {} members
  | .array (.struct members) => Fields.neat_of {} members
  | .dict _ value => Slot.neat_of value

theorem Fields.neat_of : (numbering : Numbering) → (types : List BusType) → (Fields.of numbering types).Neat
  | _, [] => trivial
  | numbering, type :: rest => ⟨numbering.level_name _, Slot.neat_of type, Fields.neat_of _ rest⟩
end

namespace Slot

theorem level_text (slot : Slot) : Level slot.text :=
  slot.type.level_text

theorem elementType_neat {scope : List String} (outside : ∀ part ∈ scope, Level part) {name : String}
    (named : Level name) (slot : Slot) : (slot.elementType scope name).Neat := by
  have record {ending : String} (plain : Level ending) : (TypeName.composite (scope ++ [name ++ ending])).Neat :=
    List.forall_mem_append.mpr ⟨outside, List.forall_mem_singleton.mpr (named.append plain)⟩
  cases slot with
  | scalar | scalars => trivial
  | variant | boxed => exact TypeName.message_neat
  | struct | structs | dict => exact record (.literal rfl)

theorem locals_neat {name : String} (named : Level name) (slot : Slot) : ∀ v ∈ slot.locals name, v.Neat := by
  have type : (slot.elementType [] name).Neat := elementType_neat (List.forall_mem_nil _) named slot
  unfold locals
  dsimp only
  split
  · exact List.forall_mem_cons.mpr
      ⟨⟨type, named⟩, List.forall_mem_singleton.mpr ⟨TypeName.size_neat, level_countName named⟩⟩
  · exact List.forall_mem_singleton.mpr ⟨type, named⟩

theorem params_neat {name : String} (named : Level name) (slot : Slot) (direction : Direction) :
    ∀ param ∈ slot.params name direction, param.Neat := by
  have type : (slot.elementType [] name).Neat := elementType_neat (List.forall_mem_nil _) named slot
  have count : Level (countName name) := level_countName named
  unfold params
  dsimp only
  split
  · exact List.forall_mem_singleton.mpr ⟨type, named, by simp⟩
  · exact List.forall_mem_singleton.mpr ⟨type, named, by simp⟩
  · exact List.forall_mem_cons.mpr
      ⟨⟨type, named, by simp⟩, List.forall_mem_singleton.mpr ⟨TypeName.size_neat, count, by simp⟩⟩
  · exact List.forall_mem_cons.mpr
      ⟨⟨type, named, by simp⟩, List.forall_mem_singleton.mpr ⟨TypeName.size_neat, count, by simp⟩⟩

theorem arguments_neat {name : String} (named : Level name) (slot : Slot) :
    ∀ expr ∈ slot.arguments name, expr.Neat := by
  have place : (Place.root name).Neat := named
  unfold arguments
  dsimp only
  split <;> simp [Expr.Neat, place]

end Slot

theorem Slot.locals_plain {name : String} (named : Level name) (slot : Slot) :
    ∀ field ∈ (slot.locals name).map Field.plain, field.Neat :=
  List.forall_mem_map.mpr fun v member => slot.locals_neat named v member

mutual
theorem Slot.fields_neat {name : String} (named : Level name) :
    (slot : Slot) → slot.Neat → ∀ field ∈ slot.fields name, field.Neat
  | .struct fields, neat => by
    have record := Fields.declared_neat fields neat
    have object : ∀ text ∈ some name, Level text := by simpa using named
    exact List.forall_mem_singleton.mpr ⟨named.append (.literal rfl), Field.allNeat_iff.mpr record, object⟩
  | .structs fields, neat => by
    have record := Fields.declared_neat fields neat
    exact List.forall_mem_cons.mpr
      ⟨⟨named.append (.literal rfl), Field.allNeat_iff.mpr record, by simp⟩, Slot.locals_plain named _⟩
  | .dict key value, neat => by
    have entry : Field.AllNeat (.plain ⟨⟨.scalar key, false, 0⟩, "key"⟩ :: value.fields "value") :=
      ⟨⟨trivial, (.literal rfl : Level "key")⟩, Field.allNeat_iff.mpr (Slot.fields_neat (.literal rfl) value neat)⟩
    exact List.forall_mem_cons.mpr ⟨⟨named.append (.literal rfl), entry, by simp⟩, Slot.locals_plain named _⟩
  | .scalar _, _ => Slot.locals_plain named _
  | .variant, _ => Slot.locals_plain named _
  | .boxed _, _ => Slot.locals_plain named _
  | .scalars _, _ => Slot.locals_plain named _

theorem Fields.declared_neat : (fields : Fields) → fields.Neat → ∀ field ∈ fields.declared, field.Neat
  | .nil, _ => List.forall_mem_nil _
  | .cons _ slot rest, ⟨named, inner, others⟩ =>
    List.forall_mem_append.mpr ⟨Slot.fields_neat named slot inner, Fields.declared_neat rest others⟩
end

structure Pack.Neat (pack : Pack) : Prop where
  before : ∀ stmt ∈ pack.before, stmt.Neat
  signature : Level pack.signature
  values : ∀ value ∈ pack.values, value.Neat
  buffers : ∀ buffer ∈ pack.buffers, Level buffer

theorem Scalar.level_code (kind : Scalar) : Level kind.code.toString := by
  cases kind <;> decide

theorem Scalar.passed_neat (kind : Scalar) {value : Expr} (neat : value.Neat) : (kind.passed value).Neat := by
  have read : Level "c_str" := .literal rfl
  unfold Scalar.passed
  split
  · simp [neat, read]
  · exact neat

namespace Pack.Neat

variable {pack pack' : Pack} {container : Place}

theorem append (first : pack.Neat) (second : pack'.Neat) : (pack.append pack').Neat where
  before := List.forall_mem_append.mpr ⟨first.before, second.before⟩
  signature := first.signature.append second.signature
  values := List.forall_mem_append.mpr ⟨first.values, second.values⟩
  buffers := List.forall_mem_append.mpr ⟨first.buffers, second.buffers⟩

/-- What is around a signature may open braces before it, to close them after it. -/
theorem enclose {depth : Nat} {opening closing : String} (opens : Leads 0 depth opening)
    (closes : Leads depth 0 closing) (neat : pack.Neat) : (pack.enclose opening closing).Neat :=
  { neat with signature := (opens.append (neat.signature.leads depth)).append closes }

theorem direct {signature : String} (level : Level signature) {values : List Expr}
    (neat : ∀ value ∈ values, value.Neat) : (Pack.direct signature values).Neat :=
  ⟨List.forall_mem_nil _, level, neat, List.forall_mem_nil _⟩

theorem buffered {place : Place} (placed : place.Neat) {buffer : String} (named : Level buffer) {element stored : CType}
    (elements : element.Neat) (kept : stored.Neat) {body : List Stmt} (inner : ∀ stmt ∈ body, stmt.Neat)
    (slot : Slot) (depth : Nat) : (Pack.buffered slot place depth buffer element stored body).Neat where
  before := by simpa [Pack.buffered, Stmt.Neat, Expr.Neat, placed, elements] using ⟨⟨kept, named⟩, inner⟩
  signature := slot.level_text
  values := by simp [Pack.buffered, Expr.Neat, placed, named]
  buffers := List.forall_mem_singleton.mpr named

theorem finish (neat : pack.Neat) (placed : container.Neat) : ∀ stmt ∈ pack.finish container, stmt.Neat := by
  have call : Level "Set" := .literal rfl
  have stable : Level "Stabilize" := .literal rfl
  have cleared : ∀ stmt ∈ (if pack.buffers.isEmpty then [] else
      .perform (.send (.place container) "Stabilize" []) ::
        pack.buffers.map fun buffer => Stmt.deleteArray (.name buffer)), stmt.Neat := by
    split
    · exact List.forall_mem_nil _
    · simpa [Stmt.Neat, Expr.Neat, placed, stable] using neat.buffers
  unfold Pack.finish
  refine List.forall_mem_append.mpr ⟨neat.before, List.forall_mem_cons.mpr ⟨?_, cleared⟩⟩
  simpa [Stmt.Neat, Expr.Neat, placed, call, neat.signature] using neat.values

end Pack.Neat

theorem Buffer.level {place : Place} (placed : place.Neat) {ending : String} (plain : Level ending) :
    Level ("temp" ++ flat place.text ++ ending) :=
  .append₃ (.literal rfl) (level_flat placed.level) plain

mutual
theorem Slot.pack_neat : (slot : Slot) → slot.Neat → (depth : Nat) → {place : Place} → place.Neat →
    (slot.pack depth place).Neat
  | .scalar kind, _, _, _, placed =>
    .direct kind.level_code (List.forall_mem_singleton.mpr (kind.passed_neat placed))
  | .variant, _, _, _, placed => .direct (.literal rfl) (List.forall_mem_singleton.mpr placed)
  | .boxed _, _, _, _, placed => .direct (.literal rfl) (List.forall_mem_singleton.mpr placed)
  | .scalars kind, _, depth, place, placed => by
    have buffer : Level (Buffer.texts place) := Buffer.level placed (.literal rfl)
    have filled : Stmt.Neat (.assign (.place ((Place.root (Buffer.texts place)).element depth))
        (kind.passed (.place (place.element depth)))) := ⟨buffer, kind.passed_neat placed⟩
    unfold Slot.pack
    split
    · exact .buffered placed buffer (CType.neat_mk.mpr TypeName.character_neat)
        (CType.neat_mk.mpr TypeName.character_neat) (List.forall_mem_singleton.mpr filled) _ depth
    · exact .direct (Slot.level_text _) (by simp [Expr.Neat, placed])
  | .struct fields, neat, depth, _, placed =>
    (Fields.pack_neat fields neat depth placed).enclose (.literal rfl : Leads 0 0 "(") (.literal rfl)
  | .structs fields, neat, depth, place, placed => by
    have buffer : Level (Buffer.structs place) := Buffer.level placed (.literal rfl)
    have filled : ((Place.root (Buffer.structs place)).element depth).Neat := buffer
    have element : (place.element depth).Neat := placed
    have inner := (Fields.pack_neat fields neat (depth + 1) element).enclose
      (.literal rfl : Leads 0 0 "(") (.literal rfl : Leads 0 0 ")")
    exact .buffered placed buffer (CType.neat_mk.mpr TypeName.message_neat) (CType.neat_mk.mpr TypeName.message_neat)
      (inner.finish filled) _ depth
  | .dict key value, neat, depth, place, placed => by
    have buffer : Level (Buffer.entries place) := Buffer.level placed (.literal rfl)
    have filled : ((Place.root (Buffer.entries place)).element depth).Neat := buffer
    have keyed : ((place.element depth).field "key").Neat := ⟨placed, .literal rfl⟩
    have held : ((place.element depth).field "value").Neat := ⟨placed, .literal rfl⟩
    have passed : (key.passed (.place ((place.element depth).field "key"))).Neat := key.passed_neat keyed
    have packed := (Pack.Neat.direct key.level_code (List.forall_mem_singleton.mpr passed)).append
      (Slot.pack_neat value neat (depth + 1) held)
    -- Neither brace is level by itself: the entry's signature is read one brace deeper.
    have inner := packed.enclose (.literal rfl : Leads 0 1 "\x7b") (.literal rfl : Leads 1 0 "\x7d")
    exact .buffered placed buffer (CType.neat_mk.mpr TypeName.message_neat) (CType.neat_mk.mpr TypeName.message_neat)
      (inner.finish filled) _ depth

theorem Fields.pack_neat : (fields : Fields) → fields.Neat → (depth : Nat) → {place : Place} → place.Neat →
    (fields.pack depth place).Neat
  | .nil, _, _, _, _ =>
    ⟨List.forall_mem_nil _, (.literal rfl : Level ""), List.forall_mem_nil _, List.forall_mem_nil _⟩
  | .cons name slot rest, ⟨named, inner, others⟩, depth, place, placed => by
    have field : (place.field name).Neat := ⟨placed, named⟩
    exact (Slot.pack_neat slot inner depth field).append (Fields.pack_neat rest others depth placed)
end

theorem Slot.set_neat {slot : Slot} (neat : slot.Neat) {container source : Place} (into : container.Neat)
    (placed : source.Neat) (depth : Nat) : ∀ stmt ∈ slot.set container source depth, stmt.Neat := by
  unfold Slot.set
  split
  · exact List.forall_mem_singleton.mpr ⟨into, placed⟩
  · exact List.forall_mem_singleton.mpr ⟨into, placed⟩
  · exact (Slot.pack_neat slot neat depth placed).finish into

structure Unpack.Neat (unpack : Unpack) : Prop where
  temporaries : ∀ v ∈ unpack.temporaries, v.Neat
  signature : Level unpack.signature
  addresses : ∀ address ∈ unpack.addresses, address.Neat
  copies : ∀ stmt ∈ unpack.copies, stmt.Neat

namespace Unpack.Neat

variable {unpack unpack' : Unpack} {place container : Place}

theorem append (first : unpack.Neat) (second : unpack'.Neat) : (unpack.append unpack').Neat where
  temporaries := List.forall_mem_append.mpr ⟨first.temporaries, second.temporaries⟩
  signature := first.signature.append second.signature
  addresses := List.forall_mem_append.mpr ⟨first.addresses, second.addresses⟩
  copies := List.forall_mem_append.mpr ⟨first.copies, second.copies⟩

theorem enclose {depth : Nat} {opening closing : String} (opens : Leads 0 depth opening)
    (closes : Leads depth 0 closing) (neat : unpack.Neat) : (unpack.enclose opening closing).Neat :=
  { neat with signature := (opens.append (neat.signature.leads depth)).append closes }

theorem through {signature : String} (level : Level signature) {type : CType} (read : type.Neat) (placed : place.Neat)
    {copied : Expr → Expr} (copies : ∀ expr : Expr, expr.Neat → (copied expr).Neat) :
    (Unpack.through signature type place copied).Neat := by
  have temporary : Level ("temp" ++ flat place.text) := .append (.literal rfl) (level_flat placed.level)
  exact ⟨List.forall_mem_singleton.mpr ⟨read, temporary⟩, level, List.forall_mem_singleton.mpr temporary,
    List.forall_mem_singleton.mpr ⟨placed, copies _ temporary⟩⟩

theorem counted (slot : Slot) (placed : place.Neat) {type : TypeName} (typed : type.Neat) (depth : Nat)
    {temporary : Variable} (borrowed : temporary.Neat) {body : List Stmt} (inner : ∀ stmt ∈ body, stmt.Neat) :
    (Unpack.counted slot place type depth temporary body).Neat where
  temporaries := List.forall_mem_singleton.mpr borrowed
  signature := slot.level_text
  addresses := by simp [Unpack.counted, Expr.Neat, placed, borrowed.name]
  copies := by simpa [Unpack.counted, Stmt.Neat, Expr.Neat, placed, CType.Neat, typed] using inner

theorem finish (neat : unpack.Neat) (placed : container.Neat) : ∀ stmt ∈ unpack.finish container, stmt.Neat := by
  have call : Level "Get" := .literal rfl
  unfold Unpack.finish
  refine List.forall_mem_append.mpr
    ⟨List.forall_mem_map.mpr neat.temporaries, List.forall_mem_cons.mpr ⟨?_, neat.copies⟩⟩
  simpa [Stmt.Neat, Expr.Neat, placed, call, neat.signature] using neat.addresses

end Unpack.Neat

theorem Scalar.unpack_neat (kind : Scalar) {place : Place} (placed : place.Neat) : (kind.unpack place).Neat := by
  unfold Scalar.unpack
  split
  · exact .through kind.level_code (CType.neat_mk.mpr TypeName.character_neat) placed fun _ neat => neat
  · exact ⟨List.forall_mem_nil _, kind.level_code, List.forall_mem_singleton.mpr placed, List.forall_mem_nil _⟩

theorem borrowed_neat {name : String} (named : Level name) : Variable.Neat ⟨.constPointer .message, name⟩ :=
  ⟨TypeName.message_neat, named⟩

theorem Code.TypeName.Neat.scope {type : TypeName} (neat : type.Neat) : ∀ part ∈ type.scope, Level part := by
  cases type with
  | composite path => exact neat
  | plain | scalar => exact List.forall_mem_nil _

mutual
theorem Slot.unpack_neat : (slot : Slot) → slot.Neat → (depth : Nat) → {place : Place} → place.Neat →
    {type : TypeName} → type.Neat → (slot.unpack depth place type).Neat
  | .scalar kind, _, _, _, placed, _, _ => kind.unpack_neat placed
  | .variant, _, _, _, placed, _, _ =>
    .through (.literal rfl) (CType.neat_mk.mpr TypeName.message_neat) placed fun _ neat => neat
  | .boxed _, _, _, _, placed, _, _ =>
    .through (.literal rfl) (CType.neat_mk.mpr TypeName.message_neat) placed fun _ neat => neat
  | .scalars kind, _, depth, place, placed, type, typed => by
    have temporary : Level (Buffer.texts place) := Buffer.level placed (.literal rfl)
    have borrowed : ((Place.root (Buffer.texts place)).element depth).Neat := temporary
    have element : (place.element depth).Neat := placed
    have scalars : Variable.Neat ⟨.pointer (.scalar kind), Buffer.texts place⟩ := ⟨trivial, temporary⟩
    unfold Slot.unpack
    dsimp only
    split
    · exact .counted _ placed typed depth (borrowed_neat temporary) ((kind.unpack_neat element).finish borrowed)
    · exact .counted _ placed typed depth scalars (List.forall_mem_singleton.mpr ⟨element, borrowed⟩)
  | .struct fields, neat, depth, _, placed, _, typed =>
    (Fields.unpack_neat fields neat depth placed typed.scope).enclose (.literal rfl : Leads 0 0 "(") (.literal rfl)
  | .structs fields, neat, depth, place, placed, _, typed => by
    have temporary : Level (Buffer.structs place) := Buffer.level placed (.literal rfl)
    have borrowed : ((Place.root (Buffer.structs place)).element depth).Neat := temporary
    have element : (place.element depth).Neat := placed
    have inner := (Fields.unpack_neat fields neat (depth + 1) element typed.scope).enclose
      (.literal rfl : Leads 0 0 "(") (.literal rfl : Leads 0 0 ")")
    exact .counted _ placed typed depth (borrowed_neat temporary) (inner.finish borrowed)
  | .dict key value, neat, depth, place, placed, _, typed => by
    have temporary : Level (Buffer.entries place) := Buffer.level placed (.literal rfl)
    have borrowed : ((Place.root (Buffer.entries place)).element depth).Neat := temporary
    have keyed : ((place.element depth).field "key").Neat := ⟨placed, .literal rfl⟩
    have held : ((place.element depth).field "value").Neat := ⟨placed, .literal rfl⟩
    have element := Slot.elementType_neat typed.scope (.literal rfl : Level "value") value
    have unpacked := (key.unpack_neat keyed).append (Slot.unpack_neat value neat (depth + 1) held element)
    have inner := unpacked.enclose (.literal rfl : Leads 0 1 "\x7b") (.literal rfl : Leads 1 0 "\x7d")
    exact .counted _ placed typed depth (borrowed_neat temporary) (inner.finish borrowed)

theorem Fields.unpack_neat : (fields : Fields) → fields.Neat → (depth : Nat) → {place : Place} → place.Neat →
    {scope : List String} → (∀ part ∈ scope, Level part) → (fields.unpack depth place scope).Neat
  | .nil, _, _, _, _, _, _ =>
    ⟨List.forall_mem_nil _, (.literal rfl : Level ""), List.forall_mem_nil _, List.forall_mem_nil _⟩
  | .cons name slot rest, ⟨named, inner, others⟩, depth, place, placed, _, outside => by
    have field : (place.field name).Neat := ⟨placed, named⟩
    have first := Slot.unpack_neat slot inner depth field (Slot.elementType_neat outside named slot)
    exact first.append (Fields.unpack_neat rest others depth placed outside)
end

theorem Slot.get_neat {slot : Slot} (neat : slot.Neat) {container : Place} (origin : container.Neat) {name : String}
    (named : Level name) (declared : Bool) (depth : Nat) :
    ∀ stmt ∈ slot.get container name declared depth, stmt.Neat := by
  have locals : ∀ stmt ∈ (if declared then (slot.locals name).map Stmt.declare else []), stmt.Neat := by
    split
    · exact List.forall_mem_map.mpr (slot.locals_neat named)
    · exact List.forall_mem_nil _
  unfold Slot.get
  refine List.forall_mem_append.mpr ⟨locals, ?_⟩
  split
  · exact List.forall_mem_singleton.mpr ⟨named, origin⟩
  · exact List.forall_mem_singleton.mpr ⟨named, origin⟩
  · have target : (Place.root name).Neat := named
    have type := Slot.elementType_neat (List.forall_mem_nil _) named slot
    exact (Slot.unpack_neat slot neat depth target type).finish origin

end BusStub
