import BusStub.Proofs.CallSignature
import BusStub.Proofs.Declarations
import BusStub.Proofs.Runs

/-! Generated code goes only through fields that are declared. Every place below a variable that packing and
unpacking read or write is a member of its type, and the declared struct has a field for it, of the type
that keeps it; an array that unpacking allocates has the type that its pointer points to. -/

namespace BusStub
open Code

namespace Code

mutual
/-- The values and counts that an expression reads or writes, by their places. -/
def Expr.uses : Expr → List Leaf
  | .place p => [.value p]
  | .count p => [.count p]
  | .address inner | .content inner | .negation inner | .member inner _ | .arrow inner _ | .newArray _ inner
  | .cast _ inner => inner.uses
  | .binary _ left right => left.uses ++ right.uses
  | .call callee args => callee.uses ++ Expr.usesAll args
  | .newObject _ args => Expr.usesAll args
  | .name _ | .number _ | .quoted _ => []
termination_by structural expr => expr

def Expr.usesAll : List Expr → List Leaf
  | [] => []
  | expr :: rest => expr.uses ++ Expr.usesAll rest
termination_by structural exprs => exprs
end

/-- What a statement reads or writes itself, its body apart. The message argument that `Set`, `Get` or
`Stabilize` is called on is the container, not a value that is moved. -/
def Stmt.uses : Stmt → List Leaf
  | .perform (.call (.member (.place container) function) args) =>
    (if function ∈ ["Set", "Get", "Stabilize"] then [] else [.value container]) ++ Expr.usesAll args
  | .perform value | .define _ value | .delete value | .deleteArray value | .ret value | .branch value _
  | .choose value _ _ => value.uses
  | .construct _ args => Expr.usesAll args
  | .assign target value => target.uses ++ value.uses
  | .loop _ place _ => [.count place]
  | .declare _ | .array _ _ | .comment _ | .blank => []

mutual
def Stmt.within : Stmt → List Stmt
  | .loop depth place body => .loop depth place body :: Stmt.withinAll body
  | .branch condition body => .branch condition body :: Stmt.withinAll body
  | .choose condition body otherwise =>
    .choose condition body otherwise :: (Stmt.withinAll body ++ Stmt.withinAll otherwise)
  | .declare v => [.declare v]
  | .define v value => [.define v value]
  | .array v length => [.array v length]
  | .construct v args => [.construct v args]
  | .assign target value => [.assign target value]
  | .perform action => [.perform action]
  | .delete pointer => [.delete pointer]
  | .deleteArray pointer => [.deleteArray pointer]
  | .ret value => [.ret value]
  | .comment text => [.comment text]
  | .blank => [.blank]
termination_by structural stmt => stmt

def Stmt.withinAll : List Stmt → List Stmt
  | [] => []
  | stmt :: rest => stmt.within ++ Stmt.withinAll rest
termination_by structural stmts => stmts
end

theorem Stmt.withinAll_append (first second : List Stmt) :
    Stmt.withinAll (first ++ second) = Stmt.withinAll first ++ Stmt.withinAll second := by
  induction first with
  | nil => rfl
  | cons stmt rest ih => simp only [List.cons_append, Stmt.withinAll, ih, List.append_assoc]

end Code

def Leaf.place : Leaf → Place
  | .value place | .count place => place

/-- The parcel that a place below the variable `text` stands for, when the variable holds `whole`. -/
inductive Parcel.Reaches (text : String) (whole : Parcel) : Place → Parcel → Prop where
  | root : Reaches text whole (.root text) whole
  | field {place : Place} {fields : Fields} {name : String} {slot : Slot}
      (struct : Reaches text whole place (.whole (.struct fields))) (member : (name, slot) ∈ fields.toList) :
      Reaches text whole (place.field name) (.whole slot)
  | key {place : Place} {key : Scalar} {value : Slot} (entry : Reaches text whole place (.entry key value)) :
      Reaches text whole (place.field "key") (.whole (.scalar key))
  | value {place : Place} {key : Scalar} {value : Slot} (entry : Reaches text whole place (.entry key value)) :
      Reaches text whole (place.field "value") (.whole value)
  | scalar {place : Place} {kind : Scalar} {depth : Nat} (array : Reaches text whole place (.whole (.scalars kind))) :
      Reaches text whole (place.element depth) (.whole (.scalar kind))
  | struct {place : Place} {fields : Fields} {depth : Nat}
      (array : Reaches text whole place (.whole (.structs fields))) :
      Reaches text whole (place.element depth) (.whole (.struct fields))
  | entry {place : Place} {key : Scalar} {value : Slot} {depth : Nat}
      (dict : Reaches text whole place (.whole (.dict key value))) :
      Reaches text whole (place.element depth) (.entry key value)

def Parcel.isCounted : Parcel → Bool
  | .whole slot => slot.isCounted
  | .entry _ _ => false

/-- A variable of the type keeps the parcel: a scalar of its own type, a value that is not looked into as a
message argument, any other value in the struct that is declared for it, behind a pointer if it is counted. -/
def Parcel.KeptBy (declared : List Field) (type : CType) (parcel : Parcel) : Prop :=
  type.constant = false ∧ type.stars = (if parcel.isCounted then 1 else 0) ∧
  match parcel with
  | .whole (.scalar kind) | .whole (.scalars kind) => type.name = .scalar kind
  | .whole .variant | .whole (.boxed _) => type.name = .message
  | .whole (.struct fields) | .whole (.structs fields) =>
    ∃ path, type.name = .composite path ∧ inside? declared path = some fields.declared
  | .whole (.dict key value) | .entry key value =>
    ∃ path, type.name = .composite path ∧ inside? declared path = some (Slot.entryFields key value)

/-- A place below the variable `text`, which has the type `type` and holds `whole`, resolves field by field:
it stands for a parcel and has a type that keeps it, and the number of its elements is a field as well. -/
structure Resolved (declared : List Field) (text : String) (type : CType) (whole : Parcel)
    (place : Place) (parcel : Parcel) (found : CType) : Prop where
  reached : whole.Reaches text place parcel
  typed : place.type? declared text type = some found
  kept : parcel.KeptBy declared found
  counted : parcel.isCounted → ∀ base name, place = .field base name →
    (base.field (countName name)).type? declared text type = some ⟨.size, false, 0⟩

section
variable (declared : List Field) (text : String) (type : CType) (whole : Parcel)

/-- If the place is below the variable, it resolves; only counted values have their elements counted. -/
def Leaf.Fits : Leaf → Prop
  | .value place => place.base = text → ∃ parcel found, Resolved declared text type whole place parcel found
  | .count place => place.base = text →
    ∃ parcel found, parcel.isCounted ∧ Resolved declared text type whole place parcel found

/-- Everything that a statement goes through resolves. An array that it allocates for a pointer below the
variable has the type which the pointer points to, named by the definitions that lead to it. -/
structure Code.Stmt.Fits (stmt : Stmt) : Prop where
  uses : ∀ leaf ∈ stmt.uses, leaf.Fits declared text type whole
  allocated : ∀ place element size, stmt = .assign (.place place) (.newArray element size) → place.base = text →
    ∃ parcel, Resolved declared text type whole place parcel { element with stars := element.stars + 1 }

def Code.Fits (block : List Stmt) : Prop :=
  ∀ stmt ∈ Stmt.withinAll block, stmt.Fits declared text type whole

end

private def isPlain (c : Char) : Bool := c != '[' && c != ']'

private theorem base_le (place : Place) :
    (place.base.toList.filter isPlain).length ≤ (place.text.toList.filter isPlain).length := by
  induction place with
  | root text => exact Nat.le_refl _
  | field place name ih | element place depth ih | item place index ih =>
    simp only [Place.text, Place.base, String.toList_append, List.filter_append, List.length_append]
    omega

/-- A temporary is named after a place and is longer than the place's variable, brackets not counted. -/
theorem temporary_ne (place : Place) (ending : String) : "temp" ++ flat place.text ++ ending ≠ place.base := by
  intro same
  have bound := base_le place
  -- Flattening takes brackets away and keeps the number of all other characters.
  have kept : ((flat place.text).toList.filter isPlain).length = (place.text.toList.filter isPlain).length := by
    have plain : (flat place.text).toList.filter isPlain = (flat place.text).toList := by
      refine List.filter_eq_self.mpr fun c member => ?_
      simp only [flat, String.toList_ofList, List.mem_map, List.mem_filter] at member
      obtain ⟨d, ⟨-, plain⟩, rfl⟩ := member
      split
      · rfl
      · exact plain
    rw [plain]
    simp only [flat, String.toList_ofList, List.length_map]
    rfl
  rw [← same] at bound
  simp only [String.toList_append, List.filter_append, List.length_append, kept] at bound
  have stem : ("temp".toList.filter isPlain).length = 4 := by decide
  omega

def Slot.memberType (scope : List String) (name : String) (slot : Slot) : CType :=
  ⟨slot.elementType scope name, false, if slot.isCounted then 1 else 0⟩

/-- A struct has all the fields that keep a value called `name`, and no others by their names. -/
structure Code.Holds (fields : List Field) (name : String) (slot : Slot) : Prop where
  object : (objects fields).find? (·.name = name) = some ⟨slot.memberType [] name, name⟩
  count : slot.isCounted →
    (objects fields).find? (·.name = countName name) = some ⟨⟨.size, false, 0⟩, countName name⟩
  record : ∀ record parts, slot.definition? name = some (record, parts) →
    (definitions fields).find? (·.1 = record) = some (record, parts)

theorem Code.Holds.of_subset {fields : List Field} {name : String} {slot : Slot} (sub : slot.fields name ⊆ fields)
    (objectNames : ((objects fields).map Variable.name).Nodup)
    (definitionNames : ((definitions fields).map Prod.fst).Nodup) : Holds fields name slot := by
  have object (v : Variable) (member : v ∈ slot.locals name) : v ∈ objects fields := by
    rw [← Slot.objects_fields] at member
    exact List.filterMap_subset _ sub member
  have nested (found : String × List Field) (defined : slot.definition? name = some found) :
      found ∈ definitions fields := by
    refine List.filterMap_subset Field.definition? sub ?_
    have member : found ∈ definitions (slot.fields name) := by simp [Slot.definitions_fields, defined]
    exact member
  refine ⟨?_, ?_, ?_⟩
  · refine List.find?_of_nodup_map Variable.name ⟨slot.memberType [] name, name⟩ objectNames (object _ ?_)
    cases counted : slot.isCounted <;> simp [Slot.locals, Slot.memberType, counted, CType.pointer]
  · intro counted
    refine List.find?_of_nodup_map Variable.name ⟨⟨.size, false, 0⟩, countName name⟩ objectNames (object _ ?_)
    simp [Slot.locals, counted]
  · intro record parts defined
    exact List.find?_of_nodup_map Prod.fst (record, parts) definitionNames (nested _ defined)

variable {declared : List Field} {text : String} {type : CType} {whole : Parcel}

theorem Parcel.Reaches.base {place : Place} {parcel : Parcel} (reached : whole.Reaches text place parcel) :
    place.base = text := by
  induction reached <;> first | rfl | assumption

namespace Resolved

variable {place : Place} {found : CType}

/-- A member of a struct resolves where the struct does, in the struct's own definition. -/
theorem member {path : List String} {fields : List Field} {name : String} {slot : Slot}
    (inside : inside? declared path = some fields)
    (typed : place.type? declared text type = some ⟨.composite path, false, 0⟩) (holds : Holds fields name slot)
    (reached : whole.Reaches text (place.field name) (.whole slot)) :
    Resolved declared text type whole (place.field name) (.whole slot) (slot.memberType path name) := by
  have nested (record : String) (parts : List Field) (defined : slot.definition? name = some (record, parts)) :
      inside? fields [record] = some parts := by
    simp [inside?, holds.record record parts defined]
  have below (record : String) (parts : List Field) (defined : slot.definition? name = some (record, parts)) :
      inside? declared (path ++ [record]) = some parts := by
    rw [inside?_append, inside, Option.bind_some, nested record parts defined]
  refine ⟨reached, ?_, ?_, ?_⟩
  · simp only [Place.type?, typed, Option.bind_some, memberType?, inside, holds.object]
    cases slot with
    | scalar | variant | boxed | scalars => rfl
    | struct inner | structs inner => simp [Slot.memberType, Slot.elementType, nested _ inner.declared rfl]
    | dict key value => simp [Slot.memberType, Slot.elementType, nested _ (Slot.entryFields key value) rfl]
  · refine ⟨rfl, rfl, ?_⟩
    cases slot with
    | scalar | variant | boxed | scalars => rfl
    | struct inner | structs inner => exact ⟨_, rfl, below _ inner.declared rfl⟩
    | dict key value => exact ⟨_, rfl, below _ (Slot.entryFields key value) rfl⟩
  · intro counted base other same
    obtain ⟨rfl, rfl⟩ : place = base ∧ name = other := by simpa using same
    simp only [Place.type?, typed, Option.bind_some, memberType?, inside, holds.count counted]
    rfl

theorem fields {fields : Fields} (resolved : Resolved declared text type whole place (.whole (.struct fields)) found)
    (objectNames : ((objects fields.declared).map Variable.name).Nodup)
    (definitionNames : ((definitions fields.declared).map Prod.fst).Nodup) :
    ∀ field ∈ fields.toList, Resolved declared text type whole (place.field field.1) (.whole field.2)
      (field.2.memberType found.name.scope field.1) := by
  obtain ⟨constant, stars, path, named, inside⟩ := resolved.kept
  have typed : place.type? declared text type = some ⟨.composite path, false, 0⟩ := by
    rw [resolved.typed, ← named, ← constant]
    exact congrArg some (congrArg (CType.mk found.name found.constant) stars)
  intro field inFields
  rw [named]
  exact member inside typed (.of_subset (fields.fields_subset inFields) objectNames definitionNames)
    (.field resolved.reached inFields)

theorem entry {key : Scalar} {value : Slot}
    (resolved : Resolved declared text type whole place (.entry key value) found)
    (objectNames : ((objects (Slot.entryFields key value)).map Variable.name).Nodup)
    (definitionNames : ((definitions (Slot.entryFields key value)).map Prod.fst).Nodup) :
    (Resolved declared text type whole (place.field "key") (.whole (.scalar key)) ⟨.scalar key, false, 0⟩) ∧
    Resolved declared text type whole (place.field "value") (.whole value)
      (value.memberType found.name.scope "value") := by
  obtain ⟨constant, stars, path, named, inside⟩ := resolved.kept
  have typed : place.type? declared text type = some ⟨.composite path, false, 0⟩ := by
    rw [resolved.typed, ← named, ← constant]
    exact congrArg some (congrArg (CType.mk found.name found.constant) stars)
  have first : (Slot.scalar key).fields "key" ⊆ Slot.entryFields key value :=
    List.cons_subset.mpr ⟨List.mem_cons_self .., List.nil_subset _⟩
  have second : value.fields "value" ⊆ Slot.entryFields key value := List.subset_cons_self _ _
  rw [named]
  exact ⟨member inside typed (.of_subset first objectNames definitionNames) (.key resolved.reached),
    member inside typed (.of_subset second objectNames definitionNames) (.value resolved.reached)⟩

theorem element {parcel inner : Parcel} (resolved : Resolved declared text type whole place parcel found) (depth : Nat)
    (counted : parcel.isCounted) (single : inner.isCounted = false)
    (reached : whole.Reaches text (place.element depth) inner)
    (kept : parcel.KeptBy declared found → inner.KeptBy declared { found with stars := 0 }) :
    Resolved declared text type whole (place.element depth) inner { found with stars := 0 } := by
  obtain ⟨-, stars, -⟩ := resolved.kept
  refine ⟨reached, ?_, kept resolved.kept, by simp [single]⟩
  rw [counted, if_pos rfl] at stars
  obtain ⟨name, constant, _⟩ := found
  subst stars
  simp [Place.type?, resolved.typed]

theorem scalar {kind : Scalar} (resolved : Resolved declared text type whole place (.whole (.scalars kind)) found)
    (depth : Nat) : Resolved declared text type whole (place.element depth) (.whole (.scalar kind))
      { found with stars := 0 } :=
  resolved.element depth rfl rfl (.scalar resolved.reached) fun kept => ⟨kept.1, rfl, kept.2.2⟩

theorem struct {fields : Fields} (resolved : Resolved declared text type whole place (.whole (.structs fields)) found)
    (depth : Nat) : Resolved declared text type whole (place.element depth) (.whole (.struct fields))
      { found with stars := 0 } :=
  resolved.element depth rfl rfl (.struct resolved.reached) fun kept => ⟨kept.1, rfl, kept.2.2⟩

theorem dict {key : Scalar} {value : Slot}
    (resolved : Resolved declared text type whole place (.whole (.dict key value)) found) (depth : Nat) :
    Resolved declared text type whole (place.element depth) (.entry key value) { found with stars := 0 } :=
  resolved.element depth rfl rfl (.entry resolved.reached) fun kept => ⟨kept.1, rfl, kept.2.2⟩

theorem fits {parcel : Parcel} (resolved : Resolved declared text type whole place parcel found) :
    (Leaf.value place).Fits declared text type whole :=
  fun _ => ⟨parcel, found, resolved⟩

theorem fits_count {parcel : Parcel} (resolved : Resolved declared text type whole place parcel found)
    (counted : parcel.isCounted) : (Leaf.count place).Fits declared text type whole :=
  fun _ => ⟨parcel, found, counted, resolved⟩

theorem temporary {parcel : Parcel} (resolved : Resolved declared text type whole place parcel found)
    (ending : String) (depth : Nat) :
    (Leaf.value ((Place.root ("temp" ++ flat place.text ++ ending)).element depth)).Fits declared text type whole := by
  intro same
  rw [← resolved.reached.base] at same
  exact absurd same (temporary_ne place ending)

end Resolved

namespace Code.Fits

theorem append {first second : List Stmt} (one : Fits declared text type whole first)
    (other : Fits declared text type whole second) : Fits declared text type whole (first ++ second) := by
  intro stmt member
  rw [Stmt.withinAll_append, List.mem_append] at member
  exact member.elim (one stmt) (other stmt)

theorem cons {stmt : Stmt} {rest : List Stmt} (one : Fits declared text type whole [stmt])
    (other : Fits declared text type whole rest) : Fits declared text type whole (stmt :: rest) :=
  append one other

theorem nil : Fits declared text type whole [] := by
  intro stmt member
  cases member

theorem single {stmt : Stmt} (alone : stmt.within = [stmt])
    (plain : ∀ place element size, stmt ≠ .assign (.place place) (.newArray element size))
    (uses : ∀ leaf ∈ stmt.uses, leaf.Fits declared text type whole) : Fits declared text type whole [stmt] := by
  intro other member
  simp only [Stmt.withinAll, alone, List.append_nil, List.mem_singleton] at member
  subst member
  exact ⟨uses, fun place element size same => absurd same (plain place element size)⟩

theorem loop {depth : Nat} {place : Place} {body : List Stmt} (count : (Leaf.count place).Fits declared text type whole)
    (inner : Fits declared text type whole body) : Fits declared text type whole [.loop depth place body] := by
  intro stmt member
  simp only [Stmt.withinAll, Stmt.within, List.append_nil, List.mem_cons] at member
  rcases member with rfl | member
  · exact ⟨by simpa [Stmt.uses] using count, by simp⟩
  · exact inner stmt member

theorem declare (vs : List Variable) : Fits declared text type whole (vs.map .declare) := by
  induction vs with
  | nil => exact nil
  | cons v rest ih => exact cons (single rfl (by simp) (by simp [Stmt.uses])) ih

end Code.Fits

section
variable (declared text type whole)

private structure Pack.Fits (pack : Pack) : Prop where
  before : Code.Fits declared text type whole pack.before
  values : ∀ leaf ∈ Expr.usesAll pack.values, leaf.Fits declared text type whole

private structure Unpack.Fits (unpack : Unpack) : Prop where
  addresses : ∀ leaf ∈ Expr.usesAll unpack.addresses, leaf.Fits declared text type whole
  copies : Code.Fits declared text type whole unpack.copies

end

theorem Code.Expr.usesAll_append (first second : List Expr) :
    Expr.usesAll (first ++ second) = Expr.usesAll first ++ Expr.usesAll second := by
  induction first with
  | nil => rfl
  | cons expr rest ih => simp only [List.cons_append, Expr.usesAll, ih, List.append_assoc]

namespace Pack.Fits

variable {pack pack' : Pack}

private theorem append (first : Pack.Fits declared text type whole pack)
    (second : Pack.Fits declared text type whole pack') :
    Pack.Fits declared text type whole (pack.append pack') where
  before := first.before.append second.before
  values := by
    intro leaf member
    rw [Pack.append, Expr.usesAll_append, List.mem_append] at member
    exact member.elim (first.values leaf) (second.values leaf)

private theorem enclose (fits : Pack.Fits declared text type whole pack) (opening closing : String) :
    Pack.Fits declared text type whole (pack.enclose opening closing) :=
  ⟨fits.before, fits.values⟩

private theorem direct {signature : String} {values : List Expr}
    (uses : ∀ leaf ∈ Expr.usesAll values, leaf.Fits declared text type whole) :
    Pack.Fits declared text type whole (.direct signature values) :=
  ⟨.nil, uses⟩

private theorem finish (fits : Pack.Fits declared text type whole pack) (container : Place) :
    Code.Fits declared text type whole (pack.finish container) := by
  rw [Pack.finish_eq]
  have call : Code.Fits declared text type whole
      [.perform (.send (.place container) "Set" (.quoted pack.signature :: pack.values))] :=
    .single rfl (by simp) (by simpa [Stmt.uses, Expr.send, Expr.usesAll, Expr.uses] using fits.values)
  have stable : Code.Fits declared text type whole [.perform (.send (.place container) "Stabilize" [])] :=
    .single rfl (by simp) (by simp [Stmt.uses, Expr.send, Expr.usesAll])
  have deleted (buffers : List String) :
      Code.Fits declared text type whole (buffers.map fun buffer => .deleteArray (.name buffer)) := by
    induction buffers with
    | nil => exact .nil
    | cons buffer rest ih => exact .cons (.single rfl (by simp) (by simp [Stmt.uses, Expr.uses])) ih
  refine fits.before.append (.cons call ?_)
  unfold Pack.cleared
  split
  · exact .nil
  · exact .cons stable (deleted _)

private theorem scalar {place : Place} {kind : Scalar} (value : (Leaf.value place).Fits declared text type whole) :
    ∀ leaf ∈ (kind.passed (.place place)).uses, leaf.Fits declared text type whole := by
  unfold Scalar.passed
  split <;> simpa [Expr.send, Expr.uses, Expr.usesAll] using value

private theorem buffered {slot : Slot} {place : Place} {found element stored : CType} {depth : Nat} {buffer : String}
    {body : List Stmt} (resolved : Resolved declared text type whole place (.whole slot) found)
    (counted : slot.isCounted) (inner : Code.Fits declared text type whole body) :
    Pack.Fits declared text type whole (.buffered slot place depth buffer element stored body) where
  before := by
    have count := resolved.fits_count counted
    exact .cons (.single rfl (by simp) (by simpa [Stmt.uses, Expr.uses] using count)) (.loop count inner)
  values := by simpa [Pack.buffered, Expr.usesAll, Expr.uses] using resolved.fits_count counted

end Pack.Fits

mutual
private theorem Slot.pack_fits (depth : Nat) {place : Place} {found : CType} {name : String} : (slot : Slot) →
    Resolved declared text type whole place (.whole slot) found → Field.AllDistinct (slot.fields name) →
    Pack.Fits declared text type whole (slot.pack depth place)
  | .scalar kind, resolved, _ => .direct (by simpa [Expr.usesAll] using Pack.Fits.scalar resolved.fits)
  | .variant, resolved, _ | .boxed _, resolved, _ =>
    .direct (by simpa [Expr.usesAll, Expr.uses] using resolved.fits)
  | .scalars kind, resolved, _ => by
    rw [Slot.pack]
    split
    · refine .buffered resolved rfl (.single rfl (by unfold Scalar.passed; split <;> simp [Expr.send]) ?_)
      intro leaf member
      rcases List.mem_append.mp member with target | source
      · rw [Expr.uses, List.mem_singleton] at target
        subst target
        exact resolved.temporary "Array" depth
      · exact Pack.Fits.scalar (resolved.scalar depth).fits leaf source
    · refine .direct ?_
      intro leaf member
      have either : leaf = .count place ∨ leaf = .value place := by simpa [Expr.usesAll, Expr.uses] using member
      rcases either with rfl | rfl
      · exact resolved.fits_count rfl
      · exact resolved.fits
  | .struct fields, resolved, distinct => by
    obtain ⟨⟨objects, definitions, nested⟩, -⟩ := distinct
    exact (Fields.pack_fits depth fields (resolved.fields objects definitions) nested).enclose "(" ")"
  | .structs fields, resolved, distinct => by
    obtain ⟨⟨objects, definitions, nested⟩, -⟩ := distinct
    have packed := Fields.pack_fits (depth + 1) fields ((resolved.struct depth).fields objects definitions) nested
    exact .buffered resolved rfl ((packed.enclose "(" ")").finish _)
  | .dict key value, resolved, distinct => by
    obtain ⟨⟨objects, definitions, -, nested⟩, -⟩ := distinct
    obtain ⟨first, second⟩ := (resolved.dict depth).entry objects definitions
    have keyed : Pack.Fits declared text type whole
        (.direct key.code.toString [key.passed (.place ((place.element depth).field "key"))]) :=
      .direct (by simpa [Expr.usesAll] using Pack.Fits.scalar first.fits)
    have packed := keyed.append (Slot.pack_fits (depth + 1) value second nested)
    exact .buffered resolved rfl ((packed.enclose "\x7b" "\x7d").finish _)

private theorem Fields.pack_fits (depth : Nat) {place : Place} {scope : List String} : (fields : Fields) →
    (∀ field ∈ fields.toList, Resolved declared text type whole (place.field field.1) (.whole field.2)
      (field.2.memberType scope field.1)) →
    Field.AllDistinct fields.declared → Pack.Fits declared text type whole (fields.pack depth place)
  | .nil, _, _ => ⟨.nil, by simp [Fields.pack, Expr.usesAll]⟩
  | .cons name slot rest, resolved, distinct => by
    obtain ⟨one, other⟩ := Field.allDistinct_append.mp distinct
    have first := Slot.pack_fits depth slot (resolved (name, slot) (List.mem_cons_self ..)) one
    exact first.append (Fields.pack_fits depth rest
      (fun field member => resolved field (List.mem_cons_of_mem _ member)) other)
end

namespace Unpack.Fits

variable {unpack unpack' : Unpack}

private theorem append (first : Unpack.Fits declared text type whole unpack)
    (second : Unpack.Fits declared text type whole unpack') :
    Unpack.Fits declared text type whole (unpack.append unpack') where
  addresses := by
    intro leaf member
    rw [Unpack.append, Expr.usesAll_append, List.mem_append] at member
    exact member.elim (first.addresses leaf) (second.addresses leaf)
  copies := first.copies.append second.copies

private theorem enclose (fits : Unpack.Fits declared text type whole unpack) (opening closing : String) :
    Unpack.Fits declared text type whole (unpack.enclose opening closing) :=
  ⟨fits.addresses, fits.copies⟩

private theorem finish (fits : Unpack.Fits declared text type whole unpack) (container : Place) :
    Code.Fits declared text type whole (unpack.finish container) := by
  have call : Code.Fits declared text type whole
      [.perform (.send (.place container) "Get" (.quoted unpack.signature :: unpack.addresses))] :=
    .single rfl (by simp) (by simpa [Stmt.uses, Expr.send, Expr.usesAll, Expr.uses] using fits.addresses)
  exact (Code.Fits.declare _).append (.cons call fits.copies)

private theorem scalar {place : Place} {kind : Scalar} (value : (Leaf.value place).Fits declared text type whole) :
    Unpack.Fits declared text type whole (kind.unpack place) := by
  unfold Scalar.unpack
  split
  · refine ⟨by simp [through, Expr.usesAll, Expr.uses], .single rfl (by simp) ?_⟩
    simpa [Stmt.uses, Expr.uses] using value
  · exact ⟨by simpa [Expr.usesAll, Expr.uses] using value, .nil⟩

private theorem message {place : Place} {code : String} (value : (Leaf.value place).Fits declared text type whole) :
    Unpack.Fits declared text type whole (.through code (.pointer .message) place .content) where
  addresses := by simp [through, Expr.usesAll, Expr.uses]
  copies := .single rfl (by simp) (by simpa [Stmt.uses, Expr.uses] using value)

private theorem counted {slot : Slot} {place : Place} {found : CType} {depth : Nat} {temporary : Variable}
    {body : List Stmt} (resolved : Resolved declared text type whole place (.whole slot) found)
    (counted : slot.isCounted) (inner : Code.Fits declared text type whole body) :
    Unpack.Fits declared text type whole (.counted slot place found.name depth temporary body) where
  addresses := by simpa [Unpack.counted, Expr.usesAll, Expr.uses] using resolved.fits_count counted
  copies := by
    refine .cons ?_ (.loop (resolved.fits_count counted) inner)
    obtain ⟨constant, stars, -⟩ := resolved.kept
    intro stmt member
    obtain rfl : stmt = .assign (.place place) (.newArray ⟨found.name, false, 0⟩ (.count place)) := by
      simpa [Stmt.withinAll, Stmt.within] using member
    constructor
    · intro leaf member
      rcases (by simpa [Stmt.uses, Expr.uses] using member : leaf = .value place ∨ leaf = .count place) with rfl | rfl
      · exact resolved.fits
      · exact resolved.fits_count counted
    · rintro other element size ⟨⟩ -
      simp only [Parcel.isCounted, counted, if_pos] at stars
      obtain ⟨name, _, _⟩ := found
      subst constant stars
      exact ⟨_, resolved⟩

end Unpack.Fits

mutual
private theorem Slot.unpack_fits (depth : Nat) {place : Place} {found : CType} {name : String} : (slot : Slot) →
    Resolved declared text type whole place (.whole slot) found → Field.AllDistinct (slot.fields name) →
    Unpack.Fits declared text type whole (slot.unpack depth place found.name)
  | .scalar kind, resolved, _ => .scalar resolved.fits
  | .variant, resolved, _ | .boxed _, resolved, _ => .message resolved.fits
  | .scalars kind, resolved, _ => by
    have element := (resolved.scalar depth).fits
    rw [Slot.unpack]
    split
    · exact .counted resolved rfl (Unpack.Fits.scalar element |>.finish _)
    · refine .counted resolved rfl (.single rfl (by simp) ?_)
      intro leaf member
      rcases (by simpa [Stmt.uses, Expr.uses] using member :
        leaf = .value (place.element depth) ∨ leaf = .value ((Place.root (Buffer.texts place)).element depth))
        with rfl | rfl
      · exact element
      · exact resolved.temporary "Array" depth
  | .struct fields, resolved, distinct => by
    obtain ⟨⟨objects, definitions, nested⟩, -⟩ := distinct
    exact (Fields.unpack_fits depth fields (resolved.fields objects definitions) nested).enclose "(" ")"
  | .structs fields, resolved, distinct => by
    obtain ⟨⟨objects, definitions, nested⟩, -⟩ := distinct
    have unpacked := Fields.unpack_fits (depth + 1) fields ((resolved.struct depth).fields objects definitions) nested
    exact .counted resolved rfl ((unpacked.enclose "(" ")").finish _)
  | .dict key value, resolved, distinct => by
    obtain ⟨⟨objects, definitions, -, nested⟩, -⟩ := distinct
    obtain ⟨first, second⟩ := (resolved.dict depth).entry objects definitions
    have keyed : Unpack.Fits declared text type whole (key.unpack ((place.element depth).field "key")) :=
      .scalar first.fits
    have unpacked := keyed.append (Slot.unpack_fits (depth + 1) value second nested)
    exact .counted resolved rfl ((unpacked.enclose "\x7b" "\x7d").finish _)

private theorem Fields.unpack_fits (depth : Nat) {place : Place} {scope : List String} : (fields : Fields) →
    (∀ field ∈ fields.toList, Resolved declared text type whole (place.field field.1) (.whole field.2)
      (field.2.memberType scope field.1)) →
    Field.AllDistinct fields.declared → Unpack.Fits declared text type whole (fields.unpack depth place scope)
  | .nil, _, _ => ⟨by simp [Fields.unpack, Expr.usesAll], .nil⟩
  | .cons name slot rest, resolved, distinct => by
    obtain ⟨one, other⟩ := Field.allDistinct_append.mp distinct
    have first := Slot.unpack_fits depth slot (resolved (name, slot) (List.mem_cons_self ..)) one
    exact first.append (Fields.unpack_fits depth rest
      (fun field member => resolved field (List.mem_cons_of_mem _ member)) other)
end

def Slot.recordType (record : String) (slot : Slot) : CType :=
  ⟨.composite [record], false, if slot.isCounted then 1 else 0⟩

/-- All code that moves a value fits the declaration of its struct under the name `record`: packing from a
variable, copying to a variable, and the copy that names the struct after its variable. -/
structure Slot.Served (declared : List Field) (record : String) (slot : Slot) : Prop where
  set : ∀ container text depth,
    Code.Fits declared text (slot.recordType record) (.whole slot) (slot.set container (.root text) depth)
  copy : ∀ container text depth,
    Code.Fits declared text (slot.recordType record) (.whole slot)
      ((Parcel.whole slot).get container (.root text) (.composite [record]) depth)
  get : ∀ container text locals depth, slot.recordName? text = some record →
    Code.Fits declared text (slot.recordType record) (.whole slot) (slot.get container text locals depth)

private theorem Slot.resolved_root (slot : Slot) {fields : List Field} (parts : slot.parts? = some fields)
    (record text : String) :
    Resolved [.definition record fields none] text (slot.recordType record) (.whole slot) (.root text) (.whole slot)
      (slot.recordType record) := by
  have inside : inside? [.definition record fields none] [record] = some fields := by
    simp [inside?, definitions, Field.definition?]
  refine ⟨.root, by simp [Place.type?], ⟨rfl, rfl, ?_⟩, by simp⟩
  cases slot <;> simp only [parts?, Option.some.injEq, reduceCtorEq] at parts <;> subst parts <;>
    exact ⟨_, rfl, inside⟩

theorem Slot.served (kept : BusType) {fields : List Field} (parts : (Slot.of kept).parts? = some fields)
    (record : String) : (Slot.of kept).Served [.definition record fields none] record := by
  have resolved := (Slot.of kept).resolved_root parts record
  have distinct := Slot.fields_distinct "" kept
  have called : (Slot.of kept).isAssigned = false := by
    cases shape : Slot.of kept <;> simp [shape, parts?, isAssigned] at parts ⊢
  have copied (container : Place) (text : String) (depth : Nat) :=
    (Slot.unpack_fits depth _ (resolved text) distinct).finish container
  refine ⟨?_, copied, ?_⟩
  · intro container text depth
    rw [Slot.set_eq called]
    exact (Slot.pack_fits depth _ (resolved text) distinct).finish container
  · intro container text locals depth named
    have type : (Slot.of kept).elementType [] text = .composite [record] := by
      cases shape : Slot.of kept <;> simp [shape, recordName?, elementType] at named ⊢ <;> exact named
    rw [Slot.get_eq called, type]
    refine .append ?_ (copied container text depth)
    cases locals with
    | false => exact .nil
    | true => exact .declare _

/-- The struct declared for a struct or dictionary type has no two fields of one name, at any level, and fits
all code that moves values of the type or, for a struct, arrays of it. -/
theorem declaration_fits (type : BusType) (fields : List Field) (record : String)
    (declares : (Slot.of type).record? = some fields) :
    (Field.definition record fields none).Distinct ∧
    (Slot.of type).Served [.definition record fields none] record ∧
    ∀ members, type = .struct members → (Slot.of (.array type)).Served [.definition record fields none] record := by
  have distinct := Slot.fields_distinct record type
  have parts : (Slot.of type).parts? = some fields := by
    cases shape : Slot.of type <;> simp [shape, Slot.record?, Slot.parts?] at declares ⊢ <;> exact declares
  refine ⟨?_, Slot.served type parts record, ?_⟩
  · cases shape : Slot.of type <;> simp only [shape, Slot.record?, Option.some.injEq, reduceCtorEq] at declares <;>
      subst declares <;> rw [shape] at distinct <;> exact distinct.1
  · rintro members rfl
    exact Slot.served (.array (.struct members)) (by simpa [Slot.of, Slot.parts?, Slot.record?] using declares) record

/-- A struct with an array of structs and a dictionary of variant arrays. -/
theorem declaration_fits_nested :
    let type := BusType.struct
      [.array (.struct [.basic .string, .array (.basic .int32)]), .dict .string (.array .variant)]
    ∃ fields, (Slot.of type).record? = some fields ∧ (Field.definition "pointStruct" fields none).Distinct ∧
      (Slot.of type).Served [.definition "pointStruct" fields none] "pointStruct" ∧
      (Slot.of (.array type)).Served [.definition "pointStruct" fields none] "pointStruct" := by
  intro type
  have fits := declaration_fits type _ "pointStruct" rfl
  exact ⟨_, rfl, fits.1, fits.2.1, fits.2.2 _ rfl⟩

end BusStub
