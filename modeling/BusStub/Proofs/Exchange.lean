import Mathlib.Data.List.Forall2
import BusStub.Proofs.CallSignature

/-! Packing and unpacking agree on the layout of every value. The call that packs a parcel and the call
that unpacks it have one signature, consume as many arguments as it says, and go through the same leaves
in the same order; the loops over elements agree in the same way, however deep they are. -/

namespace BusStub
open Code Signature

/-- A call of the function on a message argument: the argument and what is passed. -/
def Code.Stmt.call? (function : String) : Stmt → Option (Place × List Expr)
  | .perform (.call (.member (.place container) name) args) => if name = function then some (container, args) else none
  | _ => none

def Code.calls (function : String) (block : List Stmt) : List (Place × List Expr) :=
  block.filterMap (Stmt.call? function)

theorem Code.calls_declare (function : String) (vs : List Variable) : calls function (vs.map .declare) = [] := by
  simp [calls, Stmt.call?, List.filterMap_map, Function.comp_def]

/-- The place that a statement puts a value into. -/
def Code.Stmt.filled? : Stmt → Option Place
  | .assign (.place target) _ => some target
  | .perform (.call (.member (.place container) name) _) => if name = "Set" then some container else none
  | _ => none

def Code.Stmt.drained? : Stmt → Option Place
  | .assign _ (.place source) => some source
  | .perform (.call (.member (.place container) name) _) => if name = "Get" then some container else none
  | _ => none

/-- How an argument of `Set` stands for a leaf: by the value itself, by its text, by its address, or by a
buffer of as many elements that the block fills in a loop over the value. -/
inductive Sends (block : List Stmt) : Leaf → Expr → Prop where
  | count {p : Place} : Sends block (.count p) (.count p)
  | itself {p : Place} : Sends block (.value p) (.place p)
  | text {p : Place} : Sends block (.value p) (.send (.place p) "c_str" [])
  | address {p : Place} : Sends block (.value p) (.address (.place p))
  | buffer {p : Place} {v : Variable} {element : CType} {depth : Nat} {body : List Stmt}
      (allocated : .define v (.newArray element (.count p)) ∈ block) (looped : .loop depth p body ∈ block)
      (filled : body.filterMap Stmt.filled? = [(Place.root v.name).element depth]) :
      Sends block (.value p) (.name v.name)

/-- How an argument of `Get` stands for a leaf: by its own address, or by the address of a temporary that
the block copies afterwards, element by element if it has many. -/
inductive Receives (block : List Stmt) : Leaf → Expr → Prop where
  | count {p : Place} : Receives block (.count p) (.address (.count p))
  | itself {p : Place} : Receives block (.value p) (.address (.place p))
  | copied {p : Place} {v : Variable} (declared : .declare v ∈ block)
      (copied : .assign (.place p) (.name v.name) ∈ block) : Receives block (.value p) (.address (.name v.name))
  | content {p : Place} {v : Variable} (declared : .declare v ∈ block)
      (copied : .assign (.place p) (.content (.name v.name)) ∈ block) :
      Receives block (.value p) (.address (.name v.name))
  | elements {p : Place} {v : Variable} {element : CType} {depth : Nat} {body : List Stmt}
      (declared : .declare v ∈ block) (allocated : .assign (.place p) (.newArray element (.count p)) ∈ block)
      (looped : .loop depth p body ∈ block)
      (drained : body.filterMap Stmt.drained? = [(Place.root v.name).element depth]) :
      Receives block (.value p) (.address (.name v.name))

/-- Two blocks that move the parcel at a place, one into a message argument and one out of it, with one
call each: the signatures are the same, the arguments are as many as it consumes, and each two of them at
one position stand for the same leaf. -/
def Parcel.Exchanged (parcel : Parcel) (place target source : Place) (set get : List Stmt) : Prop :=
  ∃ values addresses,
    calls "Set" set = [(target, .quoted parcel.signature :: values)] ∧
    calls "Get" get = [(source, .quoted parcel.signature :: addresses)] ∧
    values.length = arity parcel.signature ∧ addresses.length = arity parcel.signature ∧
    List.Forall₂ (Sends set) (parcel.leaves place) values ∧
    List.Forall₂ (Receives get) (parcel.leaves place) addresses

def Parcel.Looped (parcel : Parcel) (depth : Nat) (place : Place) (set get : List Stmt)
    (nested : List Stmt → List Stmt → Prop) : Prop :=
  let container := (Place.root (parcel.buffer place)).element depth
  ∃ fill drain, .loop depth place fill ∈ set ∧ .loop depth place drain ∈ get ∧
    parcel.Exchanged (place.element depth) container container fill drain ∧ nested fill drain

mutual
def Slot.Nested (depth : Nat) (place : Place) (set get : List Stmt) : Slot → Prop
  | .struct fields => fields.Nested depth place set get
  | .structs fields => (Parcel.whole (.struct fields)).Looped depth place set get fun fill drain =>
      fields.Nested (depth + 1) (place.element depth) fill drain
  | .dict key value => (Parcel.entry key value).Looped depth place set get fun fill drain =>
      value.Nested (depth + 1) ((place.element depth).field "value") fill drain
  | .scalar _ | .variant | .boxed _ | .scalars _ => True
termination_by structural slot => slot

def Fields.Nested (depth : Nat) (place : Place) (set get : List Stmt) : Fields → Prop
  | .nil => True
  | .cons name slot rest => slot.Nested depth (place.field name) set get ∧ rest.Nested depth place set get
termination_by structural fields => fields
end

def Parcel.Nested (depth : Nat) (place : Place) (set get : List Stmt) : Parcel → Prop
  | .whole slot => slot.Nested depth place set get
  | .entry _ value => value.Nested depth (place.field "value") set get

/-- Two blocks move the same values in the same layout, in their own calls and in those of their loops. -/
def Parcel.Agrees (parcel : Parcel) (depth : Nat) (place target source : Place) (set get : List Stmt) : Prop :=
  parcel.Exchanged place target source set get ∧ parcel.Nested depth place set get

private def Unpack.around (unpack : Unpack) : List Stmt :=
  unpack.temporaries.map .declare ++ unpack.copies

/-- What the two halves of one call, made for the same value, have to do with each other. Nothing before
`Set` fills a message argument and nothing after `Get` takes one, apart from what loops do. -/
private structure Paired (pack : Pack) (unpack : Unpack) (wire : List Char) (leaves : List Leaf) : Prop where
  packed : pack.signature.toList = wire
  unpacked : unpack.signature.toList = wire
  sends : List.Forall₂ (Sends pack.before) leaves pack.values
  receives : List.Forall₂ (Receives unpack.around) leaves unpack.addresses
  unset : calls "Set" pack.before = []
  unfilled : pack.before.filterMap Stmt.filled? = []
  ungot : calls "Get" unpack.copies = []
  undrained : unpack.copies.filterMap Stmt.drained? = []

private theorem Sends.mono {block larger : List Stmt} (sub : block ⊆ larger) (leaf : Leaf) (value : Expr)
    (sends : Sends block leaf value) : Sends larger leaf value := by
  cases sends with
  | count => exact .count
  | itself => exact .itself
  | text => exact .text
  | address => exact .address
  | buffer allocated looped filled => exact .buffer (sub allocated) (sub looped) filled

private theorem Receives.mono {block larger : List Stmt} (sub : block ⊆ larger) (leaf : Leaf) (address : Expr)
    (receives : Receives block leaf address) : Receives larger leaf address := by
  cases receives with
  | count => exact .count
  | itself => exact .itself
  | copied declared copied => exact .copied (sub declared) (sub copied)
  | content declared copied => exact .content (sub declared) (sub copied)
  | elements declared allocated looped drained =>
    exact .elements (sub declared) (sub allocated) (sub looped) drained

private theorem around_subset_append_left (first second : Unpack) : first.around ⊆ (first.append second).around := by
  simp only [Unpack.around, Unpack.append, List.map_append]
  exact List.append_subset.mpr ⟨by simp, List.subset_append_of_subset_right _ (by simp)⟩

private theorem around_subset_append_right (first second : Unpack) : second.around ⊆ (first.append second).around := by
  simp only [Unpack.around, Unpack.append, List.map_append]
  exact List.append_subset.mpr ⟨by simp, List.subset_append_of_subset_right _ (by simp)⟩

namespace Paired

variable {pack pack' : Pack} {unpack unpack' : Unpack} {wire wire' : List Char} {leaves leaves' : List Leaf}

private theorem nil : Paired {} {} [] [] :=
  ⟨rfl, rfl, .nil, .nil, rfl, rfl, rfl, rfl⟩

private theorem append (first : Paired pack unpack wire leaves) (second : Paired pack' unpack' wire' leaves') :
    Paired (pack.append pack') (unpack.append unpack') (wire ++ wire') (leaves ++ leaves') where
  packed := by simp [Pack.append, first.packed, second.packed]
  unpacked := by simp [Unpack.append, first.unpacked, second.unpacked]
  sends := by
    have left := first.sends.imp (Sends.mono (List.subset_append_left _ pack'.before))
    have right := second.sends.imp (Sends.mono (List.subset_append_right pack.before _))
    exact List.rel_append left right
  receives := by
    have left := first.receives.imp (Receives.mono (around_subset_append_left unpack unpack'))
    have right := second.receives.imp (Receives.mono (around_subset_append_right unpack unpack'))
    exact List.rel_append left right
  unset := by
    have left := first.unset
    have right := second.unset
    simp only [calls, Pack.append, List.filterMap_append] at *
    rw [left, right, List.append_nil]
  unfilled := by simp only [Pack.append, List.filterMap_append, first.unfilled, second.unfilled, List.append_nil]
  ungot := by
    have left := first.ungot
    have right := second.ungot
    simp only [calls, Unpack.append, List.filterMap_append] at *
    rw [left, right, List.append_nil]
  undrained := by
    simp only [Unpack.append, List.filterMap_append, first.undrained, second.undrained, List.append_nil]

private theorem enclose (paired : Paired pack unpack wire leaves) (opening closing : String) :
    Paired (pack.enclose opening closing) (unpack.enclose opening closing)
      (opening.toList ++ wire ++ closing.toList) leaves :=
  { paired with
    packed := by simp [Pack.enclose, paired.packed]
    unpacked := by simp [Unpack.enclose, paired.unpacked] }

private theorem filled (paired : Paired pack unpack wire leaves) (target : Place) :
    (pack.finish target).filterMap Stmt.filled? = [target] := by
  have cleared : (pack.cleared target).filterMap Stmt.filled? = [] := by
    unfold Pack.cleared
    split
    · rfl
    · simp [Stmt.filled?, Expr.send, List.filterMap_map, Function.comp_def]
  simp only [Pack.finish_eq, List.filterMap_append, List.filterMap_cons, paired.unfilled, cleared]
  rfl

private theorem drained (paired : Paired pack unpack wire leaves) (source : Place) :
    (unpack.finish source).filterMap Stmt.drained? = [source] := by
  have declared : (unpack.temporaries.map Stmt.declare).filterMap Stmt.drained? = [] := by
    simp [Stmt.drained?, List.filterMap_map, Function.comp_def]
  simp only [Unpack.finish, List.filterMap_append, List.filterMap_cons, declared, paired.undrained]
  rfl

private theorem scalar (kind : Scalar) (place : Place) :
    Paired (.direct kind.code.toString [kind.passed (.place place)]) (kind.unpack place)
      [kind.code] [.value place] := by
  cases text : kind.isText with
  | false =>
    simp only [Scalar.passed, Scalar.unpack, text]
    exact ⟨by simp [Pack.direct], by simp, .cons .itself .nil, .cons .itself .nil, rfl, rfl, rfl, rfl⟩
  | true =>
    simp only [Scalar.passed, Scalar.unpack, text]
    refine ⟨by simp [Pack.direct], by simp [Unpack.through], .cons .text .nil, .cons ?_ .nil, rfl, rfl, rfl, rfl⟩
    exact .copied (v := ⟨.pointer .character, "temp" ++ flat place.text⟩) (by simp [Unpack.around, Unpack.through])
      (by simp [Unpack.around, Unpack.through])

private theorem message (code : String) (place : Place) :
    Paired (.direct code [.address (.place place)]) (.through code (.pointer .message) place .content)
      code.toList [.value place] := by
  refine ⟨rfl, rfl, .cons .address .nil, .cons ?_ .nil, rfl, rfl, rfl, rfl⟩
  exact .content (v := ⟨.pointer .message, "temp" ++ flat place.text⟩) (by simp [Unpack.around, Unpack.through])
    (by simp [Unpack.around, Unpack.through])

/-- A counted value is read through a borrowed array, whether it was sent as it is or through a buffer. -/
private theorem borrowed {slot : Slot} {place : Place} {depth : Nat} {type : TypeName} {temporary : Variable}
    {body : List Stmt} (drained : body.filterMap Stmt.drained? = [(Place.root temporary.name).element depth]) :
    let unpack := Unpack.counted slot place type depth temporary body
    List.Forall₂ (Receives unpack.around) [.count place, .value place] unpack.addresses := by
  refine .cons .count (.cons ?_ .nil)
  exact .elements (v := temporary) (by simp [Unpack.around, Unpack.counted])
    (by simp [Unpack.around, Unpack.counted]; rfl) (by simp [Unpack.around, Unpack.counted]) drained

private theorem counted {slot : Slot} {place : Place} {depth : Nat} {type : TypeName} {buffer : String}
    {element stored borrowed : CType} {fill drain : List Stmt}
    (filled : fill.filterMap Stmt.filled? = [(Place.root buffer).element depth])
    (drained : drain.filterMap Stmt.drained? = [(Place.root buffer).element depth]) :
    Paired (.buffered slot place depth buffer element stored fill)
      (.counted slot place type depth ⟨borrowed, buffer⟩ drain) slot.type.chars [.count place, .value place] where
  packed := by simp [Pack.buffered, Slot.text, BusType.text]
  unpacked := by simp [Unpack.counted, Slot.text, BusType.text]
  sends := by
    refine .cons .count (.cons ?_ .nil)
    exact .buffer (v := ⟨stored, buffer⟩) (by simp [Pack.buffered]; rfl) (by simp [Pack.buffered]) filled
  receives := Paired.borrowed drained
  unset := rfl
  unfilled := rfl
  ungot := rfl
  undrained := rfl

end Paired

mutual
private theorem Slot.paired (depth : Nat) (place : Place) (type : TypeName) : (slot : Slot) →
    Paired (slot.pack depth place) (slot.unpack depth place type) slot.wire (slot.leaves place)
  | .scalar kind => .scalar kind place
  | .variant => .message "v" place
  | .boxed _ => .message "*" place
  | .scalars kind => by
    cases text : kind.isText with
    | false =>
      simp only [Slot.pack, Slot.unpack, text]
      exact ⟨by simp [Pack.direct, Slot.text, BusType.text, Slot.wire],
        by simp [Unpack.counted, Slot.text, BusType.text, Slot.wire], .cons .count (.cons .itself .nil),
        Paired.borrowed rfl, rfl, rfl, rfl, rfl⟩
    | true =>
      simp only [Slot.pack, Slot.unpack, text]
      exact .counted rfl ((Paired.scalar kind _).drained _)
  | .struct fields => (Fields.paired depth place type.scope fields).enclose "(" ")"
  | .structs fields => by
    -- The loops fill and read just the element that the calls inside them are made on.
    have inner := (Fields.paired (depth + 1) (place.element depth) type.scope fields).enclose "(" ")"
    exact .counted (inner.filled _) (inner.drained _)
  | .dict key value => by
    let entry := place.element depth
    have first := Paired.scalar key (entry.field "key")
    have second := Slot.paired (depth + 1) (entry.field "value") (value.elementType type.scope "value") value
    have inner := (first.append second).enclose "\x7b" "\x7d"
    exact .counted (inner.filled _) (inner.drained _)

private theorem Fields.paired (depth : Nat) (place : Place) (scope : List String) : (fields : Fields) →
    Paired (fields.pack depth place) (fields.unpack depth place scope) fields.wire (fields.leaves place)
  | .nil => .nil
  | .cons name slot rest => by
    have first := Slot.paired depth (place.field name) (slot.elementType scope name) slot
    exact first.append (Fields.paired depth place scope rest)
end

namespace Parcel

private theorem paired (depth : Nat) (place : Place) (type : TypeName) (parcel : Parcel) :
    Paired (parcel.pack depth place) (parcel.unpack depth place type) parcel.wire (parcel.leaves place) := by
  cases parcel with
  | whole slot => exact slot.paired depth place type
  | entry key value =>
    have first := Paired.scalar key (place.field "key")
    have second := value.paired depth (place.field "value") (value.elementType type.scope "value")
    exact (first.append second).enclose "\x7b" "\x7d"

theorem exchanged (parcel : Parcel) (target source place : Place) (type : TypeName) (depth : Nat) :
    parcel.Exchanged place target source (parcel.set target place depth) (parcel.get source place type depth) := by
  have paired := parcel.paired depth place type
  have packed : (parcel.pack depth place).signature = parcel.signature := by
    rw [signature, ← paired.packed, String.ofList_toList]
  have unpacked : (parcel.unpack depth place type).signature = parcel.signature := by
    rw [signature, ← paired.unpacked, String.ofList_toList]
  refine ⟨(parcel.pack depth place).values, (parcel.unpack depth place type).addresses, ?_, ?_, ?_, ?_, ?_, ?_⟩
  · have cleared : calls "Set" ((parcel.pack depth place).cleared target) = [] := by
      unfold Pack.cleared
      split
      · rfl
      · simp [calls, Stmt.call?, Expr.send, List.filterMap_map, Function.comp_def]
    have before := paired.unset
    simp only [calls, set, Pack.finish_eq, List.filterMap_append, List.filterMap_cons] at *
    rw [before, cleared, packed]
    rfl
  · have declared := calls_declare "Get" (parcel.unpack depth place type).temporaries
    have after := paired.ungot
    simp only [calls, get, Unpack.finish, List.filterMap_append, List.filterMap_cons] at *
    rw [declared, after, unpacked]
    rfl
  · rw [arity_signature parcel place, paired.sends.length_eq]
  · rw [arity_signature parcel place, paired.receives.length_eq]
  · exact paired.sends.imp (Sends.mono (List.subset_append_left _ _))
  · exact paired.receives.imp (Receives.mono (by simp [get, Unpack.around, Unpack.finish]))

end Parcel

private theorem Parcel.value_before (key : Scalar) (value : Slot) (target place : Place) (depth : Nat) :
    (value.pack depth (place.field "value")).before ⊆ (Parcel.entry key value).set target place depth := by
  intro stmt member
  simp [set, pack, Pack.finish, Pack.enclose, Pack.append, Pack.direct, member]

private theorem Parcel.value_copies (key : Scalar) (value : Slot) (source place : Place) (type : TypeName)
    (depth : Nat) :
    (value.unpack depth (place.field "value") (value.elementType type.scope "value")).copies ⊆
      (Parcel.entry key value).get source place type depth := by
  intro stmt member
  simp [get, unpack, Unpack.finish, Unpack.enclose, Unpack.append, member]

mutual
private theorem Slot.nested (depth : Nat) (place : Place) (type : TypeName) {set get : List Stmt} : (slot : Slot) →
    (slot.pack depth place).before ⊆ set → (slot.unpack depth place type).copies ⊆ get →
    slot.Nested depth place set get
  | .scalar _, _, _ | .variant, _, _ | .boxed _, _, _ | .scalars _, _, _ => trivial
  | .struct fields, before, after => fields.nested depth place type.scope before after
  | .structs fields, before, after => by
    let parcel := Parcel.whole (.struct fields)
    let container := (Place.root (parcel.buffer place)).element depth
    have exchanged := parcel.exchanged container container (place.element depth) type (depth + 1)
    refine ⟨_, _, before ?_, after ?_, exchanged, ?_⟩
    · simp [Slot.pack_structs, Pack.buffered, container, parcel]
    · simp [Slot.unpack_structs, Unpack.counted, container, parcel]
    · exact fields.nested (depth + 1) (place.element depth) type.scope (List.subset_append_left _ _)
        (List.subset_append_of_subset_right _ (List.subset_cons_self _ _))
  | .dict key value, before, after => by
    let parcel := Parcel.entry key value
    let container := (Place.root (parcel.buffer place)).element depth
    let entry := place.element depth
    have exchanged := parcel.exchanged container container entry type (depth + 1)
    refine ⟨_, _, before ?_, after ?_, exchanged, ?_⟩
    · simp [Slot.pack_dict, Pack.buffered, container, parcel, entry]
    · simp [Slot.unpack_dict, Unpack.counted, container, parcel, entry]
    · exact value.nested (depth + 1) (entry.field "value") (value.elementType type.scope "value")
        (Parcel.value_before key value container entry (depth + 1))
        (Parcel.value_copies key value container entry type (depth + 1))

private theorem Fields.nested (depth : Nat) (place : Place) (scope : List String) {set get : List Stmt} :
    (fields : Fields) → (fields.pack depth place).before ⊆ set →
    (fields.unpack depth place scope).copies ⊆ get →
    fields.Nested depth place set get
  | .nil, _, _ => trivial
  | .cons name slot rest, before, after => by
    simp only [Fields.pack, Fields.unpack, Pack.append, Unpack.append, List.append_subset] at before after
    exact ⟨slot.nested depth (place.field name) (slot.elementType scope name) before.1 after.1,
      rest.nested depth place scope before.2 after.2⟩
end

theorem Parcel.nested (parcel : Parcel) (target source place : Place) (type : TypeName) (depth : Nat) :
    parcel.Nested depth place (parcel.set target place depth) (parcel.get source place type depth) := by
  cases parcel with
  | whole slot =>
    exact slot.nested depth place type (List.subset_append_left _ _)
      (List.subset_append_of_subset_right _ (List.subset_cons_self _ _))
  | entry key value =>
    exact value.nested depth (place.field "value") (value.elementType type.scope "value")
      (Parcel.value_before key value target place depth) (Parcel.value_copies key value source place type depth)

theorem Parcel.agrees (parcel : Parcel) (target source place : Place) (type : TypeName) (depth : Nat) :
    parcel.Agrees depth place target source (parcel.set target place depth) (parcel.get source place type depth) :=
  ⟨parcel.exchanged target source place type depth, parcel.nested target source place type depth⟩

private theorem Parcel.Exchanged.declared {parcel : Parcel} {place target source : Place} {set get : List Stmt}
    (exchanged : parcel.Exchanged place target source set get) (locals : List Variable) :
    parcel.Exchanged place target source set (locals.map .declare ++ get) := by
  obtain ⟨values, addresses, puts, takes, rest⟩ := exchanged
  have silent := calls_declare "Get" locals
  refine ⟨values, addresses, puts, ?_, rest.1, rest.2.1, rest.2.2.1, ?_⟩
  · simp only [calls, List.filterMap_append] at *
    rw [silent, takes, List.nil_append]
  · exact rest.2.2.2.imp (Receives.mono (List.subset_append_right _ _))

private theorem Slot.agrees (slot : Slot) (called : slot.isAssigned = false) (target source : Place) (name : String)
    (declared : Bool) (depth : Nat) :
    (Parcel.whole slot).Agrees depth (.root name) target source (slot.set target (.root name) depth)
      (slot.get source name declared depth) := by
  have exchanged := (Parcel.whole slot).exchanged target source (.root name) (slot.elementType [] name) depth
  have before : (slot.pack depth (.root name)).before ⊆ slot.set target (.root name) depth := by
    rw [Slot.set_eq called]
    exact List.subset_append_left _ _
  have after : (slot.unpack depth (.root name) (slot.elementType [] name)).copies ⊆
      slot.get source name declared depth := by
    rw [Slot.get_eq called]
    exact List.subset_append_of_subset_right _
      (List.subset_append_of_subset_right _ (List.subset_cons_self _ _))
  refine ⟨?_, slot.nested depth (.root name) (slot.elementType [] name) before after⟩
  rw [Slot.set_eq called, Slot.get_eq called]
  cases declared with
  | false => exact exchanged
  | true => exact exchanged.declared (slot.locals name)

/-- Packing and unpacking agree for every struct, every dictionary entry, and every value that generated
functions hand on, which is either assigned whole in both directions or moved by calls that agree. Every
signature is that of the type with its opaque members as `*`. -/
theorem set_get_agree (target source place : Place) (type : TypeName) (depth : Nat) :
    (∀ members : List BusType,
      let parcel := Parcel.whole (Slot.of (.struct members))
      parcel.signature = String.ofList (BusType.struct members).wire ∧
      parcel.Agrees depth place target source (parcel.set target place depth) (parcel.get source place type depth)) ∧
    (∀ (key : Scalar) (value : BusType),
      let parcel := Parcel.entry key (Slot.of value)
      parcel.signature = String.ofList ('{' :: key.code :: value.wire ++ ['}']) ∧
      parcel.Agrees depth place target source (parcel.set target place depth) (parcel.get source place type depth)) ∧
    ∀ (kept : BusType) (name : String) (declared : Bool),
      let slot := Slot.of kept
      let set := slot.set target (.root name) depth
      let get := slot.get source name declared depth
      (Parcel.whole slot).signature = String.ofList kept.wire ∧
      if slot.isAssigned then
        set = [.assign (.place target) (.place (.root name))] ∧
        ∃ locals : List Variable, get = locals.map .declare ++ [.assign (.place (.root name)) (.place source)]
      else (Parcel.whole slot).Agrees depth (.root name) target source set get := by
  refine ⟨?_, ?_, ?_⟩
  · intro members parcel
    refine ⟨?_, parcel.agrees target source place type depth⟩
    rw [← Slot.wire_of]
    rfl
  · intro key value parcel
    refine ⟨?_, parcel.agrees target source place type depth⟩
    rw [← Slot.wire_of]
    rfl
  · intro kept name declared slot set get
    refine ⟨by rw [← Slot.wire_of]; rfl, ?_⟩
    split
    next whole =>
      cases shape : slot with
      | variant | boxed =>
        refine ⟨by simp [set, shape, Slot.set], ?_⟩
        refine ⟨if declared then slot.locals name else [], ?_⟩
        cases declared <;> simp [get, shape, Slot.get]
      | scalar | scalars | struct | structs | dict => simp [shape, Slot.isAssigned] at whole
    next called => exact slot.agrees (by simpa using called) target source name declared depth

end BusStub
