import BusStub.Proofs.Handover
import BusStub.Proofs.LoopCounters

/-! The lives of the buffers that packing makes. In every block a buffer is allocated, filled by a loop over as many
elements, handed to the one call of the block, and deleted once the container no longer needs it; nothing else is
allocated or deleted. -/

namespace BusStub
open Code

namespace Code

mutual
/-- The expression makes something new. -/
def Expr.allocates : Expr → Bool
  | .newArray _ _ | .newObject _ _ => true
  | .address inner | .content inner | .negation inner | .member inner _ | .arrow inner _ | .cast _ inner =>
    inner.allocates
  | .binary _ left right => left.allocates || right.allocates
  | .call callee args => callee.allocates || Expr.anyAllocates args
  | .name _ | .number _ | .quoted _ | .place _ | .count _ => false
termination_by structural expr => expr

def Expr.anyAllocates : List Expr → Bool
  | [] => false
  | expr :: rest => expr.allocates || Expr.anyAllocates rest
termination_by structural exprs => exprs
end

theorem Expr.anyAllocates_eq_false {exprs : List Expr} (old : ∀ expr ∈ exprs, expr.allocates = false) :
    Expr.anyAllocates exprs = false := by
  induction exprs with
  | nil => rfl
  | cons expr rest ih =>
    obtain ⟨first, others⟩ := List.forall_mem_cons.mp old
    rw [Expr.anyAllocates, first, ih others, Bool.or_false]

/-- The variable that a statement defines as a new array. -/
def Stmt.allocated? : Stmt → Option String
  | .define v (.newArray _ _) => some v.name
  | _ => none

def allocated (block : List Stmt) : List String :=
  block.filterMap Stmt.allocated?

def Stmt.isDeletion : Stmt → Bool
  | .delete _ | .deleteArray _ => true
  | _ => false

/-- A message argument takes over what it has borrowed. -/
def Stmt.isStabilizing : Stmt → Bool
  | .perform (.call (.member _ function) _) | .perform (.call (.arrow _ function) _) => function = "Stabilize"
  | _ => false

/-- The variables whose elements a loop fills. -/
def Stmt.populates : Stmt → List String
  | .loop _ _ body => (body.filterMap Stmt.filled?).map Place.base
  | _ => []

/-- The statements allocate a buffer for the elements of a counted value and put each element into it in a loop over
the same count; the values pass it next to that count. -/
def Prepares (block : List Stmt) (values : List Expr) (name : String) : Prop :=
  ∃ stored element place depth body,
    [.define ⟨stored, name⟩ (.newArray element (.count place)), .loop depth place body].Sublist block ∧
    body.filterMap Stmt.filled? = [(Place.root name).element depth] ∧
    [.count place, .name name] <:+: values

/-- A buffer's life in a block: it is prepared, passed to `Set`, and deleted after the same container was made
independent of it. There is no other call of `Set` in the block, and no other loop fills the buffer. -/
structure Serves (container : Place) (block : List Stmt) (name : String) : Prop where
  stages : ∃ before signature values after,
    block = before ++ .perform (.send (.place container) "Set" (signature :: values)) :: after ∧
    calls "Set" block = [(container, signature :: values)] ∧ Prepares before values name ∧
    [.perform (.send (.place container) "Stabilize" []), .deleteArray (.name name)].Sublist after
  filledOnce : (block.flatMap Stmt.populates).count name = 1
  passedOnce : (block.flatMap Stmt.handed).count name = 1

/-- A block that fills `container` and leaves no buffer behind. -/
structure Releases (container : Place) (block : List Stmt) : Prop where
  distinct : (allocated block).Nodup
  defined : ∀ stmt ∈ block, stmt.expressions.any Expr.allocates = true → stmt.allocated?.isSome
  serves : ∀ name ∈ allocated block, Serves container block name
  deleted : block.filter Stmt.isDeletion = (allocated block).map fun name => .deleteArray (.name name)
  stabilized : block.filter Stmt.isStabilizing =
    if allocated block = [] then [] else [.perform (.send (.place container) "Stabilize" [])]

theorem allocated_append (first second : List Stmt) :
    allocated (first ++ second) = allocated first ++ allocated second :=
  List.filterMap_append

theorem allocated_sublist (block : List Stmt) : (allocated block).Sublist (declared block) := by
  induction block with
  | nil => exact .slnil
  | cons stmt rest ih =>
    cases made : stmt.allocated? with
    | none =>
      rw [allocated, List.filterMap_cons_none made]
      cases name : stmt.declared? with
      | none => rwa [declared, List.filterMap_cons_none name]
      | some name' =>
        rw [declared, List.filterMap_cons_some name]
        exact ih.cons _
    | some name =>
      have declares : stmt.declared? = some name := by
        unfold Stmt.allocated? at made
        split at made
        · exact made
        · cases made
      rw [allocated, declared, List.filterMap_cons_some made, List.filterMap_cons_some declares]
      exact ih.cons_cons _

/-- A statement that neither passes a value nor ends a buffer. -/
structure Stmt.Early (stmt : Stmt) : Prop where
  handed : stmt.handed = []
  filled : stmt.filled? = none
  call : stmt.call? "Set" = none
  deletion : stmt.isDeletion = false
  stabilizing : stmt.isStabilizing = false

/-- A statement that neither makes a buffer nor passes or fills anything. -/
structure Stmt.Late (stmt : Stmt) : Prop where
  allocated : stmt.allocated? = none
  populates : stmt.populates = []
  handed : stmt.handed = []
  filled : stmt.filled? = none
  call : stmt.call? "Set" = none

theorem Stmt.isFilling_early {stmt : Stmt} (filling : stmt.isFilling = true) : stmt.Early := by
  cases stmt <;> first | exact ⟨rfl, rfl, rfl, rfl, rfl⟩ | cases filling

theorem Prepares.mono {block larger : List Stmt} {values more : List Expr} {name : String}
    (prepares : Prepares block values name) (within : block.Sublist larger) (passed : values <:+: more) :
    Prepares larger more name := by
  obtain ⟨stored, element, place, depth, body, made, filled, handed⟩ := prepares
  exact ⟨stored, element, place, depth, body, made.trans within, filled, handed.trans passed⟩

/-- A block that is one assignment has nothing to release. -/
theorem Releases.assign {container target : Place} {value : Expr} (old : value.allocates = false) :
    Releases container [.assign (.place target) value] :=
  ⟨.nil, by simp [Stmt.expressions, Expr.allocates, old], nofun, rfl, rfl⟩

end Code

theorem Scalar.passed_old (kind : Scalar) (place : Place) : (kind.passed (.place place)).allocates = false := by
  unfold Scalar.passed
  split <;> rfl

/-- What a pack puts before its call prepares its buffers, and nothing else; its values pass them. -/
private structure Pack.Releases (pack : Pack) : Prop where
  filling : ∀ stmt ∈ pack.before, stmt.isFilling = true
  allocated : Code.allocated pack.before = pack.buffers
  defined : ∀ stmt ∈ pack.before, stmt.expressions.any Expr.allocates = true → stmt.allocated?.isSome
  values : ∀ value ∈ pack.values, value.allocates = false
  filled : pack.before.flatMap Stmt.populates = pack.buffers
  handed : pack.values.filterMap Expr.handed? = pack.buffers
  prepares : ∀ name ∈ pack.buffers, Prepares pack.before pack.values name
  inside : ∀ inner ∈ observe Stmt.blocks pack.before, ∃ target, Code.Releases target inner

namespace Pack.Releases

variable {pack pack' : Pack}

private theorem append (first : pack.Releases) (second : pack'.Releases) : (pack.append pack').Releases where
  filling := List.forall_mem_append.mpr ⟨first.filling, second.filling⟩
  allocated := by rw [Pack.append, allocated_append, first.allocated, second.allocated]
  defined := List.forall_mem_append.mpr ⟨first.defined, second.defined⟩
  values := List.forall_mem_append.mpr ⟨first.values, second.values⟩
  filled := by rw [Pack.append, List.flatMap_append, first.filled, second.filled]
  handed := by rw [Pack.append, List.filterMap_append, first.handed, second.handed]
  prepares := by
    refine List.forall_mem_append.mpr ⟨fun name inside => ?_, fun name inside => ?_⟩
    · exact (first.prepares name inside).mono (List.sublist_append_left _ _) (List.prefix_append _ _).isInfix
    · exact (second.prepares name inside).mono (List.sublist_append_right _ _) (List.suffix_append _ _).isInfix
  inside := by
    rw [Pack.append, observe_append]
    exact List.forall_mem_append.mpr ⟨first.inside, second.inside⟩

private theorem enclose (releases : pack.Releases) (opening closing : String) :
    (pack.enclose opening closing).Releases :=
  ⟨releases.filling, releases.allocated, releases.defined, releases.values, releases.filled, releases.handed,
    releases.prepares, releases.inside⟩

private theorem direct {signature : String} {values : List Expr} (old : ∀ value ∈ values, value.allocates = false)
    (unnamed : values.filterMap Expr.handed? = []) : (Pack.direct signature values).Releases :=
  ⟨nofun, rfl, nofun, old, rfl, unnamed, nofun, nofun⟩

private theorem passed (kind : Scalar) (place : Place) :
    (Pack.direct kind.code.toString [kind.passed (.place place)]).Releases := by
  refine .direct (List.forall_mem_singleton.mpr (kind.passed_old place)) ?_
  unfold Scalar.passed
  split <;> rfl

private theorem buffered {slot : Slot} {place : Place} {depth : Nat} {buffer : String} {element stored : CType}
    {body : List Stmt} (inner : Code.Releases ((Place.root buffer).element depth) body)
    (nested : ∀ block ∈ observe Stmt.blocks body, ∃ target, Code.Releases target block)
    (filled : body.filterMap Stmt.filled? = [(Place.root buffer).element depth]) :
    (Pack.buffered slot place depth buffer element stored body).Releases where
  filling := by simp [Pack.buffered, Stmt.isFilling]
  allocated := rfl
  defined := by simp [Pack.buffered, Stmt.expressions, Expr.allocates, Stmt.allocated?]
  values := by simp [Pack.buffered, Expr.allocates]
  filled := by simp [Pack.buffered, Stmt.populates, filled, Place.base]
  handed := rfl
  prepares := by
    refine List.forall_mem_singleton.mpr ?_
    exact ⟨stored, element, place, depth, body, List.Sublist.refl _, filled, List.infix_refl _⟩
  inside := by
    have blocks : observe Stmt.blocks (Pack.buffered slot place depth buffer element stored body).before =
        body :: observe Stmt.blocks body := by
      simp [Pack.buffered, Stmt.within, Stmt.blocks]
    rw [blocks]
    exact List.forall_mem_cons.mpr ⟨⟨_, inner⟩, nested⟩

private theorem early (releases : pack.Releases) : ∀ stmt ∈ pack.before, stmt.Early :=
  fun stmt inside => Stmt.isFilling_early (releases.filling stmt inside)

private theorem mem_cleared {container : Place} {stmt : Stmt} (inside : stmt ∈ pack.cleared container) :
    stmt = .perform (.send (.place container) "Stabilize" []) ∨ ∃ buffer, stmt = .deleteArray (.name buffer) := by
  unfold Pack.cleared at inside
  split at inside
  · cases inside
  · rcases List.mem_cons.mp inside with rfl | deleted
    · exact .inl rfl
    · obtain ⟨buffer, -, rfl⟩ := List.mem_map.mp deleted
      exact .inr ⟨buffer, rfl⟩

private theorem late {container : Place} : ∀ stmt ∈ pack.cleared container, stmt.Late := by
  intro stmt inside
  rcases mem_cleared inside with rfl | ⟨_, rfl⟩ <;> exact ⟨rfl, rfl, rfl, rfl, rfl⟩

private theorem filled_finish (releases : pack.Releases) (container : Place) :
    (pack.finish container).filterMap Stmt.filled? = [container] := by
  have before : pack.before.filterMap Stmt.filled? = [] :=
    List.filterMap_eq_nil_iff.mpr fun stmt inside => (releases.early stmt inside).filled
  have after : (pack.cleared container).filterMap Stmt.filled? = [] :=
    List.filterMap_eq_nil_iff.mpr fun stmt inside => (late stmt inside).filled
  rw [Pack.finish_eq, List.filterMap_append, List.filterMap_cons, before, after]
  rfl

private theorem calls_finish (releases : pack.Releases) (container : Place) :
    calls "Set" (pack.finish container) = [(container, .quoted pack.signature :: pack.values)] := by
  have before : pack.before.filterMap (Stmt.call? "Set") = [] :=
    List.filterMap_eq_nil_iff.mpr fun stmt inside => (releases.early stmt inside).call
  have after : (pack.cleared container).filterMap (Stmt.call? "Set") = [] :=
    List.filterMap_eq_nil_iff.mpr fun stmt inside => (late stmt inside).call
  rw [calls, Pack.finish_eq, List.filterMap_append, List.filterMap_cons, before, after]
  rfl

private theorem allocated_finish (releases : pack.Releases) (container : Place) :
    Code.allocated (pack.finish container) = pack.buffers := by
  have after : Code.allocated (pack.cleared container) = [] :=
    List.filterMap_eq_nil_iff.mpr fun stmt inside => (late stmt inside).allocated
  rw [Pack.finish_eq, allocated_append, releases.allocated]
  simpa [Code.allocated, Stmt.allocated?] using after

private theorem populates_finish (releases : pack.Releases) (container : Place) :
    (pack.finish container).flatMap Stmt.populates = pack.buffers := by
  have after : (pack.cleared container).flatMap Stmt.populates = [] :=
    List.flatMap_eq_nil_iff.mpr fun stmt inside => (late stmt inside).populates
  rw [Pack.finish_eq, List.flatMap_append, List.flatMap_cons, releases.filled, after]
  simp [Stmt.populates]

private theorem handed_finish (releases : pack.Releases) (container : Place) :
    (pack.finish container).flatMap Stmt.handed = pack.buffers := by
  have before : pack.before.flatMap Stmt.handed = [] :=
    List.flatMap_eq_nil_iff.mpr fun stmt inside => (releases.early stmt inside).handed
  have after : (pack.cleared container).flatMap Stmt.handed = [] :=
    List.flatMap_eq_nil_iff.mpr fun stmt inside => (late stmt inside).handed
  rw [Pack.finish_eq, List.flatMap_append, List.flatMap_cons, before, after, Stmt.call_handed (by decide),
    releases.handed, List.nil_append, List.append_nil]

/-- The call and what follows it open no block. -/
private theorem blocks_finish (pack : Pack) (container : Place) :
    observe Stmt.blocks (pack.finish container) = observe Stmt.blocks pack.before := by
  have alone : ∀ stmt ∈ pack.cleared container, stmt.within = [stmt] := fun stmt inside => by
    rcases mem_cleared inside with rfl | ⟨_, rfl⟩ <;> rfl
  have after : observe Stmt.blocks (pack.cleared container) = [] := by
    rw [observe_flat _ alone]
    exact List.flatMap_eq_nil_iff.mpr fun stmt inside => by rcases mem_cleared inside with rfl | ⟨_, rfl⟩ <;> rfl
  rw [Pack.finish_eq, observe_append, observe_cons, after]
  simp [Stmt.within, Stmt.blocks]

private theorem serves (releases : pack.Releases) (distinct : pack.buffers.Nodup) (container : Place) {name : String}
    (made : name ∈ pack.buffers) : Serves container (pack.finish container) name := by
  have prepared := releases.prepares name made
  refine ⟨⟨_, _, _, _, pack.finish_eq container, releases.calls_finish container, prepared, ?_⟩, ?_, ?_⟩
  · have some : ¬ pack.buffers.isEmpty = true := by
      simpa using List.ne_nil_of_mem made
    rw [Pack.cleared, if_neg some]
    refine List.Sublist.cons_cons _ (List.singleton_sublist.mpr ?_)
    exact List.mem_map_of_mem made
  · rw [releases.populates_finish]
    exact List.count_eq_one_of_mem distinct made
  · rw [releases.handed_finish]
    exact List.count_eq_one_of_mem distinct made

private theorem finish (releases : pack.Releases) (distinct : pack.buffers.Nodup) (container : Place) :
    Code.Releases container (pack.finish container) where
  distinct := (releases.allocated_finish container).symm ▸ distinct
  defined := by
    have old := Expr.anyAllocates_eq_false releases.values
    rw [Pack.finish_eq]
    refine List.forall_mem_append.mpr ⟨releases.defined, List.forall_mem_cons.mpr ⟨?_, fun stmt inside makes => ?_⟩⟩
    · simp [Stmt.expressions, Expr.send, Expr.allocates, Expr.anyAllocates, old]
    · rcases mem_cleared inside with rfl | ⟨_, rfl⟩ <;> cases makes
  serves name made := releases.serves distinct container (releases.allocated_finish container ▸ made)
  deleted := by
    have before : pack.before.filter Stmt.isDeletion = [] :=
      List.filter_eq_nil_iff.mpr fun stmt inside => by simp [(releases.early stmt inside).deletion]
    rw [releases.allocated_finish, Pack.finish_eq, List.filter_append, before, Pack.cleared]
    cases pack.buffers <;> simp [Stmt.isDeletion]
  stabilized := by
    have before : pack.before.filter Stmt.isStabilizing = [] :=
      List.filter_eq_nil_iff.mpr fun stmt inside => by simp [(releases.early stmt inside).stabilizing]
    rw [releases.allocated_finish, Pack.finish_eq, List.filter_append, before, Pack.cleared]
    cases pack.buffers <;> simp [Stmt.isStabilizing, Expr.send, List.filter_map, Function.comp_def]

/-- Buffers are called differently because all that is declared before the call is. -/
private theorem distinct {place : Place} {tails : List String} (releases : pack.Releases)
    (declares : Declares (tails.map (temporary place)) [] pack.before) (once : tails.Nodup) : pack.buffers.Nodup := by
  have apart : (declared pack.before).Nodup := declares.here ▸ once.map fun _ _ => temporary_inj
  exact releases.allocated ▸ apart.sublist (allocated_sublist pack.before)

/-- A buffer of message arguments, where each element is filled by a call of its own. -/
private theorem looped (releases : pack.Releases) (distinct : pack.buffers.Nodup) {slot : Slot} {place : Place}
    {depth : Nat} {buffer : String} {element stored : CType} :
    (Pack.buffered slot place depth buffer element stored
      (pack.finish ((Place.root buffer).element depth))).Releases := by
  refine .buffered (releases.finish distinct _) ?_ (releases.filled_finish _)
  rw [blocks_finish]
  exact releases.inside

end Pack.Releases

mutual
private theorem Slot.pack_releases (depth : Nat) (place : Place) : (type : BusType) →
    ((Slot.of type).pack depth place).Releases
  | .basic kind => .passed kind place
  | .variant | .array .variant | .array (.array _) | .array (.dict _ _) => .direct (by simp [Expr.allocates]) rfl
  | .array (.basic kind) => by
    rw [Slot.of, Slot.pack]
    split
    · refine .buffered (.assign (kind.passed_old _)) ?_ rfl
      simp [Stmt.within, Stmt.blocks]
    · exact .direct (by simp [Expr.allocates]) rfl
  | .struct members => (Fields.pack_releases depth place {} members).enclose "(" ")"
  | .array (.struct members) => by
    have packed := Fields.pack_releases (depth + 1) (place.element depth) {} members
    have declares := Fields.pack_declares (depth + 1) (place.element depth) {} members
    have apart := packed.distinct declares (Fields.tails_nodup Slot.bufferTails_tailed {} members)
    exact .looped (packed.enclose "(" ")") apart
  | .dict key value => by
    have keyed : (Pack.direct key.code.toString [key.passed (.place ((place.element depth).field "key"))]).Releases :=
      .passed key _
    have packed := keyed.append (Slot.pack_releases (depth + 1) ((place.element depth).field "value") value)
    have declares := Slot.pack_declares (depth + 1) ((place.element depth).field "value") value
    have apart := packed.distinct declares (Slot.tails_nodup Slot.bufferTails_tailed value)
    exact .looped (packed.enclose "\x7b" "\x7d") apart

private theorem Fields.pack_releases (depth : Nat) (place : Place) (numbering : Numbering) : (types : List BusType) →
    ((Fields.of numbering types).pack depth place).Releases
  | [] => ⟨nofun, rfl, nofun, nofun, rfl, rfl, nofun, nofun⟩
  | type :: rest => (Slot.pack_releases depth _ type).append (Fields.pack_releases depth place _ rest)
end

/-- Whatever is packed, into whichever container and from whichever counter on, every block releases the buffers that it
makes: the outermost one, which fills the container, and those of all loops inside. -/
theorem buffers_released (type : BusType) (container : Place) (text : String) (depth : Nat) :
    let block := (Slot.of type).set container (.root text) depth
    Releases container block ∧ ∀ inner ∈ observe Stmt.blocks block, ∃ target, Releases target inner := by
  intro block
  cases assigned : (Slot.of type).isAssigned with
  | true =>
    have whole : block = [.assign (.place container) (.place (.root text))] := Slot.set_assigned assigned _ _ _
    rw [whole]
    exact ⟨.assign rfl, nofun⟩
  | false =>
    have packed := Slot.pack_releases depth (.root text) type
    have declares := Slot.pack_declares depth (.root text) type
    have apart := packed.distinct declares (Slot.tails_nodup Slot.bufferTails_tailed type)
    have called : block = ((Slot.of type).pack depth (.root text)).finish container := Slot.set_eq assigned _ _ _
    rw [called, Pack.Releases.blocks_finish]
    exact ⟨packed.finish apart container, packed.inside⟩

end BusStub
