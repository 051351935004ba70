import Mathlib.Data.List.Nodup
import Mathlib.Data.List.Perm.Basic
import BusStub.Proofs.Scopes

/-! Temporaries and the calls that they are for. A block that moves a value declares its temporaries first and hands
each of them to one call, `Get` or `Set`. No block inside it has a temporary of the same name, so no other call is
handed the same variable. -/

namespace BusStub
open Code

namespace Code

/-- A variable that a call is handed, by its name or by its address. -/
def Expr.handed? : Expr → Option String
  | .name text | .address (.name text) => some text
  | _ => none

/-- The variables that a statement hands to `Get` or `Set`. -/
def Stmt.handed : Stmt → List String
  | .perform (.call (.member _ function) args) =>
    if function ∈ ["Get", "Set"] then args.filterMap Expr.handed? else []
  | _ => []

def Stmt.isDeclaration : Stmt → Bool
  | .declare _ => true
  | _ => false

/-- A buffer is made, or filled by a loop. -/
def Stmt.isFilling : Stmt → Bool
  | .define _ _ | .loop _ _ _ => true
  | _ => false

/-- The blocks that a statement opens. -/
def Stmt.blocks : Stmt → List (List Stmt)
  | .loop _ _ body | .branch _ body => [body]
  | .choose _ body otherwise => [body, otherwise]
  | .declare _ | .define _ _ | .array _ _ | .construct _ _ | .assign _ _ | .perform _ | .delete _ | .deleteArray _
  | .ret _ | .comment _ | .blank => []

/-- The block declares the variable and hands it to a call after that, and to no other call, at any depth; before the
call there are only statements of the given kind. -/
def HandsOver (early : Stmt → Bool) (block : List Stmt) (name : String) : Prop :=
  ∃ before declaration between call after, block = before ++ declaration :: between ++ call :: after ∧
    declaration.declared? = some name ∧ name ∈ call.handed ∧ (observe Stmt.handed block).count name = 1 ∧
    ∀ stmt ∈ before ++ declaration :: between, early stmt = true

/-- The block hands over the variables that it declares, other than those in `own`, and no others. -/
structure Hands (early : Stmt → Bool) (own : List String) (block : List Stmt) : Prop where
  each : ∀ name ∈ declared block, name ∉ own → HandsOver early block name
  known : block.flatMap Stmt.handed ⊆ declared block

/-- The same for every block inside the block, where nothing is excepted. -/
structure HandsAll (early : Stmt → Bool) (own : List String) (block : List Stmt) : Prop where
  here : Hands early own block
  inside : ∀ inner ∈ observe Stmt.blocks block, Hands early [] inner

section
variable {early : Stmt → Bool} {head tail block : List Stmt} {call : Stmt}

/-- A block that makes its temporaries first and hands all of them to the one call after that. -/
theorem Hands.single (prepared : ∀ stmt ∈ head, early stmt = true) (nothing : declared (call :: tail) = [])
    (alone : call.within = [call]) (quiet : (head ++ tail).flatMap Stmt.handed = [])
    (handed : call.handed = declared head) (nodup : (observe Stmt.handed (head ++ call :: tail)).Nodup) :
    Hands early [] (head ++ call :: tail) := by
  have all : declared (head ++ call :: tail) = declared head := by
    rw [declared, List.filterMap_append, ← declared, ← declared, nothing, List.append_nil]
  refine ⟨fun name inside _ => ?_, fun name inside => ?_⟩
  · rw [all] at inside
    have taken : name ∈ call.handed := handed ▸ inside
    -- The call hands the name over, and nothing is handed over twice.
    have observed : name ∈ observe Stmt.handed (head ++ call :: tail) := by
      rw [observe_append, observe_cons, alone]
      exact List.mem_append_right _ (List.mem_append_left _ (by simpa using taken))
    obtain ⟨declaration, member, declares⟩ := List.mem_filterMap.mp inside
    obtain ⟨before, between, rfl⟩ := List.append_of_mem member
    exact ⟨before, declaration, between, call, tail, rfl, declares, taken, List.count_eq_one_of_mem nodup observed,
      prepared⟩
  · rw [List.flatMap_append, List.append_eq_nil_iff] at quiet
    rw [List.flatMap_append, List.flatMap_cons, quiet.1, quiet.2, handed, List.nil_append, List.append_nil] at inside
    exact all ▸ inside

theorem HandsAll.assign (target value : Expr) : HandsAll early [] [.assign target value] :=
  ⟨⟨nofun, List.Subset.refl _⟩, nofun⟩

/-- Declarations of other variables may stand in front. -/
theorem HandsAll.after {locals : List Variable} (hands : HandsAll Stmt.isDeclaration [] block) :
    HandsAll Stmt.isDeclaration (locals.map Variable.name) (locals.map .declare ++ block) := by
  have names : declared (locals.map .declare) = locals.map Variable.name := (Declares.declare locals).here
  have quiet : (locals.map Stmt.declare).flatMap Stmt.handed = [] := by simp [List.flatMap_map, Stmt.handed]
  have alone : ∀ stmt ∈ locals.map Stmt.declare, stmt.within = [stmt] := by simp [Stmt.within]
  -- Declarations hand nothing over and open no block, so only the part before the call grows.
  refine ⟨⟨fun name inside other => ?_, ?_⟩, ?_⟩
  · rw [declared, List.filterMap_append, ← declared, ← declared, names] at inside
    have declares := (List.mem_append.mp inside).resolve_left other
    obtain ⟨before, declaration, between, call, after, rfl, declares, taken, once, others⟩ :=
      hands.here.each name declares List.not_mem_nil
    refine ⟨locals.map .declare ++ before, declaration, between, call, after, by simp, declares, taken, ?_, ?_⟩
    · rw [observe_append, observe_flat _ alone, quiet, List.nil_append, once]
    · rw [List.append_assoc]
      exact List.forall_mem_append.mpr ⟨by simp [Stmt.isDeclaration], others⟩
  · rw [List.flatMap_append, quiet, List.nil_append, declared, List.filterMap_append]
    exact List.subset_append_of_subset_right _ hands.here.known
  · rw [observe_append, observe_flat _ alone]
    simpa [List.flatMap_map, Stmt.blocks] using hands.inside

end

/-- The signature is no variable. -/
theorem Stmt.call_handed {function : String} (moves : function ∈ ["Get", "Set"]) (object : Expr) (signature : String)
    (args : List Expr) :
    (Stmt.perform (.send object function (.quoted signature :: args))).handed = args.filterMap Expr.handed? :=
  if_pos moves

/-- A block whose calls are handed the temporaries with the given tails, each one once. -/
structure Lends (early : Stmt → Bool) (place : Place) (tails : List String) (block : List Stmt) : Prop where
  hands : HandsAll early [] block
  handed : (observe Stmt.handed block).Perm (tails.map (temporary place))

namespace Lends

variable {early : Stmt → Bool} {place : Place} {tails : List String} {block : List Stmt} {depth : Nat}

theorem assign (target value : Expr) : Lends early place [] [.assign target value] :=
  ⟨.assign target value, .refl _⟩

/-- The blocks that a loop brings are its body and those inside. -/
theorem loop (lends : Lends early (place.element depth) tails block) :
    ∀ inner ∈ observe Stmt.blocks [.loop depth place block], Hands early [] inner := by
  rw [observe_loop]
  exact List.forall_mem_cons.mpr ⟨lends.hands.here, lends.hands.inside⟩

/-- Seen from the whole, the tails of an element's temporaries begin with the counter. -/
theorem element (lends : Lends early (place.element depth) tails block) :
    (observe Stmt.handed block).Perm ((tails.map (counter depth ++ ·)).map (temporary place)) := by
  have same : tails.map (temporary (place.element depth)) =
      (tails.map (counter depth ++ ·)).map (temporary place) := by
    rw [List.map_map]
    exact List.map_congr_left fun tail _ => temporary_element place depth tail
  exact same ▸ lends.handed

end Lends
end Code

/-- What a pack hands to its call: its buffers, each made and filled before. All temporaries of the value, at any depth,
have the given tails. -/
private structure Pack.Lends (place : Place) (tails : List String) (pack : Pack) : Prop where
  declares : declared pack.before = pack.buffers
  values : pack.values.filterMap Expr.handed? = pack.buffers
  prepared : ∀ stmt ∈ pack.before, stmt.isFilling = true
  handed : (pack.buffers ++ observe Stmt.handed pack.before).Perm (tails.map (temporary place))
  inside : ∀ inner ∈ observe Stmt.blocks pack.before, Hands Stmt.isFilling [] inner

namespace Pack.Lends

variable {place : Place} {tails tails' : List String} {pack pack' : Pack}

private theorem append (first : pack.Lends place tails) (second : pack'.Lends place tails') :
    (pack.append pack').Lends place (tails ++ tails') where
  declares := by
    rw [Pack.append, declared, List.filterMap_append, ← declared, ← declared, first.declares, second.declares]
  values := by rw [Pack.append, List.filterMap_append, first.values, second.values]
  prepared := List.forall_mem_append.mpr ⟨first.prepared, second.prepared⟩
  handed := by
    rw [Pack.append, observe_append, List.map_append]
    refine List.Perm.trans ?_ (first.handed.append second.handed)
    simp only [List.append_assoc]
    exact (List.perm_append_comm_assoc _ _ _).append_left _
  inside := by
    rw [Pack.append, observe_append]
    exact List.forall_mem_append.mpr ⟨first.inside, second.inside⟩

private theorem enclose (lends : pack.Lends place tails) (opening closing : String) :
    (pack.enclose opening closing).Lends place tails :=
  ⟨lends.declares, lends.values, lends.prepared, lends.handed, lends.inside⟩

private theorem field {name : String} (lends : pack.Lends (place.field name) tails) (plain : flat name = name) :
    pack.Lends place (tails.map ("_" ++ name ++ ·)) :=
  ⟨lends.declares, lends.values, lends.prepared, temporaries_field plain tails ▸ lends.handed, lends.inside⟩

private theorem direct {signature : String} {values : List Expr} (unnamed : values.filterMap Expr.handed? = []) :
    (Pack.direct signature values).Lends place [] :=
  ⟨rfl, unnamed, nofun, .refl _, nofun⟩

private theorem buffered {slot : Slot} {element stored : CType} {depth : Nat} {tail : String} {body : List Stmt}
    (inner : Code.Lends Stmt.isFilling (place.element depth) tails body) :
    (Pack.buffered slot place depth (temporary place tail) element stored body).Lends place
      ([tail] ++ tails.map (counter depth ++ ·)) where
  declares := rfl
  values := rfl
  prepared := by simp [Pack.buffered, Stmt.isFilling]
  handed := by
    have seen : observe Stmt.handed (Pack.buffered slot place depth (temporary place tail) element stored body).before =
        observe Stmt.handed body := by
      simp [Pack.buffered, Stmt.within, Stmt.handed]
    rw [seen, List.map_append]
    exact inner.element.append_left _
  inside := inner.loop

private theorem finish (lends : pack.Lends place tails) (nodup : tails.Nodup) (container : Place) :
    Code.Lends Stmt.isFilling place tails (pack.finish container) := by
  have cleared : ∀ stmt ∈ pack.cleared container, stmt.within = [stmt] ∧ stmt.declared? = none ∧ stmt.handed = [] ∧
      stmt.blocks = [] := by
    unfold Pack.cleared
    split
    · exact nofun
    · simp [Stmt.within, Stmt.declared?, Stmt.handed, Stmt.blocks, Expr.send]
  have unseen {α : Type} {see : Stmt → List α} (none : ∀ stmt ∈ pack.cleared container, see stmt = []) :
      observe see (pack.cleared container) = [] := by
    rw [observe_flat see fun stmt inside => (cleared stmt inside).1]
    exact List.flatMap_eq_nil_iff.mpr none
  have quiet : (pack.before ++ pack.cleared container).flatMap Stmt.handed = [] := by
    refine List.flatMap_eq_nil_iff.mpr (List.forall_mem_append.mpr ⟨fun stmt inside => ?_, fun stmt inside => ?_⟩)
    · have filling := lends.prepared stmt inside
      cases stmt <;> first | rfl | cases filling
    · exact (cleared stmt inside).2.2.1
  have handed : (observe Stmt.handed (pack.finish container)).Perm (tails.map (temporary place)) := by
    rw [Pack.finish_eq, observe_append, observe_cons, unseen fun stmt inside => (cleared stmt inside).2.2.1]
    rw [Stmt.within, List.flatMap_singleton, Stmt.call_handed (by decide), lends.values, List.append_nil]
    exact List.perm_append_comm.trans lends.handed
  refine ⟨⟨?_, ?_⟩, handed⟩
  · rw [Pack.finish_eq] at handed ⊢
    refine .single lends.prepared ?_ rfl quiet ?_ (handed.nodup_iff.mpr (nodup.map fun _ _ => temporary_inj))
    · simpa [declared, Stmt.declared?] using fun stmt inside => (cleared stmt inside).2.1
    · rw [Stmt.call_handed (by decide), lends.values, lends.declares]
  · rw [Pack.finish_eq, observe_append, observe_cons, unseen fun stmt inside => (cleared stmt inside).2.2.2]
    simpa [Stmt.within, Stmt.blocks] using lends.inside

end Pack.Lends

mutual
private theorem Slot.pack_lends (depth : Nat) (place : Place) : (type : BusType) →
    ((Slot.of type).pack depth place).Lends place ((Slot.of type).allTails Slot.bufferTails depth)
  | .basic kind => .direct (by simp [Scalar.passed]; split <;> rfl)
  | .variant | .array .variant | .array (.array _) | .array (.dict _ _) => .direct rfl
  | .array (.basic kind) => by
    rw [Slot.of, Slot.pack, Slot.allTails, Slot.bufferTails, Slot.bufferTails]
    split
    · exact .buffered (.assign _ _)
    · exact .direct rfl
  | .struct members => (Fields.pack_lends depth place {} members).enclose "(" ")"
  | .array (.struct members) => by
    have inner := (Fields.pack_lends (depth + 1) (place.element depth) {} members).enclose "(" ")"
    exact .buffered (inner.finish (Fields.allTails_nodup Slot.bufferTails_tailed (depth + 1) {} members) _)
  | .dict key value => by
    have keyed : (Pack.direct key.code.toString [key.passed (.place ((place.element depth).field "key"))]).Lends
        (place.element depth) [] := .direct (by simp [Scalar.passed]; split <;> rfl)
    have valued := Slot.pack_lends (depth + 1) ((place.element depth).field "value") value
    have inner := (keyed.append (valued.field (by decide))).enclose "\x7b" "\x7d"
    exact .buffered (inner.finish (Parcel.entryTails_nodup Slot.bufferTails_tailed (depth + 1) key value) _)

private theorem Fields.pack_lends (depth : Nat) (place : Place) (numbering : Numbering) : (types : List BusType) →
    ((Fields.of numbering types).pack depth place).Lends place
      ((Fields.of numbering types).allTails Slot.bufferTails depth)
  | [] => ⟨rfl, rfl, nofun, .refl _, nofun⟩
  | type :: rest => by
    have first := Slot.pack_lends depth (place.field (numbering.name (Slot.of type))) type
    have plain := IsMember.flat ⟨_, _, numbering.name_eq (Slot.of type)⟩
    exact (first.field plain).append (Fields.pack_lends depth place _ rest)
end

/-- What an unpack hands to its call: the addresses of its temporaries. All temporaries of the value, at any depth, have
the given tails. -/
private structure Unpack.Lends (place : Place) (tails : List String) (unpack : Unpack) : Prop where
  addresses : unpack.addresses.filterMap Expr.handed? = unpack.temporaries.map Variable.name
  nothing : declared unpack.copies = []
  quiet : unpack.copies.flatMap Stmt.handed = []
  handed :
    (unpack.temporaries.map Variable.name ++ observe Stmt.handed unpack.copies).Perm (tails.map (temporary place))
  inside : ∀ inner ∈ observe Stmt.blocks unpack.copies, Hands Stmt.isDeclaration [] inner

namespace Unpack.Lends

variable {place : Place} {tails tails' : List String} {unpack unpack' : Unpack}

private theorem append (first : unpack.Lends place tails) (second : unpack'.Lends place tails') :
    (unpack.append unpack').Lends place (tails ++ tails') where
  addresses := by
    rw [Unpack.append, List.filterMap_append, List.map_append, first.addresses, second.addresses]
  nothing := by
    rw [Unpack.append, declared, List.filterMap_append, ← declared, ← declared, first.nothing, second.nothing]
    rfl
  quiet := by
    rw [Unpack.append, List.flatMap_append, first.quiet, second.quiet]
    rfl
  handed := by
    rw [Unpack.append, observe_append, List.map_append, List.map_append]
    refine List.Perm.trans ?_ (first.handed.append second.handed)
    simp only [List.append_assoc]
    exact (List.perm_append_comm_assoc _ _ _).append_left _
  inside := by
    rw [Unpack.append, observe_append]
    exact List.forall_mem_append.mpr ⟨first.inside, second.inside⟩

private theorem enclose (lends : unpack.Lends place tails) (opening closing : String) :
    (unpack.enclose opening closing).Lends place tails :=
  ⟨lends.addresses, lends.nothing, lends.quiet, lends.handed, lends.inside⟩

private theorem field {name : String} (lends : unpack.Lends (place.field name) tails) (plain : flat name = name) :
    unpack.Lends place (tails.map ("_" ++ name ++ ·)) :=
  ⟨lends.addresses, lends.nothing, lends.quiet, temporaries_field plain tails ▸ lends.handed, lends.inside⟩

private theorem through {code : String} {type : CType} {copied : Expr → Expr} :
    (Unpack.through code type place copied).Lends place [""] where
  addresses := rfl
  nothing := rfl
  quiet := rfl
  handed := by
    rw [Unpack.through, observe_plain _ rfl]
    simp [Stmt.handed, temporary]
  inside := nofun

private theorem scalar (kind : Scalar) : (kind.unpack place).Lends place (Slot.scalar kind).borrowTails := by
  simp only [Scalar.unpack, Slot.borrowTails]
  cases kind.isText with
  | true => exact through
  | false => exact ⟨rfl, rfl, rfl, .refl _, List.forall_mem_nil _⟩

private theorem counted {slot : Slot} {type : TypeName} {depth : Nat} {borrowed : CType} {tail : String}
    {body : List Stmt} (inner : Code.Lends Stmt.isDeclaration (place.element depth) tails body) :
    (Unpack.counted slot place type depth ⟨borrowed, temporary place tail⟩ body).Lends place
      ([tail] ++ tails.map (counter depth ++ ·)) where
  addresses := rfl
  nothing := rfl
  quiet := rfl
  handed := by
    have seen : observe Stmt.handed
        (Unpack.counted slot place type depth ⟨borrowed, temporary place tail⟩ body).copies =
          observe Stmt.handed body := by
      simp [Unpack.counted, Stmt.within, Stmt.handed]
    rw [seen, List.map_append]
    exact inner.element.append_left _
  inside := inner.loop

private theorem finish (lends : unpack.Lends place tails) (nodup : tails.Nodup) (container : Place) :
    Code.Lends Stmt.isDeclaration place tails (unpack.finish container) := by
  have declares : declared (unpack.temporaries.map .declare) = unpack.temporaries.map Variable.name :=
    (Declares.declare unpack.temporaries).here
  have moves : "Get" ∈ ["Get", "Set"] := by decide
  have call := (Stmt.call_handed moves (.place container) unpack.signature
    unpack.addresses).trans lends.addresses
  have unseen {α : Type} {see : Stmt → List α} (none : ∀ v, see (.declare v) = []) :
      observe see (unpack.temporaries.map .declare) = [] := by
    rw [observe_flat see (by simp [Stmt.within])]
    simp [List.flatMap_map, none]
  have handed : (observe Stmt.handed (unpack.finish container)).Perm (tails.map (temporary place)) := by
    rw [Unpack.finish, observe_append, observe_cons, unseen fun _ => rfl, Stmt.within, List.flatMap_singleton]
    exact call ▸ lends.handed
  refine ⟨⟨?_, ?_⟩, handed⟩
  · refine .single (by simp [Stmt.isDeclaration]) lends.nothing rfl ?_ ?_
      (handed.nodup_iff.mpr (nodup.map fun _ _ => temporary_inj))
    · rw [List.flatMap_append, lends.quiet, List.append_nil]
      simp [List.flatMap_map, Stmt.handed]
    · exact call.trans declares.symm
  · rw [Unpack.finish, observe_append, observe_cons, unseen fun _ => rfl]
    exact lends.inside

end Unpack.Lends

mutual
private theorem Slot.unpack_lends (depth : Nat) (place : Place) (name : TypeName) : (type : BusType) →
    ((Slot.of type).unpack depth place name).Lends place ((Slot.of type).allTails Slot.borrowTails depth)
  | .basic kind => .scalar kind
  | .variant | .array .variant | .array (.array _) | .array (.dict _ _) => .through
  | .array (.basic kind) => by
    have tailed := Slot.borrowTails_tailed
    rw [Slot.of, Slot.unpack, Slot.allTails]
    split
    next => exact .counted ((Unpack.Lends.scalar kind).finish (tailed.nodup (.scalar kind)) _)
    next plain =>
      rw [Slot.borrowTails, Slot.borrowTails, if_neg plain]
      exact .counted (.assign _ _)
  | .struct members => (Fields.unpack_lends depth place name.scope {} members).enclose "(" ")"
  | .array (.struct members) => by
    have inner := (Fields.unpack_lends (depth + 1) (place.element depth) name.scope {} members).enclose "(" ")"
    exact .counted (inner.finish (Fields.allTails_nodup Slot.borrowTails_tailed (depth + 1) {} members) _)
  | .dict key value => by
    have keyed : (key.unpack ((place.element depth).field "key")).Lends _ _ := .scalar key
    have valued := Slot.unpack_lends (depth + 1) ((place.element depth).field "value")
      ((Slot.of value).elementType name.scope "value") value
    have inner := ((keyed.field (by decide)).append (valued.field (by decide))).enclose "\x7b" "\x7d"
    exact .counted (inner.finish (Parcel.entryTails_nodup Slot.borrowTails_tailed (depth + 1) key value) _)

private theorem Fields.unpack_lends (depth : Nat) (place : Place) (scope : List String) (numbering : Numbering) :
    (types : List BusType) →
    ((Fields.of numbering types).unpack depth place scope).Lends place
      ((Fields.of numbering types).allTails Slot.borrowTails depth)
  | [] => ⟨rfl, rfl, rfl, .refl _, nofun⟩
  | type :: rest => by
    have first := Slot.unpack_lends depth (place.field (numbering.name (Slot.of type)))
      ((Slot.of type).elementType scope (numbering.name (Slot.of type))) type
    have plain := IsMember.flat ⟨_, _, numbering.name_eq (Slot.of type)⟩
    exact (first.field plain).append (Fields.unpack_lends depth place scope _ rest)
end

theorem Slot.set_hands (type : BusType) (container : Place) (source : String) (depth : Nat) :
    HandsAll Stmt.isFilling [] ((Slot.of type).set container (.root source) depth) := by
  cases assigned : (Slot.of type).isAssigned with
  | false =>
    have packed := Slot.pack_lends depth (.root source) type
    rw [Slot.set_eq assigned]
    exact (packed.finish (Slot.allTails_nodup Slot.bufferTails_tailed depth type) container).hands
  | true =>
    rw [Slot.set_assigned assigned]
    exact .assign _ _

theorem Slot.get_hands (type : BusType) (container : Place) (name : String) (declared : Bool) (depth : Nat) :
    HandsAll Stmt.isDeclaration (if declared then (Slot.of type).localNames name else [])
      ((Slot.of type).get container name declared depth) := by
  have moved : HandsAll Stmt.isDeclaration [] ((Slot.of type).get container name false depth) := by
    cases assigned : (Slot.of type).isAssigned with
    | false =>
      have unpacked := Slot.unpack_lends depth (.root name) ((Slot.of type).elementType [] name) type
      rw [Slot.get_eq assigned]
      exact (unpacked.finish (Slot.allTails_nodup Slot.borrowTails_tailed depth type) container).hands
    | true =>
      rw [Slot.get_assigned assigned]
      exact .assign _ _
  cases declared with
  | false => exact moved
  | true => exact moved.after

end BusStub
