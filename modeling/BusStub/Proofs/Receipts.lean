import BusStub.Proofs.Handover

/-! What `Get` hands out is not read before. Code that takes a value out of a message reads only the message itself and
what a call has filled in before, in the same block or in one around it: the temporaries and the numbers of elements. -/

namespace BusStub
open Code

namespace Code

mutual
/-- The variables that an expression reads and the counts. To take an address is not to read. -/
def Expr.reads : Expr → List Leaf
  | .name text => [.value (.root text)]
  | .place p => [.value (.root p.base)]
  | .count p => [.count p]
  | .content inner | .negation inner | .member inner _ | .arrow inner _ | .newArray _ inner | .cast _ inner =>
    inner.reads
  | .binary _ left right => left.reads ++ right.reads
  | .call callee args => callee.reads ++ Expr.readsAll args
  | .newObject _ args => Expr.readsAll args
  | .address _ | .number _ | .quoted _ => []
termination_by structural expr => expr

def Expr.readsAll : List Expr → List Leaf
  | [] => []
  | expr :: rest => expr.reads ++ Expr.readsAll rest
termination_by structural exprs => exprs
end

/-- What a statement reads, without the blocks that it opens. -/
def Stmt.reads : Stmt → List Leaf
  | .define _ value | .assign _ value | .perform value | .delete value | .deleteArray value | .ret value
  | .branch value _ | .choose value _ _ => value.reads
  | .construct _ args => Expr.readsAll args
  | .loop _ place _ => [.count place]
  | .declare _ | .array _ _ | .comment _ | .blank => []

/-- What stands at an address that is passed. -/
def Expr.filled? : Expr → Option Leaf
  | .address (.name text) => some (.value (.root text))
  | .address (.place p) => some (.value p)
  | .address (.count p) => some (.count p)
  | _ => none

/-- What a statement lets `Get` fill in. -/
def Stmt.received : Stmt → List Leaf
  | .perform (.call (.member _ function) args) => if function = "Get" then args.filterMap Expr.filled? else []
  | _ => []

/-- Nothing is read but what is known before or has been received by then, in this block or around it. -/
inductive Received : List Leaf → List Stmt → Prop where
  | nil {known : List Leaf} : Received known []
  | cons {known : List Leaf} {stmt : Stmt} {rest : List Stmt} (reads : stmt.reads ⊆ known)
      (inner : ∀ body ∈ stmt.blocks, Received known body) (others : Received (stmt.received ++ known) rest) :
      Received known (stmt :: rest)

namespace Received

variable {known more : List Leaf} {first second body : List Stmt}

theorem mono (received : Received known body) (sub : known ⊆ more) : Received more body := by
  induction received generalizing more with
  | nil => exact .nil
  | cons reads _ _ inner others =>
    exact .cons (List.Subset.trans reads sub) (fun body opened => inner body opened sub)
      (others (List.append_subset.mpr ⟨List.subset_append_left _ _, List.subset_append_of_subset_right _ sub⟩))

theorem append (one : Received known first) (other : Received known second) : Received known (first ++ second) := by
  induction one with
  | nil => exact other
  | cons reads inner _ _ ih => exact .cons reads inner (ih (other.mono (List.subset_append_right _ _)))

theorem declare (vs : List Variable) (others : Received known second) :
    Received known (vs.map .declare ++ second) := by
  induction vs with
  | nil => exact others
  | cons v rest ih => exact .cons nofun nofun ih

theorem assign {target value : Expr} (reads : value.reads ⊆ known) : Received known [.assign target value] :=
  .cons reads nofun .nil

theorem loop {depth : Nat} {place : Place} (count : .count place ∈ known) (inner : Received known body) :
    Received known [.loop depth place body] :=
  .cons (List.cons_subset.mpr ⟨count, List.nil_subset _⟩) (List.forall_mem_singleton.mpr inner) .nil

end Received
end Code

/-- The copies need nothing but what stands at the addresses. -/
private structure Unpack.Receives (unpack : Unpack) : Prop where
  addresses : Expr.readsAll unpack.addresses = []
  copies : ∀ known, unpack.addresses.filterMap Expr.filled? ⊆ known → Received known unpack.copies

namespace Unpack.Receives

variable {unpack unpack' : Unpack} {place : Place}

private theorem append (first : unpack.Receives) (second : unpack'.Receives) : (unpack.append unpack').Receives where
  addresses := by
    have appended (args args' : List Expr) :
        Expr.readsAll (args ++ args') = Expr.readsAll args ++ Expr.readsAll args' := by
      induction args with
      | nil => rfl
      | cons arg rest ih => simp only [List.cons_append, Expr.readsAll, ih, List.append_assoc]
    rw [Unpack.append, appended, first.addresses, second.addresses]
    rfl
  copies known filled := by
    rw [Unpack.append, List.filterMap_append, List.append_subset] at filled
    exact (first.copies known filled.1).append (second.copies known filled.2)

private theorem enclose (receives : unpack.Receives) (opening closing : String) :
    (unpack.enclose opening closing).Receives :=
  ⟨receives.addresses, receives.copies⟩

private theorem finish (receives : unpack.Receives) {container : Place} {known : List Leaf}
    (message : .value (.root container.base) ∈ known) : Received known (unpack.finish container) := by
  have received :
      (Stmt.perform (.send (.place container) "Get" (.quoted unpack.signature :: unpack.addresses))).received =
        unpack.addresses.filterMap Expr.filled? := rfl
  refine .declare _ (.cons ?_ nofun (receives.copies _ ?_))
  · simpa [Stmt.reads, Expr.send, Expr.reads, Expr.readsAll, receives.addresses] using message
  · exact received ▸ List.subset_append_left _ _

private theorem through {code : String} {type : CType} {copied : Expr → Expr}
    (plain : ∀ expr, (copied expr).reads = expr.reads) : (Unpack.through code type place copied).Receives where
  addresses := rfl
  copies known filled := .assign (by simpa [Unpack.through, plain, Expr.reads, Expr.filled?] using filled)

private theorem scalar (kind : Scalar) (place : Place) : (kind.unpack place).Receives := by
  unfold Scalar.unpack
  split
  · exact through fun _ => rfl
  · exact ⟨rfl, fun _ _ => .nil⟩

private theorem counted {slot : Slot} {type : TypeName} {depth : Nat} {temporary : Variable} {body : List Stmt}
    (inner : ∀ known, .value (.root temporary.name) ∈ known → Received known body) :
    (Unpack.counted slot place type depth temporary body).Receives where
  addresses := rfl
  copies known filled := by
    have both : .count place ∈ known ∧ .value (.root temporary.name) ∈ known := by
      simpa [Unpack.counted, Expr.filled?] using filled
    obtain ⟨count, lent⟩ := both
    have allocated : Received known [.assign (.place place) (.newArray ⟨type, false, 0⟩ (.count place))] :=
      .assign (by simpa [Expr.reads] using count)
    exact allocated.append (.loop count (inner known lent))

end Unpack.Receives

mutual
private theorem Slot.unpack_receives (depth : Nat) (place : Place) (type : TypeName) : (slot : Slot) →
    (slot.unpack depth place type).Receives
  | .scalar kind => .scalar kind place
  | .variant | .boxed _ => .through fun _ => by simp [Expr.reads]
  | .scalars kind => by
    rw [Slot.unpack]
    split
    · exact .counted fun known lent => (Unpack.Receives.scalar kind _).finish lent
    · exact .counted fun known lent => .assign (by simpa [Expr.reads, Place.base] using lent)
  | .struct fields => (Fields.unpack_receives depth place type.scope fields).enclose "(" ")"
  | .structs fields =>
    .counted fun known lent => ((Fields.unpack_receives (depth + 1) _ type.scope fields).enclose "(" ")").finish lent
  | .dict key value =>
    have unpacked := (Unpack.Receives.scalar key ((place.element depth).field "key")).append
      (Slot.unpack_receives (depth + 1) ((place.element depth).field "value") _ value)
    .counted fun known lent => (unpacked.enclose "\x7b" "\x7d").finish lent

private theorem Fields.unpack_receives (depth : Nat) (place : Place) (scope : List String) : (fields : Fields) →
    (fields.unpack depth place scope).Receives
  | .nil => ⟨rfl, fun _ _ => .nil⟩
  | .cons name slot rest =>
    (Slot.unpack_receives depth (place.field name) (slot.elementType scope name) slot).append
      (Fields.unpack_receives depth place scope rest)
end

/-- At the beginning only the message can be read. -/
theorem Slot.get_receives (slot : Slot) (container : Place) (name : String) (declared : Bool) (depth : Nat) :
    Received [.value (.root container.base)] (slot.get container name declared depth) := by
  have moved : Received [.value (.root container.base)] (slot.get container name false depth) := by
    cases assigned : slot.isAssigned with
    | false =>
      rw [Slot.get_eq assigned]
      exact (Slot.unpack_receives depth (.root name) _ slot).finish (List.mem_singleton_self _)
    | true =>
      rw [Slot.get_assigned assigned]
      exact .assign (List.Subset.refl _)
  cases declared with
  | false => exact moved
  | true => exact .declare _ moved

end BusStub
