import BusStub.Proofs.Deliveries
import BusStub.Proofs.Execution
import BusStub.Proofs.LocalNames
import BusStub.Proofs.Receipts

/-! Code that moves one value is well-scoped, whatever the type of the value, the names of the two sides and the first
counter are; and code that takes one out of a message fills it in completely. -/

namespace BusStub
open Code

/-- Code that moves a value with counters from `depth` on. No block declares a name twice; every variable but those in
`own` is a temporary that its block hands to one call, with only statements of the given kind before it; and loops are
numbered from the outside in, with no index but their counters. -/
structure WellScoped (depth : Nat) (own : List String) (early : Stmt → Bool) (block : List Stmt) : Prop where
  scopes : ∀ scope ∈ declared block :: observe Stmt.scopes block, scope.Nodup
  hands : HandsAll early own block
  numbered : Numbered depth [] block

/-- A run of the block, which only copies, fills in the value called `name`: each part that is kept is written once, and
each array is made once, in the size that was received for it, before anything is written into it. -/
structure FillsIn (type : BusType) (name : String) (block : List Stmt) : Prop where
  copying : Copying block
  fills : ∀ (sizes : Place → Nat) (turn : Nat → Nat),
    Fills ((Slot.of type).parts Slot.isAtom sizes (.root name)) ((Slot.of type).parts Slot.isCounted sizes (.root name))
      (Stmt.eventsAll sizes turn block)
  once : ∀ (sizes : Place → Nat),
    ((Slot.of type).parts Slot.isAtom sizes (.root name)).Nodup ∧
      ((Slot.of type).parts Slot.isCounted sizes (.root name)).Nodup
  orderly : ∀ (sizes : Place → Nat) (turn : Nat → Nat), Orderly [] (Stmt.eventsAll sizes turn block)

namespace Slot

variable (type : BusType) (container text : String) (depth : Nat)

theorem set_wellScoped :
    WellScoped depth [] Stmt.isFilling ((Slot.of type).set (.root container) (.root text) depth) where
  scopes := by
    have declares := Slot.set_declares type (.root container) text depth
    refine List.forall_mem_cons.mpr ⟨?_, declares.inside.mpr nofun⟩
    rw [declares.here]
    exact (Slot.tails_nodup Slot.bufferTails_tailed type).map fun _ _ => temporary_inj
  hands := Slot.set_hands type (.root container) text depth
  numbered := Slot.set_numbered _ container depth text

theorem get_wellScoped (declared : Bool) :
    WellScoped depth (if declared then (Slot.of type).localNames text else []) Stmt.isDeclaration
      ((Slot.of type).get (.root container) text declared depth) where
  scopes := by
    have declares := Slot.get_declares type (.root container) text declared depth
    refine List.forall_mem_cons.mpr ⟨?_, declares.inside.mpr nofun⟩
    have apart := Slot.names_nodup Slot.borrowTails_tailed type text
    have locals :
        (if declared then (Slot.of type).localNames text else []).Sublist ((Slot.of type).localNames text) := by
      split
      · exact List.Sublist.refl _
      · exact List.nil_sublist _
    rw [declares.here]
    exact apart.sublist (locals.append (Slot.borrowed_sublist _ text))
  hands := Slot.get_hands type (.root container) text declared depth
  numbered := Slot.get_numbered _ container depth text declared

theorem get_fillsIn (declared : Bool) :
    FillsIn type text ((Slot.of type).get (.root container) text declared depth) where
  copying := Slot.get_copying _ (.root container) text declared depth
  fills sizes turn := (Slot.get_delivers _ (.root container) text declared depth sizes turn).fills
  once sizes := ⟨Slot.parts_nodup Slot.isAtom sizes _ type, Slot.parts_nodup Slot.isCounted sizes _ type⟩
  orderly sizes turn := (Slot.get_delivers _ (.root container) text declared depth sizes turn).orderly [] nofun

end Slot

/-- Values of every type move in scope, into a message and out of it. Code that takes one out, with its variables
declared or not, can read only the message at the beginning, and fills in the whole value. -/
theorem values_move_in_scope (type : BusType) (container text : String) (depth : Nat) :
    WellScoped depth [] Stmt.isFilling ((Slot.of type).set (.root container) (.root text) depth) ∧
    ∀ declared : Bool,
      let block := (Slot.of type).get (.root container) text declared depth
      WellScoped depth (if declared then (Slot.of type).localNames text else []) Stmt.isDeclaration block ∧
        Received [.value (.root container)] block ∧ FillsIn type text block :=
  ⟨Slot.set_wellScoped type container text depth, fun declared =>
    ⟨Slot.get_wellScoped type container text depth declared, Slot.get_receives _ (.root container) text declared depth,
      Slot.get_fillsIn type container text depth declared⟩⟩

end BusStub
