import BusStub.Proofs.Execution
import BusStub.Proofs.FunctionScopes
import BusStub.Proofs.PlanMembers

/-! Setting a property. The function goes through the branches of all properties. Each is passed by unless the request
is for its property; the one that is not ends the run, in one of three ways. -/

namespace BusStub
open Code

namespace Code

/-- What a statement releases. -/
def Stmt.released? : Stmt → Option Expr
  | .delete pointer | .deleteArray pointer => some pointer
  | _ => none

theorem Stmt.released?_copying {stmt : Stmt} (copying : stmt.isCopying = true) : stmt.released? = none := by
  cases stmt <;> first | rfl | cases copying

namespace Outcome

/-- The run has ended with a status. -/
def Returns (status : String) : Outcome → Prop
  | .returns value _ => value = .constant status
  | _ => False

/-- What has been done by the end. -/
def steps : Outcome → List Stmt
  | .goes steps | .returns _ steps => steps
  | .unknown => []

end Outcome
end Code

/-- Values are read after some declarations, by one statement; what follows only copies. -/
theorem Slot.get_reads (slot : Slot) (container : Place) (name : String) :
    ∃ (vs : List Variable) (read : Stmt) (copies : List Stmt),
      slot.get container name false 0 = vs.map .declare ++ read :: copies ∧ read.drained? = some container ∧
      read.isCopying = true ∧ Copying copies ∧
      ∀ (request : Request) (turns : List Stmt → Place → Nat) (steps : List Stmt),
        request.exec turns read steps = .goes (steps ++ [read]) := by
  cases assigned : slot.isAssigned with
  | false =>
    have shape : slot.get container name false 0 =
        (slot.unpack 0 (.root name) (slot.elementType [] name)).finish container := by
      rw [Slot.get_eq assigned]
      rfl
    exact ⟨_, _, _, shape, rfl, rfl, slot.unpack_copying 0 (.root name) _, fun _ _ _ => rfl⟩
  | true =>
    exact ⟨[], _, [], Slot.get_assigned assigned _ _ _ _, rfl, rfl, .nil, fun _ _ _ => rfl⟩

namespace Request

variable {request : Request} {turns : List Stmt → Place → Nat}

theorem execAll_declare (vs : List Variable) (steps : List Stmt) :
    request.execAll turns (vs.map .declare) steps = .goes (steps ++ vs.map .declare) := by
  induction vs generalizing steps with
  | nil => rw [List.map_nil, execAll, List.append_nil]
  | cons v rest ih => rw [List.map_cons, execAll, exec, Outcome.andThen, ih, List.append_assoc, List.singleton_append]

end Request

namespace Service

/-- What is done about a request for the property. -/
def answer (property : TypedProperty) : List Stmt :=
  if property.property.writable then
    ((valueCheck? property).toList.map fun check => .branch check [.ret (.name "ER_BUS_BAD_VALUE")]) ++
    (if property.slot.isCounted then [.deleteArray (.name property.name)] else []) ++
    property.slot.get (.root "val") property.name false 0 ++ [.ret (.name "ER_OK")]
  else [accessDenied]

theorem setBranch_eq (property : TypedProperty) : setBranch property = .branch (asksFor property) (answer property) :=
  rfl

/-- The steps give a property a new value: all belong to its branch, nothing but its own old value is released, and that
happens once, before the new value is read for the first time. -/
structure Stores (property : TypedProperty) (steps : List Stmt) : Prop where
  own : steps ⊆ (setBranch property).within
  released : steps.filterMap Stmt.released? = if property.slot.isCounted then [.name property.name] else []
  order : ∃ before read after, steps = before ++ read :: after ∧ read.drained? = some (.root "val") ∧
    (∀ step ∈ before, step.drained? ≠ some (.root "val")) ∧
    before.filterMap Stmt.released? = steps.filterMap Stmt.released?

variable {request : Request} {turns : List Stmt → Place → Nat} {property : TypedProperty}

theorem exec_status {status : String} (known : isConstantName status = true) (steps : List Stmt) :
    request.exec turns (.ret (.name status)) steps = .returns (.constant status) steps := by
  rw [Request.exec, Request.eval, Request.named_constant known]

theorem answer_denied (fixed : property.property.writable = false) :
    request.execAll turns (answer property) [] = .returns (.constant "ER_BUS_PROPERTY_ACCESS_DENIED") [] := by
  rw [answer, fixed, if_neg Bool.false_ne_true, Request.execAll, accessDenied, exec_status rfl]
  rfl

/-- The property cannot take the value of the request. -/
def Refuses (property : TypedProperty) (request : Request) : Prop :=
  property.type ≠ .variant ∧ request.type ≠ property.type

def checks (property : TypedProperty) : List Stmt :=
  (valueCheck? property).toList.map fun check => .branch check [.ret (.name "ER_BUS_BAD_VALUE")]

def release (property : TypedProperty) : List Stmt :=
  if property.slot.isCounted then [.deleteArray (.name property.name)] else []

theorem answer_writable (writable : property.property.writable = true) :
    answer property = checks property ++ (release property ++ property.slot.get (.root "val") property.name false 0 ++
      [.ret (.name "ER_OK")]) := by
  rw [answer, if_pos writable]
  simp only [checks, release, List.append_assoc]

theorem checks_run (typed : property.property.signature = property.type.text) (steps : List Stmt) :
    (Refuses property request → request.execAll turns (checks property) steps =
      .returns (.constant "ER_BUS_BAD_VALUE") steps) ∧
    (¬ Refuses property request → request.execAll turns (checks property) steps = .goes steps) := by
  rcases Request.eval_valueCheck request typed with ⟨variant, unchecked⟩ | ⟨check, other, checked, value⟩
  · refine ⟨fun refuses => absurd variant refuses.1, fun _ => ?_⟩
    rw [checks, unchecked]
    rfl
  · have shape : checks property = [.branch check [.ret (.name "ER_BUS_BAD_VALUE")]] := by
      rw [checks, checked]
      rfl
    constructor
    · intro refuses
      rw [shape, Request.execAll, Request.exec, value, decide_eq_true refuses.2]
      simp only [Request.execAll, exec_status (rfl : isConstantName "ER_BUS_BAD_VALUE" = true)]
      rfl
    · intro takes
      have same : ¬ request.type ≠ property.type := fun different => takes ⟨other, different⟩
      rw [shape, Request.execAll, Request.exec, value, decide_eq_false same]
      rfl

theorem release_run (property : TypedProperty) (steps : List Stmt) :
    request.execAll turns (release property) steps = .goes (steps ++ release property) := by
  unfold release
  split
  · rfl
  · rw [Request.execAll, List.append_nil]

theorem released_release (property : TypedProperty) : (release property).filterMap Stmt.released? =
    if property.slot.isCounted then [.name property.name] else [] := by
  unfold release
  split <;> rfl

theorem undrained_release (property : TypedProperty) : ∀ step ∈ release property, step.drained? = none := by
  unfold release
  split
  · exact List.forall_mem_singleton.mpr rfl
  · exact nofun

/-- Of all that is done to give the property a new value, only the first step releases anything. -/
theorem renewal_run (request : Request) (turns : List Stmt → Place → Nat) (property : TypedProperty)
    (steps : List Stmt) : ∃ done,
    request.execAll turns (release property ++ property.slot.get (.root "val") property.name false 0 ++
      [.ret (.name "ER_OK")]) steps = .returns (.constant "ER_OK") (steps ++ done) ∧
    done.filterMap Stmt.released? = (if property.slot.isCounted then [.name property.name] else []) ∧
    ∃ before read after, done = before ++ read :: after ∧ read.drained? = some (.root "val") ∧
      (∀ step ∈ before, step.drained? ≠ some (.root "val")) ∧
      before.filterMap Stmt.released? = done.filterMap Stmt.released? := by
  obtain ⟨vs, read, copies, shape, drains, reading, copying, reads⟩ :=
    property.slot.get_reads (.root "val") property.name
  obtain ⟨more, inside, copied⟩ := Request.execAll_copying request turns copying
    (steps ++ release property ++ vs.map .declare ++ [read])
  have unreleased : (vs.map Stmt.declare).filterMap Stmt.released? = [] ∧
      (read :: more).filterMap Stmt.released? = [] := by
    refine ⟨by simp [Stmt.released?], List.filterMap_eq_nil_iff.mpr (List.forall_mem_cons.mpr ⟨?_, ?_⟩)⟩
    · exact Stmt.released?_copying reading
    · exact fun step later => Stmt.released?_copying (copying step (inside later))
  refine ⟨release property ++ vs.map .declare ++ read :: more, ?_, ?_, release property ++ vs.map .declare, read, more,
    rfl, drains, ?_, ?_⟩
  · rw [Request.execAll_append, Request.execAll_append, release_run, Outcome.andThen, shape, Request.execAll_append,
      Request.execAll_declare, Outcome.andThen, Request.execAll, reads, Outcome.andThen, copied, Outcome.andThen,
      Request.execAll, exec_status rfl]
    simp [Outcome.andThen]
  · simp only [List.filterMap_append, unreleased, released_release, List.append_nil]
  · refine List.forall_mem_append.mpr ⟨fun step first => ?_, List.forall_mem_map.mpr fun _ _ => ?_⟩
    · rw [undrained_release property step first]
      exact (Option.some_ne_none _).symm
    · exact (Option.some_ne_none _).symm
  · simp only [List.filterMap_append, unreleased, List.append_nil]

theorem answer_refused (turns : List Stmt → Place → Nat) (typed : property.property.signature = property.type.text)
    (writable : property.property.writable = true) (refuses : Refuses property request) :
    request.execAll turns (answer property) [] = .returns (.constant "ER_BUS_BAD_VALUE") [] := by
  rw [answer_writable writable, Request.execAll_append, (checks_run typed []).1 refuses]
  rfl

theorem answer_stores (turns : List Stmt → Place → Nat) (typed : property.property.signature = property.type.text)
    (writable : property.property.writable = true) (takes : ¬ Refuses property request) :
    ∃ done, request.execAll turns (answer property) [] = .returns (.constant "ER_OK") done ∧ Stores property done := by
  obtain ⟨done, run, released, order⟩ := renewal_run request turns property []
  rw [List.nil_append] at run
  have whole : request.execAll turns (answer property) [] = .returns (.constant "ER_OK") done := by
    rw [answer_writable writable, Request.execAll_append, (checks_run typed []).2 takes]
    exact run
  obtain ⟨_, inside, rfl⟩ := whole ▸ Request.execAll_adds (answer property) []
  refine ⟨_, whole, ?_, released, order⟩
  rw [setBranch_eq]
  exact List.subset_cons_of_subset _ inside

section
variable {properties : List TypedProperty}

/-- Requests pass by the properties that they are not for. -/
theorem exec_passes (interface : Literal property.interface) (name : Literal property.name)
    (other : ¬ request.Asks property) (steps : List Stmt) :
    request.exec turns (setBranch property) steps = .goes steps := by
  rw [setBranch_eq, Request.exec, Request.eval_asksFor interface name, decide_eq_false other]

theorem execAll_passes (literal : ∀ property ∈ properties, Literal property.interface ∧ Literal property.name)
    (others : ∀ property ∈ properties, ¬ request.Asks property) (rest steps : List Stmt) :
    request.execAll turns (properties.map setBranch ++ rest) steps = request.execAll turns rest steps := by
  induction properties with
  | nil => rfl
  | cons property later ih =>
    obtain ⟨⟨interface, name⟩, literal⟩ := List.forall_mem_cons.mp literal
    obtain ⟨other, others⟩ := List.forall_mem_cons.mp others
    rw [List.map_cons, List.cons_append, Request.execAll, exec_passes interface name other, Outcome.andThen]
    exact ih literal others

/-- The first property that a request is for answers it. -/
theorem execAll_finds (literal : ∀ property ∈ properties, Literal property.interface ∧ Literal property.name)
    (nodup : (properties.map TypedProperty.name).Nodup) (member : property ∈ properties)
    (asks : request.Asks property) {value : Value} {done : List Stmt} {steps : List Stmt}
    (answers : request.execAll turns (answer property) steps = .returns value done) (rest : List Stmt) :
    request.execAll turns (properties.map setBranch ++ rest) steps = .returns value done := by
  obtain ⟨before, after, rfl⟩ := List.append_of_mem member
  rw [List.map_append, List.nodup_append] at nodup
  have others : ∀ other ∈ before, ¬ request.Asks other := by
    intro other inside asks'
    exact nodup.2.2 other.name (List.mem_map_of_mem inside) property.name List.mem_cons_self (asks'.2.symm.trans asks.2)
  have own := literal property member
  rw [List.map_append, List.map_cons, List.append_assoc, List.cons_append,
    execAll_passes (fun other inside => literal other (List.mem_append_left _ inside)) others, Request.execAll,
    setBranch_eq, Request.exec, Request.eval_asksFor own.1 own.2, decide_eq_true asks]
  simp only [answers]
  rfl

end

/-- Of the functions in the service's source, the one called `Set` is the one that sets properties. -/
theorem source_set {plan : Plan} (nonempty : plan.properties ≠ []) :
    (functions (source plan)).filter (·.prototype.name = "Set") = [setDefinition plan] := by
  have ended (stem ending : String) (last : ending.toList.getLast?.any (· ≠ 't') = true) : stem ++ ending ≠ "Set" := by
    intro same
    have chars := congrArg (fun text : String => text.toList.getLast?) same
    cases found : ending.toList.getLast? with
    | none => simp [found] at last
    | some c =>
      simp only [String.toList_append, List.getLast?_append, found, Option.some_or] at chars
      obtain rfl : c = 't' := Option.some.inj chars
      simp [found] at last
  have sent (name : String) : "Send" ++ name ≠ "Set" := by
    intro same
    have chars := congrArg (fun text : String => text.toList[2]?) same
    simp [String.toList_append] at chars
  have tilde (name : String) : "~" ++ name ≠ "Set" := by
    intro same
    have chars := congrArg (fun text : String => text.toList.head?) same
    simp [String.toList_append] at chars
  have replied (method : TypedMethod) :
      ∀ definition ∈ (if method.expectsReply then [replyDefinition plan method] else []),
        definition.prototype.name ≠ "Set" := by
    split
    · exact List.forall_mem_singleton.mpr (ended method.name "MethodReply" (by decide))
    · exact nofun
  have others : ∀ definition ∈
      [constructorDefinition plan, destructorDefinition plan, initializeDefinition plan] ++
      plan.methods.flatMap (fun method => handlerDefinition plan method ::
        if method.expectsReply then [replyDefinition plan method] else []) ++
      plan.signals.flatMap (fun signal => [sendDefinition plan signal]), definition.prototype.name ≠ "Set" := by
    simp only [List.forall_mem_append, List.forall_mem_cons, List.forall_mem_flatMap]
    have started : "Initialize" ≠ "Set" := by decide
    refine ⟨⟨⟨?_, tilde _, started, nofun⟩, fun method _ => ⟨?_, replied method⟩⟩, fun _ _ => ⟨sent _, nofun⟩⟩
    · exact ended plan.name "Service" (by decide)
    · exact ended method.name "Handler" (by decide)
  rw [Plan.service_functions, if_neg (by simpa using nonempty), List.filter_append,
    List.filter_eq_nil_iff.mpr fun definition inside => by simpa using others definition inside]
  rfl

/-- The ways in which a request for the property is answered. -/
inductive Answered (property : TypedProperty) (request : Request) : Outcome → Prop where
  | denied (fixed : property.property.writable = false) :
    Answered property request (.returns (.constant "ER_BUS_PROPERTY_ACCESS_DENIED") [])
  | refused (writable : property.property.writable = true) (refuses : Refuses property request) :
    Answered property request (.returns (.constant "ER_BUS_BAD_VALUE") [])
  | stored {done : List Stmt} (writable : property.property.writable = true) (takes : ¬ Refuses property request)
    (stores : Stores property done) : Answered property request (.returns (.constant "ER_OK") done)

/-- What has to become of a request to set a property of the object. -/
structure Answers (node : ObjectNode) (request : Request) (outcome : Outcome) : Prop where
  unknown : outcome.Returns "ER_BUS_NO_SUCH_PROPERTY" ↔
    ∀ part ∈ node.interface.concrete, part.name = request.interface →
      ∀ property ∈ part.properties, property.name ≠ request.property
  known : ∀ part ∈ node.interface.concrete, part.name = request.interface →
    ∀ property ∈ part.properties, property.name = request.property →
      ∃ type, BusType.parse property.signature = .ok type ∧
        (outcome.Returns "ER_BUS_PROPERTY_ACCESS_DENIED" ↔ property.writable = false) ∧
        (property.writable = true →
          (outcome.Returns "ER_BUS_BAD_VALUE" ↔ type ≠ .variant ∧ request.type ≠ type) ∧
          (¬ (type ≠ .variant ∧ request.type ≠ type) →
            outcome.Returns "ER_OK" ∧ Stores ⟨property, part.name, type⟩ outcome.steps))
  untouched : ¬ outcome.Returns "ER_OK" → outcome.steps = []

theorem returns_iff {status status' : String} {steps : List Stmt} :
    (Outcome.returns (.constant status) steps).Returns status' ↔ status = status' := by
  simp [Outcome.Returns]

/-- Each way of answering is told by its status. -/
theorem Answered.statuses {outcome : Outcome} (answer : Answered property request outcome) :
    ¬ outcome.Returns "ER_BUS_NO_SUCH_PROPERTY" ∧
    (outcome.Returns "ER_BUS_PROPERTY_ACCESS_DENIED" ↔ property.property.writable = false) ∧
    (property.property.writable = true →
      (outcome.Returns "ER_BUS_BAD_VALUE" ↔ Refuses property request) ∧
      (¬ Refuses property request → outcome.Returns "ER_OK" ∧ Stores property outcome.steps)) ∧
    (¬ outcome.Returns "ER_OK" → outcome.steps = []) := by
  cases answer with
  | denied fixed => simp [returns_iff, fixed, Outcome.steps]
  | refused writable refuses => simp [returns_iff, writable, refuses, Outcome.steps]
  | stored writable takes stores => simp [returns_iff, writable, takes, stores, Outcome.steps]

section
variable {plan : Plan}

theorem set_finds (literal : ∀ property ∈ plan.properties, Literal property.interface ∧ Literal property.name)
    (nodup : (plan.properties.map TypedProperty.name).Nodup) (typed : property.property.signature = property.type.text)
    (member : property ∈ plan.properties) (asks : request.Asks property) :
    Answered property request (request.run turns (setDefinition plan)) := by
  cases writable : property.property.writable with
  | false =>
    rw [Request.run, setDefinition, execAll_finds literal nodup member asks (answer_denied writable)]
    exact .denied writable
  | true =>
    by_cases refuses : Refuses property request
    · have refused := answer_refused turns typed writable refuses
      rw [Request.run, setDefinition, execAll_finds literal nodup member asks refused]
      exact .refused writable refuses
    · obtain ⟨done, run, stores⟩ := answer_stores turns typed writable refuses
      rw [Request.run, setDefinition, execAll_finds literal nodup member asks run]
      exact .stored writable refuses stores

theorem set_passes (literal : ∀ property ∈ plan.properties, Literal property.interface ∧ Literal property.name)
    (others : ∀ property ∈ plan.properties, ¬ request.Asks property) :
    request.run turns (setDefinition plan) = .returns (.constant "ER_BUS_NO_SUCH_PROPERTY") [] := by
  rw [Request.run, setDefinition, execAll_passes literal others, Request.execAll, noSuchProperty, exec_status rfl]
  rfl

variable {node : ObjectNode}
  (listed : List.Forall₂ TypedProperty.Of (node.interface.concrete.flatMap (Interface.among Interface.properties))
    plan.properties)

include listed

theorem planned {part : Interface} (concrete : part ∈ node.interface.concrete) {property : Property}
    (inside : property ∈ part.properties) :
    ∃ type, BusType.parse property.signature = .ok type ∧ ⟨property, part.name, type⟩ ∈ plan.properties := by
  have member : (part, property) ∈ node.interface.concrete.flatMap (Interface.among Interface.properties) :=
    List.mem_flatMap.mpr ⟨part, concrete, List.mem_map_of_mem inside⟩
  obtain ⟨typed, present, same⟩ := exists_of_forall₂ listed.flip member
  have shape : (⟨property, part.name, typed.type⟩ : TypedProperty) = typed :=
    congrArg₂ (TypedProperty.mk · · typed.type) same.property.symm same.interface.symm
  exact ⟨typed.type, same.type, shape ▸ present⟩

theorem declared {typed : TypedProperty} (member : typed ∈ plan.properties) :
    ∃ part ∈ node.interface.concrete, ∃ property ∈ part.properties, typed.Of (part, property) := by
  obtain ⟨_, inside, same⟩ := exists_of_forall₂ listed member
  obtain ⟨part, concrete, inside⟩ := List.mem_flatMap.mp inside
  obtain ⟨property, declared, rfl⟩ := List.mem_map.mp inside
  exact ⟨part, concrete, property, declared, same⟩

theorem set_answers (nodup : (plan.properties.map TypedProperty.name).Nodup)
    (literal : ∀ part ∈ node.interface.concrete,
      Literal part.name ∧ ∀ property ∈ part.properties, Literal property.name) :
    Answers node request (request.run turns (setDefinition plan)) := by
  have plain : ∀ typed ∈ plan.properties, Literal typed.interface ∧ Literal typed.name := by
    intro typed member
    obtain ⟨part, concrete, property, inside, same⟩ := declared listed member
    rw [TypedProperty.name, same.interface, same.property]
    exact ⟨(literal part concrete).1, (literal part concrete).2 property inside⟩
  have answered (part : Interface) (concrete : part ∈ node.interface.concrete) (called : part.name = request.interface)
      (property : Property) (inside : property ∈ part.properties) (called' : property.name = request.property) :
      ∃ type, BusType.parse property.signature = .ok type ∧
        Answered ⟨property, part.name, type⟩ request (request.run turns (setDefinition plan)) := by
    obtain ⟨type, parsed, member⟩ := planned listed concrete inside
    exact ⟨type, parsed, set_finds plain nodup (BusType.text_of_parse parsed).symm member ⟨called.symm, called'.symm⟩⟩
  have silent (none : ∀ part ∈ node.interface.concrete, part.name = request.interface →
      ∀ property ∈ part.properties, property.name ≠ request.property) :
      request.run turns (setDefinition plan) = .returns (.constant "ER_BUS_NO_SUCH_PROPERTY") [] := by
    refine set_passes plain fun typed member asks => ?_
    obtain ⟨part, concrete, property, inside, same⟩ := declared listed member
    refine none part concrete (same.interface ▸ asks.1.symm) property inside ?_
    rw [asks.2, TypedProperty.name, same.property]
  generalize request.run turns (setDefinition plan) = outcome at answered silent
  refine ⟨⟨?_, ?_⟩, ?_, ?_⟩
  · intro returned part concrete called property inside called'
    obtain ⟨type, -, answer⟩ := answered part concrete called property inside called'
    exact answer.statuses.1 returned
  · intro none
    rw [silent none]
    exact returns_iff.mpr rfl
  · intro part concrete called property inside called'
    obtain ⟨type, parsed, answer⟩ := answered part concrete called property inside called'
    exact ⟨type, parsed, answer.statuses.2.1, answer.statuses.2.2.1⟩
  · intro failed
    by_cases known : ∃ part ∈ node.interface.concrete, part.name = request.interface ∧
        ∃ property ∈ part.properties, property.name = request.property
    · obtain ⟨part, concrete, called, property, inside, called'⟩ := known
      obtain ⟨type, -, answer⟩ := answered part concrete called property inside called'
      exact answer.statuses.2.2.2 failed
    · rw [silent fun part concrete called property inside called' =>
        known ⟨part, concrete, called, property, inside, called'⟩]
      rfl

end

end Service

/-- A stove whose levels are an array, whose owner is fixed, and whose light takes any value. -/
def stove : ObjectNode :=
  let levels : Property := ⟨"levels", "au", .readWrite⟩
  let owner : Property := ⟨"owner", "s", .read⟩
  let tint : Property := ⟨"tint", "v", .write⟩
  let heat : Interface := { name := "home.Heat", properties := [levels, owner] }
  let light : Interface := { name := "home.Light", properties := [tint] }
  { name := "Stove", path := "/stove"
    interface := { name := "Heat__Light", properties := [levels, owner, tint], parents := [heat, light] } }

end BusStub
