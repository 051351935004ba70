import BusStub.Proofs.Exchange
import BusStub.Proofs.Accesses
import BusStub.Proofs.SignatureText
import BusStub.Stub.Service

/-! What the function that sets properties does when it runs. It is called with two names and a value. Conditions are
evaluated as far as these decide them; everything else is only recorded, in the order in which it is done, so that it
can be asked what has been released or read by then, however often loops run. -/

namespace BusStub
open Code

/-- A request to set a property: the two names that come with it, and the type of the value. -/
structure Request where
  interface : String
  property : String
  type : BusType

namespace Code

/-- What an expression comes to. -/
inductive Value where
  | text (text : String)
  | number (value : Int)
  /-- A status or a type identifier. -/
  | constant (name : String)
  | truth (value : Bool)
  deriving DecidableEq

/-- A text that stands for itself when it is quoted. -/
abbrev Literal (text : String) : Prop :=
  '"' ∉ text.toList ∧ '\\' ∉ text.toList

/-- The result of `strcmp`; only its sign has a meaning. -/
def compareTexts (first second : String) : Int :=
  if first = second then 0 else if first < second then -1 else 1

def isConstantName (name : String) : Bool :=
  ["ER_", "ALLJOYN_"].any fun start => start.toList.isPrefixOf name.toList

end Code

namespace Request

variable (request : Request)

/-- Parameters stand for what came with the request, statuses and type identifiers for themselves. -/
def named (name : String) : Option Value :=
  if name = "ifcName" then some (.text request.interface)
  else if name = "propName" then some (.text request.property)
  else if isConstantName name then some (.constant name)
  else none

/-- What is known of the value that comes with the request: its type identifier. -/
def field : Expr → String → Option Value
  | .name "val", "typeId" => some (.constant request.type.typeId)
  | _, _ => none

/-- Texts are compared by `strcmp`, and the value knows whether it has a signature. -/
def called : Expr → List Value → Option Value
  | .name "strcmp", [.text first, .text second] => some (.number (compareTexts first second))
  | .member (.name "val") "HasSignature", [.text signature] => some (.truth (request.type.text = signature))
  | _, _ => none

/-- The second part of a conjunction counts only if the first is true. -/
def combined : Operator → Option Value → Option Value → Option Value
  | .equal, some left, some right => some (.truth (left = right))
  | .unequal, some left, some right => some (.truth (left ≠ right))
  | .conjunction, some (.truth false), _ => some (.truth false)
  | .conjunction, some (.truth true), some (.truth right) => some (.truth right)
  | _, _, _ => none

mutual
/-- The value of an expression, if the request decides it. -/
def eval : Expr → Option Value
  | .name text => request.named text
  | .number value => some (.number value)
  | .quoted text => if Literal text then some (.text text) else none
  | .negation condition => match eval condition with
    | some (.truth value) => some (.truth !value)
    | _ => none
  | .binary operator left right => combined operator (eval left) (eval right)
  | .member object name => request.field object name
  | .call callee args => (evalAll args).bind (request.called callee)
  | .place _ | .count _ | .address _ | .content _ | .arrow _ _ | .newArray _ _ | .newObject _ _ | .cast _ _ => none
termination_by structural expr => expr

def evalAll : List Expr → Option (List Value)
  | [] => some []
  | expr :: rest => (eval expr).bind fun value => (evalAll rest).map (value :: ·)
termination_by structural exprs => exprs
end

end Request

namespace Code

/-- How a run of some statements ends, with all that has been done: it goes on or gives a value, unless that depends on
more than the request. -/
inductive Outcome where
  | goes (steps : List Stmt)
  | returns (value : Value) (steps : List Stmt)
  | unknown

namespace Outcome

/-- Goes on with what comes next, unless the run is over. -/
def andThen : Outcome → (List Stmt → Outcome) → Outcome
  | .goes steps, next => next steps
  | ended, _ => ended

def repeated (body : List Stmt → Outcome) : Nat → List Stmt → Outcome
  | 0, steps => .goes steps
  | count + 1, steps => (body steps).andThen (repeated body count)

end Outcome
end Code

namespace Request

variable (request : Request) (turns : List Stmt → Place → Nat)

mutual
/-- Runs a statement after the steps that have been done. How often a loop runs may depend on all of them. -/
def exec : Stmt → List Stmt → Outcome
  | .branch condition body, steps => match request.eval condition with
    | some (.truth true) => execAll body steps
    | some (.truth false) => .goes steps
    | _ => .unknown
  | .choose condition body otherwise, steps => match request.eval condition with
    | some (.truth true) => execAll body steps
    | some (.truth false) => execAll otherwise steps
    | _ => .unknown
  | .loop _ place body, steps => .repeated (execAll body) (turns steps place) steps
  | .ret value, steps => match request.eval value with
    | some value => .returns value steps
    | none => .unknown
  | .declare v, steps => .goes (steps ++ [.declare v])
  | .define v value, steps => .goes (steps ++ [.define v value])
  | .array v length, steps => .goes (steps ++ [.array v length])
  | .construct v args, steps => .goes (steps ++ [.construct v args])
  | .assign target value, steps => .goes (steps ++ [.assign target value])
  | .perform action, steps => .goes (steps ++ [.perform action])
  | .delete pointer, steps => .goes (steps ++ [.delete pointer])
  | .deleteArray pointer, steps => .goes (steps ++ [.deleteArray pointer])
  | .comment _, steps | .blank, steps => .goes steps
termination_by structural stmt => stmt

def execAll : List Stmt → List Stmt → Outcome
  | [], steps => .goes steps
  | stmt :: rest, steps => (exec stmt steps).andThen (execAll rest)
termination_by structural stmts => stmts
end

/-- What comes of the request when a function is called with it. -/
def run (function : Definition) : Outcome :=
  request.execAll turns function.body []

variable {request : Request} {turns : List Stmt → Place → Nat}

theorem execAll_append (first second : List Stmt) (steps : List Stmt) :
    request.execAll turns (first ++ second) steps =
      (request.execAll turns first steps).andThen (request.execAll turns second) := by
  induction first generalizing steps with
  | nil => rfl
  | cons stmt rest ih =>
    simp only [List.cons_append, execAll]
    cases request.exec turns stmt steps with
    | goes later => exact ih later
    | returns value done => rfl
    | unknown => rfl

end Request

namespace Code.Outcome

/-- By the end, only statements of a list have been done after the given steps. -/
def Adds (allowed steps : List Stmt) : Outcome → Prop
  | .goes later | .returns _ later => ∃ done ⊆ allowed, later = steps ++ done
  | .unknown => True

namespace Adds

variable {allowed steps : List Stmt} {outcome : Outcome} {next : List Stmt → Outcome}

theorem nothing (allowed steps : List Stmt) : ∃ done ⊆ allowed, steps = steps ++ done :=
  ⟨[], List.nil_subset _, (List.append_nil _).symm⟩

theorem mono {more : List Stmt} (adds : outcome.Adds allowed steps) (sub : allowed ⊆ more) :
    outcome.Adds more steps := by
  cases outcome with
  | goes | returns =>
    obtain ⟨done, inside, same⟩ := adds
    exact ⟨done, List.Subset.trans inside sub, same⟩
  | unknown => trivial

theorem andThen (adds : outcome.Adds allowed steps) (later : ∀ steps, (next steps).Adds allowed steps) :
    (outcome.andThen next).Adds allowed steps := by
  cases outcome with
  | goes middle =>
    obtain ⟨done, inside, rfl⟩ := adds
    have adds' := later (steps ++ done)
    rw [Outcome.andThen]
    generalize next (steps ++ done) = last at adds' ⊢
    cases last with
    | goes | returns =>
      obtain ⟨more, inside', rfl⟩ := adds'
      exact ⟨done ++ more, List.append_subset.mpr ⟨inside, inside'⟩, List.append_assoc ..⟩
    | unknown => trivial
  | returns => exact adds
  | unknown => trivial

theorem repeated {body : List Stmt → Outcome} (adds : ∀ steps, (body steps).Adds allowed steps) (count : Nat)
    (steps : List Stmt) : (Outcome.repeated body count steps).Adds allowed steps := by
  induction count generalizing steps with
  | zero => exact nothing allowed steps
  | succ count ih => exact (adds steps).andThen ih

end Adds
end Code.Outcome

namespace Request

variable {request : Request} {turns : List Stmt → Place → Nat}

mutual
/-- A run does nothing but what is written. -/
theorem exec_adds : (stmt : Stmt) → (steps : List Stmt) → (request.exec turns stmt steps).Adds stmt.within steps
  | .branch condition body, steps => by
    rw [exec]
    split
    · exact (execAll_adds body steps).mono (List.subset_cons_self _ _)
    · exact Outcome.Adds.nothing _ steps
    · trivial
  | .choose condition body otherwise, steps => by
    rw [exec]
    split
    · exact (execAll_adds body steps).mono (List.subset_cons_of_subset _ (List.subset_append_left _ _))
    · exact (execAll_adds otherwise steps).mono (List.subset_cons_of_subset _ (List.subset_append_right _ _))
    · trivial
  | .loop _ place body, steps => by
    rw [exec]
    exact .repeated (fun steps => (execAll_adds body steps).mono (List.subset_cons_self _ _)) _ steps
  | .ret value, steps => by
    rw [exec]
    split
    · exact Outcome.Adds.nothing _ steps
    · trivial
  | .declare _, steps | .define _ _, steps | .array _ _, steps | .construct _ _, steps | .assign _ _, steps
  | .perform _, steps | .delete _, steps | .deleteArray _, steps => ⟨[_], List.Subset.refl _, rfl⟩
  | .comment _, steps | .blank, steps => Outcome.Adds.nothing _ steps

theorem execAll_adds : (block : List Stmt) → (steps : List Stmt) →
    (request.execAll turns block steps).Adds (Stmt.withinAll block) steps
  | [], steps => Outcome.Adds.nothing _ steps
  | stmt :: rest, steps => by
    rw [execAll]
    apply ((exec_adds stmt steps).mono (List.subset_append_left _ _)).andThen
    intro later
    exact (execAll_adds rest later).mono (List.subset_append_right _ _)
end

end Request

namespace Code

/-- A statement that neither ends the function nor releases anything. -/
def Stmt.isCopying : Stmt → Bool
  | .declare _ | .assign _ _ | .perform _ | .loop _ _ _ => true
  | _ => false

/-- All statements of a block copy, at any depth. -/
def Copying (block : List Stmt) : Prop :=
  ∀ stmt ∈ Stmt.withinAll block, stmt.isCopying = true

namespace Copying

variable {first second body : List Stmt} {stmt : Stmt}

theorem nil : Copying [] :=
  nofun

theorem append (one : Copying first) (other : Copying second) : Copying (first ++ second) := by
  intro stmt inside
  rw [Stmt.withinAll_append] at inside
  exact (List.mem_append.mp inside).elim (one stmt) (other stmt)

theorem cons (one : Copying [stmt]) (other : Copying second) : Copying (stmt :: second) :=
  one.append other

theorem single (alone : stmt.within = [stmt]) (copying : stmt.isCopying = true) : Copying [stmt] := by
  intro inner inside
  rw [Stmt.withinAll, alone, Stmt.withinAll, List.append_nil, List.mem_singleton] at inside
  rwa [inside]

theorem loop {depth : Nat} {place : Place} (inner : Copying body) : Copying [.loop depth place body] := by
  intro stmt inside
  rw [Stmt.withinAll, Stmt.within, Stmt.withinAll, List.append_nil, List.mem_cons] at inside
  rcases inside with rfl | inside
  · rfl
  · exact inner stmt inside

theorem declare (vs : List Variable) : Copying (vs.map .declare) := by
  induction vs with
  | nil => exact nil
  | cons v rest ih => exact cons (single rfl rfl) ih

end Copying
end Code

namespace Unpack

theorem finish_copying {unpack : Unpack} (copying : Copying unpack.copies) (container : Place) :
    Copying (unpack.finish container) :=
  (Copying.declare unpack.temporaries).append (.cons (.single rfl rfl) copying)

theorem counted_copying {slot : Slot} {place : Place} {type : TypeName} {depth : Nat} {temporary : Variable}
    {body : List Stmt} (copying : Copying body) :
    Copying (Unpack.counted slot place type depth temporary body).copies :=
  .cons (.single rfl rfl) (.loop copying)

end Unpack

theorem Scalar.unpack_copying (kind : Scalar) (place : Place) : Copying (kind.unpack place).copies := by
  unfold Scalar.unpack
  split
  · exact .single rfl rfl
  · exact .nil

mutual
theorem Slot.unpack_copying (depth : Nat) (place : Place) (type : TypeName) :
    (slot : Slot) → Copying (slot.unpack depth place type).copies
  | .scalar kind => kind.unpack_copying place
  | .variant | .boxed _ => .single rfl rfl
  | .scalars kind => by
    rw [Slot.unpack]
    split
    · exact Unpack.counted_copying (Unpack.finish_copying (kind.unpack_copying _) _)
    · exact Unpack.counted_copying (.single rfl rfl)
  | .struct fields => Fields.unpack_copying depth place type.scope fields
  | .structs fields => by
    have copied : Copying ((fields.unpack (depth + 1) (place.element depth) type.scope).enclose "(" ")").copies :=
      Fields.unpack_copying (depth + 1) (place.element depth) type.scope fields
    exact Unpack.counted_copying (Unpack.finish_copying copied _)
  | .dict key value => by
    have copied := (key.unpack_copying ((place.element depth).field "key")).append
      (Slot.unpack_copying (depth + 1) ((place.element depth).field "value") (value.elementType type.scope "value")
        value)
    exact Unpack.counted_copying (Unpack.finish_copying copied _)

theorem Fields.unpack_copying (depth : Nat) (place : Place) (scope : List String) :
    (fields : Fields) → Copying (fields.unpack depth place scope).copies
  | .nil => .nil
  | .cons name slot rest =>
    (Slot.unpack_copying depth (place.field name) _ slot).append (Fields.unpack_copying depth place scope rest)
end

theorem Slot.get_copying (slot : Slot) (container : Place) (name : String) (declared : Bool) (depth : Nat) :
    Copying (slot.get container name declared depth) := by
  have locals : Copying (if declared then (slot.locals name).map .declare else []) := by
    split
    · exact .declare _
    · exact .nil
  cases assigned : slot.isAssigned with
  | false =>
    rw [Slot.get_eq assigned]
    exact locals.append (Unpack.finish_copying (slot.unpack_copying depth (.root name) _) container)
  | true =>
    rw [Slot.get_assigned assigned]
    exact locals.append (.single rfl rfl)

namespace Request

variable {request : Request} {turns : List Stmt → Place → Nat}

theorem repeated_goes {body : List Stmt → Outcome} (goes : ∀ steps, ∃ later, body steps = .goes later) (count : Nat)
    (steps : List Stmt) : ∃ later, Outcome.repeated body count steps = .goes later := by
  induction count generalizing steps with
  | zero => exact ⟨steps, rfl⟩
  | succ count ih =>
    obtain ⟨middle, first⟩ := goes steps
    rw [Outcome.repeated, first]
    exact ih middle

mutual
/-- What only copies goes on, however often its loops run. -/
theorem exec_goes : (stmt : Stmt) → (∀ inner ∈ stmt.within, inner.isCopying = true) → (steps : List Stmt) →
    ∃ later, request.exec turns stmt steps = .goes later
  | .loop _ _ body, copying, steps =>
    repeated_goes (execAll_goes body fun stmt inside => copying stmt (List.mem_cons_of_mem _ inside)) _ steps
  | .declare _, _, _ | .define _ _, _, _ | .array _ _, _, _ | .construct _ _, _, _ | .assign _ _, _, _
  | .perform _, _, _ | .delete _, _, _ | .deleteArray _, _, _ | .comment _, _, _ | .blank, _, _ => ⟨_, rfl⟩
  | .ret _, copying, _ | .branch _ _, copying, _ | .choose _ _ _, copying, _ =>
    nomatch copying _ List.mem_cons_self

theorem execAll_goes : (block : List Stmt) → Copying block → (steps : List Stmt) →
    ∃ later, request.execAll turns block steps = .goes later
  | [], _, steps => ⟨steps, rfl⟩
  | stmt :: rest, copying, steps => by
    obtain ⟨middle, first⟩ := exec_goes stmt (fun inner inside => copying inner (List.mem_append_left _ inside)) steps
    rw [execAll, first]
    exact execAll_goes rest (fun inner inside => copying inner (List.mem_append_right _ inside)) middle
end

theorem execAll_copying (request : Request) (turns : List Stmt → Place → Nat) {block : List Stmt}
    (copying : Copying block) (steps : List Stmt) :
    ∃ done ⊆ Stmt.withinAll block, request.execAll turns block steps = .goes (steps ++ done) := by
  obtain ⟨later, run⟩ := execAll_goes block copying steps
  obtain ⟨done, inside, rfl⟩ := run ▸ execAll_adds block steps
  exact ⟨done, inside, run⟩

end Request

theorem Code.compareTexts_eq_zero {first second : String} : compareTexts first second = 0 ↔ first = second := by
  unfold compareTexts
  split
  next same => simp [same]
  next different => split <;> simp [different]

theorem Scalar.typeId_inj {first second : Scalar} (same : first.typeId = second.typeId) : first = second := by
  revert same
  cases first <;> cases second <;> decide

theorem Scalar.arrayTypeId_inj {first second : Scalar} (plain : first.isText = false)
    (same : second.arrayTypeId = first.arrayTypeId) : second = first := by
  revert plain same
  cases first <;> cases second <;> decide

/-- The identifiers that many types share. -/
def sharedTypeIds : List String :=
  ["ALLJOYN_VARIANT", "ALLJOYN_STRUCT", "ALLJOYN_ARRAY"]

theorem Scalar.typeId_apart (kind other : Scalar) :
    kind.typeId ≠ other.arrayTypeId ∧ kind.typeId ∉ sharedTypeIds ∧
      (kind.isText = false → kind.arrayTypeId ∉ sharedTypeIds) := by
  cases kind <;> cases other <;> decide

namespace BusType

theorem typeId_cases (type : BusType) :
    (∃ kind, type = .basic kind) ∨ (∃ kind, type = .array (.basic kind)) ∨ type.typeId ∈ sharedTypeIds := by
  match type with
  | .basic kind => exact .inl ⟨kind, rfl⟩
  | .array (.basic kind) => exact .inr (.inl ⟨kind, rfl⟩)
  | .variant | .struct _ | .dict _ _ | .array .variant | .array (.struct _) | .array (.array _) | .array (.dict _ _) =>
    exact .inr (.inr (by simp [typeId, sharedTypeIds]))

/-- Where the type identifier is exact, it is the identifier of no other type. -/
theorem typeId_eq_iff {type : BusType} (exact : type.typeIdIsExact = true) (other : BusType) :
    other.typeId = type.typeId ↔ other = type := by
  refine ⟨fun same => ?_, fun same => same ▸ rfl⟩
  match type, exact with
  | .basic kind, _ =>
    rcases other.typeId_cases with ⟨kind', rfl⟩ | ⟨kind', rfl⟩ | shared
    · rw [Scalar.typeId_inj same]
    · exact absurd same.symm (kind.typeId_apart kind').1
    · rw [same] at shared
      exact absurd shared (kind.typeId_apart kind).2.1
  | .array (.basic kind), exact =>
    have plain : kind.isText = false := by simpa [typeIdIsExact] using exact
    rcases other.typeId_cases with ⟨kind', rfl⟩ | ⟨kind', rfl⟩ | shared
    · exact absurd same (kind'.typeId_apart kind).1
    · rw [Scalar.arrayTypeId_inj plain same]
    · rw [same] at shared
      exact absurd shared ((kind.typeId_apart kind).2.2 plain)

theorem typeId_constant (type : BusType) : isConstantName type.typeId = true := by
  have shared : ∀ name ∈ sharedTypeIds, isConstantName name = true := by decide
  rcases type.typeId_cases with ⟨kind, rfl⟩ | ⟨kind, rfl⟩ | known
  · cases kind <;> rfl
  · cases kind <;> rfl
  · exact shared _ known

instance : DecidableEq BusType := fun type other =>
  decidable_of_iff (type.text = other.text) ⟨text_inj, congrArg text⟩

end BusType

namespace Request

variable {request : Request}

theorem named_constant {name : String} (known : isConstantName name = true) :
    request.named name = some (.constant name) := by
  have param : name ≠ "ifcName" ∧ name ≠ "propName" := by
    constructor <;> rintro rfl <;> exact absurd known (by decide)
  rw [named, if_neg param.1, if_neg param.2, if_pos known]

theorem eval_textIs {param given text : String} (named : request.named param = some (.text given))
    (literal : Literal text) : request.eval (Service.textIs param text) = some (.truth (given = text)) := by
  simp only [Service.textIs, Expr.equal, Expr.apply, eval, evalAll, named, if_pos literal, Option.bind_some,
    Option.map_some, called, combined, Value.number.injEq, Int.natCast_zero, compareTexts_eq_zero]

/-- The request is for the property. -/
def Asks (request : Request) (property : TypedProperty) : Prop :=
  request.interface = property.interface ∧ request.property = property.name

instance (property : TypedProperty) : Decidable (request.Asks property) :=
  inferInstanceAs (Decidable (_ ∧ _))

theorem eval_asksFor {property : TypedProperty} (interface : Literal property.interface)
    (name : Literal property.name) :
    request.eval (Service.asksFor property) = some (.truth (request.Asks property)) := by
  have first : request.eval (Service.textIs "ifcName" property.interface) =
      some (.truth (request.interface = property.interface)) := eval_textIs rfl interface
  have second : request.eval (Service.textIs "propName" property.name) =
      some (.truth (request.property = property.name)) := eval_textIs rfl name
  rw [Service.asksFor, eval, first, second]
  by_cases same : request.interface = property.interface <;> simp [combined, Asks, same]

/-- A check refuses exactly the values of other types; without one, the property is a variant. -/
theorem eval_valueCheck (request : Request) {property : TypedProperty}
    (typed : property.property.signature = property.type.text) :
    (property.type = .variant ∧ Service.valueCheck? property = none) ∨
    ∃ check, property.type ≠ .variant ∧ Service.valueCheck? property = some check ∧
      request.eval check = some (.truth (request.type ≠ property.type)) := by
  have literal : Literal property.type.text := by
    rw [Literal, BusType.text, String.toList_ofList]
    exact ⟨BusType.not_mem_chars rfl (by decide) _, BusType.not_mem_chars rfl (by decide) _⟩
  have constant : request.named _ = _ := named_constant property.type.typeId_constant
  have checked (type : BusType) (same : property.type = type) (other : type ≠ .variant) :
      Service.valueCheck? property = some (if type.typeIdIsExact then
        .unequal (.member (.name "val") "typeId") (.name type.typeId)
      else .negation (.send (.name "val") "HasSignature" [.quoted property.property.signature])) := by
    subst same
    unfold Service.valueCheck?
    split
    next variant => exact absurd variant other
    next => split <;> rfl
  by_cases variant : property.type = .variant
  · refine .inl ⟨variant, ?_⟩
    simp only [Service.valueCheck?, variant]
  · refine .inr ⟨_, variant, checked _ rfl variant, ?_⟩
    split
    next exact =>
      simp only [Expr.unequal, eval, field, constant, combined, ne_eq, Value.constant.injEq,
        BusType.typeId_eq_iff exact]
    next =>
      rw [typed]
      simp only [Expr.send, eval, evalAll, if_pos literal, called, Option.bind_some, Option.map_some]
      by_cases same : request.type = property.type
      · simp [same]
      · have different : request.type.text ≠ property.type.text := fun texts => same (BusType.text_inj texts)
        simp [same, different]

end Request
end BusStub
