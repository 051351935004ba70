import BusStub.Code.Print
import BusStub.Proofs.Braces
import Mathlib.Tactic.MkIffOfInductiveProp

/-! Braces in printed code. Whatever stands in a program, the printer closes the braces that it opens, as long as each
text in the program closes its own. A block that is left open is closed by the one after it. -/

namespace BusStub
open Text

theorem Fragment.linesAll_eq_flatMap (level : Nat) (fragments : List Fragment) :
    Fragment.linesAll level fragments = fragments.flatMap (Fragment.lines level) := by
  induction fragments with
  | nil => rfl
  | cons fragment rest ih => rw [Fragment.linesAll, ih, List.flatMap_cons]

theorem Fragment.linesAll_append (level : Nat) (first second : List Fragment) :
    Fragment.linesAll level (first ++ second) = Fragment.linesAll level first ++ Fragment.linesAll level second := by
  simp only [linesAll_eq_flatMap, List.flatMap_append]

/-- The lines of the fragments lead from one depth of braces to the other. -/
def Fragment.Lead (before after : Nat) (fragments : List Fragment) : Prop :=
  ∀ level, nesting before ((Fragment.linesAll level fragments).flatMap String.toList) = some after

namespace Fragment.Lead

variable {before between inside after : Nat} {first second body : List Fragment} {text opening closing : String}

theorem nil : Lead before before [] :=
  fun _ => rfl

theorem append (one : Lead before between first) (other : Lead between after second) :
    Lead before after (first ++ second) := by
  intro level
  rw [linesAll_append, List.flatMap_append, nesting_append, one level, Option.bind_some, other level]

theorem deeper (lead : Lead 0 0 body) (depth : Nat) : Lead depth depth body := by
  intro level
  have deeper := nesting_deeper (lead level) depth
  rwa [Nat.zero_add] at deeper

theorem flatMap {α : Type} {f : α → List Fragment} {items : List α} (each : ∀ item ∈ items, Lead 0 0 (f item)) :
    Lead 0 0 (items.flatMap f) := by
  induction items with
  | nil => exact nil
  | cons item rest ih =>
    obtain ⟨first, others⟩ := List.forall_mem_cons.mp each
    exact first.append (ih others)

private theorem indented (level : Nat) (leads : Leads before after text) :
    nesting before (Layout.indent level ++ text).toList = some after := by
  rw [String.toList_append, ← nesting_braces, braces_append, Comment.braces_indent, List.nil_append, nesting_braces]
  exact leads

theorem line (leads : Leads before after text) : Lead before after [.line text] := by
  intro level
  rw [linesAll, linesAll, lines, List.append_nil, List.flatMap_singleton]
  exact indented level leads

/-- An empty closing line is left out, which makes no difference here. -/
theorem block (opens : Leads before between opening) (inner : Lead between inside body)
    (closes : Leads inside after closing) : Lead before after [.block opening body closing] := by
  intro level
  rw [linesAll, linesAll, lines, List.append_nil, List.flatMap_append, List.flatMap_cons, nesting_append,
    nesting_append, indented level opens, Option.bind_some, inner, Option.bind_some]
  split
  next none =>
    rw [String.isEmpty_iff.mp none] at closes
    exact closes
  next => simpa using indented level closes

theorem comment (closed : Level text) : Lead 0 0 [.comment text] := by
  intro level
  rw [linesAll, linesAll, lines, List.append_nil, ← nesting_braces, Comment.braces_lines, nesting_braces]
  exact closed

theorem blank : Lead 0 0 [.blank] :=
  fun _ => rfl

theorem balanced (lead : Lead 0 0 body) : Balanced (Layout.render 0 body) := by
  refine Level.balanced ?_
  rw [Level, Leads, Layout.render, String.toList_join, List.flatMap_map, ← nesting_braces, braces_flatMap]
  have ended (line : String) : braces (line ++ "\n").toList = braces line.toList := by
    rw [String.toList_append, braces_append]
    exact List.append_nil _
  simp only [ended]
  rw [← braces_flatMap, nesting_braces]
  exact lead 0

end Fragment.Lead

theorem Text.Level.commas {texts : List String} (each : ∀ text ∈ texts, Level text) : Level (Code.commas texts) :=
  .intercalate (.literal rfl) each

def Place.Neat : Place → Prop
  | .root text => Level text
  | .field base name => base.Neat ∧ Level name
  | .element base _ | .item base _ => base.Neat

theorem Place.Neat.level {place : Place} (neat : place.Neat) : Level place.text := by
  induction place with
  | root text => exact neat
  | field base name ih => exact .append₃ (ih neat.1) (.literal rfl) neat.2
  | element base depth ih => exact .append (.append₃ (ih neat) (.literal rfl) (level_counter depth)) (.literal rfl)
  | item base index ih => exact .append (.append₃ (ih neat) (.literal rfl) (level_digits index)) (.literal rfl)

namespace Code

/-- Every text in the code closes the braces that it opens. -/
def TypeName.Neat : TypeName → Prop
  | .plain text => Level text
  | .scalar _ => True
  | .composite path => ∀ part ∈ path, Level part

def CType.Neat (type : CType) : Prop :=
  type.name.Neat

@[mk_iff]
structure Variable.Neat (v : Variable) : Prop where
  type : v.type.Neat
  name : Level v.name

@[mk_iff]
structure Param.Neat (param : Param) : Prop where
  type : param.type.Neat
  name : Level param.name
  default : ∀ value ∈ param.default, Level value

mutual
def Expr.Neat : Expr → Prop
  | .name text | .quoted text => Level text
  | .number _ => True
  | .place p | .count p => p.Neat
  | .address inner | .content inner | .negation inner => inner.Neat
  | .binary _ left right => left.Neat ∧ right.Neat
  | .member object field | .arrow object field => object.Neat ∧ Level field
  | .call callee args => callee.Neat ∧ Expr.AllNeat args
  | .newArray type size => type.Neat ∧ size.Neat
  | .newObject type args => Level type ∧ Expr.AllNeat args
  | .cast type value => type.Neat ∧ value.Neat
termination_by structural expr => expr

def Expr.AllNeat : List Expr → Prop
  | [] => True
  | expr :: rest => expr.Neat ∧ Expr.AllNeat rest
termination_by structural exprs => exprs
end

mutual
def Stmt.Neat : Stmt → Prop
  | .declare v | .array v _ => v.Neat
  | .define v value => v.Neat ∧ value.Neat
  | .construct v args => v.Neat ∧ Expr.AllNeat args
  | .assign target value => target.Neat ∧ value.Neat
  | .perform value | .delete value | .deleteArray value | .ret value => value.Neat
  | .loop _ place body => place.Neat ∧ Stmt.AllNeat body
  | .branch condition body => condition.Neat ∧ Stmt.AllNeat body
  | .choose condition body otherwise => condition.Neat ∧ Stmt.AllNeat body ∧ Stmt.AllNeat otherwise
  | .comment text => Level text
  | .blank => True
termination_by structural stmt => stmt

def Stmt.AllNeat : List Stmt → Prop
  | [] => True
  | stmt :: rest => stmt.Neat ∧ Stmt.AllNeat rest
termination_by structural stmts => stmts
end

@[mk_iff]
structure Prototype.Neat (prototype : Prototype) : Prop where
  result : ∀ type ∈ prototype.result, Level type
  name : Level prototype.name
  params : ∀ param ∈ prototype.params, param.Neat

@[mk_iff]
structure Definition.Neat (definition : Definition) : Prop where
  prototype : definition.prototype.Neat
  owner : ∀ name ∈ definition.owner, Level name
  initializers : ∀ pair ∈ definition.initializers, Level pair.1 ∧ Level pair.2
  body : Stmt.AllNeat definition.body

mutual
def Field.Neat : Field → Prop
  | .plain v => v.Neat
  | .definition name fields object => Level name ∧ Field.AllNeat fields ∧ ∀ name ∈ object, Level name
termination_by structural field => field

def Field.AllNeat : List Field → Prop
  | [] => True
  | field :: rest => field.Neat ∧ Field.AllNeat rest
termination_by structural fields => fields
end

def Member.Neat : Member → Prop
  | .function prototype => prototype.Neat
  | .data v => v.Neat
  | .comment text => Level text
  | .blank => True

@[mk_iff]
structure Klass.Neat (klass : Klass) : Prop where
  name : Level klass.name
  base : Level klass.base
  visible : ∀ member ∈ klass.visible, member.Neat
  hidden : ∀ member ∈ klass.hidden, member.Neat

def Item.Neat : Item → Prop
  | .line text | .comment text => Level text
  | .blank => True
  | .record name fields => Level name ∧ Field.AllNeat fields
  | .klass k => k.Neat
  | .function definition => definition.Neat

theorem TypeName.Neat.level {type : TypeName} (neat : type.Neat) : Level type.text := by
  cases type with
  | plain text => exact neat
  | scalar kind => cases kind <;> decide
  | composite path => exact .intercalate (.literal rfl) neat

namespace CType.Neat

variable {type : CType}

theorem stem (neat : type.Neat) : Level type.stem := by
  refine Level.append ?_ (TypeName.Neat.level neat)
  split <;> decide

theorem starText (type : CType) : Level type.starText := by
  refine .plain ?_ ?_
  · rw [CType.starText, String.toList_ofList]
    exact fun member => absurd (List.eq_of_mem_replicate member) (by decide)
  · rw [CType.starText, String.toList_ofList]
    exact fun member => absurd (List.eq_of_mem_replicate member) (by decide)

theorem level (neat : type.Neat) : Level type.text := by
  unfold CType.text
  split
  · exact neat.stem
  · exact .append₃ neat.stem (.literal rfl) (starText type)

theorem declare (neat : type.Neat) {name : String} (named : Level name) : Level (type.declare name) :=
  .append (.append₃ neat.stem (.literal rfl) (starText type)) named

end CType.Neat

theorem Variable.Neat.level {v : Variable} (neat : v.Neat) : Level v.text :=
  neat.type.declare neat.name

theorem Param.Neat.level {param : Param} (neat : param.Neat) : Level param.text := by
  have declared := neat.type.declare neat.name
  have placed : Level (param.type.stem ++ "& " ++ param.name) := .append₃ neat.type.stem (.literal rfl) neat.name
  have referred : Level (param.type.stem ++ " " ++ param.type.starText ++ "&" ++ param.name) :=
    .append₃ (.append₃ neat.type.stem (.literal rfl) (CType.Neat.starText _)) (.literal rfl) neat.name
  unfold Param.text
  dsimp only
  split
  case' h_2 value given => refine Level.append₃ ?_ (.literal rfl) (neat.default value given)
  all_goals
    split
    · exact declared
    · split
      · exact placed
      · exact referred
    · exact referred

mutual
theorem Expr.Neat.level : (expr : Expr) → expr.Neat → Level expr.text
  | .name _, neat => neat
  | .quoted _, neat => .append₃ (.literal rfl) neat (.literal rfl)
  | .number value, _ => level_digits value
  | .place _, neat => Place.Neat.level neat
  | .count _, neat => level_countName (Place.Neat.level neat)
  | .address inner, neat => .append (.literal rfl) (Expr.Neat.level inner neat)
  | .content inner, neat => .append (.literal rfl) (Expr.Neat.level inner neat)
  | .negation inner, neat => .append (.literal rfl) (Expr.Neat.level inner neat)
  | .binary operator left right, neat => by
    have symbol : Level operator.symbol := by cases operator <;> decide
    exact .append₃ (.append₃ (Expr.Neat.level left neat.1) (.literal rfl) symbol) (.literal rfl)
      (Expr.Neat.level right neat.2)
  | .member object _, neat => .append₃ (Expr.Neat.level object neat.1) (.literal rfl) neat.2
  | .arrow object _, neat => .append₃ (Expr.Neat.level object neat.1) (.literal rfl) neat.2
  | .call callee args, neat =>
    .append (.append₃ (Expr.Neat.level callee neat.1) (.literal rfl) (.commas (Expr.AllNeat.level args neat.2)))
      (.literal rfl)
  | .newArray _ size, neat =>
    .append₃ (.append₃ (.literal rfl) (CType.Neat.level neat.1) (.literal rfl)) (Expr.Neat.level size neat.2)
      (.literal rfl)
  | .newObject _ args, neat =>
    .append₃ (.append₃ (.literal rfl) neat.1 (.literal rfl)) (.commas (Expr.AllNeat.level args neat.2)) (.literal rfl)
  | .cast _ value, neat =>
    .append₃ (.append₃ (.literal rfl) (CType.Neat.level neat.1) (.literal rfl)) (Expr.Neat.level value neat.2)
      (.literal rfl)

theorem Expr.AllNeat.level : (exprs : List Expr) → Expr.AllNeat exprs → ∀ text ∈ Expr.texts exprs, Level text
  | [], _ => List.forall_mem_nil _
  | expr :: rest, neat => List.forall_mem_cons.mpr ⟨Expr.Neat.level expr neat.1, Expr.AllNeat.level rest neat.2⟩
end

/-- A condition and the brace after it. -/
theorem Expr.Neat.opens {condition : Expr} (neat : condition.Neat) :
    Leads 0 1 ("if (" ++ condition.text ++ ") \x7b") := by
  have asked : Level ("if (" ++ condition.text) := .append (.literal rfl) (Expr.Neat.level condition neat)
  have opening : Leads 0 1 ") \x7b" := .literal rfl
  exact Leads.append asked opening

mutual
theorem Stmt.Neat.lead : (stmt : Stmt) → stmt.Neat → Fragment.Lead 0 0 stmt.fragments
  | .declare _, neat => .line (Level.append neat.level (.literal rfl))
  | .define _ value, neat =>
    .line (Level.append (.append₃ neat.1.level (.literal rfl) (Expr.Neat.level value neat.2)) (.literal rfl))
  | .array _ length, neat =>
    .line (Level.append (.append₃ neat.level (.literal rfl) (level_digits length)) (.literal rfl))
  | .construct _ args, neat =>
    .line (Level.append (.append₃ neat.1.level (.literal rfl) (.commas (Expr.AllNeat.level args neat.2)))
      (.literal rfl))
  | .assign target value, neat =>
    .line (Level.append (.append₃ (Expr.Neat.level target neat.1) (.literal rfl) (Expr.Neat.level value neat.2))
      (.literal rfl))
  | .perform action, neat => .line (Level.append (Expr.Neat.level action neat) (.literal rfl))
  | .delete pointer, neat => .line (Level.append₃ (.literal rfl) (Expr.Neat.level pointer neat) (.literal rfl))
  | .deleteArray pointer, neat => .line (Level.append₃ (.literal rfl) (Expr.Neat.level pointer neat) (.literal rfl))
  | .ret value, neat => .line (Level.append₃ (.literal rfl) (Expr.Neat.level value neat) (.literal rfl))
  | .loop depth _ body, neat => by
    have i := level_counter depth
    have started : Level ("for (size_t " ++ counter depth ++ " = 0; ") :=
      .append₃ (.literal rfl) i (.literal rfl)
    have bounded : Level (counter depth ++ " < " ++ countName _ ++ "; ") :=
      .append (.append₃ i (.literal rfl) (level_countName (Place.Neat.level neat.1))) (.literal rfl)
    have opening : Leads 0 1 "++) \x7b" := .literal rfl
    have opens := Leads.append ((started.append bounded).append i) opening
    simp only [String.append_assoc] at opens
    refine .block ?_ ((Stmt.AllNeat.lead body neat.2).deeper 1) (.literal rfl)
    simpa only [String.append_assoc] using opens
  | .branch _ body, neat => .block neat.1.opens ((Stmt.AllNeat.lead body neat.2).deeper 1) (.literal rfl)
  | .choose _ body otherwise, neat => by
    have opened : Fragment.Lead 0 1 [.block _ (Stmt.fragmentsAll body) ""] :=
      .block neat.1.opens ((Stmt.AllNeat.lead body neat.2.1).deeper 1) (.literal rfl)
    have turned : Leads 1 1 "\x7d else \x7b" := .literal rfl
    exact opened.append (.block turned ((Stmt.AllNeat.lead otherwise neat.2.2).deeper 1) (.literal rfl))
  | .comment _, neat => .comment neat
  | .blank, _ => .blank

theorem Stmt.AllNeat.lead : (block : List Stmt) → Stmt.AllNeat block → Fragment.Lead 0 0 (Stmt.fragmentsAll block)
  | [], _ => .nil
  | stmt :: rest, neat => (Stmt.Neat.lead stmt neat.1).append (Stmt.AllNeat.lead rest neat.2)
end

theorem Prototype.Neat.textIn {prototype : Prototype} (neat : prototype.Neat) {owner : Option String}
    (owned : ∀ name ∈ owner, Level name) : Level (prototype.textIn owner) := by
  have params : Level (commas (prototype.params.map Param.text)) :=
    .commas (List.forall_mem_map.mpr fun param member => (neat.params param member).level)
  unfold Prototype.textIn
  refine Level.append₃ (.append₃ (Level.append ?result ?scope) neat.name (.literal rfl)) params (.literal rfl)
  case result =>
    split
    next type typed => exact (neat.result type typed).append (.literal rfl)
    next => decide
  case scope =>
    split
    next name => exact (owned name rfl).append (.literal rfl)
    next => decide

theorem functionFragments_lead {signature : String} (signed : Level signature) {body : List Fragment}
    (inner : Fragment.Lead 0 0 body) : Fragment.Lead 0 0 (functionFragments signature body) :=
  (Fragment.Lead.line signed).append (.block (.literal rfl) (inner.deeper 1) (.literal rfl))

theorem Definition.Neat.lead {definition : Definition} (neat : definition.Neat) :
    Fragment.Lead 0 0 definition.fragments := by
  have signed := neat.prototype.textIn neat.owner
  have body := Stmt.AllNeat.lead definition.body neat.body
  unfold Definition.fragments
  dsimp only
  split
  next => exact functionFragments_lead signed body
  next =>
    have colon : Level (Layout.indent 1 ++ ": ") := by decide
    refine (Fragment.Lead.line signed).append (Fragment.Lead.append
      (.line (colon.append (.commas (List.forall_mem_map.mpr fun pair member => ?_))))
      (.block (.literal rfl) (body.deeper 1) (.literal rfl)))
    obtain ⟨name, value⟩ := neat.initializers pair member
    exact .append (.append₃ name (.literal rfl) value) (.literal rfl)

theorem record_opens {name : String} (named : Level name) : Leads 0 1 ("struct " ++ name ++ "\x7b") := by
  have opening : Leads 0 1 "\x7b" := .literal rfl
  exact Leads.append (Level.append (.literal rfl) named) opening

mutual
theorem Field.Neat.lead : (field : Field) → field.Neat → Fragment.Lead 0 0 [field.fragment]
  | .plain _, neat => .line (Level.append neat.level (.literal rfl))
  | .definition name fields none, ⟨named, inner, _⟩ =>
    .block (record_opens named) ((Field.AllNeat.lead fields inner).deeper 1) (.literal rfl)
  | .definition name fields (some object), ⟨named, inner, called⟩ => by
    have closing : Leads 1 0 "\x7d " := .literal rfl
    have ending : Level ";" := .literal rfl
    exact .block (record_opens named) ((Field.AllNeat.lead fields inner).deeper 1)
      ((closing.append (called object rfl)).append ending)

theorem Field.AllNeat.lead : (fields : List Field) → Field.AllNeat fields →
    Fragment.Lead 0 0 (Field.fragmentsAll fields)
  | [], _ => .nil
  | field :: rest, ⟨first, others⟩ => (Field.Neat.lead field first).append (Field.AllNeat.lead rest others)
end

theorem Member.Neat.lead {member : Member} (neat : member.Neat) : Fragment.Lead 0 0 [member.fragment] := by
  cases member with
  | function prototype => exact .line (Level.append (neat.textIn (by simp)) (.literal rfl))
  | data v => exact .line (Level.append (Variable.Neat.level neat) (.literal rfl))
  | comment text => exact .comment neat
  | blank => exact .blank

theorem Member.Neat.lead_map {members : List Member} (neat : ∀ member ∈ members, member.Neat) :
    Fragment.Lead 0 0 (members.map Member.fragment) := by
  rw [List.map_eq_flatMap]
  exact .flatMap fun member inside => (neat member inside).lead

/-- The parts of a class have no braces of their own. -/
theorem Klass.Neat.lead {klass : Klass} (neat : klass.Neat) : Fragment.Lead 0 0 klass.fragments := by
  have head : Level ("class " ++ klass.name ++ " : public " ++ klass.base) :=
    .append (.append₃ (.literal rfl) neat.name (.literal rfl)) neat.base
  have visible : Fragment.Lead 1 1 [.block "public:" (klass.visible.map Member.fragment) ""] :=
    .block (.literal rfl) ((Member.Neat.lead_map neat.visible).deeper 1) (.literal rfl)
  have hidden : Fragment.Lead 1 1 [.block "private:" (klass.hidden.map Member.fragment) ""] :=
    .block (.literal rfl) ((Member.Neat.lead_map neat.hidden).deeper 1) (.literal rfl)
  have parts := visible.append ((Fragment.Lead.blank.deeper 1).append hidden)
  exact (Fragment.Lead.line head).append (.block (.literal rfl) parts (.literal rfl))

theorem Item.Neat.lead {item : Item} (neat : item.Neat) : Fragment.Lead 0 0 item.fragments := by
  cases item with
  | line text => exact .line neat
  | comment text => exact .comment neat
  | blank => exact .blank
  | record name fields => exact Field.Neat.lead (.definition name fields none) ⟨neat.1, neat.2, by simp⟩
  | klass k => exact Klass.Neat.lead neat
  | function definition => exact Definition.Neat.lead neat

theorem print_balanced {items : List Item} (neat : ∀ item ∈ items, item.Neat) : Balanced (print items) :=
  (Fragment.Lead.flatMap fun item member => (neat item member).lead).balanced

end Code
end BusStub
