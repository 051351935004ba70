import BusStub.Proofs.BracesPrinted
import BusStub.Proofs.ClassMembers
import BusStub.Proofs.DeclaredRecords
import BusStub.Proofs.FunctionScopes
import Mathlib.Data.List.Infix

/-! What can be read in the files. A file is the texts of its items, one after another, and what is nested in an item is
written in its text. So whatever is said of structs, classes, functions and statements is said of the text of files. -/

namespace BusStub
open Code

/-- The piece is written somewhere in the text. -/
def Text.Holds (text piece : String) : Prop :=
  piece.toList <:+: text.toList

namespace Layout

theorem render_append (level : Nat) (first second : List Fragment) :
    render level (first ++ second) = render level first ++ render level second := by
  simp only [render, Fragment.linesAll_append, List.map_append, String.join_append]

theorem render_line (level : Nat) (text : String) : render level [.line text] = indent level ++ text ++ "\n" := by
  simp [render, Fragment.linesAll, Fragment.lines]

end Layout

namespace Fragment

/-- The piece stands among the fragments, inside so many blocks. -/
inductive Inside (piece : List Fragment) : Nat → List Fragment → Prop where
  | here {fragments : List Fragment} (part : piece <:+: fragments) : Inside piece 0 fragments
  | deeper {depth : Nat} {opening closing : String} {body fragments : List Fragment}
      (member : .block opening body closing ∈ fragments) (inside : Inside piece depth body) :
      Inside piece (depth + 1) fragments

namespace Inside

variable {piece middle fragments : List Fragment} {depth depth' : Nat}

theorem refl (fragments : List Fragment) : Inside fragments 0 fragments :=
  .here (List.infix_refl _)

theorem mono (inside : Inside piece depth middle) (part : middle <:+: fragments) : Inside piece depth fragments := by
  cases inside with
  | here inner => exact .here (inner.trans part)
  | deeper member inside => exact .deeper (part.subset member) inside

theorem trans (inner : Inside piece depth middle) (outer : Inside middle depth' fragments) :
    Inside piece (depth' + depth) fragments := by
  induction outer with
  | here part =>
    rw [Nat.zero_add]
    exact inner.mono part
  | deeper member _ ih =>
    rw [Nat.add_right_comm]
    exact .deeper member ih

theorem lines (inside : Inside piece depth fragments) (level : Nat) :
    linesAll (level + depth) piece <:+: linesAll level fragments := by
  induction inside generalizing level with
  | here part =>
    rw [linesAll_eq_flatMap, linesAll_eq_flatMap]
    exact part.flatMap _
  | @deeper depth opening closing body fragments member _ ih =>
    have block : linesAll (level + 1) body <:+: (Fragment.block opening body closing).lines level :=
      ⟨[_], _, by rw [Fragment.lines]; rfl⟩
    have whole : (Fragment.block opening body closing).lines level <:+: linesAll level fragments := by
      rw [linesAll_eq_flatMap]
      exact List.infix_of_mem_flatten (List.mem_map_of_mem member)
    rw [← Nat.add_assoc, Nat.add_right_comm]
    exact ((ih (level + 1)).trans block).trans whole

/-- It is printed there, indented by the blocks that it is in. -/
theorem holds (inside : Inside piece depth fragments) (level : Nat) :
    Text.Holds (Layout.render level fragments) (Layout.render (level + depth) piece) := by
  simp only [Text.Holds, Layout.render, String.toList_join]
  exact ((inside.lines level).map _).flatMap _

end Inside
end Fragment

namespace Code

private theorem block_inside {piece body fragments : List Fragment} {opening closing : String}
    (member : .block opening body closing ∈ fragments) (found : ∃ depth, Fragment.Inside piece depth body) :
    ∃ depth, Fragment.Inside piece depth fragments := by
  obtain ⟨depth, inside⟩ := found
  exact ⟨depth + 1, .deeper member inside⟩

mutual
/-- The cases are those of `within`: a statement is within itself, or within a block that it opens. -/
theorem Stmt.within_inside : (stmt : Stmt) → (inner : Stmt) → inner ∈ stmt.within →
    ∃ depth, Fragment.Inside inner.fragments depth stmt.fragments
  | .loop _ _ body, inner, member | .branch _ body, inner, member => by
    rw [Stmt.within] at member
    rcases List.mem_cons.mp member with rfl | member
    · exact ⟨0, .refl _⟩
    · exact block_inside (List.mem_singleton_self _) (Stmt.withinAll_inside body inner member)
  | .choose _ body otherwise, inner, member => by
    rw [Stmt.within] at member
    rcases List.mem_cons.mp member with rfl | member
    · exact ⟨0, .refl _⟩
    rcases List.mem_append.mp member with member | member
    · exact block_inside List.mem_cons_self (Stmt.withinAll_inside body inner member)
    · exact block_inside (List.mem_cons_of_mem _ List.mem_cons_self) (Stmt.withinAll_inside otherwise inner member)
  | .declare _, inner, member | .define _ _, inner, member | .array _ _, inner, member
  | .construct _ _, inner, member | .assign _ _, inner, member | .perform _, inner, member
  | .delete _, inner, member | .deleteArray _, inner, member | .ret _, inner, member
  | .comment _, inner, member | .blank, inner, member => by
    rw [Stmt.within] at member
    obtain rfl := List.mem_singleton.mp member
    exact ⟨0, .refl _⟩

theorem Stmt.withinAll_inside : (block : List Stmt) → (inner : Stmt) → inner ∈ Stmt.withinAll block →
    ∃ depth, Fragment.Inside inner.fragments depth (Stmt.fragmentsAll block)
  | [], _, member => by cases member
  | stmt :: rest, inner, member => by
    rw [Stmt.withinAll] at member
    rw [Stmt.fragmentsAll]
    rcases List.mem_append.mp member with member | member
    · obtain ⟨depth, inside⟩ := Stmt.within_inside stmt inner member
      exact ⟨depth, inside.mono (List.prefix_append _ _).isInfix⟩
    · obtain ⟨depth, inside⟩ := Stmt.withinAll_inside rest inner member
      exact ⟨depth, inside.mono (List.suffix_append _ _).isInfix⟩
end

theorem Definition.signature_inside (definition : Definition) :
    Fragment.Inside [.line (definition.prototype.textIn definition.owner)] 0 definition.fragments := by
  apply Fragment.Inside.here
  rw [List.singleton_infix_iff, Definition.fragments]
  split <;> exact List.mem_cons_self

theorem Definition.body_inside (definition : Definition) :
    Fragment.Inside (Stmt.fragmentsAll definition.body) 1 definition.fragments := by
  have member : .block "\x7b" (Stmt.fragmentsAll definition.body) "\x7d" ∈ definition.fragments := by
    unfold Definition.fragments
    split <;> simp [functionFragments]
  exact .deeper member (.refl _)

theorem Klass.member_inside {klass : Klass} {member : Member} (declared : member ∈ klass.visible ++ klass.hidden) :
    Fragment.Inside [member.fragment] 2 klass.fragments := by
  have among {members : List Member} (listed : member ∈ members) :
      Fragment.Inside [member.fragment] 0 (members.map Member.fragment) :=
    .here ((List.singleton_infix_iff _ _).mpr (List.mem_map_of_mem listed))
  apply Fragment.Inside.deeper (List.mem_cons_of_mem _ List.mem_cons_self)
  rcases List.mem_append.mp declared with visible | hidden
  · exact .deeper List.mem_cons_self (among visible)
  · exact .deeper (List.mem_cons_of_mem _ (List.mem_cons_of_mem _ List.mem_cons_self)) (among hidden)

theorem Field.inside {name : String} {fields : List Field} {object : Option String} {field : Field}
    (member : field ∈ fields) :
    Fragment.Inside [field.fragment] 1 [(Field.definition name fields object).fragment] := by
  have all : Field.fragmentsAll fields = fields.map Field.fragment := by
    clear member
    induction fields with
    | nil => rfl
    | cons first rest ih => rw [Field.fragmentsAll, ih, List.map_cons]
  have among : Fragment.Inside [field.fragment] 0 (Field.fragmentsAll fields) := by
    rw [all]
    exact .here ((List.singleton_infix_iff _ _).mpr (List.mem_map_of_mem member))
  exact .deeper (List.mem_singleton_self _) among

def Item.text (item : Item) : String :=
  Layout.render 0 item.fragments

theorem print_eq_join (items : List Item) : print items = String.join (items.map Item.text) := by
  unfold print
  induction items with
  | nil => rfl
  | cons item rest ih => rw [List.flatMap_cons, Layout.render_append, ih, List.map_cons, String.join_cons, Item.text]

theorem print_holds {items : List Item} {item : Item} (member : item ∈ items) {piece : List Fragment} {depth : Nat}
    (inside : Fragment.Inside piece depth item.fragments) :
    Text.Holds (print items) (Layout.render depth piece) := by
  have part : item.fragments <:+: items.flatMap Item.fragments :=
    List.infix_of_mem_flatten (List.mem_map_of_mem member)
  have held := (inside.mono part).holds 0
  rwa [Nat.zero_add] at held

private theorem item_of_mem {α : Type} {read : Item → Option α} (write : α → Item) {items : List Item} {found : α}
    (member : found ∈ items.filterMap read) (only : ∀ item, read item = some found → item = write found) :
    write found ∈ items := by
  obtain ⟨item, inside, same⟩ := List.mem_filterMap.mp member
  exact only item same ▸ inside

theorem record_mem {items : List Item} {record : String × List Field} (member : record ∈ records items) :
    .record record.1 record.2 ∈ items := by
  apply item_of_mem (fun record : String × List Field => .record record.1 record.2) member
  intro item same
  cases item <;> cases same
  rfl

theorem class_mem {items : List Item} {klass : Klass} (member : klass ∈ classes items) : .klass klass ∈ items := by
  apply item_of_mem .klass member
  intro item same
  cases item <;> cases same
  rfl

theorem function_mem {items : List Item} {definition : Definition} (member : definition ∈ functions items) :
    .function definition ∈ items := by
  apply item_of_mem .function member
  intro item same
  cases item <;> cases same
  rfl

end Code

/-- The file is the texts of the items, one after another, and so whatever they declare is written in it. -/
structure OutputFile.Says (file : OutputFile) (items : List Item) : Prop where
  whole : file.contents = String.join (items.map Item.text)
  records : ∀ record ∈ records items, Text.Holds file.contents (Item.record record.1 record.2).text
  fields : ∀ record ∈ Code.records items, ∀ field ∈ record.2,
    Text.Holds file.contents (Layout.render 1 [field.fragment])
  classes : ∀ klass ∈ classes items, Text.Holds file.contents (Item.klass klass).text
  prototypes : ∀ klass ∈ BusStub.classes items, ∀ prototype ∈ klass.functions,
    Text.Holds file.contents (Layout.indent 2 ++ prototype.text ++ ";\n")
  functions : ∀ definition ∈ functions items, Text.Holds file.contents (Item.function definition).text
  signatures : ∀ definition ∈ BusStub.functions items,
    Text.Holds file.contents (definition.prototype.textIn definition.owner ++ "\n")
  statements : ∀ definition ∈ BusStub.functions items, ∀ stmt ∈ Stmt.withinAll definition.body,
    ∃ depth, Text.Holds file.contents (Layout.render (depth + 1) stmt.fragments)

theorem StubFile.print_says (stub : StubFile) : stub.print.Says stub.items where
  whole := print_eq_join stub.items
  records _ listed := print_holds (record_mem listed) (.refl _)
  fields _ listed _ member := print_holds (record_mem listed) (Field.inside member)
  classes _ listed := print_holds (class_mem listed) (.refl _)
  prototypes klass listed prototype declared := by
    obtain ⟨member, inside, same⟩ := List.mem_filterMap.mp declared
    cases member <;> cases same
    have held := print_holds (class_mem listed) (Klass.member_inside inside)
    rwa [Member.fragment, Layout.render_line, ← String.append_assoc, String.append_assoc] at held
  functions _ listed := print_holds (function_mem listed) (.refl _)
  signatures definition listed := by
    have held := print_holds (function_mem listed) definition.signature_inside
    rw [Layout.render_line] at held
    exact held
  statements definition listed stmt member := by
    obtain ⟨depth, inside⟩ := Stmt.withinAll_inside definition.body stmt member
    have held := print_holds (function_mem listed) (inside.trans definition.body_inside)
    exact ⟨depth, Nat.add_comm 1 depth ▸ held⟩

/-- A file of that name says what the items say. -/
def Written (files : List OutputFile) (name : String) (items : List Item) : Prop :=
  ∃ file ∈ files, file.name = name ∧ file.Says items

theorem StubFile.written {stub : StubFile} {stubs : List StubFile} (member : stub ∈ stubs) :
    Written (stubs.map StubFile.print) stub.name stub.items :=
  ⟨stub.print, List.mem_map_of_mem member, rfl, stub.print_says⟩

/-- The trees of an object that stubs are generated for can be read in its files. -/
theorem ObjectNode.emit_written {node : ObjectNode} {options : StubOptions} {files : List OutputFile}
    (emitted : node.emit options = .ok files) :
    ∃ plan, node.plan options = .ok plan ∧
      Written files plan.typesHeader (TypesHeader.items plan) ∧
      Written files (plan.name ++ "Client.h") (Client.header plan) ∧
      Written files (plan.name ++ "Client.cc") (Client.source plan) ∧
      Written files (plan.name ++ "ClientHandlers.cc") (Client.handlers plan) ∧
      (options.service = true →
        Written files (plan.name ++ "Service.h") (Service.header plan) ∧
        Written files (plan.name ++ "Service.cc") (Service.source plan) ∧
        Written files (plan.name ++ "ServiceMethods.cc") (Service.methods plan)) := by
  obtain ⟨plan, planned, rfl⟩ := ObjectNode.emit_spec emitted
  have written (name : String) (editable : Bool) (items : List Item)
      (member : ⟨name, editable, items⟩ ∈ plan.files options.service) :
      Written ((plan.files options.service).map StubFile.print) name items :=
    StubFile.written member
  refine ⟨plan, planned, written _ false _ ?_, written _ false _ ?_, written _ false _ ?_, written _ true _ ?_,
    fun service => ⟨written _ false _ ?_, written _ false _ ?_, written _ true _ ?_⟩⟩
  all_goals simp [Plan.files, Plan.clientFiles, Plan.serviceFiles, *]

end BusStub
