import Mathlib.Algebra.BigOperators.Group.List.Basic
import Mathlib.Control.Monad.Writer
import BusStub.Proofs.LoaderHistory

/-! What documents ask to be added. An element asks for the same interfaces and objects whatever has been loaded
before; loading adds them exactly when they clash neither with each other nor with what is there. -/

namespace BusStub

variable {α β : Type}

/-- Interfaces for the table and objects, both in the order in which they are met. -/
structure Content where
  interfaces : List Interface := []
  objects : List ObjectNode := []

namespace Content

/-- One content after the other. -/
instance : Monoid Content where
  mul first second := ⟨first.interfaces ++ second.interfaces, first.objects ++ second.objects⟩
  one := {}
  mul_assoc first second third := congrArg₂ Content.mk (List.append_assoc ..) (List.append_assoc ..)
  one_mul _ := rfl
  mul_one content := congrArg₂ Content.mk (List.append_nil _) (List.append_nil _)

@[simp] theorem one_interfaces : (1 : Content).interfaces = [] :=
  rfl

@[simp] theorem one_objects : (1 : Content).objects = [] :=
  rfl

@[simp] theorem mul_interfaces (first second : Content) :
    (first * second).interfaces = first.interfaces ++ second.interfaces :=
  rfl

@[simp] theorem mul_objects (first second : Content) : (first * second).objects = first.objects ++ second.objects :=
  rfl

@[simp] theorem prod_interfaces (contents : List Content) :
    contents.prod.interfaces = contents.flatMap Content.interfaces := by
  induction contents with
  | nil => rfl
  | cons first rest ih => simp [ih]

@[simp] theorem prod_objects (contents : List Content) :
    contents.prod.objects = contents.flatMap Content.objects := by
  induction contents with
  | nil => rfl
  | cons first rest ih => simp [ih]

end Content

/-- A value with what is to be added on the way to it. There is none when something on the way is wrong by itself. -/
abbrev Asking := WriterT Content Option

namespace Asking

theorem bind_eq_some {first : Asking α} {rest : α → Asking β} {result : β} {content : Content} :
    (first >>= rest).run = some (result, content) ↔
      ∃ value before after, first.run = some (value, before) ∧ (rest value).run = some (result, after) ∧
        content = before * after := by
  constructor
  · intro found
    obtain ⟨⟨value, before⟩, one, found⟩ := Option.bind_eq_some_iff.mp found
    obtain ⟨⟨last, after⟩, two, found⟩ := Option.map_eq_some_iff.mp found
    cases found
    exact ⟨value, before, after, one, two, rfl⟩
  · rintro ⟨value, before, after, one, two, rfl⟩
    apply Option.bind_eq_some_iff.mpr
    exact ⟨(value, before), one, Option.map_eq_some_iff.mpr ⟨(result, after), two, rfl⟩⟩

theorem lift_bind_eq_some {value : Option α} {rest : α → Asking β} {result : β} {content : Content} :
    (liftM value >>= rest).run = some (result, content) ↔
      ∃ found, value = some found ∧ (rest found).run = some (result, content) := by
  rw [bind_eq_some]
  constructor
  · rintro ⟨found, _, after, given, last, rfl⟩
    obtain ⟨_, present, same⟩ := Option.map_eq_some_iff.mp given
    cases same
    exact ⟨found, present, last⟩
  · rintro ⟨found, rfl, last⟩
    exact ⟨found, 1, content, rfl, last, rfl⟩

theorem bind_pure_eq_some {first : Asking α} {f : α → β} {result : β} {content : Content} :
    (first >>= fun value => pure (f value)).run = some (result, content) ↔
      ∃ value, first.run = some (value, content) ∧ f value = result := by
  rw [bind_eq_some]
  constructor
  · rintro ⟨value, before, _, asks, last, rfl⟩
    cases last
    exact ⟨value, by rw [asks, mul_one], rfl⟩
  · rintro ⟨value, asks, rfl⟩
    exact ⟨value, content, 1, asks, rfl, (mul_one content).symm⟩

end Asking

namespace Loader

def interfaceAsking (options : LoadOptions) (element : Xml.Element) : Asking (Option Interface) :=
  if isStandard (element.attributeD "name") then return none
  else do
    let interface ← ((Interface.ofElement options.lax element).run []).1.toOption
    tell { interfaces := [interface] }
    return some interface

def objectAsking (name : Option String) (path : String) (parts : List Interface) : Asking Unit :=
  if parts = [] then return ()
  else do
    let name ← name
    tell { objects := [⟨name, path, .merged parts⟩] }

mutual
/-- The interfaces that an object gets from one of its children. -/
def childAsking (options : LoadOptions) (path : String) : Xml.Element → Asking (List Interface)
  | ⟨tag, attributes, children⟩ => match tag with
    | "interface" => do
      let found ← interfaceAsking options ⟨tag, attributes, children⟩
      return found.toList
    | "node" => do
      let name ← (nestedName ⟨tag, attributes, children⟩).toOption
      let parts ← childrenAsking options (ObjectPath.join path name) children
      objectAsking (some name) (ObjectPath.join path name) parts
      return []
    | _ => return []
termination_by structural element => element

def childrenAsking (options : LoadOptions) (path : String) : List Xml.Element → Asking (List Interface)
  | [] => return []
  | child :: rest => do
    let found ← childAsking options path child
    let others ← childrenAsking options path rest
    return found ++ others
termination_by structural elements => elements
end

def nodeAsking (options : LoadOptions) (name : Option String) (path : String) (element : Xml.Element) :
    Asking Unit := do
  let parts ← childrenAsking options path element.children
  objectAsking name path parts

section
variable {options : LoadOptions} {path : String} {child : Xml.Element}

theorem childAsking_interface (tag : child.tag = "interface") :
    childAsking options path child = do
      let found ← interfaceAsking options child
      return found.toList := by
  obtain ⟨_, attributes, children⟩ := child
  cases tag
  rw [childAsking]

theorem childAsking_node (tag : child.tag = "node") :
    childAsking options path child = do
      let name ← (nestedName child).toOption
      nodeAsking options (some name) (ObjectPath.join path name) child
      return [] := by
  obtain ⟨_, attributes, children⟩ := child
  cases tag
  rw [childAsking]
  simp only [nodeAsking, bind_assoc]

theorem childAsking_other (other : child.tag ≠ "interface") (other' : child.tag ≠ "node") :
    childAsking options path child = return [] := by
  obtain ⟨tag, attributes, children⟩ := child
  rw [childAsking]
  · exact other
  · exact other'

theorem childrenAsking_cons {rest : List Xml.Element} {parts : List Interface} {content : Content} :
    (childrenAsking options path (child :: rest)).run = some (parts, content) ↔
      ∃ found before others after, (childAsking options path child).run = some (found, before) ∧
        (childrenAsking options path rest).run = some (others, after) ∧
        parts = found ++ others ∧ content = before * after := by
  rw [childrenAsking, Asking.bind_eq_some]
  constructor
  · rintro ⟨found, before, after, first, later, rfl⟩
    obtain ⟨others, asks, rfl⟩ := Asking.bind_pure_eq_some.mp later
    exact ⟨found, before, others, after, first, asks, rfl, rfl⟩
  · rintro ⟨found, before, others, after, first, asks, rfl, rfl⟩
    exact ⟨found, before, after, first, Asking.bind_pure_eq_some.mpr ⟨others, asks, rfl⟩, rfl⟩

end

def outermostName (options : LoadOptions) (written : String) : Option String :=
  match options.objectName with
  | some name => some name
  | none => if (ObjectPath.base written).isEmpty then none else some (ObjectPath.base written)

def rootAsking (options : LoadOptions) (element : Xml.Element) : Asking Unit :=
  if element.tag ≠ "node" then liftM (none : Option Unit)
  else do
    let written := element.attributeD "name"
    let name ← pure (outermostName options written)
    nodeAsking options name (rootPath options written name) element

def documentAsking (read : String → Option Xml.Element) (options : LoadOptions) (text : String) : Asking Unit := do
  let element ← read text
  rootAsking options element

/-- The content clashes neither with itself nor with what has been loaded. -/
structure Admits (loader : Loader) (content : Content) : Prop where
  known : ∀ part ∈ content.interfaces, ∀ known, loader.known? part.name = some known → known = part
  agree : Interface.Agree content.interfaces
  fresh : ∀ object ∈ content.objects, object.name ∉ loader.objects.map ObjectNode.name
  distinct : (content.objects.map ObjectNode.name).Nodup

/-- The content has been added: objects at the end, interfaces under the names that were free. -/
structure Gains (loader : Loader) (content : Content) (after : Loader) : Prop where
  objects : after.objects = loader.objects ++ content.objects
  table : ∀ name, after.known? name = (loader.known? name).or (content.interfaces.find? (·.name = name))

section
variable {loader middle after : Loader} {first second : Content}

theorem Admits.left (admits : loader.Admits (first * second)) : loader.Admits first where
  known part inside := admits.known part (List.mem_append_left _ inside)
  agree := admits.agree.of_append.1
  fresh object inside := admits.fresh object (List.mem_append_left _ inside)
  distinct := (List.nodup_append.mp (List.map_append ▸ admits.distinct)).1

theorem Gains.trans (one : loader.Gains first middle) (two : middle.Gains second after) :
    loader.Gains (first * second) after where
  objects := by simp [two.objects, one.objects]
  table name := by simp [two.table, one.table, List.find?_append, Option.or_assoc]

theorem Gains.objectNames (gains : loader.Gains first middle) :
    middle.objects.map ObjectNode.name = loader.objects.map ObjectNode.name ++ first.objects.map ObjectNode.name := by
  rw [gains.objects, List.map_append]

/-- What has been added is known, even if it was known before. -/
theorem Gains.known (gains : loader.Gains first middle) (admits : loader.Admits first) {part : Interface}
    (inside : part ∈ first.interfaces) : middle.known? part.name = some part := by
  rw [gains.table]
  cases before : loader.known? part.name with
  | some known => rw [admits.known part inside known before, Option.some_or]
  | none =>
    have present : (first.interfaces.find? (·.name = part.name)).isSome := by
      rw [List.find?_isSome]
      exact ⟨part, inside, by simp⟩
    obtain ⟨known, found⟩ := Option.isSome_iff_exists.mp present
    have same : known.name = part.name := by simpa using List.find?_some found
    rw [found, Option.none_or, admits.agree known (List.mem_of_find?_eq_some found) part inside same]

theorem Admits.right (gains : loader.Gains first middle) (admits : loader.Admits (first * second)) :
    middle.Admits second := by
  have names := List.nodup_append.mp (List.map_append ▸ admits.distinct)
  refine ⟨?_, admits.agree.of_append.2, ?_, names.2.1⟩
  · intro part inside known found
    rw [gains.table] at found
    rcases Option.or_eq_some_iff.mp found with before | ⟨-, added⟩
    · exact admits.known part (List.mem_append_right _ inside) known before
    · have same : known.name = part.name := by simpa using List.find?_some added
      exact admits.agree known (List.mem_append_left _ (List.mem_of_find?_eq_some added)) part
        (List.mem_append_right _ inside) same
  · intro object inside
    rw [gains.objectNames, List.mem_append, not_or]
    refine ⟨admits.fresh object (List.mem_append_right _ inside), ?_⟩
    intro twice
    exact names.2.2 object.name twice object.name (List.mem_map_of_mem inside) rfl

theorem Admits.mul (gains : loader.Gains first middle) (one : loader.Admits first) (two : middle.Admits second) :
    loader.Admits (first * second) := by
  have free : ∀ object ∈ second.objects, object.name ∉ loader.objects.map ObjectNode.name ∧
      object.name ∉ first.objects.map ObjectNode.name := by
    intro object inside
    rw [← not_or, ← List.mem_append, ← gains.objectNames]
    exact two.fresh object inside
  have mixed : ∀ part ∈ first.interfaces, ∀ other ∈ second.interfaces, part.name = other.name → part = other := by
    intro part inside other inside' same
    exact two.known other inside' part (same ▸ gains.known one inside)
  refine ⟨?_, ?_, ?_, ?_⟩
  · intro part inside known found
    rcases List.mem_append.mp inside with inside | inside
    · exact one.known part inside known found
    · exact two.known part inside known (by rw [gains.table, found, Option.some_or])
  · intro part inside other inside' same
    rcases List.mem_append.mp inside with inside | inside <;>
      rcases List.mem_append.mp inside' with inside' | inside'
    · exact one.agree part inside other inside' same
    · exact mixed part inside other inside' same
    · exact (mixed other inside' part inside same.symm).symm
    · exact two.agree part inside other inside' same
  · exact List.forall_mem_append.mpr ⟨one.fresh, fun object inside => (free object inside).1⟩
  · change ((first.objects ++ second.objects).map ObjectNode.name).Nodup
    rw [List.map_append, List.nodup_append]
    refine ⟨one.distinct, two.distinct, ?_⟩
    rintro name earlier _ later rfl
    obtain ⟨object, inside, rfl⟩ := List.mem_map.mp later
    exact (free object inside).2 earlier

/-- Contents can be added together exactly when the second can be added after the first. -/
theorem admits_mul (gains : loader.Gains first middle) :
    loader.Admits (first * second) ↔ loader.Admits first ∧ middle.Admits second :=
  ⟨fun admits => ⟨admits.left, admits.right gains⟩, fun both => both.1.mul gains both.2⟩

theorem Admits.nothing (loader : Loader) : loader.Admits 1 :=
  ⟨nofun, nofun, nofun, .nil⟩

theorem Gains.nothing (objects : after.objects = loader.objects) (interfaces : after.interfaces = loader.interfaces) :
    loader.Gains 1 after :=
  ⟨by simp [objects], by simp [known?, interfaces]⟩

theorem admits_interface {part : Interface} :
    loader.Admits { interfaces := [part] } ↔ ∀ known, loader.known? part.name = some known → known = part := by
  constructor
  · intro admits
    exact admits.known part (List.mem_singleton_self part)
  · intro known
    refine ⟨List.forall_mem_singleton.mpr known, ?_, nofun, .nil⟩
    intro part inside other inside' _
    rw [List.mem_singleton.mp inside, List.mem_singleton.mp inside']

theorem admits_object {object : ObjectNode} :
    loader.Admits { objects := [object] } ↔ object.name ∉ loader.objects.map ObjectNode.name := by
  constructor
  · intro admits
    exact admits.fresh object (List.mem_singleton_self object)
  · intro fresh
    exact ⟨nofun, nofun, List.forall_mem_singleton.mpr fresh, List.pairwise_singleton _ _⟩

end

/-- The action gives a value exactly when what it asks for can be added, and then has added that. -/
structure Loads (action : Loading α) (asking : Asking α) : Prop where
  sound : ∀ loader value after, action.run loader = (.ok value, after) →
    ∃ content, asking.run = some (value, content) ∧ loader.Admits content ∧ loader.Gains content after
  complete : ∀ loader value content, asking.run = some (value, content) → loader.Admits content →
    ∃ after, action.run loader = (.ok value, after)

namespace Loads

theorem quiet {action : Loading α} {value : α}
    (run : ∀ loader, ∃ warnings, action.run loader = (.ok value, { loader with warnings })) :
    Loads action (Pure.pure value) where
  sound loader found after same := by
    obtain ⟨warnings, ran⟩ := run loader
    rw [ran] at same
    cases same
    exact ⟨1, rfl, .nothing loader, .nothing rfl rfl⟩
  complete loader found content same _ := by
    obtain ⟨warnings, ran⟩ := run loader
    cases same
    exact ⟨_, ran⟩

theorem fails {action : Loading α} (run : ∀ loader, ∃ error after, action.run loader = (.error error, after)) :
    Loads action (liftM (none : Option α)) where
  sound loader value after same := by
    obtain ⟨error, last, ran⟩ := run loader
    rw [ran] at same
    cases same
  complete _ _ _ impossible _ := by cases impossible

theorem pure (value : α) : Loads (Pure.pure value) (Pure.pure value) :=
  quiet fun loader => ⟨loader.warnings, rfl⟩

theorem throw (error : LoadError) : Loads (MonadExcept.throw error : Loading α) (liftM (none : Option α)) :=
  fails fun loader => ⟨error, loader, rfl⟩

theorem lift (result : Except LoadError α) : Loads (liftM result) (liftM result.toOption) := by
  cases result with
  | error error => exact throw error
  | ok value => exact pure value

theorem keep {reading : Reading α} {post : α → Prop} (finds : reading.Finds post) :
    Loads (Loader.keep reading) (liftM (reading.run []).1.toOption) := by
  have steady (loader : Loader) := finds.steady loader.warnings []
  cases found : (reading.run []).1 with
  | error error =>
    apply fails
    intro loader
    have failed := (steady loader).trans found
    exact ⟨error, { loader with warnings := (reading.run loader.warnings).2 }, by rw [← failed]; rfl⟩
  | ok value =>
    apply quiet
    intro loader
    have read := (steady loader).trans found
    exact ⟨(reading.run loader.warnings).2, by rw [← read]; rfl⟩

theorem adds {action : Loading α} {asking : Asking α} (loads : Loads action asking) {loader : Loader} {value : α}
    {content : Content} (asks : asking.run = some (value, content)) (admits : loader.Admits content) :
    ∃ after, action.run loader = (.ok value, after) ∧ loader.Gains content after := by
  obtain ⟨after, ran⟩ := loads.complete loader value content asks admits
  obtain ⟨added, same, -, gains⟩ := loads.sound loader value after ran
  rw [asks] at same
  cases same
  exact ⟨after, ran, gains⟩

theorem bind {first : Loading α} {rest : α → Loading β} {asked : Asking α} {later : α → Asking β}
    (one : Loads first asked) (two : ∀ value, Loads (rest value) (later value)) :
    Loads (first >>= rest) (asked >>= later) := by
  constructor
  · intro loader result after ran
    rw [run_bind] at ran
    rcases started : first.run loader with ⟨error | value, middle⟩ <;> rw [started] at ran
    · cases ran
    · obtain ⟨before, asks, admits, gains⟩ := one.sound loader value middle started
      obtain ⟨more, asks', admits', gains'⟩ := (two value).sound middle result after ran
      refine ⟨before * more, ?_, (admits_mul gains).mpr ⟨admits, admits'⟩, gains.trans gains'⟩
      exact Asking.bind_eq_some.mpr ⟨value, before, more, asks, asks', rfl⟩
  · intro loader result content asks admits
    obtain ⟨value, before, more, first, second, rfl⟩ := Asking.bind_eq_some.mp asks
    obtain ⟨middle, started, gains⟩ := one.adds first admits.left
    obtain ⟨after, finished⟩ := (two value).complete middle result more second ((admits_mul gains).mp admits).2
    refine ⟨after, ?_⟩
    rw [run_bind, started]
    exact finished

theorem enter (part : Interface) : Loads (Loader.enter part) (tell { interfaces := [part] }) := by
  constructor
  · intro loader value after ran
    refine ⟨_, rfl, ?_⟩
    rw [enter_run] at ran
    split at ran
    next known found =>
      split at ran
      next same =>
        subst same
        cases ran
        refine ⟨admits_interface.mpr fun other stands => ?_, (List.append_nil _).symm, fun name => ?_⟩
        · exact Option.some.inj (stands.symm.trans found)
        · by_cases same : known.name = name
          · subst same
            rw [known?, found, Option.some_or]
          · simp [same]
      next => cases ran
    next absent =>
      cases ran
      have free : loader.known? part.name = none := absent
      refine ⟨admits_interface.mpr fun other stands => ?_, (List.append_nil _).symm, fun name => ?_⟩
      · rw [free] at stands
        cases stands
      · by_cases same : part.name = name
        · subst same
          rw [free, Option.none_or]
          simp [known?]
        · simp [known?, same]
  · intro loader value content same admits
    cases same
    rw [enter_run]
    cases found : loader.interfaces.find? (·.name = part.name) with
    | none => exact ⟨_, rfl⟩
    | some known => exact ⟨loader, by simp [admits_interface.mp admits known found]⟩

theorem addObject (name : Option String) (path : String) (parts : List Interface) :
    Loads (Loader.addObject name path parts) (objectAsking name path parts) := by
  unfold objectAsking
  split
  next empty =>
    apply quiet
    intro loader
    exact ⟨loader.warnings, by rw [addObject_run, if_pos empty]⟩
  next some =>
    cases name with
    | none =>
      apply fails
      intro loader
      exact ⟨.missingObjectName, loader, by rw [addObject_run, if_neg some]⟩
    | some name =>
      constructor
      · intro loader value after ran
        refine ⟨_, rfl, ?_⟩
        rw [addObject_run, if_neg some] at ran
        simp only at ran
        split at ran
        next => cases ran
        next fresh =>
          cases ran
          exact ⟨admits_object.mpr fresh, rfl, fun name => by simp [known?]⟩
      · intro loader value content same admits
        cases same
        exact ⟨_, by rw [addObject_run, if_neg some]; exact if_neg (admits_object.mp admits)⟩

end Loads

section
variable {options : LoadOptions}

theorem interface?_loads (element : Xml.Element) :
    Loads (interface? options element) (interfaceAsking options element) := by
  unfold interface? interfaceAsking
  split
  · exact .pure none
  · apply Loads.bind (.keep (Interface.ofElement_finds options.lax element))
    intro interface
    apply Loads.bind (.enter interface)
    intro _
    exact .pure (some interface)

mutual
/-- The induction is on the element; both sides go through its children in the same order. -/
theorem node_loads : (element : Xml.Element) → (name : Option String) → (path : String) →
    Loads (node options name path element) (nodeAsking options name path element)
  | ⟨_, _, children⟩, name, path => by
    unfold node nodeAsking
    apply Loads.bind (nodeChildren_loads children path)
    intro interfaces
    exact .addObject name path interfaces

theorem nodeChildren_loads : (elements : List Xml.Element) → (path : String) →
    Loads (nodeChildren options path elements) (childrenAsking options path elements)
  | [], path => by
    unfold nodeChildren childrenAsking
    exact .pure []
  | child :: rest, path => by
    unfold nodeChildren childrenAsking
    split
    next tag =>
      simp only [childAsking_interface tag, bind_assoc, pure_bind]
      apply Loads.bind (interface?_loads child)
      intro found
      apply Loads.bind (nodeChildren_loads rest path)
      intro others
      exact .pure (found.toList ++ others)
    next tag =>
      simp only [childAsking_node tag, bind_assoc, pure_bind, List.nil_append, bind_pure]
      apply Loads.bind (.lift (nestedName child))
      intro name
      apply Loads.bind (node_loads child (some name) (ObjectPath.join path name))
      intro _
      exact nodeChildren_loads rest path
    next other other' =>
      simp only [childAsking_other other other', pure_bind, List.nil_append, bind_pure]
      exact nodeChildren_loads rest path
end

theorem rootName_loads (written : String) :
    Loads (rootName options written) (pure (outermostName options written)) := by
  unfold rootName outermostName
  simp only
  cases options.objectName with
  | none => exact .pure _
  | some name =>
    simp only
    split
    · apply Loads.quiet
      intro loader
      exact ⟨_, rfl⟩
    · exact .pure (some name)

theorem root_loads (element : Xml.Element) : Loads (root options element) (rootAsking options element) := by
  unfold root rootAsking
  by_cases tag : element.tag ≠ "node"
  · rw [if_pos tag, if_pos tag]
    exact .throw _
  · rw [if_neg tag, if_neg tag]
    apply Loads.bind (rootName_loads (element.attributeD "name"))
    intro name
    exact node_loads element name _

/-- A text is loaded exactly when what it asks for can be added. -/
theorem documentBy_loads (read : String → Option Xml.Element) (text : String) :
    Loads (documentBy read options text) (documentAsking read options text) := by
  unfold documentBy documentAsking
  cases read text with
  | none => exact .throw _
  | some element =>
    have given : (liftM (some element) : Asking Xml.Element) = pure element := rfl
    rw [given, pure_bind]
    exact root_loads element

end
end Loader
end BusStub
