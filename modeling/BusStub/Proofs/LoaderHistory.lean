import Mathlib.Data.List.Induction
import BusStub.Proofs.LoaderState

/-! Loading one document after another, with any reader of documents. Whichever of them failed, objects have names of
their own, everything that they offer is in the table of interfaces, and nothing in the table is ever replaced. -/

namespace BusStub.Loader

/-- The loader after a text, whether it was loaded or not. -/
def take (read : String → Option Xml.Element) (options : LoadOptions) (loader : Loader) (text : String) : Loader :=
  ((documentBy read options text).run loader).2

/-- A new loader after a list of texts, of which any may have failed. -/
def history (read : String → Option Xml.Element) (options : LoadOptions) (texts : List String) : Loader :=
  texts.foldl (take read options) {}

variable {read : String → Option Xml.Element} {options : LoadOptions}

theorem rootName_keeps (written : String) :
    Keeps options (fun _ => True) (rootName options written) fun found _ => ∀ name ∈ found, options.Allows name := by
  have given (name : String) (same : options.objectName = some name) : ∀ called ∈ some name, options.Allows called := by
    rintro called ⟨⟩
    exact .inr same
  unfold rootName
  simp only
  split
  next name same =>
    split
    · intro loader sound _
      refine ⟨⟨sound.objectNames, sound.tableNames, sound.described, sound.merged, sound.placed⟩, ?_, ?_⟩
      · exact ⟨List.prefix_refl _, List.suffix_refl _⟩
      · rintro found ⟨⟩
        exact given name same
    · exact .pure fun _ _ => given name same
  next =>
    apply Keeps.pure
    intro loader _
    split
    · exact nofun
    · rintro called ⟨⟩
      exact .inl (Text.not_mem_afterLast '/' written)

theorem rootPath_placed {written : String} {name : Option String} (allowed : ∀ called ∈ name, options.Allows called) :
    ∀ called ∈ name, options.Allows called ∧ ∃ base, rootPath options written name = base ++ "/" ++ called := by
  cases name with
  | none => exact nofun
  | some name => exact join_placed (allowed name rfl)

theorem documentBy_keeps (text : String) :
    Keeps options (fun _ => True) (documentBy read options text) fun _ _ => True := by
  unfold documentBy
  split
  next element _ =>
    unfold root
    simp only
    split
    next => exact .refuse _ _
    next =>
      apply Keeps.bind (rootName_keeps (element.attributeD "name"))
      intro name
      apply Keeps.assuming
      intro allowed
      exact node_keeps element name _ (rootPath_placed allowed)
  next => exact .throw _

theorem take_sound {loader : Loader} (sound : loader.Sound options) (text : String) :
    (take read options loader text).Sound options ∧ loader.Grows (take read options loader text) := by
  obtain ⟨kept, grows, -⟩ := @documentBy_keeps read options text loader sound trivial
  exact ⟨kept, grows⟩

theorem history_sound (texts : List String) : (history read options texts).Sound options := by
  induction texts using List.reverseRecOn with
  | nil => exact .initial options
  | append_singleton before text ih =>
    rw [history, List.foldl_append]
    exact (take_sound ih text).1

def known? (loader : Loader) (name : String) : Option Interface :=
  loader.interfaces.find? (·.name = name)

/-- An interface in the table or of an object, be it merged or one of those that exist on the bus. -/
def Stores (loader : Loader) (interface : Interface) : Prop :=
  interface ∈ loader.interfaces ∨
  ∃ object ∈ loader.objects, interface = object.interface ∨ interface ∈ object.interface.concrete

structure Consistent (options : LoadOptions) (loader : Loader) : Prop where
  objectNames : (loader.objects.map ObjectNode.name).Nodup
  objectPaths : options.objectName = none → (loader.objects.map ObjectNode.path).Nodup
  tableNames : (loader.interfaces.map Interface.name).Nodup
  registered : ∀ object ∈ loader.objects, ∀ part ∈ object.interface.concrete, loader.known? part.name = some part
  agree : ∀ object ∈ loader.objects, ∀ other ∈ loader.objects, ∀ part ∈ object.interface.concrete,
    ∀ part' ∈ other.interface.concrete, part.name = part'.name → part = part'
  ownOnly : ∀ interface, loader.Stores interface → isStandard interface.name = false
  arguments : ∀ interface, loader.Stores interface →
    (∀ method ∈ interface.methods, Arg.Proper method.args) ∧ ∀ signal ∈ interface.signals, Arg.Proper signal.args

theorem known?_of_mem {loader : Loader} (nodup : (loader.interfaces.map Interface.name).Nodup) {interface : Interface}
    (member : interface ∈ loader.interfaces) : loader.known? interface.name = some interface :=
  List.find?_of_nodup_map Interface.name interface nodup member

private theorem lastName_inj {base base' name name' : String} (plain : '/' ∉ name.toList) (plain' : '/' ∉ name'.toList)
    (same : base ++ "/" ++ name = base' ++ "/" ++ name') : name = name' := by
  have last (base name : String) (plain : '/' ∉ name.toList) :
      (base ++ "/" ++ name).toList.reverse.takeWhile (· ≠ '/') = name.toList.reverse := by
    have all : ∀ c ∈ name.toList.reverse, decide (c ≠ '/') = true := by
      intro c inside
      have : c ≠ '/' := fun slash => plain (by rw [← slash]; simpa using inside)
      simpa using this
    simp only [String.toList_append, List.reverse_append]
    rw [List.takeWhile_append_of_pos all]
    simp
  have chars := last base name plain
  rw [same, last base' name' plain', List.reverse_inj] at chars
  exact (String.toList_inj.mp chars).symm

namespace Sound

variable {loader : Loader}

theorem paths_nodup (sound : loader.Sound options) (unnamed : options.objectName = none) :
    (loader.objects.map ObjectNode.path).Nodup := by
  have plain : ∀ object ∈ loader.objects, '/' ∉ object.name.toList := by
    intro object member
    rcases (sound.placed object member).1 with plain | given
    · exact plain
    · rw [unnamed] at given
      cases given
  apply List.pairwise_map.mpr
  apply (List.pairwise_map.mp sound.objectNames).imp_of_mem
  intro first second one two different same
  obtain ⟨base, path⟩ := (sound.placed first one).2
  obtain ⟨base', path'⟩ := (sound.placed second two).2
  rw [path, path'] at same
  exact different (lastName_inj (plain first one) (plain second two) same)

theorem concrete_known (sound : loader.Sound options) {object : ObjectNode} (member : object ∈ loader.objects) :
    ∀ part ∈ object.interface.concrete, part ∈ loader.interfaces := by
  obtain ⟨parts, some, inside, same⟩ := sound.merged object member
  have underived : ∀ part ∈ parts, part.isDerived = false := by
    intro part present
    simp [Interface.isDerived, (sound.described part (inside present)).1.underived]
  intro part present
  rw [same, Interface.concrete_merged some underived] at present
  exact inside (Interface.mem_sortByName.mp present)

/-- The interface of an object lists what its concrete interfaces list, and is called like none that is standard. -/
theorem object_interface (sound : loader.Sound options) {object : ObjectNode} (member : object ∈ loader.objects) :
    object.interface.Listed ∧ isStandard object.interface.name = false := by
  obtain ⟨parts, some, inside, same⟩ := sound.merged object member
  have underived : ∀ part ∈ parts, part.isDerived = false := by
    intro part present
    simp [Interface.isDerived, (sound.described part (inside present)).1.underived]
  rw [same]
  refine ⟨(Interface.Loaded.merged underived).listed, ?_⟩
  rcases parts with _ | ⟨part, _ | ⟨second, rest⟩⟩
  · exact absurd rfl some
  · exact (sound.described part (inside (List.mem_singleton_self part))).2
  · have plain := Interface.merged_name_plain part second rest
    rw [← Bool.not_eq_true]
    intro standard
    have dotted : ∀ name ∈ standardInterfaces, '.' ∈ name.toList := by decide
    exact plain (dotted _ (by simpa [isStandard] using standard))

theorem stored (sound : loader.Sound options) {interface : Interface} (stores : loader.Stores interface) :
    isStandard interface.name = false ∧
    (∀ method ∈ interface.methods, Arg.Proper method.args) ∧ ∀ signal ∈ interface.signals, Arg.Proper signal.args := by
  have known (part : Interface) (inside : part ∈ loader.interfaces) :
      (∀ method ∈ part.methods, Arg.Proper method.args) ∧ ∀ signal ∈ part.signals, Arg.Proper signal.args :=
    ⟨(sound.described part inside).1.methods, (sound.described part inside).1.signals⟩
  rcases stores with inside | ⟨object, member, rfl | part⟩
  · exact ⟨(sound.described interface inside).2, known interface inside⟩
  · obtain ⟨listed, own⟩ := sound.object_interface member
    refine ⟨own, ?_, ?_⟩
    · intro method declared
      rw [listed.methods] at declared
      obtain ⟨part, concrete, declared⟩ := List.mem_flatMap.mp declared
      exact (known part (sound.concrete_known member part concrete)).1 method declared
    · intro signal declared
      rw [listed.signals] at declared
      obtain ⟨part, concrete, declared⟩ := List.mem_flatMap.mp declared
      exact (known part (sound.concrete_known member part concrete)).2 signal declared
  · have inside := sound.concrete_known member interface part
    exact ⟨(sound.described interface inside).2, known interface inside⟩

theorem consistent (sound : loader.Sound options) : loader.Consistent options := by
  have registered (object : ObjectNode) (member : object ∈ loader.objects) (part : Interface)
      (concrete : part ∈ object.interface.concrete) : loader.known? part.name = some part :=
    known?_of_mem sound.tableNames (sound.concrete_known member part concrete)
  refine ⟨sound.objectNames, sound.paths_nodup, sound.tableNames, registered, ?_, ?_, ?_⟩
  · intro object member other member' part concrete part' concrete' same
    have first := registered object member part concrete
    rw [same, registered other member' part' concrete'] at first
    exact (Option.some.inj first).symm
  · exact fun interface stores => (sound.stored stores).1
  · exact fun interface stores => (sound.stored stores).2

end Sound

/-- After any documents, loaded or not, a loader is consistent; and one more document, loaded or not, leaves the
objects in front of what it adds and every interface in the table as it is. -/
theorem history_consistent (read : String → Option Xml.Element) (options : LoadOptions) (texts : List String)
    (text : String) :
    (history read options texts).Consistent options ∧
      (history read options texts).objects <+: (history read options (texts ++ [text])).objects ∧
      ∀ name known, (history read options texts).known? name = some known →
        (history read options (texts ++ [text])).known? name = some known := by
  have sound := @history_sound read options texts
  obtain ⟨kept, grows⟩ := @take_sound read options _ sound text
  have next : history read options (texts ++ [text]) = take read options (history read options texts) text := by
    rw [history, List.foldl_append]
    rfl
  rw [next]
  refine ⟨sound.consistent, grows.objects, ?_⟩
  intro name known found
  obtain rfl : known.name = name := by simpa using List.find?_some found
  exact known?_of_mem kept.tableNames (grows.interfaces.subset (List.mem_of_find?_eq_some found))

end BusStub.Loader
