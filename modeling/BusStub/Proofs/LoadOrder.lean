import Mathlib.Data.List.Perm.Basic
import BusStub.Proofs.LoadedContent

/-! Documents in another order, and interfaces of objects in another order. All documents of one arrangement can be
loaded exactly when all of the other can, and then the same objects and the same table come of them. -/

namespace BusStub

namespace Xml.Element

/-- The children of an element, where interfaces have changed places among the children of the element itself or of
objects inside it. -/
inductive Rearranged : List Element → List Element → Prop where
  | moved {children others : List Element} (order : children.Perm others)
      (still : children.filter (·.tag ≠ "interface") = others.filter (·.tag ≠ "interface")) : Rearranged children others
  | inside {children others : List Element} (attributes : List (String × String)) (rest : List Element)
      (within : Rearranged children others) :
      Rearranged (⟨"node", attributes, children⟩ :: rest) (⟨"node", attributes, others⟩ :: rest)
  | beside {rest others : List Element} (child : Element) (later : Rearranged rest others) :
      Rearranged (child :: rest) (child :: others)
  | trans {children middle others : List Element} (first : Rearranged children middle)
      (second : Rearranged middle others) : Rearranged children others

theorem Rearranged.symm {children others : List Element} (same : Rearranged children others) :
    Rearranged others children := by
  induction same with
  | moved order still => exact .moved order.symm still.symm
  | inside attributes rest _ ih => exact .inside attributes rest ih
  | beside child _ ih => exact .beside child ih
  | trans _ _ first second => exact .trans second first

/-- The same element but for the places of interfaces. -/
structure Reordered (element other : Element) : Prop where
  tag : element.tag = other.tag
  attributes : element.attributes = other.attributes
  children : Rearranged element.children other.children

theorem Reordered.symm {element other : Element} (same : element.Reordered other) : other.Reordered element :=
  ⟨same.tag.symm, same.attributes.symm, same.children.symm⟩

end Xml.Element

open Xml.Element (Rearranged Reordered)

/-- The same objects in the same order, and the same interfaces in any order. -/
structure Content.Matches (first second : Content) : Prop where
  interfaces : first.interfaces.Perm second.interfaces
  objects : first.objects = second.objects

namespace Content.Matches

theorem refl (content : Content) : content.Matches content :=
  ⟨.refl _, rfl⟩

theorem trans {first second third : Content} (one : first.Matches second) (two : second.Matches third) :
    first.Matches third :=
  ⟨one.interfaces.trans two.interfaces, one.objects.trans two.objects⟩

theorem mul {first second first' second' : Content} (one : first.Matches first') (two : second.Matches second') :
    (first * second).Matches (first' * second') :=
  ⟨one.interfaces.append two.interfaces, congrArg₂ (· ++ ·) one.objects two.objects⟩

theorem agree {first second : Content} (same : first.Matches second) (agree : Interface.Agree first.interfaces) :
    Interface.Agree second.interfaces :=
  agree.of_subset same.interfaces.symm.subset

end Content.Matches

namespace Loader

variable {read : String → Option Xml.Element} {options : LoadOptions}

section
variable {path : String} {child : Xml.Element} {children others : List Xml.Element} {parts : List Interface}
  {content : Content}

theorem interfaceAsking_content {element : Xml.Element} {found : Option Interface}
    (asks : (interfaceAsking options element).run = some (found, content)) :
    content = { interfaces := found.toList } := by
  unfold interfaceAsking at asks
  split at asks
  · cases asks
    rfl
  · obtain ⟨interface, _, rest⟩ := Asking.lift_bind_eq_some.mp asks
    cases rest
    rfl

theorem childAsking_interface_iff (tag : child.tag = "interface") :
    (childAsking options path child).run = some (parts, content) ↔
      ∃ found, (interfaceAsking options child).run = some (found, content) ∧ found.toList = parts := by
  rw [childAsking_interface tag]
  exact Asking.bind_pure_eq_some

theorem childAsking_node_iff (tag : child.tag = "node") :
    (childAsking options path child).run = some (parts, content) ↔
      ∃ name, (nestedName child).toOption = some name ∧
        (nodeAsking options (some name) (ObjectPath.join path name) child).run = some ((), content) ∧ [] = parts := by
  rw [childAsking_node tag, Asking.lift_bind_eq_some]
  constructor
  · rintro ⟨name, named, asks⟩
    obtain ⟨_, asks, none⟩ := Asking.bind_pure_eq_some.mp asks
    exact ⟨name, named, asks, none⟩
  · rintro ⟨name, named, asks, none⟩
    exact ⟨name, named, Asking.bind_pure_eq_some.mpr ⟨(), asks, none⟩⟩

/-- A child gives only interfaces that it asks for. -/
theorem childAsking_parts (asks : (childAsking options path child).run = some (parts, content)) :
    parts ⊆ content.interfaces := by
  by_cases interface : child.tag = "interface"
  · obtain ⟨found, first, rfl⟩ := (childAsking_interface_iff interface).mp asks
    rw [interfaceAsking_content first]
    exact List.Subset.refl _
  · by_cases node : child.tag = "node"
    · obtain ⟨_, -, -, rfl⟩ := (childAsking_node_iff node).mp asks
      exact List.nil_subset _
    · rw [childAsking_other interface node] at asks
      cases asks
      exact List.nil_subset _

theorem childAsking_objects (tag : child.tag = "interface")
    (asks : (childAsking options path child).run = some (parts, content)) : content.objects = [] := by
  obtain ⟨found, first, -⟩ := (childAsking_interface_iff tag).mp asks
  rw [interfaceAsking_content first]

theorem childrenAsking_iff :
    (childrenAsking options path children).run = some (parts, content) ↔
      ∃ found, List.Forall₂ (fun child result => (childAsking options path child).run = some result) children found ∧
        parts = found.flatMap Prod.fst ∧ content = (found.map Prod.snd).prod := by
  induction children generalizing parts content with
  | nil =>
    rw [childrenAsking]
    constructor
    · intro asks
      cases asks
      exact ⟨[], .nil, rfl, rfl⟩
    · rintro ⟨found, none, rfl, rfl⟩
      cases none
      rfl
  | cons child rest ih =>
    rw [childrenAsking_cons]
    constructor
    · rintro ⟨found, before, others, after, first, later, rfl, rfl⟩
      obtain ⟨results, related, rfl, rfl⟩ := ih.mp later
      exact ⟨(found, before) :: results, .cons first related, rfl, by simp⟩
    · rintro ⟨results, related, rfl, rfl⟩
      obtain ⟨⟨found, before⟩, others, first, later, rfl⟩ := List.forall₂_cons_left_iff.mp related
      exact ⟨found, before, _, _, first, ih.mpr ⟨others, later, rfl, rfl⟩, rfl, by simp⟩

theorem childrenAsking_parts (asks : (childrenAsking options path children).run = some (parts, content)) :
    parts ⊆ content.interfaces := by
  induction children generalizing parts content with
  | nil =>
    rw [childrenAsking] at asks
    cases asks
    exact List.nil_subset _
  | cons child rest ih =>
    obtain ⟨found, before, others, after, first, later, rfl, rfl⟩ := childrenAsking_cons.mp asks
    apply List.append_subset.mpr
    constructor
    · exact List.subset_append_of_subset_left _ (childAsking_parts first)
    · exact List.subset_append_of_subset_right _ (ih later)

/-- The objects of a child, as far as it can be read. -/
def childObjects (options : LoadOptions) (path : String) (child : Xml.Element) : List ObjectNode :=
  ((childAsking options path child).run.map fun (_, content) => content.objects).getD []

/-- Objects come from the children that are no interfaces. -/
theorem childrenAsking_objects (asks : (childrenAsking options path children).run = some (parts, content)) :
    content.objects = (children.filter (·.tag ≠ "interface")).flatMap (childObjects options path) := by
  induction children generalizing parts content with
  | nil =>
    rw [childrenAsking] at asks
    cases asks
    rfl
  | cons child rest ih =>
    obtain ⟨found, before, others, after, first, later, rfl, rfl⟩ := childrenAsking_cons.mp asks
    rw [Content.mul_objects, ih later]
    by_cases tag : child.tag = "interface"
    · rw [childAsking_objects tag first, List.filter_cons_of_neg (by simp [tag])]
      rfl
    · have own : childObjects options path child = before.objects := by simp [childObjects, first]
      rw [List.filter_cons_of_pos (by simp [tag]), List.flatMap_cons, own]

end

/-- Wherever the one list of children can be read and its interfaces agree, the other asks for the same. -/
def Exchanges (options : LoadOptions) (children others : List Xml.Element) : Prop :=
  ∀ path parts content, (childrenAsking options path children).run = some (parts, content) →
    Interface.Agree content.interfaces →
    ∃ parts' content', (childrenAsking options path others).run = some (parts', content') ∧
      parts.Perm parts' ∧ content.Matches content'

theorem Exchanges.node {element other : Xml.Element} (children : Exchanges options element.children other.children)
    {name : Option String} {path : String} {content : Content}
    (asks : (nodeAsking options name path element).run = some ((), content))
    (agree : Interface.Agree content.interfaces) :
    ∃ content', (nodeAsking options name path other).run = some ((), content') ∧ content.Matches content' := by
  obtain ⟨parts, inner, object, first, last, rfl⟩ := Asking.bind_eq_some.mp asks
  have inside := agree.of_append.1
  obtain ⟨parts', inner', first', order, matches'⟩ := children path parts inner first inside
  -- Merging hides the order of the parts, which agree because they have all been asked for.
  have same : objectAsking name path parts = objectAsking name path parts' := by
    have merged := (inside.of_subset (childrenAsking_parts first)).merged_perm order
    simp only [objectAsking, merged, ← List.length_eq_zero_iff, order.length_eq]
  refine ⟨inner' * object, ?_, matches'.mul (.refl object)⟩
  exact Asking.bind_eq_some.mpr ⟨parts', inner', object, first', same ▸ last, rfl⟩

/-- The induction is on how the children were rearranged; objects inside them are reached at other paths. -/
theorem Rearranged.exchanges {children others : List Xml.Element} (same : Rearranged children others) :
    Exchanges options children others := by
  induction same with
  | moved order still =>
    intro path parts content asks _
    obtain ⟨found, related, rfl, rfl⟩ := childrenAsking_iff.mp asks
    -- Each child asks for the same wherever it stands.
    obtain ⟨found', related', order'⟩ := List.perm_comp_forall₂ order.symm related
    have asks' := childrenAsking_iff.mpr ⟨found', related', rfl, rfl⟩
    refine ⟨_, _, asks', order'.symm.flatMap_right _, ?_, ?_⟩
    · rw [Content.prod_interfaces, Content.prod_interfaces]
      exact (order'.symm.map _).flatMap_right _
    · rw [childrenAsking_objects asks, childrenAsking_objects asks', still]
  | @inside children others attributes rest _ ih =>
    intro path parts content asks agree
    obtain ⟨found, before, later, after, first, last, rfl, rfl⟩ := childrenAsking_cons.mp asks
    obtain ⟨name, named, asked, rfl⟩ := (childAsking_node_iff rfl).mp first
    have nested : Exchanges options (Xml.Element.mk "node" attributes children).children
      (Xml.Element.mk "node" attributes others).children := ih
    obtain ⟨before', asked', matches'⟩ := nested.node asked agree.of_append.1
    refine ⟨_, before' * after, ?_, .refl _, matches'.mul (.refl after)⟩
    have first' : (childAsking options path ⟨"node", attributes, others⟩).run = some ([], before') :=
      (childAsking_node_iff rfl).mpr ⟨name, named, asked', rfl⟩
    exact childrenAsking_cons.mpr ⟨[], before', later, after, first', last, rfl, rfl⟩
  | beside child _ ih =>
    intro path parts content asks agree
    obtain ⟨found, before, later, after, first, last, rfl, rfl⟩ := childrenAsking_cons.mp asks
    obtain ⟨later', after', last', order, matches'⟩ := ih path later after last agree.of_append.2
    refine ⟨found ++ later', before * after', ?_, order.append_left found, Content.Matches.mul (.refl before) matches'⟩
    exact childrenAsking_cons.mpr ⟨found, before, later', after', first, last', rfl, rfl⟩
  | trans _ _ first second =>
    intro path parts content asks agree
    obtain ⟨parts', content', asks', order, matches'⟩ := first path parts content asks agree
    obtain ⟨parts'', content'', asks'', order', matches''⟩ :=
      second path parts' content' asks' (matches'.agree agree)
    exact ⟨parts'', content'', asks'', order.trans order', matches'.trans matches''⟩

theorem rootAsking_reordered {element other : Xml.Element} (same : element.Reordered other) {content : Content}
    (asks : (rootAsking options element).run = some ((), content)) (agree : Interface.Agree content.interfaces) :
    ∃ content', (rootAsking options other).run = some ((), content') ∧ content.Matches content' := by
  have written : other.attributeD "name" = element.attributeD "name" := by
    simp [Xml.Element.attributeD, Xml.Element.attribute?, same.attributes]
  unfold rootAsking at asks ⊢
  rw [← same.tag]
  split at asks
  · cases asks
  next tag =>
    rw [if_neg tag]
    simp only [pure_bind, written] at asks ⊢
    exact (Rearranged.exchanges same.children).node asks agree

/-- Two texts of one document, apart from the places of interfaces; or two texts that are no documents. -/
def SameDocument (read : String → Option Xml.Element) (text other : String) : Prop :=
  Option.Rel Xml.Element.Reordered (read text) (read other)

theorem SameDocument.symm {text other : String} (same : SameDocument read text other) :
    SameDocument read other text := by
  unfold SameDocument at same ⊢
  generalize read text = first, read other = second at same ⊢
  cases same with
  | some same => exact .some same.symm
  | none => exact .none

theorem documentAsking_reordered {text other : String} (same : SameDocument read text other) {content : Content}
    (asks : (documentAsking read options text).run = some ((), content))
    (agree : Interface.Agree content.interfaces) :
    ∃ content', (documentAsking read options other).run = some ((), content') ∧ content.Matches content' := by
  obtain ⟨element, found, asks⟩ := Asking.lift_bind_eq_some.mp asks
  unfold SameDocument at same
  rw [found] at same
  generalize found' : read other = second at same
  cases same with
  | @some _ element' same =>
    obtain ⟨content', asks', matches'⟩ := rootAsking_reordered same asks agree
    exact ⟨content', Asking.lift_bind_eq_some.mpr ⟨element', found', asks'⟩, matches'⟩

/-- Each text is loaded, after all texts before it. -/
def AllLoad (read : String → Option Xml.Element) (options : LoadOptions) (loader : Loader) : List String → Prop
  | [] => True
  | text :: rest =>
    ((documentBy read options text).run loader).1 = .ok () ∧ AllLoad read options (take read options loader text) rest

/-- What each text asks for. -/
abbrev Ask (read : String → Option Xml.Element) (options : LoadOptions) (texts : List String)
    (contents : List Content) : Prop :=
  List.Forall₂ (fun text content => (documentAsking read options text).run = some ((), content)) texts contents

theorem AllLoad.asks {loader : Loader} {texts : List String} (loads : AllLoad read options loader texts) :
    ∃ contents, Ask read options texts contents ∧ loader.Admits contents.prod := by
  induction texts generalizing loader with
  | nil => exact ⟨[], .nil, .nothing loader⟩
  | cons text rest ih =>
    obtain ⟨first, later⟩ := loads
    obtain ⟨content, asks, admits, gains⟩ := (documentBy_loads read text).sound loader () _ (Prod.ext first rfl)
    obtain ⟨contents, related, admits'⟩ := ih later
    refine ⟨content :: contents, .cons asks related, ?_⟩
    rw [List.prod_cons]
    exact (admits_mul gains).mpr ⟨admits, admits'⟩

theorem Ask.loads {texts : List String} {contents : List Content} (asks : Ask read options texts contents)
    {loader : Loader} (admits : loader.Admits contents.prod) :
    AllLoad read options loader texts ∧ loader.Gains contents.prod (texts.foldl (take read options) loader) := by
  induction asks generalizing loader with
  | nil => exact ⟨trivial, .nothing rfl rfl⟩
  | @cons text content rest contents first _ ih =>
    rw [List.prod_cons] at admits ⊢
    obtain ⟨after, ran, gains⟩ := (documentBy_loads read text).adds first admits.left
    have taken : take read options loader text = after := congrArg Prod.snd ran
    obtain ⟨loads, gains'⟩ := ih ((admits_mul gains).mp admits).2
    rw [List.foldl_cons, taken]
    exact ⟨⟨congrArg Prod.fst ran, taken ▸ loads⟩, gains.trans gains'⟩

theorem Admits.reorder {loader : Loader} {content content' : Content} (admits : loader.Admits content)
    (interfaces : content.interfaces.Perm content'.interfaces) (objects : content.objects.Perm content'.objects) :
    loader.Admits content' where
  known part inside := admits.known part (interfaces.mem_iff.mpr inside)
  agree := admits.agree.of_subset interfaces.symm.subset
  fresh object inside := admits.fresh object (objects.mem_iff.mpr inside)
  distinct := (objects.map ObjectNode.name).nodup_iff.mp admits.distinct

/-- When the texts of one arrangement can be loaded and those of the other ask for the same in another order, these can
be loaded too and give the same. -/
theorem AllLoad.reorder {texts others : List String} {contents contents' : List Content}
    (asks : Ask read options texts contents) (asks' : Ask read options others contents')
    (admits : Admits {} contents.prod) (interfaces : contents.prod.interfaces.Perm contents'.prod.interfaces)
    (objects : contents.prod.objects.Perm contents'.prod.objects) :
    AllLoad read options {} others ∧
      (history read options texts).objects = contents.prod.objects ∧
      (history read options others).objects = contents'.prod.objects ∧
      ∀ name, (history read options texts).known? name = (history read options others).known? name := by
  obtain ⟨-, gains⟩ := asks.loads admits
  obtain ⟨loads', gains'⟩ := asks'.loads (admits.reorder interfaces objects)
  refine ⟨loads', gains.objects, gains'.objects, ?_⟩
  intro name
  have same := admits.agree.find?_perm interfaces name
  exact (gains.table name).trans (same ▸ (gains'.table name).symm)

theorem Ask.rearranged {texts others : List String} (same : List.Forall₂ (SameDocument read) texts others)
    {contents : List Content} (asks : Ask read options texts contents)
    (agree : Interface.Agree contents.prod.interfaces) :
    ∃ contents', Ask read options others contents' ∧ contents.prod.Matches contents'.prod := by
  induction same generalizing contents with
  | nil =>
    cases asks
    exact ⟨[], .nil, .refl 1⟩
  | cons first _ ih =>
    obtain ⟨content, rest, asked, later, rfl⟩ := List.forall₂_cons_left_iff.mp asks
    rw [List.prod_cons] at agree ⊢
    obtain ⟨content', asked', one⟩ := documentAsking_reordered first asked agree.of_append.1
    obtain ⟨rest', later', two⟩ := ih later agree.of_append.2
    refine ⟨content' :: rest', .cons asked' later', ?_⟩
    rw [List.prod_cons]
    exact one.mul two

theorem AllLoad.perm {texts others : List String} (order : texts.Perm others)
    (loads : AllLoad read options {} texts) :
    AllLoad read options {} others ∧
      (history read options texts).objects.Perm (history read options others).objects ∧
      ∀ name, (history read options texts).known? name = (history read options others).known? name := by
  obtain ⟨contents, asks, admits⟩ := loads.asks
  obtain ⟨contents', asks', moved⟩ := List.perm_comp_forall₂ order.symm asks
  have interfaces : contents.prod.interfaces.Perm contents'.prod.interfaces := by
    simpa using moved.symm.flatMap_right Content.interfaces
  have objects : contents.prod.objects.Perm contents'.prod.objects := by
    simpa using moved.symm.flatMap_right Content.objects
  obtain ⟨loads', found, found', table⟩ := AllLoad.reorder asks asks' admits interfaces objects
  exact ⟨loads', by rwa [found, found'], table⟩

theorem AllLoad.rearranged {texts others : List String} (same : List.Forall₂ (SameDocument read) texts others)
    (loads : AllLoad read options {} texts) :
    AllLoad read options {} others ∧
      (history read options texts).objects = (history read options others).objects ∧
      ∀ name, (history read options texts).known? name = (history read options others).known? name := by
  obtain ⟨contents, asks, admits⟩ := loads.asks
  obtain ⟨contents', asks', matches'⟩ := Ask.rearranged same asks admits.agree
  obtain ⟨loads', found, found', table⟩ :=
    AllLoad.reorder asks asks' admits matches'.interfaces (.of_eq matches'.objects)
  exact ⟨loads', by rw [found, found', matches'.objects], table⟩

/-- Whether all documents can be loaded depends neither on their order nor on that of the interfaces inside them, and
nor does what is then held. The order of objects is that of the documents. -/
theorem load_order_immaterial (read : String → Option Xml.Element) (options : LoadOptions)
    {texts permuted others : List String} (order : texts.Perm permuted)
    (inside : List.Forall₂ (SameDocument read) permuted others) :
    (AllLoad read options {} texts ↔ AllLoad read options {} others) ∧
      (AllLoad read options {} texts →
        (history read options texts).objects.Perm (history read options others).objects ∧
        (texts = permuted → (history read options texts).objects = (history read options others).objects) ∧
        ∀ name, (history read options texts).known? name = (history read options others).known? name) := by
  refine ⟨⟨?_, ?_⟩, ?_⟩
  · intro loads
    exact ((loads.perm order).1.rearranged inside).1
  · intro loads
    have back := (inside.imp fun _ _ same => same.symm).flip
    exact ((loads.rearranged back).1.perm order.symm).1
  · intro loads
    obtain ⟨loads', objects, table⟩ := loads.perm order
    obtain ⟨-, objects', table'⟩ := loads'.rearranged inside
    refine ⟨objects' ▸ objects, ?_, fun name => (table name).trans (table' name)⟩
    rintro rfl
    exact objects'

def hall : String :=
  "<node name=\"Hall\"><interface name=\"home.Light\"/><interface name=\"home.Door\"/></node>"

def turnedHall : String :=
  "<node name=\"Hall\"><interface name=\"home.Door\"/><interface name=\"home.Light\"/></node>"

def porch : String :=
  "<node name=\"Porch\"><interface name=\"home.Light\"/></node>"

theorem hall_before_or_after_porch :
    AllLoad Xml.Element.ofDocument? {} {} [hall, porch] ∧
      AllLoad Xml.Element.ofDocument? {} {} [porch, turnedHall] ∧
      (history Xml.Element.ofDocument? {} [hall, porch]).objects.Perm
        (history Xml.Element.ofDocument? {} [porch, turnedHall]).objects := by
  let light : Xml.Element := ⟨"interface", [("name", "home.Light")], []⟩
  let door : Xml.Element := ⟨"interface", [("name", "home.Door")], []⟩
  have halls : SameDocument Xml.Element.ofDocument? hall turnedHall := by
    have read : Xml.Element.ofDocument? hall = some ⟨"node", [("name", "Hall")], [light, door]⟩ := by
      with_unfolding_all rfl
    have read' : Xml.Element.ofDocument? turnedHall = some ⟨"node", [("name", "Hall")], [door, light]⟩ := by
      with_unfolding_all rfl
    rw [SameDocument, read, read']
    exact .some ⟨rfl, rfl, .moved (.swap door light []) rfl⟩
  have porches : SameDocument Xml.Element.ofDocument? porch porch := by
    have read : Xml.Element.ofDocument? porch = some ⟨"node", [("name", "Porch")], [light]⟩ := by
      with_unfolding_all rfl
    rw [SameDocument, read]
    exact .some ⟨rfl, rfl, .moved (.refl _) rfl⟩
  have loads : AllLoad Xml.Element.ofDocument? {} {} [hall, porch] :=
    ⟨by decide +kernel, by decide +kernel, trivial⟩
  obtain ⟨both, same⟩ := load_order_immaterial Xml.Element.ofDocument? {} (.swap porch hall [])
    (.cons porches (.cons halls .nil))
  exact ⟨loads, both.mp loads, (same loads).1⟩

end Loader
end BusStub
