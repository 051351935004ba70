import BusStub.Proofs.LoadedContent
import BusStub.Proofs.WrittenMembers

/-! The objects that a document adds. A document is a tree of nodes: its outermost element, and those directly inside
nodes; what is inside interfaces and other elements belongs to no object. Every node with an interface of its own
becomes one object, after all nodes inside it. -/

namespace BusStub.Loader

open Xml (Element)
open Xml.Element (tagged)

/-- A node of a document, with the names from the outermost named node down to it and the path that they lead to. -/
structure Site where
  trail : List String
  path : String
  element : Element

mutual
/-- The nodes of a tree in the order in which they end. -/
def sites (trail : List String) (path : String) : Element → List Site
  | ⟨tag, attributes, children⟩ => sitesAmong trail path children ++ [⟨trail, path, ⟨tag, attributes, children⟩⟩]
termination_by structural element => element

def sitesAmong (trail : List String) (path : String) : List Element → List Site
  | [] => []
  | child :: rest =>
    let name := child.attributeD "name"
    let inner := if child.tag = "node" then sites (trail ++ [name]) (ObjectPath.join path name) child else []
    inner ++ sitesAmong trail path rest
termination_by structural elements => elements
end

/-- The nodes of a document. -/
def documentSites (options : LoadOptions) (element : Element) : List Site :=
  let written := element.attributeD "name"
  let name := outermostName options written
  sites name.toList (rootPath options written name) element

/-- The interfaces among the children of a node, without those that every object has anyway. -/
def ownInterfaces (children : List Element) : List Element :=
  (tagged "interface" children).filter fun child => !isStandard (child.attributeD "name")

namespace Site

/-- The nodes that offer something. -/
def offers (site : Site) : Bool :=
  !(ownInterfaces site.element.children).isEmpty

/-- The object that is made of a node. -/
structure Becomes (site : Site) (object : ObjectNode) : Prop where
  name : site.trail.getLast? = some object.name
  path : object.path = site.path
  interface : object.interface = .merged ((ownInterfaces site.element.children).map Interface.written)

end Site

variable {options : LoadOptions} {child element : Element} {children : List Element} {content : Content}

theorem nestedName_written {name : String} (found : nestedName element = .ok name) :
    name = element.attributeD "name" := by
  simp only [nestedName] at found
  split at found <;> cases found
  rfl

theorem interfaceAsking_written {found : Option Interface}
    (asks : (interfaceAsking options element).run = some (found, content)) :
    content.objects = [] ∧
      found.toList = if isStandard (element.attributeD "name") then [] else [Interface.written element] := by
  unfold interfaceAsking at asks
  split at asks
  next standard =>
    cases asks
    rw [if_pos standard]
    exact ⟨rfl, rfl⟩
  next own =>
    obtain ⟨interface, read, asks⟩ := Asking.lift_bind_eq_some.mp asks
    cases asks
    have same : interface = Interface.written element := by
      apply (Interface.ofElement_written options.lax element).holds []
      exact ok_of_toOption read
    rw [if_neg own, same]
    exact ⟨rfl, rfl⟩

theorem objectAsking_becomes (site : Site)
    (asks : (objectAsking site.trail.getLast? site.path
      ((ownInterfaces site.element.children).map Interface.written)).run = some ((), content)) :
    List.Forall₂ Site.Becomes ([site].filter Site.offers) content.objects := by
  unfold objectAsking at asks
  split at asks
  next empty =>
    cases asks
    have silent : site.offers = false := by simpa [Site.offers] using empty
    simp [silent]
  next some =>
    obtain ⟨name, named, asks⟩ := Asking.lift_bind_eq_some.mp asks
    cases asks
    have offers : site.offers = true := by simpa [Site.offers] using some
    rw [List.filter_singleton, offers]
    exact .cons ⟨named, rfl, rfl⟩ .nil

theorem ownInterfaces_cons :
    ownInterfaces (child :: children) =
      (if child.tag = "interface" then (if isStandard (child.attributeD "name") then [] else [child]) else []) ++
        ownInterfaces children := by
  by_cases tag : child.tag = "interface" <;> by_cases standard : isStandard (child.attributeD "name") <;>
    simp [ownInterfaces, tagged, tag, standard]

mutual
/-- The induction is on the element. What its children ask for comes before the object of the element itself. -/
theorem nodeAsking_flattens : (element : Element) → (trail : List String) → (path : String) → (content : Content) →
    (nodeAsking options trail.getLast? path element).run = some ((), content) →
    List.Forall₂ Site.Becomes ((sites trail path element).filter Site.offers) content.objects
  | ⟨tag, attributes, children⟩, trail, path, _, asks => by
    obtain ⟨parts, before, object, first, last, rfl⟩ := Asking.bind_eq_some.mp asks
    obtain ⟨rfl, inner⟩ := childrenAsking_flattens children trail path parts before first
    rw [sites, List.filter_append, Content.mul_objects]
    exact List.rel_append inner (objectAsking_becomes ⟨trail, path, ⟨tag, attributes, children⟩⟩ last)

theorem childrenAsking_flattens : (children : List Element) → (trail : List String) → (path : String) →
    (parts : List Interface) → (content : Content) →
    (childrenAsking options path children).run = some (parts, content) →
    parts = (ownInterfaces children).map Interface.written ∧
      List.Forall₂ Site.Becomes ((sitesAmong trail path children).filter Site.offers) content.objects
  | [], trail, path, _, _, asks => by
    cases asks
    exact ⟨rfl, .nil⟩
  | child :: rest, trail, path, _, _, asks => by
    obtain ⟨found, before, others, after, first, later, rfl, rfl⟩ := childrenAsking_cons.mp asks
    obtain ⟨rfl, tail⟩ := childrenAsking_flattens rest trail path others after later
    rw [ownInterfaces_cons, sitesAmong, List.filter_append, Content.mul_objects, List.map_append]
    by_cases interface : child.tag = "interface"
    · rw [childAsking_interface interface] at first
      obtain ⟨found, asked, rfl⟩ := Asking.bind_pure_eq_some.mp first
      obtain ⟨nothing, same⟩ := interfaceAsking_written asked
      have node : child.tag ≠ "node" := by simp [interface]
      rw [if_pos interface, if_neg node, nothing, same]
      refine ⟨?_, tail⟩
      split <;> rfl
    · rw [if_neg interface]
      by_cases node : child.tag = "node"
      · rw [childAsking_node node] at first
        obtain ⟨name, named, inner⟩ := Asking.lift_bind_eq_some.mp first
        obtain ⟨_, asked, rfl⟩ := Asking.bind_pure_eq_some.mp inner
        cases nestedName_written (ok_of_toOption named)
        rw [if_pos node]
        refine ⟨rfl, List.rel_append ?_ tail⟩
        apply nodeAsking_flattens child
        rwa [List.getLast?_concat]
      · rw [childAsking_other interface node] at first
        cases first
        rw [if_neg node]
        exact ⟨rfl, tail⟩
end

theorem rootAsking_flattens (asks : (rootAsking options element).run = some ((), content)) :
    List.Forall₂ Site.Becomes ((documentSites options element).filter Site.offers) content.objects := by
  unfold rootAsking at asks
  split at asks
  next => cases asks
  next =>
    simp only [pure_bind] at asks
    apply nodeAsking_flattens element
    have last : (outermostName options (element.attributeD "name")).toList.getLast? =
        outermostName options (element.attributeD "name") := by
      cases outermostName options (element.attributeD "name") <;> rfl
    rwa [last]

/-- What a document adds is asked for by its outermost element. -/
theorem documentBy_asks {read : String → Option Element} {loader after : Loader} {text : String}
    (loads : (documentBy read options text).run loader = (.ok (), after)) :
    ∃ element content, read text = some element ∧ (rootAsking options element).run = some ((), content) ∧
      after.objects = loader.objects ++ content.objects := by
  obtain ⟨content, asks, -, gains⟩ := (documentBy_loads read text).sound loader () after loads
  obtain ⟨element, found, asks⟩ := Asking.lift_bind_eq_some.mp asks
  exact ⟨element, content, found, asks, gains.objects⟩

/-- A document that can be loaded adds exactly one object for each node with an interface of its own, in the order in
which the nodes end. The object has the name and the path of the node, and the interfaces as the node writes them. -/
theorem objects_flattened {read : String → Option Element} {loader after : Loader} {text : String}
    (loads : (documentBy read options text).run loader = (.ok (), after)) :
    ∃ element added, read text = some element ∧ after.objects = loader.objects ++ added ∧
      List.Forall₂ Site.Becomes ((documentSites options element).filter Site.offers) added := by
  obtain ⟨element, content, found, asks, objects⟩ := documentBy_asks loads
  exact ⟨element, content.objects, found, objects, rootAsking_flattens asks⟩

/-- A house with a hall in it and an attic that offers nothing. -/
def house : String :=
  "<node name=\"House\"><node name=\"Hall\"><interface name=\"home.Light\"/></node><node name=\"Attic\"/>" ++
  "<interface name=\"home.Door\"/></node>"

theorem house_flattened :
    ∃ element after, Element.ofDocument? house = some element ∧
      (documentBy Element.ofDocument? {} house).run {} = (.ok (), after) ∧
      after.objects.map ObjectNode.path = ["/House/Hall", "/House"] ∧
      List.Forall₂ Site.Becomes ((documentSites {} element).filter Site.offers) after.objects := by
  have loads : ((documentBy Element.ofDocument? {} house).run {}).map id (·.objects.map ObjectNode.path) =
      (.ok (), ["/House/Hall", "/House"]) := by
    decide +kernel
  rcases ran : (documentBy Element.ofDocument? {} house).run {} with ⟨result, after⟩
  rw [ran] at loads
  obtain ⟨rfl, paths⟩ := Prod.mk.inj loads
  obtain ⟨element, added, found, same, related⟩ := objects_flattened ran
  refine ⟨element, after, found, rfl, paths, ?_⟩
  rw [same]
  exact related

end BusStub.Loader
