import BusStub.Proofs.Flattening

/-! The path that is given for what is above the outermost object. Every object of a document is below it exactly when
the outermost node has a name. -/

namespace BusStub

namespace ObjectPath

/-- The path to which names lead from a base, one after the other. -/
def under (base : String) (names : List String) : String :=
  names.foldl join base

theorem under_cons (base name : String) (rest : List String) :
    under base (name :: rest) = under (join base name) rest :=
  List.foldl_cons ..

/-- The text can be followed by a slash as it is. -/
def Closed (text : String) : Prop :=
  ∃ c, text.toList.getLast? = some c ∧ c ≠ '/'

theorem trimEnd_closed {text : String} (base : String) (closed : Closed text) :
    Text.trimEnd '/' (base ++ text) = base ++ text := by
  obtain ⟨c, last, other⟩ := closed
  obtain ⟨front, same⟩ := List.getLast?_eq_some_iff.mp last
  have kept : (base ++ text).toList.reverse.dropWhile (· = '/') = (base ++ text).toList.reverse := by
    rw [String.toList_append, same, ← List.append_assoc, List.reverse_concat]
    exact List.dropWhile_cons_of_neg (by simpa using other)
  rw [Text.trimEnd, kept, List.reverse_reverse, String.ofList_toList]

theorem Closed.of_plain {name : String} (some : name ≠ "") (plain : '/' ∉ name.toList) : Closed name := by
  have nonempty : name.toList ≠ [] := by simpa using some
  refine ⟨name.toList.getLast nonempty, List.getLast?_eq_some_getLast nonempty, ?_⟩
  intro slash
  exact plain (slash ▸ List.getLast_mem nonempty)

/-- Names that can be followed by a slash are written one after the other. -/
theorem under_eq {name : String} {rest : List String} (closed : ∀ part ∈ name :: rest, Closed part) (base : String) :
    under base (name :: rest) = Text.trimEnd '/' base ++ "/" ++ String.intercalate "/" (name :: rest) := by
  induction rest generalizing base name with
  | nil =>
    rw [String.intercalate_singleton]
    rfl
  | cons second rest ih =>
    obtain ⟨first, others⟩ := List.forall_mem_cons.mp closed
    rw [under_cons, ih others, join, trimEnd_closed _ first, String.intercalate_cons_cons]
    simp only [String.append_assoc]

theorem closed_of_valid {path : String} (valid : fault? path = none) : path = "/" ∨ Closed path := by
  unfold fault? at valid
  split at valid
  next rest chars =>
    split at valid
    next empty =>
      left
      rw [← String.toList_inj, chars, List.isEmpty_iff.mp empty]
      rfl
    next some =>
      split at valid
      next => cases valid
      next last =>
        right
        have nonempty : rest ≠ [] := by simpa using some
        refine ⟨rest.getLast nonempty, ?_, ?_⟩
        · rw [chars, List.getLast?_cons_of_ne_nil nonempty]
          exact List.getLast?_eq_some_getLast nonempty
        · intro slash
          exact last (slash ▸ List.getLast?_eq_some_getLast nonempty)
  next => cases valid

/-- Names lead from a valid path to where they lead from the root of all paths only if it is that root. -/
theorem under_root_eq_iff {path : String} (valid : fault? path = none) {name : String} {rest : List String}
    (closed : ∀ part ∈ name :: rest, Closed part) :
    under "/" (name :: rest) = under path (name :: rest) ↔ path = "/" := by
  constructor
  · intro same
    rw [under_eq closed, under_eq closed, String.append_left_inj, String.append_left_inj] at same
    rcases closed_of_valid valid with root | ended
    · exact root
    · have whole : Text.trimEnd '/' path = path := by simpa using trimEnd_closed "" ended
      rw [whole] at same
      obtain ⟨c, last, -⟩ := ended
      rw [← same] at last
      simp [Text.trimEnd] at last
  · rintro rfl
    rfl

end ObjectPath

namespace Loader

open Xml (Element)

variable {options : LoadOptions} {element : Element}

/-- A node that is reached from another along names that can stand in a path. -/
def Site.Follows (trail : List String) (path : String) (site : Site) : Prop :=
  ∃ names, (∀ name ∈ names, ObjectPath.Closed name) ∧ site.trail = trail ++ names ∧
    site.path = ObjectPath.under path names

theorem Site.Follows.inner {trail : List String} {path name : String} {site : Site} (closed : ObjectPath.Closed name)
    (follows : site.Follows (trail ++ [name]) (ObjectPath.join path name)) : site.Follows trail path := by
  obtain ⟨names, others, same, leads⟩ := follows
  refine ⟨name :: names, List.forall_mem_cons.mpr ⟨closed, others⟩, ?_, ?_⟩
  · rw [same, List.append_assoc, List.singleton_append]
  · rw [leads, ObjectPath.under_cons]

theorem nestedName_closed {name : String} (found : nestedName element = .ok name) : ObjectPath.Closed name := by
  refine .of_plain ?_ (nestedName_ok found)
  simp only [nestedName] at found
  split at found
  next => cases found
  next plain =>
    cases found
    intro empty
    simp [empty] at plain

mutual
/-- The induction is on the element. A name is checked before it is followed into a node. -/
theorem nodeAsking_follows : (element : Element) → (name : Option String) → (trail : List String) → (path : String) →
    (content : Content) → (nodeAsking options name path element).run = some ((), content) →
    ∀ site ∈ sites trail path element, site.Follows trail path
  | ⟨tag, attributes, children⟩, name, trail, path, _, asks => by
    obtain ⟨parts, before, object, first, last, rfl⟩ := Asking.bind_eq_some.mp asks
    rw [sites]
    refine List.forall_mem_append.mpr ⟨?_, List.forall_mem_singleton.mpr ?_⟩
    · exact childrenAsking_follows children trail path parts before first
    · exact ⟨[], nofun, (List.append_nil trail).symm, rfl⟩

theorem childrenAsking_follows : (children : List Element) → (trail : List String) → (path : String) →
    (parts : List Interface) → (content : Content) →
    (childrenAsking options path children).run = some (parts, content) →
    ∀ site ∈ sitesAmong trail path children, site.Follows trail path
  | [], trail, path, _, _, asks => by
    rw [sitesAmong]
    exact nofun
  | child :: rest, trail, path, _, _, asks => by
    obtain ⟨found, before, others, after, first, later, rfl, rfl⟩ := childrenAsking_cons.mp asks
    rw [sitesAmong]
    refine List.forall_mem_append.mpr ⟨?_, childrenAsking_follows rest trail path others after later⟩
    split
    next node =>
      rw [childAsking_node node] at first
      obtain ⟨name, named, inner⟩ := Asking.lift_bind_eq_some.mp first
      obtain ⟨_, asked, rfl⟩ := Asking.bind_pure_eq_some.mp inner
      have found := ok_of_toOption named
      cases nestedName_written found
      intro site inside
      exact (nodeAsking_follows child _ _ _ _ asked site inside).inner (nestedName_closed found)
    next => exact nofun
end

theorem rootAsking_follows {content : Content} (asks : (rootAsking options element).run = some ((), content)) :
    let name := outermostName options (element.attributeD "name")
    ∀ site ∈ documentSites options element,
      site.Follows name.toList (rootPath options (element.attributeD "name") name) := by
  unfold rootAsking at asks
  split at asks
  next => cases asks
  next =>
    simp only [pure_bind] at asks
    exact nodeAsking_follows element _ _ _ content asks

theorem outermostName_closed {written name : String} (found : outermostName options written = some name)
    (given : ∀ called ∈ options.objectName, ObjectPath.Closed called) : ObjectPath.Closed name := by
  unfold outermostName at found
  split at found
  next called same =>
    cases found
    exact given name same
  next =>
    split at found
    next => cases found
    next some =>
      cases found
      exact .of_plain (by simpa using some) (Text.not_mem_afterLast '/' written)

/-- How the object of a node lies with respect to a path that is given for what is above the document. -/
structure Site.Placed (options : LoadOptions) (above : String) (element : Element) (site : Site) (object : ObjectNode) :
    Prop where
  becomes : site.Becomes object
  below : object.path = ObjectPath.under above site.trail ↔
    (outermostName options (element.attributeD "name")).isSome ∨ above = "/"
  names : (∀ name ∈ options.objectName, ObjectPath.Closed name) →
    ObjectPath.under above site.trail = Text.trimEnd '/' above ++ "/" ++ String.intercalate "/" site.trail

theorem Site.Follows.placed {above : String} (given : options.objectPath = some above)
    (valid : ObjectPath.fault? above = none) {site : Site} {object : ObjectNode}
    (follows : site.Follows (outermostName options (element.attributeD "name")).toList
      (rootPath options (element.attributeD "name") (outermostName options (element.attributeD "name"))))
    (becomes : site.Becomes object) : site.Placed options above element object := by
  obtain ⟨names, closed, trail, leads⟩ := follows
  cases outermost : outermostName options (element.attributeD "name") with
  | some name =>
    rw [outermost] at trail leads
    have whole : site.trail = name :: names := trail
    refine ⟨becomes, ?_, ?_⟩
    · rw [becomes.path, leads, whole, ObjectPath.under_cons, rootPath, given, Option.getD_some, outermost]
      simp
    · intro plain
      rw [whole]
      exact ObjectPath.under_eq (List.forall_mem_cons.mpr ⟨outermostName_closed outermost plain, closed⟩) above
  | none =>
    rw [outermost] at trail leads
    have whole : site.trail = names := trail
    -- A node without a name becomes no object, so there is a name on the way.
    obtain ⟨first, rest, rfl⟩ : ∃ first rest, names = first :: rest := by
      apply List.exists_cons_of_ne_nil
      rintro rfl
      have named := becomes.name
      rw [whole] at named
      cases named
    refine ⟨becomes, ?_, ?_⟩
    · rw [becomes.path, leads, whole, rootPath, ObjectPath.under_root_eq_iff valid closed, outermost]
      simp
    · intro _
      rw [whole]
      exact ObjectPath.under_eq closed above

/-- With a path given for what is above a document, exactly those objects that the document adds are below it whose
outermost node has a name; below the root of all paths, all are. -/
theorem objects_placed {read : String → Option Element} {loader after : Loader} {text above : String}
    (given : options.objectPath = some above) (valid : ObjectPath.fault? above = none)
    (loads : (documentBy read options text).run loader = (.ok (), after)) :
    ∃ element added, read text = some element ∧ after.objects = loader.objects ++ added ∧
      List.Forall₂ (Site.Placed options above element) ((documentSites options element).filter Site.offers) added := by
  obtain ⟨element, content, found, asks, objects⟩ := documentBy_asks loads
  refine ⟨element, content.objects, found, objects, ?_⟩
  have follows := rootAsking_follows asks
  have both := (List.forall₂_and_left _ _).mpr
    ⟨fun site inside => follows site (List.mem_of_mem_filter inside), rootAsking_flattens asks⟩
  exact both.imp fun site object ⟨reached, becomes⟩ => reached.placed given valid becomes

/-- A kitchen, in a node that may have a name. -/
def kitchenIn (attributes : String) : String :=
  "<node" ++ attributes ++ "><node name=\"Kitchen\"><interface name=\"org.example.Room\"><method name=\"Lights\"/>" ++
  "</interface></node></node>"

theorem home_placed :
    ∃ element after, Element.ofDocument? (kitchenIn " name=\"Home\"") = some element ∧
      (documentBy Element.ofDocument? { objectPath := some "/org" } (kitchenIn " name=\"Home\"")).run {} =
        (.ok (), after) ∧
      after.objects.map ObjectNode.path = ["/org/Home/Kitchen"] ∧
      List.Forall₂ (Site.Placed { objectPath := some "/org" } "/org" element)
        ((documentSites { objectPath := some "/org" } element).filter Site.offers) after.objects := by
  have loads : ((documentBy Element.ofDocument? { objectPath := some "/org" } (kitchenIn " name=\"Home\"")).run {}).map
      id (·.objects.map ObjectNode.path) = (.ok (), ["/org/Home/Kitchen"]) := by
    decide +kernel
  have valid : ObjectPath.fault? "/org" = none := by decide +kernel
  rcases ran : (documentBy Element.ofDocument? { objectPath := some "/org" } (kitchenIn " name=\"Home\"")).run {}
    with ⟨result, after⟩
  rw [ran] at loads
  obtain ⟨rfl, paths⟩ := Prod.mk.inj loads
  obtain ⟨element, added, found, same, placed⟩ := objects_placed rfl valid ran
  refine ⟨element, after, found, rfl, paths, ?_⟩
  rw [same]
  exact placed

/-- Nothing of the path is left when the outermost node has no name. -/
theorem kitchen_misplaced :
    let options : LoadOptions := { objectPath := some "/org/home" }
    let run := (documentBy Element.ofDocument? options (kitchenIn "")).run {}
    ObjectPath.fault? "/org/home" = none ∧ (run.1, run.2.objects.map ObjectNode.path) = (.ok (), ["/Kitchen"]) ∧
      (Element.ofDocument? (kitchenIn "")).map (fun element =>
        ((documentSites options element).filter Site.offers).map Site.trail) = some [["Kitchen"]] ∧
      ObjectPath.under "/org/home" ["Kitchen"] = "/org/home/Kitchen" ∧
      Text.trimEnd '/' "/org/home" ++ "/" ++ String.intercalate "/" ["Kitchen"] = "/org/home/Kitchen" :=
  ⟨by decide +kernel, by decide +kernel, by decide +kernel, by decide +kernel, by decide +kernel⟩

end Loader
end BusStub
