import BusStub.Proofs.ParentPath

/-! Paths of objects that are made of names. The check of a path accepts exactly the texts of its grammar. A document
whose names can stand in a path gives its objects such paths, however deep they are and whatever is above them. -/

namespace BusStub

namespace ObjectPath

/-- ASCII letters, digits and underscores. -/
def IsRun (name : String) : Prop :=
  ∀ c ∈ name.toList, c.isAlpha ∨ c.isDigit ∨ c = '_'

instance (name : String) : Decidable (IsRun name) :=
  List.decidableBAll _ name.toList

structure IsElement (name : String) : Prop where
  some : name ≠ ""
  run : IsRun name

/-- Every name after a slash. -/
def along (names : List String) : String :=
  String.join (names.map ("/" ++ ·))

/-- The slash alone, or one or more elements, each after a slash. -/
def IsPath (path : String) : Prop :=
  path = "/" ∨ ∃ names, names ≠ [] ∧ (∀ name ∈ names, IsElement name) ∧ path = along names

theorem along_concat (names : List String) (name : String) : along (names ++ [name]) = along names ++ "/" ++ name := by
  simp [along, String.join_append, String.append_assoc]

theorem intercalate_along (first : String) (names : List String) :
    String.intercalate "/" (first :: names) = first ++ along names := by
  induction names generalizing first with
  | nil => simp [along]
  | cons name rest ih =>
    rw [String.intercalate_cons_cons, ih]
    simp [along, String.append_assoc]

theorem along_cons (first : String) (names : List String) :
    along (first :: names) = "/" ++ String.intercalate "/" (first :: names) := by
  rw [intercalate_along]
  simp [along, String.append_assoc]

theorem IsRun.plain {name : String} (run : IsRun name) : '/' ∉ name.toList := by
  intro slash
  exact absurd (run '/' slash) (by decide)

theorem IsElement.closed {name : String} (element : IsElement name) : Closed name :=
  .of_plain element.some element.run.plain

theorem elementFault?_eq_none_iff {name : String} : elementFault? name.toList = none ↔ IsElement name := by
  have same (c : Char) : isElementChar c = true ↔ c.isAlpha ∨ c.isDigit ∨ c = '_' := by
    simp [isElementChar, Char.isAlphanum, or_assoc]
  have run : name.toList.all isElementChar = true ↔ IsRun name := by
    simp [IsRun, same]
  unfold elementFault?
  split
  next empty =>
    refine iff_of_false nofun fun element => element.some ?_
    simpa using empty
  next some =>
    split
    next inside => exact iff_of_true rfl ⟨by simpa using some, run.mp inside⟩
    next outside => exact iff_of_false nofun fun element => outside (run.mpr element.run)

theorem isPath_of_elements {path : String} {rest : List Char} (chars : path.toList = '/' :: rest)
    (elements : ∀ piece ∈ Text.split '/' rest, elementFault? piece = none) : IsPath path := by
  refine .inr ⟨(Text.split '/' rest).map String.ofList, ?_, ?_, ?_⟩
  · simp [Text.split_ne_nil]
  · intro name inside
    obtain ⟨piece, member, rfl⟩ := List.mem_map.mp inside
    rw [← elementFault?_eq_none_iff, String.toList_ofList]
    exact elements piece member
  · obtain ⟨first, others, pieces⟩ := List.exists_cons_of_ne_nil (Text.split_ne_nil '/' rest)
    have joined := Text.intercalate_split '/' rest
    rw [pieces] at joined ⊢
    rw [List.map_cons, along_cons, ← List.map_cons, ← String.toList_inj, chars, String.toList_append,
      String.toList_intercalate, List.map_map]
    simpa [Function.comp_def] using joined.symm

theorem elements_of_isPath {names : List String} (some : names ≠ []) (elements : ∀ name ∈ names, IsElement name) :
    ∃ rest, (along names).toList = '/' :: rest ∧ Text.split '/' rest = names.map String.toList := by
  obtain ⟨first, others, rfl⟩ := List.exists_cons_of_ne_nil some
  refine ⟨(String.intercalate "/" (first :: others)).toList, ?_, ?_⟩
  · rw [along_cons, String.toList_append]
    rfl
  · have plain : ∀ piece ∈ (first :: others).map String.toList, '/' ∉ piece :=
      List.forall_mem_map.mpr fun name member => (elements name member).run.plain
    rw [String.toList_intercalate]
    exact Text.split_intercalate nofun plain

theorem fault?_slash {path : String} {rest : List Char} (chars : path.toList = '/' :: rest) :
    fault? path =
      if rest.isEmpty then none
      else if rest.getLast? = some '/' then some .trailingSlash
      else (Text.split '/' rest).findSome? elementFault? := by
  unfold fault?
  rw [chars]
  rfl

/-- A path is accepted exactly if it is one. -/
theorem fault?_eq_none_iff (path : String) : fault? path = none ↔ IsPath path := by
  constructor
  · intro valid
    cases chars : path.toList with
    | nil => simp [fault?, chars] at valid
    | cons c rest =>
      by_cases slash : c = '/'
      · subst slash
        rw [fault?_slash chars] at valid
        split at valid
        next empty =>
          left
          rw [← String.toList_inj, chars, List.isEmpty_iff.mp empty]
          rfl
        next =>
          split at valid
          next => cases valid
          next => exact isPath_of_elements chars (List.findSome?_eq_none_iff.mp valid)
      · unfold fault? at valid
        rw [chars] at valid
        split at valid
        next same => exact absurd (List.cons.inj same).1 slash
        next => cases valid
  · rintro (rfl | ⟨names, nonempty, elements, rfl⟩)
    · decide
    · obtain ⟨rest, chars, pieces⟩ := elements_of_isPath nonempty elements
      have sound : ∀ piece ∈ Text.split '/' rest, elementFault? piece = none := by
        rw [pieces]
        intro piece inside
        obtain ⟨name, member, rfl⟩ := List.mem_map.mp inside
        exact elementFault?_eq_none_iff.mpr (elements name member)
      rw [fault?_slash chars]
      split
      next => rfl
      next some =>
        split
        next trailing =>
          -- A slash at the end would be followed by an empty element.
          have empty : [] ∈ Text.split '/' rest :=
            (Text.nil_mem_split (by simpa using some)).mpr (.inr (.inl trailing))
          exact absurd (sound [] empty) nofun
        next => exact List.findSome?_eq_none_iff.mpr sound

theorem trimEnd_along {names : List String} (elements : ∀ name ∈ names, IsElement name) :
    Text.trimEnd '/' (along names) = along names := by
  cases names using List.reverseRecOn with
  | nil => rfl
  | append_singleton front last =>
    rw [along_concat]
    exact trimEnd_closed _ (elements last (by simp)).closed

theorem under_along {front : List String} (elements : ∀ name ∈ front, IsElement name) {names : List String}
    (others : ∀ name ∈ names, IsElement name) : under (along front) names = along (front ++ names) := by
  induction names generalizing front with
  | nil => rw [List.append_nil]; rfl
  | cons name rest ih =>
    obtain ⟨element, others⟩ := List.forall_mem_cons.mp others
    have longer : ∀ part ∈ front ++ [name], IsElement part :=
      List.forall_mem_append.mpr ⟨elements, List.forall_mem_singleton.mpr element⟩
    rw [under_cons, join, trimEnd_along elements, ← along_concat, ih longer others, List.append_assoc]
    rfl

theorem under_root {name : String} {rest : List String} (elements : ∀ part ∈ name :: rest, IsElement part) :
    under "/" (name :: rest) = along (name :: rest) := by
  obtain ⟨first, others⟩ := List.forall_mem_cons.mp elements
  have joined : join "/" name = along [name] := by
    simp [along]
    rfl
  rw [under_cons, joined, under_along (List.forall_mem_singleton.mpr first) others]
  rfl

/-- What stands above a name, as far as joining the name to it goes. -/
theorem exists_along {above : String} (valid : above = "" ∨ IsPath above) :
    ∃ front, (∀ name ∈ front, IsElement name) ∧ ∀ name, join above name = along (front ++ [name]) := by
  rcases valid with rfl | rfl | ⟨names, -, elements, rfl⟩
  · exact ⟨[], List.forall_mem_nil _, fun name => by simp [along]; rfl⟩
  · exact ⟨[], List.forall_mem_nil _, fun name => by simp [along]; rfl⟩
  · exact ⟨names, elements, fun name => by rw [join, trimEnd_along elements, along_concat]⟩

theorem pieces_along {names : List String} (nonempty : names ≠ []) (elements : ∀ name ∈ names, IsElement name) :
    Text.pieces '/' (along names) = "" :: names := by
  obtain ⟨rest, chars, pieces⟩ := elements_of_isPath nonempty elements
  rw [Text.pieces, chars, Text.split, if_pos rfl, pieces]
  simp

theorem base_along {front : List String} {name : String} (elements : ∀ part ∈ front ++ [name], IsElement part) :
    base (along (front ++ [name])) = name := by
  rw [base, Text.afterLast, pieces_along (by simp) elements, ← List.cons_append, List.getLastD_concat]

theorem parent_along {front : List String} {name : String} (elements : ∀ part ∈ front ++ [name], IsElement part) :
    parent (along (front ++ [name])) = along front := by
  obtain ⟨rest, chars, -⟩ := elements_of_isPath (by simp) elements
  have above : Text.beforeLast '/' (along (front ++ [name])) = String.intercalate "/" ("" :: front) := by
    rw [Text.beforeLast, pieces_along (by simp) elements, ← List.cons_append, List.dropLast_concat]
    rfl
  rw [parent, if_pos (by rw [chars]; rfl), above, intercalate_along, String.empty_append]

theorem IsRun.base {name : String} (run : IsRun name) : base name = name := by
  simp [ObjectPath.base, Text.afterLast, Text.pieces, Text.split_plain run.plain]

theorem IsRun.parent {name : String} (run : IsRun name) : parent name = "" := by
  refine if_neg fun slash => ?_
  exact run.plain (List.mem_of_mem_head? slash)

theorem IsPath.last {path : String} (valid : IsPath path) :
    path = "/" ∨ ∃ front name, (∀ part ∈ front ++ [name], IsElement part) ∧ path = along (front ++ [name]) := by
  rcases valid with root | ⟨names, nonempty, elements, rfl⟩
  · exact .inl root
  · obtain ⟨front, name, rfl⟩ := (List.eq_nil_or_concat' names).resolve_left nonempty
    exact .inr ⟨front, name, elements, rfl⟩

/-- A name in a document that can be the end of a path, or be a path itself. -/
def IsWritten (written : String) : Prop :=
  IsRun written ∨ fault? written = none

theorem IsWritten.parent {written : String} (sound : IsWritten written) :
    parent written = "" ∨ IsPath (parent written) := by
  rcases sound with run | valid
  · exact .inl run.parent
  · rcases ((fault?_eq_none_iff written).mp valid).last with rfl | ⟨front, name, elements, rfl⟩
    · exact .inl (by decide)
    · rw [parent_along elements]
      cases front with
      | nil => exact .inl rfl
      | cons first rest =>
        exact .inr (.inr ⟨first :: rest, nofun, (List.forall_mem_append.mp elements).1, rfl⟩)

theorem IsWritten.base {written : String} (sound : IsWritten written) (named : base written ≠ "") :
    IsElement (base written) := by
  rcases sound with run | valid
  · rw [run.base] at named ⊢
    exact ⟨named, run⟩
  · rcases ((fault?_eq_none_iff written).mp valid).last with rfl | ⟨front, name, elements, rfl⟩
    · exact absurd (by decide) named
    · rw [base_along elements]
      exact elements name (by simp)

end ObjectPath

namespace Loader

open Xml (Element)
open ObjectPath

mutual
/-- The names of the nodes inside a node, at any depth. -/
def nestedNames : Element → List String
  | ⟨_, _, children⟩ => nestedAmong children
termination_by structural element => element

def nestedAmong : List Element → List String
  | [] => []
  | child :: rest =>
    (if child.tag = "node" then child.attributeD "name" :: nestedNames child else []) ++ nestedAmong rest
termination_by structural elements => elements
end

/-- Every name that is given to an object can stand in a path. -/
structure NamesFit (options : LoadOptions) (element : Element) : Prop where
  above : ∀ path ∈ options.objectPath, fault? path = none
  called : ∀ name ∈ options.objectName, IsElement name
  written : IsWritten (element.attributeD "name")
  nested : ∀ name ∈ nestedNames element, IsRun name

variable {options : LoadOptions} {element : Element}

mutual
theorem sites_trail : (element : Element) → (trail : List String) → (path : String) →
    ∀ site ∈ sites trail path element, ∃ names, site.trail = trail ++ names ∧ names ⊆ nestedNames element
  | ⟨tag, attributes, children⟩, trail, path => by
    rw [sites]
    refine List.forall_mem_append.mpr ⟨sitesAmong_trail children trail path, List.forall_mem_singleton.mpr ?_⟩
    exact ⟨[], (List.append_nil trail).symm, List.nil_subset _⟩

theorem sitesAmong_trail : (children : List Element) → (trail : List String) → (path : String) →
    ∀ site ∈ sitesAmong trail path children, ∃ names, site.trail = trail ++ names ∧ names ⊆ nestedAmong children
  | [], _, _ => by
    rw [sitesAmong]
    exact nofun
  | child :: rest, trail, path => by
    rw [sitesAmong, nestedAmong]
    refine List.forall_mem_append.mpr ⟨fun site inside => ?_, fun site inside => ?_⟩
    · split at inside
      next node =>
        obtain ⟨names, same, known⟩ := sites_trail child _ _ site inside
        refine ⟨child.attributeD "name" :: names, by simp [same], ?_⟩
        rw [if_pos node]
        exact List.subset_append_of_subset_left _ (List.cons_subset_cons _ known)
      next => cases inside
    · obtain ⟨names, same, known⟩ := sitesAmong_trail rest trail path site inside
      exact ⟨names, same, List.subset_append_of_subset_right _ known⟩
end

namespace NamesFit

theorem outermost {name : String} (fit : NamesFit options element)
    (found : outermostName options (element.attributeD "name") = some name) : IsElement name := by
  unfold outermostName at found
  split at found
  next called same =>
    cases found
    exact fit.called name same
  next =>
    split at found
    next => cases found
    next named =>
      cases found
      exact fit.written.base (by simpa using named)

/-- The outermost node lies below a valid path, or at the root of all paths. -/
theorem rootPath (fit : NamesFit options element) {name : String} {names : List String}
    (elements : ∀ part ∈ name :: names, IsElement part) :
    ∃ front, (∀ part ∈ front, IsElement part) ∧
      under (rootPath options (element.attributeD "name") (some name)) names = along (front ++ name :: names) := by
  have valid : options.objectPath.getD (parent (element.attributeD "name")) = "" ∨
      IsPath (options.objectPath.getD (parent (element.attributeD "name"))) := by
    cases given : options.objectPath with
    | none => exact fit.written.parent
    | some path => exact .inr ((fault?_eq_none_iff path).mp (fit.above path given))
  obtain ⟨front, sound, joined⟩ := exists_along valid
  obtain ⟨first, others⟩ := List.forall_mem_cons.mp elements
  refine ⟨front, sound, ?_⟩
  rw [Loader.rootPath, joined, under_along (List.forall_mem_append.mpr ⟨sound, List.forall_mem_singleton.mpr first⟩) others,
    List.append_assoc]
  rfl

/-- Where the object of a node lies: its path ends with the names that lead to it. -/
theorem path_along (fit : NamesFit options element) {site : Site} {object : ObjectNode}
    (inside : site ∈ documentSites options element)
    (follows : site.Follows (outermostName options (element.attributeD "name")).toList
      (Loader.rootPath options (element.attributeD "name") (outermostName options (element.attributeD "name"))))
    (becomes : site.Becomes object) :
    ∃ names, (∀ part ∈ names ++ [object.name], IsElement part) ∧ object.path = along (names ++ [object.name]) := by
  obtain ⟨names, closed, trail, leads⟩ := follows
  obtain ⟨known, same, nested⟩ := sites_trail element _ _ site inside
  obtain rfl : names = known := List.append_cancel_left (trail.symm.trans same)
  have elements : ∀ part ∈ names, IsElement part := by
    intro part member
    refine ⟨?_, fit.nested part (nested member)⟩
    rintro rfl
    obtain ⟨_, last, -⟩ := closed "" member
    simp at last
  obtain ⟨front, sound, path⟩ : ∃ front, (∀ part ∈ front ++ site.trail, IsElement part) ∧
      site.path = along (front ++ site.trail) := by
    cases outermost : outermostName options (element.attributeD "name") with
    | some name =>
      rw [outermost] at trail leads
      have whole : ∀ part ∈ name :: names, IsElement part :=
        List.forall_mem_cons.mpr ⟨fit.outermost outermost, elements⟩
      obtain ⟨front, sound, path⟩ := fit.rootPath whole
      rw [trail, leads]
      exact ⟨front, List.forall_mem_append.mpr ⟨sound, whole⟩, path⟩
    | none =>
      rw [outermost] at trail leads
      rw [trail, leads]
      -- A node without a name becomes no object, so there is a name on the way.
      obtain ⟨first, rest, rfl⟩ : ∃ first rest, names = first :: rest := by
        apply List.exists_cons_of_ne_nil
        rintro rfl
        have named := becomes.name
        rw [trail] at named
        cases named
      exact ⟨[], elements, under_root elements⟩
  obtain ⟨before, ends⟩ := List.getLast?_eq_some_iff.mp becomes.name
  rw [ends, ← List.append_assoc] at sound path
  exact ⟨front ++ before, sound, becomes.path.trans path⟩

end NamesFit

theorem last_of_forall₂ {α β : Type} {R : α → β → Prop} {front : List α} {item : α} {results : List β}
    (related : List.Forall₂ R (front ++ [item]) results) : ∃ result, results.getLast? = some result ∧ R item result := by
  have ended := List.forall₂_drop_append results front [item] related.flip
  obtain ⟨result, rest, related, none, split⟩ := List.forall₂_cons_right_iff.mp ended
  obtain rfl := List.forall₂_nil_right_iff.mp none
  refine ⟨result, ?_, related⟩
  rw [← List.take_append_drop front.length results, split, List.getLast?_concat]

/-- The outermost node ends last, so its object, if it has one, is the last that is added. -/
theorem outermost_last {objects : List ObjectNode} (offers : ownInterfaces element.children ≠ [])
    (flattens : List.Forall₂ Site.Becomes ((documentSites options element).filter Site.offers) objects) :
    ∃ object, objects.getLast? = some object ∧
      object.path = rootPath options (element.attributeD "name") (outermostName options (element.attributeD "name")) ∧
      object.interface = .merged ((ownInterfaces element.children).map Interface.written) := by
  let name := outermostName options (element.attributeD "name")
  let root : Site := ⟨name.toList, rootPath options (element.attributeD "name") name, element⟩
  obtain ⟨inner, sites⟩ : ∃ inner, documentSites options element = inner ++ [root] := by
    obtain ⟨tag, attributes, children⟩ := element
    exact ⟨_, rfl⟩
  have offered : root.offers = true := by simpa [root, Site.offers] using offers
  rw [sites, List.filter_append, List.filter_singleton, offered] at flattens
  obtain ⟨object, last, becomes⟩ := last_of_forall₂ flattens
  exact ⟨object, last, becomes.path, becomes.interface⟩

/-- A root that is named by a path has this path, unless something else is asked for. -/
theorem rootPath_written {written : String} (above : options.objectPath = none) (called : options.objectName = none)
    (valid : fault? written = none) (named : written ≠ "/") :
    outermostName options written = some (base written) ∧ rootPath options written (some (base written)) = written := by
  rcases ((fault?_eq_none_iff written).mp valid).last with root | ⟨front, name, elements, rfl⟩
  · exact absurd root named
  · obtain ⟨before, last⟩ := List.forall_mem_append.mp elements
    have some : base (along (front ++ [name])) ≠ "" := by
      rw [base_along elements]
      exact (last name (List.mem_singleton_self name)).some
    refine ⟨by simp [outermostName, called, some], ?_⟩
    rw [rootPath, above, Option.getD_none, base_along elements, parent_along elements, join, trimEnd_along before,
      along_concat]

/-- The check of paths accepts exactly the paths of the grammar. Every object that a document adds whose names can stand
in paths has such a path, which ends with its name after a slash; and a root that is named by a path, where nothing else
is asked for, becomes an object with this path. -/
theorem paths_valid :
    (∀ path, fault? path = none ↔ IsPath path) ∧
    ∀ (read : String → Option Element) (options : LoadOptions) (loader after : Loader) (text : String)
      (element : Element), read text = some element → NamesFit options element →
      (documentBy read options text).run loader = (.ok (), after) →
      ∃ added, after.objects = loader.objects ++ added ∧
        (∀ object ∈ added, fault? object.path = none ∧ ∃ above, object.path = above ++ "/" ++ object.name) ∧
        (options.objectPath = none → options.objectName = none → fault? (element.attributeD "name") = none →
          element.attributeD "name" ≠ "/" → ownInterfaces element.children ≠ [] →
          ∃ object, added.getLast? = some object ∧ object.path = element.attributeD "name" ∧
            object.interface = .merged ((ownInterfaces element.children).map Interface.written)) := by
  refine ⟨fault?_eq_none_iff, fun read options loader after text element found fit loads => ?_⟩
  obtain ⟨other, content, found', asks, objects⟩ := documentBy_asks loads
  obtain rfl : element = other := Option.some.inj (found.symm.trans found')
  have follows := rootAsking_follows asks
  have flattens := rootAsking_flattens asks
  refine ⟨content.objects, objects, fun object added => ?_, fun above called valid named offers => ?_⟩
  · obtain ⟨site, member, becomes⟩ := exists_of_forall₂ flattens added
    have inside := List.mem_of_mem_filter member
    obtain ⟨names, elements, path⟩ := fit.path_along inside (follows site inside) becomes
    refine ⟨(fault?_eq_none_iff _).mpr (.inr ⟨names ++ [object.name], by simp, elements, path⟩), along names, ?_⟩
    rw [path, along_concat]
  · obtain ⟨outermost, written⟩ := rootPath_written above called valid named
    obtain ⟨object, last, path, interface⟩ := outermost_last offers flattens
    refine ⟨object, last, ?_, interface⟩
    rw [path, outermost, written]

def garden : String :=
  "<node name=\"/org/Garden\"><node name=\"Shed_2\"><interface name=\"home.Door\"/></node>" ++
  "<interface name=\"home.Gate\"/></node>"

set_option maxRecDepth 4000 in
theorem garden_paths_valid :
    ∃ element after, Element.ofDocument? garden = some element ∧ NamesFit {} element ∧
      (documentBy Element.ofDocument? {} garden).run {} = (.ok (), after) ∧
      after.objects.map ObjectNode.path = ["/org/Garden/Shed_2", "/org/Garden"] ∧
      ∀ object ∈ after.objects, fault? object.path = none ∧ ∃ above, object.path = above ++ "/" ++ object.name := by
  let gate : Element := ⟨"interface", [("name", "home.Gate")], []⟩
  let shed : Element := ⟨"node", [("name", "Shed_2")], [⟨"interface", [("name", "home.Door")], []⟩]⟩
  let element : Element := ⟨"node", [("name", "/org/Garden")], [shed, gate]⟩
  have read : Element.ofDocument? garden = some element := by
    with_unfolding_all rfl
  have loads : ((documentBy Element.ofDocument? {} garden).run {}).map id (·.objects.map ObjectNode.path) =
      (.ok (), ["/org/Garden/Shed_2", "/org/Garden"]) := by
    decide +kernel
  have fit : NamesFit {} element :=
    { above := nofun
      called := nofun
      written := .inr (by decide +kernel)
      nested := by decide +kernel }
  rcases ran : (documentBy Element.ofDocument? {} garden).run {} with ⟨result, after⟩
  rw [ran] at loads
  obtain ⟨rfl, paths⟩ := Prod.mk.inj loads
  obtain ⟨added, same, valid, -⟩ := paths_valid.2 _ _ _ _ _ _ read fit ran
  refine ⟨element, after, read, fit, rfl, paths, ?_⟩
  rw [same]
  exact valid

end Loader
end BusStub
