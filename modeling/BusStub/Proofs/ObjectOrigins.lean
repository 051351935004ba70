import BusStub.Proofs.Flattening

/-! Where the objects of a loader come from. Also of a document that fails, every object that it leaves behind is made
of one of its nodes. -/

namespace BusStub.Loader

open Xml (Element)

variable {α β : Type} {options : LoadOptions} {made : ObjectNode → Prop}

/-- Every object that is there after the action, be it with success or not, was there before or is made as described;
and so is the value of the action. -/
structure Adds (made : ObjectNode → Prop) (action : Loading α) (post : α → Prop) : Prop where
  objects : ∀ loader, ∀ object ∈ (action.run loader).2.objects, object ∈ loader.objects ∨ made object
  holds : ∀ loader value, (action.run loader).1 = .ok value → post value

namespace Adds

theorem pure {post : α → Prop} {value : α} (holds : post value) : Adds made (Pure.pure value) post where
  objects _ _ inside := .inl inside
  holds _ _ same := by
    cases same
    exact holds

theorem throw {post : α → Prop} (error : LoadError) : Adds made (MonadExcept.throw error) post where
  objects _ _ inside := .inl inside
  holds _ _ impossible := by cases impossible

theorem lift {post : α → Prop} {result : Except LoadError α} (holds : ∀ value, result = .ok value → post value) :
    Adds made (liftM result) post := by
  cases result with
  | error error => exact throw error
  | ok value => exact pure (holds value rfl)

theorem bind {mid : α → Prop} {post : β → Prop} {first : Loading α} {rest : α → Loading β}
    (before : Adds made first mid) (after : ∀ value, mid value → Adds made (rest value) post) :
    Adds made (first >>= rest) post := by
  constructor
  · intro loader object inside
    rw [run_bind] at inside
    rcases ran : first.run loader with ⟨error | value, later⟩ <;> rw [ran] at inside
    · exact before.objects loader object (ran ▸ inside)
    · have known := before.holds loader value (by rw [ran])
      rcases (after value known).objects later object inside with there | new
      · exact before.objects loader object (ran ▸ there)
      · exact .inr new
  · intro loader value result
    rw [run_bind] at result
    rcases ran : first.run loader with ⟨error | mid, later⟩ <;> rw [ran] at result
    · cases result
    · exact (after mid (before.holds loader mid (by rw [ran]))).holds later value result

theorem mono {wider : ObjectNode → Prop} {post : α → Prop} {action : Loading α} (adds : Adds made action post)
    (implies : ∀ object, made object → wider object) : Adds wider action post :=
  ⟨fun loader object inside => (adds.objects loader object inside).imp_right (implies object), adds.holds⟩

theorem keep {post : α → Prop} {reading : Reading α} (finds : reading.Finds post) :
    Adds made (Loader.keep reading) post where
  objects _ _ inside := .inl inside
  holds loader value found := finds.holds loader.warnings value found

theorem enter (interface : Interface) : Adds made (Loader.enter interface) fun _ => True where
  objects loader object inside := by
    rw [enter_run] at inside
    left
    split at inside
    · split at inside <;> exact inside
    · exact inside
  holds _ _ _ := trivial

theorem addObject {name : Option String} {path : String} {parts : List Interface}
    (makes : parts ≠ [] → ∀ called, name = some called → made ⟨called, path, .merged parts⟩) :
    Adds made (Loader.addObject name path parts) fun _ => True where
  objects loader object inside := by
    rw [addObject_run] at inside
    split at inside
    next => exact .inl inside
    next some =>
      split at inside
      next => exact .inl inside
      next called =>
        split at inside
        next => exact .inl inside
        next =>
          rcases List.mem_append.mp inside with there | new
          · exact .inl there
          · obtain rfl := List.mem_singleton.mp new
            exact .inr (makes some called rfl)
  holds _ _ _ := trivial

end Adds

/-- Made of one of the nodes. -/
def MadeAmong (sites : List Site) (object : ObjectNode) : Prop :=
  ∃ site ∈ sites, site.offers ∧ site.Becomes object

theorem MadeAmong.of_subset {sites others : List Site} (inside : sites ⊆ others) (object : ObjectNode) :
    MadeAmong sites object → MadeAmong others object := by
  rintro ⟨site, member, made⟩
  exact ⟨site, inside member, made⟩

theorem interface?_adds (element : Element) : Adds made (interface? options element) fun found =>
    found.toList = if isStandard (element.attributeD "name") then [] else [Interface.written element] := by
  unfold interface?
  split
  next standard => exact .pure rfl
  next own =>
    apply Adds.bind (Adds.keep (Interface.ofElement_written options.lax element))
    rintro _ rfl
    exact (Adds.enter _).bind fun _ _ => .pure rfl

mutual
/-- The induction is on the element; its own object is added after those inside it. -/
theorem node_adds : (element : Element) → (trail : List String) → (path : String) →
    Adds (MadeAmong (sites trail path element)) (node options trail.getLast? path element) fun _ => True
  | ⟨tag, attributes, children⟩, trail, path => by
    unfold node
    rw [sites]
    apply Adds.bind ((nodeChildren_adds children trail path).mono (.of_subset (List.subset_append_left _ _)))
    rintro _ rfl
    apply Adds.addObject
    intro some called named
    refine ⟨⟨trail, path, ⟨tag, attributes, children⟩⟩, ?_, ?_, named, rfl, rfl⟩
    · exact List.mem_append_right _ (List.mem_singleton_self _)
    · simpa [Site.offers] using some

theorem nodeChildren_adds : (children : List Element) → (trail : List String) → (path : String) →
    Adds (MadeAmong (sitesAmong trail path children)) (nodeChildren options path children)
      (· = (ownInterfaces children).map Interface.written)
  | [], _, _ => by
    unfold nodeChildren
    exact .pure rfl
  | child :: rest, trail, path => by
    have later {others : List Site} (wider : sitesAmong trail path rest ⊆ others) :
        Adds (MadeAmong others) (nodeChildren options path rest) _ :=
      (nodeChildren_adds rest trail path).mono (.of_subset wider)
    unfold nodeChildren
    split
    next interface =>
      have other : child.tag ≠ "node" := by simp [interface]
      rw [ownInterfaces_cons, sitesAmong, if_pos interface, if_neg other, List.nil_append]
      apply Adds.bind (interface?_adds child)
      intro found same
      apply Adds.bind (later (List.Subset.refl _))
      rintro _ rfl
      apply Adds.pure
      rw [same]
      split <;> rfl
    next tag =>
      have other : child.tag ≠ "interface" := by simp [tag]
      rw [ownInterfaces_cons, sitesAmong, if_neg other, if_pos tag, List.nil_append]
      apply Adds.bind (.lift fun name found => nestedName_written found)
      rintro _ rfl
      have inner := node_adds child (trail ++ [child.attributeD "name"])
        (ObjectPath.join path (child.attributeD "name"))
      rw [List.getLast?_concat] at inner
      apply Adds.bind (inner.mono (.of_subset (List.subset_append_left _ _)))
      intro _ _
      exact later (List.subset_append_right _ _)
    next interface node =>
      rw [ownInterfaces_cons, sitesAmong, if_neg interface, if_neg node, List.nil_append, List.nil_append]
      exact later (List.Subset.refl _)
end

theorem rootName_adds (written : String) :
    Adds made (rootName options written) (· = outermostName options written) := by
  unfold rootName outermostName
  cases options.objectName with
  | none => exact .pure rfl
  | some name =>
    simp only
    split
    · exact ⟨fun _ _ inside => .inl inside, fun _ _ same => by cases same; rfl⟩
    · exact .pure rfl

/-- Also a document that cannot be loaded adds only objects that are made of its nodes. -/
theorem documentBy_adds (read : String → Option Element) (text : String) :
    Adds (fun object => ∃ element, read text = some element ∧ MadeAmong (documentSites options element) object)
      (documentBy read options text) fun _ => True := by
  unfold documentBy
  split
  next element found =>
    unfold root
    simp only
    split
    next => exact .throw _
    next =>
      apply Adds.bind (rootName_adds (element.attributeD "name"))
      rintro _ rfl
      have inner : Adds (MadeAmong (documentSites options element)) (node options _ _ element) _ :=
        node_adds element (outermostName options (element.attributeD "name")).toList _
      have last (name : Option String) : name.toList.getLast? = name := by cases name <;> rfl
      rw [last] at inner
      exact inner.mono fun object made => ⟨element, found, made⟩
  next => exact .throw _

theorem history_origins {read : String → Option Element} {texts : List String} {object : ObjectNode}
    (loaded : object ∈ (history read options texts).objects) :
    ∃ text ∈ texts, ∃ element, read text = some element ∧ MadeAmong (documentSites options element) object := by
  induction texts using List.reverseRecOn with
  | nil => cases loaded
  | append_singleton before text ih =>
    rw [history, List.foldl_append] at loaded
    rcases (documentBy_adds read text).objects _ object loaded with there | ⟨element, found, made⟩
    · obtain ⟨earlier, inside, origin⟩ := ih there
      exact ⟨earlier, List.mem_append_left _ inside, origin⟩
    · exact ⟨text, by simp, element, found, made⟩

end BusStub.Loader
