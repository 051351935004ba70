import BusStub.Loader
import BusStub.Proofs.InterfaceMembers
import BusStub.Proofs.Readings

/-! What a loader holds, whatever it has been given. Loading enters one interface or adds one object at a time, and
each such step keeps the loader sound and everything that was there; so do documents that fail half way. -/

namespace BusStub

variable {α β : Type}

/-- Names that objects can have: those without a slash, and the one that is given for the outermost object. -/
def LoadOptions.Allows (options : LoadOptions) (name : String) : Prop :=
  '/' ∉ name.toList ∨ options.objectName = some name

namespace Loader

structure Sound (options : LoadOptions) (loader : Loader) : Prop where
  objectNames : (loader.objects.map ObjectNode.name).Nodup
  tableNames : (loader.interfaces.map Interface.name).Nodup
  described : ∀ interface ∈ loader.interfaces, interface.Described ∧ isStandard interface.name = false
  merged : ∀ object ∈ loader.objects, ∃ parts, parts ≠ [] ∧ parts ⊆ loader.interfaces ∧
    object.interface = .merged parts
  placed : ∀ object ∈ loader.objects, options.Allows object.name ∧
    ∃ base, object.path = base ++ "/" ++ object.name

/-- Nothing is taken away or changed. -/
structure Grows (before after : Loader) : Prop where
  objects : before.objects <+: after.objects
  interfaces : before.interfaces <:+ after.interfaces

theorem Grows.refl (loader : Loader) : loader.Grows loader :=
  ⟨List.prefix_refl _, List.suffix_refl _⟩

theorem Grows.trans {before middle after : Loader} (first : before.Grows middle) (last : middle.Grows after) :
    before.Grows after :=
  ⟨first.objects.trans last.objects, first.interfaces.trans last.interfaces⟩

theorem Sound.initial (options : LoadOptions) : Sound options {} :=
  ⟨.nil, .nil, nofun, nofun, nofun⟩

theorem enter_run (interface : Interface) (loader : Loader) :
    (enter interface).run loader = match loader.interfaces.find? (·.name = interface.name) with
      | some known =>
        if known = interface then (.ok (), loader) else (.error (.conflict interface.name), loader)
      | none => (.ok (), { loader with interfaces := interface :: loader.interfaces }) := by
  unfold enter
  rw [run_bind]
  change (match loader.interfaces.find? (·.name = interface.name) with
    | some known => if known ≠ interface then throw (.conflict interface.name) else pure ()
    | none => set { loader with interfaces := interface :: loader.interfaces } : Loading Unit).run loader = _
  cases loader.interfaces.find? (·.name = interface.name) with
  | none => rfl
  | some known =>
    by_cases same : known = interface
    · simp only [same, ne_eq, not_true, if_true, if_false]
      rfl
    · simp only [same, ne_eq, not_false_eq_true, if_true, if_false]
      rfl

theorem addObject_run (name : Option String) (path : String) (interfaces : List Interface) (loader : Loader) :
    (addObject name path interfaces).run loader =
      if interfaces = [] then (.ok (), loader)
      else match name with
        | none => (.error .missingObjectName, loader)
        | some name =>
          if name ∈ loader.objects.map ObjectNode.name then (.error (.duplicateObject name), loader)
          else (.ok (), { loader with objects := loader.objects ++ [⟨name, path, .merged interfaces⟩] }) := by
  cases interfaces with
  | nil => rfl
  | cons first rest =>
    rw [if_neg (List.cons_ne_nil first rest)]
    cases name with
    | none => rfl
    | some name =>
      unfold addObject
      simp only [List.isEmpty_cons, Bool.false_eq_true, if_false]
      rw [run_bind]
      change (if loader.objects.any (·.name = name) = true then _ else _ : Loading Unit).run loader = _
      by_cases present : name ∈ loader.objects.map ObjectNode.name
      · have known : loader.objects.any (·.name = name) = true := by simpa using present
        rw [if_pos present, if_pos known]
        rfl
      · have fresh : ¬ loader.objects.any (·.name = name) = true := by simpa using present
        rw [if_neg present, if_neg fresh]
        rfl

/-- The action keeps a loader sound and lets it grow, also when it fails; when it gives a value, more is known. -/
def Keeps (options : LoadOptions) (pre : Loader → Prop) (action : Loading α) (post : α → Loader → Prop) : Prop :=
  ∀ loader, loader.Sound options → pre loader →
    (action.run loader).2.Sound options ∧ loader.Grows (action.run loader).2 ∧
      ∀ value, (action.run loader).1 = .ok value → post value (action.run loader).2

variable {options : LoadOptions} {pre : Loader → Prop}

namespace Keeps

theorem pure {post : α → Loader → Prop} {value : α} (holds : ∀ loader, pre loader → post value loader) :
    Keeps options pre (Pure.pure value) post := by
  intro loader sound known
  refine ⟨sound, .refl loader, ?_⟩
  intro result same
  cases same
  exact holds loader known

theorem throw {post : α → Loader → Prop} (error : LoadError) : Keeps options pre (MonadExcept.throw error) post := by
  intro loader sound _
  refine ⟨sound, .refl loader, ?_⟩
  intro value impossible
  cases impossible

theorem refuse {post : β → Loader → Prop} (error : LoadError) (rest : α → Loading β) :
    Keeps options pre (MonadExcept.throw error >>= rest) post :=
  throw error

theorem lift {post : α → Prop} {result : Except LoadError α} (holds : ∀ value, result = .ok value → post value) :
    Keeps options pre (liftM result) fun value _ => post value := by
  cases result with
  | error error => exact throw error
  | ok value => exact pure fun _ _ => holds value rfl

theorem bind {mid : α → Loader → Prop} {post : β → Loader → Prop} {first : Loading α} {rest : α → Loading β}
    (before : Keeps options pre first mid) (after : ∀ value, Keeps options (mid value) (rest value) post) :
    Keeps options pre (first >>= rest) post := by
  intro loader sound known
  have started := before loader sound known
  rw [run_bind]
  rcases result : first.run loader with ⟨error | value, later⟩ <;> rw [result] at started <;>
    obtain ⟨kept, grows, found⟩ := started
  · refine ⟨kept, grows, ?_⟩
    intro value impossible
    cases impossible
  · obtain ⟨last, growth, result⟩ := after value later kept (found value rfl)
    exact ⟨last, grows.trans growth, result⟩

/-- What is known of the values found so far may be used. -/
theorem assuming {fact : Prop} {post : α → Loader → Prop} {action : Loading α}
    (kept : fact → Keeps options (fun _ => True) action post) : Keeps options (fun _ => fact) action post :=
  fun loader sound holds => kept holds loader sound trivial

theorem weaken {required : Loader → Prop} {post : α → Loader → Prop} {action : Loading α}
    (kept : Keeps options pre action post) (implies : ∀ loader, required loader → pre loader) :
    Keeps options required action post :=
  fun loader sound known => kept loader sound (implies loader known)

/-- Interfaces that are in the table stay there. -/
theorem frame {post : α → Loader → Prop} {action : Loading α} (kept : Keeps options pre action post)
    (parts : List Interface) :
    Keeps options (fun loader => pre loader ∧ parts ⊆ loader.interfaces) action
      fun value loader => post value loader ∧ parts ⊆ loader.interfaces := by
  intro loader sound known
  obtain ⟨last, grows, result⟩ := kept loader sound known.1
  refine ⟨last, grows, ?_⟩
  intro value same
  exact ⟨result value same, List.Subset.trans known.2 grows.interfaces.subset⟩

theorem keep {post : α → Prop} {reading : Reading α} (finds : reading.Finds post) :
    Keeps options pre (Loader.keep reading) fun value _ => post value := by
  intro loader sound _
  refine ⟨⟨sound.objectNames, sound.tableNames, sound.described, sound.merged, sound.placed⟩, ⟨?_, ?_⟩, ?_⟩
  · exact List.prefix_refl _
  · exact List.suffix_refl _
  · exact fun value found => finds.holds loader.warnings value found

theorem enter {interface : Interface} (described : interface.Described)
    (own : isStandard interface.name = false) :
    Keeps options pre (Loader.enter interface) fun _ loader => interface ∈ loader.interfaces := by
  intro loader sound _
  rw [enter_run]
  split
  next known found =>
    split
    next same =>
      subst same
      exact ⟨sound, .refl loader, fun _ _ => List.mem_of_find?_eq_some found⟩
    next =>
      refine ⟨sound, .refl loader, ?_⟩
      intro value impossible
      cases impossible
  next absent =>
    have fresh : ∀ known ∈ loader.interfaces, known.name ≠ interface.name := by simpa using absent
    refine ⟨⟨sound.objectNames, ?_, ?_, ?_, sound.placed⟩, ⟨List.prefix_refl _, List.suffix_cons _ _⟩, ?_⟩
    · rw [List.map_cons, List.nodup_cons]
      refine ⟨?_, sound.tableNames⟩
      intro taken
      obtain ⟨known, inside, same⟩ := List.mem_map.mp taken
      exact fresh known inside same
    · exact List.forall_mem_cons.mpr ⟨⟨described, own⟩, sound.described⟩
    · intro object member
      obtain ⟨parts, some, inside, same⟩ := sound.merged object member
      exact ⟨parts, some, List.subset_cons_of_subset _ inside, same⟩
    · exact fun _ _ => List.mem_cons_self

theorem addObject {name : Option String} {path : String} {parts : List Interface}
    (placed : ∀ called ∈ name, options.Allows called ∧ ∃ base, path = base ++ "/" ++ called) :
    Keeps options (fun loader => parts ⊆ loader.interfaces) (Loader.addObject name path parts) fun _ _ => True := by
  intro loader sound inside
  have stays : loader.Sound options ∧ loader.Grows loader := ⟨sound, .refl loader⟩
  rw [addObject_run]
  split
  next => exact ⟨stays.1, stays.2, fun _ _ => trivial⟩
  next some =>
    cases name with
    | none => exact ⟨stays.1, stays.2, fun _ _ => trivial⟩
    | some name =>
      simp only
      split
      next => exact ⟨stays.1, stays.2, fun _ _ => trivial⟩
      next fresh =>
        refine ⟨⟨?_, sound.tableNames, sound.described, ?_, ?_⟩, ⟨List.prefix_append _ _, List.suffix_refl _⟩, ?_⟩
        · rw [List.map_append, List.nodup_append]
          exact ⟨sound.objectNames, by simp, by simpa using fresh⟩
        · exact List.forall_mem_append.mpr
            ⟨sound.merged, List.forall_mem_singleton.mpr ⟨parts, some, inside, rfl⟩⟩
        · exact List.forall_mem_append.mpr
            ⟨sound.placed, List.forall_mem_singleton.mpr (placed name rfl)⟩
        · exact fun _ _ => trivial

end Keeps

theorem interface?_keeps (element : Xml.Element) :
    Keeps options pre (interface? options element) fun found loader => found.toList ⊆ loader.interfaces := by
  unfold interface?
  split
  next => exact .pure fun _ _ => List.nil_subset _
  next own =>
    apply Keeps.bind (Keeps.keep (Interface.ofElement_finds options.lax element))
    intro interface
    apply Keeps.assuming
    rintro ⟨named, described⟩
    rw [← named] at own
    apply Keeps.bind (Keeps.enter described (by simpa using own))
    intro _
    exact .pure fun loader inside => by simpa using inside

theorem nestedName_ok {element : Xml.Element} {name : String} (found : nestedName element = .ok name) :
    '/' ∉ name.toList := by
  simp only [nestedName] at found
  split at found
  next => cases found
  next plain =>
    cases found
    intro slash
    simp [slash] at plain

theorem join_placed {base name : String} (allowed : options.Allows name) :
    ∀ called ∈ some name, options.Allows called ∧ ∃ above, ObjectPath.join base name = above ++ "/" ++ called := by
  rintro called ⟨⟩
  exact ⟨allowed, _, rfl⟩

mutual
/-- The induction is on the element; its children are loaded before an object is added for it. -/
theorem node_keeps : (element : Xml.Element) → (name : Option String) → (path : String) →
    (∀ called ∈ name, options.Allows called ∧ ∃ base, path = base ++ "/" ++ called) →
    Keeps options (fun _ => True) (node options name path element) fun _ _ => True
  | ⟨_, _, children⟩, name, path, placed => by
    unfold node
    apply Keeps.bind (nodeChildren_keeps children path)
    intro interfaces
    exact Keeps.addObject placed

theorem nodeChildren_keeps : (elements : List Xml.Element) → (path : String) →
    Keeps options (fun _ => True) (nodeChildren options path elements) fun found loader => found ⊆ loader.interfaces
  | [], path => by
    unfold nodeChildren
    exact .pure fun _ _ => List.nil_subset _
  | child :: rest, path => by
    unfold nodeChildren
    split
    · apply Keeps.bind (interface?_keeps child)
      intro found
      -- What was found stays in the table while the others are loaded.
      have others := (nodeChildren_keeps rest path).frame found.toList
      apply Keeps.bind (others.weaken fun loader inside => ⟨trivial, inside⟩)
      intro others
      exact .pure fun loader inside => List.append_subset.mpr ⟨inside.2, inside.1⟩
    · apply Keeps.bind (Keeps.lift fun name found => nestedName_ok found)
      intro name
      apply Keeps.assuming
      intro plain
      apply Keeps.bind (node_keeps child (some name) (ObjectPath.join path name) (join_placed (.inl plain)))
      intro _
      exact nodeChildren_keeps rest path
    · exact nodeChildren_keeps rest path
end

end Loader
end BusStub
