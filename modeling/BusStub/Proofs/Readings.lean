import BusStub.Loader.Interface
import BusStub.Proofs.Runs

/-! What is read from the element of an interface. What a reading finds does not depend on the remarks made before
it. An interface that is found is none of those that others are merged into; the arguments of each of its methods
and signals have names, all different, and types. -/

namespace BusStub

/-- What holds of everything that a reading finds; earlier remarks do not change whether it finds something. -/
structure Reading.Finds (reading : Reading α) (post : α → Prop) : Prop where
  steady : ∀ first second, (reading.run first).1 = (reading.run second).1
  holds : ∀ warnings value, (reading.run warnings).1 = .ok value → post value

namespace Reading

variable {α β σ ι : Type}

namespace Finds

theorem pure {post : α → Prop} {value : α} (holds : post value) : Finds (Pure.pure value) post where
  steady _ _ := rfl
  holds _ found same := by
    cases same
    exact holds

theorem throw {post : α → Prop} (error : LoadError) : Finds (MonadExcept.throw error) post where
  steady _ _ := rfl
  holds _ _ impossible := by cases impossible

theorem warn (warning : LoadWarning) : Finds (Reading.warn warning) fun _ => True where
  steady _ _ := rfl
  holds _ _ _ := trivial

theorem refuse {post : β → Prop} (error : LoadError) (rest : α → Reading β) :
    Finds (MonadExcept.throw error >>= rest) post :=
  throw error

theorem lift {post : α → Prop} {result : Except LoadError α} (holds : ∀ value, result = .ok value → post value) :
    Finds (liftM result) post := by
  cases result with
  | error error => exact throw error
  | ok value => exact pure (holds value rfl)

theorem any (result : Except LoadError α) : Finds (liftM result) fun _ => True :=
  lift fun _ _ => trivial

theorem bind {mid : α → Prop} {post : β → Prop} {first : Reading α} {rest : α → Reading β}
    (before : first.Finds mid) (after : ∀ value, mid value → (rest value).Finds post) :
    (first >>= rest).Finds post := by
  constructor
  · intro one two
    rw [run_bind, run_bind]
    have same := before.steady one two
    rcases found : first.run one with ⟨error | value, later⟩ <;>
      rcases found' : first.run two with ⟨error' | value', later'⟩ <;>
      rw [found, found'] at same <;> cases same
    · rfl
    · exact (after value (before.holds one value (by rw [found]))).steady later later'
  · intro warnings value run
    rw [run_bind] at run
    rcases found : first.run warnings with ⟨error | mid, later⟩ <;> rw [found] at run
    · cases run
    · exact (after mid (before.holds warnings mid (by rw [found]))).holds later value run

/-- What each step keeps, given the items before it, holds of everything that a run finds. -/
theorem foldlM_done {step : σ → ι → Reading σ} {items : List ι} {start : σ} (Done : List ι → σ → Prop)
    (initial : Done [] start)
    (steps : ∀ before item state, Done before state → (step state item).Finds (Done (before ++ [item]))) :
    (items.foldlM step start).Finds (Done items) := by
  -- The induction is on the items that are left; those already done stand in front of them.
  suffices ∀ (rest before : List ι) (state : σ), Done before state →
      (rest.foldlM step state).Finds (Done (before ++ rest)) from
    this items [] start initial
  intro rest
  induction rest with
  | nil =>
    intro before state done
    rw [List.append_nil]
    exact pure done
  | cons item rest ih =>
    intro before state done
    rw [List.foldlM_cons]
    apply bind (steps before item state done)
    intro next done
    simpa using ih (before ++ [item]) next done

theorem foldlM {step : σ → ι → Reading σ} {items : List ι} {start : σ} (kept : σ → Prop) (initial : kept start)
    (steps : ∀ state item, kept state → (step state item).Finds kept) : (items.foldlM step start).Finds kept :=
  foldlM_done (fun _ => kept) initial fun _ item state => steps state item

end Finds
end Reading

/-- Arguments that can be told apart, each with a type. -/
structure Arg.Proper (args : List Arg) : Prop where
  distinct : (args.map Arg.name).Nodup
  named : ∀ arg ∈ args, arg.name ≠ ""
  typed : ∀ arg ∈ args, arg.signature ≠ ""

theorem Xml.Element.required_ok {element : Xml.Element} {key value : String} (read : element.required key = .ok value) :
    value = element.attributeD key ∧ value ≠ "" := by
  simp only [required] at read
  split at read
  next => cases read
  next present =>
    cases read
    exact ⟨rfl, by simpa using present⟩

namespace Arg

theorem Proper.nil : Proper [] :=
  ⟨.nil, nofun, nofun⟩

theorem Proper.add {args : List Arg} {arg : Arg} (proper : Proper args) (fresh : args.any (·.name = arg.name) = false)
    (named : arg.name ≠ "") (typed : arg.signature ≠ "") : Proper (args ++ [arg]) where
  distinct := by
    rw [List.map_append, List.nodup_append]
    exact ⟨proper.distinct, by simp, by simpa using fresh⟩
  named := by simpa using fun other => Or.rec (proper.named other) (by rintro rfl; exact named)
  typed := by simpa using fun other => Or.rec (proper.typed other) (by rintro rfl; exact typed)

theorem nameOf_ne_empty {lax : Bool} {member : String} {role : ArgRole} {unnamed next : Unnamed}
    {element : Xml.Element} {name : String} (found : nameOf lax member role unnamed element = .ok (name, next)) :
    name ≠ "" := by
  simp only [nameOf] at found
  split at found
  next present =>
    cases found
    simpa using present
  next =>
    split at found
    · cases found
      cases role <;> simp [ArgRole.stem]
    · cases found

theorem ofElement_spec {lax : Bool} {member : String} {role : ArgRole} {unnamed next : Unnamed}
    {element : Xml.Element} {arg : Arg} (found : ofElement lax member role unnamed element = .ok (arg, next)) :
    arg.name ≠ "" ∧ arg.signature ≠ "" := by
  obtain ⟨signature, typed, found⟩ := bind_ok found
  obtain ⟨⟨name, numbered⟩, named, found⟩ := bind_ok found
  cases found
  exact ⟨nameOf_ne_empty named, (Xml.Element.required_ok typed).2⟩

end Arg

theorem Method.takeChild_proper {lax : Bool} {state next : Method × Unnamed} {child : Xml.Element}
    (proper : Arg.Proper state.1.args) (taken : takeChild lax state child = .ok next) : Arg.Proper next.1.args := by
  obtain ⟨method, unnamed⟩ := state
  simp only [takeChild] at taken
  split at taken
  · obtain ⟨role, -, taken⟩ := bind_ok taken
    obtain ⟨⟨arg, numbered⟩, found, taken⟩ := bind_ok taken
    obtain ⟨named, typed⟩ := Arg.ofElement_spec found
    simp only at taken
    split at taken
    next => cases taken
    next fresh =>
      cases taken
      exact proper.add (by simpa [hasArg] using fresh) named typed
  · split at taken
    · cases taken
      exact proper
    · split at taken <;> cases taken <;> exact proper
  · cases taken
    exact proper

theorem Method.ofElement_proper {lax : Bool} {element : Xml.Element} {method : Method}
    (found : ofElement lax element = .ok method) : Arg.Proper method.args := by
  obtain ⟨name, -, found⟩ := bind_ok found
  obtain ⟨⟨last, unnamed⟩, run, found⟩ := bind_ok found
  cases found
  exact foldlM_ok (fun _ state => Arg.Proper state.1.args) run .nil
    fun _ _ _ _ proper taken => takeChild_proper proper taken

theorem Signal.takeChild_finds (lax : Bool) (state : Signal × Unnamed) (child : Xml.Element)
    (proper : Arg.Proper state.1.args) : (takeChild lax state child).Finds fun next => Arg.Proper next.1.args := by
  obtain ⟨signal, unnamed⟩ := state
  simp only [takeChild]
  split
  · apply Reading.Finds.bind (Reading.Finds.lift fun found read => read)
    rintro ⟨arg, numbered⟩ found
    obtain ⟨named, typed⟩ := Arg.ofElement_spec found
    have added (fresh : ¬ signal.hasArg arg.name = true) : Arg.Proper (signal.args ++ [arg]) :=
      proper.add (by simpa [hasArg] using fresh) named typed
    simp only
    split
    · apply Reading.Finds.bind (.warn _)
      intro _ _
      split
      next => exact .refuse _ _
      next fresh => exact .pure (added fresh)
    · split
      next => exact .refuse _ _
      next fresh => exact .pure (added fresh)
  · split <;> exact .pure proper
  · exact .pure proper

theorem Signal.ofElement_finds (lax : Bool) (element : Xml.Element) :
    (ofElement lax element).Finds fun signal => Arg.Proper signal.args := by
  apply Reading.Finds.bind (.any _)
  intro name _
  apply Reading.Finds.bind (Reading.Finds.foldlM (fun state => Arg.Proper state.1.args) .nil (takeChild_finds lax))
  rintro ⟨signal, unnamed⟩ proper
  exact .pure proper

namespace Interface

/-- An interface as an element describes it. -/
structure Described (interface : Interface) : Prop where
  underived : interface.parents = []
  methods : ∀ method ∈ interface.methods, Arg.Proper method.args
  signals : ∀ signal ∈ interface.signals, Arg.Proper signal.args

theorem takeChild_finds (lax : Bool) (interface : Interface) (child : Xml.Element) (described : interface.Described) :
    (takeChild lax interface child).Finds fun next => next.name = interface.name ∧ next.Described := by
  unfold takeChild
  split
  · apply Reading.Finds.bind (Reading.Finds.lift fun method found => Method.ofElement_proper found)
    intro method proper
    refine .pure ⟨rfl, described.underived, ?_, described.signals⟩
    exact List.forall_mem_append.mpr ⟨described.methods, List.forall_mem_singleton.mpr proper⟩
  · apply Reading.Finds.bind (Signal.ofElement_finds lax child)
    intro signal proper
    refine .pure ⟨rfl, described.underived, described.methods, ?_⟩
    exact List.forall_mem_append.mpr ⟨described.signals, List.forall_mem_singleton.mpr proper⟩
  · apply Reading.Finds.bind (.any _)
    intro property _
    exact .pure ⟨rfl, described.underived, described.methods, described.signals⟩
  · exact .pure ⟨rfl, described.underived, described.methods, described.signals⟩
  · exact .pure ⟨rfl, described⟩

/-- An element describes an interface called as its attribute says. -/
theorem ofElement_finds (lax : Bool) (element : Xml.Element) :
    (ofElement lax element).Finds fun interface => interface.name = element.attributeD "name" ∧ interface.Described := by
  apply Reading.Finds.bind (Reading.Finds.lift fun name read => Xml.Element.required_ok read)
  rintro name ⟨rfl, -⟩
  refine Reading.Finds.foldlM
    (fun interface : Interface => interface.name = element.attributeD "name" ∧ interface.Described) ?_ ?_
  · exact ⟨rfl, rfl, nofun, nofun⟩
  · rintro interface child ⟨named, described⟩
    have next := takeChild_finds lax interface child described
    rwa [named] at next

end Interface
end BusStub
