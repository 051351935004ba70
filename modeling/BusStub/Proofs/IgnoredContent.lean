import BusStub.Proofs.LoaderHistory

/-! What is passed over in a document. Each level of a description looks only at children of some kinds: two documents
that are alike but for the other children load in the same way, be it with success or not, from any loader. -/

namespace BusStub.Loader

open Xml (Element)

/-- Where an element stands, which decides what is looked at among its children. -/
inductive Level where
  | node
  | interface
  /-- A method or a signal. -/
  | member
  | argument
  /-- Properties and annotations: nothing inside them counts. -/
  | leaf

namespace Level

def ignores : Level → Element → Bool
  | node, child =>
    if child.tag = "interface" then isStandard (child.attributeD "name") else child.tag != "node"
  | interface, child => !(["method", "signal", "property", "annotation"].contains child.tag)
  | member, child => !(["arg", "annotation"].contains child.tag)
  | argument, child =>
    !(child.tag = "annotation" && child.attribute? "name" = some Marking.variantTypes.name)
  | leaf, _ => true

/-- The level of a child that is looked at. -/
def inside : Level → String → Level
  | node, "node" => node
  | node, "interface" => interface
  | interface, "method" | interface, "signal" => member
  | member, "arg" => argument
  | _, _ => leaf

end Level

/-- Children of two elements of one level that differ, at any depth, only in what is ignored: elements that only the one
or only the other has, and so also elements that have been replaced. -/
inductive Alike : Level → List Element → List Element → Prop where
  | nil {level : Level} : Alike level [] []
  | more {level : Level} {child : Element} {children others : List Element} (ignored : level.ignores child)
      (rest : Alike level children others) : Alike level (child :: children) others
  | fewer {level : Level} {child : Element} {children others : List Element} (ignored : level.ignores child)
      (rest : Alike level children others) : Alike level children (child :: others)
  | both {level : Level} {tag : String} {attributes : List (String × String)}
      {children others inner inner' : List Element} (within : Alike (level.inside tag) inner inner')
      (rest : Alike level children others) :
      Alike level (⟨tag, attributes, inner⟩ :: children) (⟨tag, attributes, inner'⟩ :: others)

/-- Outermost elements that differ only in what is ignored inside them. -/
structure Resembles (element other : Element) : Prop where
  tag : element.tag = other.tag
  attributes : element.attributes = other.attributes
  children : Alike .node element.children other.children

variable {α β σ : Type} {level : Level} {tag : String} {attributes : List (String × String)}
  {children others : List Element}

namespace Alike

/-- What passes over ignored children and treats the others in the same way gives the same for both. For children of
the same level as their parent it may be used again. -/
theorem congr (read : List Element → β)
    (skips : ∀ child rest, level.ignores child → read (child :: rest) = read rest)
    (takes : ∀ tag attributes inner inner' rest rest', Alike (level.inside tag) inner inner' →
      (level.inside tag = level → read inner = read inner') → read rest = read rest' →
      read (⟨tag, attributes, inner⟩ :: rest) = read (⟨tag, attributes, inner'⟩ :: rest'))
    (alike : Alike level children others) : read children = read others := by
  induction alike with
  | nil => rfl
  | more ignored _ ih => rw [skips _ _ ignored, ih skips takes]
  | fewer ignored _ ih => rw [skips _ _ ignored, ih skips takes]
  | @both level tag attributes children others inner inner' within _ ihInner ihRest =>
    apply takes tag attributes inner inner' children others within _ (ihRest skips takes)
    intro same
    rw [same] at ihInner
    exact ihInner skips takes

theorem foldlM {m : Type → Type} [Monad m] [LawfulMonad m] (step : σ → Element → m σ)
    (skips : ∀ state child, level.ignores child → step state child = pure state)
    (takes : ∀ state tag attributes inner inner', Alike (level.inside tag) inner inner' →
      step state ⟨tag, attributes, inner⟩ = step state ⟨tag, attributes, inner'⟩)
    (alike : Alike level children others) (start : σ) : children.foldlM step start = others.foldlM step start := by
  refine congrFun (alike.congr (fun elements start => elements.foldlM step start) ?_ ?_) start
  · intro child rest ignored
    funext start
    rw [List.foldlM_cons, skips start child ignored, pure_bind]
  · intro tag attributes inner inner' rest rest' within _ same
    funext start
    rw [List.foldlM_cons, List.foldlM_cons, takes start tag attributes inner inner' within]
    exact congrArg _ (funext fun next => congrFun same next)

end Alike

theorem variantHint?_cons (child : Element) :
    Element.variantHint? ⟨tag, attributes, child :: children⟩ =
      if child.tag = "annotation" ∧ child.attribute? "name" = some Marking.variantTypes.name then
        child.attribute? "value"
      else Element.variantHint? ⟨tag, attributes, children⟩ := by
  unfold Element.variantHint?
  split
  next announces => rw [List.find?_cons_of_pos (by simpa using announces), Option.bind_some]
  next other => rw [List.find?_cons_of_neg (by simpa using other)]

theorem variantHint?_alike (alike : Alike .argument children others) :
    Element.variantHint? ⟨tag, attributes, children⟩ = Element.variantHint? ⟨tag, attributes, others⟩ := by
  refine alike.congr (fun elements => Element.variantHint? ⟨tag, attributes, elements⟩) ?_ ?_
  · intro child rest ignored
    rw [variantHint?_cons, if_neg (not_and_or.mpr (by simpa [Level.ignores] using ignored))]
  · intro tag' attributes' inner inner' rest rest' _ _ same
    rw [variantHint?_cons, variantHint?_cons, same]
    rfl

theorem Arg.ofElement_alike (lax : Bool) (member : String) (role : ArgRole) (unnamed : Unnamed)
    (alike : Alike .argument children others) :
    Arg.ofElement lax member role unnamed ⟨tag, attributes, children⟩ =
      Arg.ofElement lax member role unnamed ⟨tag, attributes, others⟩ := by
  unfold Arg.ofElement
  rw [variantHint?_alike alike]
  rfl

theorem Method.takeChild_alike (lax : Bool) (state : Method × Unnamed)
    (alike : Alike (Level.member.inside tag) children others) :
    Method.takeChild lax state ⟨tag, attributes, children⟩ = Method.takeChild lax state ⟨tag, attributes, others⟩ := by
  unfold Method.takeChild
  dsimp only
  split
  · simp only [Arg.ofElement_alike _ _ _ _ alike]
    rfl
  · rfl
  · rfl

theorem Method.takeChild_ignores (lax : Bool) (state : Method × Unnamed) {child : Element}
    (ignored : Level.member.ignores child) : Method.takeChild lax state child = pure state := by
  unfold Method.takeChild
  dsimp only
  split
  next tag => simp [Level.ignores, tag] at ignored
  next tag => simp [Level.ignores, tag] at ignored
  next => rfl

theorem Method.ofElement_alike (lax : Bool) (alike : Alike .member children others) :
    Method.ofElement lax ⟨tag, attributes, children⟩ = Method.ofElement lax ⟨tag, attributes, others⟩ := by
  have same := alike.foldlM (Method.takeChild lax) (fun state _ => Method.takeChild_ignores lax state)
    fun state _ _ _ _ => Method.takeChild_alike lax state
  unfold Method.ofElement
  simp only [same]
  rfl

theorem Signal.takeChild_alike (lax : Bool) (state : Signal × Unnamed)
    (alike : Alike (Level.member.inside tag) children others) :
    Signal.takeChild lax state ⟨tag, attributes, children⟩ = Signal.takeChild lax state ⟨tag, attributes, others⟩ := by
  unfold Signal.takeChild
  dsimp only
  split
  · simp only [Arg.ofElement_alike _ _ _ _ alike]
    rfl
  · rfl
  · rfl

theorem Signal.takeChild_ignores (lax : Bool) (state : Signal × Unnamed) {child : Element}
    (ignored : Level.member.ignores child) : Signal.takeChild lax state child = pure state := by
  unfold Signal.takeChild
  dsimp only
  split
  next tag => simp [Level.ignores, tag] at ignored
  next tag => simp [Level.ignores, tag] at ignored
  next => rfl

theorem Signal.ofElement_alike (lax : Bool) (alike : Alike .member children others) :
    Signal.ofElement lax ⟨tag, attributes, children⟩ = Signal.ofElement lax ⟨tag, attributes, others⟩ := by
  have same := alike.foldlM (Signal.takeChild lax) (fun state _ => Signal.takeChild_ignores lax state)
    fun state _ _ _ _ => Signal.takeChild_alike lax state
  unfold Signal.ofElement
  simp only [same]
  rfl

theorem Interface.takeChild_alike (lax : Bool) (interface : Interface)
    (alike : Alike (Level.interface.inside tag) children others) :
    Interface.takeChild lax interface ⟨tag, attributes, children⟩ =
      Interface.takeChild lax interface ⟨tag, attributes, others⟩ := by
  unfold Interface.takeChild
  dsimp only
  split
  · rw [Method.ofElement_alike lax alike]
  · rw [Signal.ofElement_alike lax alike]
  · rfl
  · rfl
  · rfl

theorem Interface.takeChild_ignores (lax : Bool) (interface : Interface) {child : Element}
    (ignored : Level.interface.ignores child) : Interface.takeChild lax interface child = pure interface := by
  unfold Interface.takeChild
  split
  next tag => simp [Level.ignores, tag] at ignored
  next tag => simp [Level.ignores, tag] at ignored
  next tag => simp [Level.ignores, tag] at ignored
  next tag => simp [Level.ignores, tag] at ignored
  next => rfl

theorem Interface.ofElement_alike (lax : Bool) (alike : Alike .interface children others) :
    Interface.ofElement lax ⟨tag, attributes, children⟩ = Interface.ofElement lax ⟨tag, attributes, others⟩ := by
  have same := alike.foldlM (Interface.takeChild lax)
    (fun interface _ => Interface.takeChild_ignores lax interface)
    fun interface _ _ _ _ => Interface.takeChild_alike lax interface
  unfold Interface.ofElement
  simp only [same]
  rfl

variable {options : LoadOptions}

theorem interface?_alike (alike : Alike .interface children others) :
    interface? options ⟨tag, attributes, children⟩ = interface? options ⟨tag, attributes, others⟩ := by
  unfold interface?
  rw [Interface.ofElement_alike options.lax alike]
  rfl

/-- A standard interface is passed over before anything of it is read. -/
theorem nodeChildren_ignores (path : String) {child : Element} (rest : List Element)
    (ignored : Level.node.ignores child) :
    nodeChildren options path (child :: rest) = nodeChildren options path rest := by
  rw [nodeChildren]
  split
  next tag =>
    have standard : isStandard (child.attributeD "name") := by simpa [Level.ignores, tag] using ignored
    rw [interface?, if_pos standard, pure_bind]
    simp
  next tag => simp [Level.ignores, tag] at ignored
  next => rfl

theorem node_alike {name : Option String} {path : String} (inside : nodeChildren options path children =
    nodeChildren options path others) :
    node options name path ⟨tag, attributes, children⟩ = node options name path ⟨tag, attributes, others⟩ := by
  rw [node, node, inside]

theorem nodeChildren_alike (alike : Alike .node children others) :
    (nodeChildren options · children) = (nodeChildren options · others) := by
  refine alike.congr (fun elements => (nodeChildren options · elements)) ?_ ?_
  · intro child rest ignored
    funext path
    exact nodeChildren_ignores path rest ignored
  · intro tag attributes inner inner' rest rest' within again same
    funext path
    have later : nodeChildren options path rest = nodeChildren options path rest' := congrFun same path
    rw [nodeChildren, nodeChildren, later]
    dsimp only
    split
    · rw [interface?_alike within]
    · have deeper (name : String) := congrFun (again rfl) (ObjectPath.join path name)
      simp only [node_alike (deeper _)]
      rfl
    · rfl

theorem root_resembles {element other : Element} (same : Resembles element other) :
    root options element = root options other := by
  obtain ⟨tag, attributes, children⟩ := element
  obtain ⟨tag', attributes', others⟩ := other
  obtain ⟨rfl, rfl, alike⟩ := same
  have inside (path : String) : nodeChildren options path children = nodeChildren options path others :=
    congrFun (nodeChildren_alike alike) path
  unfold root
  simp only [node_alike (inside _)]
  rfl

/-- Two documents that differ only in what is ignored inside them, or two texts that are no documents, load with the
same success or the same error, and leave the same objects, the same table of interfaces and the same warnings. -/
theorem ignored_content_immaterial {read : String → Option Element} {options : LoadOptions} {text other : String}
    (same : Option.Rel Resembles (read text) (read other)) (loader : Loader) :
    (documentBy read options text).run loader = (documentBy read options other).run loader := by
  unfold documentBy
  generalize read text = first, read other = second at same
  cases same with
  | some resembles => exact congrArg (·.run loader) (root_resembles resembles)
  | none => rfl

def plainLamp : String :=
  "<node name=\"Lamp\"><interface name=\"b.Light\"/></node>"

/-- The same lamp, with a standard interface that could not be read and a remark. -/
def notedLamp : String :=
  "<node name=\"Lamp\"><interface name=\"org.freedesktop.DBus.Properties\"><method/></interface>" ++
  "<interface name=\"b.Light\"><doc/></interface></node>"

set_option maxRecDepth 4000 in
theorem lamp_noted :
    Option.Rel Resembles (Element.ofDocument? plainLamp) (Element.ofDocument? notedLamp) ∧
      (documentBy Element.ofDocument? {} plainLamp).run {} = (documentBy Element.ofDocument? {} notedLamp).run {} ∧
      ((documentBy Element.ofDocument? {} plainLamp).run {}).1 = .ok () := by
  let light (inner : List Element) : Element := ⟨"interface", [("name", "b.Light")], inner⟩
  let standard : Element := ⟨"interface", [("name", "org.freedesktop.DBus.Properties")], [⟨"method", [], []⟩]⟩
  have read : Element.ofDocument? plainLamp = some ⟨"node", [("name", "Lamp")], [light []]⟩ := by
    with_unfolding_all rfl
  have read' : Element.ofDocument? notedLamp =
      some ⟨"node", [("name", "Lamp")], [standard, light [⟨"doc", [], []⟩]]⟩ := by
    with_unfolding_all rfl
  have resembles : Option.Rel Resembles (Element.ofDocument? plainLamp) (Element.ofDocument? notedLamp) := by
    have inside : Alike .interface [] [⟨"doc", [], []⟩] := .fewer rfl .nil
    rw [read, read']
    exact .some ⟨rfl, rfl, .fewer (by decide) (.both inside .nil)⟩
  exact ⟨resembles, ignored_content_immaterial resembles {}, by decide +kernel⟩

end BusStub.Loader
