import BusStub.Proofs.LoadOrder
import BusStub.Proofs.WrittenFiles

/-! Nothing is written before everything has been generated. Loading and generating only look at files, so whatever goes
wrong there leaves all of them as they are, however much has succeeded before. What can go wrong is said without the
machine: by the texts of the files, loaded one after another, and the objects that come of them. -/

namespace BusStub

open Machine

namespace Xml.Element

/-- The element declares an interface that is not standard, or an object inside it does. -/
inductive Declares : Element → Prop where
  | own {element child : Element} (member : child ∈ element.children) (tag : child.tag = "interface")
      (other : Loader.isStandard (child.attributeD "name") = false) : Declares element
  | inside {element child : Element} (member : child ∈ element.children) (tag : child.tag = "node")
      (declares : Declares child) : Declares element

/-- What makes the element around it declare something. -/
def Brings (child : Element) : Prop :=
  child.tag = "interface" ∧ Loader.isStandard (child.attributeD "name") = false ∨ child.tag = "node" ∧ child.Declares

theorem declares_iff {element : Element} : element.Declares ↔ ∃ child ∈ element.children, child.Brings := by
  constructor
  · rintro (⟨member, tag, other⟩ | ⟨member, tag, declares⟩)
    · exact ⟨_, member, .inl ⟨tag, other⟩⟩
    · exact ⟨_, member, .inr ⟨tag, declares⟩⟩
  · rintro ⟨child, member, ⟨tag, other⟩ | ⟨tag, declares⟩⟩
    · exact .own member tag other
    · exact .inside member tag declares

end Xml.Element

namespace Loader

variable {read : String → Option Xml.Element} {options : LoadOptions}

theorem interfaceAsking_parts {element : Xml.Element} {found : Option Interface} {content : Content}
    (asks : (interfaceAsking options element).run = some (found, content)) :
    found.toList = [] ↔ isStandard (element.attributeD "name") = true := by
  unfold interfaceAsking at asks
  split at asks
  next standard =>
    cases asks
    exact ⟨fun _ => standard, fun _ => rfl⟩
  next other =>
    obtain ⟨interface, _, rest⟩ := Asking.lift_bind_eq_some.mp asks
    cases rest
    simp [other]

mutual
/-- The induction is on the element: an object comes of its own interfaces, or from an object inside it. -/
theorem nodeAsking_bare : (element : Xml.Element) → (name : Option String) → (path : String) → (content : Content) →
    (nodeAsking options name path element).run = some ((), content) → (content.objects = [] ↔ ¬ element.Declares)
  | ⟨tag, attributes, children⟩, name, path, content, asks => by
    obtain ⟨parts, inner, object, first, last, rfl⟩ := Asking.bind_eq_some.mp asks
    have bare := childrenAsking_bare children path parts inner first
    have own : object.objects = [] ↔ parts = [] := by
      unfold objectAsking at last
      split at last
      next empty =>
        cases last
        simpa using empty
      next some =>
        cases name with
        | none => cases last
        | some name =>
          cases last
          simpa using some
    rw [Content.mul_objects, List.append_eq_nil_iff, own, and_comm, bare, Xml.Element.declares_iff]
    simp only [not_exists, not_and]

theorem childrenAsking_bare : (children : List Xml.Element) → (path : String) → (parts : List Interface) →
    (content : Content) → (childrenAsking options path children).run = some (parts, content) →
      (parts = [] ∧ content.objects = [] ↔ ∀ child ∈ children, ¬ child.Brings)
  | [], path, parts, content, asks => by
    rw [childrenAsking] at asks
    cases asks
    simp
  | child :: rest, path, parts, content, asks => by
    obtain ⟨found, before, others, after, first, later, rfl, rfl⟩ := childrenAsking_cons.mp asks
    have bare := childrenAsking_bare rest path others after later
    have own : found = [] ∧ before.objects = [] ↔ ¬ child.Brings := by
      by_cases interface : child.tag = "interface"
      · obtain ⟨declared, asked, rfl⟩ := (childAsking_interface_iff interface).mp first
        simp [childAsking_objects interface first, interfaceAsking_parts asked, Xml.Element.Brings, interface]
      · by_cases node : child.tag = "node"
        · obtain ⟨name, -, asked, rfl⟩ := (childAsking_node_iff node).mp first
          simp [nodeAsking_bare child (some name) _ before asked, Xml.Element.Brings, node]
        · rw [childAsking_other interface node] at first
          cases first
          simp [Xml.Element.Brings, interface, node]
    rw [List.forall_mem_cons, ← own, ← bare, Content.mul_objects]
    simp only [List.append_eq_nil_iff]
    tauto
end

theorem documentAsking_bare {text : String} {content : Content}
    (asks : (documentAsking read options text).run = some ((), content)) :
    content.objects = [] ↔ ∀ element, read text = some element → ¬ element.Declares := by
  obtain ⟨element, found, asks⟩ := Asking.lift_bind_eq_some.mp asks
  have bare : content.objects = [] ↔ ¬ element.Declares := by
    unfold rootAsking at asks
    split at asks
    · cases asks
    · simp only [pure_bind] at asks
      exact nodeAsking_bare element _ _ content asks
  rw [bare, found]
  simp

/-- Documents that can all be loaded give no object exactly when none of them declares an interface. -/
theorem AllLoad.bare {texts : List String} (loads : AllLoad read options {} texts) :
    (history read options texts).objects = [] ↔
      ∀ text ∈ texts, ∀ element, read text = some element → ¬ element.Declares := by
  obtain ⟨contents, asks, admits⟩ := loads.asks
  have found : (history read options texts).objects = contents.prod.objects := (asks.loads admits).2.objects
  rw [found, Content.prod_objects, List.flatMap_eq_nil_iff]
  clear found admits loads
  induction asks with
  | nil => simp
  | cons first _ ih =>
    rw [List.forall_mem_cons, List.forall_mem_cons]
    exact and_congr (documentAsking_bare first) ih

end Loader

namespace Run

variable {read : String → Option Xml.Element} {options : LoadOptions} {loader after : Loader} {machine : Machine}
  {settings : Settings}

theorem loadText_still (file text : String) :
    Relates Eq (loadText read options file text loader : StateM Machine _) := by
  have remarks (messages : List LoadWarning) :
      Relates Eq (messages.forM fun warning => Disk.warn warning.message : StateM Machine Unit) := by
    induction messages with
    | nil => exact .pure _
    | cons first rest ih =>
      have here : Relates Eq (Disk.warn first.message : StateM Machine Unit) := .warn _
      exact here.bind fun _ => ih
  unfold loadText
  apply Relates.bind (remarks _)
  intro _
  split <;> exact .pure _

theorem loadText_result (file text : String) (machine : Machine) :
    ((loadText read options file text loader : StateM Machine _).run machine).1 =
      match (Loader.documentBy read options text).run loader with
      | (.ok (), after) => .ok after
      | (.error cause, _) => .error (.load file cause) := by
  unfold loadText
  rcases (Loader.documentBy read options text).run loader with ⟨_ | _, _⟩ <;> rfl

theorem loadFiles_still (files : List String) :
    Relates Eq (loadFiles read options files loader : StateM Machine _) := by
  induction files generalizing loader with
  | nil => exact .pure _
  | cons file rest ih =>
    have looked : Relates Eq (Disk.readText file : StateM Machine _) := .look (·.readText file)
    unfold loadFiles
    apply looked.bind
    intro found
    split
    · exact .pure _
    · apply Relates.bind (loadText_still file _)
      intro result
      split
      · exact .pure _
      · exact ih

theorem loadObjects_still : Relates Eq (loadObjects read settings : StateM Machine _) := by
  unfold loadObjects
  apply Relates.bind (loadFiles_still settings.files)
  intro result
  split <;> exact .pure _

/-- The texts of all files. -/
abbrev Reads (store : Store) (files texts : List String) : Prop :=
  List.Forall₂ (fun file text => store.readText file = .ok text) files texts

/-- Files are loaded when each of them can be read and its text be loaded after the texts before it. -/
theorem loadFiles_ok_iff {files : List String} :
    ((loadFiles read options files loader : StateM Machine _).run machine).1 = .ok after ↔
      ∃ texts, Reads machine.store files texts ∧ Loader.AllLoad read options loader texts ∧
        texts.foldl (Loader.take read options) loader = after := by
  induction files generalizing loader machine with
  | nil =>
    constructor
    · intro same
      cases same
      exact ⟨[], .nil, trivial, rfl⟩
    · rintro ⟨_, ⟨⟩, -, rfl⟩
      rfl
  | cons file rest ih =>
    have looked : (Disk.readText file : StateM Machine _).run machine = (machine.store.readText file, machine) := rfl
    simp only [Reads, List.forall₂_cons_left_iff]
    rw [loadFiles, bind_run, looked]
    cases machine.store.readText file with
    | error fault => simp
    | ok text =>
      have still : machine.store = _ := @loadText_still read options loader file text machine
      simp only
      rw [bind_run, loadText_result]
      rcases ran : (Loader.documentBy read options text).run loader with ⟨_ | _, next⟩
      · constructor
        · intro impossible
          cases impossible
        · rintro ⟨_, ⟨_, _, ⟨⟩, -, rfl⟩, ⟨loads, -⟩, -⟩
          cases (congrArg Prod.fst ran).symm.trans loads
      · have taken : Loader.take read options loader text = next := congrArg Prod.snd ran
        simp only
        rw [ih, ← still]
        constructor
        · rintro ⟨texts, reads, loads, last⟩
          refine ⟨text :: texts, ⟨text, texts, rfl, reads, rfl⟩, ⟨congrArg Prod.fst ran, taken ▸ loads⟩, ?_⟩
          rw [List.foldl_cons, taken, last]
        · rintro ⟨_, ⟨_, texts, ⟨⟩, reads, rfl⟩, ⟨-, loads⟩, last⟩
          rw [List.foldl_cons, taken] at last
          exact ⟨texts, reads, taken ▸ loads, last⟩

/-- The objects that all files together describe; there is at least one. -/
theorem loadObjects_ok_iff {objects : List ObjectNode} :
    ((loadObjects read settings : StateM Machine _).run machine).1 = .ok objects ↔
      ∃ texts, Reads machine.store settings.files texts ∧ Loader.AllLoad read settings.loadOptions {} texts ∧
        (Loader.history read settings.loadOptions texts).objects = objects ∧ objects ≠ [] := by
  have loaded (after : Loader) := @loadFiles_ok_iff read settings.loadOptions {} after machine settings.files
  unfold loadObjects
  rw [bind_run]
  generalize (loadFiles read settings.loadOptions settings.files {} : StateM Machine _).run machine = outcome at loaded
  obtain ⟨error | loader, after⟩ := outcome
  · constructor
    · exact nofun
    · rintro ⟨texts, reads, loads, -⟩
      cases (loaded _).mpr ⟨texts, reads, loads, rfl⟩
  · obtain ⟨texts, reads, loads, last⟩ := (loaded loader).mp rfl
    constructor
    · intro run
      change (if loader.objects.isEmpty then .error .noObjects else .ok loader.objects : Except RunError _) = _ at run
      split at run
      next => cases run
      next some =>
        cases run
        exact ⟨texts, reads, loads, congrArg Loader.objects last, by simpa using some⟩
    · rintro ⟨texts, reads, loads, rfl, some⟩
      obtain rfl : loader = _ := Except.ok.inj ((loaded _).mpr ⟨texts, reads, loads, rfl⟩)
      exact if_neg (mt List.isEmpty_iff.mp some)

/-- Something keeps files from being generated. -/
inductive Unfit (read : String → Option Xml.Element) (settings : Settings) (store : Store) : Prop where
  /-- A file cannot be read. -/
  | unreadable {file : String} {fault : DiskFault} (listed : file ∈ settings.files)
      (failed : store.readText file = .error fault)
  /-- A document cannot be loaded after those before it. -/
  | unloadable {texts : List String} (reads : Reads store settings.files texts)
      (failed : ¬ Loader.AllLoad read settings.loadOptions {} texts)
  /-- No object declares an interface, or only standard ones. -/
  | bare (none : ∀ file ∈ settings.files, ∀ text, store.readText file = .ok text →
      ∀ element, read text = some element → ¬ element.Declares)
  /-- There are no stubs for one of the objects. -/
  | ungenerated {texts : List String} {object : ObjectNode} {error : StubError}
      (reads : Reads store settings.files texts)
      (found : object ∈ (Loader.history read settings.loadOptions texts).objects)
      (failed : object.emit settings.stubOptions = .error error)

variable {store : Store}

theorem Reads.unique {files texts texts' : List String} (reads : Reads store files texts)
    (reads' : Reads store files texts') : texts = texts' :=
  List.right_unique_forall₂' (fun _ _ _ one two => Except.ok.inj (one.symm.trans two)) reads reads'

theorem Reads.text_mem {files texts : List String} (reads : Reads store files texts) {file text : String}
    (listed : file ∈ files) (opened : store.readText file = .ok text) : text ∈ texts := by
  obtain ⟨found, inside, same⟩ := exists_of_forall₂ reads.flip listed
  rwa [Except.ok.inj (opened.symm.trans same)]

theorem reads_of_readable {files : List String} (readable : ∀ file ∈ files, ∃ text, store.readText file = .ok text) :
    ∃ texts, Reads store files texts := by
  induction files with
  | nil => exact ⟨[], .nil⟩
  | cons file rest ih =>
    obtain ⟨⟨text, opened⟩, others⟩ := List.forall_mem_cons.mp readable
    obtain ⟨texts, reads⟩ := ih others
    exact ⟨text :: texts, .cons opened reads⟩

theorem emitAll_error {options : StubOptions} {objects : List ObjectNode} {error : RunError}
    (failed : emitAll options objects = .error error) :
    ∃ object ∈ objects, ∃ cause, object.emit options = .error cause := by
  rcases bind_error failed with failed | ⟨_, -, impossible⟩
  · obtain ⟨object, member, failed⟩ := mapM_error failed
    cases result : object.emit options with
    | error cause => exact ⟨object, member, cause, result⟩
    | ok files =>
      rw [result] at failed
      cases failed
  · cases impossible

/-- Otherwise everything is loaded and generated. -/
theorem not_unfit_iff : ¬ Unfit read settings store ↔
    ∃ texts files, Reads store settings.files texts ∧ Loader.AllLoad read settings.loadOptions {} texts ∧
      (Loader.history read settings.loadOptions texts).objects ≠ [] ∧
      emitAll settings.stubOptions (Loader.history read settings.loadOptions texts).objects = .ok files := by
  constructor
  · intro fit
    have readable : ∀ file ∈ settings.files, ∃ text, store.readText file = .ok text := by
      intro file listed
      cases opened : store.readText file with
      | error fault => exact absurd (.unreadable listed opened) fit
      | ok text => exact ⟨text, rfl⟩
    obtain ⟨texts, reads⟩ := reads_of_readable readable
    have loads : Loader.AllLoad read settings.loadOptions {} texts := by
      by_contra failed
      exact fit (.unloadable reads failed)
    cases emitted : emitAll settings.stubOptions (Loader.history read settings.loadOptions texts).objects with
    | error error =>
      obtain ⟨object, found, cause, failed⟩ := emitAll_error emitted
      exact absurd (.ungenerated reads found failed) fit
    | ok files =>
      refine ⟨texts, files, reads, loads, ?_, emitted⟩
      intro empty
      have none := loads.bare.mp empty
      exact fit (.bare fun file listed text opened => none text (reads.text_mem listed opened))
  · rintro ⟨texts, files, reads, loads, some, emitted⟩ unfit
    cases unfit with
    | unreadable listed failed =>
      obtain ⟨text, -, opened⟩ := exists_of_forall₂ reads.flip listed
      cases failed.symm.trans opened
    | unloadable reads' failed => exact failed (reads.unique reads' ▸ loads)
    | bare none =>
      refine some (loads.bare.mpr fun text inside => ?_)
      obtain ⟨file, listed, opened⟩ := exists_of_forall₂ reads inside
      exact none file listed text opened
    | ungenerated reads' found failed =>
      obtain rfl := reads.unique reads'
      obtain ⟨each, every, -⟩ := bind_ok emitted
      obtain ⟨files, -, emitted⟩ := exists_of_forall₂ (mapM_ok every).flip found
      rw [failed] at emitted
      cases emitted

/-- Either nothing is touched, or everything has been generated and is written. -/
theorem generate_cases (read : String → Option Xml.Element) (settings : Settings) (machine : Machine) :
    (Unfit read settings machine.store ∧
      (∃ error, ((generate settings read : StateM Machine _).run machine).1 = .error error) ∧
      ((generate settings read : StateM Machine _).run machine).2.store = machine.store) ∨
    (¬ Unfit read settings machine.store ∧
      ∃ (ready : Machine) (files : List OutputFile), ready.store = machine.store ∧
        (generate settings read : StateM Machine _).run machine =
          (((Output.write settings.outputPath settings.overwrite files : StateM Machine _).run ready).1.mapError
              (.write settings.outputPath),
            ((Output.write settings.outputPath settings.overwrite files : StateM Machine _).run ready).2)) := by
  have still : machine.store = _ := @loadObjects_still read settings machine
  have loaded (objects : List ObjectNode) := @loadObjects_ok_iff read machine settings objects
  unfold generate
  rw [bind_run]
  generalize (loadObjects read settings : StateM Machine _).run machine = outcome at still loaded
  obtain ⟨error | objects, ready⟩ := outcome
  · refine .inl ⟨?_, ⟨error, rfl⟩, still.symm⟩
    by_contra fit
    obtain ⟨texts, files, reads, loads, some, -⟩ := not_unfit_iff.mp fit
    cases (loaded _).mpr ⟨texts, reads, loads, rfl, some⟩
  · obtain ⟨texts, reads, loads, rfl, some⟩ := (loaded objects).mp rfl
    cases emitted : emitAll settings.stubOptions (Loader.history read settings.loadOptions texts).objects with
    | error error =>
      obtain ⟨object, found, cause, failed⟩ := emitAll_error emitted
      simp only [emitted]
      exact .inl ⟨.ungenerated reads found failed, ⟨error, rfl⟩, still.symm⟩
    | ok files =>
      simp only [emitted]
      exact .inr ⟨not_unfit_iff.mpr ⟨texts, files, reads, loads, some, emitted⟩, ready, files, still.symm, rfl⟩

end Run

/-- However documents are read: if anything keeps files from being generated, a run fails and leaves all files as they
are; if nothing does, it can only fail at writing. Listings never change a file. A run that succeeds changes the files
whose paths it returns, and makes directories on the way to them. -/
theorem generated_all_or_nothing (read : String → Option Xml.Element) (settings : Settings) (machine : Machine) :
    (Run.Unfit read settings machine.store →
      (∃ error, ((Run.generate settings read : StateM Machine _).run machine).1 = .error error) ∧
        ((Run.generate settings read : StateM Machine _).run machine).2.store = machine.store) ∧
    (¬ Run.Unfit read settings machine.store →
      ∀ error, ((Run.generate settings read : StateM Machine _).run machine).1 = .error error →
        ∃ fault, error = .write settings.outputPath fault) ∧
    (∀ format, ((Run.listModel settings format read : StateM Machine _).run machine).2.store = machine.store) ∧
    ((Run.listTypes settings read : StateM Machine _).run machine).2.store = machine.store ∧
    ∀ paths, ((Run.generate settings read : StateM Machine _).run machine).1 = .ok paths →
      machine.store.Alters paths (settings.outputPath :: Path.above settings.outputPath)
        ((Run.generate settings read : StateM Machine _).run machine).2.store := by
  refine ⟨?_, ?_, ?_, ?_, ?_⟩
  · intro unfit
    rcases Run.generate_cases read settings machine with ⟨-, failed, same⟩ | ⟨fit, -⟩
    · exact ⟨failed, same⟩
    · exact absurd unfit fit
  · intro fit error failed
    rcases Run.generate_cases read settings machine with ⟨unfit, -⟩ | ⟨-, ready, files, -, run⟩
    · exact absurd unfit fit
    · rw [run] at failed
      generalize ((Output.write settings.outputPath settings.overwrite files : StateM Machine _).run ready).1 = result
        at failed
      cases result with
      | error fault => exact ⟨fault, (Except.error.inj failed).symm⟩
      | ok paths => cases failed
  · intro format
    exact (Run.loadObjects_still machine).symm
  · exact (Run.loadObjects_still machine).symm
  · intro paths succeeded
    rcases Run.generate_cases read settings machine with ⟨-, ⟨error, failed⟩, -⟩ | ⟨-, ready, files, same, run⟩
    · cases failed.symm.trans succeeded
    · rw [run] at succeeded ⊢
      rw [← same]
      generalize written : (Output.write settings.outputPath settings.overwrite files : StateM Machine _).run ready =
        outcome at succeeded ⊢
      obtain ⟨fault | listed, after⟩ := outcome
      · cases succeeded
      · cases succeeded
        obtain ⟨-, -, -, alters⟩ := Output.write_ok written
        exact alters

/-- The workshop with the description of a fan, whose speed is of no type. -/
def attic : Machine where
  store :=
    { workshop.store with
      entries := workshop.store.entries ++
        [(["home", "fan.xml"],
          .file ("<node name=\"Fan\"><interface name=\"home.Fan\">" ++
            "<property name=\"speed\" type=\"?\" access=\"read\"/></interface></node>").toUTF8)] }

theorem attic_all_or_nothing :
    Run.Unfit Xml.Element.ofDocument? { outputPath := "out", files := ["lamp.xml", "fan.xml"] } attic.store ∧
    ((Run.generate { outputPath := "out", files := ["lamp.xml", "fan.xml"] } : StateM Machine _).run attic).2.store =
      attic.store ∧
    attic.store.Alters
      ["out/LampTypes.h", "out/LampClient.h", "out/LampClient.cc", "out/LampClientHandlers.cc", "out/LampService.h",
        "out/LampService.cc", "out/LampServiceMethods.cc"]
      ["out", ""]
      ((Run.generate { outputPath := "out", files := ["lamp.xml"] } : StateM Machine _).run attic).2.store := by
  obtain ⟨nothing, only, -⟩ :=
    generated_all_or_nothing Xml.Element.ofDocument? { outputPath := "out", files := ["lamp.xml", "fan.xml"] } attic
  have unfit : Run.Unfit Xml.Element.ofDocument? { outputPath := "out", files := ["lamp.xml", "fan.xml"] }
      attic.store := by
    by_contra fit
    obtain ⟨fault, same⟩ := only fit (.generate "Fan" (.signature "property speed" "speed" ⟨"?", .unknownCode '?'⟩))
      (by decide +kernel)
    cases same
  refine ⟨unfit, (nothing unfit).2, ?_⟩
  obtain ⟨-, -, -, -, alters⟩ :=
    generated_all_or_nothing Xml.Element.ofDocument? { outputPath := "out", files := ["lamp.xml"] } attic
  exact alters _ (by decide +kernel)

end BusStub
