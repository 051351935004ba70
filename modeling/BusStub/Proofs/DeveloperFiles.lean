import BusStub.Run
import BusStub.Proofs.DeclaredRecords
import BusStub.Proofs.FileTree
import BusStub.Proofs.LoaderHistory

/-! Files that developers edit. Whatever is generated and written, and whichever of it fails, such a file is written
only where there was none. -/

namespace BusStub

variable {α β : Type}

namespace Machine

/-- The action keeps the files that are to be kept, and afterwards more is known of what it gave. -/
def Spares (own : String → Prop) (pre : Store → Prop) (action : StateM Machine α) (post : α → Store → Prop) : Prop :=
  ∀ machine, pre machine.store →
    machine.store.Keeps own (action.run machine).2.store ∧ post (action.run machine).1 (action.run machine).2.store

variable {own : String → Prop} {pre : Store → Prop}

namespace Spares

theorem pure {post : α → Store → Prop} {value : α} (holds : ∀ store, pre store → post value store) :
    Spares own pre (Pure.pure value) post :=
  fun machine known => ⟨.refl _, holds machine.store known⟩

theorem bind {mid : α → Store → Prop} {post : β → Store → Prop} {first : StateM Machine α}
    {rest : α → StateM Machine β} (before : Spares own pre first mid)
    (after : ∀ value, Spares own (mid value) (rest value) post) : Spares own pre (first >>= rest) post := by
  intro machine known
  obtain ⟨kept, found⟩ := before machine known
  obtain ⟨kept', result⟩ := after _ _ found
  exact ⟨kept.trans kept', result⟩

/-- What is known of the values found so far may be used. -/
theorem assuming {fact : Prop} {post : α → Store → Prop} {action : StateM Machine α}
    (spares : fact → Spares own (fun _ => True) action post) : Spares own (fun _ => fact) action post :=
  fun machine holds => spares holds machine trivial

/-- Looking at files changes nothing. -/
theorem look (read : Store → α) :
    Spares own pre (fun machine => (read machine.store, machine)) fun found store => found = read store ∧ pre store :=
  fun _ known => ⟨.refl _, rfl, known⟩

theorem warn (text : String) : Spares own pre (Disk.warn text) fun _ => pre :=
  fun _ known => ⟨.refl _, known⟩

theorem makeDirectory (path : String) : Spares own pre (Disk.makeDirectory path) fun _ _ => True := by
  intro machine _
  refine ⟨?_, trivial⟩
  change machine.store.Keeps own (change (·.makeDirectory path) machine).2.store
  unfold change
  split
  next made => exact Store.makeDirectory_keeps made
  next => exact .refl _

/-- A file is written where none to be kept is. -/
theorem writeText (path text : String) :
    Spares own (fun store => ∀ name, (Path.names path).getLast? = some name → own name → store.isPresent path = false)
      (Disk.writeText path text) fun _ _ => True := by
  intro machine free
  refine ⟨?_, trivial⟩
  change machine.store.Keeps own (change (·.writeBytes path text.toUTF8) machine).2.store
  unfold change
  split
  next written => exact Store.writeBytes_keeps written free
  next => exact .refl _

end Spares
end Machine

open Machine

variable {own : String → Prop} {pre : Store → Prop}

theorem Disk.settle_spares (path : String) (made : Except DiskFault Unit) :
    Spares own pre (Disk.settle path made) fun _ _ => True := by
  unfold Disk.settle
  split
  next => exact .pure fun _ _ => trivial
  next =>
    apply Spares.bind (.look (·.isDirectory path))
    intro there
    exact .pure fun _ _ => trivial

theorem Disk.makeEach_spares (paths : List String) : Spares own pre (Disk.makeEach paths) fun _ _ => True := by
  induction paths generalizing pre with
  | nil => exact .pure fun _ _ => trivial
  | cons path above ih =>
    unfold Disk.makeEach
    split
    · exact .pure fun _ _ => trivial
    · apply Spares.bind (.makeDirectory path)
      intro made
      split
      · apply Spares.bind ih
        intro result
        split
        · apply Spares.bind (.makeDirectory path)
          exact Disk.settle_spares path
        · exact .pure fun _ _ => trivial
      · exact Disk.settle_spares path _

/-- A file by its own name in a directory, which is written under a name to be kept only when developers edit it. -/
structure OutputFile.Careful (own : String → Prop) (file : OutputFile) : Prop where
  named : file.name ≠ ""
  plain : '/' ∉ file.name.toList
  editable : own file.name → file.editable = true
  copied : file.editable = true → ¬ own (Output.copyName file.name)

namespace Output

theorem copyName_named (name : String) : copyName name ≠ "" := by
  simp only [copyName]
  split <;> simp

theorem copyName_plain {name : String} (plain : '/' ∉ name.toList) : '/' ∉ (copyName name).toList := by
  have other : '/' ∉ "Copy.cc".toList ∧ '/' ∉ "Copy".toList := by decide
  simp only [copyName]
  split
  · rw [String.toList_append, List.mem_append, not_or, String.toList_ofList]
    exact ⟨fun slash => plain (List.mem_of_mem_take slash), other.1⟩
  · rw [String.toList_append, List.mem_append, not_or]
    exact ⟨plain, other.2⟩

/-- The path chosen for a file is free, or it does not end in a name to be kept. -/
theorem target_spares (directory : String) {file : OutputFile} (careful : file.Careful own) :
    Spares own pre (target directory false file) fun path store =>
      ∀ name, (Path.names path).getLast? = some name → own name → store.isPresent path = false := by
  have last (given name : String) (plain : '/' ∉ given.toList) (named : given ≠ "")
      (same : (Path.names (Path.join directory given)).getLast? = some name) : given = name := by
    rw [Path.names_join plain named, List.getLast?_concat] at same
    exact Option.some.inj same
  unfold target
  by_cases editable : file.editable = true
  · simp only [editable, Bool.not_true, Bool.or_false, Bool.false_eq_true, if_false]
    apply Spares.bind (.look (·.isPresent (Path.join directory file.name)))
    intro present
    cases present with
    | false => exact .pure fun store known _ _ _ => known.1.symm
    | true =>
      apply Spares.bind (.warn _)
      intro _
      apply Spares.pure
      intro store _ name same owned
      obtain rfl := last _ name (copyName_plain careful.plain) (copyName_named file.name) same
      exact absurd owned (careful.copied editable)
  · simp only [editable, Bool.not_false, Bool.true_or, if_true]
    apply Spares.pure
    intro store _ name same owned
    obtain rfl := last _ name careful.plain careful.named same
    exact absurd (careful.editable owned) editable

theorem writeEach_spares (directory : String) {files : List OutputFile} (careful : ∀ file ∈ files, file.Careful own) :
    Spares own pre (writeEach directory false files) fun _ _ => True := by
  induction files generalizing pre with
  | nil => exact .pure fun _ _ => trivial
  | cons file rest ih =>
    obtain ⟨first, others⟩ := List.forall_mem_cons.mp careful
    unfold writeEach
    apply Spares.bind (target_spares directory first)
    intro path
    apply Spares.bind (.writeText path file.contents)
    intro written
    cases written with
    | error fault => exact .pure fun _ _ => trivial
    | ok _ =>
      apply Spares.bind (ih others)
      intro _
      exact .pure fun _ _ => trivial

theorem write_spares (directory : String) {files : List OutputFile} (careful : ∀ file ∈ files, file.Careful own) :
    Spares own pre (write directory false files) fun _ _ => True := by
  unfold write
  apply Spares.bind (Disk.makeEach_spares (directory :: Path.above directory))
  intro made
  cases made with
  | error fault => exact .pure fun _ _ => trivial
  | ok _ => exact writeEach_spares directory careful

end Output

/-- What developers edit: how signals are handled, and what methods do. -/
def developerEndings : List String :=
  ["ClientHandlers.cc", "ServiceMethods.cc"]

def IsDeveloperFile (name : String) : Prop :=
  ∃ stem, ∃ ending ∈ developerEndings, name = stem ++ ending

theorem not_developerFile (stem tail : String)
    (other : ∀ ending ∈ developerEndings, tail.toList.length ≤ ending.toList.length ∧ ¬ tail.toList <:+ ending.toList) :
    ¬ IsDeveloperFile (stem ++ tail) := by
  rintro ⟨mine, ending, listed, same⟩
  obtain ⟨shorter, apart⟩ := other ending listed
  have chars := congrArg String.toList same
  rw [String.toList_append, String.toList_append] at chars
  apply apart
  apply List.suffix_of_suffix_length_le (List.suffix_append stem.toList tail.toList) _ shorter
  rw [chars]
  exact List.suffix_append _ _

theorem developerFile_named {name : String} (developer : IsDeveloperFile name) : name ≠ "." ∧ name ≠ ".." := by
  obtain ⟨stem, ending, listed, rfl⟩ := developer
  have longer : ∀ ending ∈ developerEndings, 2 < ending.toList.length := by decide
  have long : 2 < (stem ++ ending).toList.length := by
    rw [String.toList_append, List.length_append]
    exact Nat.lt_add_left _ (longer ending listed)
  constructor <;> intro same <;> rw [same] at long <;> exact absurd long (by decide)

/-- The copy of a developer's file is not called like one. -/
theorem not_developerFile_copy (stem : String) {ending : String} (listed : ending ∈ developerEndings) :
    ¬ IsDeveloperFile (Output.copyName (stem ++ ending)) := by
  have endings : ∀ ending ∈ developerEndings, Output.ending <:+ ending.toList := by decide
  have source : Output.ending.isSuffixOf (stem ++ ending).toList = true := by
    rw [List.isSuffixOf_iff_suffix, String.toList_append]
    exact (endings ending listed).trans (List.suffix_append _ _)
  simp only [Output.copyName, source, if_true]
  exact not_developerFile _ "Copy.cc" (by decide)

/-- What is written anew each time. -/
def generatedEndings : List String :=
  ["Types.h", "Client.h", "Client.cc", "Service.h", "Service.cc"]

theorem Plan.files_named (plan : Plan) (service : Bool) :
    ∀ file ∈ plan.files service, ∃ ending, file.name = plan.name ++ ending ∧
      ending ∈ if file.editable then developerEndings else generatedEndings := by
  have client : ∀ file ∈ plan.clientFiles, ∃ ending, file.name = plan.name ++ ending ∧
      ending ∈ if file.editable then developerEndings else generatedEndings := by
    simp [clientFiles, typesHeader, developerEndings, generatedEndings]
  have service : ∀ file ∈ plan.serviceFiles, ∃ ending, file.name = plan.name ++ ending ∧
      ending ∈ if file.editable then developerEndings else generatedEndings := by
    simp [serviceFiles, developerEndings, generatedEndings]
  intro file inside
  rcases List.mem_append.mp inside with inside | inside
  · exact client file inside
  · split at inside
    · exact service file inside
    · cases inside

/-- A file that is generated for an object whose name is no path. -/
def OutputFile.Generated (file : OutputFile) : Prop :=
  ∃ (object : ObjectNode) (options : StubOptions) (files : List OutputFile),
    '/' ∉ object.name.toList ∧ object.emit options = .ok files ∧ file ∈ files

theorem OutputFile.Generated.careful {file : OutputFile} (generated : file.Generated) :
    file.Careful IsDeveloperFile := by
  obtain ⟨object, options, files, plain, emitted, inside⟩ := generated
  obtain ⟨plan, planned, rfl⟩ := ObjectNode.emit_spec emitted
  obtain ⟨registry, -, made⟩ := ObjectNode.plan_spec planned
  have called : plan.name = object.name := congrArg ObjectNode.name (Plan.make_lists made).node
  obtain ⟨stub, member, rfl⟩ := List.mem_map.mp inside
  obtain ⟨ending, named, listed⟩ := plan.files_named options.service stub member
  rw [called] at named
  have proper : ∀ ending ∈ developerEndings ++ generatedEndings, '/' ∉ ending.toList ∧ ending ≠ "" := by decide
  have either : ending ∈ developerEndings ++ generatedEndings := by
    split at listed
    · exact List.mem_append_left _ listed
    · exact List.mem_append_right _ listed
  refine ⟨?_, ?_, ?_, ?_⟩
  · change stub.name ≠ ""
    simp [named, (proper ending either).2]
  · change '/' ∉ stub.name.toList
    rw [named, String.toList_append, List.mem_append, not_or]
    exact ⟨plain, (proper ending either).1⟩
  · intro developer
    change stub.editable = true
    by_contra generated
    rw [if_neg generated] at listed
    have other : ∀ ending ∈ generatedEndings, ∀ own ∈ developerEndings,
        ending.toList.length ≤ own.toList.length ∧ ¬ ending.toList <:+ own.toList := by decide
    apply not_developerFile object.name ending (other ending listed)
    rw [← named]
    exact developer
  · intro editable
    change stub.editable = true at editable
    rw [if_pos editable] at listed
    change ¬ IsDeveloperFile (Output.copyName stub.name)
    rw [named]
    exact not_developerFile_copy object.name listed

namespace Run

variable {read : String → Option Xml.Element}

theorem warnings_spare (messages : List LoadWarning) :
    Spares own pre (messages.forM fun warning => Disk.warn warning.message) fun _ => pre := by
  induction messages with
  | nil => exact .pure fun _ known => known
  | cons first rest ih =>
    apply Spares.bind (.warn first.message)
    intro _
    exact ih

theorem loadText_spares {options : LoadOptions} {loader : Loader} (sound : loader.Sound options) (file text : String) :
    Spares own pre (loadText read options file text loader) fun result _ =>
      ∀ after, result = .ok after → after.Sound options := by
  have later : ((Loader.documentBy read options text).run loader).2.Sound options := (Loader.take_sound sound text).1
  unfold loadText
  rcases ran : (Loader.documentBy read options text).run loader with ⟨error | _, after⟩ <;> rw [ran] at later
  · apply Spares.bind (warnings_spare _)
    intro _
    exact .pure fun _ _ _ impossible => by cases impossible
  · apply Spares.bind (warnings_spare _)
    intro _
    apply Spares.pure
    rintro _ _ _ ⟨⟩
    exact later

theorem loadFiles_spares {options : LoadOptions} (files : List String) {loader : Loader}
    (sound : loader.Sound options) :
    Spares own pre (loadFiles read options files loader) fun result _ =>
      ∀ after, result = .ok after → after.Sound options := by
  induction files generalizing loader pre with
  | nil =>
    apply Spares.pure
    rintro _ _ _ ⟨⟩
    exact sound
  | cons file rest ih =>
    unfold loadFiles
    apply Spares.bind (.look (·.readText file))
    intro opened
    cases opened with
    | error fault => exact .pure fun _ _ _ impossible => by cases impossible
    | ok text =>
      apply Spares.bind (loadText_spares sound file text)
      intro result
      cases result with
      | error error => exact .pure fun _ _ _ impossible => by cases impossible
      | ok after =>
        apply Spares.assuming
        intro known
        exact ih (known after rfl)

theorem loadObjects_spares (settings : Settings) :
    Spares own pre (loadObjects read settings) fun result _ =>
      ∀ objects, result = .ok objects → ∀ object ∈ objects, settings.loadOptions.Allows object.name := by
  unfold loadObjects
  apply Spares.bind (loadFiles_spares settings.files (.initial settings.loadOptions))
  intro result
  apply Spares.assuming
  intro known
  cases result with
  | error error => exact .pure fun _ _ _ impossible => by cases impossible
  | ok loader =>
    apply Spares.pure
    intro _ _ objects found
    split at found
    · cases found
    · cases found
      exact fun object member => ((known loader rfl).placed object member).1

theorem emitAll_generated {options : StubOptions} {objects : List ObjectNode} {files : List OutputFile}
    (plain : ∀ object ∈ objects, '/' ∉ object.name.toList) (emitted : emitAll options objects = .ok files) :
    ∀ file ∈ files, file.Generated := by
  obtain ⟨each, every, joined⟩ := bind_ok emitted
  cases joined
  intro file inside
  obtain ⟨own, member, inside⟩ := List.mem_flatten.mp inside
  obtain ⟨object, listed, emitted⟩ := exists_of_forall₂ (mapM_ok every) member
  refine ⟨object, options, own, plain object listed, ?_, inside⟩
  cases result : object.emit options with
  | error error =>
    rw [result] at emitted
    cases emitted
  | ok files =>
    rw [result] at emitted
    cases emitted
    rfl

/-- A run that may not overwrite keeps what developers edit, however it ends. -/
theorem generate_spares {settings : Settings} (careful : settings.overwrite = false)
    (plain : ∀ name ∈ settings.objectName, '/' ∉ name.toList) :
    Spares IsDeveloperFile pre (generate settings read) fun _ _ => True := by
  unfold generate
  apply Spares.bind (loadObjects_spares settings)
  intro result
  apply Spares.assuming
  intro known
  cases result with
  | error error => exact .pure fun _ _ => trivial
  | ok objects =>
    have names : ∀ object ∈ objects, '/' ∉ object.name.toList := by
      intro object member
      rcases known objects rfl object member with plain | given
      · exact plain
      · exact plain object.name given
    simp only [careful]
    split
    next => exact .pure fun _ _ => trivial
    next files emitted =>
      have own := emitAll_generated names emitted
      apply Spares.bind (Output.write_spares settings.outputPath fun file inside => (own file inside).careful)
      intro _
      exact .pure fun _ _ => trivial

end Run

/-- What is done with a machine: files are generated from descriptions, whatever these are read by, or generated files
are written. -/
inductive Invocation where
  | run (settings : Settings) (read : String → Option Xml.Element)
  | write (directory : String) (files : List OutputFile)

namespace Invocation

/-- The machine afterwards, whether the invocation failed or not. -/
def perform (machine : Machine) : Invocation → Machine
  | run settings read => ((Run.generate settings read : StateM Machine _).run machine).2
  | write directory files => ((Output.write directory false files : StateM Machine _).run machine).2

/-- Nothing may be overwritten, and no name of an object is a path. -/
def Plain : Invocation → Prop
  | run settings _ => settings.overwrite = false ∧ ∀ name ∈ settings.objectName, '/' ∉ name.toList
  | write _ files => ∀ file ∈ files, file.Generated

theorem perform_keeps {invocation : Invocation} (plain : invocation.Plain) (machine : Machine) :
    machine.store.Keeps IsDeveloperFile (invocation.perform machine).store := by
  cases invocation with
  | run settings read =>
    have spares : Spares IsDeveloperFile (fun _ => True) (Run.generate settings read) fun _ _ => True :=
      Run.generate_spares plain.1 plain.2
    exact (spares machine trivial).1
  | write directory files =>
    have spares : Spares IsDeveloperFile (fun _ => True) (Output.write directory false files) fun _ _ => True :=
      Output.write_spares directory fun file inside => (plain file inside).careful
    exact (spares machine trivial).1

end Invocation

/-- Between invocations, anything can be done to the files. -/
inductive Happening where
  | invoke (invocation : Invocation)
  | edit (change : Store → Store)

def Happening.perform (machine : Machine) : Happening → Machine
  | invoke invocation => invocation.perform machine
  | edit change => { machine with store := change machine.store }

/-- The machine after all that has happened. -/
def Machine.after (machine : Machine) (history : List Happening) : Machine :=
  history.foldl Happening.perform machine

section
variable {path name : String} {bytes : ByteArray}

theorem Invocation.perform_find {invocation : Invocation} (plain : invocation.Plain) {machine : Machine}
    (last : (Path.names path).getLast? = some name) (developer : IsDeveloperFile name)
    (found : machine.store.find path = .ok (.file bytes)) :
    (invocation.perform machine).store.find path = .ok (.file bytes) :=
  (perform_keeps plain machine).find last (developerFile_named developer) developer found

/-- The induction is on the history; each invocation keeps the file, and each change does. -/
theorem Machine.after_find {machine : Machine} {history : List Happening}
    (plain : ∀ invocation, .invoke invocation ∈ history → invocation.Plain)
    (last : (Path.names path).getLast? = some name) (developer : IsDeveloperFile name)
    (edits : ∀ change, .edit change ∈ history →
      ∀ store, store.find path = .ok (.file bytes) → (change store).find path = .ok (.file bytes))
    (found : machine.store.find path = .ok (.file bytes)) :
    (machine.after history).store.find path = .ok (.file bytes) := by
  induction history generalizing machine with
  | nil => exact found
  | cons first rest ih =>
    have plain' : ∀ invocation, .invoke invocation ∈ rest → invocation.Plain :=
      fun invocation later => plain invocation (List.mem_cons_of_mem _ later)
    have edits' : ∀ change, .edit change ∈ rest →
        ∀ store, store.find path = .ok (.file bytes) → (change store).find path = .ok (.file bytes) :=
      fun change later => edits change (List.mem_cons_of_mem _ later)
    apply ih plain' edits'
    cases first with
    | invoke invocation => exact Invocation.perform_find (plain invocation List.mem_cons_self) last developer found
    | edit change => exact edits change List.mem_cons_self machine.store found

end

/-- Whatever happened before, an invocation leaves each file that developers edit as it was. So does a history in which
nobody else changes that file. -/
theorem developer_files_survive (machine : Machine) (history : List Happening)
    (plain : ∀ invocation, .invoke invocation ∈ history → invocation.Plain) (path name : String)
    (last : (Path.names path).getLast? = some name) (developer : IsDeveloperFile name) (bytes : ByteArray) :
    (∀ before invocation later, history = before ++ .invoke invocation :: later →
      (machine.after before).store.find path = .ok (.file bytes) →
      (machine.after (before ++ [.invoke invocation])).store.find path = .ok (.file bytes)) ∧
    ((∀ change, .edit change ∈ history →
        ∀ store, store.find path = .ok (.file bytes) → (change store).find path = .ok (.file bytes)) →
      machine.store.find path = .ok (.file bytes) →
      (machine.after history).store.find path = .ok (.file bytes)) := by
  constructor
  · intro before invocation later split found
    have member : .invoke invocation ∈ history := by simp [split]
    rw [Machine.after, List.foldl_append]
    exact Invocation.perform_find (plain invocation member) last developer found
  · intro edits found
    exact Machine.after_find plain last developer edits found

/-- A directory with the description of a lamp, where the developer has begun with the handlers. -/
def workshop : Machine where
  store :=
    { entries :=
        [(["home"], .directory),
         (["home", "lamp.xml"], .file "<node name=\"Lamp\"><interface name=\"home.Light\"/></node>".toUTF8),
         (["home", "LampClientHandlers.cc"], .file "// begun".toUTF8)] }

def lampSettings (clientOnly : Bool) : Settings :=
  { clientOnly, files := ["lamp.xml"] }

/-- The client alone, and then the service with it. -/
def lampRuns : List Happening :=
  [.invoke (.run (lampSettings true) Xml.Element.ofDocument?),
   .invoke (.run (lampSettings false) Xml.Element.ofDocument?)]

theorem workshop_survives :
    ((Run.generate (lampSettings true) : StateM Machine _).run workshop).1 =
        .ok ["./LampTypes.h", "./LampClient.h", "./LampClient.cc", "./LampClientHandlersCopy.cc"] ∧
      (workshop.after lampRuns).store.find "LampClientHandlers.cc" = .ok (.file "// begun".toUTF8) := by
  have plain : ∀ invocation, .invoke invocation ∈ lampRuns → invocation.Plain := by
    intro invocation member
    rcases List.mem_cons.mp member with same | same
    · cases same
      exact ⟨rfl, nofun⟩
    · cases List.mem_singleton.mp same
      exact ⟨rfl, nofun⟩
  have last : (Path.names "LampClientHandlers.cc").getLast? = some "LampClientHandlers.cc" := by decide +kernel
  have developer : IsDeveloperFile "LampClientHandlers.cc" := ⟨"Lamp", "ClientHandlers.cc", by decide, rfl⟩
  refine ⟨by decide +kernel, ?_⟩
  exact (developer_files_survive workshop lampRuns plain _ _ last developer _).2 (by simp [lampRuns]) rfl

end BusStub
