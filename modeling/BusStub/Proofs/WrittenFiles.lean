import Mathlib.Data.List.Flatten
import BusStub.Proofs.DeveloperFiles
import BusStub.Proofs.FileChanges

/-! Generated files do not get into each other's way. Every file has the names under which it may be written: its own,
and that of the copy if it is for developers to edit. All these names are an object's name with one of nine endings, and
no ending ends in another one, so two objects with different names never share one, as Chat and ChatClient might. What
is written first therefore neither decides where the others are written nor is lost to them. -/

namespace BusStub

variable {α β : Type}

namespace Machine

theorem bind_run (first : StateM Machine α) (rest : α → StateM Machine β) (machine : Machine) :
    (first >>= rest).run machine = (rest (first.run machine).1).run (first.run machine).2 :=
  rfl

theorem writeText_run (path text : String) (machine : Machine) :
    (Disk.writeText path text : StateM Machine _).run machine = match machine.store.writeBytes path text.toUTF8 with
      | .ok store => (.ok (), { machine with store })
      | .error fault => (.error fault, machine) :=
  rfl

/-- However the action ends, the files afterwards are related to those before. -/
def Relates (relation : Store → Store → Prop) (action : StateM Machine α) : Prop :=
  ∀ machine, relation machine.store (action.run machine).2.store

namespace Relates

variable {relation : Store → Store → Prop}

theorem pure [Std.Refl relation] (value : α) : Relates relation (Pure.pure value) :=
  fun machine => Std.Refl.refl machine.store

theorem bind [IsTrans Store relation] {first : StateM Machine α} {rest : α → StateM Machine β}
    (before : Relates relation first) (after : ∀ value, Relates relation (rest value)) :
    Relates relation (first >>= rest) :=
  fun machine => IsTrans.trans _ _ _ (before machine) (after _ _)

/-- Looking at files changes nothing. -/
theorem look [Std.Refl relation] (read : Store → α) :
    Relates relation fun machine => (read machine.store, machine) :=
  fun machine => Std.Refl.refl machine.store

theorem warn [Std.Refl relation] (text : String) : Relates relation (Disk.warn text) :=
  fun machine => Std.Refl.refl machine.store

end Relates
end Machine

open Machine

instance (files directories : List String) : Std.Refl (Store.Alters files directories) :=
  ⟨.refl⟩

instance (files directories : List String) : IsTrans Store (Store.Alters files directories) :=
  ⟨fun _ _ _ => .trans⟩

namespace Disk

variable {way : List String}

theorem makeDirectory_alters {path : String} (listed : path ∈ way) :
    Relates (Store.Alters [] way) (Disk.makeDirectory path) := by
  intro machine
  change machine.store.Alters [] way (change (·.makeDirectory path) machine).2.store
  unfold change
  split
  next made => exact (Store.makeDirectory_alters made).mono (List.Subset.refl _) (by simpa using listed)
  next => exact .refl _

theorem settle_alters (path : String) (made : Except DiskFault Unit) :
    Relates (Store.Alters [] way) (settle path made) := by
  have looked : Relates (Store.Alters [] way) (Disk.isDirectory path) := .look (·.isDirectory path)
  unfold settle
  split
  · exact .pure _
  · apply looked.bind
    intro there
    exact .pure _

/-- Whether a directory can be made or not, only directories on the way are new. -/
theorem makeEach_alters {paths : List String} (listed : paths ⊆ way) :
    Relates (Store.Alters [] way) (makeEach paths) := by
  induction paths with
  | nil => exact .pure _
  | cons path above ih =>
    obtain ⟨here, others⟩ := List.cons_subset.mp listed
    unfold makeEach
    split
    · exact .pure _
    · apply Relates.bind (makeDirectory_alters here)
      intro made
      split
      · apply Relates.bind (ih others)
        intro result
        split
        · apply Relates.bind (makeDirectory_alters here)
          exact settle_alters path
        · exact .pure _
      · exact settle_alters path _

end Disk

/-- A name that leads to something of its own in a directory. -/
structure FileName (name : String) : Prop where
  plain : '/' ∉ name.toList
  named : name ≠ ""
  proper : name ≠ "." ∧ name ≠ ".."

theorem FileName.last {name : String} (own : FileName name) (directory : String) :
    Path.Last (Path.join directory name) name :=
  ⟨by rw [Path.names_join own.plain own.named, List.getLast?_concat], own.proper⟩

/-- The names under which a file may be written: what developers edit may be there already. -/
def OutputFile.candidates (file : OutputFile) : List String :=
  if file.editable then [file.name, Output.copyName file.name] else [file.name]

theorem OutputFile.name_mem (file : OutputFile) : file.name ∈ file.candidates := by
  unfold candidates
  split <;> simp

namespace Output

variable {directory : String} {overwrite : Bool} {files : List OutputFile} {machine after : Machine}
  {paths : List String}

/-- The name that is chosen for a file, with the files that are there. -/
def chosen (store : Store) (directory : String) (overwrite : Bool) (file : OutputFile) : String :=
  if file.editable && !overwrite && store.isPresent (Path.join directory file.name) then copyName file.name
  else file.name

theorem chosen_mem (store : Store) (directory : String) (overwrite : Bool) (file : OutputFile) :
    chosen store directory overwrite file ∈ file.candidates := by
  unfold chosen OutputFile.candidates
  cases file.editable with
  | false => exact List.mem_singleton_self _
  | true =>
    rw [if_pos (show true = true from rfl)]
    split
    · exact List.mem_cons_of_mem _ (List.mem_singleton_self _)
    · exact List.mem_cons_self

theorem target_run (directory : String) (overwrite : Bool) (file : OutputFile) (machine : Machine) :
    ((target directory overwrite file : StateM Machine _).run machine).1 =
        Path.join directory (chosen machine.store directory overwrite file) ∧
      ((target directory overwrite file : StateM Machine _).run machine).2.store = machine.store := by
  have looked : (Disk.isPresent (Path.join directory file.name) : StateM Machine Bool).run machine =
      (machine.store.isPresent (Path.join directory file.name), machine) := rfl
  unfold target chosen
  cases file.editable with
  | false => exact ⟨rfl, rfl⟩
  | true =>
    cases overwrite with
    | true => exact ⟨rfl, rfl⟩
    | false =>
      simp only [Bool.not_true, Bool.or_false, Bool.false_eq_true, if_false, Bool.not_false, Bool.true_and]
      rw [bind_run, looked]
      cases machine.store.isPresent (Path.join directory file.name) with
      | false => exact ⟨rfl, rfl⟩
      | true => exact ⟨rfl, rfl⟩

/-- Where files are to be written, with the files that are there. -/
def targets (machine : Machine) (directory : String) (overwrite : Bool) (files : List OutputFile) : List String :=
  files.map fun file => ((target directory overwrite file : StateM Machine _).run machine).1

theorem targets_eq (machine : Machine) (directory : String) (overwrite : Bool) (files : List OutputFile) :
    targets machine directory overwrite files =
      files.map fun file => Path.join directory (chosen machine.store directory overwrite file) :=
  List.map_congr_left fun file _ => (target_run directory overwrite file machine).1

/-- When all files of a list are written, the first is, and the others are after that. -/
theorem writeEach_cons_ok {file : OutputFile} {rest : List OutputFile}
    (run : (writeEach directory overwrite (file :: rest) : StateM Machine _).run machine = (.ok paths, after)) :
    ∃ (middle : Machine) (others : List String),
      machine.store.writeBytes (Path.join directory (chosen machine.store directory overwrite file))
        file.contents.toUTF8 = .ok middle.store ∧
      (writeEach directory overwrite rest : StateM Machine _).run middle = (.ok others, after) ∧
      paths = Path.join directory (chosen machine.store directory overwrite file) :: others := by
  obtain ⟨target, store⟩ := target_run directory overwrite file machine
  unfold writeEach at run
  rw [bind_run, bind_run] at run
  generalize (Output.target directory overwrite file : StateM Machine _).run machine = started at run target store
  obtain ⟨path, started⟩ := started
  simp only at run target store
  rw [writeText_run] at run
  cases written : started.store.writeBytes path file.contents.toUTF8 with
  | error fault =>
    rw [written] at run
    cases run
  | ok following =>
    rw [written] at run
    simp only at run
    rw [bind_run] at run
    generalize continued :
      (writeEach directory overwrite rest : StateM Machine _).run { started with store := following } = finished at run
    obtain ⟨result, last⟩ := finished
    cases result with
    | error fault => cases run
    | ok others =>
      cases run
      refine ⟨{ started with store := following }, others, ?_, continued, by rw [target]⟩
      rw [← target, ← store, written]

/-- Writing changes the files that it returns, and no others. -/
theorem writeEach_alters
    (run : (writeEach directory overwrite files : StateM Machine _).run machine = (.ok paths, after)) :
    machine.store.Alters paths [] after.store := by
  induction files generalizing machine paths with
  | nil =>
    cases run
    exact .refl _
  | cons file rest ih =>
    obtain ⟨middle, others, written, continued, rfl⟩ := writeEach_cons_ok run
    have listed := List.cons_subset_cons (Path.join directory (chosen machine.store directory overwrite file))
      (List.nil_subset others)
    have first := (Store.writeBytes_alters written).1.mono listed (List.Subset.refl _)
    exact first.trans ((ih continued).mono (List.subset_cons_self _ _) (List.Subset.refl _))

/-- Each name under which a file may be written is a name of its own, and of no other file. -/
structure Separate (files : List OutputFile) : Prop where
  names : ∀ file ∈ files, ∀ name ∈ file.candidates, FileName name
  different : (files.flatMap OutputFile.candidates).Nodup

theorem Separate.cons {file : OutputFile} {rest : List OutputFile} (separate : Separate (file :: rest)) :
    (∀ name ∈ file.candidates, FileName name) ∧ Separate rest ∧
      ∀ name ∈ file.candidates, ∀ other ∈ rest, ∀ name' ∈ other.candidates, name' ≠ name := by
  obtain ⟨own, others⟩ := List.forall_mem_cons.mp separate.names
  have different := separate.different
  rw [List.flatMap_cons, List.nodup_append] at different
  refine ⟨own, ⟨others, different.2.1⟩, ?_⟩
  intro name inside other listed name' inside' same
  exact different.2.2 name inside name' (List.mem_flatMap.mpr ⟨other, listed, inside'⟩) same.symm

theorem Separate.targets_nodup (separate : Separate files) (store : Store) :
    (files.map fun file => Path.join directory (chosen store directory overwrite file)).Nodup := by
  refine List.pairwise_map.mpr ((List.nodup_flatMap.mp separate.different).2.imp_of_mem ?_)
  intro file other inside inside' disjoint same
  have taken := chosen_mem store directory overwrite file
  have taken' := chosen_mem store directory overwrite other
  have last := (separate.names file inside _ taken).last directory
  have last' := (separate.names other inside' _ taken').last directory
  rw [same] at last
  rw [Option.some.inj (last.same.symm.trans last'.same)] at taken
  exact disjoint taken taken'

/-- All files of a separate list are written under the names that were chosen before the first was, and keep what was
written. The induction is on the files; each is found as it was after the others have been written. -/
theorem writeEach_written (separate : Separate files)
    (run : (writeEach directory overwrite files : StateM Machine _).run machine = (.ok paths, after)) :
    paths = files.map (fun file => Path.join directory (chosen machine.store directory overwrite file)) ∧
      List.Forall₂ (fun path file => after.store.find path = .ok (.file file.contents.toUTF8)) paths files := by
  induction files generalizing machine paths with
  | nil =>
    cases run
    exact ⟨rfl, .nil⟩
  | cons file rest ih =>
    obtain ⟨middle, others, written, continued, rfl⟩ := writeEach_cons_ok run
    obtain ⟨alters, found⟩ := Store.writeBytes_alters written
    obtain ⟨own, later, different⟩ := separate.cons
    obtain ⟨rfl, contents⟩ := ih later continued
    have taken := chosen_mem machine.store directory overwrite file
    have last := (own _ taken).last directory
    have same : ∀ other ∈ rest,
        chosen middle.store directory overwrite other = chosen machine.store directory overwrite other := by
      intro other listed
      have present := alters.isPresent_eq ((later.names other listed _ other.name_mem).last directory)
        (List.forall_mem_singleton.mpr ⟨_, last, (different _ taken other listed _ other.name_mem).symm⟩)
      simp only [chosen, present]
    refine ⟨?_, .cons ?_ contents⟩
    · rw [List.map_cons]
      exact congrArg _ (List.map_congr_left fun other listed => congrArg _ (same other listed))
    · refine (writeEach_alters continued).find_eq_ok last (List.forall_mem_map.mpr fun other listed => ?_) found
      have taken' := chosen_mem middle.store directory overwrite other
      exact ⟨_, (later.names other listed _ taken').last directory, different _ taken other listed _ taken'⟩

/-- Writing all files: the directory is made, and then each file is put where it is to be. -/
theorem write_ok (run : (write directory overwrite files : StateM Machine _).run machine = (.ok paths, after)) :
    ∃ ready : Machine, (Disk.makeAll directory : StateM Machine _).run machine = (.ok (), ready) ∧
      (writeEach directory overwrite files : StateM Machine _).run ready = (.ok paths, after) ∧
      machine.store.Alters paths (directory :: Path.above directory) after.store := by
  unfold write at run
  rw [bind_run] at run
  have way := Disk.makeEach_alters (List.Subset.refl (directory :: Path.above directory)) machine
  generalize made : (Disk.makeAll directory : StateM Machine _).run machine = ready at run
  rw [← Disk.makeAll, made] at way
  obtain ⟨result, ready⟩ := ready
  cases result with
  | error fault => cases run
  | ok _ =>
    refine ⟨ready, rfl, run, ?_⟩
    have first := way.mono (List.nil_subset paths) (List.Subset.refl _)
    exact first.trans ((writeEach_alters run).mono (List.Subset.refl _) (List.nil_subset _))

theorem copyName_source (stem : String) : copyName (stem ++ ".cc") = stem ++ "Copy.cc" := by
  have chars : (stem ++ ".cc").toList = stem.toList ++ ending := by
    rw [String.toList_append]
    rfl
  have source : ending.isSuffixOf (stem.toList ++ ending) = true := by
    rw [List.isSuffixOf_iff_suffix]
    exact List.suffix_append _ _
  simp only [copyName, chars, source, if_true, List.length_append, Nat.add_sub_cancel, List.take_left,
    String.ofList_toList]

/-- Everything that a file may be called after its object. -/
def fileEndings (service : Bool) : List String :=
  ["Types.h", "Client.h", "Client.cc", "ClientHandlers.cc", "ClientHandlersCopy.cc"] ++
  if service then ["Service.h", "Service.cc", "ServiceMethods.cc", "ServiceMethodsCopy.cc"] else []

theorem files_candidates (plan : Plan) (service : Bool) :
    ((plan.files service).map StubFile.print).flatMap OutputFile.candidates =
      (fileEndings service).map (plan.name ++ ·) := by
  have handlers : copyName (plan.name ++ "ClientHandlers.cc") = plan.name ++ "ClientHandlersCopy.cc" := by
    have copied := copyName_source (plan.name ++ "ClientHandlers")
    rwa [String.append_assoc, String.append_assoc] at copied
  have methods : copyName (plan.name ++ "ServiceMethods.cc") = plan.name ++ "ServiceMethodsCopy.cc" := by
    have copied := copyName_source (plan.name ++ "ServiceMethods")
    rwa [String.append_assoc, String.append_assoc] at copied
  cases service <;>
    simp [Plan.files, Plan.clientFiles, Plan.serviceFiles, Plan.typesHeader, StubFile.print, OutputFile.candidates,
      fileEndings, handlers, methods]

/-- What is made by adding one of several endings to a name tells the name and the ending, if no ending ends in another
one. -/
theorem flatMap_endings_nodup {names endings : List String} (distinct : names.Nodup) (different : endings.Nodup)
    (free : ∀ one ∈ endings, ∀ other ∈ endings, one.toList <:+ other.toList → one = other) :
    (names.flatMap fun name => endings.map (name ++ ·)).Nodup := by
  rw [List.nodup_flatMap]
  constructor
  · intro name _
    exact different.map fun one other same => by simpa using same
  · refine distinct.imp ?_
    intro name name' apart made inside inside'
    obtain ⟨one, listed, rfl⟩ := List.mem_map.mp inside
    obtain ⟨other, listed', same⟩ := List.mem_map.mp inside'
    have chars := congrArg String.toList same
    simp only [String.toList_append] at chars
    have equal : other = one := by
      rcases List.suffix_or_suffix_of_suffix (List.suffix_append name'.toList other.toList)
        (chars ▸ List.suffix_append name.toList one.toList) with shorter | shorter
      · exact free other listed' one listed shorter
      · exact (free one listed other listed' shorter).symm
    subst equal
    exact apart (by simpa using same.symm)

end Output

namespace Run

variable {objects : List ObjectNode} {options : StubOptions} {files : List OutputFile}

/-- All files together may be called after their objects, in the order of these. -/
theorem emitAll_candidates (emitted : emitAll options objects = .ok files) :
    files.flatMap OutputFile.candidates =
      (objects.map ObjectNode.name).flatMap fun name => (Output.fileEndings options.service).map (name ++ ·) := by
  obtain ⟨each, every, joined⟩ := bind_ok emitted
  cases joined
  have own (object : ObjectNode) (printed : List OutputFile)
      (emitted : (object.emit options).mapError (RunError.generate object.name) = .ok printed) :
      (Output.fileEndings options.service).map (object.name ++ ·) = printed.flatMap OutputFile.candidates := by
    cases result : object.emit options with
    | error error =>
      rw [result] at emitted
      cases emitted
    | ok files =>
      rw [result] at emitted
      cases emitted
      obtain ⟨plan, planned, rfl⟩ := ObjectNode.emit_spec result
      obtain ⟨registry, -, made⟩ := ObjectNode.plan_spec planned
      have called : plan.name = object.name := congrArg ObjectNode.name (Plan.make_lists made).node
      rw [Output.files_candidates, called]
  have related := map_eq_of_forall₂ (mapM_ok every) own
  have parts : each.flatten.flatMap OutputFile.candidates = (each.map (·.flatMap OutputFile.candidates)).flatten := by
    rw [← List.flatMap_id, List.flatMap_assoc]
    rfl
  rw [parts, ← related, List.flatMap_map, List.flatMap_def]

/-- Files of objects with different names never get into each other's way. -/
theorem emitAll_separate (distinct : (objects.map ObjectNode.name).Nodup)
    (plain : ∀ object ∈ objects, '/' ∉ object.name.toList) (emitted : emitAll options objects = .ok files) :
    Output.Separate files := by
  have free : ∀ service, (Output.fileEndings service).Nodup ∧
      (∀ one ∈ Output.fileEndings service, ∀ other ∈ Output.fileEndings service,
        one.toList <:+ other.toList → one = other) ∧
      ∀ one ∈ Output.fileEndings service, '/' ∉ one.toList ∧ 2 < one.toList.length := by
    decide +kernel
  obtain ⟨different, suffixes, proper⟩ := free options.service
  have candidates := emitAll_candidates emitted
  constructor
  · intro file listed name taken
    have inside : name ∈ files.flatMap OutputFile.candidates := List.mem_flatMap.mpr ⟨file, listed, taken⟩
    rw [candidates] at inside
    obtain ⟨stem, called, inside⟩ := List.mem_flatMap.mp inside
    obtain ⟨object, member, rfl⟩ := List.mem_map.mp called
    obtain ⟨one, known, rfl⟩ := List.mem_map.mp inside
    obtain ⟨flat, long⟩ := proper one known
    have longer : 2 < (object.name ++ one).toList.length := by
      rw [String.toList_append, List.length_append]
      exact Nat.lt_add_left _ long
    refine ⟨?_, ?_, ?_, ?_⟩
    · rw [String.toList_append, List.mem_append, not_or]
      exact ⟨plain object member, flat⟩
    all_goals
      intro same
      rw [same] at longer
      exact absurd longer (by decide)
  · rw [candidates]
    exact Output.flatMap_endings_nodup distinct different suffixes

end Run

/-- Whatever is there before, files of objects with different names are given different names and are written to
different places; and when they have been written, each returned path leads to what was generated for it, while all
other files are what they were. -/
theorem outputs_separate {objects : List ObjectNode} {options : StubOptions} {files : List OutputFile}
    (distinct : (objects.map ObjectNode.name).Nodup) (plain : ∀ object ∈ objects, '/' ∉ object.name.toList)
    (emitted : Run.emitAll options objects = .ok files) (directory : String) (overwrite : Bool) :
    (files.map OutputFile.name).Nodup ∧
    (∀ machine, (Output.targets machine directory overwrite files).Nodup) ∧
    ∀ (machine after : Machine) (paths : List String),
      (Output.write directory overwrite files : StateM Machine _).run machine = (.ok paths, after) →
      (∃ ready : Machine, (Disk.makeAll directory : StateM Machine _).run machine = (.ok (), ready) ∧
        paths = Output.targets ready directory overwrite files) ∧
      List.Forall₂ (fun path file => after.store.find path = .ok (.file file.contents.toUTF8)) paths files ∧
      ∀ location bytes, (∀ path ∈ paths, after.store.locate path ≠ .ok location) →
        (after.store.node? location = some (.file bytes) ↔ machine.store.node? location = some (.file bytes)) := by
  have separate := Run.emitAll_separate distinct plain emitted
  refine ⟨?_, ?_, ?_⟩
  · rw [List.map_eq_flatMap]
    refine separate.different.sublist (List.Sublist.flatMap_right _ fun file _ => ?_)
    exact List.singleton_sublist.mpr file.name_mem
  · intro machine
    rw [Output.targets_eq]
    exact separate.targets_nodup machine.store
  · intro machine after paths run
    obtain ⟨ready, made, written, alters⟩ := Output.write_ok run
    obtain ⟨chosen, contents⟩ := Output.writeEach_written separate written
    refine ⟨⟨ready, made, chosen.trans (Output.targets_eq ..).symm⟩, contents, ?_⟩
    intro location bytes elsewhere
    exact alters.file_iff elsewhere

/-- Two objects, one of which is called like the other one's client. -/
def lamps : List ObjectNode :=
  ["Lamp", "LampClient"].map fun name => { name, path := "/" ++ name, interface := .merged [{ name := "home.Light" }] }

theorem lamps_separate : ∃ files after paths,
    Run.emitAll { service := false } lamps = .ok files ∧
    (Output.write "." false files : StateM Machine _).run workshop = (.ok paths, after) ∧
    paths = ["./LampTypes.h", "./LampClient.h", "./LampClient.cc", "./LampClientHandlersCopy.cc",
      "./LampClientTypes.h", "./LampClientClient.h", "./LampClientClient.cc", "./LampClientClientHandlers.cc"] ∧
    List.Forall₂ (fun path file => after.store.find path = .ok (.file file.contents.toUTF8)) paths files := by
  have distinct : (lamps.map ObjectNode.name).Nodup := by decide
  have plain : ∀ object ∈ lamps, '/' ∉ object.name.toList := by decide +kernel
  have listed : (Run.emitAll { service := false } lamps).map
      (fun files => ((Output.write "." false files : StateM Machine _).run workshop).1) =
        .ok (.ok ["./LampTypes.h", "./LampClient.h", "./LampClient.cc", "./LampClientHandlersCopy.cc",
          "./LampClientTypes.h", "./LampClientClient.h", "./LampClientClient.cc",
          "./LampClientClientHandlers.cc"]) := by
    decide +kernel
  cases emitted : Run.emitAll { service := false } lamps with
  | error error =>
    rw [emitted] at listed
    cases listed
  | ok files =>
    rw [emitted] at listed
    have result : ((Output.write "." false files : StateM Machine _).run workshop).1 = _ := Except.ok.inj listed
    generalize run : (Output.write "." false files : StateM Machine _).run workshop = outcome at result
    obtain ⟨_, after⟩ := outcome
    subst result
    exact ⟨files, after, _, rfl, run, rfl, ((outputs_separate distinct plain emitted "." false).2.2 _ _ _ run).2.1⟩

end BusStub
