import BusStub.Proofs.FileTree

/-! What is different after operations on several files. Nodes change only where files were written or directories were
made, so everything else is found as before, and so is a file under its name when files of other names are written. -/

namespace BusStub

/-- A path ends in a name that does not lead elsewhere. -/
structure Path.Last (path name : String) : Prop where
  same : (Path.names path).getLast? = some name
  proper : name ≠ "." ∧ name ≠ ".."

namespace Store

variable {store before middle after : Store} {location other : Location} {files directories : List String}

/-- The nodes that differ are files that `files` lead to, and directories that `directories` lead to, where nothing
had been. -/
structure Alters (files directories : List String) (before after : Store) : Prop where
  home : after.home = before.home
  kept : ∀ location, before.node? location = some .directory → after.node? location = some .directory
  nodes : ∀ location, after.node? location = before.node? location ∨
    (∃ path ∈ files, after.locate path = .ok location ∧ ∃ bytes, after.node? location = some (.file bytes)) ∨
    ∃ path ∈ directories, after.locate path = .ok location ∧ before.node? location = none ∧
      after.node? location = some .directory

namespace Alters

theorem refl (store : Store) : store.Alters files directories store :=
  ⟨rfl, fun _ found => found, fun _ => .inl rfl⟩

/-- No directory is lost, so every path leads to where it led. -/
theorem keeps (alters : before.Alters files directories after) : before.Keeps (fun _ => False) after :=
  ⟨alters.home, alters.kept, fun _ _ _ impossible => impossible.elim⟩

theorem trans (first : before.Alters files directories middle) (second : middle.Alters files directories after) :
    before.Alters files directories after where
  home := second.home.trans first.home
  kept location found := second.kept location (first.kept location found)
  nodes location := by
    rcases second.nodes location with same | ⟨path, listed, found⟩ | ⟨path, listed, located, free, made⟩
    · rw [same]
      rcases first.nodes location with unchanged | ⟨path, listed, located, written⟩ | ⟨path, listed, located, made⟩
      · exact .inl unchanged
      · exact .inr (.inl ⟨path, listed, second.keeps.locate located, written⟩)
      · exact .inr (.inr ⟨path, listed, second.keeps.locate located, made⟩)
    · exact .inr (.inl ⟨path, listed, found⟩)
    · refine .inr (.inr ⟨path, listed, located, ?_, made⟩)
      rcases first.nodes location with unchanged | ⟨_, -, -, _, written⟩ | ⟨_, -, -, none, -⟩
      · exact unchanged.symm.trans free
      · cases free.symm.trans written
      · exact none

theorem mono {files' directories' : List String} (alters : before.Alters files directories after)
    (written : files ⊆ files') (made : directories ⊆ directories') : before.Alters files' directories' after where
  home := alters.home
  kept := alters.kept
  nodes location := by
    rcases alters.nodes location with same | ⟨path, listed, found⟩ | ⟨path, listed, found⟩
    · exact .inl same
    · exact .inr (.inl ⟨path, written listed, found⟩)
    · exact .inr (.inr ⟨path, made listed, found⟩)

/-- Where no file was written, there is the same file as before, or none if there was none. -/
theorem file_iff {bytes : ByteArray} (alters : before.Alters files directories after)
    (elsewhere : ∀ path ∈ files, after.locate path ≠ .ok location) :
    after.node? location = some (.file bytes) ↔ before.node? location = some (.file bytes) := by
  rcases alters.nodes location with same | ⟨path, listed, located, -⟩ | ⟨_, -, -, free, made⟩
  · rw [same]
  · exact absurd located (elsewhere path listed)
  · simp [free, made]

/-- Writing files makes no directory. -/
theorem directory_iff (alters : before.Alters files [] after) :
    after.node? location = some .directory ↔ before.node? location = some .directory := by
  refine ⟨fun found => ?_, alters.kept location⟩
  rcases alters.nodes location with same | ⟨_, -, -, _, written⟩ | ⟨_, listed, -⟩
  · exact same.symm.trans found
  · cases written.symm.trans found
  · cases listed

theorem locate_iff {path : String} (alters : before.Alters files [] after) :
    after.locate path = .ok location ↔ before.locate path = .ok location := by
  have back : after.Keeps (fun _ => False) before :=
    ⟨alters.home.symm, fun _ => alters.directory_iff.mp, fun _ _ _ impossible => impossible.elim⟩
  exact ⟨back.locate, alters.keeps.locate⟩

/-- What a path to one name leads to does not depend on files of other names. -/
theorem found_eq {path name : String} (alters : before.Alters files [] after) (last : Path.Last path name)
    (others : ∀ written ∈ files, ∃ other, Path.Last written other ∧ other ≠ name) :
    (after.find path).toOption = (before.find path).toOption := by
  cases located : before.locate path with
  | ok location =>
    have located' := alters.locate_iff.mpr located
    have elsewhere : ∀ written ∈ files, after.locate written ≠ .ok location := by
      intro written listed there
      obtain ⟨above, rfl⟩ := locate_last last.same last.proper located
      obtain ⟨other, last', different⟩ := others written listed
      obtain ⟨above', same⟩ := locate_last last'.same last'.proper there
      exact different (List.cons.inj (List.append_inj' same rfl).2).1.symm
    have same : after.node? location = before.node? location := by
      rcases alters.nodes location with same | ⟨written, listed, there, -⟩ | ⟨_, listed, -⟩
      · exact same
      · exact absurd there (elsewhere written listed)
      · cases listed
    rw [find, find, located, located']
    simp only [same, bind, Except.bind]
  | error fault =>
    cases located' : after.locate path with
    | ok location =>
      rw [alters.locate_iff.mp located'] at located
      cases located
    | error fault' =>
      rw [find, find, located, located']
      rfl

theorem isPresent_eq {path name : String} (alters : before.Alters files [] after) (last : Path.Last path name)
    (others : ∀ written ∈ files, ∃ other, Path.Last written other ∧ other ≠ name) :
    after.isPresent path = before.isPresent path := by
  have present (store : Store) : store.isPresent path = (store.find path).toOption.isSome := by
    unfold isPresent
    cases store.find path <;> rfl
  rw [present, present, alters.found_eq last others]

theorem find_eq_ok {path name : String} {node : Node} (alters : before.Alters files [] after)
    (last : Path.Last path name) (others : ∀ written ∈ files, ∃ other, Path.Last written other ∧ other ≠ name)
    (found : before.find path = .ok node) : after.find path = .ok node := by
  have same := alters.found_eq last others
  rw [found] at same
  cases found' : after.find path with
  | error fault =>
    rw [found'] at same
    cases same
  | ok other =>
    rw [found'] at same
    cases same
    rfl

end Alters

theorem makeDirectory_alters {path : String} (made : store.makeDirectory path = .ok after) :
    store.Alters [] [path] after := by
  have keeps : store.Keeps (fun _ => False) after := makeDirectory_keeps made
  obtain ⟨location, located, made⟩ := bind_ok made
  split at made
  next => cases made
  next free =>
    cases made
    have absent : store.node? location = none := by
      rw [Bool.or_eq_true, not_or] at free
      exact Option.not_isSome_iff_eq_none.mp free.2
    have below : location ≠ [] := by
      rintro rfl
      cases absent
    refine ⟨keeps.home, keeps.directories, fun other => ?_⟩
    rw [node?_put store other .directory below]
    split
    next same =>
      subst same
      exact .inr (.inr ⟨path, List.mem_singleton_self path, keeps.locate located, absent, rfl⟩)
    next => exact .inl rfl

theorem writeBytes_alters {path : String} {bytes : ByteArray} (written : store.writeBytes path bytes = .ok after) :
    store.Alters [path] [] after ∧ after.find path = .ok (.file bytes) := by
  have keeps : store.Keeps (fun _ => False) after := writeBytes_keeps written fun _ _ impossible => impossible.elim
  obtain ⟨above, name, located, -, -, bare, -, rfl⟩ := writeBytes_ok written
  have below : above ++ [name] ≠ [] := by simp
  have there (other : Location) := node?_put store other (.file bytes) below
  refine ⟨⟨keeps.home, keeps.directories, fun other => ?_⟩, ?_⟩
  · rw [there]
    split
    next same =>
      subst same
      exact .inr (.inl ⟨path, List.mem_singleton_self path, keeps.locate located, bytes, rfl⟩)
    next => exact .inl rfl
  · exact find_file_iff.mpr ⟨_, keeps.locate located, by rw [there, if_pos rfl], bare⟩

end Store
end BusStub
