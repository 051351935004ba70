import BusStub.Disk.Store
import BusStub.Proofs.Runs

/-! The tree of files, and what single changes leave as it was. Changes put one node at one location. Directories stay,
and so do files whose names are to be kept, as long as nothing is written over these. -/

namespace BusStub

namespace Path

theorem names_append (first second : String) : names (first ++ "/" ++ second) = names first ++ names second := by
  have chars : (first ++ "/" ++ second).toList = first.toList ++ '/' :: second.toList := by simp
  simp [names, Text.pieces, chars, Text.split_append]

theorem names_plain {name : String} (plain : '/' ∉ name.toList) (named : name ≠ "") : names name = [name] := by
  simp [names, Text.pieces, Text.split_plain plain, named]

theorem names_slash (path : String) : names (path ++ "/") = names path := by
  have appended := names_append path ""
  rw [String.append_empty] at appended
  rw [appended]
  exact List.append_nil _

theorem names_join {directory name : String} (plain : '/' ∉ name.toList) (named : name ≠ "") :
    names (join directory name) = names directory ++ [name] := by
  have relative : isAbsolute name = false := by
    simp only [isAbsolute, decide_eq_false_iff_not]
    intro slash
    exact plain (List.mem_of_mem_head? slash)
  unfold join
  rw [relative, if_neg Bool.false_ne_true]
  split
  next joined =>
    rcases Bool.or_eq_true_iff.mp joined with empty | slash
    · obtain rfl : directory = "" := by simpa using empty
      rw [String.empty_append, names_plain plain named]
      rfl
    · obtain ⟨above, same⟩ := List.getLast?_eq_some_iff.mp (of_decide_eq_true slash)
      obtain rfl : directory = String.ofList above ++ "/" := by
        apply String.toList_inj.mp
        simp [same]
      rw [names_append, names_plain plain named, names_slash]
  next => rw [names_append, names_plain plain named]

end Path

namespace Store

variable {store before middle after : Store} {location other : Location} {node : Node}

@[simp] theorem put_home (store : Store) (location : Location) (node : Node) :
    (store.put location node).home = store.home := by
  unfold put
  split <;> rfl

private theorem lookup_replaced (entries : List (Location × Node)) (location other : Location) (node : Node) :
    (entries.map fun entry => if entry.1 = location then (location, node) else entry).lookup other =
      if other = location then (entries.lookup other).map fun _ => node else entries.lookup other := by
  induction entries with
  | nil => simp
  | cons entry rest ih =>
    obtain ⟨key, old⟩ := entry
    by_cases found : other = key
    · subst found
      by_cases here : other = location <;> simp [here]
    · have differs : (other == key) = false := beq_eq_false_iff_ne.mpr found
      by_cases here : key = location
      · subst here
        simp [List.lookup_cons, differs, ih]
      · simp [List.lookup_cons, differs, here, ih]

theorem node?_put (store : Store) (other : Location) (node : Node) (below : location ≠ []) :
    (store.put location node).node? other = if other = location then some node else store.node? other := by
  by_cases root : other = []
  · subst root
    simp [node?, below.symm]
  · have inside : other.isEmpty = false := by simpa using root
    simp only [node?, inside, Bool.false_eq_true, if_false]
    unfold put
    split
    next present =>
      rw [lookup_replaced]
      split
      next same =>
        subst same
        obtain ⟨old, found⟩ := Option.isSome_iff_exists.mp present
        rw [found]
        rfl
      next => rfl
    next absent =>
      rw [List.lookup_append]
      split
      next same =>
        subst same
        have free : store.entries.lookup other = none := Option.not_isSome_iff_eq_none.mp absent
        simp [free]
      next different => simp [List.lookup_cons, beq_eq_false_iff_ne.mpr different]

/-- Directories are still there, and so are files with names to be kept, as they were. -/
structure Keeps (own : String → Prop) (before after : Store) : Prop where
  home : after.home = before.home
  directories : ∀ location, before.node? location = some .directory → after.node? location = some .directory
  files : ∀ above name bytes, own name → before.node? (above ++ [name]) = some (.file bytes) →
    after.node? (above ++ [name]) = some (.file bytes)

variable {own : String → Prop}

theorem Keeps.refl (store : Store) : store.Keeps own store :=
  ⟨rfl, fun _ found => found, fun _ _ _ _ found => found⟩

theorem Keeps.trans (first : before.Keeps own middle) (second : middle.Keeps own after) : before.Keeps own after where
  home := second.home.trans first.home
  directories location found := second.directories location (first.directories location found)
  files above name bytes kept found := second.files above name bytes kept (first.files above name bytes kept found)

/-- A node may be put where neither a directory nor a file to be kept is. -/
theorem put_keeps (below : location ≠ []) (noDirectory : store.node? location ≠ some .directory)
    (free : ∀ above name bytes, own name → location = above ++ [name] → store.node? location ≠ some (.file bytes)) :
    store.Keeps own (store.put location node) where
  home := put_home store location node
  directories other found := by
    rw [node?_put store other node below, if_neg, found]
    rintro rfl
    exact noDirectory found
  files above name bytes kept found := by
    rw [node?_put store _ node below, if_neg, found]
    intro same
    rw [same] at found
    exact free above name bytes kept same.symm found

theorem step_named {name : String} (named : name ≠ "." ∧ name ≠ "..") (stepped : store.step location name = .ok other) :
    other = location ++ [name] := by
  obtain ⟨_, -, moved⟩ := bind_ok stepped
  rw [if_neg named.1, if_neg named.2] at moved
  split at moved
  · cases moved
  · cases moved
    rfl

/-- A path with a last name leads to that name in some directory. -/
theorem locate_last {path name : String} (last : (Path.names path).getLast? = some name)
    (named : name ≠ "." ∧ name ≠ "..") (located : store.locate path = .ok location) :
    ∃ above, location = above ++ [name] := by
  obtain ⟨_, -, followed⟩ := bind_ok located
  obtain ⟨others, names⟩ := List.getLast?_eq_some_iff.mp last
  rw [names, List.foldlM_append] at followed
  obtain ⟨above, -, finished⟩ := bind_ok followed
  obtain ⟨last, stepped, done⟩ := bind_ok finished
  cases done
  exact ⟨above, step_named named stepped⟩

theorem find_file_iff {path : String} {bytes : ByteArray} :
    store.find path = .ok (.file bytes) ↔
      ∃ location, store.locate path = .ok location ∧ store.node? location = some (.file bytes) ∧
        Path.endsInSlash path = false := by
  constructor
  · intro found
    obtain ⟨location, located, found⟩ := bind_ok found
    refine ⟨location, located, ?_⟩
    split at found
    · cases found
    next there =>
      split at found
      · cases found
      next bare =>
        cases found
        exact ⟨there, by simpa using bare⟩
    · cases found
  · rintro ⟨location, located, there, bare⟩
    simp [find, located, there, bare, bind, Except.bind]

theorem Keeps.step {name : String} (kept : before.Keeps own after)
    (stepped : before.step location name = .ok other) : after.step location name = .ok other := by
  obtain ⟨_, allowed, moved⟩ := bind_ok stepped
  have still : after.checkDirectory location = .ok () := by
    unfold checkDirectory at allowed ⊢
    split at allowed
    · cases allowed
    · cases allowed
    next found => rw [kept.directories location found]
  rw [Store.step, still]
  exact moved

theorem Keeps.locate {path : String} (kept : before.Keeps own after)
    (located : before.locate path = .ok location) : after.locate path = .ok location := by
  obtain ⟨_, checked, followed⟩ := bind_ok located
  have origin : after.origin path = before.origin path := by simp [origin, kept.home]
  rw [Store.locate, checked, origin]
  exact foldlM_imitated (fun _ _ _ stepped => kept.step stepped) followed

/-- Paths that end in a name to be kept lead to the same files as before. -/
theorem Keeps.find {path name : String} {bytes : ByteArray} (kept : before.Keeps own after)
    (last : (Path.names path).getLast? = some name) (named : name ≠ "." ∧ name ≠ "..") (owned : own name)
    (found : before.find path = .ok (.file bytes)) : after.find path = .ok (.file bytes) := by
  obtain ⟨location, located, there, bare⟩ := find_file_iff.mp found
  obtain ⟨above, rfl⟩ := locate_last last named located
  exact find_file_iff.mpr ⟨_, kept.locate located, kept.files above name bytes owned there, bare⟩

theorem makeDirectory_keeps {path : String} (made : store.makeDirectory path = .ok after) :
    store.Keeps own after := by
  obtain ⟨location, -, made⟩ := bind_ok made
  split at made
  next => cases made
  next free =>
    cases made
    have absent : store.node? location = none := by
      rw [Bool.or_eq_true, not_or] at free
      exact Option.not_isSome_iff_eq_none.mp free.2
    apply put_keeps
    · rintro rfl
      cases absent
    · simp [absent]
    · simp [absent]

/-- A path that is no directory's has a last name, which is no dots. -/
theorem exists_last {path : String} (proper : endsInDots path = false) :
    ∃ name, (Path.names path).getLast? = some name ∧ name ≠ "." ∧ name ≠ ".." := by
  unfold endsInDots at proper
  split at proper
  next name last => exact ⟨name, last, by simpa using proper⟩
  next => cases proper

/-- A file that is written is put under the last name of its path, where no directory is. -/
theorem writeBytes_ok {path : String} {bytes : ByteArray} (written : store.writeBytes path bytes = .ok after) :
    ∃ above name, store.locate path = .ok (above ++ [name]) ∧ (Path.names path).getLast? = some name ∧
      (name ≠ "." ∧ name ≠ "..") ∧ Path.endsInSlash path = false ∧
      store.node? (above ++ [name]) ≠ some .directory ∧ after = store.put (above ++ [name]) (.file bytes) := by
  unfold writeBytes at written
  split at written
  next =>
    obtain ⟨_, -, impossible⟩ := bind_ok written
    cases impossible
  next proper =>
    rw [Bool.or_eq_true, not_or, Bool.not_eq_true, Bool.not_eq_true] at proper
    obtain ⟨location, located, written⟩ := bind_ok written
    obtain ⟨name, last, named⟩ := exists_last proper.1
    obtain ⟨above, rfl⟩ := locate_last last named located
    split at written
    next => cases written
    next noDirectory =>
      cases written
      refine ⟨above, name, located, last, named, proper.2, ?_, rfl⟩
      intro found
      exact noDirectory (by simp [isDirectoryAt, found])

/-- Writing keeps all files, if the file that it may replace is none of those to be kept. -/
theorem writeBytes_keeps {path : String} {bytes : ByteArray} (written : store.writeBytes path bytes = .ok after)
    (free : ∀ name, (Path.names path).getLast? = some name → own name → store.isPresent path = false) :
    store.Keeps own after := by
  obtain ⟨above, last, located, same, -, bare, noDirectory, rfl⟩ := writeBytes_ok written
  apply put_keeps
  · simp
  · exact noDirectory
  · intro others name old owned equal there
    obtain rfl : last = name := by simpa using (List.append_inj' equal rfl).2
    -- The path leads to the file, so it would not have been taken for free.
    have present := find_file_iff.mpr ⟨_, located, there, bare⟩
    have absent := free last same owned
    rw [isPresent, present] at absent
    cases absent

end Store
end BusStub
