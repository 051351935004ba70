import BusStub.Proofs.SignatureReading

/-! Which texts are signatures. Reading a text gives a type exactly when the text is what the type is written
as, no struct in it is empty and its containers are nested at most 32 deep; for a deeper type reading fails for
its depth. Over the characters of a type the machine does the same on every stack of containers that wait for
one: it hands the type on, or finds that the stack has become too high. -/

namespace BusStub.BusType

mutual
/-- No struct in the type is empty. -/
def WellFormed : BusType → Prop
  | .basic _ | .variant => True
  | .struct members => members ≠ [] ∧ AllWellFormed members
  | .array element => element.WellFormed
  | .dict _ value => value.WellFormed
termination_by structural type => type

def AllWellFormed : List BusType → Prop
  | [] => True
  | type :: rest => type.WellFormed ∧ AllWellFormed rest
termination_by structural types => types
end

theorem allWellFormed_iff {types : List BusType} : AllWellFormed types ↔ ∀ type ∈ types, type.WellFormed := by
  induction types with
  | nil => simp [AllWellFormed]
  | cons type rest ih => simp [AllWellFormed, ih]

def Frame.WellFormed : Frame → Prop
  | .struct members => AllWellFormed members
  | .close _ type => type.WellFormed
  | .array | .key | .value _ => True

def State.WellFormed : State → Prop
  | .reading frames => ∀ frame ∈ frames, frame.WellFormed
  | .done type => type.WellFormed

section
variable {frames : List Frame} {next : State} {c : Char}

theorem fill_wellFormed {type : BusType} (whole : type.WellFormed) (sound : ∀ frame ∈ frames, frame.WellFormed) :
    (fill type frames).WellFormed := by
  induction frames generalizing type with
  | nil => exact whole
  | cons frame rest ih =>
    obtain ⟨first, others⟩ := List.forall_mem_cons.mp sound
    cases frame with
    | struct members => exact List.forall_mem_cons.mpr ⟨⟨whole, first⟩, others⟩
    | array => exact ih whole others
    | value key => exact List.forall_mem_cons.mpr ⟨whole, others⟩
    | key | close => exact sound

theorem start_wellFormed (sound : ∀ frame ∈ frames, frame.WellFormed) (started : start c frames = .ok next) :
    next.WellFormed := by
  have entered (frame : Frame) (fresh : frame.WellFormed) (entered : enter frame frames = .ok next) :
      next.WellFormed := by
    unfold enter at entered
    split at entered <;> cases entered
    exact List.forall_mem_cons.mpr ⟨fresh, sound⟩
  unfold start at started
  split at started
  · exact entered (.struct []) trivial started
  · exact entered .array trivial started
  · cases started
    exact fill_wellFormed trivial sound
  · cases started
  · cases started
  · cases started
  · split at started <;> cases started
    exact fill_wellFormed trivial sound

theorem step_wellFormed {state : State} (whole : state.WellFormed) (stepped : step state c = .ok next) :
    next.WellFormed := by
  unfold step at stepped
  split at stepped
  next => cases stepped
  next => exact start_wellFormed whole stepped
  next members rest =>
    obtain ⟨read, others⟩ := List.forall_mem_cons.mp whole
    split at stepped
    · split at stepped
      · cases stepped
      next some =>
        cases stepped
        have every : AllWellFormed members.reverse := by
          simpa [allWellFormed_iff, Frame.WellFormed] using read
        exact fill_wellFormed ⟨by simpa using some, every⟩ others
    · exact start_wellFormed whole stepped
  next rest =>
    split at stepped
    · cases stepped
      exact List.forall_mem_cons.mpr ⟨trivial, (List.forall_mem_cons.mp whole).2⟩
    · exact start_wellFormed whole stepped
  next rest =>
    split at stepped <;> cases stepped
    exact List.forall_mem_cons.mpr ⟨trivial, (List.forall_mem_cons.mp whole).2⟩
  next key rest =>
    split at stepped
    · cases stepped
    · exact start_wellFormed whole stepped
  next key value rest =>
    obtain ⟨read, others⟩ := List.forall_mem_cons.mp whole
    split at stepped <;> cases stepped
    exact fill_wellFormed read others

end

theorem wellFormed_of_parseChars {cs : List Char} {type : BusType} (parsed : parseChars cs = .ok type) :
    type.WellFormed := by
  obtain ⟨last, run, finished⟩ := bind_ok parsed
  have whole : last.WellFormed := by
    refine foldlM_ok (fun _ state => state.WellFormed) run (by simp [State.WellFormed]) ?_
    intro _ c state next whole stepped
    exact step_wellFormed whole stepped
  cases last with
  | done found =>
    cases finished
    exact whole
  | reading frames => cases frames <;> cases finished

/-- What comes of reading on, `depth` containers deep, above a stack of the given height. -/
def bounded (height depth : Nat) (next : State) : Except SignatureFault State :=
  if height + depth ≤ maxDepth then .ok next else .error .tooDeep

theorem bounded_of_le {height : Nat} (small : height ≤ maxDepth) (next : State) : bounded height 0 next = .ok next :=
  if_pos small

theorem bounded_bind {height first second : Nat} {mid next : State} {rest : State → Except SignatureFault State}
    (reads : rest mid = bounded height second next) :
    bounded height first mid >>= rest = bounded height (max first second) next := by
  by_cases shallow : height + first ≤ maxDepth
  · rw [bounded, if_pos shallow]
    change rest mid = _
    rw [reads]
    simp only [bounded]
    congr 1
    simp only [eq_iff_iff]
    omega
  · rw [bounded, bounded, if_neg shallow, if_neg (by omega)]
    rfl

theorem bounded_close {height depth : Nat} {mid next : State} {rest : State → Except SignatureFault State}
    (small : height ≤ maxDepth) (reads : rest mid = .ok next) :
    bounded height depth mid >>= rest = bounded height depth next := by
  have closed : _ = bounded height (max depth 0) next := bounded_bind (reads.trans (bounded_of_le small next).symm)
  rwa [Nat.max_zero] at closed

/-- A container is read inside, or it is one too many itself. -/
theorem enter_bind {frame : Frame} {frames : List Frame} {depth : Nat} {next : State}
    {inside : State → Except SignatureFault State}
    (reads : frames.length < maxDepth → inside (.reading (frame :: frames)) = bounded (frames.length + 1) depth next) :
    enter frame frames >>= inside = bounded frames.length (depth + 1) next := by
  unfold enter
  split
  next room =>
    change inside _ = _
    rw [reads room, bounded, bounded, Nat.add_right_comm, Nat.add_assoc]
  next full =>
    rw [bounded, if_neg (by omega)]
    rfl

theorem step_start {frames : List Frame} {c : Char} (waiting : ∀ frame ∈ frames, frame.isOpen)
    (begins : c ≠ ')' ∧ c ≠ '{' ∧ c ≠ '}') : step (.reading frames) c = start c frames := by
  cases frames with
  | nil => rfl
  | cons frame rest =>
    have first := (List.forall_mem_cons.mp waiting).1
    cases frame with
    | struct members => exact if_neg begins.1
    | array => exact if_neg begins.2.1
    | value key => exact if_neg begins.2.2
    | key | close => cases first

theorem start_code (kind : Scalar) (frames : List Frame) :
    start kind.code frames = .ok (fill (.basic kind) frames) := by
  cases kind <;> rfl

theorem step_key (kind : Scalar) (frames : List Frame) :
    step (.reading (.key :: frames)) kind.code = .ok (.reading (.value kind :: frames)) := by
  simp [step]

theorem step_close_struct {members : List BusType} (some : members ≠ []) (frames : List Frame) :
    step (.reading (.struct members.reverse :: frames)) ')' = .ok (fill (.struct members) frames) := by
  simp [step, some]

mutual
/-- The induction is on the type; the stack is arbitrary, since members and elements are read on a higher one. -/
theorem read_chars : (type : BusType) → type.WellFormed → (frames : List Frame) →
    (∀ frame ∈ frames, frame.isOpen) → frames.length ≤ maxDepth →
    type.chars.foldlM step (.reading frames) = bounded frames.length type.depth (fill type frames)
  | .basic kind, _, frames, waiting, small => by
    have begins := step_start (c := kind.code) waiting ⟨kind.code_ne rfl, kind.code_ne rfl, kind.code_ne rfl⟩
    rw [chars, List.foldlM_cons, begins, start_code, depth, bounded_of_le small]
    rfl
  | .variant, _, frames, waiting, small => by
    rw [chars, List.foldlM_cons, step_start waiting (by decide), depth, bounded_of_le small]
    rfl
  | .array element, whole, frames, waiting, small => by
    rw [chars, List.foldlM_cons, step_start waiting (by decide), depth]
    refine enter_bind fun room => ?_
    exact read_chars element whole (.array :: frames) (List.forall_mem_cons.mpr ⟨rfl, waiting⟩) room
  | .struct members, whole, frames, waiting, small => by
    rw [chars, List.cons_append, List.foldlM_cons, step_start waiting (by decide), depth]
    refine enter_bind fun room => ?_
    rw [List.foldlM_append, read_charsAll members whole.2 [] frames waiting room]
    refine bounded_close room ?_
    rw [List.append_nil, List.foldlM_cons, step_close_struct whole.1]
    rfl
  | .dict key value, whole, frames, waiting, small => by
    simp only [chars, List.cons_append]
    rw [List.foldlM_cons, step_start waiting (by decide), depth]
    refine enter_bind fun room => ?_
    -- The bracket turns the array into a dictionary on the same level.
    change List.foldlM step (.reading (.key :: frames)) _ = _
    rw [List.foldlM_cons, step_key]
    change List.foldlM step (.reading (.value key :: frames)) _ = _
    have inside := read_chars value whole (.value key :: frames) (List.forall_mem_cons.mpr ⟨rfl, waiting⟩) room
    rw [List.foldlM_append, inside]
    exact bounded_close room rfl

theorem read_charsAll : (types : List BusType) → AllWellFormed types → (before : List BusType) →
    (frames : List Frame) → (∀ frame ∈ frames, frame.isOpen) → frames.length < maxDepth →
    (charsAll types).foldlM step (.reading (.struct before :: frames)) =
      bounded (frames.length + 1) (depthAll types) (.reading (.struct (types.reverse ++ before) :: frames))
  | [], _, before, frames, waiting, room => by
    rw [depthAll, bounded_of_le room]
    rfl
  | type :: rest, whole, before, frames, waiting, room => by
    have first := read_chars type whole.1 (.struct before :: frames) (List.forall_mem_cons.mpr ⟨rfl, waiting⟩) room
    have others := read_charsAll rest whole.2 (type :: before) frames waiting room
    rw [charsAll, List.foldlM_append, first, depthAll]
    refine bounded_bind ?_
    rw [List.reverse_cons, List.append_assoc]
    exact others
end

theorem parseChars_chars {type : BusType} (whole : type.WellFormed) :
    parseChars type.chars = if type.depth ≤ maxDepth then .ok type else .error .tooDeep := by
  rw [parseChars, read_chars type whole [] (by simp) (Nat.zero_le _), List.length_nil, bounded, Nat.zero_add]
  split <;> rfl

/-- Reading undoes writing, on exactly the texts of well-formed types that are at most 32 containers deep, and a
deeper type is refused for its depth. -/
theorem parse_eq_ok_iff (signature : String) (type : BusType) :
    (parse signature = .ok type ↔ type.WellFormed ∧ type.depth ≤ 32 ∧ type.text = signature) ∧
    (type.WellFormed → 32 < type.depth → parse type.text = .error ⟨type.text, .tooDeep⟩) := by
  have reading (whole : type.WellFormed) : parse type.text =
      if type.depth ≤ 32 then .ok type else .error ⟨type.text, .tooDeep⟩ := by
    rw [parse, text, String.toList_ofList, parseChars_chars whole]
    by_cases shallow : type.depth ≤ 32 <;> simp [maxDepth, shallow]
  refine ⟨⟨?_, ?_⟩, ?_⟩
  · intro parsed
    have written := text_of_parse parsed
    have whole : type.WellFormed := by
      unfold parse at parsed
      split at parsed <;> cases parsed
      next read => exact wellFormed_of_parseChars read
    refine ⟨whole, ?_, written⟩
    -- A type that is too deep would not have been read from its own text.
    by_contra deep
    rw [← written, reading whole, if_neg deep] at parsed
    cases parsed
  · rintro ⟨whole, shallow, rfl⟩
    rw [reading whole, if_pos shallow]
  · intro whole deep
    rw [reading whole, if_neg (Nat.not_le_of_lt deep)]

/-- A byte inside so many structs, each the only member of the next. -/
def boxes : Nat → BusType
  | 0 => .basic .byte
  | levels + 1 => .struct [boxes levels]

theorem parse_boxes :
    ((boxes 32).WellFormed ∧ (boxes 32).depth = 32 ∧ parse (boxes 32).text = .ok (boxes 32)) ∧
    (boxes 33).WellFormed ∧ 32 < (boxes 33).depth ∧ parse (boxes 33).text = .error ⟨(boxes 33).text, .tooDeep⟩ := by
  have whole (levels : Nat) : (boxes levels).WellFormed := by
    induction levels with
    | zero => trivial
    | succ levels ih => exact ⟨List.cons_ne_nil _ _, ih, trivial⟩
  have depth (levels : Nat) : (boxes levels).depth = levels := by
    induction levels with
    | zero => rfl
    | succ levels ih => simp [boxes, BusType.depth, depthAll, ih]
  refine ⟨⟨whole 32, depth 32, ?_⟩, whole 33, by rw [depth]; decide, ?_⟩
  · exact (parse_eq_ok_iff _ _).1.mpr ⟨whole 32, Nat.le_of_eq (depth 32), rfl⟩
  · exact (parse_eq_ok_iff "" (boxes 33)).2 (whole 33) (by rw [depth]; decide)

end BusStub.BusType
