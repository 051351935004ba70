import BusStub.Proofs.SignatureLanguage

/-! Where a text stops being the beginning of a signature. Whatever has been read without a fault can be completed
to a signature, so the first character that is refused is the first one which no signature has there, and what
follows it changes nothing. Only a text that stops too early fails at its end. -/

namespace BusStub

/-- Whether a fault is that of a character. The other two may be due to the end of the text. -/
def SignatureFault.isDefinite : SignatureFault → Bool
  | .unknownCode _ | .nonBasicKey _ | .malformedEntry | .emptyStruct | .tooDeep | .trailing _ => true
  | .empty | .unbalanced => false

namespace BusType

/-- Some signature begins with the text. -/
def Begins (text : String) : Prop :=
  ∃ more type, parse (text ++ more) = .ok type

theorem parse_ok_iff {signature : String} {type : BusType} :
    parse signature = .ok type ↔ signature.toList.foldlM step (.reading []) = .ok (.done type) := by
  have chars : parse signature = .ok type ↔ parseChars signature.toList = .ok type := by
    unfold parse
    cases parseChars signature.toList <;> simp
  rw [chars, parseChars]
  cases signature.toList.foldlM step (.reading []) with
  | error fault => exact iff_of_false (fun same => by cases same) fun same => by cases same
  | ok last => cases last with
    | done found => exact ⟨fun same => by cases same; rfl, fun same => by cases same; rfl⟩
    | reading frames => cases frames <;> exact iff_of_false (fun same => by cases same) fun same => by cases same

/-- The open containers are closed from the inside; a struct gets no further member and an array no level. -/
theorem fill_completes (type : BusType) (frames : List Frame) (waiting : ∀ frame ∈ frames, frame.isOpen) :
    ∃ (more : List Char) (whole : BusType), more.foldlM step (fill type frames) = .ok (.done whole) := by
  induction frames generalizing type with
  | nil => exact ⟨[], type, rfl⟩
  | cons frame rest ih =>
    obtain ⟨first, others⟩ := List.forall_mem_cons.mp waiting
    cases frame with
    | struct members =>
      obtain ⟨more, whole, run⟩ := ih (.struct (type :: members).reverse) others
      exact ⟨')' :: more, whole, run⟩
    | array => exact ih (.array type) others
    | value key =>
      obtain ⟨more, whole, run⟩ := ih (.dict key type) others
      exact ⟨'}' :: more, whole, run⟩
    | key | close => cases first

/-- A byte stands for whatever the innermost container still waits for. -/
theorem open_completes (frames : List Frame) (waiting : ∀ frame ∈ frames, frame.isOpen) :
    ∃ (more : List Char) (whole : BusType), more.foldlM step (.reading frames) = .ok (.done whole) := by
  obtain ⟨more, whole, run⟩ := fill_completes (.basic .byte) frames waiting
  refine ⟨'y' :: more, whole, ?_⟩
  rw [List.foldlM_cons, step_start waiting (by decide)]
  exact run

theorem State.completes {state : State} (valid : state.Valid) :
    ∃ (more : List Char) (whole : BusType), more.foldlM step state = .ok (.done whole) := by
  cases state with
  | done type => exact ⟨[], type, rfl⟩
  | reading frames => cases frames with
    | nil => exact open_completes [] nofun
    | cons frame rest => cases frame with
      | struct | array | value => exact open_completes _ (List.forall_mem_cons.mpr ⟨rfl, valid⟩)
      | key =>
        obtain ⟨more, whole, run⟩ := open_completes (.value .byte :: rest) (List.forall_mem_cons.mpr ⟨rfl, valid⟩)
        exact ⟨'y' :: more, whole, run⟩
      | close key value =>
        obtain ⟨more, whole, run⟩ := fill_completes (.dict key value) rest valid
        exact ⟨'}' :: more, whole, run⟩

/-- The machine gets through exactly the beginnings of signatures. -/
theorem begins_iff {text : String} : Begins text ↔ ∃ state, text.toList.foldlM step (.reading []) = .ok state := by
  constructor
  · rintro ⟨more, type, parsed⟩
    rw [parse_ok_iff, String.toList_append, List.foldlM_append] at parsed
    obtain ⟨state, run, -⟩ := bind_ok parsed
    exact ⟨state, run⟩
  · rintro ⟨state, run⟩
    obtain ⟨more, whole, rest⟩ := State.completes (run_spec run).2
    refine ⟨String.ofList more, whole, ?_⟩
    rw [parse_ok_iff, String.toList_append, String.toList_ofList, List.foldlM_append, run]
    exact rest

/-- Only nothing has been read when no container is open. -/
theorem parse_cut {text : String} {frames : List Frame}
    (run : text.toList.foldlM step (.reading []) = .ok (.reading frames)) :
    parse text = .error ⟨text, if text = "" then .empty else .unbalanced⟩ := by
  have read : framesChars frames = text.toList := (run_spec run).1
  have failed : parseChars text.toList = .error (if text = "" then .empty else .unbalanced) := by
    rw [parseChars, run]
    cases frames with
    | nil =>
      obtain rfl : text = "" := String.toList_eq_nil_iff.mp read.symm
      rfl
    | cons frame rest =>
      have nonempty : text ≠ "" := by
        rintro rfl
        cases run
      rw [if_neg nonempty]
      rfl
  rw [parse, failed]

/-- What is refused stays refused, whatever comes after it. -/
theorem parse_refused {text before after : String} {c : Char} {state : State} {fault : SignatureFault}
    (same : text = before ++ c.toString ++ after) (read : before.toList.foldlM step (.reading []) = .ok state)
    (refused : step state c = .error fault) : parse text = .error ⟨text, fault⟩ := by
  have failed : parseChars text.toList = .error fault := by
    have chars : text.toList = before.toList ++ c :: after.toList := by simp [same]
    rw [parseChars, chars, List.foldlM_append, read]
    change (List.foldlM step state (c :: after.toList) >>= finish) = _
    rw [List.foldlM_cons, refused]
    rfl
  rw [parse, failed]

/-- Reading fails at a character, or at the end of a text that goes on in some signature. -/
theorem parse_error {text : String} {error : SignatureError} (failed : parse text = .error error) :
    (∃ (before : String) (c : Char) (after : String) (state : State), text = before ++ c.toString ++ after ∧
      before.toList.foldlM step (.reading []) = .ok state ∧ step state c = .error error.fault) ∨
    ∃ frames, text.toList.foldlM step (.reading []) = .ok (.reading frames) ∧
      finish (.reading frames) = .error error.fault := by
  have chars : parseChars text.toList = .error error.fault := by
    unfold parse at failed
    split at failed <;> cases failed
    next unread => exact unread
  rcases bind_error chars with stopped | ⟨last, run, unfinished⟩
  · obtain ⟨before, c, after, state, parts, read, refused⟩ := foldlM_error stopped
    refine .inl ⟨String.ofList before, c, String.ofList after, state, ?_, by simpa using read, refused⟩
    exact String.toList_inj.mp (by simp [parts])
  · cases last with
    | done type => cases unfinished
    | reading frames => exact .inr ⟨frames, run, unfinished⟩

theorem finish_indefinite {frames : List Frame} {fault : SignatureFault}
    (unfinished : finish (.reading frames) = .error fault) : fault.isDefinite = false := by
  cases frames <;> cases unfinished <;> rfl

/-- An error other than for what is missing is that of the first character which no signature has in its place: it is
the same however the text goes on. What follows a whole signature is refused where it begins, so no signature is
the beginning of another; and where a signature is cut off, something is missing. -/
theorem errors_of_first_impossible (s t : String) :
    (∀ error, parse s = .error error → error.fault.isDefinite → parse (s ++ t) = .error ⟨s ++ t, error.fault⟩ ∧
      ∃ (before : String) (c : Char) (after : String), s = before ++ c.toString ++ after ∧ Begins before ∧
        ¬Begins (before ++ c.toString) ∧
        parse (before ++ c.toString) = .error ⟨before ++ c.toString, error.fault⟩) ∧
    (∀ type, parse s = .ok type → t ≠ "" → parse (s ++ t) = .error ⟨s ++ t, .trailing s.utf8ByteSize⟩) ∧
    (∀ type, parse (s ++ t) = .ok type → t ≠ "" →
      parse s = .error ⟨s, if s = "" then .empty else .unbalanced⟩) := by
  refine ⟨?_, ?_, ?_⟩
  · intro error failed definite
    rcases parse_error failed with ⟨before, c, after, state, rfl, read, refused⟩ | ⟨frames, -, unfinished⟩
    · have goesOn : before ++ c.toString ++ after ++ t = before ++ c.toString ++ (after ++ t) := String.append_assoc
      have alone : before ++ c.toString = before ++ c.toString ++ "" := String.append_empty.symm
      refine ⟨parse_refused goesOn read refused, before, c, after, rfl, begins_iff.mpr ⟨state, read⟩, ?_,
        parse_refused alone read refused⟩
      rintro ⟨more, type, parsed⟩
      rw [parse_refused rfl read refused] at parsed
      cases parsed
    · rw [finish_indefinite unfinished] at definite
      cases definite
  · intro type parsed nonempty
    obtain ⟨c, rest, goes⟩ := List.exists_cons_of_ne_nil (mt String.toList_eq_nil_iff.mp nonempty)
    have goesOn : s ++ t = s ++ c.toString ++ String.ofList rest := String.toList_inj.mp (by simp [goes])
    refine parse_refused goesOn (parse_ok_iff.mp parsed) ?_
    rw [step, text_of_parse parsed]
  · intro type parsed nonempty
    obtain ⟨c, rest, goes⟩ := List.exists_cons_of_ne_nil (mt String.toList_eq_nil_iff.mp nonempty)
    rw [parse_ok_iff, String.toList_append, List.foldlM_append, goes] at parsed
    obtain ⟨state, run, more⟩ := bind_ok parsed
    cases state with
    | done found => cases more
    | reading frames => exact parse_cut run

/-- A letter that is no code, a dictionary with more behind it, and the same kind of dictionary cut off in a struct. -/
theorem errors_of_cut_dictionary :
    (parse "(iz" = .error ⟨"(iz", .unknownCode 'z'⟩ ∧ (SignatureFault.unknownCode 'z').isDefinite = true ∧
      parse ("(iz" ++ "a)") = .error ⟨"(iza)", .unknownCode 'z'⟩) ∧
    (parse "a{sv}" = .ok (.dict .string .variant) ∧ "as" ≠ "" ∧
      parse ("a{sv}" ++ "as") = .error ⟨"a{sv}as", .trailing 5⟩) ∧
    parse ("a\x7bs(i" ++ ")\x7d") = .ok (.dict .string (.struct [.basic .int32])) ∧ ")\x7d" ≠ "" ∧
      parse "a\x7bs(i" = .error ⟨"a\x7bs(i", .unbalanced⟩ := by
  refine ⟨⟨rfl, rfl, ?_⟩, ⟨rfl, by decide, ?_⟩, rfl, by decide, ?_⟩
  · exact ((errors_of_first_impossible "(iz" "a)").1 ⟨"(iz", .unknownCode 'z'⟩ rfl rfl).1
  · exact (errors_of_first_impossible "a{sv}" "as").2.1 _ rfl (by decide)
  · exact (errors_of_first_impossible "a\x7bs(i" ")\x7d").2.2 _ rfl (by decide)

end BusType
end BusStub
