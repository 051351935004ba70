import BusStub.Proofs.Runs
import BusStub.Proofs.SignatureText
import BusStub.Signature.Parse

/-! Reading a signature loses nothing. The stack of open containers holds exactly the characters read so far,
so a type that is read has the text it was read from. -/

namespace BusStub.BusType

def Frame.chars : Frame → List Char
  | .struct members => '(' :: charsAll members.reverse
  | .array => ['a']
  | .key => ['a', '{']
  | .value k => ['a', '{', k.code]
  | .close k type => 'a' :: '{' :: k.code :: type.chars

def framesChars : List Frame → List Char
  | [] => []
  | frame :: rest => framesChars rest ++ frame.chars

def State.chars : State → List Char
  | .reading frames => framesChars frames
  | .done type => type.chars

def Frame.isOpen : Frame → Bool
  | .struct _ | .array | .value _ => true
  | .key | .close _ _ => false

/-- Containers inside which another one was opened wait for a type. -/
def State.Valid : State → Prop
  | .reading (_ :: rest) => ∀ frame ∈ rest, frame.isOpen
  | .reading [] | .done _ => True

theorem charsAll_append (first second : List BusType) :
    charsAll (first ++ second) = charsAll first ++ charsAll second := by
  induction first with
  | nil => rfl
  | cons type rest ih => simp only [List.cons_append, charsAll, ih, List.append_assoc]

/-- Handing a type on adds its characters to those of the containers. -/
theorem fill_spec (type : BusType) (frames : List Frame) (waiting : ∀ frame ∈ frames, frame.isOpen) :
    (fill type frames).chars = framesChars frames ++ type.chars ∧ (fill type frames).Valid := by
  induction frames generalizing type with
  | nil => exact ⟨rfl, trivial⟩
  | cons frame rest ih =>
    obtain ⟨first, others⟩ := List.forall_mem_cons.mp waiting
    cases frame with
    | struct members =>
      exact ⟨by simp [fill, State.chars, framesChars, Frame.chars, charsAll_append, charsAll], others⟩
    | array =>
      -- An array is complete with its element, so the array is handed on in turn.
      obtain ⟨read, valid⟩ := ih (.array type) others
      exact ⟨by simpa [fill, framesChars, Frame.chars, chars] using read, valid⟩
    | value key => exact ⟨by simp [fill, State.chars, framesChars, Frame.chars], others⟩
    | key | close => cases first

theorem enter_spec {frame : Frame} {frames : List Frame} {next : State} (waiting : ∀ frame ∈ frames, frame.isOpen)
    (entered : enter frame frames = .ok next) : next.chars = framesChars frames ++ frame.chars ∧ next.Valid := by
  unfold enter at entered
  split at entered
  · cases entered
    exact ⟨rfl, waiting⟩
  · cases entered

theorem start_spec {c : Char} {frames : List Frame} {next : State} (waiting : ∀ frame ∈ frames, frame.isOpen)
    (started : start c frames = .ok next) : next.chars = framesChars frames ++ [c] ∧ next.Valid := by
  unfold start at started
  split at started
  · exact enter_spec waiting started
  · exact enter_spec waiting started
  · cases started
    exact fill_spec .variant frames waiting
  · cases started
  · cases started
  · cases started
  · split at started
    next kind known =>
      cases started
      rw [← Scalar.code_of_ofCode? known]
      exact fill_spec (.basic kind) frames waiting
    next => cases started

theorem step_spec {state next : State} {c : Char} (valid : state.Valid) (stepped : step state c = .ok next) :
    next.chars = state.chars ++ [c] ∧ next.Valid := by
  unfold step at stepped
  split at stepped
  next => cases stepped
  next => exact start_spec (by simp) stepped
  next members rest =>
    split at stepped
    next closing =>
      subst closing
      split at stepped
      · cases stepped
      · cases stepped
        obtain ⟨read, valid⟩ := fill_spec (.struct members.reverse) rest valid
        exact ⟨by simpa [State.chars, framesChars, Frame.chars, chars] using read, valid⟩
    next => exact start_spec (List.forall_mem_cons.mpr ⟨rfl, valid⟩) stepped
  next rest =>
    split at stepped
    next opening =>
      subst opening
      cases stepped
      exact ⟨by simp [State.chars, framesChars, Frame.chars], valid⟩
    next => exact start_spec (List.forall_mem_cons.mpr ⟨rfl, valid⟩) stepped
  next rest =>
    split at stepped
    next kind known =>
      cases stepped
      rw [← Scalar.code_of_ofCode? known]
      exact ⟨by simp [State.chars, framesChars, Frame.chars], valid⟩
    next => cases stepped
  next key rest =>
    split at stepped
    · cases stepped
    · exact start_spec (List.forall_mem_cons.mpr ⟨rfl, valid⟩) stepped
  next key value rest =>
    split at stepped
    next closing =>
      subst closing
      cases stepped
      obtain ⟨read, valid⟩ := fill_spec (.dict key value) rest valid
      exact ⟨by simpa [State.chars, framesChars, Frame.chars, chars] using read, valid⟩
    next => cases stepped

theorem run_spec {cs : List Char} {last : State} (run : cs.foldlM step (.reading []) = .ok last) :
    last.chars = cs ∧ last.Valid := by
  refine foldlM_ok (fun before state => state.chars = before ∧ state.Valid) run ⟨rfl, trivial⟩ ?_
  rintro before c state next ⟨rfl, valid⟩ stepped
  exact step_spec valid stepped

theorem chars_of_parseChars {cs : List Char} {type : BusType} (parsed : parseChars cs = .ok type) :
    type.chars = cs := by
  obtain ⟨last, run, finished⟩ := bind_ok parsed
  have read := run_spec run
  cases last with
  | done found =>
    cases finished
    exact read.1
  | reading frames => cases frames <;> cases finished

/-- A signature that denotes a type is the text of that type. -/
theorem text_of_parse {signature : String} {type : BusType} (parsed : parse signature = .ok type) :
    type.text = signature := by
  unfold parse at parsed
  split at parsed
  next found read =>
    cases parsed
    rw [text, chars_of_parseChars read, String.ofList_toList]
  next => cases parsed

end BusStub.BusType
