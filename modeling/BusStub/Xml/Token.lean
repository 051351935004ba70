import BusStub.Xml.Tag

/-! Documents as runs of tokens. Every token is at least one character long, so reading tokens comes
to an end. -/

namespace BusStub.Xml

inductive Token where
  /-- A start tag; `closed` if it is the whole element. -/
  | opening (name : Name) (attributes : List (Name × String)) (closed : Bool)
  | closing (name : Name)
  /-- Characters of an element, `blank` if they are white space. -/
  | text (blank : Bool)
  /-- A comment or a processing instruction. -/
  | remark
  deriving Repr, Inhabited

/-- The characters before the first occurrence of a mark, and those after it. -/
def cutMark? (mark : List Char) : Reader (List Char)
  | [] => none
  | c :: rest =>
    if mark.isPrefixOf (c :: rest) then some ([], (c :: rest).drop mark.length)
    else (cutMark? mark rest).map fun (front, back) => (c :: front, back)

theorem length_cutMark?_le {mark cs front back : List Char} (cut : cutMark? mark cs = some (front, back)) :
    back.length ≤ cs.length := by
  induction cs generalizing front with
  | nil => simp [cutMark?] at cut
  | cons c rest ih =>
    simp only [cutMark?] at cut
    split at cut
    · simp only [Option.some.injEq, Prod.mk.injEq] at cut
      obtain ⟨_, rfl⟩ := cut
      simp
    · simp only [Option.map_eq_some_iff, Prod.mk.injEq] at cut
      obtain ⟨⟨_, _⟩, found, _, rfl⟩ := cut
      exact Nat.le_succ_of_le (ih found)

def contains (mark : List Char) (cs : List Char) : Bool :=
  (cutMark? mark cs).isSome

/-- The rest of a comment. Two hyphens end it. -/
def comment? : Reader Token := fun cs =>
  match cutMark? ['-', '-', '>'] cs with
  | some (body, rest) =>
    if body.all isAllowed && !contains ['-', '-'] body && body.getLast? != some '-' then some (.remark, rest)
    else none
  | none => none

/-- The rest of characters that stand for themselves. -/
def verbatim? : Reader Token := fun cs =>
  match cutMark? [']', ']', '>'] cs with
  | some (body, rest) => if body.all isAllowed then some (.text false, rest) else none
  | none => none

def instruction? : Reader Token := fun cs =>
  match word? cs with
  | none => none
  | some (_, afterTarget) => match cutMark? ['?', '>'] (skipSpace afterTarget) with
    | some (body, rest) => if body.all isAllowed then some (.remark, rest) else none
    | none => none

def closing? : Reader Token := fun cs =>
  match name? cs with
  | none => none
  | some (name, afterName) => match skipSpace afterName with
    | '>' :: rest => some (.closing name, rest)
    | _ => none

def opening? : Reader Token := fun cs =>
  match name? cs with
  | none => none
  | some (name, afterName) => (attributes? afterName).map fun ((attributes, closed), rest) =>
    (.opening name attributes closed, rest)

def text? : Reader Token := fun cs =>
  let (body, rest) := run (· != '<') cs
  if body.all isAllowed && !contains [']', ']', '>'] body && referencesHold body then
    some (.text (body.all isSpace), rest)
  else none

def token? : Reader Token
  | '<' :: '!' :: '-' :: '-' :: rest => comment? rest
  | '<' :: '!' :: '[' :: 'C' :: 'D' :: 'A' :: 'T' :: 'A' :: '[' :: rest => verbatim? rest
  | '<' :: '!' :: _ => none
  | '<' :: '?' :: 'x' :: 'm' :: 'l' :: ' ' :: _ => none
  | '<' :: '?' :: rest => instruction? rest
  | '<' :: '/' :: rest => closing? rest
  | '<' :: rest => opening? rest
  | [] => none
  | cs => text? cs

theorem length_comment?_le {cs rest : List Char} {token : Token} (read : comment? cs = some (token, rest)) :
    rest.length ≤ cs.length := by
  unfold comment? at read
  split at read
  · rename_i cut
    split at read
    · cases read; exact length_cutMark?_le cut
    · cases read
  · cases read

theorem length_verbatim?_le {cs rest : List Char} {token : Token} (read : verbatim? cs = some (token, rest)) :
    rest.length ≤ cs.length := by
  unfold verbatim? at read
  split at read
  · rename_i cut
    split at read
    · cases read; exact length_cutMark?_le cut
    · cases read
  · cases read

theorem length_instruction?_le {cs rest : List Char} {token : Token}
    (read : instruction? cs = some (token, rest)) : rest.length ≤ cs.length := by
  unfold instruction? at read
  split at read
  · cases read
  · rename_i target afterTarget named
    have first : afterTarget.length ≤ cs.length := by
      unfold word? at named
      split at named
      · cases named; exact length_run_le isNameChar cs
      · cases named
    split at read
    · rename_i cut
      split at read
      · cases read
        exact Nat.le_trans (length_cutMark?_le cut) (Nat.le_trans (length_skipSpace_le _) first)
      · cases read
    · cases read

theorem length_closing?_le {cs rest : List Char} {token : Token} (read : closing? cs = some (token, rest)) :
    rest.length ≤ cs.length := by
  unfold closing? at read
  split at read
  · cases read
  · rename_i name afterName named
    split at read
    · rename_i last spaced
      cases read
      have first := length_name? named
      have second := length_skipSpace_le afterName
      rw [spaced, List.length_cons] at second
      omega
    · cases read

theorem length_opening?_le {cs rest : List Char} {token : Token} (read : opening? cs = some (token, rest)) :
    rest.length ≤ cs.length := by
  unfold opening? at read
  split at read
  · cases read
  · rename_i name afterName named
    simp only [Option.map_eq_some_iff, Prod.mk.injEq] at read
    obtain ⟨⟨⟨_, _⟩, _⟩, found, _, rfl⟩ := read
    have first := length_name? named
    have second := length_attributes?_le found
    simp only
    omega

theorem length_text? {c : Char} {cs rest : List Char} {token : Token} (other : c ≠ '<')
    (read : text? (c :: cs) = some (token, rest)) : rest.length < (c :: cs).length := by
  simp only [text?] at read
  split at read
  · cases read
    have bound := length_run_le (· != '<') cs
    simp only [run, List.length_cons, List.dropWhile_cons, bne_iff_ne, ne_eq, other, not_false_eq_true, if_true]
    simp only [run] at bound
    omega
  · cases read

theorem length_token? {cs rest : List Char} {token : Token} (read : token? cs = some (token, rest)) :
    rest.length < cs.length := by
  unfold token? at read
  split at read
  · have := length_comment?_le read; simp only [List.length_cons]; omega
  · have := length_verbatim?_le read; simp only [List.length_cons]; omega
  · cases read
  · cases read
  · have := length_instruction?_le read; simp only [List.length_cons]; omega
  · have := length_closing?_le read; simp only [List.length_cons]; omega
  · have := length_opening?_le read; simp only [List.length_cons]; omega
  · cases read
  · rename_i others nonempty
    cases cs with
    | nil => exact absurd rfl nonempty
    | cons c cs => exact length_text? (fun same => others cs (by rw [same])) read

def tokens? (cs : List Char) : Option (List Token) :=
  if cs.isEmpty then some []
  else match _ : token? cs with
    | none => none
    | some (token, rest) => (tokens? rest).map (token :: ·)
termination_by cs.length
decreasing_by
  rename_i read
  exact length_token? read

end BusStub.Xml
