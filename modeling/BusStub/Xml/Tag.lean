import BusStub.Xml.Reference

/-! Attributes of start tags. Values stand in quotes of either kind and hold no angle bracket. -/

namespace BusStub.Xml

/-- The characters of a quoted value, as they are written. -/
def quoted? : Reader (List Char)
  | [] => none
  | quote :: rest =>
    if quote = '"' || quote = '\'' then
      match run (fun c => c != quote && c != '<') rest with
      | (raw, last :: rest) => if last = quote && raw.all isAllowed then some (raw, rest) else none
      | (_, []) => none
    else none

def assignment? : Reader (Name × List Char) := fun cs =>
  match name? cs with
  | none => none
  | some (name, afterName) => match skipSpace afterName with
    | '=' :: afterSign => (quoted? (skipSpace afterSign)).map fun (raw, rest) => ((name, raw), rest)
    | _ => none

theorem length_quoted? {cs raw rest : List Char} (read : quoted? cs = some (raw, rest)) :
    rest.length < cs.length := by
  cases cs with
  | nil => simp [quoted?] at read
  | cons quote cs =>
    simp only [quoted?] at read
    split at read
    · split at read
      · rename_i last rest' found
        split at read
        · simp only [Option.some.injEq, Prod.mk.injEq] at read
          obtain ⟨_, rfl⟩ := read
          have bound := length_run_le (fun c => c != quote && c != '<') cs
          rw [found, List.length_cons] at bound
          simp only [List.length_cons]
          omega
        · cases read
      · cases read
    · cases read

theorem length_assignment? {cs rest : List Char} {found : Name × List Char}
    (read : assignment? cs = some (found, rest)) : rest.length < cs.length := by
  unfold assignment? at read
  split at read
  · cases read
  · rename_i name afterName named
    split at read
    · rename_i afterSign spaced
      simp only [Option.map_eq_some_iff, Prod.mk.injEq] at read
      obtain ⟨⟨raw, afterValue⟩, value, _, rfl⟩ := read
      have first := length_name? named
      have second := length_skipSpace_le afterName
      have third := length_skipSpace_le afterSign
      have last := length_quoted? value
      rw [spaced, List.length_cons] at second
      simp only
      omega
    · cases read

def startsSpace : List Char → Bool
  | [] => false
  | c :: _ => isSpace c

/-- The attributes up to the end of a start tag, and whether that tag is the whole element. White
space stands before every attribute. -/
def attributes? (cs : List Char) : Option ((List (Name × String) × Bool) × List Char) :=
  match skipSpace cs with
  | '/' :: '>' :: rest => some (([], true), rest)
  | '>' :: rest => some (([], false), rest)
  | _ =>
    if startsSpace cs then match _ : assignment? (skipSpace cs) with
      | none => none
      | some ((name, raw), rest) => match value? raw, attributes? rest with
        | some value, some ((attributes, closed), rest) => some (((name, value) :: attributes, closed), rest)
        | _, _ => none
    else none
termination_by cs.length
decreasing_by
  rename_i read
  exact Nat.lt_of_lt_of_le (length_assignment? read) (length_skipSpace_le cs)

theorem length_attributes?_le {cs rest : List Char} {found : List (Name × String) × Bool}
    (read : attributes? cs = some (found, rest)) : rest.length ≤ cs.length := by
  fun_induction attributes? cs generalizing found rest with
  | case1 cs rest' ends | case2 cs rest' ends =>
    have bound := length_skipSpace_le cs
    cases read
    simp only [ends, List.length_cons] at bound
    omega
  | case4 cs =>
    rename_i first _ _ _ _ others _ _ _ ih
    have bound := length_assignment? first
    have spaces := length_skipSpace_le cs
    have more := ih others
    cases read
    omega
  | _ => cases read

end BusStub.Xml
