/-! Cutting a text at every occurrence of one character. `split` keeps every piece, so joining the
pieces again gives the text back. -/

namespace BusStub.Text

/-- The pieces between separators; there is always one more piece than separators. -/
def split (separator : Char) : List Char → List (List Char)
  | [] => [[]]
  | c :: rest =>
    if c = separator then [] :: split separator rest else (split separator rest).modifyHead (c :: ·)

theorem split_ne_nil (separator : Char) (cs : List Char) : split separator cs ≠ [] := by
  induction cs with
  | nil => simp [split]
  | cons c rest ih =>
    rw [split]
    split
    · simp
    · simpa [List.modifyHead_eq_nil_iff] using ih

theorem intercalate_split (separator : Char) (cs : List Char) :
    [separator].intercalate (split separator cs) = cs := by
  induction cs with
  | nil => rfl
  | cons c rest ih =>
    obtain ⟨piece, others, pieces⟩ := List.exists_cons_of_ne_nil (split_ne_nil separator rest)
    rw [pieces] at ih
    simp only [split, pieces, List.modifyHead_cons]
    split
    · rename_i same
      simpa [List.intercalate, same] using ih
    · cases others <;> simpa [List.intercalate] using ih

theorem split_append (separator : Char) (first second : List Char) :
    split separator (first ++ separator :: second) = split separator first ++ split separator second := by
  induction first with
  | nil => simp [split]
  | cons c rest ih =>
    obtain ⟨piece, others, pieces⟩ := List.exists_cons_of_ne_nil (split_ne_nil separator rest)
    rw [List.cons_append, split, split, ih, pieces]
    split <;> rfl

theorem split_plain {separator : Char} {cs : List Char} (plain : separator ∉ cs) : split separator cs = [cs] := by
  induction cs with
  | nil => rfl
  | cons c rest ih =>
    obtain ⟨other, plain⟩ := List.ne_and_not_mem_of_not_mem_cons plain
    rw [split, if_neg other.symm, ih plain]
    rfl

/-- No piece holds the separator. -/
theorem not_mem_of_mem_split {separator : Char} {cs piece : List Char} (member : piece ∈ split separator cs) :
    separator ∉ piece := by
  induction cs generalizing piece with
  | nil =>
    obtain rfl : piece = [] := by simpa [split] using member
    exact List.not_mem_nil
  | cons c rest ih =>
    rw [split] at member
    split at member
    next =>
      rcases List.mem_cons.mp member with rfl | later
      · exact List.not_mem_nil
      · exact ih later
    next other =>
      obtain ⟨first, others, pieces⟩ := List.exists_cons_of_ne_nil (split_ne_nil separator rest)
      rw [pieces] at member ih
      rcases List.mem_cons.mp member with rfl | later
      · have inner := ih List.mem_cons_self
        simpa [Ne.symm other] using inner
      · exact ih (List.mem_cons_of_mem _ later)

theorem split_intercalate {separator : Char} {pieces : List (List Char)} (nonempty : pieces ≠ [])
    (plain : ∀ piece ∈ pieces, separator ∉ piece) : split separator ([separator].intercalate pieces) = pieces := by
  induction pieces with
  | nil => exact absurd rfl nonempty
  | cons first rest ih =>
    obtain ⟨here, others⟩ := List.forall_mem_cons.mp plain
    cases rest with
    | nil => rw [List.intercalate_singleton, split_plain here]
    | cons second rest =>
      rw [List.intercalate_cons_cons, List.append_assoc, List.singleton_append, split_append, split_plain here,
        ih (List.cons_ne_nil _ _) others]
      rfl

theorem head?_split_eq_nil (separator : Char) (cs : List Char) :
    (split separator cs).head? = some [] ↔ cs = [] ∨ cs.head? = some separator := by
  cases cs with
  | nil => simp [split]
  | cons c rest =>
    obtain ⟨piece, others, pieces⟩ := List.exists_cons_of_ne_nil (split_ne_nil separator rest)
    rw [split, pieces]
    split <;> simp_all

/-- After the first piece comes an empty one exactly if a separator is followed by nothing or by another. -/
theorem nil_mem_tail_split (separator : Char) (cs : List Char) :
    [] ∈ (split separator cs).tail ↔ cs.getLast? = some separator ∨ [separator, separator] <:+: cs := by
  induction cs with
  | nil => simp [split]
  | cons c rest ih =>
    obtain ⟨piece, others, pieces⟩ := List.exists_cons_of_ne_nil (split_ne_nil separator rest)
    have front : piece = [] ↔ rest = [] ∨ rest.head? = some separator := by
      simpa [pieces] using head?_split_eq_nil separator rest
    have doubled : [separator, separator] <+: c :: rest ↔ separator = c ∧ rest.head? = some separator := by
      cases rest <;> simp [List.cons_prefix_cons, eq_comm]
    rw [pieces, List.tail_cons] at ih
    rw [split, pieces, List.getLast?_cons, List.infix_cons_iff, doubled]
    split
    next same =>
      have ends : rest.getLast?.getD c = separator ↔ rest = [] ∨ rest.getLast? = some separator := by
        cases rest <;> simp [List.getLast?_cons, same]
      rw [List.tail_cons, List.mem_cons, eq_comm, front, ih, Option.some_inj, ends]
      grind
    next other =>
      have ends : rest.getLast?.getD c = separator ↔ rest.getLast? = some separator := by
        cases rest <;> simp [List.getLast?_cons, other]
      rw [List.modifyHead_cons, List.tail_cons, ih, Option.some_inj, ends]
      grind

/-- A piece is empty where a separator stands next to the beginning, to the end or to another separator. -/
theorem nil_mem_split {separator : Char} {cs : List Char} (nonempty : cs ≠ []) :
    [] ∈ split separator cs ↔
      cs.head? = some separator ∨ cs.getLast? = some separator ∨ [separator, separator] <:+: cs := by
  obtain ⟨piece, others, pieces⟩ := List.exists_cons_of_ne_nil (split_ne_nil separator cs)
  have front : piece = [] ↔ cs.head? = some separator := by
    simpa [pieces, nonempty] using head?_split_eq_nil separator cs
  have later := nil_mem_tail_split separator cs
  rw [pieces, List.tail_cons] at later
  rw [pieces, List.mem_cons, eq_comm, front, later]

/-- The lines of a text. A line feed ends a line, so none follows the last one. -/
def lines (s : String) : List String :=
  let pieces := (split '\n' s.toList).map String.ofList
  if pieces.getLast? = some "" then pieces.dropLast else pieces

def pieces (separator : Char) (s : String) : List String :=
  (split separator s.toList).map String.ofList

/-- What follows the last occurrence of a character, the whole text when it does not occur. -/
def afterLast (separator : Char) (s : String) : String :=
  (pieces separator s).getLastD ""

theorem not_mem_afterLast (separator : Char) (s : String) : separator ∉ (afterLast separator s).toList := by
  have some : (split separator s.toList).map String.ofList ≠ [] := by simp [split_ne_nil]
  have last : afterLast separator s ∈ (split separator s.toList).map String.ofList := by
    rw [afterLast, pieces, List.getLastD_eq_getLast?, List.getLast?_eq_some_getLast some]
    exact List.getLast_mem some
  obtain ⟨piece, member, same⟩ := List.mem_map.mp last
  rw [← same, String.toList_ofList]
  exact not_mem_of_mem_split member

/-- What stands before the last occurrence of a character, nothing when it does not occur. -/
def beforeLast (separator : Char) (s : String) : String :=
  String.intercalate separator.toString (pieces separator s).dropLast

/-- The text without the occurrences of a character at its end. -/
def trimEnd (c : Char) (s : String) : String :=
  String.ofList (s.toList.reverse.dropWhile (· = c)).reverse

end BusStub.Text
