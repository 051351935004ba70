import BusStub.Signature.BusType
import BusStub.Signature.Scan

/-! Signatures as texts. No signature is the beginning of another, so the text tells the type. The scanners
that look at a signature without reading it whole see what the type says: its shape, and the struct or
dictionary below its arrays. -/

namespace BusStub

theorem Scalar.code_ne (kind : Scalar) {c : Char} (other : Scalar.ofCode? c = none) : kind.code ≠ c := by
  rintro rfl
  simp at other

theorem Scalar.code_inj {first second : Scalar} (same : first.code = second.code) : first = second := by
  simpa using congrArg Scalar.ofCode? same

namespace BusType

/-- A signature begins with a code or with an opening round bracket. -/
theorem chars_eq_cons (type : BusType) :
    ∃ c rest, type.chars = c :: rest ∧ c ≠ ')' ∧ c ≠ '{' ∧ c ≠ '}' := by
  cases type with
  | basic kind => exact ⟨kind.code, [], rfl, kind.code_ne rfl, kind.code_ne rfl, kind.code_ne rfl⟩
  | variant => exact ⟨'v', [], rfl, by decide, by decide, by decide⟩
  | struct members => exact ⟨'(', _, rfl, by decide, by decide, by decide⟩
  | array element => exact ⟨'a', _, rfl, by decide, by decide, by decide⟩
  | dict key value => exact ⟨'a', _, rfl, by decide, by decide, by decide⟩

theorem chars_append_ne (type : BusType) (rest text : List Char) {c : Char} (bracket : c = ')' ∨ c = '{' ∨ c = '}') :
    type.chars ++ rest ≠ c :: text := by
  obtain ⟨first, more, begins, closing, opening, ending⟩ := type.chars_eq_cons
  rw [begins]
  rintro ⟨⟩
  rcases bracket with same | same | same
  · exact closing same
  · exact opening same
  · exact ending same

mutual
/-- Read from the front, a text holds at most one signature. -/
theorem chars_append_inj : (first second : BusType) → {left right : List Char} →
    first.chars ++ left = second.chars ++ right → first = second ∧ left = right
  | .basic kind, second, left, right, same => by
    cases second with
    | basic other =>
      obtain ⟨code, rest⟩ := List.cons.inj same
      exact ⟨congrArg basic (Scalar.code_inj code), rest⟩
    | variant | struct | array | dict => exact absurd (List.cons.inj same).1 (kind.code_ne rfl)
  | .variant, second, left, right, same => by
    cases second with
    | basic other => exact absurd (List.cons.inj same).1.symm (other.code_ne rfl)
    | variant => exact ⟨rfl, (List.cons.inj same).2⟩
    | struct | array | dict => exact absurd (List.cons.inj same).1 (by decide)
  | .struct members, second, left, right, same => by
    cases second with
    | basic other => exact absurd (List.cons.inj same).1.symm (other.code_ne rfl)
    | variant | array | dict => exact absurd (List.cons.inj same).1 (by decide)
    | struct others =>
      simp only [chars, List.cons_append, List.append_assoc, List.nil_append, List.cons.injEq, true_and] at same
      obtain ⟨rfl, rest⟩ := charsAll_append_inj members others same
      exact ⟨rfl, rest⟩
  | .array element, second, left, right, same => by
    cases second with
    | basic other => exact absurd (List.cons.inj same).1.symm (other.code_ne rfl)
    | variant | struct => exact absurd (List.cons.inj same).1 (by decide)
    | array other =>
      obtain ⟨rfl, rest⟩ := chars_append_inj element other (List.cons.inj same).2
      exact ⟨rfl, rest⟩
    | dict key value => exact absurd (List.cons.inj same).2 (chars_append_ne element _ _ (.inr (.inl rfl)))
  | .dict key value, second, left, right, same => by
    cases second with
    | basic other => exact absurd (List.cons.inj same).1.symm (other.code_ne rfl)
    | variant | struct => exact absurd (List.cons.inj same).1 (by decide)
    | array other => exact absurd (List.cons.inj same).2.symm (chars_append_ne other _ _ (.inr (.inl rfl)))
    | dict key' value' =>
      simp only [chars, List.cons_append, List.append_assoc, List.nil_append, List.cons.injEq, true_and] at same
      obtain ⟨code, values⟩ := same
      obtain ⟨rfl, rest⟩ := chars_append_inj value value' values
      obtain rfl := Scalar.code_inj code
      exact ⟨rfl, (List.cons.inj rest).2⟩

theorem charsAll_append_inj : (first second : List BusType) → {left right : List Char} →
    charsAll first ++ ')' :: left = charsAll second ++ ')' :: right → first = second ∧ left = right
  | [], [], _, _, same => ⟨rfl, (List.cons.inj same).2⟩
  | [], type :: _, _, _, same => by
    simp only [charsAll, List.nil_append, List.append_assoc] at same
    exact absurd same.symm (chars_append_ne type _ _ (.inl rfl))
  | type :: _, [], _, _, same => by
    simp only [charsAll, List.nil_append, List.append_assoc] at same
    exact absurd same (chars_append_ne type _ _ (.inl rfl))
  | type :: rest, other :: others, _, _, same => by
    simp only [charsAll, List.append_assoc] at same
    obtain ⟨rfl, tails⟩ := chars_append_inj type other same
    obtain ⟨rfl, after⟩ := charsAll_append_inj rest others tails
    exact ⟨rfl, after⟩
end

theorem chars_inj {first second : BusType} (same : first.chars = second.chars) : first = second :=
  (chars_append_inj first second (congrArg (· ++ []) same)).1

theorem text_inj {first second : BusType} (same : first.text = second.text) : first = second :=
  chars_inj (by simpa [text] using congrArg String.toList same)

mutual
/-- A signature holds nothing but codes and the marks of containers. -/
theorem not_mem_chars {c : Char} (code : Scalar.ofCode? c = none) (mark : c ∉ ['v', 'a', '(', ')', '{', '}']) :
    (type : BusType) → c ∉ type.chars
  | .basic kind => by simp [chars, (kind.code_ne code).symm]
  | .variant => by
    simp only [List.mem_cons, not_or] at mark
    simp [chars, mark]
  | .struct members => by
    have inside := not_mem_charsAll code mark members
    simp only [List.mem_cons, not_or] at mark
    simp [chars, mark, inside]
  | .array element => by
    have inside := not_mem_chars code mark element
    simp only [List.mem_cons, not_or] at mark
    simp [chars, mark, inside]
  | .dict key value => by
    have inside := not_mem_chars code mark value
    simp only [List.mem_cons, not_or] at mark
    simp [chars, mark, inside, (key.code_ne code).symm]

theorem not_mem_charsAll {c : Char} (code : Scalar.ofCode? c = none) (mark : c ∉ ['v', 'a', '(', ')', '{', '}']) :
    (types : List BusType) → c ∉ charsAll types
  | [] => List.not_mem_nil
  | type :: rest => by simp [charsAll, not_mem_chars code mark type, not_mem_charsAll code mark rest]
end

end BusType

namespace Scan

def shapeOfType : BusType → Shape
  | .basic kind => .basic kind
  | .variant => .variant
  | .struct _ => .struct
  | .array _ => .array
  | .dict _ _ => .dict

theorem shapeOf_chars (type : BusType) : shapeOf type.chars = shapeOfType type := by
  cases type with
  | basic kind => cases kind <;> rfl
  | variant | struct | dict => rfl
  | array element =>
    obtain ⟨c, rest, begins, -, opening, -⟩ := element.chars_eq_cons
    simp [BusType.chars, begins, shapeOf, opening, shapeOfType]

theorem shape_text (type : BusType) : shape type.text = shapeOfType type := by
  rw [shape, BusType.text, String.toList_ofList, shapeOf_chars]

variable {opening closing : Char}

private theorem balanced_open (level : Nat) (rest : List Char) :
    balanced opening closing level (opening :: rest) =
      (balanced opening closing (level + 1) rest).map (opening :: ·) := by
  rw [balanced, if_pos rfl]

private theorem balanced_close (different : opening ≠ closing) (level : Nat) (rest : List Char) :
    balanced opening closing (level + 2) (closing :: rest) =
      (balanced opening closing (level + 1) rest).map (closing :: ·) := by
  rw [balanced, if_neg different.symm, if_pos rfl, if_neg (by omega)]
  rfl

private theorem balanced_last (different : opening ≠ closing) (rest : List Char) :
    balanced opening closing 1 (closing :: rest) = some [closing] := by
  rw [balanced, if_neg different.symm, if_pos rfl, if_pos (by omega)]

private theorem balanced_other {c : Char} (level : Nat) (rest : List Char) (one : c ≠ opening) (other : c ≠ closing) :
    balanced opening closing level (c :: rest) = (balanced opening closing level rest).map (c :: ·) := by
  rw [balanced, if_neg one, if_neg other]

private def Paired (opening closing : Char) : Prop :=
  (opening = '(' ∧ closing = ')') ∨ (opening = '{' ∧ closing = '}')

private theorem Paired.balanced_code (pair : Paired opening closing) (level : Nat) {c : Char} (rest : List Char)
    (plain : c ≠ '(' ∧ c ≠ ')' ∧ c ≠ '{' ∧ c ≠ '}') :
    balanced opening closing level (c :: rest) = (balanced opening closing level rest).map (c :: ·) := by
  rcases pair with ⟨rfl, rfl⟩ | ⟨rfl, rfl⟩
  · exact balanced_other level rest plain.1 plain.2.1
  · exact balanced_other level rest plain.2.2.1 plain.2.2.2

private theorem Scalar.plain (kind : Scalar) :
    kind.code ≠ '(' ∧ kind.code ≠ ')' ∧ kind.code ≠ '{' ∧ kind.code ≠ '}' :=
  ⟨kind.code_ne rfl, kind.code_ne rfl, kind.code_ne rfl, kind.code_ne rfl⟩

mutual
/-- Inside an open bracket, a whole type is passed over: its own brackets are balanced. -/
theorem balanced_chars {opening closing : Char} (pair : Paired opening closing) :
    (type : BusType) → (level : Nat) → (rest : List Char) →
    balanced opening closing (level + 1) (type.chars ++ rest) =
      (balanced opening closing (level + 1) rest).map (type.chars ++ ·)
  | .basic kind, level, rest => pair.balanced_code (level + 1) rest (Scalar.plain kind)
  | .variant, level, rest => pair.balanced_code (level + 1) rest (by decide)
  | .array element, level, rest => by
    simp only [BusType.chars, List.cons_append]
    rw [pair.balanced_code (level + 1) _ (by decide), balanced_chars pair element, Option.map_map]
    rfl
  | .struct members, level, rest => by
    simp only [BusType.chars, List.cons_append, List.append_assoc, List.nil_append]
    -- Where the other kind of bracket is counted, the struct's own are plain characters.
    rcases pair with ⟨rfl, rfl⟩ | ⟨rfl, rfl⟩
    · rw [balanced_open, balanced_charsAll (.inl ⟨rfl, rfl⟩) members, balanced_close (by decide)]
      simp [Option.map_map, Function.comp_def]
    · rw [balanced_other _ _ (by decide) (by decide), balanced_charsAll (.inr ⟨rfl, rfl⟩) members,
        balanced_other _ _ (by decide) (by decide)]
      simp [Option.map_map, Function.comp_def]
  | .dict key value, level, rest => by
    simp only [BusType.chars, List.cons_append, List.append_assoc, List.nil_append]
    rw [pair.balanced_code (level + 1) _ (by decide)]
    rcases pair with ⟨rfl, rfl⟩ | ⟨rfl, rfl⟩
    · have pair : Paired '(' ')' := .inl ⟨rfl, rfl⟩
      rw [balanced_other _ _ (by decide) (by decide), pair.balanced_code _ _ (Scalar.plain key),
        balanced_chars pair value, balanced_other _ _ (by decide) (by decide)]
      simp [Option.map_map, Function.comp_def]
    · have pair : Paired '{' '}' := .inr ⟨rfl, rfl⟩
      rw [balanced_open, pair.balanced_code _ _ (Scalar.plain key), balanced_chars pair value,
        balanced_close (by decide)]
      simp [Option.map_map, Function.comp_def]

theorem balanced_charsAll {opening closing : Char} (pair : Paired opening closing) :
    (types : List BusType) → (level : Nat) →
    (rest : List Char) →
    balanced opening closing (level + 1) (BusType.charsAll types ++ rest) =
      (balanced opening closing (level + 1) rest).map (BusType.charsAll types ++ ·)
  | [], level, rest => by simp [BusType.charsAll]
  | type :: types, level, rest => by
    simp only [BusType.charsAll, List.append_assoc]
    rw [balanced_chars pair type, balanced_charsAll pair types]
    simp [Option.map_map, Function.comp_def]
end

/-- Arrays are passed over until their innermost element begins. -/
private theorem fromMark_struct (members : List BusType) : (type : BusType) → type.peel.1 = .struct members →
    fromMark ['('] type.chars = some (BusType.struct members).chars
  | .struct others, peeled => by
    obtain rfl : others = members := by simpa [BusType.peel] using peeled
    rfl
  | .array element, peeled => fromMark_struct members element peeled

private theorem fromMark_dict (key : Scalar) (value : BusType) : (type : BusType) →
    type.peel.1 = .dict key value → fromMark ['a', '{'] type.chars = some (BusType.dict key value).chars
  | .dict key' value', peeled => by
    obtain ⟨rfl, rfl⟩ : key' = key ∧ value' = value := by simpa [BusType.peel] using peeled
    rfl
  | .array element, peeled => by
    have ih := fromMark_dict key value element peeled
    obtain ⟨c, rest, begins, -, opening, -⟩ := element.chars_eq_cons
    simp only [BusType.chars, begins] at ih ⊢
    rw [fromMark, if_neg (by simpa [List.isPrefixOf] using opening.symm), ih]

/-- The struct below all arrays of a type is what the scanner finds in its signature. -/
theorem innerStruct_text {type : BusType} {members : List BusType} (peeled : type.peel.1 = .struct members) :
    innerStruct type.text = (BusType.struct members).text := by
  have found : balanced '(' ')' 0 (BusType.struct members).chars = some (BusType.struct members).chars := by
    simp only [BusType.chars, List.cons_append]
    rw [balanced_open, balanced_charsAll (.inl ⟨rfl, rfl⟩) members, balanced_last (by decide)]
    simp
  rw [innerStruct, BusType.text, String.toList_ofList, fromMark_struct members type peeled, Option.bind_some, found]
  rfl

theorem innerDict_text {type : BusType} {key : Scalar} {value : BusType} (peeled : type.peel.1 = .dict key value) :
    innerDict type.text = (BusType.dict key value).text := by
  have pair : Paired '{' '}' := .inr ⟨rfl, rfl⟩
  have found : balanced '{' '}' 0 (BusType.dict key value).chars = some (BusType.dict key value).chars := by
    simp only [BusType.chars, List.cons_append]
    rw [balanced_other _ _ (by decide) (by decide), balanced_open, pair.balanced_code _ _ (Scalar.plain key),
      balanced_chars pair value, balanced_last (by decide)]
    simp
  rw [innerDict, BusType.text, String.toList_ofList, fromMark_dict key value type peeled, Option.bind_some, found]
  rfl

end Scan
end BusStub
