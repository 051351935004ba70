import BusStub.Proofs.SignatureReading
import BusStub.Proofs.SignatureScans

/-! Scanners that work by position. They go through a text by character or by byte, count open brackets up and down, and
cut out what they have found between two positions. Both could go wrong, and for no text does: no bracket is closed
before the first is open, and the byte of a bracket belongs to no other character. -/

namespace BusStub.Scan

inductive Fault where
  /-- More brackets are closed than are open. -/
  | underflow
  /-- A position that is not between two characters of the text. -/
  | split
  deriving DecidableEq

/-- How many brackets are left open when one is closed. -/
def lower : Nat → Except Fault Nat
  | 0 => .error .underflow
  | level + 1 => .ok level

/-- The position after the item that closes the first bracket of a list of items, which have these sizes. -/
def closedAt {α : Type} [DecidableEq α] (opening closing : α) (size : α → Nat) (level position : Nat) :
    List α → Except Fault (Option Nat)
  | [] => .ok none
  | item :: rest =>
    if item = opening then closedAt opening closing size (level + 1) (position + size item) rest
    else if item = closing then do
      let level ← lower level
      if level = 0 then .ok (some (position + 1))
      else closedAt opening closing size level (position + size item) rest
    else closedAt opening closing size level (position + size item) rest

/-- What is before a position and after it. -/
def cut (position : Nat) : List Char → Except Fault (List Char × List Char)
  | [] => if position = 0 then .ok ([], []) else .error .split
  | c :: rest =>
    if position = 0 then .ok ([], c :: rest)
    else if position < c.utf8Size then .error .split
    else do
      let (before, after) ← cut (position - c.utf8Size) rest
      return (c :: before, after)

def slice (start stop : Nat) (text : List Char) : Except Fault (List Char) := do
  let (before, _) ← cut stop text
  let (_, inside) ← cut start before
  return inside

/-- Where a text begins with the mark for the first time. -/
def markedAt (mark : List Char) (position : Nat) : List Char → Option Nat
  | [] => none
  | c :: rest =>
    if mark.isPrefixOf (c :: rest) then some position else markedAt mark (position + c.utf8Size) rest

/-- The struct at the first `(`, by the positions of characters. -/
def structAt (text : List Char) : Except Fault (List Char) :=
  match markedAt ['('] 0 text with
  | none => .ok []
  | some start => do
    let (_, rest) ← cut start text
    match ← closedAt '(' ')' Char.utf8Size 0 0 rest with
    | none => .ok []
    | some size => slice start (start + size) text

/-- The dictionary at the first `a{`, by the positions of bytes. -/
def dictAt (text : List Char) : Except Fault (List Char) :=
  match markedAt ['a', '{'] 0 text with
  | none => .ok []
  | some start => do
    let bytes := text.flatMap String.utf8EncodeChar
    match ← closedAt '{'.toUInt8 '}'.toUInt8 (fun _ => 1) 0 start (bytes.drop start) with
    | none => .ok []
    | some stop => slice start stop text

/-- How many bytes a text takes. -/
def width (text : List Char) : Nat :=
  (text.flatMap String.utf8EncodeChar).length

theorem width_cons (c : Char) (rest : List Char) : width (c :: rest) = c.utf8Size + width rest := by
  simp [width, String.length_utf8EncodeChar]

theorem width_append (first second : List Char) : width (first ++ second) = width first + width second := by
  simp [width]

theorem cut_width (before after : List Char) : cut (width before) (before ++ after) = .ok (before, after) := by
  induction before with
  | nil => cases after <;> rfl
  | cons c rest ih =>
    have some : 0 < c.utf8Size := c.utf8Size_pos
    rw [List.cons_append, cut, width_cons, if_neg (by omega), if_neg (by omega), Nat.add_sub_cancel_left, ih]
    rfl

/-- What stands between two positions is cut out as it is. -/
theorem slice_width (before found after : List Char) :
    slice (width before) (width before + width found) (before ++ (found ++ after)) = .ok found := by
  rw [slice, ← width_append, ← List.append_assoc, cut_width]
  simp only [bind, Except.bind, cut_width]
  rfl

/-- A mark is found at the position after what is in front of it. -/
theorem markedAt_spec (mark text : List Char) (position : Nat) :
    (fromMark mark text = none ∧ markedAt mark position text = none) ∨
      ∃ before after, text = before ++ after ∧ fromMark mark text = some after ∧
        markedAt mark position text = some (position + width before) := by
  induction text generalizing position with
  | nil => exact .inl ⟨rfl, rfl⟩
  | cons c rest ih =>
    by_cases begins : mark.isPrefixOf (c :: rest)
    · exact .inr ⟨[], c :: rest, rfl, by rw [fromMark, if_pos begins], by rw [markedAt, if_pos begins]; rfl⟩
    · rw [fromMark, if_neg begins, markedAt, if_neg begins]
      rcases ih (position + c.utf8Size) with ⟨none, none'⟩ | ⟨before, after, rfl, found, at'⟩
      · exact .inl ⟨none, none'⟩
      · refine .inr ⟨c :: before, after, rfl, found, ?_⟩
        rw [at', Nat.add_assoc, width_cons]

section
variable {opening closing : Char}

/-- While a bracket is open, none is closed too many. -/
theorem closedAt_balanced (single : closing.utf8Size = 1) (text : List Char) (level position : Nat) :
    closedAt opening closing Char.utf8Size (level + 1) position text =
      .ok ((balanced opening closing (level + 1) text).map fun found => position + width found) := by
  induction text generalizing level position with
  | nil => rfl
  | cons c rest ih =>
    have further (found : List Char) : position + c.utf8Size + width found = position + width (c :: found) := by
      rw [width_cons, Nat.add_assoc]
    rw [closedAt, balanced]
    split
    next => simp only [ih, Option.map_map, Function.comp_def, further]
    next =>
      split
      next same =>
        cases level with
        | zero => simp [lower, bind, Except.bind, width, same, single, String.length_utf8EncodeChar]
        | succ level =>
          have deeper : ¬ level + 1 + 1 ≤ 1 := by omega
          simp only [lower, bind, Except.bind, Nat.succ_ne_zero, if_false, deeper, Nat.add_sub_cancel, ih,
            Option.map_map, Function.comp_def, further]
      next => simp only [ih, Option.map_map, Function.comp_def, further]

theorem encode_narrow {d : Char} (narrow : d.toNat < 128) : String.utf8EncodeChar d = [d.toUInt8] := by
  have small : d.val.toNat ≤ 127 := Nat.le_of_lt_succ narrow
  unfold String.utf8EncodeChar
  exact if_pos small

theorem encode_wide {c : Char} (wide : 128 ≤ c.toNat) : ∀ byte ∈ String.utf8EncodeChar c, 128 ≤ byte.toNat := by
  have value : c.val.toNat = c.toNat := rfl
  have large : ¬ c.toNat ≤ 127 := by omega
  unfold String.utf8EncodeChar
  simp only [value, if_neg large]
  split
  · simp
    omega
  · split <;> (simp; omega)

/-- The byte of a narrow character belongs to no other character. -/
theorem eq_of_byte {c d : Char} (narrow : d.toNat < 128) (inside : d.toUInt8 ∈ String.utf8EncodeChar c) : c = d := by
  have byte {e : Char} (narrow : e.toNat < 128) : e.toUInt8.toNat = e.toNat := by
    rw [Char.toUInt8, UInt32.toNat_toUInt8]
    exact Nat.mod_eq_of_lt (Nat.lt_trans narrow (by decide))
  rcases Nat.lt_or_ge c.toNat 128 with other | wide
  · rw [encode_narrow other, List.mem_singleton] at inside
    have same := congrArg UInt8.toNat inside
    rw [byte narrow, byte other] at same
    exact (Char.toNat_inj.mp same).symm
  · have large := encode_wide wide _ inside
    rw [byte narrow] at large
    omega

theorem closedAt_append {opening closing : UInt8} {items rest : List UInt8}
    (others : ∀ item ∈ items, item ≠ opening ∧ item ≠ closing) (level position : Nat) :
    closedAt opening closing (fun _ => 1) level position (items ++ rest) =
      closedAt opening closing (fun _ => 1) level (position + items.length) rest := by
  induction items generalizing position with
  | nil => rfl
  | cons item items ih =>
    obtain ⟨⟨one, other⟩, others⟩ := List.forall_mem_cons.mp others
    rw [List.cons_append, closedAt, if_neg one, if_neg other, ih others, List.length_cons, Nat.add_assoc,
      Nat.add_comm 1]

/-- To go from byte to byte comes to the same as to go from character to character. -/
theorem closedAt_bytes (narrow : opening.toNat < 128) (narrow' : closing.toNat < 128) (text : List Char)
    (level position : Nat) :
    closedAt opening.toUInt8 closing.toUInt8 (fun _ => 1) level position (text.flatMap String.utf8EncodeChar) =
      closedAt opening closing Char.utf8Size level position text := by
  induction text generalizing level position with
  | nil => rfl
  | cons c rest ih =>
    rw [List.flatMap_cons, closedAt]
    by_cases opens : c = opening
    · subst opens
      have size : c.utf8Size = 1 := by rw [← String.length_utf8EncodeChar, encode_narrow narrow]; rfl
      simp only [encode_narrow narrow, List.cons_append, List.nil_append, closedAt, if_true, ih, size]
    · by_cases closes : c = closing
      · subst closes
        have size : c.utf8Size = 1 := by rw [← String.length_utf8EncodeChar, encode_narrow narrow']; rfl
        have different : c.toUInt8 ≠ opening.toUInt8 := by
          intro same
          exact opens (eq_of_byte narrow (by rw [encode_narrow narrow', same]; exact List.mem_singleton_self _))
        simp only [encode_narrow narrow', List.cons_append, List.nil_append, closedAt, if_neg different, if_neg opens,
          if_true, ih, size]
      · have others : ∀ byte ∈ String.utf8EncodeChar c, byte ≠ opening.toUInt8 ∧ byte ≠ closing.toUInt8 := by
          intro byte inside
          constructor
          · rintro rfl
            exact opens (eq_of_byte narrow inside)
          · rintro rfl
            exact closes (eq_of_byte narrow' inside)
        rw [closedAt_append others, if_neg opens, if_neg closes, ih, String.length_utf8EncodeChar]

end

/-- Where a scanner that has counted the brackets cuts the text. -/
theorem slice_inner {mark before rest : List Char} {opening closing : Char} (opens : Opens mark opening closing)
    {found : List Char} (result : balanced opening closing 1 rest = some found) :
    slice (width before) (width before + width (mark ++ found)) (before ++ (mark ++ rest)) = .ok (mark ++ found) := by
  have scanned := balanced_scanned opens.different rest 0
  rw [result] at scanned
  obtain ⟨after, rfl⟩ := scanned.begins
  rw [← List.append_assoc mark, slice_width]

theorem structAt_eq (text : List Char) : structAt text = .ok (inner ['('] '(' ')' text) := by
  rcases markedAt_spec ['('] text 0 with ⟨none, none'⟩ | ⟨before, after, rfl, found, marked⟩
  · rw [structAt, inner, none, none']
    rfl
  · obtain ⟨⟨rest, rfl⟩, -⟩ := fromMark_some found
    have counted : closedAt '(' ')' Char.utf8Size 0 0 (['('] ++ rest) =
        .ok ((balanced '(' ')' 1 rest).map fun found => 1 + width found) :=
      closedAt_balanced (by decide) rest 0 1
    rw [structAt, inner, found, marked, Nat.zero_add, Option.bind_some, opens_struct.scan]
    simp only [cut_width, counted, bind, Except.bind]
    cases result : balanced '(' ')' 1 rest with
    | none => rfl
    | some tail =>
      have size : width (['('] ++ tail) = 1 + width tail := width_cons '(' tail
      simp only [Option.map_some, ← size]
      exact slice_inner opens_struct result

theorem dictAt_eq (text : List Char) : dictAt text = .ok (inner ['a', '{'] '{' '}' text) := by
  rcases markedAt_spec ['a', '{'] text 0 with ⟨none, none'⟩ | ⟨before, after, rfl, found, marked⟩
  · rw [dictAt, inner, none, none']
    rfl
  · obtain ⟨⟨rest, rfl⟩, -⟩ := fromMark_some found
    have counted : closedAt '{' '}' Char.utf8Size 0 (width before) (['a', '{'] ++ rest) =
        .ok ((balanced '{' '}' 1 rest).map fun found => width before + 1 + 1 + width found) :=
      closedAt_balanced (by decide) rest 0 (width before + 1 + 1)
    have bytes : ((before ++ (['a', '{'] ++ rest)).flatMap String.utf8EncodeChar).drop (width before) =
        (['a', '{'] ++ rest).flatMap String.utf8EncodeChar := by
      rw [List.flatMap_append, width, List.drop_left]
    rw [dictAt, inner, found, marked, Nat.zero_add, Option.bind_some, opens_dict.scan]
    simp only [bytes, closedAt_bytes (by decide : '{'.toNat < 128) (by decide : '}'.toNat < 128), counted, bind,
      Except.bind]
    cases result : balanced '{' '}' 1 rest with
    | none => rfl
    | some tail =>
      have size : width before + width (['a', '{'] ++ tail) = width before + 1 + 1 + width tail := by
        rw [List.cons_append, List.cons_append, List.nil_append, width_cons, width_cons, ← Nat.add_assoc,
          ← Nat.add_assoc]
        rfl
      simp only [Option.map_some, ← size]
      exact slice_inner opens_dict result

/-- What holds of a scanner for every text: it works by position as well, without a fault; it finds what it is to
find, and looking again finds the same. -/
structure Scans (mark : List Char) (opening closing : Char) (byPosition : List Char → Except Fault (List Char))
    (scan : String → String) (text : String) : Prop where
  safe : byPosition text.toList = .ok (scan text).toList
  finds : Finds mark opening closing text.toList (scan text).toList
  again : scan (scan text) = scan text

/-- What the scanners see of a type in its signature. -/
structure Sees (signature : String) (type : BusType) : Prop where
  shape : shape signature = shapeOfType type
  struct : ∀ members, type.peel.1 = .struct members → innerStruct signature = (BusType.struct members).text ∧
    (type = .struct members → innerStruct signature = signature)
  dict : ∀ key value, type.peel.1 = .dict key value → innerDict signature = (BusType.dict key value).text ∧
    (type = .dict key value → innerDict signature = signature)

theorem innerStruct_scans (text : String) : Scans ['('] '(' ')' structAt innerStruct text where
  safe := by rw [structAt_eq, innerStruct_toList]
  finds := by
    rw [innerStruct_toList]
    exact opens_struct.finds text.toList
  again := by
    apply String.toList_inj.mp
    rw [innerStruct_toList, innerStruct_toList, opens_struct.inner_inner]

theorem innerDict_scans (text : String) : Scans ['a', '{'] '{' '}' dictAt innerDict text where
  safe := by rw [dictAt_eq, innerDict_toList]
  finds := by
    rw [innerDict_toList]
    exact opens_dict.finds text.toList
  again := by
    apply String.toList_inj.mp
    rw [innerDict_toList, innerDict_toList, opens_dict.inner_inner]

theorem sees_text (type : BusType) : Sees type.text type where
  shape := shape_text type
  struct members peeled := by
    refine ⟨innerStruct_text peeled, ?_⟩
    rintro rfl
    exact innerStruct_text peeled
  dict key value peeled := by
    refine ⟨innerDict_text peeled, ?_⟩
    rintro rfl
    exact innerDict_text peeled

/-- The scanners are safe for every text, and of a text that is a signature they see what reading it whole shows. -/
theorem scanners_agree (text : String) :
    Scans ['('] '(' ')' structAt innerStruct text ∧ Scans ['a', '{'] '{' '}' dictAt innerDict text ∧
      ∀ type, BusType.parse text = .ok type → Sees text type := by
  refine ⟨innerStruct_scans text, innerDict_scans text, ?_⟩
  intro type parsed
  obtain rfl := BusType.text_of_parse parsed
  exact sees_text type

theorem scanners_agree_nested :
    BusType.parse "aa(ia{sv})" = .ok (.array (.array (.struct [.basic .int32, .dict .string .variant]))) ∧
      innerStruct "aa(ia{sv})" = "(ia{sv})" := by
  have parsed : BusType.parse "aa(ia{sv})" =
      .ok (.array (.array (.struct [.basic .int32, .dict .string .variant]))) :=
    rfl
  exact ⟨parsed, (((scanners_agree "aa(ia{sv})").2.2 _ parsed).struct _ rfl).1⟩

end BusStub.Scan
