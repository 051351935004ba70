import BusStub.Proofs.CommentLines
import BusStub.Proofs.MemberNames
import BusStub.Proofs.SignatureReading
import BusStub.Text.Upper

/-! Braces in texts. A text leads from one depth of braces to another; texts that follow each other lead on, and what
only changes other characters does not matter. Signatures close the braces that they open. -/

namespace BusStub

namespace Text

/-- Before each of its ends a text has opened as many braces as it has closed, and in all equally many. -/
structure Balanced (text : String) : Prop where
  beginnings : ∀ beginning, beginning <+: text.toList → beginning.count '}' ≤ beginning.count '{'
  whole : text.toList.count '{' = text.toList.count '}'

/-- The depth after the characters, unless a brace is closed that was not opened. -/
def nesting (depth : Nat) : List Char → Option Nat
  | [] => some depth
  | c :: rest =>
    if c = '{' then nesting (depth + 1) rest
    else if c = '}' then if depth = 0 then none else nesting (depth - 1) rest
    else nesting depth rest

theorem nesting_append (depth : Nat) (first second : List Char) :
    nesting depth (first ++ second) = (nesting depth first).bind (nesting · second) := by
  induction first generalizing depth with
  | nil => rfl
  | cons c rest ih =>
    simp only [List.cons_append, nesting, ih]
    split
    · rfl
    · split
      · split <;> rfl
      · rfl

/-- One step of the scan, as the ways in which it succeeds. -/
theorem nesting_cons {before after : Nat} {c : Char} {rest : List Char} :
    nesting before (c :: rest) = some after ↔
      (c = '{' ∧ nesting (before + 1) rest = some after) ∨
      (c = '}' ∧ ∃ inner, before = inner + 1 ∧ nesting inner rest = some after) ∨
      (c ≠ '{' ∧ c ≠ '}' ∧ nesting before rest = some after) := by
  rw [nesting]
  by_cases opening : c = '{'
  · subst c
    simp
  · by_cases closing : c = '}'
    · subst c
      cases before <;> simp
    · simp [opening, closing]

theorem nesting_deeper {before after : Nat} {cs : List Char} (leads : nesting before cs = some after) (depth : Nat) :
    nesting (before + depth) cs = some (after + depth) := by
  induction cs generalizing before with
  | nil =>
    cases leads
    rfl
  | cons c rest ih =>
    rw [nesting_cons]
    obtain ⟨rfl, inside⟩ | ⟨rfl, inner, rfl, outside⟩ | ⟨one, other, leads⟩ := nesting_cons.mp leads
    · exact .inl ⟨rfl, Nat.add_right_comm before depth 1 ▸ ih inside⟩
    · exact .inr (.inl ⟨rfl, inner + depth, Nat.add_right_comm inner 1 depth, ih outside⟩)
    · exact .inr (.inr ⟨one, other, ih leads⟩)

theorem nesting_counts {before after : Nat} {cs : List Char} (leads : nesting before cs = some after) :
    before + cs.count '{' = after + cs.count '}' := by
  induction cs generalizing before with
  | nil =>
    cases leads
    rfl
  | cons c rest ih =>
    obtain ⟨rfl, inside⟩ | ⟨rfl, inner, rfl, outside⟩ | ⟨one, other, leads⟩ := nesting_cons.mp leads
    · have counts := ih inside
      rw [List.count_cons_self, List.count_cons_of_ne (by decide)]
      omega
    · have counts := ih outside
      rw [List.count_cons_self, List.count_cons_of_ne (by decide)]
      omega
    · rw [List.count_cons_of_ne one, List.count_cons_of_ne other]
      exact ih leads

/-- The braces among the characters. What else is there does not matter. -/
def braces (cs : List Char) : List Char :=
  cs.filter fun c => c = '{' || c = '}'

theorem nesting_braces (depth : Nat) (cs : List Char) : nesting depth (braces cs) = nesting depth cs := by
  unfold braces
  induction cs generalizing depth with
  | nil => rfl
  | cons c rest ih =>
    by_cases brace : c = '{' ∨ c = '}'
    · rw [List.filter_cons_of_pos (by simpa using brace), nesting, nesting, ih, ih, ih]
    · obtain ⟨one, other⟩ := not_or.mp brace
      rw [List.filter_cons_of_neg (by simpa using brace), nesting, if_neg one, if_neg other, ih]

theorem braces_append (first second : List Char) : braces (first ++ second) = braces first ++ braces second :=
  List.filter_append _ _

theorem braces_flatMap {α : Type} (items : List α) (f : α → List Char) :
    braces (items.flatMap f) = items.flatMap fun item => braces (f item) :=
  List.filter_flatMap

theorem braces_eq_nil {cs : List Char} (opening : '{' ∉ cs) (closing : '}' ∉ cs) : braces cs = [] := by
  refine List.filter_eq_nil_iff.mpr fun c member => ?_
  have one : c ≠ '{' := fun same => opening (same ▸ member)
  have other : c ≠ '}' := fun same => closing (same ▸ member)
  simp [one, other]

/-- The text leads from one depth to the other. -/
def Leads (before after : Nat) (text : String) : Prop :=
  nesting before text.toList = some after

instance (before after : Nat) (text : String) : Decidable (Leads before after text) :=
  inferInstanceAs (Decidable (nesting before text.toList = some after))

theorem Leads.append {before between after : Nat} {first second : String} (one : Leads before between first)
    (other : Leads between after second) : Leads before after (first ++ second) := by
  rw [Leads, String.toList_append, nesting_append, one, Option.bind_some]
  exact other

theorem Leads.literal {before after : Nat} {cs : List Char} (scanned : nesting before cs = some after) :
    Leads before after (String.ofList cs) := by
  rw [Leads, String.toList_ofList]
  exact scanned

/-- The text closes exactly the braces that it opens. -/
def Level (text : String) : Prop :=
  Leads 0 0 text

instance (text : String) : Decidable (Level text) :=
  inferInstanceAs (Decidable (Leads 0 0 text))

namespace Level

variable {first second text : String}

theorem leads (level : Level text) (depth : Nat) : Leads depth depth text := by
  have deeper := nesting_deeper level depth
  rwa [Nat.zero_add] at deeper

/-- The characters are matched with those of the literal, so nothing decodes the text. -/
theorem literal {cs : List Char} (scanned : nesting 0 cs = some 0) : Level (String.ofList cs) :=
  Leads.literal scanned

theorem append (one : Level first) (other : Level second) : Level (first ++ second) :=
  Leads.append one other

theorem append₃ {third : String} (one : Level first) (two : Level second) (three : Level third) :
    Level (first ++ second ++ third) :=
  (one.append two).append three

theorem congr (same : braces first.toList = braces second.toList) (level : Level first) : Level second := by
  rwa [Level, Leads, ← nesting_braces, ← same, nesting_braces]

theorem plain (opening : '{' ∉ text.toList) (closing : '}' ∉ text.toList) : Level text := by
  rw [Level, Leads, ← nesting_braces, braces_eq_nil opening closing]
  rfl

/-- Every beginning leads somewhere, so what it closes was opened. -/
theorem balanced (level : Level text) : Balanced text where
  beginnings := by
    rintro beginning ⟨rest, whole⟩
    have scanned : nesting 0 text.toList = some 0 := level
    rw [← whole, nesting_append] at scanned
    obtain ⟨depth, leads, -⟩ := Option.bind_eq_some_iff.mp scanned
    have counts := nesting_counts leads
    omega
  whole := by
    have counts := nesting_counts level
    omega

theorem intercalate {separator : String} {texts : List String} (between : Level separator)
    (each : ∀ text ∈ texts, Level text) : Level (String.intercalate separator texts) := by
  induction texts with
  | nil => exact .plain (by simp) (by simp)
  | cons text rest ih =>
    obtain ⟨first, others⟩ := List.forall_mem_cons.mp each
    cases rest with
    | nil =>
      rw [String.intercalate_singleton]
      exact first
    | cons next rest =>
      rw [String.intercalate_cons_cons]
      exact (first.append between).append (ih others)

theorem join {texts : List String} (each : ∀ text ∈ texts, Level text) : Level (String.join texts) := by
  rw [Level, Leads, String.toList_join]
  induction texts with
  | nil => rfl
  | cons text rest ih =>
    obtain ⟨first, others⟩ := List.forall_mem_cons.mp each
    rw [List.flatMap_cons, nesting_append, show nesting 0 text.toList = some 0 from first]
    exact ih others

end Level

theorem isBlank_not_brace {c : Char} (blank : isBlank c = true) : c ≠ '{' ∧ c ≠ '}' := by
  constructor <;> rintro rfl <;> exact absurd blank (by decide)

theorem braces_blank {gap : List Char} (blank : ∀ c ∈ gap, isBlank c = true) : braces gap = [] :=
  braces_eq_nil (fun member => (isBlank_not_brace (blank _ member)).1 rfl)
    fun member => (isBlank_not_brace (blank _ member)).2 rfl

theorem Spelled.braces_eq {words : List String} {cs : List Char} (spelled : Spelled words cs) :
    words.flatMap (fun word => braces word.toList) = braces cs := by
  induction spelled with
  | done blank => exact (braces_blank blank).symm
  | word blank letters ended others ih =>
    rw [List.flatMap_cons, ih, braces_append, braces_append, braces_blank blank, List.nil_append]

theorem braces_unwords (row : List String) :
    braces (unwords row).toList = row.flatMap fun word => braces word.toList := by
  induction row with
  | nil => rfl
  | cons word row ih =>
    cases row with
    | nil => simp [unwords]
    | cons next row =>
      have blank : braces " ".toList = [] := rfl
      rw [unwords_cons, String.toList_append, String.toList_append, braces_append, braces_append, blank, ih,
        List.append_nil]
      rfl

theorem braces_digits (n : Nat) : braces (toString n).toList = [] := by
  have digit (c : Char) (member : c ∈ (toString n).toList) : c.isDigit := repr_digits n c member
  refine braces_eq_nil (fun member => ?_) fun member => ?_
  · exact absurd (digit _ member) (by decide)
  · exact absurd (digit _ member) (by decide)

theorem braces_flat (text : String) : braces (flat text).toList = braces text.toList := by
  rw [flat, String.toList_ofList]
  induction text.toList with
  | nil => rfl
  | cons c rest ih =>
    unfold braces at ih ⊢
    by_cases index : c = '[' ∨ c = ']'
    · rcases index with rfl | rfl <;> simpa using ih
    · obtain ⟨one, other⟩ := not_or.mp index
      by_cases dot : c = '.'
      · subst c
        simpa using ih
      · simp [List.filter_cons, one, other, dot, ih]

theorem level_digits (n : Nat) : Level (toString n) := by
  rw [Level, Leads, ← nesting_braces, braces_digits]
  rfl

theorem level_flat {text : String} (level : Level text) : Level (flat text) :=
  level.congr (braces_flat text).symm

theorem level_countName {text : String} (level : Level text) : Level (countName text) :=
  level.append (.literal rfl)

theorem level_counter (depth : Nat) : Level (counter depth) :=
  Level.append (.literal rfl) (level_digits depth)

theorem ofNat_inj {n : Nat} {c : Char} (some : c ≠ Char.ofNat 0) (same : Char.ofNat n = c) : n = c.toNat := by
  subst c
  by_cases valid : n.isValidChar
  · rw [Char.ofNat, dif_pos valid]
    rfl
  · rw [Char.ofNat, dif_neg valid] at some
    exact absurd rfl some

theorem braces_ofNat {codes : List Nat} (plain : ∀ code ∈ codes, code ≠ 0x7B ∧ code ≠ 0x7D) :
    braces (codes.map Char.ofNat) = [] := by
  refine braces_eq_nil (fun member => ?_) fun member => ?_
  · obtain ⟨code, inside, same⟩ := List.mem_map.mp member
    exact (plain code inside).1 (ofNat_inj (by decide) same)
  · obtain ⟨code, inside, same⟩ := List.mem_map.mp member
    exact (plain code inside).2 (ofNat_inj (by decide) same)

theorem braces_upperChar (c : Char) : braces (upperChar c) = braces [c] := by
  have ascii : ∀ n < 0x80, braces [(Char.ofNat n).toUpper] = braces [Char.ofNat n] := by decide
  have sequences : ∀ entry ∈ upperSequences, ∀ code ∈ entry.2, code ≠ 0x7B ∧ code ≠ 0x7D := by decide
  have ranges : ∀ range ∈ upperRanges, 0x7D < range.2.2.2 ∨ range.2.2.2 + (range.2.1 - range.1) < 0x7B := by
    decide +kernel
  unfold upperChar
  -- Below 0x80 there are few enough characters to try them all; above, the tables have to lead to other ones than braces.
  split
  next narrow => simpa using ascii c.toNat narrow
  next wide =>
    have alone : braces [c] = [] := by
      refine braces_eq_nil (fun member => wide ?_) fun member => wide ?_
      · rw [← List.mem_singleton.mp member]
        decide
      · rw [← List.mem_singleton.mp member]
        decide
    rw [alone]
    split
    next codes found =>
      obtain ⟨before, after, same, -⟩ := List.lookup_eq_some_iff.mp found
      exact braces_ofNat (sequences (c.toNat, codes) (by simp [same]))
    next =>
      dsimp only
      split
      next first last step image found =>
        have inside := ranges _ (List.mem_of_find?_eq_some found)
        have fits := List.find?_some found
        simp only [Bool.and_eq_true, decide_eq_true_eq] at fits
        have plain : ∀ code ∈ [image + (c.toNat - first)], code ≠ 0x7B ∧ code ≠ 0x7D := by
          rw [List.forall_mem_singleton]
          dsimp only at inside
          omega
        exact braces_ofNat plain
      next => exact alone

theorem braces_upper (text : String) : braces (upper text).toList = braces text.toList := by
  rw [upper, String.toList_ofList, braces_flatMap]
  simp only [braces_upperChar]
  rw [← braces_flatMap]
  simp

theorem braces_capitalize (text : String) : braces (capitalize text).toList = braces text.toList := by
  unfold capitalize
  split
  next none => rw [none]; rfl
  next c rest some =>
    rw [some, String.toList_ofList, braces_append, braces_upperChar, ← braces_append]
    rfl

theorem level_upper {text : String} (level : Level text) : Level (upper text) :=
  level.congr (braces_upper text).symm

theorem level_capitalize {text : String} (level : Level text) : Level (capitalize text) :=
  level.congr (braces_capitalize text).symm

end Text

namespace BusType

mutual
theorem nesting_chars : (type : BusType) → (depth : Nat) → Text.nesting depth type.chars = some depth
  | .basic kind, depth => by cases kind <;> rfl
  | .variant, depth => rfl
  | .struct members, depth => by
    have inside : Text.nesting depth (charsAll members ++ [')']) = some depth := by
      rw [Text.nesting_append, nesting_charsAll members depth]
      rfl
    exact inside
  | .array element, depth => nesting_chars element depth
  | .dict key value, depth => by
    have closed : Text.nesting (depth + 1) (value.chars ++ ['}']) = some depth := by
      rw [Text.nesting_append, nesting_chars value (depth + 1)]
      rfl
    cases key <;> exact closed

theorem nesting_charsAll : (types : List BusType) → (depth : Nat) → Text.nesting depth (charsAll types) = some depth
  | [], depth => rfl
  | type :: rest, depth => by
    rw [charsAll, Text.nesting_append, nesting_chars type depth, Option.bind_some, nesting_charsAll rest depth]
end

theorem level_text (type : BusType) : Text.Level type.text := by
  rw [Text.Level, Text.Leads, text, String.toList_ofList, nesting_chars]

end BusType

namespace Comment
open Text

variable {level width : Nat} {text : String} {rows : List (List (List String))}

/-- All words of a text stand in its rows, in order. -/
theorem Covers.whole (covers : Covers width text rows) : rows.flatten.flatten = words text := by
  rw [words_lines]
  unfold Covers at covers
  generalize Text.lines text = paragraphs at covers
  induction covers with
  | nil => rfl
  | cons wraps _ ih => rw [List.flatten_cons, List.flatten_append, wraps.whole, ih, List.flatMap_cons]

theorem braces_indent (level : Nat) : braces (Layout.indent level).toList = [] := by
  rw [Layout.indent, String.toList_ofList]
  exact braces_blank fun c member => by rw [List.eq_of_mem_replicate member]; rfl

theorem braces_rowLine (level : Nat) (row : List String) :
    braces (rowLine level row).toList = row.flatMap fun word => braces word.toList := by
  have star : braces " * ".toList = [] := rfl
  rw [rowLine, String.toList_append, braces_append, braces_indent, List.nil_append]
  split
  next none =>
    subst row
    rfl
  next => rw [String.toList_append, braces_append, star, braces_unwords, List.nil_append]

/-- A comment has the braces of its text, however it is set. -/
theorem braces_lines (level : Nat) (text : String) :
    braces ((Comment.lines level text).flatMap String.toList) = braces text.toList := by
  have opening : braces "/*".toList = [] := rfl
  have closing : braces " */".toList = [] := rfl
  cases fit : fits level text with
  | true =>
    have first : braces "/* ".toList = [] := rfl
    rw [lines_single fit, List.flatMap_singleton]
    simp only [String.toList_append, braces_append, braces_indent, first, closing, List.nil_append, List.append_nil]
  | false =>
    obtain ⟨rows, covers, laid⟩ := lines_wrapped fit
    have body : (rows.flatten.map (rowLine level)).flatMap (fun line => braces line.toList) = braces text.toList := by
      rw [List.flatMap_map, ← (words_spelled text).braces_eq, ← covers.whole]
      generalize rows.flatten = rows
      rw [List.flatten_eq_flatMap, List.flatMap_assoc]
      simp only [braces_rowLine]
      rfl
    rw [laid, rowLines, braces_flatMap, List.flatMap_append, List.flatMap_cons, List.flatMap_singleton, body]
    simp only [String.toList_append, braces_append, braces_indent, opening, closing, List.nil_append, List.append_nil]

end Comment
end BusStub
