import Mathlib.Data.List.Chain
import BusStub.Layout
import BusStub.Proofs.Runs

/-! The lines of a comment. A comment that does not fit on one line is filled paragraph by paragraph: no word is lost or
moved, a line is left only when the next word does not fit, and only a single word can be too wide. -/

namespace BusStub

namespace Text

structure IsWord (word : String) : Prop where
  some : word ≠ ""
  plain : ∀ c ∈ word.toList, isBlank c = false

/-- The words stand in the characters in this order; what is before, between and after them is blank. -/
inductive Spelled : List String → List Char → Prop where
  | done {gap : List Char} (blank : ∀ c ∈ gap, isBlank c = true) : Spelled [] gap
  | word {gap rest : List Char} {word : String} {words : List String} (blank : ∀ c ∈ gap, isBlank c = true)
      (letters : IsWord word) (ended : ∀ c ∈ rest.head?, isBlank c = true) (others : Spelled words rest) :
      Spelled (word :: words) (gap ++ word.toList ++ rest)

namespace Spelled

variable {words : List String} {cs : List Char}

theorem after_blank {c : Char} (blank : isBlank c = true) (spelled : Spelled words cs) : Spelled words (c :: cs) := by
  cases spelled with
  | done gap => exact .done (List.forall_mem_cons.mpr ⟨blank, gap⟩)
  | word gap letters ended others => exact .word (List.forall_mem_cons.mpr ⟨blank, gap⟩) letters ended others

/-- The letters read so far, last first, are a word when what is left begins with a blank. -/
theorem ended {letters : List Char} (some : letters ≠ []) (plain : ∀ c ∈ letters, isBlank c = false)
    (stops : ∀ c ∈ cs.head?, isBlank c = true) (spelled : Spelled words cs) :
    Spelled (String.ofList letters.reverse :: words) (letters.reverse ++ cs) := by
  have word : IsWord (String.ofList letters.reverse) := ⟨by simpa using some, by simpa using plain⟩
  have whole := Spelled.word (List.forall_mem_nil _) word stops spelled
  rwa [List.nil_append, String.toList_ofList] at whole

theorem isWord (spelled : Spelled words cs) : ∀ word ∈ words, IsWord word := by
  induction spelled with
  | done => exact List.forall_mem_nil _
  | word _ letters _ _ ih => exact List.forall_mem_cons.mpr ⟨letters, ih⟩

end Spelled

/-- The induction is on the characters that are left. The letters of the word being read are part of what is spelled. -/
theorem wordsFrom_spelled (cs : List Char) {unfinished : List Char} (letters : ∀ c ∈ unfinished, isBlank c = false) :
    Spelled (wordsFrom unfinished cs) (unfinished.reverse ++ cs) := by
  induction cs generalizing unfinished with
  | nil =>
    rw [wordsFrom]
    split
    next none =>
      rw [List.isEmpty_iff.mp none]
      exact .done (List.forall_mem_nil _)
    next some => exact .ended (by simpa using some) letters nofun (.done (List.forall_mem_nil _))
  | cons c rest ih =>
    rw [wordsFrom]
    split
    next blank =>
      have others : Spelled (wordsFrom [] rest) (c :: rest) := (ih (List.forall_mem_nil _)).after_blank blank
      split
      next none =>
        rw [List.isEmpty_iff.mp none]
        exact others
      next some => exact .ended (by simpa using some) letters (by simpa using blank) others
    next letter =>
      have longer : ∀ d ∈ c :: unfinished, isBlank d = false :=
        List.forall_mem_cons.mpr ⟨by simpa using letter, letters⟩
      have spelled := ih longer
      rwa [List.reverse_cons, List.append_assoc] at spelled

theorem wordsFrom_gap {gap : List Char} (blank : ∀ c ∈ gap, isBlank c = true) (rest : List Char) :
    wordsFrom [] (gap ++ rest) = wordsFrom [] rest := by
  induction gap with
  | nil => rfl
  | cons c gap ih =>
    obtain ⟨first, others⟩ := List.forall_mem_cons.mp blank
    rw [List.cons_append, wordsFrom, if_pos first, if_pos List.isEmpty_nil, ih others]

theorem wordsFrom_letters {letters : List Char} (plain : ∀ c ∈ letters, isBlank c = false)
    (unfinished rest : List Char) :
    wordsFrom unfinished (letters ++ rest) = wordsFrom (letters.reverse ++ unfinished) rest := by
  induction letters generalizing unfinished with
  | nil => rfl
  | cons c letters ih =>
    obtain ⟨first, others⟩ := List.forall_mem_cons.mp plain
    rw [List.cons_append, wordsFrom, if_neg (by simp [first]), ih others, List.reverse_cons, List.append_assoc]
    rfl

/-- The characters determine the words. -/
theorem Spelled.wordsFrom_eq {words : List String} {cs : List Char} (spelled : Spelled words cs) :
    wordsFrom [] cs = words := by
  induction spelled with
  | @done gap blank =>
    rw [← List.append_nil gap, wordsFrom_gap blank]
    rfl
  | @word gap rest word words blank letters stops others ih =>
    rw [List.append_assoc, wordsFrom_gap blank, wordsFrom_letters letters.plain, List.append_nil]
    have some : word.toList.reverse.isEmpty = false := by simpa using letters.some
    cases rest with
    | nil =>
      obtain rfl : words = [] := by rw [← ih]; rfl
      rw [wordsFrom, some, if_neg Bool.false_ne_true, List.reverse_reverse, String.ofList_toList]
    | cons c rest =>
      have blank : isBlank c = true := stops c rfl
      rw [wordsFrom, if_pos blank] at ih ⊢
      rw [some, if_neg Bool.false_ne_true, List.reverse_reverse, String.ofList_toList]
      exact congrArg (word :: ·) ih

theorem words_spelled (s : String) : Spelled (words s) s.toList :=
  wordsFrom_spelled s.toList (List.forall_mem_nil _)

/-- A blank ends the word being read, so the words on its two sides are read on their own. -/
theorem wordsFrom_append {c : Char} (blank : isBlank c = true) (unfinished first second : List Char) :
    wordsFrom unfinished (first ++ c :: second) = wordsFrom unfinished first ++ wordsFrom [] second := by
  induction first generalizing unfinished with
  | nil =>
    simp only [List.nil_append, wordsFrom, blank, if_true]
    split <;> rfl
  | cons d rest ih =>
    simp only [List.cons_append, wordsFrom, ih]
    split
    · split <;> rfl
    · rfl

theorem words_intercalate (pieces : List (List Char)) :
    wordsFrom [] (['\n'].intercalate pieces) = pieces.flatMap (wordsFrom []) := by
  induction pieces with
  | nil => rfl
  | cons piece others ih =>
    cases others with
    | nil => simp
    | cons next others =>
      rw [List.intercalate_cons_cons, List.append_assoc, List.singleton_append, wordsFrom_append (by decide), ih]
      rfl

/-- No word goes over a line feed: the words of a text are those of its lines. -/
theorem words_lines (s : String) : words s = (lines s).flatMap words := by
  have whole : words s = ((split '\n' s.toList).map String.ofList).flatMap words := by
    rw [words, ← intercalate_split '\n' s.toList, words_intercalate, intercalate_split, List.flatMap_map]
    exact congrArg (List.flatMap · _) (funext fun piece => by rw [words, String.toList_ofList])
  rw [whole, lines]
  split
  next last =>
    have pieces := List.dropLast_append_getLast? _ last
    rw [← pieces, List.flatMap_append, List.dropLast_concat]
    exact List.append_nil _
  next => rfl

/-- The words with one blank between them. -/
def unwords (row : List String) : String :=
  String.intercalate " " row

theorem unwords_concat {row : List String} (some : row ≠ []) (word : String) :
    unwords (row ++ [word]) = unwords row ++ " " ++ word := by
  rw [unwords, String.intercalate_append_of_ne_nil some (List.cons_ne_nil _ _), String.intercalate_singleton]
  rfl

theorem unwords_ne_empty {row : List String} (some : row ≠ []) (words : ∀ word ∈ row, word ≠ "") :
    unwords row ≠ "" := by
  obtain ⟨word, others, rfl⟩ := List.exists_cons_of_ne_nil some
  cases others with
  | nil => simpa [unwords] using words
  | cons next others => simp [unwords, String.intercalate_cons_cons]

theorem unwords_cons {word next : String} {row : List String} :
    unwords (word :: next :: row) = word ++ " " ++ unwords (next :: row) :=
  String.intercalate_cons_cons

theorem not_mem_unwords {row : List String} (words : ∀ word ∈ row, IsWord word) : '\n' ∉ (unwords row).toList := by
  have within {word : String} (letters : IsWord word) : '\n' ∉ word.toList :=
    fun member => absurd (letters.plain _ member) (by decide)
  induction row with
  | nil => exact List.not_mem_nil
  | cons word row ih =>
    obtain ⟨first, others⟩ := List.forall_mem_cons.mp words
    cases row with
    | nil => simpa [unwords] using within first
    | cons next row => simpa [unwords_cons] using ⟨within first, ih others⟩

end Text

namespace Comment

open Text

/-- How a paragraph is set in rows of words. Only the paragraph without words has an empty row, its only one. -/
structure Wraps (width : Nat) (words : List String) (rows : List (List String)) : Prop where
  whole : rows.flatten = words
  narrow : ∀ row ∈ rows, (unwords row).utf8ByteSize ≤ width ∨ row.length = 1
  full : rows.IsChain fun row next => ∀ word ∈ next.head?, width < (unwords row).utf8ByteSize + 1 + word.utf8ByteSize
  blank : words = [] → rows = [[]]
  solid : words ≠ [] → [] ∉ rows

/-- A row that could not take the first word of the next one is put before the others. -/
theorem Wraps.cons {width : Nat} {row next words : List String} {rest : List (List String)} (some : row ≠ [])
    (narrow : (unwords row).utf8ByteSize ≤ width ∨ row.length = 1)
    (beyond : ∀ word ∈ next.head?, width < (unwords row).utf8ByteSize + 1 + word.utf8ByteSize)
    (more : words ≠ []) (wraps : Wraps width words (next :: rest)) :
    Wraps width (row ++ words) (row :: next :: rest) where
  whole := by rw [List.flatten_cons, wraps.whole]
  narrow := List.forall_mem_cons.mpr ⟨narrow, wraps.narrow⟩
  full := List.isChain_cons_cons.mpr ⟨beyond, wraps.full⟩
  blank none := absurd (List.append_eq_nil_iff.mp none).1 some
  solid _ := List.not_mem_cons_of_ne_of_not_mem some.symm (wraps.solid more)

/-- The induction is on the words that are left; `row` holds those of the current line. -/
theorem fill_wraps {width : Nat} (row : List String) (some : row ≠ [])
    (narrow : (unwords row).utf8ByteSize ≤ width ∨ row.length = 1) {words : List String}
    (spelled : ∀ word ∈ row ++ words, word ≠ "") :
    ∃ more rest, Wraps width (row ++ words) ((row ++ more) :: rest) ∧
      fill width (unwords row) words = ((row ++ more) :: rest).map unwords := by
  induction words generalizing row with
  | nil =>
    refine ⟨[], [], ⟨by simp, by simpa using narrow, by simp, ?_, ?_⟩, by simp [fill]⟩
    · exact fun none => absurd none (by simpa using some)
    · exact fun _ => by simpa using some.symm
  | cons word words ih =>
    have filled : (unwords row).isEmpty = false := by
      have letters := unwords_ne_empty some fun word member => spelled word (List.mem_append_left _ member)
      simpa using letters
    rw [fill, filled, if_neg Bool.false_ne_true]
    split
    -- The word does not fit, so the row stays as it is, and the word begins the next one.
    next beyond =>
      obtain ⟨more, rest, wraps, same⟩ := ih [word] (List.cons_ne_nil _ _) (.inr rfl)
        fun word member => spelled word (List.mem_append_right _ member)
      have stops : ∀ first ∈ ([word] ++ more).head?, width < (unwords row).utf8ByteSize + 1 + first.utf8ByteSize := by
        simpa using beyond
      refine ⟨[], ([word] ++ more) :: rest, ?_, ?_⟩
      · rw [List.append_nil]
        exact wraps.cons some narrow stops (List.cons_ne_nil _ _)
      · rw [List.append_nil, List.map_cons, ← same]
        rfl
    next fits =>
      have room : (unwords (row ++ [word])).utf8ByteSize ≤ width := by
        rw [unwords_concat some, String.utf8ByteSize_append, String.utf8ByteSize_append]
        have blank : " ".utf8ByteSize = 1 := by decide
        omega
      obtain ⟨more, rest, wraps, same⟩ := ih (row ++ [word]) (by simp) (.inl room) (by simpa using spelled)
      rw [List.append_assoc] at wraps same
      rw [unwords_concat some] at same
      exact ⟨[word] ++ more, rest, by simpa using wraps, same⟩

theorem wrap_wraps (width : Nat) (paragraph : String) :
    ∃ rows, Wraps width (words paragraph) rows ∧ wrap width paragraph = rows.map unwords := by
  rw [wrap]
  have spelled := (words_spelled paragraph).isWord
  generalize words paragraph = found at spelled ⊢
  cases found with
  | nil => exact ⟨[[]], ⟨rfl, by simp [unwords], by simp, fun _ => rfl, absurd rfl⟩, rfl⟩
  | cons word others =>
    obtain ⟨more, rest, wraps, same⟩ := fill_wraps [word] (List.cons_ne_nil _ _) (.inr rfl)
      fun word member => (spelled word member).some
    exact ⟨_, wraps, same⟩

/-- The line a row takes in a wrapped comment. -/
def rowLine (level : Nat) (row : List String) : String :=
  Layout.indent level ++ if row = [] then " *" else " * " ++ unwords row

/-- The lines a comment takes when its text is set in rows. -/
def rowLines (level : Nat) (rows : List (List String)) : List String :=
  (Layout.indent level ++ "/*") :: rows.map (rowLine level) ++ [Layout.indent level ++ " */"]

theorem rowLine_eq {level : Nat} {row : List String} (words : ∀ word ∈ row, IsWord word) :
    Layout.indent level ++ bodyLine (unwords row) = rowLine level row := by
  rw [bodyLine, rowLine]
  by_cases none : row = []
  · subst row
    rfl
  · have some : (unwords row).isEmpty = false := by
      simpa using unwords_ne_empty none fun word member => (words word member).some
    rw [some, if_neg Bool.false_ne_true, if_neg none]

theorem indent_size (level : Nat) : (Layout.indent level).utf8ByteSize = 4 * level := by
  rw [Layout.indent]
  generalize 4 * level = count
  induction count with
  | zero => rfl
  | succ count ih =>
    have blank : (String.singleton ' ').utf8ByteSize = 1 := by decide
    rw [List.replicate_succ, String.ofList_cons, String.utf8ByteSize_append, ih, blank, Nat.add_comm]

theorem wrap_paragraphs (width : Nat) (paragraphs : List String) :
    ∃ rows, List.Forall₂ (fun paragraph => Wraps width (words paragraph)) paragraphs rows ∧
      paragraphs.flatMap (wrap width) = rows.flatten.map unwords := by
  induction paragraphs with
  | nil => exact ⟨[], .nil, rfl⟩
  | cons paragraph others ih =>
    obtain ⟨first, wraps, same⟩ := wrap_wraps width paragraph
    obtain ⟨rest, following, alike⟩ := ih
    exact ⟨first :: rest, .cons wraps following, by
      rw [List.flatMap_cons, List.flatten_cons, List.map_append, same, alike]⟩

/-- Rows for every line of a text. -/
def Covers (width : Nat) (text : String) (rows : List (List (List String))) : Prop :=
  List.Forall₂ (fun paragraph => Wraps width (words paragraph)) (Text.lines text) rows

variable {level width : Nat} {text : String} {rows : List (List (List String))}

namespace Covers

theorem mem_words (covers : Covers width text rows) {row : List String} (member : row ∈ rows.flatten) :
    ∀ word ∈ row, word ∈ words text := by
  obtain ⟨set, among, inside⟩ := List.mem_flatten.mp member
  obtain ⟨paragraph, line, wraps⟩ := exists_of_forall₂ covers among
  intro word letters
  rw [words_lines]
  refine List.mem_flatMap.mpr ⟨paragraph, line, ?_⟩
  rw [← wraps.whole]
  exact List.mem_flatten.mpr ⟨row, inside, letters⟩

theorem isWord (covers : Covers width text rows) {row : List String} (member : row ∈ rows.flatten) :
    ∀ word ∈ row, IsWord word :=
  fun word inside => (words_spelled text).isWord word (covers.mem_words member word inside)

theorem narrow (covers : Covers width text rows) (small : ∀ word ∈ words text, word.utf8ByteSize ≤ width)
    {row : List String} (member : row ∈ rows.flatten) : (unwords row).utf8ByteSize ≤ width := by
  obtain ⟨set, among, inside⟩ := List.mem_flatten.mp member
  obtain ⟨paragraph, line, wraps⟩ := exists_of_forall₂ covers among
  rcases wraps.narrow row inside with fits | alone
  · exact fits
  · obtain ⟨word, rfl⟩ := List.length_eq_one_iff.mp alone
    exact small word (covers.mem_words member word List.mem_cons_self)

end Covers

theorem lines_wrapped (wide : fits level text = false) :
    ∃ rows, Covers (Comment.width level) text rows ∧ Comment.lines level text = rowLines level rows.flatten := by
  obtain ⟨rows, covers, same⟩ : ∃ rows, Covers (Comment.width level) text rows ∧ _ := wrap_paragraphs _ _
  refine ⟨rows, covers, ?_⟩
  have body : (rows.flatten.map unwords).map ((Layout.indent level ++ ·) ∘ bodyLine) =
      rows.flatten.map (rowLine level) := by
    rw [List.map_map]
    exact List.map_congr_left fun row member => rowLine_eq (covers.isWord member)
  rw [Comment.lines, wide, if_neg Bool.false_ne_true, same, rowLines, ← body, List.map_append, List.map_cons,
    List.map_map]
  rfl

theorem lines_single (narrow : fits level text = true) :
    Comment.lines level text = [Layout.indent level ++ "/* " ++ text ++ " */"] := by
  rw [Comment.lines, narrow, if_pos rfl, single]
  simp [String.append_assoc]

theorem fits_iff : fits level text = true ↔ '\n' ∉ text.toList ∧ 4 * level + (single text).utf8ByteSize ≤ 80 := by
  have same :
      fits level text = true ↔ '\n' ∉ text.toList ∧ 4 * level + (single text).utf8ByteSize ≤ Layout.lineWidth := by
    simp [fits]
  exact same

theorem single_size (level : Nat) (text : String) :
    (Layout.indent level ++ "/* " ++ text ++ " */").utf8ByteSize = 4 * level + (single text).utf8ByteSize := by
  rw [single, String.append_assoc, String.append_assoc, String.utf8ByteSize_append, indent_size, String.append_assoc]

theorem not_mem_indent (level : Nat) : '\n' ∉ (Layout.indent level).toList := by
  rw [Layout.indent, String.toList_ofList]
  exact fun member => absurd (List.eq_of_mem_replicate member) (by decide)

theorem not_mem_rowLine {row : List String} (words : ∀ word ∈ row, IsWord word) :
    '\n' ∉ (rowLine level row).toList := by
  rw [rowLine]
  split
  · simpa using not_mem_indent level
  · simpa using ⟨not_mem_indent level, not_mem_unwords words⟩

theorem rowLine_size (level : Nat) (row : List String) :
    (rowLine level row).utf8ByteSize ≤ 4 * level + 3 + (unwords row).utf8ByteSize := by
  have short : " *".utf8ByteSize = 2 := by decide
  have long : " * ".utf8ByteSize = 3 := by decide
  rw [rowLine, String.utf8ByteSize_append, indent_size]
  split
  · omega
  · rw [String.utf8ByteSize_append]
    omega

theorem forall_mem_rowLines {P : String → Prop} {rows : List (List String)} (first : P (Layout.indent level ++ "/*"))
    (last : P (Layout.indent level ++ " */")) (each : ∀ row ∈ rows, P (rowLine level row)) :
    ∀ line ∈ rowLines level rows, P line :=
  List.forall_mem_append.mpr
    ⟨List.forall_mem_cons.mpr ⟨first, List.forall_mem_map.mpr each⟩, List.forall_mem_singleton.mpr last⟩

theorem Covers.not_mem_rowLines (covers : Covers width text rows) :
    ∀ line ∈ rowLines level rows.flatten, '\n' ∉ line.toList :=
  forall_mem_rowLines (by simpa using not_mem_indent level) (by simpa using not_mem_indent level)
    fun _ member => not_mem_rowLine (covers.isWord member)

theorem Covers.rowLines_size (covers : Covers width text rows)
    (small : ∀ word ∈ words text, word.utf8ByteSize ≤ width) :
    ∀ line ∈ rowLines level rows.flatten, line.utf8ByteSize ≤ 4 * level + 3 + width := by
  have opening : "/*".utf8ByteSize = 2 := by decide
  have closing : " */".utf8ByteSize = 3 := by decide
  refine forall_mem_rowLines ?_ ?_ fun row member => ?_
  · rw [String.utf8ByteSize_append, indent_size]
    omega
  · rw [String.utf8ByteSize_append, indent_size]
    omega
  · exact (rowLine_size level row).trans (Nat.add_le_add_left (covers.narrow small member) _)

end Comment

open Comment Text

/-- A comment is on one line when it fits there. Otherwise its paragraphs are set in rows, and unless a single word is too
wide for its row, every line keeps the width. -/
theorem comment_lines (level : Nat) (text : String) :
    let indent := Layout.indent level
    let width := max 20 (80 - (4 * level + 3))
    let single := indent ++ "/* " ++ text ++ " */"
    let lines := Comment.lines level text
    Layout.render level [.comment text] = String.join (lines.map (· ++ "\n")) ∧
    (∀ line ∈ lines, '\n' ∉ line.toList) ∧
    (lines.length = 1 ↔ '\n' ∉ text.toList ∧ single.utf8ByteSize ≤ 80) ∧
    (lines.length = 1 → lines = [single]) ∧
    (lines.length ≠ 1 → ∃ rows,
      List.Forall₂ (fun paragraph rows => ∃ words, Spelled words paragraph.toList ∧ Wraps width words rows)
        (Text.lines text) rows ∧
      lines = (indent ++ "/*") :: rows.flatten.map (rowLine level) ++ [indent ++ " */"]) ∧
    ∀ words, Spelled words text.toList → (∀ word ∈ words, word.utf8ByteSize ≤ width) →
      ∀ line ∈ lines, line.utf8ByteSize ≤ max 80 (4 * level + 23) := by
  intro indent width single lines
  have rendered : Layout.render level [.comment text] = String.join (lines.map (· ++ "\n")) := by
    rw [Layout.render, Fragment.linesAll, Fragment.linesAll, List.append_nil, Fragment.lines]
  have fitting : fits level text = true ↔ '\n' ∉ text.toList ∧ single.utf8ByteSize ≤ 80 := by
    rw [single_size]
    exact fits_iff
  cases fit : fits level text with
  | true =>
    obtain ⟨plain, narrow⟩ := fitting.mp fit
    have one : lines = [single] := lines_single fit
    rw [one] at rendered ⊢
    rw [List.forall_mem_singleton]
    refine ⟨rendered, ?_, ⟨fun _ => ⟨plain, narrow⟩, fun _ => rfl⟩, fun _ => rfl, fun many => absurd rfl many, ?_⟩
    · simpa [single] using ⟨not_mem_indent level, plain⟩
    · intro words spelled small
      rw [List.forall_mem_singleton]
      omega
  | false =>
    obtain ⟨rows, covers, laid⟩ : ∃ rows, Covers width text rows ∧ lines = _ := lines_wrapped fit
    have several : lines.length ≠ 1 := by simp [laid, rowLines]
    refine ⟨rendered, ?_, ⟨fun one => absurd one several, fun narrow => ?_⟩, fun one => absurd one several, ?_, ?_⟩
    · rw [laid]
      exact covers.not_mem_rowLines
    · rw [fitting.mpr narrow] at fit
      cases fit
    · intro _
      exact ⟨rows, covers.imp fun paragraph _ wraps => ⟨words paragraph, words_spelled paragraph, wraps⟩, laid⟩
    · intro words spelled small line member
      have same : Text.words text = words := spelled.wordsFrom_eq
      rw [laid] at member
      have size : line.utf8ByteSize ≤ 4 * level + 3 + width := covers.rowLines_size (same ▸ small) line member
      omega

end BusStub
