import BusStub.Signature.Scan
import Mathlib.Data.List.Infix

/-! What scanners find in a text, whether it is a signature or not: the shortest piece with balanced brackets from the
first place where the text begins with the mark. -/

namespace BusStub.Scan

/-- The text is cut before the first mark, and after the shortest piece from there that has all its brackets closed. -/
structure Cuts (mark : List Char) (opening closing : Char) (text before found after : List Char) : Prop where
  whole : text = before ++ found ++ after
  begins : mark <+: found
  first : ∀ earlier later, text = earlier ++ mark ++ later → before.length ≤ earlier.length
  closed : found.count opening = found.count closing
  shortest : ∀ other, mark <+: other → other <+: found ++ after → other.count opening = other.count closing →
    found.length ≤ other.length

namespace Cuts

variable {mark text before found after : List Char} {opening closing : Char}

theorem unique {before' found' after' : List Char} (cuts : Cuts mark opening closing text before found after)
    (other : Cuts mark opening closing text before' found' after') : found = found' := by
  obtain ⟨rest, begins⟩ := cuts.begins
  obtain ⟨rest', begins'⟩ := other.begins
  have below := cuts.first before' (rest' ++ after') (by simp [other.whole, ← begins'])
  have above := other.first before (rest ++ after) (by simp [cuts.whole, ← begins])
  have same : before ++ (found ++ after) = before' ++ (found' ++ after') := by
    simpa using cuts.whole.symm.trans other.whole
  have tails := (List.append_inj same (Nat.le_antisymm below above)).2
  have shorter := cuts.shortest found' other.begins ⟨after', tails.symm⟩ other.closed
  have longer := other.shortest found cuts.begins ⟨after, tails⟩ cuts.closed
  exact (List.append_inj tails (Nat.le_antisymm shorter longer)).1

/-- A piece that has been cut out is the only piece of itself. -/
theorem again (cuts : Cuts mark opening closing text before found after) :
    Cuts mark opening closing found [] found [] where
  whole := by simp
  begins := cuts.begins
  first _ _ _ := Nat.zero_le _
  closed := cuts.closed
  shortest other begins inside :=
    cuts.shortest other begins (inside.trans (by simp))

end Cuts

/-- The result is the piece that is cut out, or empty when there is none. -/
def Finds (mark : List Char) (opening closing : Char) (text result : List Char) : Prop :=
  (∃ before after, Cuts mark opening closing text before result after) ∨
  (result = [] ∧ ∀ before found after, ¬ Cuts mark opening closing text before found after)

variable {mark text found : List Char}

theorem fromMark_some (marked : fromMark mark text = some found) :
    mark <+: found ∧ ∃ before, text = before ++ found ∧
      ∀ earlier later, text = earlier ++ mark ++ later → before.length ≤ earlier.length := by
  induction text with
  | nil => cases marked
  | cons c rest ih =>
    rw [fromMark] at marked
    split at marked
    next begins =>
      cases marked
      exact ⟨List.isPrefixOf_iff_prefix.mp begins, [], rfl, fun _ _ _ => Nat.zero_le _⟩
    next other =>
      obtain ⟨begins, before, rfl, first⟩ := ih marked
      refine ⟨begins, c :: before, rfl, ?_⟩
      intro earlier later whole
      cases earlier with
      | nil => exact absurd (List.isPrefixOf_iff_prefix.mpr ⟨later, whole.symm⟩) other
      | cons d earlier => exact Nat.succ_le_succ (first earlier later (List.cons.inj whole).2)

theorem fromMark_none (some : mark ≠ []) (unmarked : fromMark mark text = none) (earlier later : List Char) :
    text ≠ earlier ++ mark ++ later := by
  induction text generalizing earlier with
  | nil => simp [some]
  | cons c rest ih =>
    rw [fromMark] at unmarked
    split at unmarked
    next => cases unmarked
    next other =>
      rintro whole
      cases earlier with
      | nil => exact other (List.isPrefixOf_iff_prefix.mpr ⟨later, whole.symm⟩)
      | cons d earlier => exact ih unmarked earlier (List.cons.inj whole).2

variable {opening closing : Char}

/-- The shortest beginning of a text that closes as many brackets as are open, and those it opens itself. -/
structure Closes (opening closing : Char) (level : Nat) (text found : List Char) : Prop where
  begins : found <+: text
  closed : level + found.count opening = found.count closing
  shortest : ∀ other, other <+: text → level + other.count opening = other.count closing → found.length ≤ other.length

/-- Either such a beginning, or none because there is none. -/
def Scanned (opening closing : Char) (level : Nat) (text : List Char) : Option (List Char) → Prop
  | some found => Closes opening closing level text found
  | none => ∀ other, other <+: text → level + other.count opening ≠ other.count closing

/-- One more character in front, which leaves these brackets open. -/
theorem Scanned.cons {c : Char} {level next : Nat} {result : Option (List Char)}
    (scanned : Scanned opening closing next text result) (some : 0 < level)
    (counts : ∀ rest : List Char, level + (c :: rest).count opening = (c :: rest).count closing ↔
      next + rest.count opening = rest.count closing) :
    Scanned opening closing level (c :: text) (result.map (c :: ·)) := by
  have empty : level + ([] : List Char).count opening ≠ ([] : List Char).count closing := by
    simpa using Nat.ne_of_gt some
  cases result with
  | none =>
    intro other begins
    cases other with
    | nil => exact empty
    | cons d other =>
      obtain ⟨rfl, shorter⟩ := List.cons_prefix_cons.mp begins
      exact fun closed => scanned other shorter ((counts other).mp closed)
  | some found =>
    refine ⟨List.cons_prefix_cons.mpr ⟨rfl, scanned.begins⟩, (counts found).mpr scanned.closed, ?_⟩
    intro other begins closed
    cases other with
    | nil => exact absurd closed empty
    | cons d other =>
      obtain ⟨rfl, shorter⟩ := List.cons_prefix_cons.mp begins
      exact Nat.succ_le_succ (scanned.shortest other shorter ((counts other).mp closed))

theorem balanced_scanned (different : opening ≠ closing) (text : List Char) (level : Nat) :
    Scanned opening closing (level + 1) text (balanced opening closing (level + 1) text) := by
  induction text generalizing level with
  | nil =>
    intro other begins
    obtain rfl := List.prefix_nil.mp begins
    simp
  | cons c rest ih =>
    rw [balanced]
    split
    next opens =>
      apply (ih (level + 1)).cons (Nat.succ_pos level)
      intro rest
      simp [opens, different]
      omega
    next others =>
      split
      next closes =>
        cases level with
        | zero =>
          refine ⟨⟨rest, rfl⟩, by simp [closes, different.symm], ?_⟩
          intro other _ closed
          cases other with
          | nil => simp at closed
          | cons d other => exact Nat.succ_le_succ (Nat.zero_le _)
        | succ level =>
          rw [if_neg (by omega), Nat.add_sub_cancel]
          apply (ih level).cons (Nat.succ_pos _)
          intro rest
          simp [closes, different.symm]
          omega
      next plain =>
        apply (ih level).cons (Nat.succ_pos level)
        intro rest
        simp [others, plain]

/-- The brackets of a mark: one is open after it. -/
structure Opens (mark : List Char) (opening closing : Char) : Prop where
  different : opening ≠ closing
  opened : mark.count opening = 1
  closed : mark.count closing = 0
  scan : ∀ rest, balanced opening closing 0 (mark ++ rest) = (balanced opening closing 1 rest).map (mark ++ ·)

/-- What the scanners do, for either mark. -/
def inner (mark : List Char) (opening closing : Char) (text : List Char) : List Char :=
  ((fromMark mark text).bind (balanced opening closing 0)).getD []

theorem innerStruct_toList (signature : String) :
    (innerStruct signature).toList = inner ['('] '(' ')' signature.toList := by
  unfold innerStruct inner
  cases (fromMark ['('] signature.toList).bind (balanced '(' ')' 0) <;> simp

theorem innerDict_toList (signature : String) :
    (innerDict signature).toList = inner ['a', '{'] '{' '}' signature.toList := by
  unfold innerDict inner
  cases (fromMark ['a', '{'] signature.toList).bind (balanced '{' '}' 0) <;> simp

theorem opens_struct : Opens ['('] '(' ')' where
  different := by decide
  opened := by decide
  closed := by decide
  scan rest := by rw [List.cons_append, List.nil_append, balanced, if_pos rfl]; rfl

theorem opens_dict : Opens ['a', '{'] '{' '}' where
  different := by decide
  opened := by decide
  closed := by decide
  scan rest := by
    rw [List.cons_append, List.cons_append, List.nil_append, balanced, if_neg (by decide), if_neg (by decide), balanced,
      if_pos rfl, Option.map_map]
    rfl

namespace Opens

variable (opens : Opens mark opening closing)
include opens

theorem ne_nil : mark ≠ [] := by
  rintro rfl
  simpa using opens.opened

theorem finds (text : List Char) : Finds mark opening closing text (inner mark opening closing text) := by
  unfold inner
  cases marked : fromMark mark text with
  | none =>
    refine .inr ⟨rfl, ?_⟩
    intro before found after cuts
    obtain ⟨rest, rfl⟩ := cuts.begins
    apply fromMark_none opens.ne_nil marked before (rest ++ after)
    simpa using cuts.whole
  | some found =>
    obtain ⟨⟨rest, rfl⟩, before, whole, first⟩ := fromMark_some marked
    rw [Option.bind_some, opens.scan]
    have counts (rest : List Char) : (mark ++ rest).count opening = (mark ++ rest).count closing ↔
        1 + rest.count opening = rest.count closing := by
      rw [List.count_append, List.count_append, opens.opened, opens.closed, Nat.zero_add]
    have scanned := balanced_scanned opens.different rest 0
    cases result : balanced opening closing 1 rest with
    | some tail =>
      rw [result] at scanned
      obtain ⟨after, rfl⟩ := scanned.begins
      refine .inl ⟨before, after, by simpa using whole, List.prefix_append mark tail, first,
        (counts tail).mpr scanned.closed, ?_⟩
      rintro other ⟨piece, rfl⟩ inside closed
      have begins : piece <+: tail ++ after := by
        simpa using inside
      simpa using scanned.shortest piece begins ((counts piece).mp closed)
    | none =>
      rw [result] at scanned
      refine .inr ⟨rfl, ?_⟩
      intro before' found after cuts
      obtain ⟨piece, rfl⟩ := cuts.begins
      -- Both begin at the first mark.
      have below := first before' (piece ++ after) (by simpa using cuts.whole)
      have above := cuts.first before rest (by simpa using whole)
      have same : before ++ (mark ++ rest) = before' ++ (mark ++ (piece ++ after)) := by
        simpa using whole.symm.trans cuts.whole
      have tails := List.append_cancel_left (List.append_inj same (Nat.le_antisymm below above)).2
      exact scanned piece ⟨after, tails.symm⟩ ((counts piece).mp cuts.closed)

theorem inner_inner (text : List Char) :
    inner mark opening closing (inner mark opening closing text) = inner mark opening closing text := by
  rcases opens.finds text with ⟨before, after, cuts⟩ | ⟨nothing, -⟩
  · rcases opens.finds (inner mark opening closing text) with ⟨_, _, again⟩ | ⟨-, never⟩
    · exact again.unique cuts.again
    · exact absurd cuts.again (never _ _ _)
  · rw [nothing]
    rfl

end Opens

end BusStub.Scan
