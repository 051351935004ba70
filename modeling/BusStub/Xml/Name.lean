/-! Characters and names of XML documents. A name has a qualifier, which may be empty, and a base;
a colon stands between them. -/

namespace BusStub.Xml

def isSpace (c : Char) : Bool :=
  c = ' ' || c = '\t' || c = '\n' || c = '\r'

/-- Characters that may stand in a document at all. -/
def isAllowed (c : Char) : Bool :=
  if c.toNat < 0x20 then isSpace c else c.toNat != 0xFFFE && c.toNat != 0xFFFF

/-- Code points above ASCII that may begin a name, as inclusive ranges. -/
def nameStartRanges : List (Nat × Nat) :=
  [(0xC0, 0xD6), (0xD8, 0xF6), (0xF8, 0x2FF), (0x370, 0x37D), (0x37F, 0x1FFF), (0x200C, 0x200D),
   (0x2070, 0x218F), (0x2C00, 0x2FEF), (0x3001, 0xD7FF), (0xF900, 0xFDCF), (0xFDF0, 0xFFFD),
   (0x10000, 0xEFFFF)]

/-- Code points above ASCII that may only continue a name. -/
def nameRestRanges : List (Nat × Nat) :=
  [(0xB7, 0xB7), (0x300, 0x36F), (0x203F, 0x2040)]

def within (ranges : List (Nat × Nat)) (c : Char) : Bool :=
  ranges.any fun (first, last) => first ≤ c.toNat && c.toNat ≤ last

def isNameStart (c : Char) : Bool :=
  c.isAlpha || c = ':' || c = '_' || within nameStartRanges c

def isNameChar (c : Char) : Bool :=
  isNameStart c || c.isDigit || c = '-' || c = '.' || within nameRestRanges c

structure Name where
  qualifier : String
  base : String
  deriving DecidableEq, Repr, Inhabited

/-- A reader takes a value from the front of the characters and tells what follows it. -/
abbrev Reader (α : Type) := List Char → Option (α × List Char)

/-- The longest run of characters with a property, and what follows it. -/
def run (p : Char → Bool) (cs : List Char) : List Char × List Char :=
  (cs.takeWhile p, cs.dropWhile p)

theorem run_append (p : Char → Bool) (cs : List Char) : (run p cs).1 ++ (run p cs).2 = cs :=
  List.takeWhile_append_dropWhile

theorem length_run_le (p : Char → Bool) (cs : List Char) : (run p cs).2.length ≤ cs.length := by
  have whole := congrArg List.length (run_append p cs)
  rw [List.length_append] at whole
  omega

def skipSpace (cs : List Char) : List Char :=
  (run isSpace cs).2

theorem length_skipSpace_le (cs : List Char) : (skipSpace cs).length ≤ cs.length :=
  length_run_le isSpace cs

/-- Begins with a character that may begin a name. -/
def startsName : List Char → Bool
  | [] => false
  | c :: _ => isNameStart c

/-- A word without qualifier: processing instructions and entities have such names. -/
def word? : Reader (List Char) := fun cs =>
  if startsName cs then some (run isNameChar cs) else none

/-- The characters before the first colon, and those after it if there is one. -/
def cutColon : List Char → List Char × Option (List Char)
  | [] => ([], none)
  | c :: rest => if c = ':' then ([], some rest) else let (front, back) := cutColon rest; (c :: front, back)

/-- The name that a run of name characters spells. -/
def Name.ofChars? (cs : List Char) : Option Name :=
  match cutColon cs with
  | (base, none) => if startsName base then some ⟨"", String.ofList base⟩ else none
  | (qualifier, some base) =>
    if (qualifier.isEmpty || startsName qualifier) && startsName base && !base.contains ':' then
      some ⟨String.ofList qualifier, String.ofList base⟩
    else none

def name? : Reader Name := fun cs =>
  let (front, rest) := run isNameChar cs
  (Name.ofChars? front).map (·, rest)

theorem length_name? {cs rest : List Char} {name : Name} (read : name? cs = some (name, rest)) :
    rest.length < cs.length := by
  simp only [name?, Option.map_eq_some_iff, Prod.mk.injEq] at read
  obtain ⟨_, spelled, _, rfl⟩ := read
  have whole := congrArg List.length (run_append isNameChar cs)
  rw [List.length_append] at whole
  cases front : (run isNameChar cs).1 with
  | nil => rw [front] at spelled; simp [Name.ofChars?, cutColon, startsName] at spelled
  | cons c front' => rw [front, List.length_cons] at whole; omega

end BusStub.Xml
