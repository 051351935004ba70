/-! Blank characters and the words between them. A blank is a character with the Unicode
property `White_Space`; a word is a maximal run of other characters. -/

namespace BusStub.Text

/-- The code points of `White_Space`, as inclusive ranges. -/
def blankRanges : List (Nat × Nat) :=
  [(0x09, 0x0D), (0x20, 0x20), (0x85, 0x85), (0xA0, 0xA0), (0x1680, 0x1680), (0x2000, 0x200A),
   (0x2028, 0x2029), (0x202F, 0x202F), (0x205F, 0x205F), (0x3000, 0x3000)]

def isBlank (c : Char) : Bool :=
  blankRanges.any fun (first, last) => first ≤ c.toNat && c.toNat ≤ last

/-- The words of the characters, where `unfinished` holds the letters of the word being read, last first. -/
def wordsFrom (unfinished : List Char) : List Char → List String
  | [] => if unfinished.isEmpty then [] else [String.ofList unfinished.reverse]
  | c :: rest =>
    if isBlank c then
      if unfinished.isEmpty then wordsFrom [] rest
      else String.ofList unfinished.reverse :: wordsFrom [] rest
    else wordsFrom (c :: unfinished) rest

def words (s : String) : List String :=
  wordsFrom [] s.toList

end BusStub.Text
