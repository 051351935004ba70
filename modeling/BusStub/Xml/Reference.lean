import BusStub.Text.Split
import BusStub.Xml.Name

/-! References in attribute values and texts: a character by its number, or one of five by name. -/

namespace BusStub.Xml

def namedCharacters : List (String × Char) :=
  [("quot", '"'), ("amp", '&'), ("apos", '\''), ("lt", '<'), ("gt", '>')]

def digitValue (c : Char) : Nat :=
  if c.isDigit then c.toNat - '0'.toNat
  else if c.isUpper then c.toNat - 'A'.toNat + 10
  else c.toNat - 'a'.toNat + 10

def isHexDigit (c : Char) : Bool :=
  c.isDigit || ('a' ≤ c && c ≤ 'f') || ('A' ≤ c && c ≤ 'F')

/-- What stands for a number that is no character. -/
def replacement : Char := '\uFFFD'

/-- The character with a number of at most 32 bits. -/
def numbered? (base : Nat) (digits : List Char) : Option Char :=
  let n := digits.foldl (fun n c => n * base + digitValue c) 0
  let c := if n.isValidChar then Char.ofNat n else replacement
  if !digits.isEmpty && n < 0x100000000 && isAllowed c then some c else none

/-- The character that a reference means, without its ampersand, and what follows its semicolon. -/
def reference? : Reader Char := fun cs =>
  let (found, rest) := match cs with
    | '#' :: 'x' :: digits => let (front, rest) := run isHexDigit digits; (numbered? 16 front, rest)
    | '#' :: digits => let (front, rest) := run Char.isDigit digits; (numbered? 10 front, rest)
    | _ => let (front, rest) := run isNameChar cs; (namedCharacters.lookup (String.ofList front), rest)
  match found, rest with
  | some c, ';' :: rest => some (c, rest)
  | _, _ => none

/-- White space in attribute values: each becomes a blank, a carriage return and line feed become one. -/
def flattenSpace : List Char → List Char
  | [] => []
  | '\r' :: '\n' :: rest => ' ' :: flattenSpace rest
  | c :: rest => (if isSpace c then ' ' else c) :: flattenSpace rest

/-- A piece of a value that follows an ampersand. -/
def valuePiece? (cs : List Char) : Option (List Char) :=
  (reference? cs).map fun (c, rest) => c :: flattenSpace rest

/-- The value that is written by the characters between the quotes. Characters that come from
references are kept, white space included. -/
def value? (cs : List Char) : Option String :=
  match Text.split '&' cs with
  | [] => some ""
  | first :: others => (others.mapM valuePiece?).map fun pieces =>
    String.ofList (flattenSpace first ++ pieces.flatten)

/-- Every ampersand begins a reference. -/
def referencesHold (cs : List Char) : Bool :=
  (Text.split '&' cs).tail.all fun piece => (reference? piece).isSome

end BusStub.Xml
