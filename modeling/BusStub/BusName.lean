import BusStub.Text.Split

/-! Well-known names on the bus: two or more elements with dots between them. -/

namespace BusStub

inductive BusNameFault where
  | colon | leadingDot | trailingDot | emptyElement | leadingDigit | tooFew | tooLong
  deriving DecidableEq, Repr, Inhabited

def BusNameFault.reason : BusNameFault → String
  | colon => "cannot contain ':'"
  | leadingDot => "cannot start with '.'"
  | trailingDot => "cannot end with '.'"
  | emptyElement => "elements cannot be empty"
  | leadingDigit => "elements cannot start with a digit"
  | tooFew => "needs two or more elements separated by '.'"
  | tooLong => "longer than 255 characters"

namespace BusName

def maxLength : Nat := 255

def elements (name : String) : List (List Char) :=
  Text.split '.' name.toList

def startsWithDigit : List Char → Bool
  | [] => false
  | c :: _ => c.isDigit

/-- The first fault that is found in a name. -/
def fault? (name : String) : Option BusNameFault :=
  let elements := elements name
  if name.contains ':' then some .colon
  else if name.startsWith '.' then some .leadingDot
  else if name.endsWith '.' then some .trailingDot
  else if name.contains ".." then some .emptyElement
  else if elements.any startsWithDigit then some .leadingDigit
  else if elements.length < 2 then some .tooFew
  else if maxLength < name.utf8ByteSize then some .tooLong
  else none

end BusName
end BusStub
