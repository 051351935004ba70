import BusStub.Text.Split

/-! Paths of objects: elements of letters, digits and underscores, each after a slash. -/

namespace BusStub

inductive ObjectPathFault where
  | relative | trailingSlash | emptyElement | badCharacter
  deriving DecidableEq, Repr, Inhabited

def ObjectPathFault.reason : ObjectPathFault → String
  | relative => "must start with '/'"
  | trailingSlash => "cannot end with '/'"
  | emptyElement => "cannot contain empty elements"
  | badCharacter => "elements may only contain [A-Za-z0-9_]"

namespace ObjectPath

def isElementChar (c : Char) : Bool :=
  c.isAlphanum || c = '_'

def elementFault? (element : List Char) : Option ObjectPathFault :=
  if element.isEmpty then some .emptyElement
  else if element.all isElementChar then none
  else some .badCharacter

/-- The first rule that a path breaks. -/
def fault? (path : String) : Option ObjectPathFault :=
  match path.toList with
  | '/' :: rest =>
    if rest.isEmpty then none
    else if rest.getLast? = some '/' then some .trailingSlash
    else (Text.split '/' rest).findSome? elementFault?
  | _ => some .relative

def join (base name : String) : String :=
  Text.trimEnd '/' base ++ "/" ++ name

/-- The path above an object whose name is written as a path; nothing when it is not. -/
def parent (name : String) : String :=
  if name.toList.head? = some '/' then Text.beforeLast '/' name else ""

/-- The last element of a name that may be written as a path. -/
def base (name : String) : String :=
  Text.afterLast '/' name

end ObjectPath
end BusStub
