import BusStub.Signature.Scalar

/-! What can be seen in a signature without reading it whole: its first characters tell its shape,
and counting one kind of bracket finds the struct or dictionary inside it. -/

namespace BusStub

inductive Shape where
  | basic (kind : Scalar)
  | struct
  | array
  | dict
  | variant
  /-- No known leading code. -/
  | other
  deriving DecidableEq, Repr

namespace Scan

def shapeOf : List Char → Shape
  | '(' :: _ => .struct
  | 'a' :: '{' :: _ => .dict
  | 'a' :: _ => .array
  | 'v' :: _ => .variant
  | c :: _ => match Scalar.ofCode? c with
    | some kind => .basic kind
    | none => .other
  | [] => .other

def shape (signature : String) : Shape :=
  shapeOf signature.toList

/-- The characters up to the bracket that closes the last of `level` open ones. -/
def balanced (opening closing : Char) : Nat → List Char → Option (List Char)
  | _, [] => none
  | level, c :: rest =>
    if c = opening then (balanced opening closing (level + 1) rest).map (c :: ·)
    else if c = closing then
      if level ≤ 1 then some [c] else (balanced opening closing (level - 1) rest).map (c :: ·)
    else (balanced opening closing level rest).map (c :: ·)

/-- The text from the first place where it begins with the mark. -/
def fromMark (mark : List Char) : List Char → Option (List Char)
  | [] => none
  | c :: rest => if mark.isPrefixOf (c :: rest) then some (c :: rest) else fromMark mark rest

/-- The balanced struct that begins at the first `(`, empty when there is none. -/
def innerStruct (signature : String) : String :=
  match (fromMark ['('] signature.toList).bind (balanced '(' ')' 0) with
  | some found => String.ofList found
  | none => ""

/-- The balanced dictionary that begins at the first `a{`, empty when there is none. -/
def innerDict (signature : String) : String :=
  match (fromMark ['a', '{'] signature.toList).bind (balanced '{' '}' 0) with
  | some found => String.ofList found
  | none => ""

end Scan
end BusStub
