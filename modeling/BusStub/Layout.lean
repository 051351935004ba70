import BusStub.Text.Blank
import BusStub.Text.Split

/-! Lines of output before they are indented. Emitters build trees of fragments, so that every
nesting level can be looked at on its own; `render` is the only place that knows columns. All
widths count UTF-8 bytes. -/

namespace BusStub

inductive Fragment where
  | line (text : String)
  /-- An opening line, a body one level deeper and a closing line, left out when it is empty. -/
  | block (opening : String) (body : List Fragment) (closing : String)
  | comment (text : String)
  | blank
  deriving Repr, Inhabited

namespace Layout

def indent (level : Nat) : String :=
  String.ofList (List.replicate (4 * level) ' ')

def lineWidth : Nat := 80

end Layout

namespace Comment

/-- Bytes left for the words of a wrapped comment line: what the line holds beside the indentation
and the leading ` * `, and never less than twenty. -/
def width (level : Nat) : Nat :=
  max 20 (Layout.lineWidth - (4 * level + 3))

/-- Puts each word on the current line while it fits; a word that is too wide stands alone. -/
def fill (width : Nat) (current : String) : List String → List String
  | [] => [current]
  | word :: rest =>
    if current.isEmpty then fill width word rest
    else if current.utf8ByteSize + 1 + word.utf8ByteSize > width then current :: fill width word rest
    else fill width (current ++ " " ++ word) rest

def wrap (width : Nat) (paragraph : String) : List String :=
  fill width "" (Text.words paragraph)

def single (text : String) : String :=
  "/* " ++ text ++ " */"

/-- A text without line feed that fits stays on one line. -/
def fits (level : Nat) (text : String) : Bool :=
  !text.toList.contains '\n' && 4 * level + (single text).utf8ByteSize ≤ Layout.lineWidth

def bodyLine (line : String) : String :=
  if line.isEmpty then " *" else " * " ++ line

def lines (level : Nat) (text : String) : List String :=
  let body :=
    if fits level text then [single text]
    else "/*" :: ((Text.lines text).flatMap (wrap (width level))).map bodyLine ++ [" */"]
  body.map (Layout.indent level ++ ·)

end Comment

mutual
def Fragment.lines (level : Nat) : Fragment → List String
  | .line text => [Layout.indent level ++ text]
  | .block opening body closing =>
    (Layout.indent level ++ opening) :: Fragment.linesAll (level + 1) body ++
      (if closing.isEmpty then [] else [Layout.indent level ++ closing])
  | .comment text => Comment.lines level text
  | .blank => [""]

def Fragment.linesAll (level : Nat) : List Fragment → List String
  | [] => []
  | fragment :: rest => fragment.lines level ++ Fragment.linesAll level rest
end

namespace Layout

/-- The text of the fragments, every line ended by a line feed. -/
def render (level : Nat) (fragments : List Fragment) : String :=
  String.join ((Fragment.linesAll level fragments).map (· ++ "\n"))

end Layout
end BusStub
