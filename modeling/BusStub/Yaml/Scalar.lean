/-! Texts as YAML scalars. A text is written plain where that reads back as the same text, else in
single quotes; a text with line feeds is a literal block, and only what has to be escaped is put in
double quotes. -/

namespace BusStub.Yaml

inductive Style where
  | plain | singleQuoted | doubleQuoted | literal
  deriving DecidableEq, Repr, Inhabited

/-- Line feed, carriage return, next line, line separator and paragraph separator. -/
def isBreak (c : Char) : Bool :=
  c = '\n' || c = '\r' || c.toNat = 0x85 || c.toNat = 0x2028 || c.toNat = 0x2029

def isSpace (c : Char) : Bool :=
  c = ' '

def isGap (c : Char) : Bool :=
  c = ' ' || c = '\t' || isBreak c

/-- Characters that need no escape. -/
def isPrintable (c : Char) : Bool :=
  c = '\n' || (0x20 ≤ c.toNat && c.toNat ≤ 0x7E) ||
    (0xA0 ≤ c.toNat && c.toNat != 0xFEFF && c.toNat != 0xFFFE && c.toNat != 0xFFFF)

/-- One character with the first property stands right before one with the second. -/
def adjacent (p q : Char → Bool) : List Char → Bool
  | c :: d :: rest => (p c && q d) || adjacent p q (d :: rest)
  | _ => false

/-- Words that readers take for truth values, nothing or numbers. -/
def reservedWords : List String :=
  ["y", "yes", "n", "no", "on", "off", "true", "false", "null", "nil", "~", "nan"]

/-- A plain text that a reader might take for something other than a text. -/
def isAmbiguous (cs : List Char) : Bool :=
  match cs with
  | [] => true
  | c :: _ => c.isDigit || c = '-' || c = '.' || c = '+' || reservedWords.contains (String.ofList (cs.map Char.toLower))

def gapOrEnd : List Char → Bool
  | [] => true
  | c :: _ => isGap c

/-- Characters that cannot begin a plain text. -/
def indicators : List Char := "#,[]\x7b\x7d&*!|>'\"%@`".toList

/-- A plain text that begins so would be something else. -/
def opensIndicator (cs : List Char) : Bool :=
  match cs with
  | [] => false
  | c :: rest =>
    indicators.contains c || ((c = '?' || c = ':' || c = '-') && gapOrEnd rest) ||
      ['-', '-', '-'].isPrefixOf cs || ['.', '.', '.'].isPrefixOf cs

/-- Inside a plain text a colon before a gap and a hash after one mean something else. -/
def holdsIndicator : List Char → Bool
  | c :: d :: rest => (d = ':' && gapOrEnd rest) || (isGap c && d = '#') || holdsIndicator (d :: rest)
  | _ => false

def isEdgeGap (c : Option Char) : Bool :=
  c.any fun c => isSpace c || isBreak c

def style (cs : List Char) : Style :=
  let special := !cs.all isPrintable || adjacent isSpace isBreak cs
  if cs.contains '\n' then
    if special || cs.getLast? = some ' ' then .doubleQuoted else .literal
  else if special || adjacent isBreak isSpace cs then .doubleQuoted
  else if isAmbiguous cs || opensIndicator cs || holdsIndicator cs || cs.any isBreak ||
      isEdgeGap cs.head? || isEdgeGap cs.getLast? then .singleQuoted
  else .plain

def spaces (n : Nat) : List Char :=
  List.replicate n ' '

/-- The digits of a number, most significant first, in upper case. -/
def hexDigits : Nat → Nat → List Char
  | 0, _ => []
  | width + 1, n => hexDigits width (n / 16) ++ [(Nat.digitChar (n % 16)).toUpper]

def shortEscapes : List (Nat × Char) :=
  [(0x00, '0'), (0x07, 'a'), (0x08, 'b'), (0x09, 't'), (0x0A, 'n'), (0x0B, 'v'), (0x0C, 'f'), (0x0D, 'r'),
   (0x1B, 'e'), (0x22, '"'), (0x5C, '\\'), (0x85, 'N'), (0x2028, 'L'), (0x2029, 'P')]

/-- A character in double quotes. All that need an escape of digits have code points of 16 bits. -/
def escape (c : Char) : List Char :=
  match shortEscapes.lookup c.toNat with
  | some letter => ['\\', letter]
  | none =>
    if isPrintable c then [c]
    else if c.toNat ≤ 0xFF then '\\' :: 'x' :: hexDigits 2 c.toNat
    else '\\' :: 'u' :: hexDigits 4 c.toNat

def doubleQuoted (cs : List Char) : List Char :=
  '"' :: cs.flatMap escape ++ ['"']

/-- The characters with an indentation before the first one after a break; `fresh` if there was one. -/
def indented (write : Char → List Char) (indent : Nat) (fresh : Bool) : List Char → List Char
  | [] => []
  | c :: rest =>
    if isBreak c then c :: indented write indent true rest
    else (if fresh then spaces indent else []) ++ write c ++ indented write indent false rest

def singleQuoted (indent : Nat) (cs : List Char) : List Char :=
  let body := indented (fun c => if c = '\'' then ['\'', '\''] else [c]) indent false cs
  '\'' :: body ++ (if cs.getLast?.any isBreak then spaces indent else []) ++ ['\'']

/-- How a literal block ends: without a break, with one, or with more that have to be kept. -/
def chomp (cs : List Char) : List Char :=
  match cs.reverse with
  | [] => ['-']
  | c :: rest =>
    if !isBreak c then ['-']
    else match rest with
      | [] => ['+']
      | d :: _ => if isBreak d then ['+'] else []

def literal (indent : Nat) (cs : List Char) : List Char :=
  let hint := if isEdgeGap cs.head? then ['2'] else []
  '|' :: hint ++ chomp cs ++ '\n' :: indented (fun c => [c]) indent true cs

/-- A text whose further lines, if it has any, are indented. -/
def scalar (indent : Nat) (s : String) : String :=
  let cs := s.toList
  match style cs with
  | .plain => s
  | .singleQuoted => String.ofList (singleQuoted indent cs)
  | .doubleQuoted => String.ofList (doubleQuoted cs)
  | .literal => String.ofList (literal indent cs)

/-- A text as a key, which stays on one line. -/
def key (s : String) : String :=
  if s.toList.any isBreak then String.ofList (doubleQuoted s.toList) else scalar 0 s

end BusStub.Yaml
