/-! JSON values and their written form, indented by two blanks for each level. Fields keep the order in
which they are given. -/

namespace BusStub

inductive Json where
  | null
  | bool (value : Bool)
  | number (value : Int)
  | string (value : String)
  | array (items : List Json)
  | object (fields : List (String × Json))
  deriving Repr, Inhabited

namespace Json

def hexByte (n : Nat) : List Char :=
  [Nat.digitChar (n / 16 % 16), Nat.digitChar (n % 16)]

/-- A character inside quotes: quote, backslash and controls are escaped, all else is raw. -/
def escape (c : Char) : List Char :=
  match c with
  | '"' => ['\\', '"']
  | '\\' => ['\\', '\\']
  | '\n' => ['\\', 'n']
  | '\r' => ['\\', 'r']
  | '\t' => ['\\', 't']
  | c =>
    if c.toNat = 8 then ['\\', 'b']
    else if c.toNat = 12 then ['\\', 'f']
    else if c.toNat < 32 then ['\\', 'u', '0', '0'] ++ hexByte c.toNat
    else [c]

def quoted (s : String) : String :=
  String.ofList ('"' :: s.toList.flatMap escape ++ ['"'])

def leaf : Json → String
  | .bool value => if value then "true" else "false"
  | .number value => toString value
  | .string value => quoted value
  | _ => "null"

def newLine (level : Nat) : String :=
  "\n" ++ String.ofList (List.replicate (2 * level) ' ')

/-- Items in brackets, each on a line one level deeper. -/
def bracket (level : Nat) (opening closing : String) (items : List String) : String :=
  if items.isEmpty then opening ++ closing
  else opening ++ newLine (level + 1) ++ String.intercalate ("," ++ newLine (level + 1)) items ++
    newLine level ++ closing

mutual
def prettyAt (level : Nat) : Json → String
  | .array items => bracket level "[" "]" (prettyAll (level + 1) items)
  | .object fields => bracket level "\x7b" "\x7d" (prettyFields (level + 1) fields)
  | value => value.leaf
termination_by structural value => value

def prettyAll (level : Nat) : List Json → List String
  | [] => []
  | item :: rest => item.prettyAt level :: prettyAll level rest
termination_by structural items => items

def prettyFields (level : Nat) : List (String × Json) → List String
  | [] => []
  | (name, value) :: rest => (quoted name ++ ": " ++ value.prettyAt level) :: prettyFields level rest
termination_by structural fields => fields
end

def pretty (value : Json) : String :=
  value.prettyAt 0

end Json
end BusStub
