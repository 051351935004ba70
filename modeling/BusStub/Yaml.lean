import BusStub.Json
import BusStub.Yaml.Scalar

/-! Values as YAML in block style: a field or list item on each line. Fields of a nested value are
indented by two blanks; the items of a list stand right below the key of the list. -/

namespace BusStub.Yaml

/-- Ends a line, unless the text of a literal block has ended it. -/
def lineEnd (text : String) : String :=
  if text.toList.getLast?.any isBreak then "" else "\n"

def indentation (indent : Nat) : String :=
  String.ofList (spaces indent)

/-- Entries on lines of their own, the first without its indentation. -/
def stack (indent : Nat) : List String → String
  | [] => ""
  | [entry] => entry
  | entry :: rest => entry ++ lineEnd entry ++ indentation indent ++ stack indent rest

/-- Values that stand on the line they begin on. -/
def leaf (indent : Nat) : Json → String
  | .bool value => if value then "true" else "false"
  | .number value => toString value
  | .string value => scalar indent value
  | .array _ => "[]"
  | .object _ => "\x7b\x7d"
  | .null => "null"

mutual
/-- A value whose first line has been begun, indented by `indent`. -/
def block (indent : Nat) : Json → String
  | .array (item :: items) => stack indent (blockItems indent (item :: items))
  | .object (field :: fields) => stack indent (blockFields indent (field :: fields))
  | value => leaf indent value
termination_by structural value => value

def blockItems (indent : Nat) : List Json → List String
  | [] => []
  | item :: rest => ("- " ++ block (indent + 2) item) :: blockItems indent rest
termination_by structural items => items

def blockFields (indent : Nat) : List (String × Json) → List String
  | [] => []
  | (name, value) :: rest => (key name ++ ":" ++ blockValue indent value) :: blockFields indent rest
termination_by structural fields => fields

/-- What follows the colon of a field. -/
def blockValue (indent : Nat) : Json → String
  | .array (item :: items) => "\n" ++ indentation indent ++ stack indent (blockItems indent (item :: items))
  | .object (field :: fields) =>
    "\n" ++ indentation (indent + 2) ++ stack (indent + 2) (blockFields (indent + 2) (field :: fields))
  | value => " " ++ leaf (indent + 2) value
termination_by structural value => value
end

def text (value : Json) : String :=
  let body := block 0 value
  body ++ lineEnd body

end BusStub.Yaml
