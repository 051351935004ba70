import BusStub.Json

/-! Reading records out of JSON values. A record is an object with named fields, or an array that
gives the fields by position; fields that the record does not know are ignored. -/

namespace BusStub.Json

def text? : Json → Option String
  | .string value => some value
  | _ => none

def flag? : Json → Option Bool
  | .bool value => some value
  | _ => none

/-- A text that may be absent, or present as null. -/
def maybeText? : Json → Option (Option String)
  | .null => some none
  | .string value => some (some value)
  | _ => none

/-- One of a few names: the name alone, or an object with that field only, which holds nothing. -/
def tag? : Json → Option String
  | .string name | .object [(name, .null)] => some name
  | _ => none

def list? (read : Json → Option α) : Json → Option (List α)
  | .array items => items.mapM read
  | _ => none

/-- The named fields of a record; one given by position has no more of them than there are names. -/
def fields? (names : List String) : Json → Option (List (String × Json))
  | .object fields => some fields
  | .array items => if items.length ≤ names.length then some (names.zip items) else none
  | _ => none

def required (fields : List (String × Json)) (name : String) (read : Json → Option α) : Option α :=
  (fields.lookup name).bind read

def optional (fields : List (String × Json)) (name : String) (read : Json → Option α) (default : α) : Option α :=
  match fields.lookup name with
  | none => some default
  | some value => read value

end BusStub.Json
