import BusStub.Signature.BusType

/-! Reading signatures one character at a time. The state is the stack of containers that have been
opened and not closed; each character opens, fills or closes one, or cannot stand where it is. So an
error belongs to the first impossible character, and only a text that ends too early fails at its
end. -/

namespace BusStub

inductive SignatureFault where
  | empty
  | unbalanced
  | unknownCode (code : Char)
  | nonBasicKey (key : Char)
  | malformedEntry
  | emptyStruct
  | tooDeep
  | trailing (position : Nat)
  deriving DecidableEq, Repr

structure SignatureError where
  signature : String
  fault : SignatureFault
  deriving DecidableEq, Repr

/-- Containers may be nested this deep. -/
def maxDepth : Nat := 32

def SignatureError.message (error : SignatureError) : String :=
  let quoted := "'" ++ error.signature ++ "'"
  match error.fault with
  | .empty => "empty signature"
  | .unbalanced => "unbalanced signature " ++ quoted
  | .unknownCode code => "unknown type code '" ++ code.toString ++ "' in signature " ++ quoted
  | .nonBasicKey key =>
    "invalid dictionary entry in " ++ quoted ++ ": the key must be a basic data type, not '" ++
      key.toString ++ "'"
  | .malformedEntry => "dictionary entry in " ++ quoted ++ " must hold exactly one key and one value"
  | .emptyStruct => "empty struct in signature " ++ quoted
  | .tooDeep =>
    "signature " ++ quoted ++ " exceeds the maximum container depth of " ++ toString maxDepth
  | .trailing position =>
    "unexpected characters after position " ++ toString position ++ " in signature " ++ quoted

namespace BusType

/-- A container that is open, with what has been read of it. -/
inductive Frame where
  /-- Members read so far, last first. -/
  | struct (members : List BusType)
  | array
  | key
  | value (key : Scalar)
  | close (key : Scalar) (value : BusType)

inductive State where
  | reading (frames : List Frame)
  | done (type : BusType)

/-- Hands a finished type to the innermost open container. -/
def fill (type : BusType) : List Frame → State
  | [] => .done type
  | .struct members :: rest => .reading (.struct (type :: members) :: rest)
  | .array :: rest => fill (.array type) rest
  | .value key :: rest => .reading (.close key type :: rest)
  | frames => .reading frames

def enter (frame : Frame) (frames : List Frame) : Except SignatureFault State :=
  if frames.length < maxDepth then .ok (.reading (frame :: frames)) else .error .tooDeep

def start (c : Char) (frames : List Frame) : Except SignatureFault State :=
  match c with
  | '(' => enter (.struct []) frames
  | 'a' => enter .array frames
  | 'v' => .ok (fill .variant frames)
  | ')' | '}' | '{' => .error .unbalanced
  | code => match Scalar.ofCode? code with
    | some kind => .ok (fill (.basic kind) frames)
    | none => .error (.unknownCode code)

def step (state : State) (c : Char) : Except SignatureFault State :=
  match state with
  | .done type => .error (.trailing type.text.utf8ByteSize)
  | .reading [] => start c []
  | .reading (.struct members :: rest) =>
    if c = ')' then
      if members.isEmpty then .error .emptyStruct else .ok (fill (.struct members.reverse) rest)
    else start c (.struct members :: rest)
  | .reading (.array :: rest) =>
    if c = '{' then .ok (.reading (.key :: rest)) else start c (.array :: rest)
  | .reading (.key :: rest) => match Scalar.ofCode? c with
    | some kind => .ok (.reading (.value kind :: rest))
    | none => .error (.nonBasicKey c)
  | .reading (.value key :: rest) =>
    if c = '}' then .error .malformedEntry else start c (.value key :: rest)
  | .reading (.close key value :: rest) =>
    if c = '}' then .ok (fill (.dict key value) rest) else .error .malformedEntry

def finish : State → Except SignatureFault BusType
  | .done type => .ok type
  | .reading [] => .error .empty
  | .reading _ => .error .unbalanced

def parseChars (cs : List Char) : Except SignatureFault BusType := do
  finish (← cs.foldlM step (.reading []))

def parse (signature : String) : Except SignatureError BusType :=
  match parseChars signature.toList with
  | .ok type => .ok type
  | .error fault => .error ⟨signature, fault⟩

end BusType
end BusStub
