/-! The twelve scalar types of the bus and how generated code spells them. -/

namespace BusStub

inductive Scalar where
  | byte | boolean | int16 | uint16 | int32 | uint32 | int64 | uint64 | double
  | objectPath | signature | string
  deriving DecidableEq, Repr, Inhabited

namespace Scalar

def code : Scalar → Char
  | byte => 'y' | boolean => 'b' | int16 => 'n' | uint16 => 'q' | int32 => 'i' | uint32 => 'u'
  | int64 => 'x' | uint64 => 't' | double => 'd' | objectPath => 'o' | signature => 'g' | string => 's'

def ofCode? : Char → Option Scalar
  | 'y' => some byte | 'b' => some boolean | 'n' => some int16 | 'q' => some uint16
  | 'i' => some int32 | 'u' => some uint32 | 'x' => some int64 | 't' => some uint64
  | 'd' => some double | 'o' => some objectPath | 'g' => some signature | 's' => some string
  | _ => none

@[simp] theorem ofCode?_code (k : Scalar) : ofCode? k.code = some k := by
  cases k <;> rfl

theorem code_of_ofCode? {c : Char} {k : Scalar} (h : ofCode? c = some k) : k.code = c := by
  unfold ofCode? at h
  split at h <;> simp_all <;> subst h <;> rfl

def name : Scalar → String
  | byte => "byte" | boolean => "boolean" | int16 => "int16" | uint16 => "uint16"
  | int32 => "int32" | uint32 => "uint32" | int64 => "int64" | uint64 => "uint64"
  | double => "double" | objectPath => "object-path" | signature => "signature" | string => "string"

/-- Object paths, signatures and strings travel as narrow character strings. -/
def isText : Scalar → Bool
  | objectPath | signature | string => true
  | _ => false

def typeText : Scalar → String
  | byte => "unsigned char" | boolean => "bool" | int16 => "short" | uint16 => "unsigned short"
  | int32 => "int" | uint32 => "unsigned int" | int64 => "long long"
  | uint64 => "unsigned long long" | double => "double"
  | objectPath | signature | string => "String"

/-- The member of a message argument's value union that holds the scalar. -/
def messageField : Scalar → String
  | byte => "v_byte" | boolean => "v_bool" | int16 => "v_int16" | uint16 => "v_uint16"
  | int32 => "v_int32" | uint32 => "v_uint32" | int64 => "v_int64" | uint64 => "v_uint64"
  | double => "v_double" | objectPath => "v_objPath.str" | signature => "v_signature.sig"
  | string => "v_string.str"

def typeId : Scalar → String
  | byte => "ALLJOYN_BYTE" | boolean => "ALLJOYN_BOOLEAN" | int16 => "ALLJOYN_INT16"
  | uint16 => "ALLJOYN_UINT16" | int32 => "ALLJOYN_INT32" | uint32 => "ALLJOYN_UINT32"
  | int64 => "ALLJOYN_INT64" | uint64 => "ALLJOYN_UINT64" | double => "ALLJOYN_DOUBLE"
  | objectPath => "ALLJOYN_OBJECT_PATH" | signature => "ALLJOYN_SIGNATURE"
  | string => "ALLJOYN_STRING"

/-- The type identifier of an array of this scalar. Arrays of texts have none of their own. -/
def arrayTypeId : Scalar → String
  | byte => "ALLJOYN_BYTE_ARRAY" | boolean => "ALLJOYN_BOOLEAN_ARRAY"
  | int16 => "ALLJOYN_INT16_ARRAY" | uint16 => "ALLJOYN_UINT16_ARRAY"
  | int32 => "ALLJOYN_INT32_ARRAY" | uint32 => "ALLJOYN_UINT32_ARRAY"
  | int64 => "ALLJOYN_INT64_ARRAY" | uint64 => "ALLJOYN_UINT64_ARRAY"
  | double => "ALLJOYN_DOUBLE_ARRAY"
  | objectPath | signature | string => "ALLJOYN_ARRAY"

end Scalar
end BusStub
