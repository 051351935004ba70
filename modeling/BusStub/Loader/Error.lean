import BusStub.Disk.Fault

/-! Why a description cannot be loaded, and what is only remarked on. -/

namespace BusStub

inductive LoadError where
  | unreadable (path : String) (cause : DiskFault)
  | malformed
  | unexpectedRoot (tag : String)
  | missingAttribute (tag key : String)
  | unnamedArg (member : String)
  | duplicateArg (member arg : String)
  | invalidDirection (member arg value : String)
  | invalidAccess (property value : String)
  /-- One interface name stands for two different interfaces. -/
  | conflict (interface : String)
  | nestedName (name : String)
  | duplicateObject (name : String)
  | missingObjectName
  deriving DecidableEq, Repr, Inhabited

namespace LoadError

def malformedDetail : String := "the document is not well formed"

def message : LoadError → String
  | unreadable path cause => "failed to read " ++ path ++ ": " ++ cause.message
  | malformed => "malformed XML: " ++ malformedDetail
  | unexpectedRoot tag => "expected a <node> document root, found <" ++ tag ++ ">"
  | missingAttribute tag key => "<" ++ tag ++ "> is missing the '" ++ key ++ "' attribute"
  | unnamedArg member =>
    "in " ++ member ++ ", all arguments must be named; enable lax naming for generated names"
  | duplicateArg member arg => member ++ " cannot have multiple arguments named '" ++ arg ++ "'"
  | invalidDirection member arg value =>
    "argument '" ++ arg ++ "' of " ++ member ++ " has invalid direction '" ++ value ++ "'"
  | invalidAccess property value => "property '" ++ property ++ "' has invalid access '" ++ value ++ "'"
  | conflict interface => "two interfaces named '" ++ interface ++ "' with different contents"
  | nestedName name => "nested object names must be given and cannot be paths (found '" ++ name ++ "')"
  | duplicateObject name => "more than one object named '" ++ name ++ "'"
  | missingObjectName => "object name not defined; give it in the XML or on the command line"

/-- The messages from the error to its root cause. -/
def chain (error : LoadError) : List String :=
  match error with
  | unreadable _ cause => [error.message, cause.message]
  | malformed => [error.message, malformedDetail]
  | _ => [error.message]

end LoadError

inductive LoadWarning where
  /-- A name from outside replaces the one in the document. -/
  | renamed (name written : String)
  | signalDirection (arg signal : String)
  deriving DecidableEq, Repr, Inhabited

def LoadWarning.message : LoadWarning → String
  | renamed name written => "object name '" ++ name ++ "' overrides '" ++ written ++ "' from the XML"
  | signalDirection arg signal =>
    "signal argument \"" ++ arg ++ "\" of " ++ signal ++ " should not have a direction"

end BusStub
