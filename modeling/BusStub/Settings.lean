import BusStub.BusName
import BusStub.Disk
import BusStub.Loader
import BusStub.Stub.Files

/-! What a run is asked to do, and what cannot be asked. -/

namespace BusStub

structure Settings where
  busName : String := ""
  objectPath : Option String := none
  objectName : Option String := none
  clientOnly : Bool := false
  outputPath : String := "."
  overwrite : Bool := false
  lax : Bool := false
  /-- The descriptions to load, in this order. -/
  files : List String := []
  deriving DecidableEq, Repr, Inhabited

inductive SettingsError where
  | busName (name : String) (fault : BusNameFault)
  | objectPath (path : String) (fault : ObjectPathFault)
  | noFiles
  | outputPath (path : String)
  deriving DecidableEq, Repr, Inhabited

def SettingsError.message : SettingsError → String
  | busName name fault => "invalid well-known name '" ++ name ++ "': " ++ fault.reason
  | objectPath path fault => "invalid object path '" ++ path ++ "': " ++ fault.reason
  | noFiles => "no input XML files given"
  | outputPath path => "output path " ++ path ++ " is not a directory"

namespace Settings

def loadOptions (settings : Settings) : LoadOptions :=
  { lax := settings.lax, objectPath := settings.objectPath, objectName := settings.objectName }

def stubOptions (settings : Settings) : StubOptions :=
  { busName := some settings.busName, service := !settings.clientOnly }

def error? (settings : Settings) : Option SettingsError :=
  match BusName.fault? settings.busName with
  | some fault => some (.busName settings.busName fault)
  | none => match settings.objectPath.bind fun path => (ObjectPath.fault? path).map (path, ·) with
    | some (path, fault) => some (.objectPath path fault)
    | none => if settings.files.isEmpty then some .noFiles else none

/-- The first thing wrong with the settings on the machine where they are used. -/
def check {m : Type → Type} [Monad m] [Disk m] (settings : Settings) : m (Except SettingsError Unit) := do
  match settings.error? with
  | some error => return .error error
  | none =>
    let present ← Disk.isPresent settings.outputPath
    let directory ← Disk.isDirectory settings.outputPath
    return if present && !directory then .error (.outputPath settings.outputPath) else .ok ()

end Settings
end BusStub
