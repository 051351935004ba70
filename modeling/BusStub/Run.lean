import BusStub.Model.Json
import BusStub.Output
import BusStub.Registry.Json
import BusStub.Settings
import BusStub.Yaml

/-! A run from descriptions to files or listings, with the reader of documents that the program has or
with any other. Everything is loaded and generated before the first file is written. -/

namespace BusStub

inductive RunError where
  | load (file : String) (cause : LoadError)
  | noObjects
  | generate (object : String) (cause : StubError)
  | discover (object : String) (cause : StubError)
  | write (directory : String) (cause : DiskFault)
  deriving DecidableEq, Repr

/-- The messages from the error to its root cause. -/
def RunError.chain : RunError → List String
  | .load file cause => ("failed to load " ++ file) :: cause.chain
  | .noObjects => ["no object in the input declares an interface"]
  | .generate object cause => ("failed to generate code for object " ++ object) :: cause.chain
  | .discover object cause => ("failed to discover types of object " ++ object) :: cause.chain
  | .write directory cause => ["failed to write output to " ++ directory, cause.message]

inductive ModelFormat where
  | json | yaml
  deriving DecidableEq, Repr, Inhabited

namespace Run

def emitAll (options : StubOptions) (objects : List ObjectNode) : Except RunError (List OutputFile) := do
  let files ← objects.mapM fun object => (object.emit options).mapError (.generate object.name)
  return files.flatten

def discoverAll (objects : List ObjectNode) : Except RunError (List Registry) :=
  objects.mapM fun object => (Registry.discover object.interface).mapError (.discover object.name)

def modelText (format : ModelFormat) (objects : List ObjectNode) : String :=
  let json := Json.array (objects.map ObjectNode.toJson)
  match format with
  | .json => json.pretty
  | .yaml => Yaml.text json

def typesText (registries : List Registry) : String :=
  (Json.array (registries.map Registry.toJson)).pretty

variable {m : Type → Type} [Monad m] [Disk m]

section
variable (read : String → Option Xml.Element)

/-- Loads the text of a file and passes on what it remarks. -/
def loadText (options : LoadOptions) (file text : String) (loader : Loader) : m (Except RunError Loader) := do
  let (result, after) := (Loader.documentBy read options text).run loader
  (after.warnings.drop loader.warnings.length).forM fun warning => Disk.warn warning.message
  match result with
  | .ok () => return .ok after
  | .error cause => return .error (.load file cause)

def loadFiles (options : LoadOptions) : List String → Loader → m (Except RunError Loader)
  | [], loader => return .ok loader
  | file :: rest, loader => do
    match ← Disk.readText file with
    | .error fault => return .error (.load file (.unreadable file fault))
    | .ok text => match ← loadText read options file text loader with
      | .error error => return .error error
      | .ok loader => loadFiles options rest loader

/-- The objects that the files describe; there is at least one. -/
def loadObjects (settings : Settings) : m (Except RunError (List ObjectNode)) := do
  match ← loadFiles read settings.loadOptions settings.files {} with
  | .error error => return .error error
  | .ok loader => return if loader.objects.isEmpty then .error .noObjects else .ok loader.objects

end

/-- Generates and writes the files of all objects, and returns their paths. -/
def generate (settings : Settings) (read : String → Option Xml.Element := Xml.Element.ofDocument?) :
    m (Except RunError (List String)) := do
  match ← loadObjects read settings with
  | .error error => return .error error
  | .ok objects => match emitAll settings.stubOptions objects with
    | .error error => return .error error
    | .ok files =>
      let written ← Output.write settings.outputPath settings.overwrite files
      return written.mapError (.write settings.outputPath)

def listModel (settings : Settings) (format : ModelFormat)
    (read : String → Option Xml.Element := Xml.Element.ofDocument?) : m (Except RunError String) := do
  return (← loadObjects read settings).map (modelText format)

def listTypes (settings : Settings) (read : String → Option Xml.Element := Xml.Element.ofDocument?) :
    m (Except RunError String) := do
  return ((← loadObjects read settings).bind discoverAll).map typesText

end Run
end BusStub
