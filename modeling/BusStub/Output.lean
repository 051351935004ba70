import BusStub.Disk
import BusStub.Stub.Files

/-! Writing generated files into a directory. A file that is the developer's to edit is never
written over unless that is asked for: the new skeleton is written beside it. -/

namespace BusStub.Output

/-- How the files of developers end. -/
def ending : List Char := ['.', 'c', 'c']

def copyName (name : String) : String :=
  let cs := name.toList
  if ending.isSuffixOf cs then String.ofList (cs.take (cs.length - ending.length)) ++ "Copy.cc"
  else name ++ "Copy"

variable {m : Type → Type} [Monad m] [Disk m]

def target (directory : String) (overwrite : Bool) (file : OutputFile) : m String := do
  let path := Path.join directory file.name
  if !file.editable || overwrite then return path
  if !(← Disk.isPresent path) then return path
  let copy := copyName file.name
  Disk.warn (path ++ " already exists; writing the new skeleton to " ++ copy)
  return Path.join directory copy

def writeEach (directory : String) (overwrite : Bool) : List OutputFile → m (Except DiskFault (List String))
  | [] => return .ok []
  | file :: rest => do
    let path ← target directory overwrite file
    match ← Disk.writeText path file.contents with
    | .error fault => return .error fault
    | .ok () => return (← writeEach directory overwrite rest).map (path :: ·)

/-- Writes all files into a directory, which is made if it is missing. -/
def write (directory : String) (overwrite : Bool) (files : List OutputFile) :
    m (Except DiskFault (List String)) := do
  match ← Disk.makeAll directory with
  | .error fault => return .error fault
  | .ok () => writeEach directory overwrite files

end BusStub.Output
