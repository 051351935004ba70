import BusStub.Disk.Fault
import BusStub.Disk.Path

/-! What the program needs of the machine: files, and a place for its remarks. Everything above is
written for any machine that has these operations. -/

namespace BusStub

class Disk (m : Type → Type) where
  isPresent : String → m Bool
  isDirectory : String → m Bool
  readText : String → m (Except DiskFault String)
  makeDirectory : String → m (Except DiskFault Unit)
  writeText : String → String → m (Except DiskFault Unit)
  warn : String → m Unit

namespace Disk

variable {m : Type → Type} [Monad m] [Disk m]

/-- A directory that could not be made is good enough if it is there. -/
def settle (path : String) (made : Except DiskFault Unit) : m (Except DiskFault Unit) :=
  match made with
  | .ok () => return .ok ()
  | .error fault => do
    let there ← isDirectory path
    return if there then .ok () else .error fault

/-- Makes the first directory, after those above it if they are missing. The empty path is where the
program runs, and always there. -/
def makeEach : List String → m (Except DiskFault Unit)
  | [] => return .error (.other "failed to create whole tree")
  | path :: above => do
    if path.isEmpty then return .ok ()
    match ← makeDirectory path with
    | .error .missing => match ← makeEach above with
      | .ok () => settle path (← makeDirectory path)
      | .error fault => return .error fault
    | made => settle path made

/-- Makes a directory and all above it. -/
def makeAll (path : String) : m (Except DiskFault Unit) :=
  makeEach (path :: Path.above path)

end Disk
end BusStub
