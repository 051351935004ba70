import BusStub.Program

/-! The program on a real machine. -/

namespace BusStub

/-- Work on the machine, knowing whether remarks are wanted. -/
abbrev Work := ReaderT Bool IO

namespace Work

/-- The fault that an error of the operating system stands for. -/
def faultOf : IO.Error → DiskFault
  | .noFileOrDirectory .. => .missing
  | .alreadyExists .. => .present
  | .inappropriateType _ code _ => if code = 21 then .isDirectory else .notDirectory
  | error => .other (toString error)

def attempt (action : IO α) : Work (Except DiskFault α) := do
  match ← action.toBaseIO with
  | .ok value => return .ok value
  | .error error => return .error (faultOf error)

/-- Something is at a path if it can be opened, or if only the right to do so is missing. -/
def canOpen (path : String) : Work Bool := do
  match ← (IO.FS.Handle.mk path .read).toBaseIO with
  | .ok _ | .error (.permissionDenied ..) => return true
  | .error _ => return false

def readText (path : String) : Work (Except DiskFault String) := do
  match ← attempt (IO.FS.readBinFile path) with
  | .error fault => return .error fault
  | .ok bytes => match String.fromUTF8? bytes with
    | some text => return .ok text
    | none => return .error .notText

instance : Disk Work where
  isPresent := canOpen
  isDirectory path := canOpen (path ++ "/.")
  readText := readText
  makeDirectory path := attempt (IO.FS.createDir path)
  writeText path text := attempt (IO.FS.writeFile path text)
  warn text := do
    if ← read then IO.eprintln ("WARN " ++ text)

end Work

/-- Remarks are wanted unless only errors are to be logged. -/
def isLoud (arguments : List String) : Bool :=
  match CommandLine.parse arguments with
  | .ok command => command.logLevel ≠ .error
  | .error _ => false

end BusStub

def main (arguments : List String) : IO UInt32 := do
  let work : BusStub.Work BusStub.Outcome := BusStub.Program.run arguments
  let outcome ← work.run (BusStub.isLoud arguments)
  (← IO.getStdout).putStr outcome.output
  (← IO.getStderr).putStr outcome.report
  return outcome.status.toUInt32
