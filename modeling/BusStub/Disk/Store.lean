import BusStub.Disk

/-! Files in memory. A location is the list of names from the root of the tree; everything but the
root has an entry, and paths that do not begin with a slash are followed from `home`. -/

namespace BusStub

abbrev Location := List String

inductive Node where
  | file (bytes : ByteArray)
  | directory
  deriving Inhabited

structure Store where
  home : Location := ["home"]
  entries : List (Location × Node) := [(["home"], .directory)]
  deriving Inhabited

namespace Store

def maxName : Nat := 255

def maxPath : Nat := 4095

def node? (store : Store) (location : Location) : Option Node :=
  if location.isEmpty then some .directory else store.entries.lookup location

def isDirectoryAt (store : Store) (location : Location) : Bool :=
  match store.node? location with
  | some .directory => true
  | _ => false

def put (store : Store) (location : Location) (node : Node) : Store :=
  if (store.entries.lookup location).isSome then
    { store with entries := store.entries.map fun entry => if entry.1 = location then (location, node) else entry }
  else { store with entries := store.entries ++ [(location, node)] }

/-- Names are looked for in directories only. -/
def checkDirectory (store : Store) (location : Location) : Except DiskFault Unit :=
  match store.node? location with
  | none => .error .missing
  | some (.file _) => .error .notDirectory
  | some .directory => .ok ()

def step (store : Store) (location : Location) (name : String) : Except DiskFault Location := do
  store.checkDirectory location
  if name = "." then .ok location
  else if name = ".." then .ok location.dropLast
  else if maxName < name.utf8ByteSize then .error .nameTooLong
  else .ok (location ++ [name])

def origin (store : Store) (path : String) : Location :=
  if Path.isAbsolute path then [] else store.home

def checkPath (path : String) : Except DiskFault Unit :=
  if path.toList.contains '\x00' then .error .nullInPath
  else if path.isEmpty then .error .missing
  else if maxPath < path.utf8ByteSize then .error .nameTooLong
  else .ok ()

/-- Follows a path to where it leads, whether there is something or not. -/
def locate (store : Store) (path : String) : Except DiskFault Location := do
  checkPath path
  (Path.names path).foldlM (step store) (store.origin path)

/-- Follows a path up to its last name, and refuses what cannot hold that name. -/
def checkAbove (store : Store) (path : String) : Except DiskFault Unit := do
  checkPath path
  store.checkDirectory (← (Path.names path).dropLast.foldlM (step store) (store.origin path))

/-- What a path leads to. Only directories may be followed by a slash. -/
def find (store : Store) (path : String) : Except DiskFault Node := do
  match store.node? (← store.locate path) with
  | none => .error .missing
  | some (.file bytes) => if Path.endsInSlash path then .error .notDirectory else .ok (.file bytes)
  | some .directory => .ok .directory

def isPresent (store : Store) (path : String) : Bool :=
  (store.find path).isOk

def isDirectory (store : Store) (path : String) : Bool :=
  match store.find path with
  | .ok .directory => true
  | _ => false

def readText (store : Store) (path : String) : Except DiskFault String := do
  match ← store.find path with
  | .directory => .error .isDirectory
  | .file bytes => match String.fromUTF8? bytes with
    | some text => .ok text
    | none => .error .notText

/-- The last name of a path stays where it is or goes up. -/
def endsInDots (path : String) : Bool :=
  match (Path.names path).getLast? with
  | some name => name = "." || name = ".."
  | none => true

def makeDirectory (store : Store) (path : String) : Except DiskFault Store := do
  let location ← store.locate path
  if endsInDots path || (store.node? location).isSome then .error .present
  else .ok (store.put location .directory)

/-- Makes a file or replaces its contents. A path that ends in a slash or in dots means a directory,
and is refused as one before its last name is looked at. -/
def writeBytes (store : Store) (path : String) (bytes : ByteArray) : Except DiskFault Store := do
  if endsInDots path || Path.endsInSlash path then
    store.checkAbove path
    .error .isDirectory
  else
    let location ← store.locate path
    if store.isDirectoryAt location then .error .isDirectory
    else .ok (store.put location (.file bytes))

end Store

/-- A machine in memory: its files and what the program has remarked. -/
structure Machine where
  store : Store := {}
  warnings : List String := []
  deriving Inhabited

namespace Machine

/-- Changes the files unless the change is refused. -/
def change (attempt : Store → Except DiskFault Store) : StateM Machine (Except DiskFault Unit) := fun machine =>
  match attempt machine.store with
  | .ok store => (.ok (), { machine with store })
  | .error fault => (.error fault, machine)

instance : Disk (StateM Machine) where
  isPresent path := fun machine => (machine.store.isPresent path, machine)
  isDirectory path := fun machine => (machine.store.isDirectory path, machine)
  readText path := fun machine => (machine.store.readText path, machine)
  makeDirectory path := change (·.makeDirectory path)
  writeText path text := change (·.writeBytes path text.toUTF8)
  warn text := fun machine => ((), { machine with warnings := machine.warnings ++ [text] })

end Machine
end BusStub
