import BusStub.Text.Split

/-! Paths of files as texts. They are shown as they were given and never shortened; only joining a
name to a directory and going up from a path look at their parts. -/

namespace BusStub.Path

def isAbsolute (path : String) : Bool :=
  path.toList.head? = some '/'

def endsInSlash (path : String) : Bool :=
  path.toList.getLast? = some '/'

def names (path : String) : List String :=
  (Text.pieces '/' path).filter (!·.isEmpty)

/-- A file in a directory. An absolute name leaves the directory. -/
def join (directory name : String) : String :=
  if isAbsolute name then name
  else if directory.isEmpty || endsInSlash directory then directory ++ name
  else directory ++ "/" ++ name

/-- The names without those that stay where they are, except a first one. -/
def steps (path : String) : List String :=
  match isAbsolute path, names path with
  | false, "." :: rest => "." :: rest.filter (· != ".")
  | _, names => names.filter (· != ".")

def ofSteps (absolute : Bool) (steps : List String) : String :=
  (if absolute then "/" else "") ++ String.intercalate "/" steps

/-- The paths above a path, nearest first. Above a relative path stands the empty one. -/
def above (path : String) : List String :=
  let steps := steps path
  (List.range steps.length).reverse.map fun n => ofSteps (isAbsolute path) (steps.take n)

end BusStub.Path
