import BusStub.CommandLine

/-! The program from its arguments to what it prints and the status it ends with. -/

namespace BusStub

/-- What a run of the program leaves behind besides files. -/
structure Outcome where
  status : Nat := 0
  /-- What is printed as the result. -/
  output : String := ""
  /-- What is printed about a failure. -/
  report : String := ""
  deriving DecidableEq, Repr, Inhabited

namespace Program

/-- Further lines of a message stand below its first. -/
def hang (width : Nat) (message : String) : String :=
  String.intercalate ("\n" ++ String.ofList (List.replicate width ' ')) (Text.pieces '\n' message)

def numbered (n : Nat) : String :=
  let digits := toString n
  String.ofList (List.replicate (5 - digits.length) ' ') ++ digits ++ ": "

/-- The lines about causes, which are numbered if there are several. -/
def causeLines (causes : List String) : List String :=
  match causes with
  | [cause] => ["    " ++ hang 4 cause]
  | _ => causes.zipIdx.map fun (cause, n) => numbered n ++ hang 7 cause

def report (message : String) (causes : List String) : String :=
  let below := if causes.isEmpty then [] else "" :: "Caused by:" :: causeLines causes
  String.join ((("Error: " ++ message) :: below).map (· ++ "\n"))

def reportChain : List String → String
  | [] => report "" []
  | message :: causes => report message causes

def failure (chain : List String) : Outcome :=
  { status := 1, report := reportChain chain }

def wrote (path : String) : String :=
  "[✓] Wrote " ++ path ++ "\n"

/-- The outcome of something that can fail, with what it prints. -/
def finish (print : α → String) : Except RunError α → Outcome
  | .ok value => { output := print value }
  | .error error => failure error.chain

variable {m : Type → Type} [Monad m] [Disk m]

def act (settings : Settings) : CommandLine.Action → m Outcome
  | .generate => return finish (fun paths => String.join (paths.map wrote)) (← Run.generate settings)
  | .listModel format => return finish (· ++ "\n") (← Run.listModel settings format)
  | .listTypes => return finish (· ++ "\n") (← Run.listTypes settings)

def perform (command : CommandLine.Command) : m Outcome := do
  match ← command.settings.check with
  | .error error => return failure [error.message]
  | .ok () => act command.settings command.action

def stop : CommandLine.Stop → Outcome
  | .help => { output := CommandLine.helpText }
  | .version => { output := CommandLine.versionText }
  | .misuse => { status := 2, report := "error: invalid arguments\n\n" ++ CommandLine.usageText }

def run (arguments : List String) : m Outcome :=
  match CommandLine.parse arguments with
  | .error reason => return stop reason
  | .ok command => perform command

end Program
end BusStub
