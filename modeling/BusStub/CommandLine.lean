import BusStub.Run

/-! The grammar of the command line. Options may stand before and after file names, letters may be
clustered behind one hyphen, and a value stands behind its option, behind an equals sign, or in the
next argument. Nothing but a file name may be given twice. -/

namespace BusStub.CommandLine

inductive Valued where
  | busName | objectPath | objectName | outputPath | logLevel | dumpModel
  deriving DecidableEq, Repr, Inhabited

inductive Flag where
  | clientOnly | overwrite | lax | dumpTypes | help | version
  deriving DecidableEq, Repr, Inhabited

def Valued.ofLetter? : Char → Option Valued
  | 'w' => some .busName
  | 'b' => some .objectPath
  | 'n' => some .objectName
  | 'p' => some .outputPath
  | 'u' => some .logLevel
  | _ => none

def Valued.ofWord? : String → Option Valued
  | "well-known-name" => some .busName
  | "object-path" => some .objectPath
  | "object-name" => some .objectName
  | "output-path" => some .outputPath
  | "log-level" => some .logLevel
  | "dump-model" => some .dumpModel
  | _ => none

def Flag.ofLetter? : Char → Option Flag
  | 'c' => some .clientOnly
  | 'o' => some .overwrite
  | 'l' => some .lax
  | 'h' => some .help
  | 'V' => some .version
  | _ => none

def Flag.ofWord? : String → Option Flag
  | "client-only" => some .clientOnly
  | "overwrite" => some .overwrite
  | "lax-naming" => some .lax
  | "dump-types" => some .dumpTypes
  | "help" => some .help
  | "version" => some .version
  | _ => none

inductive LogLevel where
  | error | warn | info | debug | trace
  deriving DecidableEq, Repr, Inhabited

def LogLevel.ofName? : String → Option LogLevel
  | "error" => some .error
  | "warn" => some .warn
  | "info" => some .info
  | "debug" => some .debug
  | "trace" => some .trace
  | _ => none

def formatOfName? : String → Option ModelFormat
  | "json" => some .json
  | "yaml" => some .yaml
  | _ => none

/-- What has been read of the command line. -/
structure Given where
  values : List (Valued × String) := []
  flags : List Flag := []
  files : List String := []
  deriving Repr, Inhabited

inductive Stop where
  | help | version | misuse
  deriving DecidableEq, Repr, Inhabited

/-- Whether an option can have a value. Paths cannot be empty. -/
def Valued.admits (option : Valued) (value : String) : Bool :=
  match option with
  | .busName | .objectPath | .objectName => true
  | .outputPath => !value.isEmpty
  | .logLevel => (LogLevel.ofName? value).isSome
  | .dumpModel => (formatOfName? value).isSome

namespace Given

def value? (given : Given) (option : Valued) : Option String :=
  given.values.lookup option

def has (given : Given) (flag : Flag) : Bool :=
  given.flags.contains flag

def addValue (given : Given) (option : Valued) (value : String) : Except Stop Given :=
  if (given.value? option).isSome || !option.admits value then .error .misuse
  else .ok { given with values := given.values ++ [(option, value)] }

def addFlag (given : Given) : Flag → Except Stop Given
  | .help => .error .help
  | .version => .error .version
  | flag => if given.has flag then .error .misuse else .ok { given with flags := given.flags ++ [flag] }

def addFile (given : Given) (path : String) : Except Stop Given :=
  if path.isEmpty then .error .misuse else .ok { given with files := given.files ++ [path] }

end Given

/-- What the letters of one argument give, and the option that still lacks its value. -/
def readLetters (given : Given) : List Char → Except Stop (Given × Option Valued)
  | [] => .ok (given, none)
  | letter :: rest => match Flag.ofLetter? letter, Valued.ofLetter? letter with
    | some flag, _ => do readLetters (← given.addFlag flag) rest
    | none, some option => match rest with
      | [] => .ok (given, some option)
      | '=' :: value => return (← given.addValue option (String.ofList value), none)
      | value => return (← given.addValue option (String.ofList value), none)
    | none, none => .error .misuse

/-- The characters before the first equals sign, and those after it if there is one. -/
def cutEquals : List Char → List Char × Option (List Char)
  | [] => ([], none)
  | c :: rest => if c = '=' then ([], some rest) else let (front, back) := cutEquals rest; (c :: front, back)

/-- What a long option gives, and itself if it still lacks its value. -/
def readWord (given : Given) (cs : List Char) : Except Stop (Given × Option Valued) :=
  let (front, back) := cutEquals cs
  let word := String.ofList front
  match Flag.ofWord? word, Valued.ofWord? word, back with
  | some flag, _, none => return (← given.addFlag flag, none)
  | none, some option, some value => return (← given.addValue option (String.ofList value), none)
  | none, some option, none => .ok (given, some option)
  | _, _, _ => .error .misuse

/-- An argument that begins like an option is no value. A hyphen alone is one. -/
def looksLikeOption (argument : String) : Bool :=
  match argument.toList with
  | '-' :: _ :: _ => true
  | _ => false

/-- Reads arguments from left to right; `pending` is the option that lacks its value. -/
def read (given : Given) (pending : Option Valued) : List String → Except Stop Given
  | [] => if pending.isSome then .error .misuse else .ok given
  | argument :: rest => match pending with
    | some option =>
      if looksLikeOption argument then .error .misuse
      else do read (← given.addValue option argument) none rest
    | none => match argument.toList with
      | ['-', '-'] => rest.foldlM Given.addFile given
      | '-' :: '-' :: word => do
        let (given, pending) ← readWord given word
        read given pending rest
      | '-' :: letter :: letters => do
        let (given, pending) ← readLetters given (letter :: letters)
        read given pending rest
      | _ => do read (← given.addFile argument) none rest

inductive Action where
  | generate
  | listModel (format : ModelFormat)
  | listTypes
  deriving DecidableEq, Repr, Inhabited

structure Command where
  settings : Settings
  action : Action := .generate
  logLevel : LogLevel := .warn
  deriving DecidableEq, Repr, Inhabited

namespace Given

/-- A listing of the model comes before one of the types. -/
def action (given : Given) : Action :=
  match (given.value? .dumpModel).bind formatOfName? with
  | some format => .listModel format
  | none => if given.has .dumpTypes then .listTypes else .generate

/-- The bus name and a file must be given; all else has a default. -/
def command? (given : Given) : Option Command := do
  let busName ← given.value? .busName
  if given.files.isEmpty then none
  let settings : Settings :=
    { busName
      objectPath := given.value? .objectPath
      objectName := given.value? .objectName
      clientOnly := given.has .clientOnly
      outputPath := (given.value? .outputPath).getD "."
      overwrite := given.has .overwrite
      lax := given.has .lax
      files := given.files }
  return { settings, action := given.action, logLevel := ((given.value? .logLevel).bind LogLevel.ofName?).getD .warn }

end Given

def parse (arguments : List String) : Except Stop Command := do
  match (← read {} none arguments).command? with
  | some command => return command
  | none => throw .misuse

def versionText : String := "ajgen 0.1.0\n"

def usageText : String := "Usage: ajgen [OPTIONS] --well-known-name <NAME> <FILE>...\n"

def helpText : String := String.join [
  "Generate AllJoyn C++ client and service stubs from XML interface descriptions\n\n",
  usageText,
  "\nArguments:\n",
  "  <FILE>...  Introspection XML files\n",
  "\nOptions:\n",
  "  -w, --well-known-name <NAME>  Well-known bus name the service requests and the client looks for\n",
  "  -b, --object-path <PATH>      Parent object path of the root object\n",
  "  -n, --object-name <NAME>      Class name of the root object, overriding the XML\n",
  "  -c, --client-only             Generate only the client files\n",
  "  -p, --output-path <DIR>       Directory the files are written to [default: .]\n",
  "  -o, --overwrite               Overwrite existing signal handler and method implementation files\n",
  "  -l, --lax-naming              Generate names for unnamed arguments instead of failing\n",
  "  -u, --log-level <LOG_LEVEL>   Log level [default: warn] [possible values: ",
  "error, warn, info, debug, trace]\n",
  "      --dump-model <FORMAT>     Print the parsed interface model and exit [possible values: json, yaml]\n",
  "      --dump-types              Print the discovered composite types as JSON and exit\n",
  "  -h, --help                    Print help\n",
  "  -V, --version                 Print version\n"]

end BusStub.CommandLine
