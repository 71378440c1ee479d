/-!
# The command line

The service takes a configuration file, the name of the processes to watch, and how much to log. An
option with a value is entered when the next one is read, so an unknown argument is reported before
a bad value that precedes it.
-/

namespace Wiretap.CommandLine

/-- How much is logged. -/
inductive Level where
  | off
  | error
  | warn
  | info
  | debug
  | trace
  deriving DecidableEq, Repr

def Level.name : Level → String
  | off => "OFF"
  | error => "ERROR"
  | warn => "WARN"
  | info => "INFO"
  | debug => "DEBUG"
  | trace => "TRACE"

/-- Why the arguments do not make options. -/
inductive Stop where
  | unknownArgument
  /-- An option lacks its value. -/
  | invalidValue
  /-- An option is given twice, or with one that excludes it. -/
  | argumentConflict
  /-- The configuration file does not exist. -/
  | valueValidation
  /-- A flag is given a value. -/
  | tooManyValues
  | displayHelp
  | displayVersion
  deriving DecidableEq, Repr

/-- What the service answers when it is asked for its version. -/
def version : String := "hookd 0.1.0"

/-- The options that take a value. -/
inductive Setting where
  | conffile
  | processName
  deriving DecidableEq, Repr

/-- The options that take none. -/
inductive Flag where
  | verbose
  | quiet
  | help
  | version
  deriving DecidableEq, Repr

inductive Opt where
  | setting (s : Setting)
  | flag (f : Flag)
  deriving DecidableEq, Repr

def Opt.ofLetter? : Char → Option Opt
  | 'c' => some (.setting .conffile)
  | 'p' => some (.setting .processName)
  | 'v' => some (.flag .verbose)
  | 'q' => some (.flag .quiet)
  | 'h' => some (.flag .help)
  | 'V' => some (.flag .version)
  | _ => none

def Opt.ofName? (name : List Char) : Option Opt :=
  [("conffile", setting .conffile), ("process-name", setting .processName),
    ("verbose", flag .verbose), ("quiet", flag .quiet), ("help", flag .help),
    ("version", flag .version)].findSome? fun (n, o) => if n.toList = name then some o else none

/-- Model of `Cli`: what the arguments say. -/
structure Options where
  conffile : Option String := none
  processName : Option String := none
  verbose : Nat := 0
  quiet : Nat := 0
  deriving DecidableEq, Repr

namespace Options

/-- A flag counts up to this. -/
def maxCount : Nat := 255

/-- How much these options log. -/
def level (o : Options) : Level :=
  if 2 + o.verbose < o.quiet then .off
  else
    match 2 + o.verbose - o.quiet with
    | 0 => .error
    | 1 => .warn
    | 2 => .info
    | 3 => .debug
    | _ => .trace

/-- Enters the value of a setting. -/
def enter (there : String → Bool) (o : Options) : Setting → Option String → Except Stop Options
  | _, none => .error .invalidValue
  | .conffile, some path =>
    if o.conffile.isSome then .error .argumentConflict
    else if there path then .ok { o with conffile := some path }
    else .error .valueValidation
  | .processName, some name =>
    if o.processName.isSome then .error .argumentConflict
    else .ok { o with processName := some name }

/-- Raises a flag. -/
def raise (o : Options) : Flag → Except Stop Options
  | .verbose => .ok { o with verbose := min (o.verbose + 1) maxCount }
  | .quiet => .ok { o with quiet := min (o.quiet + 1) maxCount }
  | .help => .error .displayHelp
  | .version => .error .displayVersion

end Options

/-- What has been read: the options that were entered, and the setting that was read last, with its
value once that has been read. -/
structure Reading where
  options : Options := {}
  pending : Option (Setting × Option String) := none

namespace Reading

variable (there : String → Bool)

/-- Enters the setting that is pending. -/
def resolve (r : Reading) : Except Stop Reading :=
  match r.pending with
  | none => .ok r
  | some (s, value) => (r.options.enter there s value).map fun options => { options }

/-- Reads a setting. Its value may be attached to it. -/
def readSetting (r : Reading) (s : Setting) (attached : Option (List Char)) :
    Except Stop Reading :=
  match r.resolve there with
  | .error e => .error e
  | .ok r =>
    match attached with
    | some value =>
      (r.options.enter there s (some (String.ofList value))).map fun options => { options }
    | none => .ok { r with pending := some (s, none) }

def readFlag (r : Reading) (f : Flag) : Except Stop Reading :=
  match r.resolve there with
  | .error e => .error e
  | .ok r => (r.options.raise f).map fun options => { options }

/-- Reads the letters after a single dash. What follows the letter of a setting is its value, and an
equals sign before the value is not part of it. -/
def readLetters (r : Reading) : List Char → Except Stop Reading
  | [] => .ok r
  | c :: rest =>
    match Opt.ofLetter? c with
    | none => .error .unknownArgument
    | some (.flag f) =>
      match r.readFlag there f with
      | .error e => .error e
      | .ok r => readLetters r rest
    | some (.setting s) =>
      let attached := match rest with
        | [] => none
        | '=' :: value => some value
        | value => some value
      r.readSetting there s attached

/-- Reads what follows two dashes: a name, and perhaps a value after an equals sign. -/
def readName (r : Reading) (cs : List Char) : Except Stop Reading :=
  let name := cs.takeWhile (· != '=')
  let value := match cs.dropWhile (· != '=') with
    | [] => none
    | _ :: value => some value
  match Opt.ofName? name, value with
  | none, _ => .error .unknownArgument
  | some (.setting s), value => r.readSetting there s value
  | some (.flag _), some _ => .error .tooManyValues
  | some (.flag f), none => r.readFlag there f

/-- Reads an argument that is no option: the value that is waited for. -/
def readValue (r : Reading) (arg : String) : Except Stop Reading :=
  match r.pending with
  | some (s, none) => .ok { r with pending := some (s, some arg) }
  | _ => .error .unknownArgument

/-- Reads one argument. -/
def read (r : Reading) (arg : String) : Except Stop Reading :=
  match arg.toList with
  | '-' :: '-' :: name => r.readName there name
  | '-' :: c :: letters => r.readLetters there (c :: letters)
  | _ => r.readValue arg

/-- Reads all arguments. Two dashes by themselves may only come last. -/
def readAll (r : Reading) : List String → Except Stop Reading
  | [] => .ok r
  | arg :: rest =>
    if arg = "--" then (if rest.isEmpty then .ok r else .error .unknownArgument)
    else
      match r.read there arg with
      | .error e => .error e
      | .ok r => readAll r rest

end Reading

/-- The options that the arguments make. -/
def parse (there : String → Bool) (args : List String) : Except Stop Options :=
  match (Reading.readAll there {} args).bind (Reading.resolve there) with
  | .error e => .error e
  | .ok r =>
    if 0 < r.options.verbose ∧ 0 < r.options.quiet then .error .argumentConflict else .ok r.options

end Wiretap.CommandLine
