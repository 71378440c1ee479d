import Wiretap.CommandLine
import Wiretap.Config.Save

/-!
# The program

Reads the arguments and the configuration that they name, and shows the configuration in effect.
-/

namespace Wiretap.Program

/-- What the program answers when it is asked for help. -/
def usage : String := "\n".intercalate
  ["hookd: game traffic ingestion daemon",
    "",
    "Usage: hookd [OPTIONS]",
    "",
    "Options:",
    "  -c, --conffile <CONFFILE>          Path to configuration file",
    "  -p, --process-name <PROCESS_NAME>  Only watch processes whose name contains this string",
    "  -v, --verbose...                   Increase logging verbosity",
    "  -q, --quiet...                     Decrease logging verbosity",
    "  -h, --help                         Print help",
    "  -V, --version                      Print version"]

/-- The configuration file that is read when the arguments name none. -/
def mainFile : String := "/etc/hookd/config.toml"

/-- The directory of the configuration files that are read after it. -/
def partsDirectory : String := "/etc/hookd/config.d"

/-- The bytes of a file that can be read. -/
def readFile? (path : String) : IO (Option Bytes) := do
  try return some (← IO.FS.readBinFile path).toList
  catch _ => return none

def canOpen (path : String) : IO Bool := do
  try
    let _ ← IO.FS.Handle.mk path .read
    return true
  catch _ => return false

/-- The paths among the ends of the arguments that lead to files. The value of an option is the end
of an argument. -/
def filesIn (args : List String) : IO (List String) :=
  (args.flatMap fun arg =>
    (List.range (arg.length + 1)).map fun n => String.ofList (arg.toList.drop n)).filterM canOpen

/-- The configuration files in a directory, in the order of their names. -/
def partsIn (directory : String) : IO (List String) := do
  try
    let entries ← (← IO.FS.realPath directory).readDir
    let names := (entries.toList.map (·.path.toString)).filter (·.endsWith ".toml")
    return names.mergeSort fun a b => !decide (b < a)
  catch _ => return []

/-- The configuration that the options lead to. -/
def configure (o : CommandLine.Options) : IO (Except ConfigError Config) := do
  let tempDir := (← IO.getEnv "TMPDIR").getD temporaryDirectory
  let loaded ← match o.conffile with
    | some path => do pure (Config.load (← readFile? path) tempDir)
    | none => do
      let paths := mainFile :: (← partsIn partsDirectory)
      pure (Config.loadMerged (← paths.mapM readFile?) tempDir)
  return loaded.map fun config =>
    match o.processName with
    | some name => { config with hook.processName := name }
    | none => config

/-- Shows the configuration in effect: the exit status. -/
def run (args : List String) : IO UInt32 := do
  let files ← filesIn args
  match CommandLine.parse (· ∈ files) args with
  | .error .displayHelp => IO.println usage; return 0
  | .error .displayVersion => IO.println CommandLine.version; return 0
  | .error _ => IO.eprintln usage; return 2
  | .ok options =>
    match (← configure options).bind (·.save) with
    | .error e => IO.eprintln (e.message?.getD "The configuration is malformed"); return 1
    | .ok text => IO.print (String.ofList text); return 0

end Wiretap.Program

def main (args : List String) : IO UInt32 := Wiretap.Program.run args
