import Wiretap.Platform.Helper

/-!
# Scripted helpers

A helper script stores its arguments and then runs one simple command, which decides how it ends.
-/

namespace Wiretap.Scenario

open Platform (HelperExit)

/-- A helper: a program that does not exist, or a script with that command. -/
inductive HelperScript where
  | missing
  | command (line : String)
  deriving Repr

/-- The exit of a shell that was told to end with that word. -/
def exitWith (word : String) : HelperExit :=
  match word.toNat? with
  | some n => .status (n % 256)
  | none => .status 2

/-- The number of the signal of that name or number. -/
def signal? (word : String) : Option Nat :=
  match word.toNat? with
  | some n => some n
  | none => (Platform.signalNames.find? fun s => s.2 = word ∨ s.2 = "SIG" ++ word).map (·.1)

/-- Signals that a program does not end by, unless it asks for them. -/
def harmless : List Nat := [0, 17, 18, 23, 28]

/-- The exit of a shell that sends itself that signal as its last command. -/
def killedBy (flag : String) : HelperExit :=
  match signal? (String.ofList (flag.toList.dropWhile (· = '-'))) with
  | some n => if n ∈ harmless then .status 0 else .signal n
  | none => .status 2

/-- How a script with that last command ends. -/
def exitOf (line : String) : HelperExit :=
  match (line.splitOn " ").filter (· != "") with
  | [] | ["true"] | [":"] | ["exit"] => .status 0
  | ["false"] => .status 1
  | ["exit", word] => exitWith word
  | ["kill", "$$"] => .signal 15
  | ["kill", flag, "$$"] | ["kill", "-s", flag, "$$"] => killedBy flag
  | ["sleep", _] => .status 0
  | _ => .status 127

/-- The text of the arguments as the script stores them: one a line. -/
def argumentText (pid : UInt32) (payload : String) : String :=
  toString pid.toNat ++ "\n" ++ payload ++ "\n"

/-- Runs the helper: what became of it, and the arguments that it stored, if it ran. -/
def runHelper (helper : Option HelperScript) (pid : UInt32) (payload : String) :
    Except InjectionFault Unit × Option String :=
  let path := "DIR/inject"
  let refuse (f : Fault) := (Platform.load (some path) fun _ => .error f, none)
  match helper with
  | none => (Platform.load none fun _ => .ok (.status 0), none)
  | some script =>
    if payload.toList.contains '\x00' then
      refuse ⟨.invalidInput, "nul byte found in provided data"⟩
    else
      match script with
      | .missing => refuse .noSuchFile
      | .command line =>
        (Platform.load (some path) fun _ => .ok (exitOf line), some (argumentText pid payload))

end Wiretap.Scenario
