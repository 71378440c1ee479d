import Wiretap.Injection

/-!
# The helper that loads payloads

Loading a payload into a process is left to a helper program, which gets the number of the process
and the path of the payload. Its exit tells how it went. Without a helper the agent is expected to
be there already.
-/

namespace Wiretap.Platform

/-- How a program ended. -/
inductive HelperExit where
  | status (code : Nat)
  | signal (number : Nat)
  deriving DecidableEq, Repr

/-- The exit status by which the helper says that the payload was loaded before
(`ALREADY_INJECTED_EXIT_CODE`). -/
def alreadyInjectedStatus : Nat := 3

/-- The names of the signals that end a program. -/
def signalNames : List (Nat × String) :=
  [(1, "SIGHUP"), (2, "SIGINT"), (3, "SIGQUIT"), (4, "SIGILL"), (5, "SIGTRAP"), (6, "SIGABRT"),
    (7, "SIGBUS"), (8, "SIGFPE"), (9, "SIGKILL"), (10, "SIGUSR1"), (11, "SIGSEGV"), (12, "SIGUSR2"),
    (13, "SIGPIPE"), (14, "SIGALRM"), (15, "SIGTERM"), (16, "SIGSTKFLT"), (17, "SIGCHLD"),
    (18, "SIGCONT"), (19, "SIGSTOP"), (20, "SIGTSTP"), (21, "SIGTTIN"), (22, "SIGTTOU"),
    (23, "SIGURG"), (24, "SIGXCPU"), (25, "SIGXFSZ"), (26, "SIGVTALRM"), (27, "SIGPROF"),
    (28, "SIGWINCH"), (29, "SIGIO"), (30, "SIGPWR"), (31, "SIGSYS")]

/-- How an exit is described. -/
def HelperExit.describe : HelperExit → String
  | status code => "exit status: " ++ toString code
  | signal number =>
    match signalNames.lookup number with
    | some name => "signal: " ++ toString number ++ " (" ++ name ++ ")"
    | none => "signal: " ++ toString number

/-- What the exit of the helper at that path means. -/
def outcomeOf (path : String) : HelperExit → Except InjectionFault Unit
  | .status 0 => .ok ()
  | .status code =>
    if code = alreadyInjectedStatus then .error .alreadyInjected
    else .error (.failed (path ++ " exited with " ++ (HelperExit.status code).describe))
  | exit => .error (.failed (path ++ " exited with " ++ exit.describe))

/-- Model of `UnixSocketProvider::inject_payload`: what becomes of loading a payload, given how
running the helper goes. -/
def load (helper : Option String) (run : String → Except Fault HelperExit) :
    Except InjectionFault Unit :=
  match helper with
  | none => .error .alreadyInjected
  | some path =>
    match run path with
    | .error f => .error (.io f)
    | .ok exit => outcomeOf path exit

end Wiretap.Platform
