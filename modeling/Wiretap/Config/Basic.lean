import Wiretap.Block.Registry

/-!
# Configuration

What an operator sets: what to look for and what to load into it, where the platform keeps its
sockets, how often a crashed service is tried again, and the opcodes of the traffic. Durations are
in milliseconds, in the 64 bits with which a file is read; durations of `2 ^ 64` milliseconds and
more, which no file holds, are left out.

Results:

* `Config.raised_idem`: raising zero sizes twice is raising them once.
-/

namespace Wiretap

/-- Which processes are tapped, and how their agents are reached. Durations are below `2 ^ 64`
milliseconds. -/
structure HookConfig where
  /-- Nothing is watched when this is off. -/
  enabled : Bool := true
  /-- The agent on the local disk. -/
  payloadPath : String := "hook.dll"
  /-- A process is tapped if its name contains this text, letter case aside. -/
  processName : String := "ffxiv_dx11.exe"
  channelPrefix : String := "xivhook"
  dialRetryInterval : UInt64 := 500
  dialAttempts : UInt32 := 5
  dialTimeout : UInt64 := 5000
  pingInterval : UInt64 := 1000
  /-- How long after its start a session asks its agent for traffic. -/
  handshakeDelay : UInt64 := 1000
  scanInterval : UInt64 := 1000
  /-- The capacity of the queues of process events. -/
  eventBuffer : UInt64 := 10
  /-- The capacity of the queues of messages and blocks in a session. -/
  blockBuffer : UInt64 := 5000
  deriving DecidableEq, Repr

/-- Model of `HookConfig::channel_name`: the name of the channel on which the agent of a process
listens. -/
def HookConfig.channelName (c : HookConfig) (pid : UInt32) : String :=
  c.channelPrefix ++ "-" ++ toString pid.toNat

/-- The directory for temporary files in an environment that names none. -/
def temporaryDirectory : String := "/tmp"

/-- Where the platform keeps its sockets, and the program that loads agents. The sockets are kept in
the directory for temporary files unless something else is set; see `Config.defaults` for an
environment that names that directory. -/
structure PlatformConfig where
  socketDir : String := temporaryDirectory
  injectorCommand : Option String := none
  deriving DecidableEq, Repr

/-- How often a crashed service is started again, and how long after each crash: fewer than `2 ^ 64`
milliseconds. -/
structure RestartPolicy where
  failureThreshold : UInt32 := 5
  failureBackoff : UInt64 := 1000
  deriving DecidableEq, Repr

/-- The whole configuration. -/
structure Config where
  hook : HookConfig := {}
  platform : PlatformConfig := {}
  supervisor : RestartPolicy := {}
  opcodes : Block.Opcodes := {}
  deriving DecidableEq, Repr

namespace Config

/-- The configuration when nothing is set, in an environment with that directory for temporary
files. -/
def defaults (tempDir : String) : Config := { platform := { socketDir := tempDir } }

/-- A count of attempts, which is never zero. -/
def attempts (a : UInt32) : UInt32 := if a = 0 then 1 else a

/-- A capacity, which is never zero. -/
def capacity (a : UInt64) : UInt64 := if a = 0 then 1 else a

theorem attempts_attempts (a : UInt32) : attempts (attempts a) = attempts a := by
  unfold attempts; split <;> simp_all

theorem capacity_capacity (a : UInt64) : capacity (capacity a) = capacity a := by
  unfold capacity; split <;> simp_all

/-- Model of `Config::apply_defaults`: zero attempts and zero capacities are read as one. -/
def raised (c : Config) : Config :=
  { c with hook := { c.hook with
      dialAttempts := attempts c.hook.dialAttempts
      eventBuffer := capacity c.hook.eventBuffer
      blockBuffer := capacity c.hook.blockBuffer } }

theorem raised_idem (c : Config) : c.raised.raised = c.raised := by
  simp only [raised, attempts_attempts, capacity_capacity]

end Config
end Wiretap
