import Wiretap.Config.Load

/-!
# Saving a configuration

A configuration is written section by section, each key on its own line, sections set apart by an
empty line. An absent value is left out. The format holds no integer above `2 ^ 63 - 1`.

Results:

* `save_eq_error_iff`: a configuration cannot be saved exactly when one of its numbers is too large.
-/

namespace Wiretap.Config

/-- A value as it is written. -/
inductive Scalar where
  | text (s : String)
  | number (n : Nat)
  | truth (b : Bool)

/-- The largest integer of the format. -/
def maxInteger : Nat := Nat.pow 2 63 - 1

def Scalar.fits : Scalar → Bool
  | number n => n ≤ maxInteger
  | _ => true

def Scalar.write : Scalar → List Char
  | text s => Toml.Quoted.write s.toList
  | number n => (toString n).toList
  | truth b => (if b then "true" else "false").toList

/-- The sections of a configuration, with the values of their keys in order. -/
def sections (c : Config) : List (String × List (String × Scalar)) :=
  let number {α : Type} (toNat : α → Nat) (a : α) : Scalar := .number (toNat a)
  [("hook",
      [("enabled", .truth c.hook.enabled), ("payload_path", .text c.hook.payloadPath),
        ("process_name", .text c.hook.processName), ("channel_prefix", .text c.hook.channelPrefix),
        ("dial_retry_interval", number UInt64.toNat c.hook.dialRetryInterval),
        ("dial_attempts", number UInt32.toNat c.hook.dialAttempts),
        ("dial_timeout", number UInt64.toNat c.hook.dialTimeout),
        ("ping_interval", number UInt64.toNat c.hook.pingInterval),
        ("handshake_delay", number UInt64.toNat c.hook.handshakeDelay),
        ("scan_interval", number UInt64.toNat c.hook.scanInterval),
        ("event_buffer", number UInt64.toNat c.hook.eventBuffer),
        ("block_buffer", number UInt64.toNat c.hook.blockBuffer)]),
    ("platform",
      ("socket_dir", .text c.platform.socketDir)
        :: (c.platform.injectorCommand.map fun s => ("injector_command", .text s)).toList),
    ("supervisor",
      [("failure_threshold", number UInt32.toNat c.supervisor.failureThreshold),
        ("failure_backoff", number UInt64.toNat c.supervisor.failureBackoff)]),
    ("opcodes",
      [("init_zone", number UInt16.toNat c.opcodes.initZone),
        ("casting", number UInt16.toNat c.opcodes.casting),
        ("control", number UInt16.toNat c.opcodes.control),
        ("movement", number UInt16.toNat c.opcodes.movement),
        ("egress_movement", number UInt16.toNat c.opcodes.egressMovement),
        ("egress_instance_movement", number UInt16.toNat c.opcodes.egressInstanceMovement),
        ("chat", number UInt16.toNat c.opcodes.chat),
        ("egress_chat", number UInt16.toNat c.opcodes.egressChat)])]

/-- A key with its value, on a line. -/
def writeEntry (key : String) (value : Scalar) : List Char :=
  key.toList ++ [' ', '=', ' '] ++ value.write ++ ['\n']

/-- A header and the lines of its section. -/
def writeSection (name : String) (entries : List (String × Scalar)) : List Char :=
  '[' :: name.toList ++ [']', '\n'] ++ entries.flatMap fun (key, value) => writeEntry key value

/-- Whether the format holds every number of the configuration. -/
def writable (c : Config) : Bool := c.sections.all fun (_, entries) => entries.all (·.2.fits)

/-- The text of a configuration. -/
def written (c : Config) : List Char :=
  ((c.sections.map fun (name, entries) => writeSection name entries).intersperse ['\n']).flatten

/-- Model of `Config::save`: the text of the file that a configuration is saved to. -/
def save (c : Config) : Except ConfigError (List Char) :=
  if c.writable then .ok c.written else .error .unwritable

theorem save_eq_error_iff (c : Config) (e : ConfigError) :
    c.save = .error e ↔ c.writable = false ∧ e = .unwritable := by
  unfold save
  cases h : c.writable <;> simp [eq_comm]

end Wiretap.Config
