import Wiretap.Config.Basic
import Wiretap.Fault
import Wiretap.Text.Utf8
import Wiretap.Toml.Parser

/-!
# Loading a configuration

A section is a table, each of whose known keys replaces the default of one field; unknown keys are
ignored. A section may also be an array, which gives the fields in order. A time, which holds no
field, leaves the defaults as they are.

Several files make one configuration: their documents are merged in order, and missing files are
left out. What no file sets has its default, which for the directory of the sockets depends on the
environment.
-/

namespace Wiretap

/-- Why a configuration could not be loaded or saved. -/
inductive ConfigError where
  /-- The file could not be read. -/
  | unreadable (fault : Fault)
  /-- The text is no document, or a document of something else. -/
  | malformed
  /-- One of several files is no document. -/
  | malformedPart
  /-- A number is too large to be written. -/
  | unwritable
  deriving DecidableEq, Repr

/-- The text of an error, where the text is the service's own. -/
def ConfigError.message? : ConfigError → Option String
  | unreadable fault => some ("Failed to read file: " ++ fault.text)
  | _ => none

namespace Config

open Toml (Node Entries)

/-! ## Fields -/

def bool? : Node → Option Bool
  | .boolean b => some b
  | _ => none

def text? : Node → Option String
  | .string s => some s
  | _ => none

/-- A number of `bits` bits. -/
def word? (bits : Nat) : Node → Option Nat
  | .integer n => if 0 ≤ n ∧ n < Nat.pow 2 bits then some n.toNat else none
  | _ => none

def word16? (n : Node) : Option UInt16 := (word? 16 n).map UInt16.ofNat

def word32? (n : Node) : Option UInt32 := (word? 32 n).map UInt32.ofNat

def word64? (n : Node) : Option UInt64 := (word? 64 n).map UInt64.ofNat

/-- A field of a section: its key, and how a value replaces it. -/
abbrev Field (σ : Type) := String × (σ → Node → Option σ)

/-- Reads a section over the values `start`. -/
def section? {σ : Type} (fields : List (Field σ)) (start : σ) : Node → Option σ
  | .table _ entries =>
    fields.foldlM (fun s (key, set) =>
      match entries.lookup key with
      | some node => set s node
      | none => some s) start
  | .array _ items => (fields.zip items).foldlM (fun s ((_, set), node) => set s node) start
  | .datetime _ => some start
  | _ => none

def hookFields : List (Field HookConfig) :=
  [("enabled", fun c n => (bool? n).map fun v => { c with enabled := v }),
    ("payload_path", fun c n => (text? n).map fun v => { c with payloadPath := v }),
    ("process_name", fun c n => (text? n).map fun v => { c with processName := v }),
    ("channel_prefix", fun c n => (text? n).map fun v => { c with channelPrefix := v }),
    ("dial_retry_interval", fun c n => (word64? n).map fun v => { c with dialRetryInterval := v }),
    ("dial_attempts", fun c n => (word32? n).map fun v => { c with dialAttempts := v }),
    ("dial_timeout", fun c n => (word64? n).map fun v => { c with dialTimeout := v }),
    ("ping_interval", fun c n => (word64? n).map fun v => { c with pingInterval := v }),
    ("handshake_delay", fun c n => (word64? n).map fun v => { c with handshakeDelay := v }),
    ("scan_interval", fun c n => (word64? n).map fun v => { c with scanInterval := v }),
    ("event_buffer", fun c n => (word64? n).map fun v => { c with eventBuffer := v }),
    ("block_buffer", fun c n => (word64? n).map fun v => { c with blockBuffer := v })]

def platformFields : List (Field PlatformConfig) :=
  [("socket_dir", fun c n => (text? n).map fun v => { c with socketDir := v }),
    ("injector_command", fun c n => (text? n).map fun v => { c with injectorCommand := some v })]

def supervisorFields : List (Field RestartPolicy) :=
  [("failure_threshold", fun c n => (word32? n).map fun v => { c with failureThreshold := v }),
    ("failure_backoff", fun c n => (word64? n).map fun v => { c with failureBackoff := v })]

def opcodeFields : List (Field Block.Opcodes) :=
  [("init_zone", fun c n => (word16? n).map fun v => { c with initZone := v }),
    ("casting", fun c n => (word16? n).map fun v => { c with casting := v }),
    ("control", fun c n => (word16? n).map fun v => { c with control := v }),
    ("movement", fun c n => (word16? n).map fun v => { c with movement := v }),
    ("egress_movement", fun c n => (word16? n).map fun v => { c with egressMovement := v }),
    ("egress_instance_movement", fun c n =>
      (word16? n).map fun v => { c with egressInstanceMovement := v }),
    ("chat", fun c n => (word16? n).map fun v => { c with chat := v }),
    ("egress_chat", fun c n => (word16? n).map fun v => { c with egressChat := v })]

def fields (tempDir : String) : List (Field Config) :=
  [("hook", fun c n => (section? hookFields {} n).map fun v => { c with hook := v }),
    ("platform", fun c n =>
      (section? platformFields (defaults tempDir).platform n).map fun v =>
        { c with platform := v }),
    ("supervisor", fun c n =>
      (section? supervisorFields {} n).map fun v => { c with supervisor := v }),
    ("opcodes", fun c n => (section? opcodeFields {} n).map fun v => { c with opcodes := v })]

/-- The configuration that a document holds. -/
def ofDocument? (tempDir : String) (entries : Entries) : Option Config :=
  (section? (fields tempDir) (defaults tempDir) (.table .header entries)).map raised

/-! ## Files -/

/-- The text of a file, which may be missing. -/
def readText (file : Option Bytes) : Except ConfigError (List Char) :=
  match file with
  | none => .error (.unreadable .noSuchFile)
  | some bytes =>
    match Text.Utf8.decode? bytes with
    | some text => .ok text
    | none => .error (.unreadable .notText)

/-- Model of `Config::load`: loads the configuration of one file. -/
def load (file : Option Bytes) (tempDir : String := temporaryDirectory) :
    Except ConfigError Config := do
  let text ← readText file
  match (Toml.parse? text).bind (ofDocument? tempDir) with
  | some config => .ok config
  | none => .error .malformed

/-- Model of one round of the loop of `Config::load_multiple`: lays the document of a file over
those before it. -/
def mergeFile (under : Entries) (file : Bytes) : Except ConfigError Entries := do
  let text ← readText (some file)
  match Toml.parse? text with
  | some entries => .ok (Toml.mergeEntries under entries)
  | none => .error .malformedPart

/-- Model of `Config::load_multiple`: loads the configuration that several files make together, the
later over the earlier. -/
def loadMerged (files : List (Option Bytes)) (tempDir : String := temporaryDirectory) :
    Except ConfigError Config := do
  let entries ← (files.filterMap id).foldlM mergeFile []
  match ofDocument? tempDir entries with
  | some config => .ok config
  | none => .error .malformed

end Config
end Wiretap
