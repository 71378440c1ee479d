import Wiretap.Bytes

/-!
# Messages between the service and an agent

A message is a kind, a subchannel and a payload. Kinds travel as one byte; six bytes have a name and
every other byte is kept as it is.

Results:

* `MessageKind.toByte_ofByte`: every byte survives the trip through its kind.
-/

namespace Wiretap

/-- What a message is for (`MessageKind`). -/
inductive MessageKind where
  | debug
  | ping
  | exit
  | recv
  | send
  | option
  | other (code : UInt8)
  deriving DecidableEq, Repr

namespace MessageKind

/-- Model of the conversion of a byte to a `MessageKind`. -/
def ofByte (b : UInt8) : MessageKind :=
  if b = 0 then debug
  else if b = 1 then ping
  else if b = 2 then exit
  else if b = 3 then recv
  else if b = 4 then send
  else if b = 5 then option
  else other b

/-- Model of the conversion of a `MessageKind` to its byte. -/
def toByte : MessageKind → UInt8
  | debug => 0
  | ping => 1
  | exit => 2
  | recv => 3
  | send => 4
  | option => 5
  | other code => code

theorem toByte_ofByte (b : UInt8) : (ofByte b).toByte = b := by
  unfold ofByte
  repeat' split
  all_goals simp_all [toByte]

/-- The name of a kind in answers and in logs. -/
def name : MessageKind → String
  | debug => "Debug"
  | ping => "Ping"
  | exit => "Exit"
  | recv => "Recv"
  | send => "Send"
  | option => "Option"
  | other code => "Other(" ++ toString code.toNat ++ ")"

end MessageKind

/-- Model of `Message`: one message on a channel. -/
structure Message where
  kind : MessageKind
  subchannel : UInt32
  data : Bytes
  deriving DecidableEq, Repr

namespace Message

/-- Model of `Message::ping`: keeps a channel alive. -/
def ping : Message := ⟨.ping, 0, []⟩

/-- Model of `Message::exit`: tells an agent to unload itself. -/
def exit : Message := ⟨.exit, 0, []⟩

/-- Model of `Message::enable_option`: switches on the option of that number. -/
def enableOption (option : UInt32) : Message := ⟨.option, option, [1]⟩

/-- The option under which an agent relays traffic from the server (`OPTION_INGRESS`). -/
def ingressOption : UInt32 := 1

/-- The option under which an agent relays traffic to the server (`OPTION_EGRESS`). -/
def egressOption : UInt32 := 2

/-- The record text of a message, with the size of its payload in place of the payload. -/
def describe (m : Message) : String :=
  "Message \x7b kind: " ++ m.kind.name ++ ", subchannel: " ++ toString m.subchannel.toNat
    ++ ", data_len: " ++ toString m.data.length ++ " \x7d"

end Message
end Wiretap
