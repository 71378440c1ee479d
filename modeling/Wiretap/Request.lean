import Wiretap.Message
import Wiretap.Text.Base64
import Wiretap.Text.Json

/-!
# Requests

A request asks a session to send its agent a raw message. It is a JSON object with the kind of the
message as a number, its subchannel, and its payload in base 64, which may be absent or null. Keys
may come in any order and other keys are ignored, but none of the three may come twice. An array of
the same values in this order is read too, without or with the last one.

Results:

* `Request.message_data`: a request without payload makes a message without payload.
-/

namespace Wiretap

/-- Model of `Request`: what a request says, before its payload is decoded. -/
structure Request where
  op : UInt8
  channel : UInt32
  data : Option Bytes
  deriving DecidableEq, Repr

/-- Why a request was not accepted. -/
inductive RequestError where
  /-- It is no JSON, or JSON of something else. -/
  | malformed
  /-- Its payload is not in base 64. -/
  | undecodable
  deriving DecidableEq, Repr

namespace Request

open Text.Json (dropSpace)

def op? (cs : List Char) : Option (UInt8 × List Char) :=
  (Text.Json.natural? 255 (dropSpace cs)).map fun (n, rest) => (UInt8.ofNat n, rest)

def channel? (cs : List Char) : Option (UInt32 × List Char) :=
  (Text.Json.natural? 4294967295 (dropSpace cs)).map fun (n, rest) => (UInt32.ofNat n, rest)

/-- The bytes of a valid text, and what follows it. -/
def text? (cs : List Char) : Option (Bytes × List Char) :=
  match Text.Json.string? [] cs with
  | some (bytes, rest) => if (Text.Utf8.decode? bytes).isSome then some (bytes, rest) else none
  | none => none

def data? (cs : List Char) : Option (Option Bytes × List Char) :=
  match dropSpace cs with
  | 'n' :: 'u' :: 'l' :: 'l' :: rest => some (none, rest)
  | '"' :: rest => (text? rest).map fun (bytes, rest) => (some bytes, rest)
  | _ => none

/-- The fields of an object that have been read; none of them is read twice. -/
structure Fields where
  op : Option UInt8 := none
  channel : Option UInt32 := none
  data : Option (Option Bytes) := none

/-- The request that the fields make. The payload may be missing. -/
def Fields.request? (f : Fields) : Option Request :=
  match f.op, f.channel with
  | some op, some channel => some ⟨op, channel, f.data.join⟩
  | _, _ => none

/-- Reads the value of a key. -/
def Fields.entry? (f : Fields) (key : Bytes) (cs : List Char) : Option (Fields × List Char) :=
  if key = Text.Utf8.encode "op" then
    if f.op.isSome then none
    else (op? cs).map fun (v, rest) => ({ f with op := some v }, rest)
  else if key = Text.Utf8.encode "channel" then
    if f.channel.isSome then none
    else (channel? cs).map fun (v, rest) => ({ f with channel := some v }, rest)
  else if key = Text.Utf8.encode "data" then
    if f.data.isSome then none
    else (data? cs).map fun (v, rest) => ({ f with data := some v }, rest)
  else (Text.Json.skipValue? cs).map fun rest => (f, rest)

/-- Reads entries from the key of the first on, and the closing brace. -/
def entries? : (fuel : Nat) → Fields → List Char → Option (Fields × List Char)
  | 0, _, _ => none
  | fuel + 1, f, cs => do
    let '"' :: cs := dropSpace cs | none
    let (key, cs) ← text? cs
    let ':' :: cs := dropSpace cs | none
    let (f, cs) ← f.entry? key cs
    match dropSpace cs with
    | ',' :: cs => entries? fuel f cs
    | '\x7d' :: cs => some (f, cs)
    | _ => none

/-- Reads the items of an array, and the closing bracket. -/
def items? (cs : List Char) : Option (Request × List Char) := do
  let (op, cs) ← op? cs
  let ',' :: cs := dropSpace cs | none
  let (channel, cs) ← channel? cs
  match dropSpace cs with
  | ']' :: cs => some (⟨op, channel, none⟩, cs)
  | ',' :: cs =>
    let (data, cs) ← data? cs
    let ']' :: cs := dropSpace cs | none
    some (⟨op, channel, data⟩, cs)
  | _ => none

/-- The request in a text, which holds nothing else. -/
def parse? (bytes : Bytes) : Option Request := do
  let cs := Text.Json.ofBytes bytes
  let (request, rest) ← match dropSpace cs with
    | '[' :: cs => items? cs
    | '\x7b' :: cs =>
      match dropSpace cs with
      | '\x7d' :: _ => none
      | cs => do
        let (f, rest) ← entries? (cs.length + 1) {} cs
        some (← f.request?, rest)
    | _ => none
  if dropSpace rest = [] then some request else none

/-- Model of `SessionHandle::send_request`, where the request has been read: the message that it
asks for. -/
def message (r : Request) : Except RequestError Message :=
  match r.data with
  | none => .ok ⟨.ofByte r.op, r.channel, []⟩
  | some letters =>
    match Text.Base64.decode? (Text.Json.ofBytes letters) with
    | some data => .ok ⟨.ofByte r.op, r.channel, data⟩
    | none => .error .undecodable

theorem message_data {r : Request} (h : r.data = none) :
    r.message = .ok ⟨.ofByte r.op, r.channel, []⟩ := by
  simp [message, h]

/-- Model of `SessionHandle::send_request`, up to the sending: the message that a request in JSON
asks for. -/
def decode (bytes : Bytes) : Except RequestError Message :=
  match parse? bytes with
  | some r => r.message
  | none => .error .malformed

/-- The answer to an accepted request (`REQUEST_ACK`). -/
def acknowledgement : String := "OK"

end Request
end Wiretap
