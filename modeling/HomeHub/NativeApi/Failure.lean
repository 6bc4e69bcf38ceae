import HomeHub.Contact
import HomeHub.Text.Hex

/-!
# Failures of the native API client

What can go wrong between the client and a node, in the client's own terms, and what the hub gets to
know of it.
-/

namespace HomeHub.NativeApi

/-- What is wrong with bytes that a node sent. -/
inductive Malformed where
  | truncatedVarint
  | longVarint
  | messageType
  | fieldNumber
  | overrun
  | truncatedFixed64
  | truncatedFixed32
  | wireType
  | notUtf8
  | notString
  deriving DecidableEq, Repr

def Malformed.text : Malformed → String
  | .truncatedVarint => "truncated varint"
  | .longVarint => "varint too long"
  | .messageType => "message type overflow"
  | .fieldNumber => "field number"
  | .overrun => "length-delimited field overruns payload"
  | .truncatedFixed64 => "truncated fixed64"
  | .truncatedFixed32 => "truncated fixed32"
  | .wireType => "unsupported wire type"
  | .notUtf8 => "string field is not utf-8"
  | .notString => "expected a string field"

/-- What a timeout interrupts. -/
inductive Activity where
  | resolving
  | connecting
  deriving DecidableEq, Repr

def Activity.text : Activity → String
  | .resolving => "resolving"
  | .connecting => "connecting"

inductive Failure where
  /-- The look-up of a host name failed. -/
  | resolve (host reason : String)
  /-- The look-up of a host name gave nothing. -/
  | noAddress (host : String)
  /-- The connection could not be opened. -/
  | connect (address reason : String)
  | timeout (during : Activity)
  | invalidPassword
  /-- A frame starts with a byte that it must not start with. -/
  | preamble (byte : UInt8)
  | frameTooLarge (length : Nat)
  | malformed (what : Malformed)
  /-- The connection broke. -/
  | io (reason : String)
  deriving DecidableEq, Repr

namespace Failure

def message : Failure → String
  | .resolve host _ => "error resolving " ++ host
  | .noAddress host => "no address found for " ++ host
  | .connect address _ => "error connecting to " ++ address
  | .timeout during => "timeout while " ++ during.text
  | .invalidPassword => "invalid password"
  | .preamble byte => "unexpected preamble 0x" ++ String.ofList (Hex.fixed 2 byte.toNat)
  | .frameTooLarge length => "frame of " ++ toString length ++ " bytes exceeds the limit"
  | .malformed what => "malformed message: " ++ what.text
  | .io _ => "io error"

/-- The name of the kind of a failure. -/
def kind : Failure → String
  | .resolve .. => "Resolve"
  | .noAddress _ => "NoAddress"
  | .connect .. => "Connect"
  | .timeout _ => "Timeout"
  | .invalidPassword => "InvalidPassword"
  | .preamble _ => "Preamble"
  | .frameTooLarge _ => "FrameTooLarge"
  | .malformed _ => "Decode"
  | .io _ => "Io"

/-- The failure as the hub sees it. -/
def contactError (f : Failure) : ContactError :=
  match f with
  | .resolve host reason => .resolve host reason
  | .noAddress host => .resolve host "no address found"
  | .connect address reason => .connect address reason
  | .timeout _ => .timeout
  | .invalidPassword => .invalidPassword
  | .io reason => .io reason
  | .preamble _ | .frameTooLarge _ | .malformed _ => .protocol f.message

end Failure

end HomeHub.NativeApi
