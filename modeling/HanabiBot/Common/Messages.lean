import HanabiBot.Lib.Framing
import Mathlib.Data.Int.Notation

/-! # The messages between server and client

The messages of `common/proto` and the way `sockets.cpp` puts them on a socket. A message is a
structure with the fields of its `.proto` file; how protobuf lays it out in bytes is code outside
the program and enters as a `Codec`, which relies on the documented behaviour alone: what was
serialised, within protobuf's limit of `2 ^ 31` bytes, parses back.

`sendBytes` writes a frame (`Framing.frame`), `send_` the bytes of a text as they are. -/

namespace HanabiBot.Common.Messages

open HanabiBot.Lib.Framing

abbrev Bytes := List UInt8

/-- A connection of the server, and the `handle_client` thread that serves it. -/
abbrev Conn := ℕ

/-- `Ack::AckStatus`. -/
inductive AckStatus where
  | unspecified | succeed | failed
deriving DecidableEq, Repr

/-- `JoinRandomSessionType`. -/
inductive JoinRandomSessionType where
  | unspecified | newSession | existingSession
deriving DecidableEq, Repr

/-- `ClientOperation`. -/
inductive ClientOperation where
  | unspecified | createSession | joinSpecificSession | joinRandomSession
deriving DecidableEq, Repr

/-- `InfoSignal`. -/
inductive InfoSignal where
  | unspecified | «continue» | «break»
deriving DecidableEq, Repr

structure AckMessage where
  status : Option AckStatus
  message : Option String
deriving DecidableEq, Repr

structure CreateSessionAck where
  status : Option AckStatus
  message : Option String
  sessionId : Option ℤ
deriving DecidableEq, Repr

structure JoinSessionAck where
  status : Option AckStatus
  message : Option String
  sessionId : Option ℤ
deriving DecidableEq, Repr

structure JoinRandomSessionAck where
  sessionType : Option JoinRandomSessionType
  sessionId : Option ℤ
  message : Option String
deriving DecidableEq, Repr

structure NewConnection where
  name : Option String
  operation : Option ClientOperation
  sessionId : Option ℤ
deriving DecidableEq, Repr

structure InfoMessage where
  message : Option String
  signal : Option InfoSignal
deriving DecidableEq, Repr

structure ClientResponse where
  optionSelected : Option ℤ
deriving DecidableEq, Repr

namespace NewConnection

/-! The accessors of the fields: an absent field reads as its default. -/

def getName (m : NewConnection) : String := m.name.getD ""
def getOperation (m : NewConnection) : ClientOperation := m.operation.getD .unspecified
def getSessionId (m : NewConnection) : ℤ := m.sessionId.getD 0

end NewConnection

namespace ClientResponse

/-- The accessor `optionselected()`: an absent field reads as `0`. -/
def optionselected (r : ClientResponse) : ℤ := r.optionSelected.getD 0

end ClientResponse

/-- The bytes of a C++ string. -/
def bytesOf (s : String) : Bytes := s.toByteArray.data.toList

theorem bytesOf_ne_nil {s : String} (h : s ≠ "") : bytesOf s ≠ [] := by
  intro hb
  refine h (String.utf8ByteSize_eq_zero_iff.mp ?_)
  have hl : (bytesOf s).length = 0 := by rw [hb]; rfl
  simpa [bytesOf] using hl

/-- `SerializeAsString` and `ParseFromString` of one kind of message. -/
structure Codec (M : Type) where
  serialize : M → Bytes
  parse : Bytes → Option M
  parse_serialize : ∀ m, (serialize m).length < 2 ^ 31 → parse (serialize m) = some m

/-- The string of the bytes, if they are UTF-8. -/
def ofBytes (b : Bytes) : Option String := String.fromUTF8? ⟨b.toArray⟩

theorem ofBytes_bytesOf (s : String) : ofBytes (bytesOf s) = some s := by
  have h : (⟨s.toByteArray.data.toList.toArray⟩ : ByteArray) = s.toByteArray := by simp
  unfold ofBytes bytesOf String.fromUTF8?
  rw [h, dif_pos s.isValidUTF8]
  rfl

namespace InfoSignal

/-- The number of a signal in `InfoSignal`. -/
def code : InfoSignal → UInt8
  | .unspecified => 0
  | .continue => 1
  | .break => 2

def ofCode : UInt8 → Option InfoSignal
  | 0 => some .unspecified
  | 1 => some .continue
  | 2 => some .break
  | _ => none

theorem ofCode_code (signal : InfoSignal) : ofCode signal.code = some signal := by
  cases signal <;> rfl

end InfoSignal

/-- A plain codec: the signal, and behind it a mark and the text. What is asked of protobuf is
possible. -/
def plainCodec : Codec InfoMessage where
  serialize m :=
    (m.signal.elim 3 InfoSignal.code) :: m.message.elim [] fun text => 0 :: bytesOf text
  parse
    | [] => none
    | [signal] => some ⟨none, InfoSignal.ofCode signal⟩
    | signal :: _ :: text => (ofBytes text).map fun text => ⟨some text, InfoSignal.ofCode signal⟩
  parse_serialize m _ := by
    have hsignal : InfoSignal.ofCode (m.signal.elim 3 InfoSignal.code) = m.signal := by
      cases m.signal with
      | none => rfl
      | some signal => exact InfoSignal.ofCode_code signal
    obtain ⟨message, signal⟩ := m
    cases message with
    | none => simpa using hsignal
    | some text => simpa [ofBytes_bytesOf] using hsignal

instance : Inhabited (Codec InfoMessage) := ⟨plainCodec⟩

/-- One write to a socket: `sendBytes` of a serialised message, or `send_` of a text. -/
inductive Sent where
  | frame (socket : Conn) (m : InfoMessage)
  | text (socket : Conn) (message : String)
deriving DecidableEq, Repr

namespace Sent

def socket : Sent → Conn
  | .frame c _ => c
  | .text c _ => c

/-- The bytes of the write. -/
def bytes (codec : Codec InfoMessage) : Sent → Bytes
  | .frame _ m => Lib.Framing.frame (codec.serialize m)
  | .text _ message => bytesOf message

end Sent

end HanabiBot.Common.Messages
