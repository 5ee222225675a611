import HanabiBot.Common.Messages

/-! # The link between a leader and the server

`create_session` and `join_session` (`handle_client_helpers.cpp`) at one end of a leader's
connection, `leaderTask` (`client_input_tasks.cpp`) and `subscribeToInfo`
(`client_entry_helpers.cpp`) at the other, from the moment the leader waits for `/start`.

The server writes whole frames to the stream `wire`: join notices, the acknowledgements of the start
requests, and what follows an accepted one. The client takes them off byte by byte. A subscription
(`Reader`) reads a header with `async_read`, which `socket.cancel()` ends, and then in its handler
the body with a plain `read`, which it does not; `readBytes` of `leaderTask` reads on another thread
meanwhile. A frame that is written and not read yet is in flight, however far it has got: when a
reader takes a byte is up to the run.

`sent` and `consumed` record the frames written and the frames read, each with what it is for the
one who writes or reads it: an `InfoMessage`, or the acknowledgement of a start. -/

namespace HanabiBot.TgClient.LeaderLink

open HanabiBot.Lib.Framing HanabiBot.Common.Messages

/-- The payload of a frame. -/
structure Payload where
  bytes : Bytes
  short : bytes.length < 2 ^ 32

inductive Kind where
  | info
  | startAck
deriving DecidableEq, Repr

/-- How `create_session` answers a `StartGameMsg`. -/
def startAck (sessionId : ℤ) (accepted : Bool) : CreateSessionAck :=
  if accepted then ⟨some .succeed, some "You have started the game!", some sessionId⟩
  else ⟨some .failed, some "Not enough players to start the game!", some sessionId⟩

/-- Protobuf at the two ends of the link. The client reads the answer as an `AckMessage`, which has
the first two fields of a `CreateSessionAck`. -/
structure Protobuf (sessionId : ℤ) where
  serialize : Bool → Payload
  parseAck : Bytes → AckMessage
  parseInfo : Bytes → InfoMessage
  parse_serialize : ∀ accepted, parseAck (serialize accepted).bytes =
    ⟨(startAck sessionId accepted).status, (startAck sessionId accepted).message⟩

/-- Where `create_session` stands. -/
inductive ServerPc where
  /-- reads a request -/
  | waiting
  /-- about to answer that there are not enough players -/
  | refusing
  /-- about to answer that the game has started -/
  | accepting
  /-- about to broadcast that the game has started -/
  | accepted
  /-- about to move the players into the game -/
  | moving
  /-- in the game -/
  | playing
deriving DecidableEq, Repr

/-- The start has been acknowledged. -/
def ServerPc.started : ServerPc → Bool
  | .accepted | .moving | .playing => true
  | _ => false

/-- Where `leaderTask` stands. -/
inductive ClientPc where
  /-- waits for `/start` -/
  | startCommand
  /-- in `readBytes`, with the bytes it has read -/
  | readBytes (buf : Bytes)
  /-- finished: the game has started -/
  | inGame
deriving DecidableEq, Repr

/-- The bytes `readBytes` has read of a frame. -/
def ClientPc.bytes : ClientPc → Bytes
  | .readBytes buf => buf
  | _ => []

/-- A subscription. -/
inductive Reader where
  /-- reading a frame: up to the fourth byte the header, with `async_read` -/
  | reading (buf : Bytes)
  /-- in the handler, with the body read -/
  | handling
  /-- over -/
  | ended
deriving DecidableEq, Repr

/-- The bytes a subscription has read of a frame. -/
def Reader.bytes : Reader → Bytes
  | .reading buf => buf
  | _ => []

/-- `socket.cancel()`: a header that is not complete is given up, with the bytes read of it. -/
def Reader.cancel : Reader → Reader
  | .reading buf => if buf.length < 4 then .ended else .reading buf
  | r => r

structure Link where
  server : ServerPc
  numPlayers : ℕ
  /-- the notices that the threads of accepted joiners still have to write -/
  news : ℕ
  /-- `StartGameMsg`s on their way -/
  requests : ℕ
  wire : Bytes
  client : ClientPc
  readers : List Reader
  sent : List (Kind × Bytes)
  consumed : List (Kind × Bytes)

/-- The leader has created a session and subscribed. -/
def init : Link := ⟨.waiting, 1, 0, 0, [], .startCommand, [.reading []], [], []⟩

inductive Label where
  /-- a client joins the session -/
  | join
  /-- a thread of `join_session` writes a notice -/
  | notify (p : Payload)
  /-- `create_session` reads a request -/
  | request
  /-- `create_session` answers it -/
  | answer
  /-- `create_session` broadcasts that the game has started -/
  | broadcast (p : Payload)
  /-- `create_session` moves the players into the game -/
  | move
  /-- the game writes -/
  | play (p : Payload)
  /-- the leader enters `/start` -/
  | start
  /-- a subscription takes a byte -/
  | infoByte (i : ℕ)
  /-- a subscription has read a frame -/
  | infoMessage (i : ℕ)
  /-- a handler subscribes again -/
  | subscribe (i : ℕ)
  /-- `readBytes` takes a byte -/
  | ackByte
  /-- `readBytes` has read a frame -/
  | ack

/-- `Session::maxPlayers`. -/
def maxPlayers : ℕ := 5

namespace Link

/-- `sendBytes` at the server. -/
def send (s : Link) (kind : Kind) (p : Payload) : Link :=
  { s with wire := s.wire ++ frame p.bytes, sent := s.sent ++ [(kind, p.bytes)] }

/-- A frame is read. -/
def consume (s : Link) (kind : Kind) (p : Bytes) : Link :=
  { s with consumed := s.consumed ++ [(kind, p)] }

def setReader (s : Link) (i : ℕ) (r : Reader) : Link := { s with readers := s.readers.set i r }

end Link

section Step
variable {sessionId : ℤ} (pb : Protobuf sessionId) (s : Link)

/-- **One step of the link.** -/
def step : Label → Option Link
  | .join =>
    if s.numPlayers < maxPlayers ∧ s.server ≠ .playing then
      some { s with numPlayers := s.numPlayers + 1, news := s.news + 2 }
    else none
  | .notify p =>
    if 0 < s.news ∧ s.server ≠ .playing then some { s.send .info p with news := s.news - 1 }
    else none
  | .request =>
    if 0 < s.requests ∧ s.server = .waiting then
      some { s with
        requests := s.requests - 1
        server := if s.numPlayers = 1 then .refusing else .accepting }
    else none
  | .answer =>
    match s.server with
    | .refusing => some { s.send .startAck (pb.serialize false) with server := .waiting }
    | .accepting => some { s.send .startAck (pb.serialize true) with server := .accepted }
    | _ => none
  | .broadcast p =>
    if s.server = .accepted then some { s.send .info p with server := .moving } else none
  | .move => if s.server = .moving then some { s with server := .playing } else none
  | .play p => if s.server = .playing then some (s.send .info p) else none
  | .start =>
    if s.client = .startCommand then
      some { s with
        client := .readBytes []
        readers := s.readers.map Reader.cancel
        requests := s.requests + 1 }
    else none
  | .infoByte i =>
    match s.readers[i]?, s.wire with
    | some (.reading buf), b :: wire =>
      if complete buf = none then some { s.setReader i (.reading (buf ++ [b])) with wire := wire }
      else none
    | _, _ => none
  | .infoMessage i =>
    match s.readers[i]? with
    | some (.reading buf) =>
      match complete buf with
      | some p =>
        some ((s.consume .info p).setReader i
          (if (pb.parseInfo p).signal = some InfoSignal.break then .ended else .handling))
      | none => none
    | _ => none
  | .subscribe i =>
    match s.readers[i]? with
    | some .handling => some (s.setReader i (.reading []))
    | _ => none
  | .ackByte =>
    match s.client, s.wire with
    | .readBytes buf, b :: wire =>
      if complete buf = none then some { s with client := .readBytes (buf ++ [b]), wire := wire }
      else none
    | _, _ => none
  | .ack =>
    match s.client with
    | .readBytes buf =>
      match complete buf with
      | some p =>
        some { s.consume .startAck p with
          client := if (pb.parseAck p).status = some .succeed then .inGame else .startCommand
          readers := s.readers ++ [.reading []] }
      | none => none
    | _ => none

end Step

end HanabiBot.TgClient.LeaderLink
