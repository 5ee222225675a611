import HanabiBot.Lobby.Sessions
import HanabiBot.HanabiGame.Play
import Mathlib.Data.List.AList

/-! # The lobby as a transition system

Any number of `handle_client` threads run `server.cpp` and `handle_client_helpers.cpp` over the one
table `sessions`; a thread is named by its connection. A step is what one thread does between two
points where another can come between: a section under `sessions_mutex`, a `sendBytes`, a read. A
`Label` says which thread moves and what the outside does in that step.

An entry of the table is a `Node`. Its `uid` tells two nodes of one key apart: a reference
`Session&` is the key and the `uid`, and dangles once that node is gone. `origin` is the thread
whose `emplace` made the node; a node made by `operator[]` has none. A `Player` object is named by
its connection, and is `gone` once it is destroyed.

The process ends (`crash`) when an exception leaves a thread, when an assertion fails, and, for the
model, when a dangling reference is used. -/

namespace HanabiBot.Lobby.Machine

open HanabiBot.Common.Messages HanabiBot.HanabiGame.Cards HanabiBot.HanabiGame.State
open HanabiBot.HanabiGame.Play HanabiBot.Lobby.Sessions

/-! ### The state -/

structure Node where
  uid : ℕ
  origin : Option Conn
  session : Session

abbrev Table := AList fun _ : ℤ => Node

/-- What `create_session` keeps: `session_id`, and the references `session` and `player_socket`. -/
structure Hold where
  id : ℤ
  uid : ℕ
  socket : Conn
deriving DecidableEq, Repr

/-- Where a thread stands: what it does next. The player of the thread is given by its name; its
socket is the connection of the thread. -/
inductive Pc where
  -- `handle_client`
  | greet
  | readConnection
  -- `create_session`
  | createEmplace (leader : String)
  | createLog (h : Hold)
  | createAck (h : Hold)
  | createWait (h : Hold)
  | createInvalidate (h : Hold)
  | createErase (h : Hold)
  | createRefuse (h : Hold)
  | createAccept (h : Hold)
  | createBroadcast (h : Hold)
  | createMove (h : Hold)
  | createEraseStarted (h : Hold) (game : Game)
  -- `Game::start`
  | playing (game : Game)
  | catching (game : Game)
  -- `join_session`
  | joinLock (joiner : String) (sessionId : ℤ)
  | joinRefuse (joiner : String) (message : String)
  | joinAck (player : String) (sessionId : ℤ)
  | joinBroadcast (player : String) (sessionId : ℤ)
  -- `join_random_session`
  | randomLock (joiner : String)
  | randomAck (player : String) (sessionId : ℤ) (uid : ℕ)
  | randomBroadcast (player : String) (sessionId : ℤ) (uid : ℕ)
  | randomNew (joiner : String)
  | done

/-- What a call of `create_session` holds on to between its `emplace` and its `erase`, and whether
it has moved the players into a game. -/
def Pc.hold : Pc → Option (Hold × Bool)
  | .createLog h | .createAck h | .createWait h | .createInvalidate h | .createErase h
  | .createRefuse h | .createAccept h | .createBroadcast h | .createMove h => some (h, false)
  | .createEraseStarted h _ => some (h, true)
  | _ => none

/-- The keys a thread is about to subscript outside the section that found them. -/
def Pc.subscripts : Pc → Option ℤ
  | .createLog h => some h.id
  | .joinBroadcast _ sessionId => some sessionId
  | _ => none

/-- How the process ended. -/
inductive Crash where
  | escaped (thread : Conn)
  | assertion (thread : Conn)
  | dangling (thread : Conn)
  | game (thread : Conn) (stop : Stop)
deriving DecidableEq, Repr

structure Sys where
  sessions : Table
  nextUid : ℕ
  pc : Conn → Pc
  gone : List Conn
  crash : Option Crash
  /-- every frame written so far -/
  sent : List Write
  /-- every accepted join: the node, and the player -/
  joined : List (ℕ × Player)
  /-- every `Game` constructed: the node, and the game -/
  games : List (ℕ × Game)

/-- The server before its first connection. -/
def init : Sys where
  sessions := ∅
  nextUid := 0
  pc _ := .greet
  gone := []
  crash := none
  sent := []
  joined := []
  games := []

/-- `ParseFromString` of the two messages the server reads. -/
structure Parsers where
  connection : Bytes → Option NewConnection
  response : Bytes → ClientResponse

/-- Which thread moves, and what the outside does in its step: what `readBytesCatch` returns, which
writes go out, which sockets are open, the order in which the table is iterated, the shuffle of a
new deck and the responses in a game. -/
structure Label where
  thread : Conn
  received : Option Bytes
  writeOk : ℕ → Conn → Bool
  isOpen : Conn → Bool
  order : List ℤ
  shuffle : Shuffle
  responses : List Bytes

/-- The `Player` object of the thread that moves. -/
def Label.player (l : Label) (name : String) : Player := ⟨name, l.thread⟩

namespace Sys

def setPc (s : Sys) (t : Conn) (pc : Pc) : Sys := { s with pc := Function.update s.pc t pc }

/-- `sessions.size()`. -/
def size (s : Sys) : ℕ := s.sessions.keys.length

/-- The node a reference refers to, if it is still there. -/
def find (s : Sys) (id : ℤ) (uid : ℕ) : Option Node :=
  match s.sessions.lookup id with
  | some node => if node.uid = uid then some node else none
  | none => none

/-- Writes back the session of a node. -/
def put (s : Sys) (id : ℤ) (node : Node) (session : Session) : Sys :=
  { s with sessions := s.sessions.insert id { node with session := session } }

/-- A new node. -/
def insertNode (s : Sys) (id : ℤ) (origin : Option Conn) (session : Session) : Sys :=
  { s with
    sessions := s.sessions.insert id ⟨s.nextUid, origin, session⟩
    nextUid := s.nextUid + 1 }

/-- The destructors of `Player` objects. -/
def destroy (s : Sys) (players : List Player) : Sys :=
  { s with gone := players.map Player.socket ++ s.gone }

/-- `sessions.emplace(id, Session(leader, id))`, and the node then found under `id`. If the key is
taken, nothing is inserted and the new session is destroyed, with the leader in it. -/
def emplace (s : Sys) (t : Conn) (id : ℤ) (leader : Player) : Node × Sys :=
  match s.sessions.lookup id with
  | some node => (node, s.destroy [leader])
  | none => (⟨s.nextUid, some t, .ofLeader leader id⟩, s.insertNode id (some t) (.ofLeader leader id))

/-- `sessions[id]`, which makes up a session if there is none. -/
def subscript (s : Sys) (id : ℤ) : Node × Sys :=
  match s.sessions.lookup id with
  | some node => (node, s)
  | none => (⟨s.nextUid, none, .default⟩, s.insertNode id none .default)

/-- `sessions.erase(id)`. -/
def erase (s : Sys) (id : ℤ) : Sys :=
  match s.sessions.lookup id with
  | some node => { s.destroy node.session.players with sessions := s.sessions.erase id }
  | none => s

/-- `join` of a session in the table. -/
def accept (s : Sys) (id : ℤ) (node : Node) (session : Session) (joiner : Player) : Sys :=
  { s.put id node session with joined := s.joined ++ [(node.uid, joiner)] }

end Sys

/-! ### The step -/

/-- What a thread does in a step: it writes, and goes on if all writes go out; or it crashes. -/
inductive Act where
  | write (ws : List Write) (next : Sys)
  | crash (c : Crash) (next : Sys)

/-- The first session in iteration order that accepts the joiner. -/
def firstJoin (s : Sys) (isOpen : Conn → Bool) (joiner : Player) (order : List ℤ) :
    Option (ℤ × Node × Session) :=
  order.findSome? fun id =>
    match s.sessions.lookup id with
    | some node => (node.session.join isOpen joiner).map fun session => (id, node, session)
    | none => none

/-- The text of the first broadcast of a game: a serialised `InfoMessage` with `"Game started!"`. -/
def gameStartedStr : String := "\n\rGame started!"

section Acts
variable (p : Parsers) (s : Sys) (l : Label)

/-- Uses the reference `player_socket` of `create_session`, or `player` of the join functions. -/
def withPlayer (c : Conn) (act : Act) : Act :=
  if c ∈ s.gone then .crash (.dangling l.thread) s else act

/-- Uses a reference into the table. -/
def withNode (id : ℤ) (uid : ℕ) (act : Node → Act) : Act :=
  match s.find id uid with
  | some node => act node
  | none => .crash (.dangling l.thread) s

/-- `handle_client` behind its read. -/
def handleConnection : Act :=
  match l.received with
  | none => .write [] ((s.destroy [l.player ""]).setPc l.thread .done)
  | some b =>
    match p.connection b with
    | none => .write [] ((s.destroy [l.player ""]).setPc l.thread .done)
    | some m =>
      match m.getOperation with
      | .createSession => .write [] (s.setPc l.thread (.createEmplace m.getName))
      | .joinSpecificSession => .write [] (s.setPc l.thread (.joinLock m.getName m.getSessionId))
      | _ => .write [] (s.setPc l.thread (.randomLock m.getName))

/-- The first section of `create_session`. -/
def createEmplace (leader : String) : Act :=
  let sessionId : ℤ := s.size
  let (node, s1) := s.emplace l.thread sessionId (l.player leader)
  match node.session.players with
  | [] => .crash (.assertion l.thread) s1
  | first :: _ => .write [] (s1.setPc l.thread (.createLog ⟨sessionId, node.uid, first.socket⟩))

/-- The log line behind it, outside the lock. -/
def createLog (h : Hold) : Act :=
  let (node, s1) := s.subscript h.id
  match node.session.players with
  | [] => .crash (.assertion l.thread) s1
  | _ :: _ => .write [] (s1.setPc l.thread (.createAck h))

/-- An acknowledgement of `create_session`. -/
def createAck (h : Hold) (status : AckStatus) (message : String) (pc : Pc) : Act :=
  withPlayer s l h.socket
    (.write [(h.socket, .createSessionAck ⟨some status, some message, some h.id⟩)]
      (s.setPc l.thread pc))

/-- One round of the loop that waits for the start. -/
def createWait (h : Hold) : Act :=
  withPlayer s l h.socket
    (match l.received with
    | none => .write [] (s.setPc l.thread (.createInvalidate h))
    | some _ => withNode s l h.id h.uid fun node =>
      .write [] (s.setPc l.thread
        (if node.session.numPlayers = 1 then .createRefuse h else .createAccept h)))

/-- The constructor of `Game`, which takes the players out of the session. -/
def createMove (h : Hold) : Act :=
  withNode s l h.id h.uid fun node =>
    let game := Game.ofSession node.session.players node.session.sessionId l.shuffle
    let s1 := s.put h.id node { node.session with players := [] }
    .write [] ({ s1 with games := s1.games ++ [(node.uid, game)] }.setPc l.thread
      (.createEraseStarted h game))

/-- The turn of `Game::start`; an exception goes on to the handler. -/
def play (game : Game) : Act :=
  match (turn ⟨p.response, l.writeOk⟩ 0).run ⟨deal game, l.responses, 0, []⟩ with
  | .ok _ w => .write [] ({ s.destroy w.game.players with
      sent := s.sent ++ w.out.map ofSent }.setPc l.thread .done)
  | .error (.exn _) w =>
    .write [] ({ s with sent := s.sent ++ w.out.map ofSent }.setPc l.thread (.catching w.game))
  | .error stop w => .crash (.game l.thread stop) { s with sent := s.sent ++ w.out.map ofSent }

/-- The handler of `Game::start`. -/
def catchPlay (game : Game) : Act :=
  match (endGame ⟨p.response, l.writeOk⟩).run ⟨game, [], 0, []⟩ with
  | .ok _ w => .write [] ({ s.destroy w.game.players with
      sent := s.sent ++ w.out.map ofSent }.setPc l.thread .done)
  | .error (.exn _) w => .crash (.escaped l.thread) { s with sent := s.sent ++ w.out.map ofSent }
  | .error stop w => .crash (.game l.thread stop) { s with sent := s.sent ++ w.out.map ofSent }

/-- The first section of `join_session`. -/
def joinLock (joiner : String) (sessionId : ℤ) : Act :=
  match s.sessions.lookup sessionId with
  | none => .write [] (s.setPc l.thread (.joinRefuse joiner "Session does not exist!"))
  | some node =>
    if Session.maxPlayers ≤ node.session.numPlayers then
      .write [] (s.setPc l.thread (.joinRefuse joiner "Session is full!"))
    else
      match node.session.join l.isOpen (l.player joiner) with
      | none => .write [] (s.setPc l.thread
          (.joinRefuse joiner "Failed to join session! (Unknown error)"))
      | some session => .write [] ((s.accept sessionId node session (l.player joiner)).setPc l.thread
          (.joinAck joiner sessionId))

/-- The news of a join. -/
def joinNews (session : Session) (player : String) : List Write :=
  session.broadcast (player ++ " has joined the session!") ++ session.broadcastStatus

/-- The second section of `join_session`. -/
def joinBroadcast (player : String) (sessionId : ℤ) : Act :=
  let (node, s1) := s.subscript sessionId
  withPlayer s1 l l.thread (.write (joinNews node.session player) (s1.setPc l.thread .done))

/-- The first section of `join_random_session`. -/
def randomLock (joiner : String) : Act :=
  match firstJoin s l.isOpen (l.player joiner) l.order with
  | some (sessionId, node, session) =>
    .write [] ((s.accept sessionId node session (l.player joiner)).setPc l.thread
      (.randomAck joiner sessionId node.uid))
  | none => .write [] (s.setPc l.thread (.randomNew joiner))

/-- What a thread does next. -/
def act : Option Act :=
  match s.pc l.thread with
  | .greet => some (.write
      [(l.thread, .ack ⟨some .succeed, some "Welcome to the server!"⟩)]
      (s.setPc l.thread .readConnection))
  | .readConnection => some (handleConnection p s l)
  | .createEmplace leader => some (createEmplace s l leader)
  | .createLog h => some (createLog s l h)
  | .createAck h =>
    some (createAck s l h .succeed "Session created successfully!" (.createWait h))
  | .createWait h => some (createWait s l h)
  | .createInvalidate h => some (withNode s l h.id h.uid fun node =>
      .write node.session.invalidate (s.setPc l.thread (.createErase h)))
  | .createErase h => some (.write [] ((s.erase h.id).setPc l.thread .done))
  | .createRefuse h =>
    some (createAck s l h .failed "Not enough players to start the game!" (.createWait h))
  | .createAccept h =>
    some (createAck s l h .succeed "You have started the game!" (.createBroadcast h))
  | .createBroadcast h => some (withNode s l h.id h.uid fun node =>
      .write (node.session.broadcast gameStartedStr) (s.setPc l.thread (.createMove h)))
  | .createMove h => some (createMove s l h)
  | .createEraseStarted h game =>
    some (.write [] ((s.erase h.id).setPc l.thread (.playing game)))
  | .playing game => some (play p s l game)
  | .catching game => some (catchPlay p s l game)
  | .joinLock joiner sessionId => some (joinLock s l joiner sessionId)
  | .joinRefuse joiner message => some (.write
      [(l.thread, .joinSessionAck ⟨some .failed, some message, none⟩)]
      ((s.destroy [l.player joiner]).setPc l.thread .done))
  | .joinAck player sessionId => some (withPlayer s l l.thread (.write
      [(l.thread,
        .joinSessionAck ⟨some .succeed, some "Successfully joined session!", some sessionId⟩)]
      (s.setPc l.thread (.joinBroadcast player sessionId))))
  | .joinBroadcast player sessionId => some (joinBroadcast s l player sessionId)
  | .randomLock joiner =>
    if l.order.Perm s.sessions.keys then some (randomLock s l joiner) else none
  | .randomAck player sessionId uid =>
    some (withNode s l sessionId uid fun _ => withPlayer s l l.thread (.write
      [(l.thread, .joinRandomSessionAck
        ⟨some .existingSession, some sessionId, some "Joined Existing Session!"⟩)]
      (s.setPc l.thread (.randomBroadcast player sessionId uid))))
  | .randomBroadcast player sessionId uid =>
    some (withNode s l sessionId uid fun node => withPlayer s l l.thread
      (.write (joinNews node.session player) (s.setPc l.thread .done)))
  | .randomNew joiner => some (.write
      [(l.thread, .joinRandomSessionAck
        ⟨some .newSession, none, some "No available sessions found! Creating a new session..."⟩)]
      (s.setPc l.thread (.createEmplace joiner)))
  | .done => none

end Acts

/-- The writes that go out: all before the first that fails. -/
def writesOut (writeOk : ℕ → Conn → Bool) : ℕ → List Write → List Write
  | _, [] => []
  | n, w :: ws => if writeOk n w.1 then w :: writesOut writeOk (n + 1) ws else []

/-- All writes go out. -/
def AllOut (writeOk : ℕ → Conn → Bool) (ws : List Write) : Prop :=
  (writesOut writeOk 0 ws).length = ws.length

instance (writeOk : ℕ → Conn → Bool) (ws : List Write) : Decidable (AllOut writeOk ws) := by
  unfold AllOut; infer_instance

/-- **One step of the lobby.** A write that fails throws, and nothing up to the end of the thread
catches it. -/
def step (p : Parsers) (s : Sys) (l : Label) : Option Sys :=
  if s.crash.isSome then none
  else
    match act p s l with
    | none => none
    | some (.crash c next) => some { next with crash := some c }
    | some (.write ws next) =>
      if AllOut l.writeOk ws then some { next with sent := next.sent ++ ws }
      else some { next with
        pc := s.pc
        sent := next.sent ++ writesOut l.writeOk 0 ws
        crash := some (.escaped l.thread) }

/-! ### Fixed inputs -/

/-- What `ParseFromString` leaves of some connection requests without a name. -/
def parseConnection : Bytes → Option NewConnection
  | [16, 1] => some ⟨none, some .createSession, none⟩
  | [16, 2, 24, v] => some ⟨none, some .joinSpecificSession, some v.toNat⟩
  | [16, 3] => some ⟨none, some .joinRandomSession, none⟩
  | _ => none

/-- The parsers of the fixed inputs; `response` reads no field. -/
def plainParsers : Parsers := ⟨parseConnection, fun _ => ⟨none⟩⟩

/-- A step on a healthy network, with what the thread receives in it. -/
def Label.plain (t : Conn) (received : Option Bytes) : Label where
  thread := t
  received := received
  writeOk _ _ := true
  isOpen _ := true
  order := []
  shuffle := Shuffle.unshuffled
  responses := []

/-- The next `n` steps of a thread, in which it receives nothing. -/
def steps (t : Conn) (n : ℕ) : List Label := List.replicate n (.plain t none)

/-- The greeting of a connection, and its request. -/
def entering (t : Conn) (request : Bytes) : List Label := [.plain t none, .plain t (some request)]

end HanabiBot.Lobby.Machine
