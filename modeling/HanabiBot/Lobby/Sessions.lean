import HanabiBot.HanabiGame.State

/-! # Sessions

`session.h` and `session.cpp`. A session is a value: its players in the order of their joining, the
leader first, and the count `numPlayers`, which `Session::join` keeps beside the vector. `Session()`
is the session `operator[]` of the table makes up for a key it does not have.

What a broadcast writes is a list of packets, a connection and a frame each. -/

namespace HanabiBot.Lobby.Sessions

open HanabiBot.Common.Messages HanabiBot.HanabiGame.State

/-- What one `sendBytes` of the lobby carries, or a write of a game. -/
inductive Packet where
  | ack (m : AckMessage)
  | createSessionAck (m : CreateSessionAck)
  | joinSessionAck (m : JoinSessionAck)
  | joinRandomSessionAck (m : JoinRandomSessionAck)
  | info (m : InfoMessage)
  | text (message : String)
deriving DecidableEq, Repr

/-- A packet and the connection it is written to. -/
abbrev Write := Conn × Packet

/-- A write of a game. -/
def ofSent : Sent → Write
  | .frame c m => (c, .info m)
  | .text c message => (c, .text message)

structure Session where
  players : List Player
  sessionId : ℤ
  numPlayers : ℤ
deriving DecidableEq, Repr

namespace Session

def maxPlayers : ℤ := 5

/-- `Session()`, value-initialised. -/
def default : Session := ⟨[], 0, 0⟩

/-- `Session::Session(leader, sessionId)`. -/
def ofLeader (leader : Player) (sessionId : ℤ) : Session := ⟨[leader], sessionId, 1⟩

/-- `Session::join`; `isOpen` is `is_socket_connected`. -/
def join (isOpen : Conn → Bool) (s : Session) (player : Player) : Option Session :=
  match s.players with
  | [] => none
  | leader :: _ =>
    if ¬ isOpen leader.socket then none
    else if maxPlayers ≤ s.numPlayers then none
    else some { s with players := s.players ++ [player], numPlayers := s.numPlayers + 1 }

/-- `Session::broadcast`. -/
def broadcast (s : Session) (message : String) : List Write :=
  s.players.map fun player => (player.socket, .info ⟨some message, none⟩)

/-- The text of `Session::broadcast_status`. -/
def statusStr (s : Session) : String :=
  "Session " ++ toString s.sessionId ++ " has " ++ toString s.numPlayers ++ " players:\n" ++
    String.join (s.players.map fun player => player.name ++ "\n")

/-- `Session::broadcast_status`. -/
def broadcastStatus (s : Session) : List Write := s.broadcast s.statusStr

/-- `Session::invalidate`. -/
def invalidate (s : Session) : List Write := s.broadcast "--> This session is now closed..\n"

/-- An accepted join, and nothing else, adds the player at the end. -/
theorem join_some {isOpen : Conn → Bool} {s s' : Session} {player : Player}
    (h : s.join isOpen player = some s') :
    s.players ≠ [] ∧ s.numPlayers < maxPlayers ∧
      s' = { s with players := s.players ++ [player], numPlayers := s.numPlayers + 1 } := by
  unfold join at h
  cases hp : s.players with
  | nil => rw [hp] at h; cases h
  | cons leader rest =>
    rw [hp] at h
    simp only at h
    split_ifs at h with h1 h2
    refine ⟨List.cons_ne_nil _ _, by omega, ?_⟩
    exact (Option.some.inj h).symm

end Session

end HanabiBot.Lobby.Sessions
