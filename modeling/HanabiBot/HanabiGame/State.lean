import HanabiBot.Lib.Calls
import HanabiBot.Common.Messages
import HanabiBot.HanabiGame.Cards

/-! # The state of a game, and its sockets

The members of `game.h`, and the calls of `sockets.cpp` and `sockets_util.h` a game makes. The
constants `numPlayers` and `cardsPerHand` are functions of the players, as the constructor computes
them. A vector is a list; an index outside it, undefined in the source, is a `Fault`, and so is a
failed assertion.

A call of the game runs on a `World`: the game, the frames its reads will return (`inbox`; an empty
inbox is a failed read), the number of writes tried so far and the writes that went out. What the
network does is an `Env`: which writes succeed, and what `ParseFromString` leaves in a fresh
`ClientResponse`, whether or not it reports success. -/

namespace HanabiBot.HanabiGame.State

open HanabiBot.Lib.Calls HanabiBot.Common.Messages HanabiBot.HanabiGame.Cards

structure Player where
  name : String
  socket : Conn
deriving DecidableEq, Repr

/-- The members of class `Game`. -/
structure Game where
  players : List Player
  sessionId : ℤ
  table : List ℤ
  deck : Deck
  hands : List (List Card)
  discardPile : List Card
  numBlueTokens : ℤ
  numBlackFuseTokens : ℤ

namespace Game

def totalBlueTokens : ℤ := 8
def totalBlackFuseTokens : ℤ := 3

def numPlayers (g : Game) : ℕ := g.players.length

def cardsPerHand (g : Game) : ℕ := if g.numPlayers ≤ 3 then 5 else 4

/-- `Game::Game`, with the session's players and the deck its member `deck` starts as. -/
def ofSession (players : List Player) (sessionId : ℤ) (s : Shuffle) : Game where
  players := players
  sessionId := sessionId
  table := List.replicate colourCount 0
  deck := Deck.ofShuffle s
  hands := []
  discardPile := []
  numBlueTokens := 0
  numBlackFuseTokens := 0

end Game

/-! ### The world a call runs in -/

/-- The exceptions of the socket calls. -/
inductive Exn where
  | write (socket : Conn)
  | read
deriving DecidableEq, Repr

/-- Undefined behaviour and failed assertions. -/
inductive Fault where
  | outOfRange
  | assertion
deriving DecidableEq, Repr

/-- Why a call ends without a value. -/
inductive Stop where
  | exn (e : Exn)
  | fault (f : Fault)
  | outOfFuel
deriving DecidableEq, Repr

structure Env where
  parseResponse : Bytes → ClientResponse
  writeOk : ℕ → Conn → Bool

structure World where
  game : Game
  inbox : List Bytes
  writes : ℕ
  out : List Sent

/-- A network on which every write succeeds. -/
def Env.healthy (parseResponse : Bytes → ClientResponse) : Env where
  parseResponse := parseResponse
  writeOk _ _ := true

@[simp] theorem Env.healthy_parseResponse (p : Bytes → ClientResponse) :
    (Env.healthy p).parseResponse = p := rfl

@[simp] theorem Env.healthy_writeOk (p : Bytes → ClientResponse) (n : ℕ) (c : Conn) :
    (Env.healthy p).writeOk n c = true := rfl

abbrev GameM := EStateM Stop World

namespace World

/-- The number of frames still to be read. -/
def pending (w : World) : ℕ := w.inbox.length

/-- The world after the writes `ws`. -/
def sent (w : World) (ws : List Sent) : World :=
  { w with writes := w.writes + ws.length, out := w.out ++ ws }

@[simp] theorem sent_inbox (w : World) (ws : List Sent) : (w.sent ws).inbox = w.inbox := rfl

/-- The world with only `rest` still to be read. -/
def reading (w : World) (rest : List Bytes) : World := { w with inbox := rest }

@[simp] theorem reading_inbox (w : World) (r : List Bytes) : (w.reading r).inbox = r := rfl

end World

def fault {α : Type} (f : Fault) : GameM α := throw (Stop.fault f)

/-- Reads an element of a vector of the game. -/
def element {α : Type} (l : Game → List α) (i : ℕ) : GameM α := fun w =>
  match (l w.game)[i]? with
  | some a => .ok a w
  | none => .error (.fault .outOfRange) w

def readGame {α : Type} (f : Game → α) : GameM α := fun w => .ok (f w.game) w

def modifyGame (f : Game → Game) : GameM PUnit := fun w => .ok ⟨⟩ { w with game := f w.game }

/-- A computation on the game that reads vectors and checks assertions, but changes nothing. -/
def checked {α : Type} (f : Game → Except Fault α) : GameM α := fun w =>
  match f w.game with
  | .ok a => .ok a w
  | .error e => .error (.fault e) w

/-! ### Sockets -/

/-- `sendBytes` of a serialised message; a failed write throws. -/
def sendBytes (env : Env) (socket : Conn) (m : InfoMessage) : GameM PUnit := fun w =>
  if env.writeOk w.writes socket then
    .ok ⟨⟩ { w with writes := w.writes + 1, out := w.out ++ [.frame socket m] }
  else .error (.exn (.write socket)) { w with writes := w.writes + 1 }

/-- `sendInfo`, with the default signal. -/
def sendInfo (env : Env) (socket : Conn) (message : String) : GameM PUnit :=
  sendBytes env socket { message := some message, signal := some .continue }

/-- `send_`: writes the text as it is, and swallows a failure. -/
def send_ (env : Env) (socket : Conn) (message : String) : GameM PUnit := fun w =>
  .ok ⟨⟩ { w with
    writes := w.writes + 1
    out := if env.writeOk w.writes socket then w.out ++ [.text socket message] else w.out }

/-- `readBytesCatch`. -/
def readBytesCatch : GameM (Option Bytes) := fun w =>
  match w.inbox with
  | [] => .ok none w
  | b :: rest => .ok (some b) { w with inbox := rest }

section Run
variable (env : Env) (w : World)

theorem run_sendBytes (c : Conn) (m : InfoMessage) : (sendBytes env c m).run w =
    if env.writeOk w.writes c then .ok ⟨⟩ (w.sent [.frame c m])
    else .error (.exn (.write c)) { w with writes := w.writes + 1 } := rfl

theorem run_send_ (c : Conn) (message : String) : (send_ env c message).run w =
    .ok ⟨⟩ { w with
      writes := w.writes + 1
      out := if env.writeOk w.writes c then w.out ++ [.text c message] else w.out } := rfl

theorem run_readBytesCatch : readBytesCatch.run w =
    match w.inbox with
    | [] => .ok none w
    | b :: rest => .ok (some b) (w.reading rest) := rfl

theorem run_readGame {α : Type} (f : Game → α) : (readGame f).run w = .ok (f w.game) w := rfl

theorem run_modifyGame (f : Game → Game) :
    (modifyGame f).run w = .ok ⟨⟩ { w with game := f w.game } := rfl

variable {w}

theorem run_element {α : Type} {l : Game → List α} {i : ℕ} {a : α} (h : (l w.game)[i]? = some a) :
    (element l i).run w = .ok a w := by
  show (match (l w.game)[i]? with | some a => _ | none => _) = _
  rw [h]

theorem run_element_none {α : Type} {l : Game → List α} {i : ℕ} (h : (l w.game)[i]? = none) :
    (element l i).run w = .error (.fault .outOfRange) w := by
  show (match (l w.game)[i]? with | some a => _ | none => _) = _
  rw [h]

theorem run_checked_ok {α : Type} {f : Game → Except Fault α} {a : α} (h : f w.game = .ok a) :
    (checked f).run w = .ok a w := by
  show (match f w.game with | .ok a => _ | .error e => _) = _
  rw [h]

theorem run_checked_error {α : Type} {f : Game → Except Fault α} {e : Fault}
    (h : f w.game = .error e) : (checked f).run w = .error (.fault e) w := by
  show (match f w.game with | .ok a => _ | .error e => _) = _
  rw [h]

end Run

/-- `requestQuery`: the result of `ParseFromString` is not looked at. -/
def requestQuery (env : Env) (player : Player) : GameM ClientResponse := do
  sendBytes env player.socket { message := some "QUERY", signal := some .break }
  match ← readBytesCatch with
  | none => throw (Stop.exn .read)
  | some b => return env.parseResponse b

/-- One round of the loop of `requestInt`. -/
def requestIntRound (env : Env) (lower higher : ℤ) (invalidMessage : String) (player : Player) :
    GameM (Option ℤ) := do
  let response ← requestQuery env player
  let action := response.optionselected
  if higher < action ∨ action < lower then
    sendInfo env player.socket invalidMessage
    return none
  else return some action

/-- `requestInt`. -/
def requestInt (env : Env) (lower higher : ℤ) (invalidMessage : String) (player : Player) :
    GameM ℤ :=
  untilSome .outOfFuel World.pending (requestIntRound env lower higher invalidMessage player)

/-- `broadcast` of `sockets_util.h`. -/
def broadcast (env : Env) (message : String) : GameM PUnit := do
  let players ← readGame Game.players
  players.forM fun player => sendInfo env player.socket message

end HanabiBot.HanabiGame.State
