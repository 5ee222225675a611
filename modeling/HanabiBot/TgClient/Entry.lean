import HanabiBot.TgClient.Coroutines
import HanabiBot.TgClient.Asks

/-! # `clientEntry` up to the game

`clientEntry` with the tasks and functions it calls (`client_entry.cpp`, `client_input_tasks.cpp`,
`client_entry_helpers.cpp`), from its first step to the loop of the game, as a `Program` on the
messages of the user. The operation is a parameter; the name is the constant of the source.

`Outside` is what a call of the outside comes to: it throws, or it returns, `readBytes` with a frame.
`threw` says in the log that a call has thrown. Its coroutine ends then, and the one that awaits it
goes on. `joinRandomSession`, `joinSpecificSession` and `createSession` are no coroutines: what they
throw ends `clientEntry`. The log says `gameLoop` where the loop is reached; there the model ends. -/

namespace HanabiBot.TgClient.Entry

open HanabiBot.Common.Messages HanabiBot.TgClient.Tasks
open HanabiBot.TgClient.Coroutines (joinRandomSession createSession)
open HanabiBot.TgClient.SessionId (isNumber stoi askStr againStr)
open HanabiBot.TgClient.Asks (waitUntilStartCommand)

/-- `ParseFromString` of the messages the client reads. -/
structure Parsers where
  ack : Bytes → AckMessage
  joinRandomSessionAck : Bytes → JoinRandomSessionAck
  joinSessionAck : Bytes → JoinSessionAck
  createSessionAck : Bytes → CreateSessionAck

inductive Coroutine where
  | clientEntry
  | welcomeTask
  | getSpecificSessionTask
  | leaderTask
  | waitUntilStartCommand
deriving DecidableEq, Repr

inductive Point where
  -- `clientEntry`
  | connect
  | greeting
  | greeted (ack : AckMessage)
  | startingMessage
  | welcome
  | yourName
  | operation
  | newConnection (sessionId : Option ℤ)
  | connecting
  | response
  | leader
  | gameLoop
  | finished
  -- `joinRandomSession`, `joinSpecificSession` and `createSession`
  | randomAck
  | randomMessage (ack : JoinRandomSessionAck)
  | specificAck
  | specificMessage (ack : JoinSessionAck)
  | joinedId (sessionId : ℤ)
  | joinedSubscribe
  | createAck
  | createMessage (ack : CreateSessionAck)
  | createLeader (sessionId : ℤ)
  | createdId (sessionId : ℤ)
  -- `welcomeTask`
  | welcomeMessage
  | welcomed
  -- `getSpecificSessionTask`
  | askId
  | idMessage
  | idTest (text : String)
  -- `leaderTask`
  | leaderSubscribe
  | leaderWait
  | cancel
  | startGame
  | startAck
  | startAnswer (ack : AckMessage)
  | startMessage (ack : AckMessage)
  | lastSubscribe
  | started
  -- `waitUntilStartCommand`
  | askStart
  | startCommand
  | startTest (text : String)
  -- an exception in a coroutine
  | throwing (coroutine : Coroutine)
deriving DecidableEq, Repr

/-- What the client does to the outside. -/
inductive Out where
  | connect
  | sendMessage (text : String)
  | newConnection (m : NewConnection)
  | startGameMsg
  | readBytes (frame : Bytes)
  | subscribeToInfo
  | cancel
  | threw
  | gameLoop
deriving DecidableEq, Repr

def nameStr : String := "Brandon"
def welcomeStr : String :=
  "Welcome to Hanabi!\n Enter /quit anytime to exit. \n Please enter your name:"
def leaderStr : String := "You are the session leader."
def sessionIdStr (sessionId : ℤ) : String := "Your session ID is: " ++ toString sessionId

/-- `joinSpecificSession`. -/
def joinSpecificSession (ack : JoinSessionAck) : Option ℤ :=
  if ack.status.getD .unspecified = .succeed then some (ack.sessionId.getD 0) else none

/-- A call of the outside. -/
def call (coroutine : Coroutine) (outside : Option Bytes) (out : Bytes → Out)
    (next : Bytes → Point) : Action Point String ℤ Out :=
  match outside with
  | none => .goOn [.threw] (.throwing coroutine)
  | some frame => .goOn [out frame] (next frame)

section Next
variable (p : Parsers) (operation : ClientOperation) (garbage : ℤ) (outside : Option Bytes)

/-- A message to the user. -/
abbrev tell (coroutine : Coroutine) (text : String) (next : Point) : Action Point String ℤ Out :=
  call coroutine outside (fun _ => .sendMessage text) fun _ => next

/-- The coroutines. The promise of `getSpecificSessionTask` holds `garbage` until it returns. -/
def next : Point → Action Point String ℤ Out
  | .connect => call .clientEntry outside (fun _ => .connect) fun _ => .greeting
  | .greeting => call .clientEntry outside .readBytes fun frame => .greeted (p.ack frame)
  | .greeted ack =>
    if ack.status.getD .unspecified ≠ .succeed then .coReturn 0 else .goOn [] .startingMessage
  | .startingMessage => .coAwaitQueue fun _ => .welcome
  | .welcome => .coAwaitTask .welcomeMessage 0 fun _ => .yourName
  | .yourName => tell outside .clientEntry ("Your name is: " ++ nameStr) .operation
  | .operation =>
    if operation = .joinSpecificSession then
      .coAwaitTask .askId garbage fun sessionId => .newConnection (some sessionId)
    else .goOn [] (.newConnection none)
  | .newConnection sessionId =>
    call .clientEntry outside (fun _ => .newConnection ⟨some nameStr, some operation, sessionId⟩)
      fun _ => .connecting
  | .connecting => tell outside .clientEntry "Connecting to the server..." .response
  | .response =>
    match operation with
    | .joinRandomSession => .goOn [] .randomAck
    | .joinSpecificSession => .goOn [] .specificAck
    | .createSession => .goOn [] .createAck
    | .unspecified => .goOn [] .gameLoop
  | .leader => .coAwaitTask .leaderSubscribe 0 fun _ => .gameLoop
  | .gameLoop => .goOn [.gameLoop] .finished
  | .finished => .coReturn 0
  | .randomAck =>
    call .clientEntry outside .readBytes fun frame => .randomMessage (p.joinRandomSessionAck frame)
  | .randomMessage ack =>
    tell outside .clientEntry (ack.message.getD "")
      (match joinRandomSession ack with
      | none => .createAck
      | some sessionId => .joinedId sessionId)
  | .specificAck =>
    call .clientEntry outside .readBytes fun frame => .specificMessage (p.joinSessionAck frame)
  | .specificMessage ack =>
    tell outside .clientEntry (ack.message.getD "")
      (match joinSpecificSession ack with
      | none => .finished
      | some sessionId => .joinedId sessionId)
  | .joinedId sessionId => tell outside .clientEntry (sessionIdStr sessionId) .joinedSubscribe
  | .joinedSubscribe => .goOn [.subscribeToInfo] .gameLoop
  | .createAck =>
    call .clientEntry outside .readBytes fun frame => .createMessage (p.createSessionAck frame)
  | .createMessage ack =>
    tell outside .clientEntry (ack.message.getD "")
      (match createSession ack with
      | none => .finished
      | some sessionId => .createLeader sessionId)
  | .createLeader sessionId => tell outside .clientEntry leaderStr (.createdId sessionId)
  | .createdId sessionId => tell outside .clientEntry (sessionIdStr sessionId) .leader
  | .welcomeMessage => tell outside .welcomeTask welcomeStr .welcomed
  | .welcomed => .coReturn 0
  | .askId => tell outside .getSpecificSessionTask askStr .idMessage
  | .idMessage => .coAwaitQueue .idTest
  | .idTest text =>
    if isNumber text then
      match stoi text with
      | some sessionId => .coReturn sessionId
      | none => .goOn [.threw] (.throwing .getSpecificSessionTask)
    else tell outside .getSpecificSessionTask againStr .idMessage
  | .leaderSubscribe => .goOn [.subscribeToInfo] .leaderWait
  | .leaderWait => .coAwaitTask .askStart 0 fun _ => .cancel
  | .cancel => call .leaderTask outside (fun _ => .cancel) fun _ => .startGame
  | .startGame => call .leaderTask outside (fun _ => .startGameMsg) fun _ => .startAck
  | .startAck => call .leaderTask outside .readBytes fun frame => .startAnswer (p.ack frame)
  | .startAnswer ack =>
    if ack.status.getD .unspecified = .succeed then .goOn [] .lastSubscribe
    else tell outside .leaderTask "Failed to start game!" (.startMessage ack)
  | .startMessage ack => tell outside .leaderTask (ack.message.getD "") .leaderSubscribe
  | .lastSubscribe => .goOn [.subscribeToInfo] .started
  | .started => .coReturn 0
  | .askStart =>
    tell outside .waitUntilStartCommand (waitUntilStartCommand.question.getD "") .startCommand
  | .startCommand => .coAwaitQueue .startTest
  | .startTest text =>
    match waitUntilStartCommand.accept text with
    | some _ => .coReturn 0
    | none => tell outside .waitUntilStartCommand waitUntilStartCommand.again .startCommand
  | .throwing _ => .throws

end Next

abbrev program (p : Parsers) (operation : ClientOperation) (garbage : ℤ) : Program where
  Point := Point
  T := String
  Result := ℤ
  Out := Out
  Outside := Option Bytes
  next point outside := next p operation garbage outside point

/-- `clientEntry` before it is started. -/
def start (p : Parsers) (operation : ClientOperation) (garbage : ℤ) :
    State (program p operation garbage) :=
  init (M := program p operation garbage) .connect 0

end HanabiBot.TgClient.Entry
