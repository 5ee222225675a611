import HanabiBot.Common.Messages

/-! # The coroutine tree of a chat

`telegram_client_coroutine.hpp`, `client_entry.cpp` and `client_input_tasks.cpp`. A chat of the
Telegram client is one coroutine, `clientEntry`, with the tasks it awaits below it. It is suspended
on the chat's `MessageQueue` or on its `SignallingEvent`, and runs inside `pushMessage` and `set`,
which resume the handle the awaitable has last stored. A stored handle is never cleared.

`Point` is the place where the tree is suspended. The functions named after the coroutines run the
tree from one such place to the next: they take the messages in the queue, and return the chat
suspended. A resume is given what the server answers meanwhile (`Replies`); a socket call that
throws ends its coroutine, which swallows the exception. Calls of the Telegram API return. The
constants of `clientEntry` marked for debugging stand as they are: no name is asked for, and the
operation is always to join a random session. `Entry` has the same coroutines step by step, up to the
loop of the game; there the two agree (`Paths.follows_entry`). -/

namespace HanabiBot.TgClient.Coroutines

open HanabiBot.Common.Messages

/-! ### Awaitables -/

/-- A handle of a coroutine that awaits one of the two: `clientEntry`, or the `n`-th
`waitUntilStartCommand`. -/
inductive Handle where
  | clientEntry
  | waitUntilStartCommand (n : ℕ)
deriving DecidableEq, Repr

structure MessageQueue (T : Type) where
  queue : List T
  mAwaiter : Option Handle

structure SignallingEvent where
  flag : Bool
  eAwaiter : Option Handle

inductive Awaitable where
  | msgQueue
  | clientEvent
deriving DecidableEq, Repr

/-! ### The state of a chat -/

/-- Where the tree is suspended. -/
inductive Point where
  /-- not started -/
  | initial
  /-- `clientEntry`, on the queue, for the message that started the chat -/
  | startingMessage
  /-- `waitUntilStartCommand`, on the queue; `leaderTask` awaits it, and `clientEntry` that -/
  | startCommand (n : ℕ)
  /-- `clientEntry`, on the event, for its turn -/
  | turnSignal
  /-- `clientEntry`, on the queue, for its action -/
  | actionMessage
  /-- done: at its final suspend point -/
  | final
deriving DecidableEq, Repr

/-- The coroutine that is suspended on an awaitable, and which. -/
def Point.awaits : Point → Option (Handle × Awaitable)
  | .startingMessage | .actionMessage => some (.clientEntry, .msgQueue)
  | .startCommand n => some (.waitUntilStartCommand n, .msgQueue)
  | .turnSignal => some (.clientEntry, .clientEvent)
  | .initial | .final => none

/-- The frame of the handle has not been destroyed. -/
def Point.hasFrame : Point → Handle → Bool
  | _, .clientEntry => true
  | .startCommand n, .waitUntilStartCommand k => n = k
  | _, .waitUntilStartCommand _ => false

inductive Crash where
  /-- `assert(!flag)` -/
  | assertion
  /-- a destroyed frame is asked whether it is done -/
  | destroyedFrame
  /-- `front` of an empty queue -/
  | emptyQueue
deriving DecidableEq, Repr

structure Chat where
  point : Point
  msgQueue : MessageQueue String
  clientEvent : SignallingEvent
  /-- calls of `waitUntilStartCommand` that have ended -/
  startCommands : ℕ
  /-- calls of `set` -/
  sets : ℕ
  /-- completions of `co_await clientEvent` -/
  signals : ℕ
  crash : Option Crash

/-- A chat that has been created. -/
def init : Chat := ⟨.initial, ⟨[], none⟩, ⟨false, none⟩, 0, 0, 0, none⟩

/-- What the server answers while the tree runs; `none`, or nothing left, is a socket call that
throws. -/
structure Replies where
  joinRandomSessionAck : Option JoinRandomSessionAck
  createSessionAck : Option CreateSessionAck
  startGameAcks : List (Option AckMessage)

/-! ### The coroutines -/

/-- `joinRandomSession`. -/
def joinRandomSession (ack : JoinRandomSessionAck) : Option ℤ :=
  if ack.sessionType.getD .unspecified = .newSession then none else some (ack.sessionId.getD 0)

/-- `createSession`. -/
def createSession (ack : CreateSessionAck) : Option ℤ :=
  if ack.status.getD .unspecified = .succeed then some (ack.sessionId.getD 0) else none

namespace Chat

/-- `AwaiterForMessage::await_suspend`, with the messages left in the queue. -/
def suspendOnQueue (c : Chat) (handle : Handle) (point : Point) (queue : List String) : Chat :=
  { c with point := point, msgQueue := ⟨queue, some handle⟩ }

/-- `AwaiterForSignal::await_suspend`. -/
def suspendOnEvent (c : Chat) (queue : List String) : Chat :=
  { c with
    point := .turnSignal
    msgQueue := { c.msgQueue with queue := queue }
    clientEvent := { c.clientEvent with eAwaiter := some .clientEntry } }

/-- The final suspend point of `clientEntry`. -/
def finish (c : Chat) (queue : List String) : Chat :=
  { c with point := .final, msgQueue := { c.msgQueue with queue := queue } }

/-- `AwaiterForSignal::await_resume`. -/
def takeSignal (c : Chat) : Chat :=
  { c with clientEvent := { c.clientEvent with flag := false }, signals := c.signals + 1 }

/-- The loop of `clientEntry`, from `co_await clientEvent`. A round takes the signal and a message,
the action. -/
def gameLoop : List String → Chat → Chat
  | [], c =>
    if c.clientEvent.flag then c.takeSignal.suspendOnQueue .clientEntry .actionMessage []
    else c.suspendOnEvent []
  | text :: queue, c =>
    if c.clientEvent.flag then gameLoop queue c.takeSignal else c.suspendOnEvent (text :: queue)

/-- The round behind the signal. -/
def signalled : List String → Chat → Chat
  | [], c => c.takeSignal.suspendOnQueue .clientEntry .actionMessage []
  | _ :: queue, c => gameLoop queue c.takeSignal

/-- `leaderTask`, from `co_await msgQueue` in `waitUntilStartCommand`. -/
def leaderTask : List String → List (Option AckMessage) → Chat → Chat
  | [], _, c =>
    c.suspendOnQueue (.waitUntilStartCommand c.startCommands) (.startCommand c.startCommands) []
  | text :: queue, acks, c =>
    if text = "/start" then
      match acks with
      | some ack :: acks =>
        if ack.status.getD .unspecified = .succeed then
          gameLoop queue { c with startCommands := c.startCommands + 1 }
        else leaderTask queue acks { c with startCommands := c.startCommands + 1 }
      | _ => gameLoop queue { c with startCommands := c.startCommands + 1 }
    else leaderTask queue acks c

/-- `clientEntry` behind its first message. -/
def connect (queue : List String) (r : Replies) (c : Chat) : Chat :=
  match r.joinRandomSessionAck with
  | none => c.finish queue
  | some ack =>
    match joinRandomSession ack with
    | some _ => gameLoop queue c
    | none =>
      match r.createSessionAck.bind createSession with
      | none => c.finish queue
      | some _ => leaderTask queue r.startGameAcks c

/-- The first run of `clientEntry`: it reads the greeting and awaits the message that started the
chat. -/
def start (greeting : Option AckMessage) (c : Chat) : Chat :=
  if greeting.bind AckMessage.status = some .succeed then
    c.suspendOnQueue .clientEntry .startingMessage c.msgQueue.queue
  else c.finish c.msgQueue.queue

/-- `resume` of a frame that is not done, wherever its tree is suspended. A coroutine suspended on
the queue takes the front of it, one suspended on the event goes on as if signalled, and one
suspended on a task as if that were done. -/
def resume (c : Chat) (handle : Handle) (r : Replies) : Chat :=
  match c.point, handle, c.msgQueue.queue with
  | .startingMessage, _, [] | .actionMessage, _, [] | .startCommand _, .waitUntilStartCommand _, [] =>
    { c with crash := some .emptyQueue }
  | .startingMessage, _, _ :: queue => c.connect queue r
  | .actionMessage, _, _ :: queue => c.gameLoop queue
  | .turnSignal, _, queue => c.signalled queue
  | .startCommand _, .waitUntilStartCommand _, queue => c.leaderTask queue r.startGameAcks
  | .startCommand _, .clientEntry, queue => c.gameLoop queue
  | .initial, _, _ | .final, _, _ => c

/-- What `pushMessage` and `set` do with the stored handle: a frame that is not done is resumed. -/
def wake (c : Chat) (awaiter : Option Handle) (r : Replies) : Chat :=
  match awaiter with
  | none => c
  | some handle =>
    if c.point.hasFrame handle then c.resume handle r
    else { c with crash := some .destroyedFrame }

/-- `MessageQueue::pushMessage`. -/
def pushMessage (c : Chat) (message : String) (r : Replies) : Chat :=
  wake { c with msgQueue := { c.msgQueue with queue := c.msgQueue.queue ++ [message] } }
    c.msgQueue.mAwaiter r

/-- `SignallingEvent::set`. -/
def set (c : Chat) (r : Replies) : Chat :=
  if c.clientEvent.flag then { c with crash := some .assertion }
  else wake { c with clientEvent := { c.clientEvent with flag := true }, sets := c.sets + 1 }
    c.clientEvent.eAwaiter r

end Chat

/-! ### Runs of a chat -/

inductive Label where
  | start (greeting : Option AckMessage)
  | pushMessage (message : String) (r : Replies)
  | set (r : Replies)

/-- **One call on a chat.** A chat that is done is replaced by a new one at the next message, and
its event is gone. -/
def step (c : Chat) (l : Label) : Option Chat :=
  if c.crash.isSome then none
  else
    match l with
    | .start greeting => if c.point = .initial then some (c.start greeting) else none
    | .pushMessage message r =>
      if c.point = .initial ∨ c.point = .final then none else some (c.pushMessage message r)
    | .set r => if c.point = .initial ∨ c.point = .final then none else some (c.set r)

end HanabiBot.TgClient.Coroutines
