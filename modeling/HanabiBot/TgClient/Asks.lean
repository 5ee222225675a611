import HanabiBot.Common.Messages
import HanabiBot.TgClient.Direct

/-! # Asking a user

The tasks of `client_input_tasks.cpp` that ask a user until a message will do: `getNameTask`,
`getOperationTask` and `waitUntilStartCommand`. They are one coroutine with an `Ask`, which says what
is asked, what will do and what the others are told, and are run with a coroutine that awaits them.

In every run, whenever the messages are pushed, each message before the first that will do is told
off once, that one is what the awaiting coroutine gets, and the messages behind it stay in the queue
(`ask_answers`). -/

namespace HanabiBot.TgClient.Asks

open HanabiBot.Lib.Runs HanabiBot.Common.Messages HanabiBot.TgClient.Tasks HanabiBot.TgClient.Direct

/-- A task that asks for a `V`. -/
structure Ask (V : Type) where
  question : Option String
  accept : String → Option V
  again : String

inductive Point (V : Type) where
  -- the awaiting coroutine
  | caller
  | received (value : V)
  | finished
  -- the task
  | ask
  | message
  | test (text : String)

/-- A message to the user, and the value the awaiting coroutine goes on with. -/
inductive Out (V : Type) where
  | sendMessage (text : String)
  | received (value : V)
deriving DecidableEq, Repr

/-! ### The tasks -/

/-- `getNameTask`. -/
def getNameTask : Ask String where
  question := none
  accept text := if text.isEmpty || text.toList.head? = some '/' then none else some text
  again := "Name cannot be empty or begin with a /\n Please enter your name:"

/-- `getOperationTask`. -/
def getOperationTask : Ask ClientOperation where
  question := some ("Please select an operation: \n 1. Create a new session \n 2. Join a " ++
    "specific session \n 3. Join a random session")
  accept text :=
    if text = "/createSession" then some .createSession
    else if text = "/joinSession" then some .joinSpecificSession
    else if text = "/joinRandomSession" then some .joinRandomSession
    else none
  again := "Invalid operation! Please select an operation: \n 1. Create a new " ++
    "session \n 2. Join a specific session \n 3. Join a random session"

/-- `waitUntilStartCommand`. -/
def waitUntilStartCommand : Ask Unit where
  question := some "Please enter /start to start the game!"
  accept text := if text ≠ "/start" then none else some ()
  again := "Please enter /start to start the game!"

section Model
variable {V : Type} (a : Ask V) (held : V)

/-- The task, and `co_await` of it. The promise of the task holds `held` until it returns. `returns`
says of a call of the Telegram API that it does not throw. -/
def next (returns : Bool) : Point V → Action (Point V) String V (Out V)
  | .caller => .coAwaitTask .ask held .received
  | .received value => .goOn [.received value] .finished
  | .finished => .coReturn held
  | .ask =>
    match a.question with
    | none => .goOn [] .message
    | some text => if returns then .goOn [.sendMessage text] .message else .throws
  | .message => .coAwaitQueue .test
  | .test text =>
    match a.accept text with
    | some value => .coReturn value
    | none => if returns then .goOn [.sendMessage a.again] .message else .throws

abbrev program : Program where
  Point := Point V
  T := String
  Result := V
  Out := Out V
  Outside := Bool
  next point returns := next a held returns point

/-- The coroutine that awaits the task, before it is started. -/
def start : State (program a held) := init (M := program a held) .caller held

/-! ### The answers -/

/-- The answers there ought to be: the messages are told off, up to one that will do. -/
def replies : List String → List (Event (program a held))
  | [] => []
  | text :: texts => .took text ::
    match a.accept text with
    | some value => [.out (.received value)]
    | none => .out (.sendMessage a.again) :: replies texts

def dialogue (texts : List String) : List (Event (program a held)) :=
  (a.question.map fun text => Event.out (Out.sendMessage text)).toList ++ replies a held texts

/-- The messages behind the one that will do. -/
def unread : List String → List String
  | [] => []
  | text :: texts => if (a.accept text).isSome then texts else unread texts

/-- A coroutine at the message, with the caller behind it. -/
def atMessage (texts : List String) (log : List (Event (program a held))) : Config (program a held) :=
  ⟨.running .message, held, [(held, .received)], texts, log⟩

/-- The coroutine at rest, with the messages and the log. -/
structure Rests (c : Config (program a held)) (texts : List String)
    (log : List (Event (program a held))) : Prop where
  rest : plainStep c true = none
  log : c.log = log
  input : c.input = unread a texts
  finished : c.mode = .finished ↔ ∃ text ∈ texts, (a.accept text).isSome = true

variable {a held}

variable (a held) in
/-- **The loop of a task**, on any messages. -/
theorem reach_atMessage (texts : List String) : ∀ log, ∃ n c,
    reach plainStep (atMessage a held texts log) (List.replicate n true) = some c ∧
      Rests a held c texts (log ++ replies a held texts) := by
  induction texts with
  | nil =>
    intro log
    refine ⟨1, { atMessage a held [] log with mode := .waiting .test }, rfl, rfl, ?_, rfl, ?_⟩
    · exact (List.append_nil log).symm
    · exact iff_of_false nofun fun ⟨_, h, _⟩ => nomatch h
  | cons text texts ih =>
    intro log
    cases haccept : a.accept text with
    | some value =>
      refine ⟨4, ⟨.finished, held, [], texts, log ++ [.took text] ++ [.out (.received value)]⟩, ?_, rfl,
        ?_, ?_, ?_⟩
      · simp [reach, plainStep, Config.act, Config.ret, atMessage, next, haccept]
      · simp [replies, haccept]
      · simp [unread, haccept]
      · simp [haccept]
    | none =>
      obtain ⟨n, c, hreach, hc⟩ := ih (log ++ [.took text] ++ [.out (.sendMessage a.again)])
      refine ⟨n + 2, c, ?_, hc.rest, ?_, ?_, ?_⟩
      · -- the message is taken and told off, and the task is at the next
        have htwo : reach plainStep (atMessage a held (text :: texts) log) [true, true] =
            some (atMessage a held texts (log ++ [.took text] ++ [.out (.sendMessage a.again)])) := by
          simp [reach, plainStep, Config.act, atMessage, next, haccept]
        rw [Nat.add_comm, List.replicate_add, reach_append]
        exact (congrArg (Option.bind · _) htwo).trans hreach
      · rw [hc.log]
        simp [replies, haccept]
      · rw [hc.input]
        simp [unread, haccept]
      · rw [hc.finished]
        simp [haccept]

variable (a held) in
theorem reach_caller (texts : List String) : ∃ n c,
    reach plainStep (plain (M := program a held) .caller held texts) (List.replicate n true) = some c ∧
      Rests a held c texts (dialogue a held texts) := by
  obtain ⟨n, c, hreach, hc⟩ := reach_atMessage a held texts
    (a.question.map fun text => Event.out (Out.sendMessage text)).toList
  have htwo : reach plainStep (plain (M := program a held) .caller held texts) [true, true] =
      some (atMessage a held texts
        (a.question.map fun text => Event.out (Out.sendMessage text)).toList) := by
    cases hquestion : a.question <;>
      simp [reach, plainStep, plain, Config.act, atMessage, next, hquestion]
  refine ⟨2 + n, c, ?_, hc⟩
  rw [List.replicate_add, reach_append]
  exact (congrArg (Option.bind · _) htwo).trans hreach

section Answers
variable {s : State (program a held)} {ls : List (Label (program a held))}

/-- **The user is asked until a message will do**, from any state of any run, as long as the calls of
the Telegram API return. -/
theorem ask_answers (hr : reach step (start a held) ls = some s) (hstarted : Started s)
    (hreturns : ∀ returns ∈ answers ls, returns = true) :
    ∃ n s', reach step s (List.replicate n (.run true)) = some s' ∧ s'.running = none ∧
      s'.pushed = s.pushed ∧ s'.log = dialogue a held s.pushed ∧ s'.queue = unread a s.pushed ∧
      ((s'.frames root).any Frame.done = true ↔ ∃ text ∈ s.pushed, (a.accept text).isSome = true) := by
  obtain ⟨n, c, hplain, hc⟩ := reach_caller a held s.pushed
  obtain ⟨j, s', hreach, hrest, hpushed, hshows⟩ :=
    comes_to_rest hr hstarted (List.eq_replicate_of_mem hreturns) hplain hc.rest
  exact ⟨j, s', hreach, hrest, hpushed, hshows.log.symm.trans hc.log,
    hshows.input.symm.trans hc.input, hshows.finished.trans hc.finished⟩

/-- A command of the chat is no operation; the one behind the operation is left. -/
theorem ask_answers_operation : ∃ (s : State (program getOperationTask .unspecified)) (ls : List _),
    reach step (start getOperationTask .unspecified) ls = some s ∧
      s.log.drop 1 = [.took "/start", .out (.sendMessage getOperationTask.again),
        .took "/joinSession", .out (.received .joinSpecificSession)] ∧ s.queue = ["/playCard"] := by
  obtain ⟨s, hr⟩ := Option.isSome_iff_exists.mp (show (reach step
    (start getOperationTask .unspecified) [.pushMessage "/start", .pushMessage "/joinSession",
      .pushMessage "/playCard", .start]).isSome = true by decide +kernel)
  have hpushed : s.pushed = ["/start", "/joinSession", "/playCard"] := by cases hr; rfl
  have hstarted : Started s := by
    intro f hf point hstatus
    cases hr
    cases hf
    cases hstatus
  obtain ⟨n, s', hreach, -, -, hlog, hqueue, -⟩ := ask_answers hr hstarted nofun
  rw [hpushed] at hlog hqueue
  refine ⟨s', [.pushMessage "/start", .pushMessage "/joinSession", .pushMessage "/playCard", .start] ++
    List.replicate n (.run true), ?_, hlog ▸ rfl, hqueue⟩
  rw [reach_append, hr]
  exact hreach

end Answers

end Model

end HanabiBot.TgClient.Asks
