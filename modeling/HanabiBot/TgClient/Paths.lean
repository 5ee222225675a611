import HanabiBot.TgClient.Entry
import HanabiBot.TgClient.Wakeups
import Mathlib.Data.Set.Operations

/-! # The paths of a chat

`Coroutines` takes the tree of a chat from one place where it is suspended to the next; `Entry` is
`clientEntry` with its tasks, step by step, on the machine of `Tasks`. Up to the loop of the game,
with the constants marked for debugging, the first is the second: for every run of calls on a chat
there are answers of the outside with which the coroutines, given the same messages, come to stand
where the chat is suspended (`follows_entry`).

The answers are frames that decode to the `Replies`; calls of the Telegram API return. A signal that
is set before the loop is for the loop, and nothing to `Entry`. -/

namespace HanabiBot.TgClient.Paths

open HanabiBot.Lib.Runs HanabiBot.Common.Messages HanabiBot.TgClient.Tasks
open HanabiBot.TgClient.Delivery HanabiBot.TgClient.Direct HanabiBot.TgClient.Entry
open HanabiBot.TgClient.Coroutines (Chat Replies)
open HanabiBot.TgClient.Wakeups (Stored)

/-- What the server answers to a call comes in frames. -/
def Framed (p : Parsers) : Coroutines.Label → Prop
  | .start greeting => ∀ ack ∈ greeting, ack ∈ Set.range p.ack
  | .pushMessage _ r => (∀ ack ∈ r.joinRandomSessionAck, ack ∈ Set.range p.joinRandomSessionAck) ∧
    (∀ ack ∈ r.createSessionAck, ack ∈ Set.range p.createSessionAck) ∧
    ∀ ack, some ack ∈ r.startGameAcks → ack ∈ Set.range p.ack
  | .set _ => True

/-- The place is in the loop of the game. -/
def inLoop : Coroutines.Point → Bool
  | .turnSignal | .actionMessage => true
  | _ => false

/-- A call on a chat that has not come to the loop. -/
def stepToLoop (chat : Chat) (l : Coroutines.Label) : Option Chat :=
  if inLoop chat.point then none else Coroutines.step chat l

/-- The message that a call on a chat pushes. -/
def pushes : Coroutines.Label → Option String
  | .pushMessage message _ => some message
  | .start _ | .set _ => none

/-- Nobody waits for a signal, the handle of the chat's wait is stored, and no message is left. -/
structure Ready (chat : Chat) : Prop where
  stored : Stored chat.msgQueue chat.clientEvent chat.point
  empty : chat.msgQueue.queue = []
  unsignalled : chat.clientEvent.eAwaiter = none

section Model
variable (p : Parsers) (garbage : ℤ)

/-- `clientEntry`, as the constants leave it. -/
abbrev entry : Program := program p .joinRandomSession garbage

/-- The calls under way in `waitUntilStartCommand`. -/
def leaderCalls : List (Caller (entry p garbage)) :=
  [(0, fun _ => .cancel), (0, fun _ => .gameLoop)]

/-- The program has not come to the loop of the game. -/
def Before (log : List (Event (entry p garbage))) : Prop := .out .gameLoop ∉ log

variable {p garbage}

/-- The program, once started, stands where the chat is suspended; in the loop, where it ends. -/
def Stands : Coroutines.Point → Config (entry p garbage) → Prop
  | .initial, _ => False
  | .startingMessage, c => ∃ log, Before p garbage log ∧
    c = ⟨.waiting fun _ => .welcome, 0, [], [], log⟩
  | .startCommand _, c => ∃ log, Before p garbage log ∧
    c = ⟨.waiting .startTest, 0, leaderCalls p garbage, [], log⟩
  | .final, c => c.mode = .finished ∧ Before p garbage c.log
  | .turnSignal, c | .actionMessage, c => c.mode = .finished ∧ ¬ Before p garbage c.log

/-! ### Stretches of the program -/

/-- With some answers, the program comes from one place to another. -/
def Leads (c c' : Config (entry p garbage)) : Prop := ∃ outs, reach plainStep c outs = some c'

theorem Leads.trans {c c' c'' : Config (entry p garbage)} (h : Leads c c') (h' : Leads c' c'') :
    Leads c c'' := by
  obtain ⟨outs, hr⟩ := h
  obtain ⟨outs', hr'⟩ := h'
  refine ⟨outs ++ outs', ?_⟩
  rw [reach_append, hr]
  exact hr'

/-- The program runs at a point, with no message left. -/
def runs (point : Entry.Point) (callers : List (Caller (entry p garbage)))
    (log : List (Event (entry p garbage))) : Config (entry p garbage) :=
  ⟨.running point, 0, callers, [], log⟩

variable (p garbage) in
/-- From a point the program comes to where the chat is suspended. -/
def Ends (point : Entry.Point) (callers : List (Caller (entry p garbage)))
    (place : Coroutines.Point) : Prop :=
  ∀ log, Before p garbage log → ∃ c, Leads (runs point callers log) c ∧ Stands place c

variable (p garbage) in
/-- From a point it comes to another one, before the loop. -/
def Passes (point : Entry.Point) (callers : List (Caller (entry p garbage))) (point' : Entry.Point)
    (callers' : List (Caller (entry p garbage))) : Prop :=
  ∀ log, Before p garbage log → ∃ log', Leads (runs point callers log) (runs point' callers' log') ∧
    Before p garbage log'

section Stretches
variable {point point' : Entry.Point} {callers callers' : List (Caller (entry p garbage))}
  {place : Coroutines.Point}

theorem Passes.ends (h : Passes p garbage point callers point' callers')
    (h' : Ends p garbage point' callers' place) : Ends p garbage point callers place := by
  intro log hlog
  obtain ⟨log', hleads, hlog'⟩ := h log hlog
  obtain ⟨c, hc, hstands⟩ := h' log' hlog'
  exact ⟨c, hleads.trans hc, hstands⟩

theorem Passes.trans {point'' : Entry.Point} {callers'' : List (Caller (entry p garbage))}
    (h : Passes p garbage point callers point' callers')
    (h' : Passes p garbage point' callers' point'' callers'') :
    Passes p garbage point callers point'' callers'' := by
  intro log hlog
  obtain ⟨log', hleads, hlog'⟩ := h log hlog
  obtain ⟨log'', hleads', hlog''⟩ := h' log' hlog'
  exact ⟨log'', hleads.trans hleads', hlog''⟩

section Steps
variable {then' : ℤ → Entry.Point} (outside : Option Bytes)

theorem leads_step {action : Action Entry.Point String ℤ Out} {log : List (Event (entry p garbage))}
    (h : next p .joinRandomSession garbage outside point = action) :
    Leads (runs point callers log) ((runs point callers log).act action) := by
  subst h
  exact ⟨[outside], rfl⟩

theorem passes_goOn {out : List Out}
    (h : next p .joinRandomSession garbage outside point = .goOn out point')
    (hout : out.contains .gameLoop = false) : Passes p garbage point callers point' callers := by
  intro log hlog
  refine ⟨_, leads_step outside h, fun hmem => ?_⟩
  rcases List.mem_append.mp hmem with hmem | hmem
  · exact hlog hmem
  · obtain ⟨o, ho, he⟩ := List.mem_map.mp hmem
    cases he
    rw [List.contains_iff_mem.mpr ho] at hout
    cases hout

theorem passes_await {task : Entry.Point}
    (h : next p .joinRandomSession garbage outside point = .coAwaitTask task 0 then') :
    Passes p garbage point callers task ((0, then') :: callers) :=
  fun log hlog => ⟨log, leads_step outside h, hlog⟩

/-- A task ends, and its caller goes on. -/
theorem passes_over (h : next p .joinRandomSession garbage outside point = .coReturn 0 ∨
      next p .joinRandomSession garbage outside point = .throws) :
    Passes p garbage point ((0, then') :: callers) (then' 0) callers := by
  intro log hlog
  rcases h with h | h
  · exact ⟨log, leads_step outside h, hlog⟩
  · exact ⟨log, leads_step outside h, hlog⟩

/-- `clientEntry` ends before the loop. -/
theorem ends_over (h : next p .joinRandomSession garbage outside point = .coReturn 0 ∨
      next p .joinRandomSession garbage outside point = .throws) :
    Ends p garbage point [] .final := by
  intro log hlog
  rcases h with h | h
  · exact ⟨_, leads_step outside h, rfl, hlog⟩
  · exact ⟨_, leads_step outside h, rfl, hlog⟩

end Steps

/-- The loop of the game, where `Entry` ends. -/
theorem ends_gameLoop (hplace : inLoop place = true) : Ends p garbage .gameLoop [] place := by
  intro log _
  have hstands (c : Config (entry p garbage)) (hmode : c.mode = .finished)
      (hmem : .out .gameLoop ∈ c.log) : Stands place c := by
    cases place with
    | turnSignal | actionMessage => exact ⟨hmode, fun h => h hmem⟩
    | initial | startingMessage | startCommand n | final => cases hplace
  exact ⟨_, ⟨[none, none], rfl⟩, hstands _ rfl (List.mem_append_right _ List.mem_cons_self)⟩

theorem ends_startingMessage : Ends p garbage .startingMessage [] .startingMessage :=
  fun log hlog => ⟨_, ⟨[none], rfl⟩, log, hlog, rfl⟩

theorem ends_startCommand (n : ℕ) :
    Ends p garbage .startCommand (leaderCalls p garbage) (.startCommand n) :=
  fun log hlog => ⟨_, ⟨[none], rfl⟩, log, hlog, rfl⟩

/-- A call of `leaderTask` up to its message. -/
theorem ends_leader (n : ℕ) :
    Ends p garbage .leaderSubscribe [(0, fun _ => .gameLoop)] (.startCommand n) :=
  ((passes_goOn none rfl rfl).trans <| (passes_await none rfl).trans <|
    passes_goOn (some []) rfl rfl).ends (ends_startCommand n)

theorem ends_created (sessionId : ℤ) (n : ℕ) :
    Ends p garbage (.createLeader sessionId) [] (.startCommand n) :=
  ((passes_goOn (some []) rfl rfl).trans <| (passes_goOn (some []) rfl rfl).trans <|
    passes_await none rfl).ends (ends_leader n)

end Stretches

/-! ### From one place to the next -/

theorem gameLoop_inLoop (chat : Chat) : inLoop (chat.gameLoop []).point = true := by
  unfold Chat.gameLoop
  split_ifs <;> rfl

/-- The first run of `clientEntry`. -/
theorem ends_connect {greeting : Option AckMessage} (h : ∀ ack ∈ greeting, ack ∈ Set.range p.ack)
    (chat : Chat) : Ends p garbage .connect [] (chat.start greeting).point := by
  refine (passes_goOn (some []) rfl rfl).ends ?_
  unfold Chat.start
  cases greeting with
  | none => exact (passes_goOn none rfl rfl).ends (ends_over none (Or.inr rfl))
  | some ack =>
    obtain ⟨frame, rfl⟩ := h ack rfl
    refine (passes_goOn (some frame) rfl rfl).ends ?_
    have hstatus : (p.ack frame).status.getD .unspecified = .succeed ↔
        (some (p.ack frame)).bind AckMessage.status = some .succeed := by
      rw [Option.bind_some]
      cases (p.ack frame).status with
      | none => exact iff_of_false nofun nofun
      | some status => exact (Option.some_inj (a := status)).symm
    split_ifs with hsucceed
    · have hnext : next p .joinRandomSession garbage none (.greeted (p.ack frame)) =
          .goOn [] .startingMessage := if_neg (not_not.mpr (hstatus.mpr hsucceed))
      exact (passes_goOn none hnext rfl).ends ends_startingMessage
    · exact ends_over none (Or.inl (if_pos fun hs => hsucceed (hstatus.mp hs)))

/-- From the message that started the chat. -/
theorem ends_welcome {r : Replies}
    (hjoin : ∀ ack ∈ r.joinRandomSessionAck, ack ∈ Set.range p.joinRandomSessionAck)
    (hcreate : ∀ ack ∈ r.createSessionAck, ack ∈ Set.range p.createSessionAck) (chat : Chat) :
    Ends p garbage .welcome [] (chat.connect [] r).point := by
  have hgreeted : Passes p garbage .welcome [] .randomAck [] :=
    (passes_await none rfl).trans <| (passes_goOn (some []) rfl rfl).trans <|
      (passes_over none (Or.inl rfl)).trans <| (passes_goOn (some []) rfl rfl).trans <|
      (passes_goOn none rfl rfl).trans <| (passes_goOn (some []) rfl rfl).trans <|
      (passes_goOn (some []) rfl rfl).trans <| passes_goOn none rfl rfl
  refine hgreeted.ends ?_
  unfold Chat.connect
  cases hjoined : r.joinRandomSessionAck with
  | none => exact (passes_goOn none rfl rfl).ends (ends_over none (Or.inr rfl))
  | some ack =>
    obtain ⟨frame, rfl⟩ := hjoin ack hjoined
    refine (passes_goOn (some frame) rfl rfl).ends ((passes_goOn (some []) rfl rfl).ends ?_)
    simp only
    cases Coroutines.joinRandomSession (p.joinRandomSessionAck frame) with
    | some sessionId =>
      exact ((passes_goOn (some []) rfl rfl).trans (passes_goOn none rfl rfl)).ends
        (ends_gameLoop (gameLoop_inLoop chat))
    | none =>
      cases hcreated : r.createSessionAck with
      | none => exact (passes_goOn none rfl rfl).ends (ends_over none (Or.inr rfl))
      | some ack =>
        obtain ⟨frame, rfl⟩ := hcreate ack hcreated
        refine (passes_goOn (some frame) rfl rfl).ends ((passes_goOn (some []) rfl rfl).ends ?_)
        simp only [Option.bind_some]
        cases Coroutines.createSession (p.createSessionAck frame) with
        | none => exact ends_over none (Or.inl rfl)
        | some sessionId => exact ends_created sessionId chat.startCommands

/-- From a message to `waitUntilStartCommand`. -/
theorem ends_startTest {acks : List (Option AckMessage)}
    (h : ∀ ack, some ack ∈ acks → ack ∈ Set.range p.ack) (text : String) (chat : Chat) :
    Ends p garbage (.startTest text) (leaderCalls p garbage) (chat.leaderTask [text] acks).point := by
  unfold Chat.leaderTask
  by_cases htext : text = "/start"
  · subst htext
    rw [if_pos rfl]
    -- `waitUntilStartCommand` returns, and the subscription is cancelled
    have hcancelled : Passes p garbage (.startTest "/start") (leaderCalls p garbage) .startAck
        [(0, fun _ => .gameLoop)] :=
      (passes_over none (Or.inl rfl)).trans <| (passes_goOn (some []) rfl rfl).trans <|
        passes_goOn (some []) rfl rfl
    have hthrows (chat : Chat) : Ends p garbage .startAck [(0, fun _ => .gameLoop)]
        (chat.gameLoop []).point :=
      ((passes_goOn none rfl rfl).trans (passes_over none (Or.inr rfl))).ends
        (ends_gameLoop (gameLoop_inLoop chat))
    refine hcancelled.ends ?_
    rcases acks with _ | ⟨_ | ack, acks⟩
    · exact hthrows _
    · exact hthrows _
    · obtain ⟨frame, rfl⟩ := h ack List.mem_cons_self
      refine (passes_goOn (some frame) rfl rfl).ends ?_
      simp only
      split_ifs with hstatus
      · have hnext : next p .joinRandomSession garbage none (.startAnswer (p.ack frame)) =
            .goOn [] .lastSubscribe := if_pos hstatus
        exact ((passes_goOn none hnext rfl).trans <| (passes_goOn none rfl rfl).trans <|
          passes_over none (Or.inl rfl)).ends (ends_gameLoop (gameLoop_inLoop _))
      · have hnext : next p .joinRandomSession garbage (some []) (.startAnswer (p.ack frame)) =
            .goOn [.sendMessage "Failed to start game!"] (.startMessage (p.ack frame)) :=
          if_neg hstatus
        exact ((passes_goOn (some []) hnext rfl).trans (passes_goOn (some []) rfl rfl)).ends
          (ends_leader _)
  · rw [if_neg htext]
    have haccept : Asks.waitUntilStartCommand.accept text = none := if_pos htext
    have hnext : next p .joinRandomSession garbage (some []) (.startTest text) =
        .goOn [.sendMessage Asks.waitUntilStartCommand.again] .startCommand := by
      unfold next
      simp only [haccept]
      rfl
    exact (passes_goOn (some []) hnext rfl).ends (ends_startCommand _)

/-! ### The chat at its places -/

section Chats
variable {chat : Chat}

theorem not_inLoop_gameLoop (h : inLoop (chat.gameLoop []).point = false) : False := by
  rw [gameLoop_inLoop] at h
  cases h

theorem ready_start (h : Ready chat) (greeting : Option AckMessage) :
    Ready (chat.start greeting) := by
  unfold Chat.start
  split_ifs
  · exact ⟨⟨rfl, h.unsignalled⟩, h.empty, h.unsignalled⟩
  · exact ⟨trivial, h.empty, h.unsignalled⟩

theorem ready_leaderTask (h : chat.clientEvent.eAwaiter = none) (text : String)
    (acks : List (Option AckMessage)) (hloop : inLoop (chat.leaderTask [text] acks).point = false) :
    Ready (chat.leaderTask [text] acks) := by
  unfold Chat.leaderTask at hloop ⊢
  split_ifs at hloop ⊢ with htext
  · rcases acks with _ | ⟨_ | ack, acks⟩
    · exact (not_inLoop_gameLoop hloop).elim
    · exact (not_inLoop_gameLoop hloop).elim
    · simp only at hloop ⊢
      split_ifs at hloop ⊢ with hstatus
      · exact (not_inLoop_gameLoop hloop).elim
      · exact ⟨⟨rfl, h⟩, rfl, h⟩
  · exact ⟨⟨rfl, h⟩, rfl, h⟩

theorem ready_connect (h : chat.clientEvent.eAwaiter = none) (r : Replies)
    (hloop : inLoop (chat.connect [] r).point = false) : Ready (chat.connect [] r) := by
  have hfinish : Ready (chat.finish []) := ⟨trivial, rfl, h⟩
  unfold Chat.connect at hloop ⊢
  split at hloop
  · exact hfinish
  · split at hloop
    · exact (not_inLoop_gameLoop hloop).elim
    · split
      · exact hfinish
      · exact ⟨⟨rfl, h⟩, rfl, h⟩

/-- A signal before the loop is kept. -/
theorem ready_set (h : Ready chat) (hloop : inLoop chat.point = false) (r : Replies) :
    Ready (chat.set r) ∧ (chat.set r).point = chat.point := by
  unfold Chat.set
  rw [h.unsignalled]
  split_ifs
  · exact ⟨⟨h.stored, h.empty, h.unsignalled⟩, rfl⟩
  · have hstored : Stored chat.msgQueue { chat.clientEvent with flag := true } chat.point := by
      have hold := h.stored
      cases hpoint : chat.point with
      | turnSignal | actionMessage => rw [hpoint] at hloop; cases hloop
      | initial | startingMessage | startCommand n | final => rw [hpoint] at hold; exact hold
    exact ⟨⟨hstored, h.empty, h.unsignalled⟩, rfl⟩

/-- The message that started the chat. -/
theorem pushMessage_startingMessage (h : Ready chat) (hpoint : chat.point = .startingMessage)
    (message : String) (r : Replies) : ∃ chat1 : Chat, chat1.clientEvent = chat.clientEvent ∧
      chat.pushMessage message r = chat1.connect [] r := by
  have hawaiter : chat.msgQueue.mAwaiter = some .clientEntry := by
    have hstored := h.stored
    rw [hpoint] at hstored
    exact hstored.1
  refine ⟨{ chat with msgQueue := { chat.msgQueue with queue := [message] } }, rfl, ?_⟩
  unfold Chat.pushMessage Chat.wake
  rw [hawaiter, h.empty]
  simp only [hpoint, Coroutines.Point.hasFrame, Chat.resume, List.nil_append, if_true]

/-- A message to `waitUntilStartCommand`. -/
theorem pushMessage_startCommand {n : ℕ} (h : Ready chat) (hpoint : chat.point = .startCommand n)
    (message : String) (r : Replies) : ∃ chat1 : Chat, chat1.clientEvent = chat.clientEvent ∧
      chat.pushMessage message r = chat1.leaderTask [message] r.startGameAcks := by
  have hawaiter : chat.msgQueue.mAwaiter = some (.waitUntilStartCommand n) := by
    have hstored := h.stored
    rw [hpoint] at hstored
    exact hstored.1
  refine ⟨{ chat with msgQueue := { chat.msgQueue with queue := [message] } }, rfl, ?_⟩
  unfold Chat.pushMessage Chat.wake
  rw [hawaiter, h.empty]
  simp [hpoint, Coroutines.Point.hasFrame, Chat.resume]

end Chats

/-! ### Whole runs -/

section Runs
variable {chat chat' : Chat} {l : Coroutines.Label} {s : State (entry p garbage)}
  {c c' : Config (entry p garbage)}

/-- The coroutines stand where the chat is suspended. -/
structure Follows (chat : Chat) (s : State (entry p garbage)) : Prop where
  inv : Inv s
  ready : inLoop chat.point = false → Ready chat
  unstarted : chat.point = .initial → s = start p .joinRandomSession garbage
  awake : chat.point ≠ .initial → ∃ c, Awake s c ∧ Stands chat.point c

theorem messages_run (outs : List (Option Bytes)) :
    messages (outs.map (Tasks.Label.run (M := entry p garbage))) = [] := by
  unfold messages
  rw [List.filterMap_map]
  exact List.filterMap_eq_nil_iff.mpr fun _ _ => rfl

/-- The coroutines go where the program goes. -/
theorem awake_leads (hI : Inv s) (hc : Awake s c) (h : Leads c c') :
    ∃ run s', reach step s run = some s' ∧ messages run = [] ∧ Awake s' c' := by
  obtain ⟨outs, hr⟩ := h
  obtain ⟨s', hreach, hc', -⟩ := reach_of_plain hI hc hr
  exact ⟨_, s', hreach, messages_run outs, hc'⟩

/-- A message wakes the coroutine that waits. -/
theorem awake_wait (hI : Inv s) (hc : Awake s c) {next : String → Entry.Point}
    (hmode : c.mode = .waiting next) (message : String) :
    ∃ s', step s (.pushMessage message) = some s' ∧ Awake s' (c.feed message) := by
  have hrest : s.running = none := hc.rests fun point h => nomatch hmode.symm.trans h
  have htimely : s.Timely := Or.inr ((shows_of_plainly hc.plainly).waits.mpr ⟨next, hmode⟩)
  exact ⟨_, step_pushMessage hI.fault hrest htimely message,
    awake_pushMessage hc hrest htimely message⟩

/-- What can be done to a chat before the loop. -/
theorem stepToLoop_cases (hs : stepToLoop chat l = some chat') : inLoop chat.point = false ∧
    ((∃ greeting, l = .start greeting ∧ chat.point = .initial ∧ chat' = chat.start greeting) ∨
      (∃ message r, l = .pushMessage message r ∧
        (chat.point = .startingMessage ∨ ∃ n, chat.point = .startCommand n) ∧
        chat' = chat.pushMessage message r) ∨
      ∃ r, l = .set r ∧ chat.point ≠ .initial ∧ chat' = chat.set r) := by
  unfold stepToLoop at hs
  by_cases hloop : inLoop chat.point = true
  · rw [if_pos hloop] at hs
    cases hs
  rw [if_neg hloop] at hs
  refine ⟨Bool.eq_false_iff.mpr hloop, ?_⟩
  unfold Coroutines.step at hs
  by_cases hcrash : chat.crash.isSome = true
  · rw [if_pos hcrash] at hs
    cases hs
  rw [if_neg hcrash] at hs
  cases l with
  | start greeting =>
    simp only at hs
    split_ifs at hs with hpoint
    cases hs
    exact Or.inl ⟨greeting, rfl, hpoint, rfl⟩
  | pushMessage message r =>
    simp only at hs
    split_ifs at hs with hpoint
    cases hs
    refine Or.inr (Or.inl ⟨message, r, rfl, ?_, rfl⟩)
    cases hplace : chat.point with
    | startingMessage => exact Or.inl rfl
    | startCommand n => exact Or.inr ⟨n, rfl⟩
    | initial => exact absurd (Or.inl hplace) hpoint
    | final => exact absurd (Or.inr hplace) hpoint
    | turnSignal | actionMessage => rw [hplace] at hloop; exact absurd rfl hloop
  | set r =>
    simp only at hs
    split_ifs at hs with hpoint
    cases hs
    exact Or.inr (Or.inr ⟨r, rfl, fun h => hpoint (Or.inl h), rfl⟩)

theorem follows_leads (hI : Inv s) (hc : Awake s c) (hleads : Leads c c')
    (hstands : Stands chat'.point c') (hready : inLoop chat'.point = false → Ready chat') :
    ∃ run s', reach step s run = some s' ∧ messages run = [] ∧ Follows chat' s' := by
  obtain ⟨run, s', hr, hmessages, hc'⟩ := awake_leads hI hc hleads
  have hI' : Inv s' := inv_reach (fun _ _ _ hI hs => inv_step hI hs) hI hr
  refine ⟨run, s', hr, hmessages, hI', hready, fun hinitial => ?_, fun _ => ⟨c', hc', hstands⟩⟩
  rw [hinitial] at hstands
  exact hstands.elim

/-- A message to a coroutine that waits for it. -/
theorem follows_wake {next : String → Entry.Point} {callers : List (Caller (entry p garbage))}
    {log : List (Event (entry p garbage))} {message : String} (hI : Inv s)
    (hc : Awake s ⟨.waiting next, 0, callers, [], log⟩) (hlog : Before p garbage log)
    (hends : Ends p garbage (next message) callers chat'.point)
    (hready : inLoop chat'.point = false → Ready chat') :
    ∃ run s', reach step s run = some s' ∧ messages run = [message] ∧ Follows chat' s' := by
  obtain ⟨s1, hs1, hc1⟩ := awake_wait hI hc rfl message
  have hlog1 : Before p garbage (log ++ [.took message]) := by simpa [Before] using hlog
  obtain ⟨c, hleads, hstands⟩ := hends _ hlog1
  obtain ⟨run, s', hr, hmessages, hfollows⟩ :=
    follows_leads (inv_step hI hs1) hc1 hleads hstands hready
  refine ⟨.pushMessage message :: run, s', ?_, congrArg (message :: ·) hmessages, hfollows⟩
  rw [reach, hs1]
  exact hr

/-- **A call on a chat is a stretch of `clientEntry`.** -/
theorem follows_step (hframed : Framed p l) (h : Follows chat s)
    (hs : stepToLoop chat l = some chat') : ∃ run s', reach step s run = some s' ∧
      messages run = (pushes l).toList ∧ Follows chat' s' := by
  obtain ⟨hloop, ⟨greeting, rfl, hpoint, rfl⟩ | ⟨message, r, rfl, hpoint, rfl⟩ |
    ⟨r, rfl, hpoint, rfl⟩⟩ := stepToLoop_cases hs
  · -- the first run of `clientEntry`
    obtain rfl := h.unstarted hpoint
    have hroot : (start p .joinRandomSession garbage).frames root =
        some ⟨none, (0 : ℤ), .initial Entry.Point.connect⟩ :=
      Function.update_self root _ (fun _ => none)
    have hs1 := step_start h.inv.fault hroot rfl
    have hc1 := awake_start (plainly_init (M := entry p garbage) .connect (0 : ℤ)) hroot rfl
    obtain ⟨c, hleads, hstands⟩ := ends_connect hframed chat [] List.not_mem_nil
    obtain ⟨run, s', hr, hmessages, hfollows⟩ := follows_leads (inv_step h.inv hs1) hc1 hleads
      hstands fun _ => ready_start (h.ready hloop) greeting
    refine ⟨.start :: run, s', ?_, hmessages, hfollows⟩
    rw [reach, hs1]
    exact hr
  · have hstarted : chat.point ≠ .initial := by
      rcases hpoint with hpoint | ⟨n, hpoint⟩ <;> rw [hpoint] <;> exact Coroutines.Point.noConfusion
    rcases hpoint with hpoint | ⟨n, hpoint⟩
    · obtain ⟨chat1, hevent, hpush⟩ :=
        pushMessage_startingMessage (h.ready hloop) hpoint message r
      obtain ⟨c, hc, hstands⟩ := h.awake hstarted
      rw [hpoint] at hstands
      obtain ⟨log, hlog, rfl⟩ := hstands
      rw [hpush]
      exact follows_wake h.inv hc hlog (ends_welcome hframed.1 hframed.2.1 chat1)
        (ready_connect (hevent ▸ (h.ready hloop).unsignalled) r)
    · obtain ⟨chat1, hevent, hpush⟩ := pushMessage_startCommand (h.ready hloop) hpoint message r
      obtain ⟨c, hc, hstands⟩ := h.awake hstarted
      rw [hpoint] at hstands
      obtain ⟨log, hlog, rfl⟩ := hstands
      rw [hpush]
      exact follows_wake h.inv hc hlog (ends_startTest hframed.2.2 message chat1)
        (ready_leaderTask (hevent ▸ (h.ready hloop).unsignalled) message r.startGameAcks)
  · -- nothing waits for the signal
    obtain ⟨hready, hsame⟩ := ready_set (h.ready hloop) hloop r
    refine ⟨[], s, rfl, rfl, h.inv, fun _ => hready, fun hinitial => ?_, fun _ => ?_⟩
    · exact absurd (hsame.symm.trans hinitial) hpoint
    · rw [hsame]
      exact h.awake hpoint

theorem follows_init : Follows Coroutines.init (start p .joinRandomSession garbage) :=
  ⟨inv_init (M := entry p garbage) .connect (0 : ℤ), fun _ => ⟨⟨rfl, rfl⟩, rfl, rfl⟩, fun _ => rfl,
    fun h => absurd rfl h⟩

/-- **The chat is `clientEntry`**, up to the loop of the game: for every run of calls on it there is
a run of the coroutines, with the same messages, in which they come to stand where the chat is
suspended. -/
theorem follows_entry {ls : List Coroutines.Label} (hframed : ∀ l ∈ ls, Framed p l)
    (hr : reach stepToLoop Coroutines.init ls = some chat) : ∃ run s,
      reach step (start p .joinRandomSession garbage) run = some s ∧
        messages run = ls.filterMap pushes ∧ Follows chat s := by
  induction ls using List.reverseRecOn generalizing chat with
  | nil =>
    cases hr
    exact ⟨[], _, rfl, rfl, follows_init⟩
  | append_singleton ls l ih =>
    rw [reach_concat] at hr
    obtain ⟨chat1, hr1, hs⟩ := Option.bind_eq_some_iff.mp hr
    obtain ⟨hframed1, hl⟩ := List.forall_mem_append.mp hframed
    obtain ⟨run1, s1, hreach1, hmessages1, h1⟩ := ih hframed1 hr1
    obtain ⟨run, s, hreach, hmessages, h⟩ := follows_step (hl l List.mem_cons_self) h1 hs
    refine ⟨run1 ++ run, s, ?_, ?_, h⟩
    · rw [reach_append, hreach1]
      exact hreach
    · have hsplit : messages (run1 ++ run) = messages run1 ++ messages run := List.filterMap_append
      rw [hsplit, hmessages1, hmessages, List.filterMap_append]
      cases l <;> rfl

end Runs

end Model

end HanabiBot.TgClient.Paths
