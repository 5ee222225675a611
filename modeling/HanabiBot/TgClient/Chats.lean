import HanabiBot.Lib.Keyed
import Mathlib.Data.List.AList

/-! # The sessions of the chats

`ChatSessions` and the handler of `onAnyMessage` in `telegram_client.cpp`. Two maps hold, by chat,
the coroutine of a chat and its message queue. What the coroutines do is left open: a `Coroutine` is
any machine that is resumed with its own queue and with what the outside answers meanwhile.

The handler keeps the two maps in step and does to the sessions what a table of machines does
(`onAnyMessage_run`), so the chats do not affect each other. But its own call of `sendMessage`, which
says goodbye to a chat that quits, may throw. The exception leaves `TgLongPoll::start` and the loop of
`main`, and no message is handled any more, of whatever chat: the chats are isolated exactly if
every such call returns (`chats_isolated_iff`). -/

namespace HanabiBot.TgClient.Chats

open HanabiBot.Lib.Calls HanabiBot.Lib.Keyed

abbrev ChatId := ℤ

/-- What the handler reads of a Telegram message. -/
structure TgMsg where
  chatId : ChatId
  text : String
deriving DecidableEq, Repr

structure MessageQueue (Handle : Type) where
  queue : List TgMsg
  mAwaiter : Option Handle

/-- A coroutine of a chat, with the tasks it awaits: what its frames hold, the handles of its frames
and what the outside does while it runs. `clientEntry` creates it, suspended. -/
structure Coroutine where
  Frame : Type
  Handle : Type
  Outside : Type
  clientEntry : ChatId → Frame × Handle
  done : Frame → Handle → Bool
  resume : Frame → Handle → MessageQueue Handle → Outside → Frame × MessageQueue Handle

/-- A message, and what the outside does meanwhile: while the handler resumes the coroutine of its
chat, once when it starts it and once when it pushes the message; and whether the call of
`sendMessage` that says goodbye returns. -/
structure Incoming (M : Coroutine) where
  message : TgMsg
  atStart : M.Outside
  atPush : M.Outside
  goodbye : Bool

def Incoming.chatId {M : Coroutine} (m : Incoming M) : ChatId := m.message.chatId

/-- The handler does not throw where it says goodbye. -/
def Incoming.Returns {M : Coroutine} (m : Incoming M) : Prop :=
  m.message.text = "/quit" → m.goodbye = true

instance {M : Coroutine} : DecidablePred (@Incoming.Returns M) :=
  fun _ => inferInstanceAs (Decidable (_ → _))

section Model
variable (M : Coroutine)

/-- `Task<void>`, with the frame its handle refers to. -/
structure Task where
  handle : Option M.Handle
  frame : M.Frame

/-- The two maps. -/
structure ChatSessions where
  chatCoroutines : AList fun _ : ChatId => Task M
  chatMessageQueues : AList fun _ : ChatId => MessageQueue M.Handle

inductive Fault where
  /-- `at` throws -/
  | outOfRange
  /-- `resume` of a null handle -/
  | nullHandle
  /-- a frame or a queue is used that is gone -/
  | dangling
  /-- `sendMessage` throws -/
  | telegram

abbrev SessionsM := EStateM Fault (ChatSessions M)

/-- No chat has a session. -/
def noSessions : ChatSessions M := ⟨∅, ∅⟩

variable {M}

/-- The coroutine of a chat. -/
def coroutine (fault : Fault) (chatId : ChatId) : SessionsM M (Task M) := fun s =>
  match s.chatCoroutines.lookup chatId with
  | some task => .ok task s
  | none => .error fault s

/-- The queue of a chat. -/
def messageQueue (fault : Fault) (chatId : ChatId) : SessionsM M (MessageQueue M.Handle) := fun s =>
  match s.chatMessageQueues.lookup chatId with
  | some queue => .ok queue s
  | none => .error fault s

/-- `chatCoroutines.insert_or_assign`. -/
def assignCoroutine (chatId : ChatId) (task : Task M) : SessionsM M PUnit := fun s =>
  .ok ⟨⟩ { s with chatCoroutines := s.chatCoroutines.insert chatId task }

/-- `chatMessageQueues.insert_or_assign`. -/
def assignQueue (chatId : ChatId) (queue : MessageQueue M.Handle) : SessionsM M PUnit := fun s =>
  .ok ⟨⟩ { s with chatMessageQueues := s.chatMessageQueues.insert chatId queue }

/-- Resumes a frame of the coroutine of a chat. -/
def resume (chatId : ChatId) (handle : M.Handle) (outside : M.Outside) : SessionsM M PUnit := do
  let task ← coroutine .dangling chatId
  let queue ← messageQueue .dangling chatId
  let (frame, queue) := M.resume task.frame handle queue outside
  assignCoroutine chatId { task with frame := frame }
  assignQueue chatId queue

/-- `MessageQueue::pushMessage` on the queue of a chat. -/
def pushMessage (chatId : ChatId) (message : TgMsg) (outside : M.Outside) : SessionsM M PUnit := do
  let queue ← messageQueue .dangling chatId
  assignQueue chatId { queue with queue := queue.queue ++ [message] }
  match queue.mAwaiter with
  | none => return ⟨⟩
  | some handle =>
    let task ← coroutine .dangling chatId
    if M.done task.frame handle then return ⟨⟩ else resume chatId handle outside

/-- `hasSession`. -/
def hasSession (chatId : ChatId) : SessionsM M Bool := do
  let s ← get
  if chatId ∉ s.chatCoroutines then return false
  else
    let task ← coroutine .outOfRange chatId
    match task.handle with
    | none => return false
    | some handle => if M.done task.frame handle then return false else return true

/-- `createNewSession`. -/
def createNewSession (chatId : ChatId) (outside : M.Outside) : SessionsM M PUnit := do
  assignQueue chatId ⟨[], none⟩
  let _ ← messageQueue .outOfRange chatId
  let (frame, handle) := M.clientEntry chatId
  assignCoroutine chatId ⟨some handle, frame⟩
  let task ← coroutine .outOfRange chatId
  match task.handle with
  | none => throw .nullHandle
  | some handle => resume chatId handle outside

/-- `passMessage`. -/
def passMessage (chatId : ChatId) (message : TgMsg) (outside : M.Outside) : SessionsM M PUnit := do
  let _ ← messageQueue .outOfRange chatId
  pushMessage chatId message outside

/-- `deleteSession`. -/
def deleteSession (chatId : ChatId) : SessionsM M PUnit := do
  modify fun s => { s with chatCoroutines := s.chatCoroutines.erase chatId }
  modify fun s => { s with chatMessageQueues := s.chatMessageQueues.erase chatId }

/-- The first statement of the handler of `onAnyMessage`. -/
def ensureSession (chatId : ChatId) (outside : M.Outside) : SessionsM M PUnit := do
  let live ← hasSession chatId
  if live then return ⟨⟩ else createNewSession chatId outside

/-- `sendMessage` of `"Goodbye!"`. -/
def sayGoodbye (returns : Bool) : SessionsM M PUnit :=
  if returns then return ⟨⟩ else throw .telegram

/-- The handler of `onAnyMessage`. -/
def onAnyMessage (m : Incoming M) : SessionsM M PUnit := do
  ensureSession m.chatId m.atStart
  if m.message.text = "/quit" then
    sayGoodbye m.goodbye
    deleteSession m.chatId
  else passMessage m.chatId m.message m.atPush

end Model

/-! ### One chat -/

section Session
variable (M : Coroutine)

/-- The session of one chat: its coroutine and its queue. -/
abbrev Session := Option (Task M × MessageQueue M.Handle)

variable {M}

/-- The session after its coroutine was resumed. -/
def resumed (task : Task M) (queue : MessageQueue M.Handle) (handle : M.Handle)
    (outside : M.Outside) : Task M × MessageQueue M.Handle :=
  let after := M.resume task.frame handle queue outside
  ({ task with frame := after.1 }, after.2)

/-- The session after a message was pushed. -/
def pushedTo (task : Task M) (queue : MessageQueue M.Handle) (message : TgMsg)
    (outside : M.Outside) : Task M × MessageQueue M.Handle :=
  let queue' := { queue with queue := queue.queue ++ [message] }
  match queue.mAwaiter with
  | none => (task, queue')
  | some handle =>
    if M.done task.frame handle then (task, queue') else resumed task queue' handle outside

/-- A session that has just been created and started. -/
def fresh (chatId : ChatId) (outside : M.Outside) : Task M × MessageQueue M.Handle :=
  let (frame, handle) := M.clientEntry chatId
  resumed ⟨some handle, frame⟩ ⟨[], none⟩ handle outside

/-- The coroutine is not done. -/
def alive (task : Task M) : Bool :=
  match task.handle with
  | none => false
  | some handle => !M.done task.frame handle

/-- The session a message is delivered to: the one there is, if it is alive, or a new one. -/
def serving (chatId : ChatId) (session : Session M) (outside : M.Outside) :
    Task M × MessageQueue M.Handle :=
  match session with
  | some (task, queue) => if alive task then (task, queue) else fresh chatId outside
  | none => fresh chatId outside

/-- What a message does to the session of its chat. -/
def move (chatId : ChatId) (session : Session M) (m : Incoming M) : Session M :=
  let (task, queue) := serving chatId session m.atStart
  if m.message.text = "/quit" then none else some (pushedTo task queue m.message m.atPush)

/-- The sessions of all chats. -/
def sessions (s : ChatSessions M) (chatId : ChatId) : Session M :=
  match s.chatCoroutines.lookup chatId, s.chatMessageQueues.lookup chatId with
  | some task, some queue => some (task, queue)
  | _, _ => none

/-- The maps have the same keys. -/
def InStep (s : ChatSessions M) : Prop :=
  ∀ chatId, chatId ∈ s.chatCoroutines ↔ chatId ∈ s.chatMessageQueues

end Session

/-! ### What the calls do -/

section Calls
variable {M : Coroutine} {chatId : ChatId} {s s' t : ChatSessions M} {session session' : Session M}
  {task : Task M} {queue : MessageQueue M.Handle}

/-- The session of a chat. -/
structure Has (s : ChatSessions M) (chatId : ChatId) (session : Session M) : Prop where
  coroutine : s.chatCoroutines.lookup chatId = session.map Prod.fst
  queue : s.chatMessageQueues.lookup chatId = session.map Prod.snd

/-- A call that leaves a chat with `session`, and the other chats as they were. -/
structure Leaves (chatId : ChatId) (session : Session M) (s s' : ChatSessions M) : Prop where
  own : Has s' chatId session
  coroutines : ∀ c, c ≠ chatId → s'.chatCoroutines.lookup c = s.chatCoroutines.lookup c
  queues : ∀ c, c ≠ chatId → s'.chatMessageQueues.lookup c = s.chatMessageQueues.lookup c

theorem Leaves.trans (h : Leaves chatId session s s') (h' : Leaves chatId session' s' t) :
    Leaves chatId session' s t where
  own := h'.own
  coroutines c hc := (h'.coroutines c hc).trans (h.coroutines c hc)
  queues c hc := (h'.queues c hc).trans (h.queues c hc)

theorem run_coroutine (fault : Fault) (h : s.chatCoroutines.lookup chatId = some task) :
    (coroutine fault chatId).run s = .ok task s := by
  show (match s.chatCoroutines.lookup chatId with | some task => _ | none => _) = _
  rw [h]

theorem run_messageQueue (fault : Fault) (h : s.chatMessageQueues.lookup chatId = some queue) :
    (messageQueue fault chatId).run s = .ok queue s := by
  show (match s.chatMessageQueues.lookup chatId with | some queue => _ | none => _) = _
  rw [h]

theorem run_assignCoroutine (task : Task M) : (assignCoroutine chatId task).run s =
    .ok ⟨⟩ { s with chatCoroutines := s.chatCoroutines.insert chatId task } := rfl

theorem run_assignQueue (queue : MessageQueue M.Handle) : (assignQueue chatId queue).run s =
    .ok ⟨⟩ { s with chatMessageQueues := s.chatMessageQueues.insert chatId queue } := rfl

theorem leaves_assigned (s : ChatSessions M) (chatId : ChatId) (task : Task M)
    (queue : MessageQueue M.Handle) : Leaves chatId (some (task, queue)) s { s with
      chatCoroutines := s.chatCoroutines.insert chatId task
      chatMessageQueues := s.chatMessageQueues.insert chatId queue } where
  own := ⟨AList.lookup_insert _, AList.lookup_insert _⟩
  coroutines _ hc := AList.lookup_insert_ne hc
  queues _ hc := AList.lookup_insert_ne hc

theorem resume_run (handle : M.Handle) (outside : M.Outside)
    (h : Has s chatId (some (task, queue))) : ∃ s', (resume chatId handle outside).run s = .ok ⟨⟩ s' ∧
      Leaves chatId (some (resumed task queue handle outside)) s s' := by
  unfold resume
  rw [bind_ok (run_coroutine _ h.coroutine), bind_ok (run_messageQueue _ h.queue)]
  simp only
  rw [bind_ok (run_assignCoroutine _), run_assignQueue]
  exact ⟨_, rfl, leaves_assigned s chatId _ _⟩

theorem pushMessage_run (message : TgMsg) (outside : M.Outside)
    (h : Has s chatId (some (task, queue))) :
    ∃ s', (pushMessage chatId message outside).run s = .ok ⟨⟩ s' ∧
      Leaves chatId (some (pushedTo task queue message outside)) s s' := by
  obtain ⟨messages, awaiter⟩ := queue
  unfold pushMessage pushedTo
  rw [bind_ok (run_messageQueue _ h.queue), bind_ok (run_assignQueue _)]
  simp only
  -- the state in which the awaiting frame is resumed
  have hpushed : Leaves chatId (some (task, ⟨messages ++ [message], awaiter⟩)) s { s with
      chatMessageQueues := s.chatMessageQueues.insert chatId ⟨messages ++ [message], awaiter⟩ } :=
    ⟨⟨h.coroutine, AList.lookup_insert _⟩, fun _ _ => rfl, fun _ hc => AList.lookup_insert_ne hc⟩
  cases awaiter with
  | none => exact ⟨_, rfl, hpushed⟩
  | some handle =>
    simp only
    rw [bind_ok (run_coroutine _ hpushed.own.coroutine)]
    split_ifs
    · exact ⟨_, rfl, hpushed⟩
    · obtain ⟨s2, hr, hleaves⟩ := resume_run handle outside hpushed.own
      exact ⟨s2, hr, hpushed.trans hleaves⟩

theorem passMessage_run (message : TgMsg) (outside : M.Outside)
    (h : Has s chatId (some (task, queue))) :
    ∃ s', (passMessage chatId message outside).run s = .ok ⟨⟩ s' ∧
      Leaves chatId (some (pushedTo task queue message outside)) s s' := by
  unfold passMessage
  rw [bind_ok (run_messageQueue _ h.queue)]
  exact pushMessage_run message outside h

theorem createNewSession_run (s : ChatSessions M) (chatId : ChatId) (outside : M.Outside) :
    ∃ s', (createNewSession chatId outside).run s = .ok ⟨⟩ s' ∧
      Leaves chatId (some (fresh chatId outside)) s s' := by
  unfold createNewSession fresh
  have hqueue : (s.chatMessageQueues.insert chatId ⟨[], none⟩).lookup chatId = some ⟨[], none⟩ :=
    AList.lookup_insert _
  rw [bind_ok (run_assignQueue _), bind_ok (run_messageQueue _ hqueue)]
  simp only
  rw [bind_ok (run_assignCoroutine _), bind_ok (run_coroutine _ (AList.lookup_insert _))]
  have hcreated := leaves_assigned s chatId ⟨some (M.clientEntry chatId).2, (M.clientEntry chatId).1⟩
    ⟨[], none⟩
  obtain ⟨s', hr, hleaves⟩ := resume_run (M.clientEntry chatId).2 outside hcreated.own
  exact ⟨s', hr, hcreated.trans hleaves⟩

theorem deleteSession_run (s : ChatSessions M) (chatId : ChatId) :
    ∃ s', (deleteSession chatId).run s = .ok ⟨⟩ s' ∧ Leaves chatId none s s' :=
  ⟨_, rfl, ⟨AList.lookup_erase _ _, AList.lookup_erase _ _⟩, fun _ hc => AList.lookup_erase_ne hc,
    fun _ hc => AList.lookup_erase_ne hc⟩

theorem hasSession_run (h : Has s chatId session) :
    (hasSession chatId).run s = .ok (session.any fun pair => alive pair.1) s := by
  unfold hasSession
  rw [bind_ok (show (get : SessionsM M (ChatSessions M)).run s = .ok s s from rfl)]
  rcases session with _ | ⟨task, queue⟩
  · rw [if_pos (AList.lookup_eq_none.mp h.coroutine)]
    rfl
  · have hmem : ¬ chatId ∉ s.chatCoroutines := by
      rw [not_not, ← AList.lookup_isSome, h.coroutine]
      rfl
    rw [if_neg hmem, bind_ok (run_coroutine _ h.coroutine), Option.any_some, alive]
    cases task.handle with
    | none => rfl
    | some handle =>
      simp only
      split_ifs with hdone
      · rw [hdone]
        rfl
      · rw [eq_false_of_ne_true hdone]
        rfl

/-- After the first statement the chat has the session the message is delivered to. -/
theorem ensureSession_run (outside : M.Outside) (h : Has s chatId session) :
    ∃ s', (ensureSession chatId outside).run s = .ok ⟨⟩ s' ∧
      Leaves chatId (some (serving chatId session outside)) s s' := by
  unfold ensureSession serving
  rw [bind_ok (hasSession_run h)]
  rcases session with _ | ⟨task, queue⟩
  · exact createNewSession_run s _ _
  · simp only [Option.any_some]
    split_ifs
    · exact ⟨s, rfl, h, fun _ _ => rfl, fun _ _ => rfl⟩
    · exact createNewSession_run s _ _

/-- **What the handler does**: to the session of the message's chat what `move` does, and to the
others nothing. -/
theorem onAnyMessage_leaves {m : Incoming M} (h : Has s m.chatId session) (hm : m.Returns) :
    ∃ s', (onAnyMessage m).run s = .ok ⟨⟩ s' ∧ Leaves m.chatId (move m.chatId session m) s s' := by
  obtain ⟨s1, hr1, hserving⟩ := ensureSession_run m.atStart h
  unfold onAnyMessage move
  rw [bind_ok hr1]
  simp only
  split_ifs with hquit
  · obtain ⟨s2, hr2, hdeleted⟩ := deleteSession_run s1 m.chatId
    have hgoodbye : (sayGoodbye m.goodbye : SessionsM M PUnit).run s1 = .ok ⟨⟩ s1 := by
      rw [hm hquit]
      rfl
    rw [bind_ok hgoodbye]
    exact ⟨s2, hr2, hserving.trans hdeleted⟩
  · obtain ⟨s2, hr2, hpassed⟩ := passMessage_run m.message m.atPush hserving.own
    exact ⟨s2, hr2, hserving.trans hpassed⟩

/-- A handler that cannot say goodbye throws, and the session stays. -/
theorem onAnyMessage_throws {m : Incoming M} (h : Has s m.chatId session) (hm : ¬ m.Returns) :
    ∃ s', (onAnyMessage m).run s = .error .telegram s' := by
  obtain ⟨hquit, hfails⟩ := not_forall.mp hm
  obtain ⟨s1, hr1, -⟩ := ensureSession_run m.atStart h
  have hgoodbye : (sayGoodbye m.goodbye : SessionsM M PUnit).run s1 = .error .telegram s1 := by
    rw [eq_false_of_ne_true hfails]
    rfl
  unfold onAnyMessage
  rw [bind_ok hr1, if_pos hquit, bind_error hgoodbye]
  exact ⟨s1, rfl⟩

end Calls

/-! ### All chats -/

section Run
variable {M : Coroutine} {s s' : ChatSessions M}

theorem InStep.has (h : InStep s) (chatId : ChatId) : Has s chatId (sessions s chatId) := by
  have hkeys := h chatId
  rw [← AList.lookup_isSome, ← AList.lookup_isSome] at hkeys
  unfold sessions
  cases hc : s.chatCoroutines.lookup chatId with
  | none =>
    rw [hc] at hkeys
    have hq : s.chatMessageQueues.lookup chatId = none := by
      rw [← Option.not_isSome_iff_eq_none, ← hkeys]
      simp
    exact ⟨hc, hq⟩
  | some task =>
    rw [hc] at hkeys
    obtain ⟨queue, hq⟩ := Option.isSome_iff_exists.mp (hkeys.mp rfl)
    rw [hq]
    exact ⟨hc, hq⟩

theorem Has.sessions_eq {chatId : ChatId} {session : Session M} (h : Has s chatId session) :
    sessions s chatId = session := by
  unfold sessions
  rw [h.coroutine, h.queue]
  rcases session with _ | ⟨task, queue⟩ <;> rfl

theorem Has.mem_iff {chatId : ChatId} {session : Session M} (h : Has s chatId session) :
    chatId ∈ s.chatCoroutines ↔ chatId ∈ s.chatMessageQueues := by
  rw [← AList.lookup_isSome, ← AList.lookup_isSome, h.coroutine, h.queue, Option.isSome_map,
    Option.isSome_map]

/-- **One message**, as a move of the table of sessions. -/
theorem onAnyMessage_run (s : ChatSessions M) (m : Incoming M) (h : InStep s) (hm : m.Returns) :
    ∃ s', (onAnyMessage m).run s = .ok ⟨⟩ s' ∧ InStep s' ∧
      sessions s' = step Incoming.chatId move (sessions s) m := by
  obtain ⟨s', hr, hleaves⟩ := onAnyMessage_leaves (h.has m.chatId) hm
  have hothers (c : ChatId) (hc : c ≠ m.chatId) : Has s' c (sessions s c) :=
    ⟨(hleaves.coroutines c hc).trans (h.has c).coroutine, (hleaves.queues c hc).trans (h.has c).queue⟩
  refine ⟨s', hr, fun c => ?_, funext fun c => ?_⟩
  · by_cases hc : c = m.chatId
    · rw [hc]
      exact hleaves.own.mem_iff
    · exact (hothers c hc).mem_iff
  · by_cases hc : c = m.chatId
    · rw [hc, step_own Incoming.chatId]
      exact hleaves.own.sessions_eq
    · rw [step_other Incoming.chatId move (sessions s) (Ne.symm hc)]
      exact (hothers c hc).sessions_eq

/-- Any messages, as a run of the table. -/
theorem forM_run (incoming : List (Incoming M)) (hm : ∀ m ∈ incoming, m.Returns) (h : InStep s) :
    ∃ s', (incoming.forM onAnyMessage).run s = .ok ⟨⟩ s' ∧ InStep s' ∧
      sessions s' = run Incoming.chatId move (sessions s) incoming :=
  view_run (K := ChatId) (L := Incoming M) (C := Incoming.Returns) Incoming.chatId move
    (fun s m hs hm => onAnyMessage_run s m hs hm) incoming s h hm

theorem forM_throws {incoming : List (Incoming M)} (hm : ¬ ∀ m ∈ incoming, m.Returns)
    (h : InStep s) : ∃ s', (incoming.forM onAnyMessage).run s = .error .telegram s' :=
  view_stop (K := ChatId) (L := Incoming M) (C := Incoming.Returns) Incoming.chatId move
    (fun s m hs hm => onAnyMessage_run s m hs hm)
    (fun _ m hs hm => onAnyMessage_throws (hs.has m.chatId) hm) incoming s h hm

theorem inStep_noSessions : InStep (noSessions M) := fun _ => Iff.rfl

/-- The message is pushed once, onto the queue of its own chat: the queue the chat has, or that of a
new session. Nothing changes for the other chats. -/
structure Routed (s : ChatSessions M) (m : Incoming M) (s' : ChatSessions M) : Prop where
  own : ∃ task queue, serving m.chatId (sessions s m.chatId) m.atStart = (task, queue) ∧
    sessions s' m.chatId = some (pushedTo task queue m.message m.atPush)
  coroutines : ∀ c, c ≠ m.chatId → s'.chatCoroutines.lookup c = s.chatCoroutines.lookup c
  queues : ∀ c, c ≠ m.chatId → s'.chatMessageQueues.lookup c = s.chatMessageQueues.lookup c

theorem routed_of_leaves {m : Incoming M} (hquit : m.message.text ≠ "/quit")
    (h : Leaves m.chatId (move m.chatId (sessions s m.chatId) m) s s') : Routed s m s' where
  own := by
    refine ⟨_, _, rfl, h.own.sessions_eq.trans ?_⟩
    unfold move
    simp only
    rw [if_neg hquit]
    rfl
  coroutines := h.coroutines
  queues := h.queues

/-- The state after the messages `incoming`: the maps have the same keys, every message but `/quit`
has been pushed once, onto the queue of its own chat, and every chat is where its own messages
alone would have brought it. -/
structure Isolated (incoming : List (Incoming M)) (s : ChatSessions M) : Prop where
  keys : ∀ chatId, chatId ∈ s.chatCoroutines ↔ chatId ∈ s.chatMessageQueues
  routed : ∀ before m rest, incoming = before ++ m :: rest → m.message.text ≠ "/quit" →
    ∃ s₁ s₂, (before.forM onAnyMessage).run (noSessions M) = .ok ⟨⟩ s₁ ∧
      (onAnyMessage m).run s₁ = .ok ⟨⟩ s₂ ∧ Routed s₁ m s₂
  own : ∀ chatId, ∃ s', ((incoming.filter fun m => m.chatId = chatId).forM onAnyMessage).run
      (noSessions M) = .ok ⟨⟩ s' ∧
    s'.chatCoroutines.lookup chatId = s.chatCoroutines.lookup chatId ∧
      s'.chatMessageQueues.lookup chatId = s.chatMessageQueues.lookup chatId

theorem isolated_run {incoming : List (Incoming M)} (hm : ∀ m ∈ incoming, m.Returns) :
    ∃ s, (incoming.forM onAnyMessage).run (noSessions M) = .ok ⟨⟩ s ∧ Isolated incoming s := by
  obtain ⟨s, hr, hkeys, hview⟩ := forM_run incoming hm inStep_noSessions
  refine ⟨s, hr, hkeys, ?_, fun chatId => ?_⟩
  · rintro before m rest rfl hquit
    obtain ⟨hbefore, hrest⟩ := List.forall_mem_append.mp hm
    obtain ⟨s₁, hr₁, hkeys₁, -⟩ := forM_run before hbefore inStep_noSessions
    obtain ⟨s₂, hr₂, hleaves⟩ :=
      onAnyMessage_leaves (hkeys₁.has m.chatId) (hrest m List.mem_cons_self)
    exact ⟨s₁, s₂, hr₁, hr₂, routed_of_leaves hquit hleaves⟩
  · obtain ⟨s', hr', hkeys', hview'⟩ := forM_run (own Incoming.chatId chatId incoming)
      (fun m hown => hm m (List.mem_of_mem_filter hown)) inStep_noSessions
    have hsame : sessions s' chatId = sessions s chatId := by
      rw [hview', hview]
      exact (run_own Incoming.chatId move chatId incoming _).symm
    refine ⟨s', hr', ?_, ?_⟩
    · rw [(hkeys'.has chatId).coroutine, (hkeys.has chatId).coroutine, hsame]
    · rw [(hkeys'.has chatId).queue, (hkeys.has chatId).queue, hsame]

/-- **When the chats are isolated and always routable**, whatever their coroutines do: exactly if the
handler can say goodbye to every chat that quits. No lookup fails in any case. -/
theorem chats_isolated_iff (M : Coroutine) (incoming : List (Incoming M)) :
    ((∃ s, (incoming.forM onAnyMessage).run (noSessions M) = .ok ⟨⟩ s ∧ Isolated incoming s) ↔
      ∀ m ∈ incoming, m.Returns) ∧
    ∀ fault s, (incoming.forM onAnyMessage).run (noSessions M) = .error fault s →
      fault = .telegram := by
  by_cases hm : ∀ m ∈ incoming, m.Returns
  · obtain ⟨s, hr, hisolated⟩ := isolated_run hm
    refine ⟨iff_of_true ⟨s, hr, hisolated⟩ hm, fun fault s' he => ?_⟩
    cases hr.symm.trans he
  · obtain ⟨s, hr⟩ := forM_throws hm inStep_noSessions
    refine ⟨iff_of_false ?_ hm, fun fault s' he => ?_⟩
    · rintro ⟨s', hr', -⟩
      cases hr.symm.trans hr'
    · cases hr.symm.trans he
      rfl

end Run

/-- A coroutine that waits for messages and takes none. -/
def idle : Coroutine where
  Frame := Unit
  Handle := Unit
  Outside := Unit
  clientEntry _ := ((), ())
  done _ _ := false
  resume _ _ queue _ := ((), queue)

/-- Chat `1` quits and cannot be told goodbye, and chat `2` writes. -/
def failedGoodbye : List (Incoming idle) := [⟨⟨1, "/quit"⟩, (), (), false⟩, ⟨⟨2, "hello"⟩, (), (), true⟩]

/-- The message of chat `2` is not handled any more: the chat gets no session. -/
theorem failed_goodbye_ends_all :
    ¬ Isolated failedGoodbye (after (failedGoodbye.forM onAnyMessage) (noSessions idle)) := by
  intro h
  obtain ⟨s', hr, hcoroutine, -⟩ := h.own 2
  have halone : ((after ((failedGoodbye.filter fun m => m.chatId = 2).forM onAnyMessage)
      (noSessions idle)).chatCoroutines.lookup 2).isSome = true := by decide +kernel
  have hended : ((after (failedGoodbye.forM onAnyMessage)
      (noSessions idle)).chatCoroutines.lookup 2).isSome = false := by decide +kernel
  rw [after_of_ok hr, hcoroutine, hended] at halone
  cases halone

end HanabiBot.TgClient.Chats
