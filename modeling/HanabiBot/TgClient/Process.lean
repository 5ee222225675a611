import HanabiBot.TgClient.Chats
import HanabiBot.TgClient.Direct

/-! # The process of the Telegram client

`ChatSessions` with the coroutines of `Tasks`: the maps of `telegram_client.cpp` over the frames,
handles and queues of `telegram_client_coroutine.hpp`. A resume goes on until control is outside
again; its `Outside` are the answers of the outside meanwhile.

Nobody who writes to the bot can tell the process from a table of plain programs, one for each chat,
each reading what its own chat writes (`process_plain`), as long as no goodbye fails. A chat's program
(`plainMove`) is replaced by a new one when it has finished, and is thrown away by `/quit`. -/

namespace HanabiBot.TgClient.Process

open HanabiBot.Lib.Calls HanabiBot.Lib.Keyed HanabiBot.Lib.Runs
open HanabiBot.TgClient.Tasks hiding step
open HanabiBot.TgClient.Delivery HanabiBot.TgClient.Direct
open HanabiBot.TgClient.Chats (ChatId TgMsg Incoming MessageQueue Coroutine ChatSessions Session
  noSessions onAnyMessage sessions serving fresh pushedTo resumed alive move)

/-! ### A coroutine that is resumed -/

section Drive
variable {M : Program} {s s' : State M} {c : Config M}

theorem resume_mAwaiter (s : State M) (h : Handle) : (s.resume h).mAwaiter = s.mAwaiter := by
  unfold State.resume
  split
  · rfl
  · split
    · rfl
    · split <;> rfl
    · split <;> rfl
    · rfl
    · rfl

theorem finalSuspend_mAwaiter (s : State M) (h : Handle) (f : Frame M) :
    (s.finalSuspend h f).mAwaiter = s.mAwaiter := by
  unfold State.finalSuspend
  split
  · exact resume_mAwaiter _ _
  · rfl

/-- A step stores no handle, unless the coroutine is suspended on the queue in it. -/
theorem mAwaiter_run (hI : Inv s) {outside : M.Outside}
    (hs : Tasks.step s (.run outside) = some s') : s'.mAwaiter = s.mAwaiter ∨ s'.Waits := by
  obtain ⟨-, ⟨f, point, hl, -⟩ | ⟨message, hl, -⟩ | ⟨outside', h, f, point, -, hrunning, hf, -,
    rfl⟩⟩ := step_cases hs
  · cases hl
  · cases hl
  obtain ⟨hs', g, hS⟩ := hI.running hrunning
  cases hS.innermost.symm.trans hf
  have hafter := shows_of_plainly (awake_act hS (M.next point outside')).plainly
  cases haction : M.next point outside' with
  | goOn out next => exact Or.inl rfl
  | coAwaitQueue next =>
    cases hqueue : s.queue with
    | nil =>
      rw [haction] at hafter
      refine Or.inr (hafter.waits.mpr ⟨next, ?_⟩)
      unfold Config.act configOf
      simp only [hqueue]
    | cons message queue =>
      left
      unfold State.act
      simp only [hqueue]
      rfl
  | coAwaitTask task result next => exact Or.inl (resume_mAwaiter _ _)
  | coReturn result => exact Or.inl (finalSuspend_mAwaiter _ _ _)
  | throws => exact Or.inl (finalSuspend_mAwaiter _ _ _)

theorem resume_destroyed {h : Handle} (hf : s.frames h = none) :
    s.resume h = s.fail .destroyedFrame := by
  unfold State.resume
  rw [hf]

/-- A message is pushed, and the coroutine that waits is resumed. -/
theorem pushMessage_resume {h : Handle} (hawaiter : s.mAwaiter = some h)
    (hdone : (s.frames h).any Frame.done = false) (message : M.T) :
    s.pushMessage message = (s.enqueue message).resume h := by
  cases hf : s.frames h with
  | none =>
    rw [resume_destroyed (show (s.enqueue message).frames h = none from hf), State.pushMessage,
      hawaiter]
    simp only [hf]
  | some f =>
    rw [hf, Option.any_some] at hdone
    rw [State.pushMessage, hawaiter]
    simp only [hf, hdone, Bool.false_eq_true, if_false]

/-- Nobody is resumed: the handle is of a coroutine that is done. -/
theorem pushMessage_done {h : Handle} (hawaiter : s.mAwaiter = some h)
    (hdone : (s.frames h).any Frame.done = true) (message : M.T) :
    s.pushMessage message = s.enqueue message := by
  cases hf : s.frames h with
  | none =>
    rw [hf] at hdone
    cases hdone
  | some f =>
    rw [hf, Option.any_some] at hdone
    rw [State.pushMessage, hawaiter]
    simp only [hf, hdone, if_true]

/-- A coroutine at rest does not move. -/
theorem last_rest (hrest : s.running = none) (outs : List M.Outside) :
    last Tasks.step s (outs.map .run) = s := by
  cases outs with
  | nil => rfl
  | cons outside outs =>
    rw [List.map_cons, last, step_rest hrest]

/-- **What a resumed coroutine does**: it goes on as the plain program does. -/
theorem last_awake (hI : Inv s) (hc : Awake s c) (outs : List M.Outside) :
    Awake (last Tasks.step s (outs.map .run)) (last plainStep c outs) ∧
      (∃ ls, reach Tasks.step s ls = some (last Tasks.step s (outs.map .run))) ∧
        (s.mAwaiter = none → (last Tasks.step s (outs.map .run)).Timely) := by
  induction outs generalizing s c with
  | nil => exact ⟨hc, ⟨[], rfl⟩, Or.inl⟩
  | cons outside outs ih =>
    rw [List.map_cons, last, last]
    cases hs : plainStep c outside with
    | none =>
      rw [step_rest (hc.rests (plainStep_eq_none.mp hs))]
      exact ⟨hc, ⟨[], rfl⟩, Or.inl⟩
    | some c1 =>
      obtain ⟨s1, hreach, hc1, -⟩ := reach_of_plain hI hc (reach_one.mpr hs)
      have hs1 : Tasks.step s (.run outside) = some s1 := reach_one.mp hreach
      rw [hs1]
      simp only
      obtain ⟨hlast, ⟨ls, hls⟩, htimely⟩ := ih (inv_step hI hs1) hc1
      refine ⟨hlast, ⟨.run outside :: ls, ?_⟩, fun hnone => ?_⟩
      · rw [reach, hs1]
        exact hls
      · rcases mAwaiter_run hI hs1 with hsame | hwaits
        · exact htimely (hsame.trans hnone)
        · rw [last_rest hwaits.1]
          exact Or.inr hwaits

end Drive

/-! ### The process -/

section Process
variable {Point Result Out Outside : Type}
  (next : Point → Outside → Action Point String Result Out) (entry : Point) (result : Result)

/-- Coroutines on a queue of texts. -/
abbrev texts : Program := ⟨Point, String, Result, Out, Outside, next⟩

/-- The frames of a chat, with the queue and the `m_awaiter` that the map has. -/
def load (s : State (texts next)) (queue : MessageQueue Handle) : State (texts next) :=
  { s with
    queue := queue.queue.map TgMsg.text
    mAwaiter := queue.mAwaiter
    pushed := s.delivered ++ queue.queue.map TgMsg.text }

/-- The coroutine of a chat. The messages in its queue are messages of the chat. -/
abbrev coroutine : Coroutine where
  Frame := ChatId × State (texts next)
  Handle := Handle
  Outside := List Outside
  clientEntry chatId := ((chatId, init (M := texts next) entry result), root)
  done frame handle := (frame.2.frames handle).any Frame.done
  resume frame handle queue outside :=
    let s := last Tasks.step ((load next frame.2 queue).resume handle) (outside.map .run)
    ((frame.1, s), ⟨s.queue.map (TgMsg.mk frame.1), s.mAwaiter⟩)

/-- The coroutine and the queue of a chat. -/
abbrev Pair := Chats.Task (coroutine next entry result) × MessageQueue Handle

/-! ### Plain chats -/

abbrev Plain := Config (texts next)

variable {next} in
/-- It goes on for as long as it can. -/
def settle (outside : List Outside) (c : Plain next) : Plain next := last plainStep c outside

variable {next} in
def finished (c : Plain next) : Bool :=
  match c.mode with
  | .finished => true
  | _ => false

/-- A chat's program, started. -/
def plainFresh (outside : List Outside) : Plain next :=
  settle outside (plain (M := texts next) entry result [])

/-- The program a message is for: the one there is, or a new one. -/
def plainServing (chat : Option (Plain next)) (outside : List Outside) : Plain next :=
  match chat with
  | some c => if finished c then plainFresh next entry result outside else c
  | none => plainFresh next entry result outside

/-- What a message does to the program of its chat. -/
def plainMove (chat : Option (Plain next)) (m : Incoming (coroutine next entry result)) :
    Option (Plain next) :=
  let c := plainServing next entry result chat m.atStart
  if m.message.text = "/quit" then none else some (settle m.atPush (c.feed m.message.text))

variable {next} in
/-- It waits for a message, or has finished. -/
def Rests (c : Plain next) : Prop := ∀ point, c.mode ≠ .running point

/-- Every call of the handler comes back: what the outside answers is enough for the program of the
chat to come to rest. -/
def Settled : Option (Plain next) → List (Incoming (coroutine next entry result)) → Prop
  | _, [] => True
  | chat, m :: ms => Rests (plainServing next entry result chat m.atStart) ∧
      (∀ c ∈ plainMove next entry result chat m, Rests c) ∧
        Settled (plainMove next entry result chat m) ms

variable {next} in
instance (c : Plain next) : Decidable (Rests c) :=
  decidable_of_iff ((match c.mode with | .running _ => false | _ => true) = true) (by
    unfold Rests
    cases c.mode with
    | running point => exact iff_of_false Bool.false_ne_true fun h => h point rfl
    | waiting next => exact iff_of_true rfl fun point h => by cases h
    | finished => exact iff_of_true rfl fun point h => by cases h)

instance decidableSettled : ∀ (chat : Option (Plain next))
    (ms : List (Incoming (coroutine next entry result))),
    Decidable (Settled next entry result chat ms)
  | _, [] => isTrue trivial
  | chat, m :: ms =>
    have : Decidable (Settled next entry result (plainMove next entry result chat m) ms) :=
      decidableSettled _ ms
    inferInstanceAs (Decidable (_ ∧ _ ∧ _))

/-! ### One chat -/

variable {next entry result}

/-- The state that the session of a chat is in. -/
def stateOf (pair : Pair next entry result) : State (texts next) :=
  load next pair.1.frame.2 pair.2

/-- The session of chat `k` is the plain program `c`, at rest. -/
structure Represents (k : ChatId) (pair : Pair next entry result) (c : Plain next) : Prop where
  handle : pair.1.handle = some root
  chat : pair.1.frame.1 = k
  messages : pair.2.queue = c.input.map (TgMsg.mk k)
  reached : ∃ ls, reach Tasks.step (init entry result) ls = some (stateOf pair)
  awake : Awake (stateOf pair) c
  rests : Rests c

section Session
variable {k : ChatId} {c : Plain next} {pair : Pair next entry result}

theorem map_text (k : ChatId) (input : List String) :
    (input.map (TgMsg.mk k)).map TgMsg.text = input := by
  rw [List.map_map]
  exact List.map_id input

theorem Represents.inv (h : Represents k pair c) : Inv (stateOf pair) := by
  obtain ⟨ls, hr⟩ := h.reached
  exact inv_reach (fun _ _ _ hI hs => inv_step hI hs) (inv_init entry result) hr

theorem alive_eq (h : Represents k pair c) : alive pair.1 = !finished c := by
  have hfinished := (shows_of_plainly h.awake.plainly).finished
  have hdone : alive pair.1 = !(pair.1.frame.2.frames root).any Frame.done := by
    unfold alive
    rw [h.handle]
  have hframes : (stateOf pair).frames = pair.1.frame.2.frames := rfl
  rw [hframes] at hfinished
  rw [hdone]
  unfold finished
  cases hmode : c.mode with
  | finished => rw [hfinished.mpr hmode]
  | running point | waiting next =>
    rw [hmode] at hfinished
    have hnot : ¬ (pair.1.frame.2.frames root).any Frame.done = true := fun hd => by
      cases hfinished.mp hd
    rw [eq_false_of_ne_true hnot]

/-- What a resume leaves is what the frames are in, with the queue as the map has it. -/
theorem load_same {s : State (texts next)} (hI : Inv s) (k : ChatId) :
    load next s ⟨s.queue.map (TgMsg.mk k), s.mAwaiter⟩ = s := by
  unfold load
  simp only [map_text, hI.messages]

/-- A session whose frames and queue are those of `s`. -/
theorem represents_of {s : State (texts next)} (hstate : stateOf pair = s)
    (hhandle : pair.1.handle = some root) (hchat : pair.1.frame.1 = k)
    (hqueue : pair.2.queue = s.queue.map (TgMsg.mk k))
    (hreach : ∃ ls, reach Tasks.step (init entry result) ls = some s) (hc : Awake s c)
    (hrests : Rests c) : Represents k pair c where
  handle := hhandle
  chat := hchat
  messages := hqueue.trans (congrArg _ (shows_of_plainly hc.plainly).input.symm)
  reached := hstate.symm ▸ hreach
  awake := hstate.symm ▸ hc
  rests := hrests

/-- **A new session.** -/
theorem fresh_represents (k : ChatId) {outs : List Outside}
    (hrests : Rests (plainFresh next entry result outs)) :
    Represents k (fresh k outs : Pair next entry result) (plainFresh next entry result outs) ∧
      (stateOf (fresh k outs : Pair next entry result)).Timely := by
  have hI := inv_init (M := texts next) entry result
  have hroot : (init (M := texts next) entry result).frames root =
      some ⟨none, result, .initial entry⟩ :=
    Function.update_self root _ (fun _ => none)
  have hstart : Tasks.step (init (M := texts next) entry result) .start =
      some ((init (M := texts next) entry result).resume root) := by
    rw [resume_initial hroot rfl]
    exact step_start hI.fault hroot rfl
  have hI1 := inv_step hI hstart
  have hc1 : Awake ((init (M := texts next) entry result).resume root) (plain entry result []) := by
    rw [resume_initial hroot rfl]
    exact awake_start (plainly_init (M := texts next) entry result) hroot rfl
  obtain ⟨hc, ⟨ls, hls⟩, htimely⟩ := last_awake hI1 hc1 outs
  have hI2 := inv_reach (fun _ _ _ hI hs => inv_step hI hs) hI1 hls
  have hstate : stateOf (fresh k outs : Pair next entry result) =
      last Tasks.step ((init entry result).resume root) (outs.map .run) := load_same hI2 k
  have hreach : reach Tasks.step (init entry result) (.start :: ls) =
      some (last Tasks.step ((init (M := texts next) entry result).resume root) (outs.map .run)) := by
    rw [reach, hstart]
    exact hls
  refine ⟨represents_of hstate rfl rfl rfl ⟨_, hreach⟩ hc hrests, ?_⟩
  rw [hstate]
  refine htimely ?_
  rw [resume_mAwaiter]
  rfl

/-- The frames of a session, with one more message in its queue. -/
theorem load_enqueue (pair : Pair next entry result) (m : TgMsg) :
    load next pair.1.frame.2 { pair.2 with queue := pair.2.queue ++ [m] } =
      (stateOf pair).enqueue m.text := by
  unfold stateOf load State.enqueue
  simp only [List.map_append, List.map_cons, List.map_nil, List.append_assoc]

/-- **The state a push leaves.** -/
theorem pushedTo_state (h : Represents k pair c) {m : TgMsg} (hm : m.chatId = k)
    (outs : List Outside) {s : State (texts next)}
    (hs : s = last Tasks.step ((stateOf pair).pushMessage m.text) (outs.map .run)) (hI : Inv s) :
    stateOf (pushedTo pair.1 pair.2 m outs) = s ∧
      (pushedTo pair.1 pair.2 m outs).1.handle = some root ∧
      (pushedTo pair.1 pair.2 m outs).1.frame.1 = k ∧
      (pushedTo pair.1 pair.2 m outs).2.queue = s.queue.map (TgMsg.mk k) := by
  have hrest := h.awake.rests h.rests
  -- nobody is resumed
  have hjoin (hpush : (stateOf pair).pushMessage m.text = (stateOf pair).enqueue m.text) :
      load next pair.1.frame.2 { pair.2 with queue := pair.2.queue ++ [m] } = s ∧
        pair.2.queue ++ [m] = s.queue.map (TgMsg.mk k) := by
    have hs' : s = (stateOf pair).enqueue m.text := by
      rw [hs, hpush, last_rest (s := (stateOf pair).enqueue m.text) hrest]
    refine ⟨(load_enqueue pair m).trans hs'.symm, ?_⟩
    have hqueue : (stateOf pair).queue = c.input := (shows_of_plainly h.awake.plainly).input.symm
    rw [hs', State.enqueue, hqueue, List.map_append, ← h.messages, ← hm]
    rfl
  obtain ⟨task, ⟨queue, awaiter⟩⟩ := pair
  unfold pushedTo
  cases awaiter with
  | none =>
    obtain ⟨hload, hqueue⟩ := hjoin (pushMessage_none rfl _)
    exact ⟨hload, h.handle, h.chat, hqueue⟩
  | some handle =>
    simp only
    by_cases hdone : (task.frame.2.frames handle).any Frame.done = true
    · obtain ⟨hload, hqueue⟩ := hjoin (pushMessage_done
        (s := stateOf (task, (⟨queue, some handle⟩ : MessageQueue Handle))) rfl hdone m.text)
      rw [if_pos hdone]
      exact ⟨hload, h.handle, h.chat, hqueue⟩
    · have hpush := pushMessage_resume (s := stateOf (task, (⟨queue, some handle⟩ : MessageQueue Handle)))
        rfl (eq_false_of_ne_true hdone) m.text
      have hafter : last Tasks.step ((load next task.frame.2 ⟨queue ++ [m], some handle⟩).resume handle)
          (outs.map .run) = s := by
        rw [hs, hpush, ← load_enqueue (task, (⟨queue, some handle⟩ : MessageQueue Handle)) m]
      rw [if_neg hdone]
      simp only [resumed, hafter]
      have hchat : task.frame.1 = k := h.chat
      refine ⟨load_same hI _, h.handle, h.chat, ?_⟩
      rw [hchat]

/-- **A message that is pushed.** -/
theorem pushedTo_represents (h : Represents k pair c) (htimely : (stateOf pair).Timely) {m : TgMsg}
    (hm : m.chatId = k) {outs : List Outside} (hrests : Rests (settle outs (c.feed m.text))) :
    Represents k (pushedTo pair.1 pair.2 m outs) (settle outs (c.feed m.text)) := by
  have hrest := h.awake.rests h.rests
  have hstep := step_pushMessage h.inv.fault hrest htimely m.text
  have hI1 := inv_step h.inv hstep
  obtain ⟨hc, ⟨ls, hls⟩, -⟩ :=
    last_awake hI1 (awake_pushMessage h.awake hrest htimely m.text) outs
  have hI2 := inv_reach (fun _ _ _ hI hs => inv_step hI hs) hI1 hls
  obtain ⟨hstate, hhandle, hchat, hqueue⟩ := pushedTo_state h hm outs rfl hI2
  obtain ⟨before, hbefore⟩ := h.reached
  refine represents_of hstate hhandle hchat hqueue ⟨before ++ .pushMessage m.text :: ls, ?_⟩ hc hrests
  rw [reach_append, hbefore, Option.bind_some, reach, hstep]
  exact hls

variable {session : Session (coroutine next entry result)} {chat : Option (Plain next)}

/-- The session a message is for. -/
theorem serving_represents (h : Option.Rel (Represents k) session chat) {outs : List Outside}
    (hrests : Rests (plainServing next entry result chat outs)) :
    Represents k (serving k session outs) (plainServing next entry result chat outs) ∧
      (stateOf (serving k session outs)).Timely := by
  cases h with
  | none => exact fresh_represents k hrests
  | @some pair c hpair =>
    unfold serving plainServing at *
    simp only [alive_eq hpair]
    cases hfinished : finished c with
    | true =>
      simp only [hfinished, if_true] at hrests
      exact fresh_represents k hrests
    | false =>
      refine ⟨hpair, Or.inr ((shows_of_plainly hpair.awake.plainly).waits.mpr ?_)⟩
      unfold finished at hfinished
      cases hmode : c.mode with
      | running point => exact absurd hmode (hpair.rests point)
      | waiting next => exact ⟨next, rfl⟩
      | finished =>
        rw [hmode] at hfinished
        cases hfinished

/-- **One message.** -/
theorem move_represents (h : Option.Rel (Represents k) session chat)
    {m : Incoming (coroutine next entry result)} (hm : m.chatId = k)
    (hserving : Rests (plainServing next entry result chat m.atStart))
    (hmove : ∀ c ∈ plainMove next entry result chat m, Rests c) :
    Option.Rel (Represents k) (move k session m) (plainMove next entry result chat m) := by
  obtain ⟨hserves, htimely⟩ := serving_represents h hserving
  unfold move plainMove at *
  by_cases hquit : m.message.text = "/quit"
  · simp only [if_pos hquit]
    exact .none
  · simp only [if_neg hquit, Option.mem_some_iff, forall_eq'] at hmove ⊢
    exact .some (pushedTo_represents hserves htimely hm hmove)

/-- All messages of a chat. -/
theorem run_represents {ms : List (Incoming (coroutine next entry result))}
    (hms : ∀ m ∈ ms, m.chatId = k) (hsettled : Settled next entry result chat ms)
    (h : Option.Rel (Represents k) session chat) : Option.Rel (Represents k)
      (ms.foldl (move k) session) (ms.foldl (plainMove next entry result) chat) := by
  induction ms generalizing session chat with
  | nil => exact h
  | cons m ms ih =>
    obtain ⟨hserving, hmove, hrest⟩ := hsettled
    obtain ⟨hm, hms⟩ := List.forall_mem_cons.mp hms
    exact ih hms hrest (move_represents h hm hserving hmove)

end Session

/-! ### All chats -/

/-- What one sees of the session of chat `k`, as of the plain program `c`. -/
structure Shown (k : ChatId) (pair : Pair next entry result) (c : Plain next) : Prop where
  log : pair.1.frame.2.log = c.log
  queue : pair.2.queue = c.input.map (TgMsg.mk k)
  fault : pair.1.frame.2.fault = none
  alive : alive pair.1 = true ↔ ∃ next, c.mode = .waiting next

theorem Represents.shown {k : ChatId} {c : Plain next} {pair : Pair next entry result}
    (h : Represents k pair c) : Shown k pair c where
  log := (shows_of_plainly h.awake.plainly).log.symm
  queue := h.messages
  fault := h.inv.fault
  alive := by
    rw [alive_eq h]
    unfold finished
    cases hmode : c.mode with
    | running point => exact absurd hmode (h.rests point)
    | waiting next => exact iff_of_true rfl ⟨next, rfl⟩
    | finished => exact iff_of_false (fun hf => by cases hf) fun hw => by cases hw.choose_spec

theorem process_represents (incoming : List (Incoming (coroutine next entry result)))
    (hreturns : ∀ m ∈ incoming, m.Returns)
    (hsettled : ∀ k, Settled next entry result none (own Incoming.chatId k incoming)) :
    ∃ s, (incoming.forM onAnyMessage).run (noSessions _) = .ok ⟨⟩ s ∧ Chats.InStep s ∧
      ∀ k, Option.Rel (Represents k) (sessions s k)
        ((own Incoming.chatId k incoming).foldl (plainMove next entry result) none) := by
  obtain ⟨s, hr, hin, hview⟩ := Chats.forM_run incoming hreturns Chats.inStep_noSessions
  refine ⟨s, hr, hin, fun k => ?_⟩
  rw [hview, run_apply]
  refine run_represents (fun m hm => ?_) (hsettled k) .none
  exact of_decide_eq_true (List.mem_filter.mp hm).2

/-- **The process is a table of plain programs**, one for each chat, whatever the chats write and in
whatever order, as long as it can say goodbye to those that quit. -/
theorem process_plain (incoming : List (Incoming (coroutine next entry result)))
    (hreturns : ∀ m ∈ incoming, m.Returns)
    (hsettled : ∀ k, Settled next entry result none (own Incoming.chatId k incoming)) :
    ∃ s, (incoming.forM onAnyMessage).run (noSessions _) = .ok ⟨⟩ s ∧ ∀ k, Option.Rel (Shown k)
      (sessions s k) ((own Incoming.chatId k incoming).foldl (plainMove next entry result) none) := by
  obtain ⟨s, hr, -, hs⟩ := process_represents incoming hreturns hsettled
  exact ⟨s, hr, fun k => rel_mono (hs k) fun _ _ _ h => h.shown⟩

end Process

/-- The process with the task that asks for a session id: chat `1` writes and then answers, chat `2`
leaves at once. -/
def twoChats : List (Incoming (coroutine (fun point (_ : Unit) => SessionId.next 0 point)
    SessionId.Point.caller 0)) :=
  [(1, "hello"), (2, "/quit"), (1, "7")].map fun message =>
    ⟨⟨message.1, message.2⟩, List.replicate 5 (), List.replicate 5 (), true⟩

theorem process_twoChats : ∃ s, (twoChats.forM onAnyMessage).run (noSessions _) = .ok ⟨⟩ s ∧
    ∀ k, Option.Rel (Shown k) (sessions s k) ((own Incoming.chatId k twoChats).foldl
      (plainMove (fun point (_ : Unit) => SessionId.next 0 point) SessionId.Point.caller 0) none) := by
  refine process_plain twoChats (by decide) fun k => ?_
  by_cases h1 : k = 1
  · subst h1
    decide +kernel
  by_cases h2 : k = 2
  · subst h2
    decide +kernel
  have hown : own Incoming.chatId k twoChats = [] := by
    simp [own, twoChats, Incoming.chatId, Ne.symm h1, Ne.symm h2]
  rw [hown]
  trivial

end HanabiBot.TgClient.Process
