import HanabiBot.Lib.Runs
import HanabiBot.TgClient.Coroutines

/-! # Wake-ups

A stored handle is never cleared: after its wait it still stands in the awaitable, while its
coroutine waits for something else or is destroyed. A message that comes while the chat waits for
its turn, or a signal that comes while it waits for its action, then resumes the wrong wait.

Each call resumes only a coroutine that waits for it (`Sound`) exactly in the runs in which no such
call comes (`sound_iff`). In these runs the tree is suspended with the handle of its own wait stored
and with no message left in the queue (`Suspended`). -/

namespace HanabiBot.TgClient.Wakeups

open HanabiBot.Lib.Runs HanabiBot.Common.Messages HanabiBot.TgClient.Coroutines

/-- The handle that a call tests and may resume, and the awaitable it is stored in. -/
def tested (c : Chat) : Label → Option (Handle × Awaitable)
  | .start _ => none
  | .pushMessage _ _ => c.msgQueue.mAwaiter.map fun handle => (handle, .msgQueue)
  | .set _ =>
    if c.clientEvent.flag then none
    else c.clientEvent.eAwaiter.map fun handle => (handle, .clientEvent)

/-- The handle a call tests is that of a coroutine suspended on the awaitable; no more signals have
been taken than were set, and none of the fronts of an empty queue. -/
def Sound (c : Chat) (l : Label) : Prop :=
  ∀ c', step c l = some c' →
    (∀ t, tested c l = some t → c.point.awaits = some t) ∧
      c'.signals ≤ c'.sets ∧ c'.crash ≠ some .emptyQueue

/-- No message comes while the chat waits for its turn, and no signal while it waits for its action,
unless it has never been suspended on the event, or the signal before is not taken yet. -/
def InTurn (c : Chat) (l : Label) : Prop :=
  c.crash = none →
    match l with
    | .start _ => True
    | .pushMessage _ _ => c.point ≠ .turnSignal
    | .set _ => c.point = .actionMessage → c.clientEvent.flag = true ∨ c.clientEvent.eAwaiter = none

/-- The handles stored while the tree is suspended at a point. -/
def Stored (msgQueue : MessageQueue String) (clientEvent : SignallingEvent) : Point → Prop
  | .initial => msgQueue.mAwaiter = none ∧ clientEvent.eAwaiter = none
  | .startingMessage => msgQueue.mAwaiter = some .clientEntry ∧ clientEvent.eAwaiter = none
  | .startCommand n =>
    msgQueue.mAwaiter = some (.waitUntilStartCommand n) ∧ clientEvent.eAwaiter = none
  | .turnSignal =>
    msgQueue.mAwaiter ≠ none ∧ clientEvent.eAwaiter = some .clientEntry ∧ clientEvent.flag = false
  | .actionMessage => msgQueue.mAwaiter = some .clientEntry
  | .final => True

/-- The tree is suspended in order. -/
structure Suspended (c : Chat) : Prop where
  stored : Stored c.msgQueue c.clientEvent c.point
  empty : c.msgQueue.queue = []
  counts : c.sets = c.signals + c.clientEvent.flag.toNat
  crash : c.crash = none ∨ c.crash = some .assertion

section Coroutines
variable {c : Chat}

/-- What the tree relies on when it runs. -/
structure Running (c : Chat) : Prop where
  awaiter : c.msgQueue.mAwaiter ≠ none
  counts : c.sets = c.signals + c.clientEvent.flag.toNat
  crash : c.crash = none

theorem gameLoop_eq (queue : List String) (c : Chat) : c.gameLoop queue =
    if c.clientEvent.flag then c.signalled queue else c.suspendOnEvent queue := by
  cases queue <;> rfl

theorem suspended_signalled (h : Running c) (hflag : c.clientEvent.flag = true) :
    Suspended (c.signalled []) := by
  have hc := h.counts
  rw [hflag] at hc
  exact ⟨rfl, rfl, hc, Or.inl h.crash⟩

theorem suspended_gameLoop (h : Running c) : Suspended (c.gameLoop []) := by
  rw [gameLoop_eq]
  split_ifs with hflag
  · exact suspended_signalled h hflag
  · exact ⟨⟨h.awaiter, rfl, eq_false_of_ne_true hflag⟩, rfl, h.counts, Or.inl h.crash⟩

theorem suspended_finish (h : Running c) : Suspended (c.finish []) :=
  ⟨trivial, rfl, h.counts, Or.inl h.crash⟩

theorem Running.ended (h : Running c) (n : ℕ) : Running { c with startCommands := n } :=
  ⟨h.awaiter, h.counts, h.crash⟩

theorem suspended_leaderTask_nil (h : Running c) (hev : c.clientEvent.eAwaiter = none)
    (acks : List (Option AckMessage)) : Suspended (c.leaderTask [] acks) :=
  ⟨⟨rfl, hev⟩, rfl, h.counts, Or.inl h.crash⟩

theorem suspended_leaderTask (h : Running c) (hev : c.clientEvent.eAwaiter = none) (text : String)
    (acks : List (Option AckMessage)) : Suspended (c.leaderTask [text] acks) := by
  unfold Chat.leaderTask
  split_ifs with htext
  · cases acks with
    | nil => exact suspended_gameLoop (h.ended _)
    | cons ack acks =>
      cases ack with
      | none => exact suspended_gameLoop (h.ended _)
      | some ack =>
        simp only
        split_ifs
        · exact suspended_gameLoop (h.ended _)
        · exact suspended_leaderTask_nil (h.ended (c.startCommands + 1)) hev acks
  · exact suspended_leaderTask_nil h hev acks

theorem suspended_connect (h : Running c) (hev : c.clientEvent.eAwaiter = none) (r : Replies) :
    Suspended (c.connect [] r) := by
  unfold Chat.connect
  cases r.joinRandomSessionAck with
  | none => exact suspended_finish h
  | some ack =>
    simp only
    cases joinRandomSession ack with
    | some id => exact suspended_gameLoop h
    | none =>
      simp only
      cases r.createSessionAck.bind createSession with
      | none => exact suspended_finish h
      | some id => exact suspended_leaderTask_nil h hev _

end Coroutines

section Step
variable {c c' : Chat} {l : Label}

theorem wake_awaited {handle : Handle} {awaitable : Awaitable} (r : Replies)
    (h : c.point.awaits = some (handle, awaitable)) : c.wake (some handle) r = c.resume handle r := by
  have hframe : c.point.hasFrame handle = true := by
    cases hp : c.point with
    | startCommand n =>
      rw [hp] at h
      cases h
      simp [Point.hasFrame]
    | _ =>
      rw [hp] at h
      cases h <;> rfl
  unfold Chat.wake
  simp only [hframe, if_true]

section Resume
variable {handle : Handle} {text : String} {queue : List String} {n : ℕ} (r : Replies)

theorem resume_startingMessage (hp : c.point = .startingMessage)
    (hq : c.msgQueue.queue = text :: queue) : c.resume handle r = c.connect queue r := by
  unfold Chat.resume
  rw [hp, hq]

theorem resume_startCommand (hp : c.point = .startCommand n) (hq : c.msgQueue.queue = text :: queue) :
    c.resume (.waitUntilStartCommand n) r = c.leaderTask (text :: queue) r.startGameAcks := by
  unfold Chat.resume
  rw [hp, hq]

theorem resume_actionMessage (hp : c.point = .actionMessage)
    (hq : c.msgQueue.queue = text :: queue) : c.resume handle r = c.gameLoop queue := by
  unfold Chat.resume
  rw [hp, hq]

theorem resume_turnSignal (hp : c.point = .turnSignal) :
    c.resume handle r = c.signalled c.msgQueue.queue := by
  unfold Chat.resume
  rw [hp]

end Resume

/-- The wait of the tree for a message ends with the one message in the queue. -/
theorem suspended_message (h : Running c) (hstored : Stored c.msgQueue c.clientEvent c.point)
    {message : String} (hq : c.msgQueue.queue = [message]) (r : Replies) (hinit : c.point ≠ .initial)
    (hfinal : c.point ≠ .final) (hturn : c.point ≠ .turnSignal) :
    Suspended (c.wake c.msgQueue.mAwaiter r) := by
  cases hp : c.point with
  | initial => exact absurd hp hinit
  | final => exact absurd hp hfinal
  | turnSignal => exact absurd hp hturn
  | startingMessage =>
    rw [hp] at hstored
    rw [hstored.1, wake_awaited r (by rw [hp]; rfl), resume_startingMessage r hp hq]
    exact suspended_connect h hstored.2 r
  | startCommand n =>
    rw [hp] at hstored
    rw [hstored.1, wake_awaited r (by rw [hp]; rfl), resume_startCommand r hp hq]
    exact suspended_leaderTask h hstored.2 message _
  | actionMessage =>
    rw [hp] at hstored
    have hm : c.msgQueue.mAwaiter = some .clientEntry := hstored
    rw [hm, wake_awaited r (by rw [hp]; rfl), resume_actionMessage r hp hq]
    exact suspended_gameLoop h

/-- A handle stored for the event is that of `clientEntry`, which waits for its turn or has waited
before. -/
theorem Suspended.eAwaiter (hI : Suspended c) (hev : c.clientEvent.eAwaiter ≠ none)
    (hinit : c.point ≠ .initial) (hfinal : c.point ≠ .final) :
    c.point = .actionMessage ∨ c.point = .turnSignal ∧ c.clientEvent.eAwaiter = some .clientEntry := by
  have hstored := hI.stored
  cases hp : c.point with
  | initial => exact absurd hp hinit
  | final => exact absurd hp hfinal
  | actionMessage => exact Or.inl rfl
  | turnSignal =>
    rw [hp] at hstored
    exact Or.inr ⟨rfl, hstored.2.1⟩
  | startingMessage | startCommand n =>
    rw [hp] at hstored
    exact absurd hstored.2 hev

theorem Suspended.mAwaiter (hI : Suspended c) (hinit : c.point ≠ .initial)
    (hfinal : c.point ≠ .final) : c.msgQueue.mAwaiter ≠ none := by
  have hstored := hI.stored
  cases hp : c.point with
  | initial => exact absurd hp hinit
  | final => exact absurd hp hfinal
  | actionMessage =>
    rw [hp] at hstored
    have hm : c.msgQueue.mAwaiter = some .clientEntry := hstored
    simp [hm]
  | turnSignal =>
    rw [hp] at hstored
    exact hstored.1
  | startingMessage | startCommand n =>
    rw [hp] at hstored
    simp [hstored.1]

/-- The wait of the tree for its turn ends with the signal. -/
theorem suspended_signal (h : Running c) (hflag : c.clientEvent.flag = true)
    (hq : c.msgQueue.queue = []) (hp : c.point = .turnSignal) (r : Replies) :
    Suspended (c.wake (some .clientEntry) r) := by
  rw [wake_awaited r (by rw [hp]; rfl), resume_turnSignal r hp, hq]
  exact suspended_signalled h hflag

/-- **A message for a coroutine that waits for one** is taken, and the tree goes on in order. -/
theorem suspended_pushMessage (hI : Suspended c) (hlive : c.crash = none) (message : String)
    (r : Replies) (hinit : c.point ≠ .initial) (hfinal : c.point ≠ .final)
    (hturn : c.point ≠ .turnSignal) : Suspended (c.pushMessage message r) := by
  unfold Chat.pushMessage
  rw [hI.empty, List.nil_append]
  exact suspended_message (c := { c with msgQueue := { c.msgQueue with queue := [message] } })
    ⟨hI.mAwaiter hinit hfinal, hI.counts, hlive⟩ hI.stored rfl r hinit hfinal hturn

/-- **A signal for a coroutine that waits for it** is taken; one that comes before is kept. -/
theorem suspended_set (hI : Suspended c) (hlive : c.crash = none) (r : Replies)
    (hinit : c.point ≠ .initial) (hfinal : c.point ≠ .final)
    (haction : c.point = .actionMessage →
      c.clientEvent.flag = true ∨ c.clientEvent.eAwaiter = none) : Suspended (c.set r) := by
  have hcounts := hI.counts
  unfold Chat.set
  by_cases hflag : c.clientEvent.flag = true
  · rw [if_pos hflag]
    exact ⟨hI.stored, hI.empty, hI.counts, Or.inr rfl⟩
  · rw [if_neg hflag]
    rw [eq_false_of_ne_true hflag] at hcounts
    have hcounts' : c.sets + 1 = c.signals + (true : Bool).toNat := congrArg (· + 1) hcounts
    by_cases hev : c.clientEvent.eAwaiter = none
    · rw [hev]
      refine ⟨?_, hI.empty, hcounts', Or.inl hlive⟩
      have hstored := hI.stored
      cases hp : c.point with
      | turnSignal =>
        rw [hp] at hstored
        exact absurd hstored.2.1 (by simp [hev])
      | _ =>
        rw [hp] at hstored
        exact hstored
    · rcases hI.eAwaiter hev hinit hfinal with hp | ⟨hp, hentry⟩
      · exact absurd (haction hp) (not_or.mpr ⟨hflag, hev⟩)
      · have hrun : Running { c with clientEvent := { c.clientEvent with flag := true }
                                     sets := c.sets + 1 } :=
          ⟨hI.mAwaiter hinit hfinal, hcounts', hlive⟩
        rw [hentry]
        exact suspended_signal hrun rfl hI.empty hp r

theorem suspended_start (hI : Suspended c) (hlive : c.crash = none) (hp : c.point = .initial)
    (greeting : Option AckMessage) : Suspended (c.start greeting) := by
  have hstored := hI.stored
  rw [hp] at hstored
  unfold Chat.start
  split_ifs
  · exact ⟨⟨rfl, hstored.2⟩, hI.empty, hI.counts, Or.inl hlive⟩
  · exact ⟨trivial, hI.empty, hI.counts, Or.inl hlive⟩

/-- What an enabled call is. -/
theorem step_cases (hs : step c l = some c') : c.crash = none ∧
    match l with
    | .start greeting => c.point = .initial ∧ c' = c.start greeting
    | .pushMessage message r =>
      c.point ≠ .initial ∧ c.point ≠ .final ∧ c' = c.pushMessage message r
    | .set r => c.point ≠ .initial ∧ c.point ≠ .final ∧ c' = c.set r := by
  cases l with
  | start greeting =>
    simp only [step] at hs
    split_ifs at hs with hcrash hp
    exact ⟨by simpa using hcrash, hp, (Option.some.inj hs).symm⟩
  | pushMessage message r =>
    simp only [step] at hs
    split_ifs at hs with hcrash hp
    obtain ⟨hinit, hfinal⟩ := not_or.mp hp
    exact ⟨by simpa using hcrash, hinit, hfinal, (Option.some.inj hs).symm⟩
  | set r =>
    simp only [step] at hs
    split_ifs at hs with hcrash hp
    obtain ⟨hinit, hfinal⟩ := not_or.mp hp
    exact ⟨by simpa using hcrash, hinit, hfinal, (Option.some.inj hs).symm⟩

/-- **A call in turn leaves the tree suspended in order.** -/
theorem suspended_step (hI : Suspended c) (hC : InTurn c l) (hs : step c l = some c') :
    Suspended c' := by
  obtain ⟨hlive, hcall⟩ := step_cases hs
  have hturn := hC hlive
  cases l with
  | start greeting =>
    obtain ⟨hp, rfl⟩ := hcall
    exact suspended_start hI hlive hp greeting
  | pushMessage message r =>
    obtain ⟨hinit, hfinal, rfl⟩ := hcall
    exact suspended_pushMessage hI hlive message r hinit hfinal hturn
  | set r =>
    obtain ⟨hinit, hfinal, rfl⟩ := hcall
    exact suspended_set hI hlive r hinit hfinal hturn

/-- A call in turn tests the handle of a coroutine that waits for it. -/
theorem tested_awaits (hI : Suspended c) (hC : InTurn c l) (hs : step c l = some c')
    {t : Handle × Awaitable} (ht : tested c l = some t) : c.point.awaits = some t := by
  obtain ⟨hlive, hcall⟩ := step_cases hs
  have hturn := hC hlive
  have hstored := hI.stored
  cases l with
  | start greeting => cases ht
  | pushMessage message r =>
    obtain ⟨handle, hm, rfl⟩ := Option.map_eq_some_iff.mp ht
    cases hp : c.point with
    | initial => exact absurd hp hcall.1
    | final => exact absurd hp hcall.2.1
    | turnSignal => exact absurd hp hturn
    | actionMessage =>
      rw [hp] at hstored
      cases hm.symm.trans hstored
      rfl
    | startingMessage | startCommand n =>
      rw [hp] at hstored
      cases hm.symm.trans hstored.1
      rfl
  | set r =>
    unfold tested at ht
    split_ifs at ht with hflag
    obtain ⟨handle, hev, rfl⟩ := Option.map_eq_some_iff.mp ht
    have hsome : c.clientEvent.eAwaiter ≠ none := by simp [hev]
    rcases hI.eAwaiter hsome hcall.1 hcall.2.1 with hp | ⟨hp, hentry⟩
    · exact absurd (hturn hp) (not_or.mpr ⟨hflag, hsome⟩)
    · cases hev.symm.trans hentry
      rw [hp]
      rfl

theorem sound_of_inTurn (hI : Suspended c) (hC : InTurn c l) : Sound c l := by
  intro c' hs
  have hI' := suspended_step hI hC hs
  refine ⟨fun t ht => tested_awaits hI hC hs ht, ?_, ?_⟩
  · have := hI'.counts
    omega
  · rcases hI'.crash with h | h <;> simp [h]

/-- **A call out of turn tests the handle of a coroutine that waits for something else**, or is
destroyed. -/
theorem not_sound_of_out (hI : Suspended c) (hC : ¬ InTurn c l) : ¬ Sound c l := by
  intro hsound
  unfold InTurn at hC
  push Not at hC
  obtain ⟨hlive, hout⟩ := hC
  cases l with
  | start greeting => exact hout trivial
  | pushMessage message r =>
    have hp : c.point = .turnSignal := not_not.mp hout
    have hs : step c (.pushMessage message r) = some (c.pushMessage message r) := by
      simp [step, hlive, hp]
    have hstored := hI.stored
    rw [hp] at hstored
    obtain ⟨handle, hm⟩ := Option.ne_none_iff_exists'.mp hstored.1
    have hawaits := (hsound _ hs).1 (handle, .msgQueue) (by simp [tested, hm])
    rw [hp] at hawaits
    cases hawaits
  | set r =>
    simp only [not_forall, not_or] at hout
    obtain ⟨hp, hflag, hev⟩ := hout
    have hs : step c (.set r) = some (c.set r) := by simp [step, hlive, hp]
    obtain ⟨handle, hev⟩ := Option.ne_none_iff_exists'.mp hev
    have hawaits := (hsound _ hs).1 (handle, .clientEvent) (by simp [tested, hflag, hev])
    rw [hp] at hawaits
    cases hawaits

end Step

theorem suspended_init : Suspended init := ⟨⟨rfl, rfl⟩, rfl, rfl, Or.inl rfl⟩

/-- **When no wake-up is spurious**: exactly in the runs in which no message comes while the chat
waits for its turn, and no signal while it waits for its action after it has waited for one. -/
theorem sound_iff (run : List Label) : Along step Sound init run ↔ Along step InTurn init run := by
  refine along_iff (I := Suspended) (fun c l c' hI hC hs => suspended_step hI hC hs) ?_
    suspended_init run
  intro c l hI
  constructor
  · intro hsound
    by_contra hC
    exact not_sound_of_out hI hC hsound
  · exact sound_of_inTurn hI

/-- The replies to a client that joins an existing session. -/
def joinsExisting : Replies := ⟨some ⟨some .existingSession, some 0, none⟩, none, []⟩

/-- A client starts a chat, and so joins a session. -/
def joined : List Label := [.start (some ⟨some .succeed, none⟩), .pushMessage "/start" joinsExisting]

/-- A message before the client's turn is taken as its action: the wait for the signal, which is not
set, ends. -/
theorem early_message_unsound :
    ¬ Along step Sound init (joined ++ [.pushMessage "Who else plays?" joinsExisting]) := by
  intro h
  have hview : (reach step init joined).bind (fun c =>
      (step c (.pushMessage "Who else plays?" joinsExisting)).map fun c' => (c'.signals, c'.sets)) =
        some (1, 0) := rfl
  obtain ⟨c, hc, hview⟩ := Option.bind_eq_some_iff.mp hview
  obtain ⟨c', hs, hcounts⟩ := Option.map_eq_some_iff.mp hview
  obtain ⟨hsignals, hsets⟩ := Prod.mk.inj hcounts
  have hle := (h.at_reach hc c' hs).2.1
  omega

end HanabiBot.TgClient.Wakeups
