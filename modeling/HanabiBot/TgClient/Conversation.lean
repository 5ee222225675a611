import HanabiBot.TgClient.Entry

/-! # What a client says to the server

The protocol of a client, as the server and the user of the client see it: a `Phase` for what has
been agreed so far, and a transition for everything that `clientEntry` and its tasks log. It says in
which order the client reads, asks and subscribes, and which id it takes from the acknowledgements.

In every run the log follows the protocol (`follows_protocol`), whatever the user sends and when, and
wherever calls throw. -/

namespace HanabiBot.TgClient.Conversation

open HanabiBot.Lib.Runs HanabiBot.Common.Messages
open HanabiBot.TgClient.Tasks HanabiBot.TgClient.Direct HanabiBot.TgClient.Entry
open HanabiBot.TgClient.Coroutines (joinRandomSession createSession)
open HanabiBot.TgClient.Asks (waitUntilStartCommand)

/-! ### The protocol -/

inductive Phase where
  | unconnected
  /-- the greeting is to come -/
  | connected
  | greeted
  /-- the acknowledgement of the operation is to come -/
  | asked
  /-- the acknowledgement of a new session is to come -/
  | creating
  | joined (sessionId : ℤ)
  | leading (sessionId : ℤ)
  /-- refused, or broken off -/
  | over
  /-- the leader is subscribed, and `/start` is to come -/
  | waiting (sessionId : ℤ)
  /-- `/start` has come, or the wait for it has broken off -/
  | commanded (sessionId : ℤ)
  | cancelled (sessionId : ℤ)
  /-- the acknowledgement of the start is to come -/
  | starting (sessionId : ℤ)
  | answered (sessionId : ℤ) (accepted : Bool)
  /-- subscribed, for the game -/
  | playing (sessionId : ℤ)
  /-- for the game, but not subscribed -/
  | cutOff (sessionId : ℤ)
deriving DecidableEq, Repr

/-- There is a subscription. -/
def Phase.subscribed : Phase → Bool
  | .waiting _ | .commanded _ | .playing _ => true
  | _ => false

def Phase.inGame : Phase → Bool
  | .playing _ | .cutOff _ => true
  | _ => false

section Protocol
variable (p : Parsers) (operation : ClientOperation)

/-- A frame is read. -/
def hears (frame : Bytes) : Phase → Option Phase
  | .connected =>
    some (if (p.ack frame).status.getD .unspecified = .succeed then .greeted else .over)
  | .asked =>
    match operation with
    | .joinRandomSession =>
      some ((joinRandomSession (p.joinRandomSessionAck frame)).elim .creating .joined)
    | .joinSpecificSession =>
      some ((joinSpecificSession (p.joinSessionAck frame)).elim .over .joined)
    | .createSession => some ((createSession (p.createSessionAck frame)).elim .over .leading)
    | .unspecified => none
  | .creating => some ((createSession (p.createSessionAck frame)).elim .over .leading)
  | .starting sessionId =>
    some (.answered sessionId ((p.ack frame).status.getD .unspecified = .succeed))
  | _ => none

/-- A subscription is made. -/
def subscribes : Phase → Option Phase
  | .joined sessionId | .answered sessionId true => some (.playing sessionId)
  | .leading sessionId | .answered sessionId false => some (.waiting sessionId)
  | _ => none

/-- A call throws. -/
def breaks : Phase → Phase
  | .greeted => .greeted
  | .waiting sessionId => .commanded sessionId
  | .commanded sessionId | .playing sessionId => .playing sessionId
  | .cancelled sessionId | .starting sessionId | .answered sessionId _ | .cutOff sessionId =>
    .cutOff sessionId
  | _ => .over

def does : Phase → Out → Option Phase
  | phase, .sendMessage _ => some phase
  | .unconnected, .connect => some .connected
  | phase, .readBytes frame => hears p operation frame phase
  | .greeted, .newConnection m =>
    if m.operation = some operation ∧ (m.sessionId.isSome ↔ operation = .joinSpecificSession) then
      some .asked
    else none
  | phase, .subscribeToInfo => subscribes phase
  | .commanded sessionId, .cancel => some (.cancelled sessionId)
  | .cancelled sessionId, .startGameMsg => some (.starting sessionId)
  | phase, .threw => some (breaks phase)
  | phase, .gameLoop => if phase.inGame then some phase else none
  | _, _ => none

/-- A message of the user is taken. -/
def takes (text : String) : Phase → Option Phase
  | .greeted => some .greeted
  | .waiting sessionId => some (if text = "/start" then .commanded sessionId else .waiting sessionId)
  | _ => none

/-- **The protocol of a client.** -/
def protocol {garbage : ℤ} (phase : Phase) : Event (program p operation garbage) → Option Phase
  | .took text => takes text phase
  | .out out => does p operation phase out

end Protocol

/-! ### Where the coroutines stand -/

/-- The coroutine a point is of. -/
def coroutineOf : Point → Coroutine
  | .welcomeMessage | .welcomed => .welcomeTask
  | .askId | .idMessage | .idTest _ => .getSpecificSessionTask
  | .leaderSubscribe | .leaderWait | .cancel | .startGame | .startAck | .startAnswer _
  | .startMessage _ | .lastSubscribe | .started => .leaderTask
  | .askStart | .startCommand | .startTest _ => .waitUntilStartCommand
  | .throwing coroutine => coroutine
  | _ => .clientEntry

/-- How those go on that await a coroutine. -/
def behind : Coroutine → List (ℤ → Point)
  | .clientEntry => []
  | .welcomeTask => [fun _ => .yourName]
  | .getSpecificSessionTask => [fun sessionId => .newConnection (some sessionId)]
  | .leaderTask => [fun _ => .gameLoop]
  | .waitUntilStartCommand => [fun _ => .cancel, fun _ => .gameLoop]

/-- The phase in which control comes to a point. -/
def At (operation : ClientOperation) (phase : Phase) : Point → Prop
  | .connect => phase = .unconnected
  | .greeting => phase = .connected
  | .greeted ack => phase = if ack.status.getD .unspecified = .succeed then .greeted else .over
  | .startingMessage | .welcome | .yourName | .operation | .welcomeMessage | .welcomed
  | .throwing .welcomeTask => phase = .greeted
  | .newConnection sessionId =>
    phase = .greeted ∧ (sessionId.isSome ↔ operation = .joinSpecificSession)
  | .askId | .idMessage | .idTest _ | .throwing .getSpecificSessionTask =>
    phase = .greeted ∧ operation = .joinSpecificSession
  | .connecting | .response => phase = .asked
  | .randomAck => phase = .asked ∧ operation = .joinRandomSession
  | .specificAck => phase = .asked ∧ operation = .joinSpecificSession
  | .createAck => phase = .asked ∧ operation = .createSession ∨ phase = .creating
  | .randomMessage ack => phase = (joinRandomSession ack).elim .creating .joined
  | .specificMessage ack => phase = (joinSpecificSession ack).elim .over .joined
  | .createMessage ack => phase = (createSession ack).elim .over .leading
  | .joinedId sessionId => phase = .joined sessionId
  | .joinedSubscribe => ∃ sessionId, phase = .joined sessionId
  | .createLeader sessionId | .createdId sessionId => phase = .leading sessionId
  | .leader => ∃ sessionId, phase = .leading sessionId
  | .leaderSubscribe => ∃ sessionId, phase = .leading sessionId ∨ phase = .answered sessionId false
  | .leaderWait | .askStart | .startCommand => ∃ sessionId, phase = .waiting sessionId
  | .startTest text =>
    ∃ sessionId, phase = if text = "/start" then .commanded sessionId else .waiting sessionId
  | .cancel | .throwing .waitUntilStartCommand => ∃ sessionId, phase = .commanded sessionId
  | .startGame => ∃ sessionId, phase = .cancelled sessionId
  | .startAck => ∃ sessionId, phase = .starting sessionId
  | .startAnswer ack =>
    ∃ sessionId, phase = .answered sessionId (ack.status.getD .unspecified = .succeed)
  | .startMessage _ => ∃ sessionId, phase = .answered sessionId false
  | .lastSubscribe => ∃ sessionId, phase = .answered sessionId true
  | .started | .gameLoop | .throwing .leaderTask => phase.inGame = true
  | .finished | .throwing .clientEntry => True

/-- How a point goes on that awaits a message. -/
def awaits : Point → Option (String → Point)
  | .startingMessage => some fun _ => .welcome
  | .idMessage => some .idTest
  | .startCommand => some .startTest
  | _ => none

section Steps
variable {p : Parsers} {operation : ClientOperation} {garbage : ℤ}

/-- The log has come to a phase, and control where it may be in it. -/
structure Stands (c : Config (program p operation garbage)) (phase : Phase) : Prop where
  log : reach (protocol p operation) .unconnected c.log = some phase
  running : ∀ point, c.mode = .running point →
    c.callers.map Prod.snd = behind (coroutineOf point) ∧ At operation phase point
  waiting : ∀ next, c.mode = .waiting next → ∃ point, awaits point = some next ∧
    c.callers.map Prod.snd = behind (coroutineOf point) ∧ At operation phase point

variable {c : Config (program p operation garbage)} {phase phase' : Phase} {point point' : Point}

theorem behind_cons {coroutine : Coroutine} {next : ℤ → Point} {rest : List (ℤ → Point)}
    (h : behind coroutine = next :: rest) (result : ℤ) : behind (coroutineOf (next result)) = rest := by
  cases coroutine with
  | clientEntry => cases h
  | welcomeTask | getSpecificSessionTask | leaderTask | waitUntilStartCommand =>
    obtain ⟨rfl, rfl⟩ := List.cons.inj h
    rfl

theorem does_threw (phase : Phase) : does p operation phase .threw = some (breaks phase) := by
  cases phase <;> rfl

theorem log_concat (hlog : reach (protocol p operation) .unconnected c.log = some phase)
    {e : Event (program p operation garbage)} (he : protocol p operation phase e = some phase') :
    reach (protocol p operation) .unconnected (c.log ++ [e]) = some phase' := by
  rw [reach_concat, hlog]
  exact he

section Act
variable (hlog : reach (protocol p operation) .unconnected c.log = some phase)
  (hcallers : c.callers.map Prod.snd = behind (coroutineOf point))
include hlog hcallers

theorem stands_goOn (hco : coroutineOf point' = coroutineOf point) (hat : At operation phase point') :
    ∃ phase', Stands (c.act (.goOn [] point')) phase' :=
  ⟨phase, (congrArg _ (List.append_nil c.log)).trans hlog, fun _ h => by
    cases h
    exact ⟨hco ▸ hcallers, hat⟩, nofun⟩

theorem stands_does {out : Out} (hout : does p operation phase out = some phase')
    (hco : coroutineOf point' = coroutineOf point) (hat : At operation phase' point') :
    ∃ phase', Stands (c.act (.goOn [out] point')) phase' :=
  ⟨phase', log_concat hlog hout, fun _ h => by
    cases h
    exact ⟨hco ▸ hcallers, hat⟩, nofun⟩

/-- A call returns or throws. -/
theorem stands_call {out : Bytes → Out} {next : Bytes → Point} (outside : Option Bytes)
    (hthrows : At operation (breaks phase) (.throwing (coroutineOf point)))
    (hreturns : ∀ frame, ∃ phase', does p operation phase (out frame) = some phase' ∧
      coroutineOf (next frame) = coroutineOf point ∧ At operation phase' (next frame)) :
    ∃ phase', Stands (c.act (call (coroutineOf point) outside out next)) phase' := by
  cases outside with
  | none => exact stands_does hlog hcallers (does_threw phase) rfl hthrows
  | some frame =>
    obtain ⟨phase', hout, hco, hat⟩ := hreturns frame
    exact stands_does hlog hcallers hout hco hat

theorem stands_tell {text : String} (outside : Option Bytes)
    (hthrows : At operation (breaks phase) (.throwing (coroutineOf point)))
    (hco : coroutineOf point' = coroutineOf point) (hat : At operation phase point') :
    ∃ phase', Stands (c.act (tell outside (coroutineOf point) text point')) phase' :=
  stands_call hlog hcallers outside hthrows fun _ => ⟨phase, by cases phase <;> rfl, hco, hat⟩

/-- A coroutine is over, and the one that awaits it goes on. -/
theorem stands_ret (result : ℤ)
    (hat : ∀ next ∈ (behind (coroutineOf point)).head?, ∀ result, At operation phase (next result)) :
    ∃ phase', Stands (c.ret result) phase' := by
  unfold Config.ret
  cases hc : c.callers with
  | nil => exact ⟨phase, hlog, nofun, nofun⟩
  | cons caller callers =>
    obtain ⟨held, next⟩ := caller
    rw [hc, List.map_cons] at hcallers
    refine ⟨phase, hlog, fun _ h => ?_, nofun⟩
    cases h
    exact ⟨(behind_cons hcallers.symm result).symm, hat next (by rw [← hcallers]; rfl) result⟩

theorem stands_coAwaitTask {result : ℤ} {next : ℤ → Point} (hat : At operation phase point')
    (hbehind : behind (coroutineOf point') = next :: behind (coroutineOf point)) :
    ∃ phase', Stands (c.act (.coAwaitTask point' result next)) phase' :=
  ⟨phase, hlog, fun _ h => by
    cases h
    exact ⟨hbehind ▸ congrArg (next :: ·) hcallers, hat⟩, nofun⟩

end Act

/-- Where a message is awaited, it may come. -/
theorem takes_at {next : String → Point} (hw : awaits point = some next)
    (hat : At operation phase point) (text : String) :
    ∃ phase', takes text phase = some phase' ∧ coroutineOf (next text) = coroutineOf point ∧
      At operation phase' (next text) := by
  cases point with
  | startingMessage =>
    cases hw
    cases hat
    exact ⟨.greeted, rfl, rfl, rfl⟩
  | idMessage =>
    cases hw
    obtain ⟨rfl, hop⟩ := hat
    exact ⟨.greeted, rfl, rfl, rfl, hop⟩
  | startCommand =>
    cases hw
    obtain ⟨sessionId, rfl⟩ := hat
    exact ⟨_, rfl, rfl, sessionId, rfl⟩
  | _ => cases hw

theorem stands_took (hlog : reach (protocol p operation) .unconnected c.log = some phase)
    (hcallers : c.callers.map Prod.snd = behind (coroutineOf point)) {next : String → Point}
    (hw : awaits point = some next) (hat : At operation phase point) (text : String)
    (input : List String) : ∃ phase', Stands { c with
      mode := .running (next text), input := input, log := c.log ++ [.took text] } phase' := by
  obtain ⟨phase', htakes, hco, hat'⟩ := takes_at hw hat text
  exact ⟨phase', log_concat hlog htakes, fun _ h => by
    cases h
    exact ⟨hco ▸ hcallers, hat'⟩, nofun⟩

theorem stands_coAwaitQueue (hlog : reach (protocol p operation) .unconnected c.log = some phase)
    (hcallers : c.callers.map Prod.snd = behind (coroutineOf point)) {next : String → Point}
    (hw : awaits point = some next) (hat : At operation phase point) :
    ∃ phase', Stands (c.act (.coAwaitQueue next)) phase' := by
  unfold Config.act
  cases hinput : c.input with
  | nil =>
    refine ⟨phase, hlog, nofun, fun _ h => ?_⟩
    cases h
    exact ⟨point, hw, hcallers, hat⟩
  | cons text input => exact stands_took hlog hcallers hw hat text input

/-- **A step of the coroutines is one of the protocol**, or none. -/
theorem stands_act (hop : operation ≠ .unspecified)
    (hlog : reach (protocol p operation) .unconnected c.log = some phase)
    (hcallers : c.callers.map Prod.snd = behind (coroutineOf point)) (hat : At operation phase point)
    (outside : Option Bytes) :
    ∃ phase', Stands (c.act (next p operation garbage outside point)) phase' := by
  cases point with
  | connect =>
    cases hat
    exact stands_call hlog hcallers outside trivial fun _ => ⟨_, rfl, rfl, rfl⟩
  | greeting =>
    cases hat
    exact stands_call hlog hcallers outside trivial fun _ => ⟨_, rfl, rfl, rfl⟩
  | greeted ack =>
    simp only [next]
    split_ifs with hack
    · exact stands_ret hlog hcallers 0 nofun
    · refine stands_goOn hlog hcallers rfl ?_
      rw [At, if_pos (not_not.mp hack)] at hat
      exact hat
  | startingMessage => exact stands_coAwaitQueue hlog hcallers rfl hat
  | welcome => exact stands_coAwaitTask hlog hcallers hat rfl
  | yourName => exact stands_tell hlog hcallers outside trivial rfl hat
  | operation =>
    simp only [next]
    split_ifs with hspecific
    · exact stands_coAwaitTask hlog hcallers ⟨hat, hspecific⟩ rfl
    · exact stands_goOn hlog hcallers rfl ⟨hat, iff_of_false nofun hspecific⟩
  | newConnection sessionId =>
    obtain ⟨rfl, hid⟩ := hat
    exact stands_call hlog hcallers outside trivial fun _ => ⟨_, if_pos ⟨rfl, hid⟩, rfl, rfl⟩
  | connecting => exact stands_tell hlog hcallers outside trivial rfl hat
  | response =>
    simp only [next]
    cases operation with
    | joinRandomSession => exact stands_goOn hlog hcallers rfl ⟨hat, rfl⟩
    | joinSpecificSession => exact stands_goOn hlog hcallers rfl ⟨hat, rfl⟩
    | createSession => exact stands_goOn hlog hcallers rfl (Or.inl ⟨hat, rfl⟩)
    | unspecified => exact absurd rfl hop
  | leader =>
    obtain ⟨sessionId, rfl⟩ := hat
    exact stands_coAwaitTask hlog hcallers ⟨sessionId, Or.inl rfl⟩ rfl
  | gameLoop => exact stands_does hlog hcallers (if_pos hat) rfl trivial
  | finished => exact stands_ret hlog hcallers 0 nofun
  | randomAck =>
    obtain ⟨rfl, rfl⟩ := hat
    exact stands_call hlog hcallers outside trivial fun _ => ⟨_, rfl, rfl, rfl⟩
  | randomMessage ack =>
    cases hat
    refine stands_tell hlog hcallers outside trivial ?_ ?_
    · cases joinRandomSession ack <;> rfl
    · cases joinRandomSession ack with
      | none => exact Or.inr rfl
      | some sessionId => rfl
  | specificAck =>
    obtain ⟨rfl, rfl⟩ := hat
    exact stands_call hlog hcallers outside trivial fun _ => ⟨_, rfl, rfl, rfl⟩
  | specificMessage ack =>
    cases hat
    refine stands_tell hlog hcallers outside trivial ?_ ?_
    · cases joinSpecificSession ack <;> rfl
    · cases joinSpecificSession ack with
      | none => trivial
      | some sessionId => rfl
  | joinedId sessionId => exact stands_tell hlog hcallers outside trivial rfl ⟨sessionId, hat⟩
  | joinedSubscribe =>
    obtain ⟨sessionId, rfl⟩ := hat
    exact stands_does hlog hcallers rfl rfl rfl
  | createAck =>
    rcases hat with ⟨rfl, rfl⟩ | rfl
    · exact stands_call hlog hcallers outside trivial fun _ => ⟨_, rfl, rfl, rfl⟩
    · exact stands_call hlog hcallers outside trivial fun _ => ⟨_, rfl, rfl, rfl⟩
  | createMessage ack =>
    cases hat
    refine stands_tell hlog hcallers outside trivial ?_ ?_
    · cases createSession ack <;> rfl
    · cases createSession ack with
      | none => trivial
      | some sessionId => rfl
  | createLeader sessionId => exact stands_tell hlog hcallers outside trivial rfl hat
  | createdId sessionId => exact stands_tell hlog hcallers outside trivial rfl ⟨sessionId, hat⟩
  | welcomeMessage =>
    cases hat
    exact stands_tell hlog hcallers outside rfl rfl rfl
  | welcomed =>
    refine stands_ret hlog hcallers 0 fun next h result => ?_
    cases h
    exact hat
  | askId =>
    obtain ⟨rfl, hspecific⟩ := hat
    exact stands_tell hlog hcallers outside ⟨rfl, hspecific⟩ rfl ⟨rfl, hspecific⟩
  | idMessage => exact stands_coAwaitQueue hlog hcallers rfl hat
  | idTest text =>
    obtain ⟨rfl, hspecific⟩ := hat
    simp only [next]
    split_ifs
    · split
      · next sessionId _ =>
        refine stands_ret hlog hcallers sessionId fun next h result => ?_
        cases h
        exact ⟨rfl, iff_of_true rfl hspecific⟩
      · exact stands_does hlog hcallers rfl rfl ⟨rfl, hspecific⟩
    · exact stands_tell hlog hcallers outside ⟨rfl, hspecific⟩ rfl ⟨rfl, hspecific⟩
  | leaderSubscribe =>
    obtain ⟨sessionId, rfl | rfl⟩ := hat
    · exact stands_does hlog hcallers rfl rfl ⟨sessionId, rfl⟩
    · exact stands_does hlog hcallers rfl rfl ⟨sessionId, rfl⟩
  | leaderWait =>
    exact stands_coAwaitTask hlog hcallers hat rfl
  | cancel =>
    obtain ⟨sessionId, rfl⟩ := hat
    exact stands_call hlog hcallers outside rfl fun _ => ⟨_, rfl, rfl, sessionId, rfl⟩
  | startGame =>
    obtain ⟨sessionId, rfl⟩ := hat
    exact stands_call hlog hcallers outside rfl fun _ => ⟨_, rfl, rfl, sessionId, rfl⟩
  | startAck =>
    obtain ⟨sessionId, rfl⟩ := hat
    exact stands_call hlog hcallers outside rfl fun _ => ⟨_, rfl, rfl, sessionId, rfl⟩
  | startAnswer ack =>
    obtain ⟨sessionId, rfl⟩ := hat
    simp only [next]
    split_ifs with hack
    · exact stands_goOn hlog hcallers rfl ⟨sessionId, by rw [decide_eq_true hack]⟩
    · refine stands_tell hlog hcallers outside rfl rfl ⟨sessionId, by rw [decide_eq_false hack]⟩
  | startMessage ack =>
    obtain ⟨sessionId, rfl⟩ := hat
    exact stands_tell hlog hcallers outside rfl rfl ⟨sessionId, Or.inr rfl⟩
  | lastSubscribe =>
    obtain ⟨sessionId, rfl⟩ := hat
    exact stands_does hlog hcallers rfl rfl rfl
  | started =>
    refine stands_ret hlog hcallers 0 fun next h result => ?_
    cases h
    exact hat
  | askStart =>
    obtain ⟨sessionId, rfl⟩ := hat
    exact stands_tell hlog hcallers outside ⟨sessionId, rfl⟩ rfl ⟨sessionId, rfl⟩
  | startCommand => exact stands_coAwaitQueue hlog hcallers rfl hat
  | startTest text =>
    obtain ⟨sessionId, rfl⟩ := hat
    simp only [next, waitUntilStartCommand]
    by_cases htext : text = "/start"
    · subst htext
      refine stands_ret hlog hcallers 0 fun next h result => ?_
      cases h
      exact ⟨sessionId, rfl⟩
    · rw [if_neg htext] at hlog
      rw [if_pos htext]
      exact stands_tell hlog hcallers outside ⟨sessionId, rfl⟩ rfl ⟨sessionId, rfl⟩
  | throwing coroutine =>
    refine stands_ret hlog hcallers c.result fun next h result => ?_
    cases coroutine with
    | clientEntry => cases h
    | welcomeTask =>
      cases h
      exact hat
    | getSpecificSessionTask =>
      cases h
      exact ⟨hat.1, iff_of_true rfl hat.2⟩
    | leaderTask =>
      cases h
      exact hat
    | waitUntilStartCommand =>
      cases h
      exact hat

theorem stands_step (hop : operation ≠ .unspecified) {c' : Config (program p operation garbage)}
    {outside : Option Bytes} (hc : Stands c phase) (hs : plainStep c outside = some c') :
    ∃ phase', Stands c' phase' := by
  unfold plainStep at hs
  split at hs
  · next point hmode =>
    cases hs
    obtain ⟨hcallers, hat⟩ := hc.running point hmode
    exact stands_act hop hc.log hcallers hat outside
  · cases hs

theorem stands_plain (input : List String) :
    Stands (plain (M := program p operation garbage) Point.connect (0 : ℤ) input) .unconnected :=
  ⟨rfl, fun _ h => by
    cases h
    exact ⟨rfl, rfl⟩, nofun⟩

end Steps

/-! ### Whole runs -/

section Runs
variable {p : Parsers} {operation : ClientOperation} {garbage : ℤ}
  {ls : List (Label (program p operation garbage))} {s : State (program p operation garbage)}

theorem reach_protocol (hop : operation ≠ .unspecified)
    (hr : reach step (start p operation garbage) ls = some s) :
    ∃ phase, reach (protocol p operation) .unconnected s.log = some phase := by
  obtain ⟨c, hreach, hc⟩ := plainly_reach hr
  obtain ⟨phase, hstands⟩ := inv_reach (I := fun c => ∃ phase, Stands c phase)
    (fun c outside c' ⟨phase, hc⟩ hs => stands_step hop hc hs) ⟨_, stands_plain s.pushed⟩ hreach
  exact ⟨phase, (shows_of_plainly hc).log ▸ hstands.log⟩

/-- **The client follows the protocol**, whenever messages are pushed and whichever calls throw. -/
theorem follows_protocol (hop : operation ≠ .unspecified)
    (hr : reach step (start p operation garbage) ls = some s) :
    ∃ phase, reach (protocol p operation) .unconnected s.log = some phase :=
  reach_protocol hop hr

/-- A server that welcomes everyone, has no session for a random join and makes session 7. -/
def plainParsers : Parsers where
  ack _ := ⟨some .succeed, none⟩
  joinRandomSessionAck _ := ⟨some .newSession, none, none⟩
  joinSessionAck _ := ⟨some .failed, none, none⟩
  createSessionAck _ := ⟨some .succeed, none, some 7⟩

/-- A leader whose `StartGameMsg` cannot be written. -/
def brokenStart : List (Label (program plainParsers .joinRandomSession 0)) :=
  .start :: List.replicate 4 (.run (some [])) ++ .pushMessage "/start" ::
    List.replicate 19 (.run (some [])) ++ .pushMessage "/start" ::
    List.replicate 2 (.run (some [])) ++ .run none :: List.replicate 2 (.run (some []))

theorem follows_protocol_broken : ∃ s phase,
    reach step (start plainParsers .joinRandomSession 0) brokenStart = some s ∧
      reach (protocol plainParsers .joinRandomSession) .unconnected s.log = some phase := by
  obtain ⟨s, hr⟩ := Option.isSome_iff_exists.mp (show (reach step
    (start plainParsers .joinRandomSession 0) brokenStart).isSome = true by decide +kernel)
  obtain ⟨phase, hphase⟩ := follows_protocol (by decide) hr
  exact ⟨s, phase, hr, hphase⟩

end Runs

/-! ### Subscriptions -/

section Subscriptions
variable {p : Parsers} {operation : ClientOperation} {garbage : ℤ} {phase phase' : Phase}
  {log : List (Event (program p operation garbage))} {e : Event (program p operation garbage)}

def isOut (out : Out) : Event (program p operation garbage) → Bool
  | .out out' => out' = out
  | .took _ => false

theorem mem_of_any {out : Out} (h : log.any (isOut out) = true) : .out out ∈ log := by
  obtain ⟨e, he, hout⟩ := List.any_eq_true.mp h
  cases e with
  | took text => cases hout
  | out out' =>
    obtain rfl : out' = out := of_decide_eq_true hout
    exact he

/-- The calls of `subscribeToInfo` so far, ... -/
def made (log : List (Event (program p operation garbage))) : ℕ := log.countP (isOut .subscribeToInfo)

/-- ... and of `socket.cancel`. -/
def givenUp (log : List (Event (program p operation garbage))) : ℕ := log.countP (isOut .cancel)

/-- Whether a call has thrown since the last `cancel`, until `subscribeToInfo` is called. -/
def track (o : Option Bool) (e : Event (program p operation garbage)) : Option Bool :=
  if isOut .cancel e then some false
  else if isOut .subscribeToInfo e then none
  else if isOut .threw e then o.map fun _ => true
  else o

def sinceCancel (log : List (Event (program p operation garbage))) : Option Bool :=
  log.foldl track none

/-- A call has thrown between a `cancel` and the next `subscribeToInfo`. -/
def CutShort (log : List (Event (program p operation garbage))) : Prop := sinceCancel log = some true

/-- What a phase says about `sinceCancel`. -/
def Phase.since : Phase → Option Bool
  | .cancelled _ | .starting _ | .answered _ _ => some false
  | .cutOff _ => some true
  | _ => none

/-- What the log has to do with the phase it has come to. -/
structure Accounts (log : List (Event (program p operation garbage))) (phase : Phase) : Prop where
  count : made log = givenUp log + phase.subscribed.toNat
  tracked : sinceCancel log = phase.since
  reads : ∀ pre frame post, log = pre ++ .out (.readBytes frame) :: post → made pre = givenUp pre
  loop : .out .gameLoop ∈ log → phase.inGame = true

theorem accounts_nil : Accounts ([] : List (Event (program p operation garbage))) .unconnected :=
  ⟨rfl, rfl, fun pre _ _ h => (List.append_ne_nil_of_right_ne_nil pre (List.cons_ne_nil _ _) h.symm).elim,
    nofun⟩

/-- One event more. -/
theorem Accounts.concat (h : Accounts log phase)
    (hcount : phase'.subscribed.toNat + (isOut .cancel e).toNat =
      phase.subscribed.toNat + (isOut .subscribeToInfo e).toNat)
    (hsince : phase'.since = track phase.since e)
    (hread : ∀ frame, e = .out (.readBytes frame) → phase.subscribed = false)
    (hloop : phase.inGame = true ∨ e = .out .gameLoop → phase'.inGame = true) :
    Accounts (log ++ [e]) phase' where
  count := by
    have hc := h.count
    unfold made givenUp at hc ⊢
    have hone (q : Event (program p operation garbage) → Bool) : [e].countP q = (q e).toNat := by
      rw [List.countP_singleton]
      cases q e <;> rfl
    rw [List.countP_append, List.countP_append, hone, hone]
    omega
  tracked := by
    rw [sinceCancel, List.foldl_append, ← sinceCancel, h.tracked, hsince]
    rfl
  reads pre frame post heq := by
    rcases List.eq_nil_or_concat post with rfl | ⟨post', e', rfl⟩
    · obtain ⟨rfl, he⟩ := List.append_inj' heq rfl
      have hc := h.count
      rw [hread frame (List.singleton_inj.mp he)] at hc
      exact hc
    · rw [List.concat_eq_append, ← List.cons_append, ← List.append_assoc] at heq
      exact h.reads pre frame post' (List.append_inj' heq rfl).1
  loop hmem := by
    refine hloop ?_
    rcases List.mem_append.mp hmem with hmem | hmem
    · exact Or.inl (h.loop hmem)
    · exact Or.inr (List.mem_singleton.mp hmem).symm

/-- A frame is read in a phase without a subscription, and outside of the game. -/
theorem hears_quiet {frame : Bytes} (h : hears p operation frame phase = some phase') :
    phase.subscribed = false ∧ phase'.subscribed = false ∧ phase.inGame = false ∧
      phase'.since = phase.since := by
  have helim {α : Type} (o : Option α) (q : Phase) (f : α → Phase) (hq : q.subscribed = false)
      (hf : ∀ a, (f a).subscribed = false) (hq' : q.since = none) (hf' : ∀ a, (f a).since = none) :
      (o.elim q f).subscribed = false ∧ (o.elim q f).since = none := by
    cases o with
    | none => exact ⟨hq, hq'⟩
    | some a => exact ⟨hf a, hf' a⟩
  cases phase with
  | connected =>
    cases h
    split_ifs <;> exact ⟨rfl, rfl, rfl, rfl⟩
  | asked =>
    cases operation with
    | joinRandomSession =>
      cases h
      obtain ⟨hsub, hsince⟩ := helim (joinRandomSession (p.joinRandomSessionAck frame)) .creating .joined
        rfl (fun _ => rfl) rfl fun _ => rfl
      exact ⟨rfl, hsub, rfl, hsince⟩
    | joinSpecificSession =>
      cases h
      obtain ⟨hsub, hsince⟩ := helim (joinSpecificSession (p.joinSessionAck frame)) .over .joined
        rfl (fun _ => rfl) rfl fun _ => rfl
      exact ⟨rfl, hsub, rfl, hsince⟩
    | createSession =>
      cases h
      obtain ⟨hsub, hsince⟩ := helim (createSession (p.createSessionAck frame)) .over .leading
        rfl (fun _ => rfl) rfl fun _ => rfl
      exact ⟨rfl, hsub, rfl, hsince⟩
    | unspecified => cases h
  | creating =>
    cases h
    obtain ⟨hsub, hsince⟩ := helim (createSession (p.createSessionAck frame)) .over .leading
      rfl (fun _ => rfl) rfl fun _ => rfl
    exact ⟨rfl, hsub, rfl, hsince⟩
  | starting sessionId =>
    cases h
    exact ⟨rfl, rfl, rfl, rfl⟩
  | _ => cases h

/-- **A step of the protocol keeps the accounts.** -/
theorem accounts_protocol (h : Accounts log phase) (hs : protocol p operation phase e = some phase') :
    Accounts (log ++ [e]) phase' := by
  cases e with
  | took text =>
    cases phase with
    | greeted =>
      cases hs
      exact h.concat rfl rfl nofun nofun
    | waiting sessionId =>
      cases hs
      split_ifs
      · exact h.concat rfl rfl nofun nofun
      · exact h.concat rfl rfl nofun nofun
    | _ => cases hs
  | out out =>
    simp only [protocol] at hs
    unfold does at hs
    split at hs
    · cases hs
      exact h.concat rfl rfl nofun fun hloop => hloop.resolve_right nofun
    · cases hs
      exact h.concat rfl rfl nofun nofun
    · next frame =>
      obtain ⟨hsub, hsub', hgame, hsince⟩ := hears_quiet hs
      refine h.concat (by rw [hsub, hsub']; rfl) hsince (fun _ _ => hsub) fun hloop => ?_
      rcases hloop with hloop | hloop
      · rw [hgame] at hloop
        cases hloop
      · cases hloop
    · split_ifs at hs
      cases hs
      exact h.concat rfl rfl nofun nofun
    · unfold subscribes at hs
      split at hs
      · cases hs
        exact h.concat rfl rfl nofun nofun
      · cases hs
        exact h.concat rfl rfl nofun nofun
      · cases hs
        exact h.concat rfl rfl nofun nofun
      · cases hs
        exact h.concat rfl rfl nofun nofun
      · cases hs
    · cases hs
      exact h.concat rfl rfl nofun nofun
    · cases hs
      exact h.concat rfl rfl nofun nofun
    · cases hs
      cases phase with
      | playing sessionId | cutOff sessionId => exact h.concat rfl rfl nofun fun _ => rfl
      | _ => exact h.concat rfl rfl nofun nofun
    · split_ifs at hs with hgame
      cases hs
      exact h.concat rfl rfl nofun fun _ => hgame
    · cases hs

theorem accounts_reach {phase : Phase} {log : List (Event (program p operation garbage))}
    (hr : reach (protocol p operation) .unconnected log = some phase) : Accounts log phase := by
  induction log using List.reverseRecOn generalizing phase with
  | nil =>
    cases hr
    exact accounts_nil
  | append_singleton log e ih =>
    rw [reach_concat] at hr
    obtain ⟨phase1, hr1, hs⟩ := Option.bind_eq_some_iff.mp hr
    exact accounts_protocol (ih hr1) hs

/-- **What the client calls before it reads**: where it calls `readBytes`, it has called `cancel` as
often as `subscribeToInfo`. **In the game** it has called `subscribeToInfo` once more, unless a call
has thrown between the last `cancel` and the call behind it. (A handler that was in its body at the
`cancel` subscribes again by itself, and reads on: see `LeaderLink`.) -/
theorem subscriptions_counted (hop : operation ≠ .unspecified) {ls : List (Label (program p operation garbage))}
    {s : State (program p operation garbage)} (hr : reach step (start p operation garbage) ls = some s) :
    (∀ pre frame post, s.log = pre ++ .out (.readBytes frame) :: post → made pre = givenUp pre) ∧
      (.out .gameLoop ∈ s.log →
        (CutShort s.log ∧ made s.log = givenUp s.log ∨
          ¬ CutShort s.log ∧ made s.log = givenUp s.log + 1)) := by
  obtain ⟨phase, hphase⟩ := reach_protocol hop hr
  have h := accounts_reach hphase
  refine ⟨h.reads, fun hloop => ?_⟩
  have hgame := h.loop hloop
  unfold CutShort
  rw [h.count, h.tracked]
  cases phase with
  | playing sessionId => exact Or.inr ⟨nofun, rfl⟩
  | cutOff sessionId => exact Or.inl ⟨rfl, rfl⟩
  | _ => cases hgame

/-- The leader is in the game, and has not subscribed again. -/
theorem subscriptions_counted_broken : ∃ s,
    reach step (start plainParsers .joinRandomSession 0) brokenStart = some s ∧
      CutShort s.log ∧ made s.log = givenUp s.log := by
  obtain ⟨s, hr, hloop, hcut⟩ : ∃ s,
      reach step (start plainParsers .joinRandomSession 0) brokenStart = some s ∧
        s.log.any (isOut .gameLoop) = true ∧ sinceCancel s.log = some true := by
    have h : (reach step (start plainParsers .joinRandomSession 0) brokenStart).any (fun s =>
        s.log.any (isOut .gameLoop) && sinceCancel s.log == some true) = true := by decide +kernel
    obtain ⟨s, hr, h⟩ := (Option.any_eq_true _ _).mp h
    rw [Bool.and_eq_true] at h
    exact ⟨s, hr, h.1, eq_of_beq h.2⟩
  rcases (subscriptions_counted (by decide) hr).2 (mem_of_any hloop) with h | ⟨hnot, -⟩
  · exact ⟨s, hr, h⟩
  · exact absurd hcut hnot

end Subscriptions

end HanabiBot.TgClient.Conversation
