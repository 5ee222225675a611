import HanabiBot.TgClient.Process
import HanabiBot.TgClient.Progress

/-! # The bot

The process of `Process` with `clientEntry` as its coroutine. A handler of `onAnyMessage` that is
given `Enough` answers comes back: the coroutine it resumes comes to rest, whatever the answers are.
So every session follows the protocol of a client, and control is outside when the next message comes
(`bot_follows_protocol`). `clientEntry` is modelled up to the loop of the game, and the bot as long as
no chat writes whose session has reached it. -/

namespace HanabiBot.TgClient.Bot

open HanabiBot.Lib.Calls HanabiBot.Lib.Keyed HanabiBot.Lib.Runs HanabiBot.Common.Messages
open HanabiBot.TgClient.Tasks hiding step
open HanabiBot.TgClient.Direct HanabiBot.TgClient.Entry
open HanabiBot.TgClient.Conversation HanabiBot.TgClient.Progress HanabiBot.TgClient.Process
open HanabiBot.TgClient.Chats (ChatId ChatSessions Incoming noSessions onAnyMessage sessions)

/-- `clientEntry`, as the coroutine of every chat. -/
abbrev clientEntry (p : Parsers) (operation : ClientOperation) (garbage : ℤ) : Chats.Coroutine :=
  coroutine (program p operation garbage).next Point.connect (0 : ℤ)

/-- More answers than a client takes before it comes to rest, also if calls throw. -/
def Enough (outs : List (Option Bytes)) : Prop :=
  most * (outs.countP Option.isNone + 1) ≤ outs.length

instance : DecidablePred Enough := fun _ => inferInstanceAs (Decidable (_ ≤ _))

section Steps
variable {p : Parsers} {operation : ClientOperation} {garbage : ℤ}
  {c c' : Config (program p operation garbage)} {phase : Phase}

/-- A client that is under way, and waits on an empty input only. -/
structure Sound (c : Config (program p operation garbage)) : Prop where
  stands : ∃ phase, Stands c phase
  empty : ∀ next, c.mode = .waiting next → c.input = []

theorem Sound.plain :
    Sound (Direct.plain (M := program p operation garbage) Point.connect (0 : ℤ) []) :=
  ⟨⟨_, stands_plain []⟩, nofun⟩

theorem act_empty (action : Action Point String ℤ Out) {next : String → Point}
    (h : (c.act action).mode = .waiting next) : (c.act action).input = [] := by
  have hret (result : ℤ) : (c.ret result).mode ≠ .waiting next := by
    unfold Config.ret
    cases c.callers <;> nofun
  cases action with
  | goOn out point => cases h
  | coAwaitTask point result next => cases h
  | coAwaitQueue next =>
    unfold Config.act at h ⊢
    cases hinput : c.input with
    | nil => rfl
    | cons message input =>
      rw [hinput] at h
      cases h
  | coReturn result => exact absurd h (hret result)
  | throws => exact absurd h (hret c.result)

theorem Sound.step (hop : operation ≠ .unspecified) (hc : Sound c) {outside : Option Bytes}
    (hs : plainStep c outside = some c') : Sound c' := by
  obtain ⟨phase, hstands⟩ := hc.stands
  refine ⟨stands_step hop hstands hs, ?_⟩
  unfold plainStep at hs
  split at hs
  · cases hs
    exact fun next h => act_empty _ h
  · cases hs

/-- A message comes to a client at rest. -/
theorem Sound.feed (hc : Sound c) (hrests : Rests c) (message : String) :
    Sound (c.feed message) ∧ potential (c.feed message) < most := by
  obtain ⟨⟨phase, hstands⟩, hempty⟩ := hc
  unfold Config.feed
  cases hmode : c.mode with
  | running point => exact absurd hmode (hrests point)
  | waiting next =>
    obtain ⟨point, hw, hcallers, hat⟩ := hstands.waiting next hmode
    refine ⟨⟨stands_took hstands.log hcallers hw hat message c.input, nofun⟩, ?_⟩
    unfold potential
    simp only [hempty next hmode, List.length_nil, Nat.mul_zero, Nat.zero_add]
    exact weight_lt (next message)
  | finished => exact ⟨⟨⟨phase, hstands.log, nofun, nofun⟩, nofun⟩, show 0 < most by decide⟩

/-- **A handler that is given enough answers comes back.** -/
theorem Sound.settle (hop : operation ≠ .unspecified) (hc : Sound c) (hpotential : potential c < most)
    {outs : List (Option Bytes)} (henough : Enough outs) :
    Sound (settle outs c) ∧ Rests (settle outs c) := by
  obtain ⟨outs', rest, hsplit, hr, hstuck⟩ := @reach_last _ _ plainStep c outs
  refine ⟨inv_reach (fun _ _ _ hc hs => hc.step hop hs) hc hr, ?_⟩
  cases rest with
  | nil =>
    have hlength := length_plain hop hc.stands hr
    unfold Enough at henough
    rw [hsplit, List.append_nil, Nat.mul_succ] at henough
    omega
  | cons outside rest => exact plainStep_eq_none.mp (hstuck outside rfl)

variable {chat : Option (Config (program p operation garbage))}

/-- The program a message is for is at rest, ... -/
theorem serving_rests (hop : operation ≠ .unspecified) (hchat : ∀ c ∈ chat, Sound c ∧ Rests c)
    {outs : List (Option Bytes)} (henough : Enough outs) :
    Sound (plainServing (program p operation garbage).next Point.connect (0 : ℤ) chat outs) ∧
      Rests (plainServing (program p operation garbage).next Point.connect (0 : ℤ) chat outs) := by
  have hfresh := (@Sound.plain p operation garbage).settle hop (show 4 < most by decide) henough
  cases chat with
  | none => exact hfresh
  | some c =>
    unfold plainServing
    simp only
    split_ifs
    · exact hfresh
    · exact hchat c rfl

/-- ... and comes to rest again. -/
theorem move_rests (hop : operation ≠ .unspecified) (hchat : ∀ c ∈ chat, Sound c ∧ Rests c)
    {m : Incoming (clientEntry p operation garbage)} (hstart : Enough m.atStart)
    (hpush : Enough m.atPush) :
    ∀ c ∈ plainMove (program p operation garbage).next Point.connect (0 : ℤ) chat m,
      Sound c ∧ Rests c := by
  intro c hc
  unfold plainMove at hc
  obtain ⟨hsound, hrests⟩ := serving_rests hop hchat hstart
  split_ifs at hc
  · cases hc
  · cases hc
    obtain ⟨hfed, hpotential⟩ := hsound.feed hrests m.message.text
    exact hfed.settle hop hpotential hpush

theorem settled (hop : operation ≠ .unspecified)
    {ms : List (Incoming (clientEntry p operation garbage))}
    (henough : ∀ m ∈ ms, Enough m.atStart ∧ Enough m.atPush) (hchat : ∀ c ∈ chat, Sound c ∧ Rests c) :
    Settled (program p operation garbage).next Point.connect (0 : ℤ) chat ms ∧
      ∀ c ∈ ms.foldl (plainMove (program p operation garbage).next Point.connect (0 : ℤ)) chat,
        Sound c ∧ Rests c := by
  induction ms generalizing chat with
  | nil => exact ⟨trivial, hchat⟩
  | cons m ms ih =>
    obtain ⟨⟨hstart, hpush⟩, hms⟩ := List.forall_mem_cons.mp henough
    have hmove := move_rests hop hchat hstart hpush
    obtain ⟨hsettled, hlast⟩ := ih hms hmove
    exact ⟨⟨(serving_rests hop hchat hstart).2, fun c hc => (hmove c hc).2, hsettled⟩, hlast⟩

end Steps

/-! ### The process -/

section Bot
variable {p : Parsers} {operation : ClientOperation} {garbage : ℤ}

/-- The session has reached the loop of the game. -/
def inGame (session : Pair (program p operation garbage).next Point.connect (0 : ℤ)) : Bool :=
  session.1.frame.2.log.any (isOut .gameLoop)

/-- A message comes to the bot. -/
def botStep (s : ChatSessions (clientEntry p operation garbage))
    (m : Incoming (clientEntry p operation garbage)) :
    Option (ChatSessions (clientEntry p operation garbage)) :=
  if (sessions s m.chatId).any inGame then none
  else
    match (onAnyMessage m).run s with
    | .ok _ s' => some s'
    | .error _ _ => none

variable {s s' : ChatSessions (clientEntry p operation garbage)}
  {ls : List (Incoming (clientEntry p operation garbage))}

theorem botStep_eq_some {m : Incoming (clientEntry p operation garbage)} :
    botStep s m = some s' ↔
      (sessions s m.chatId).any inGame = false ∧ (onAnyMessage m).run s = .ok ⟨⟩ s' := by
  unfold botStep
  cases hgame : (sessions s m.chatId).any inGame with
  | true => exact iff_of_false (fun h => by cases h) fun h => by cases h.1
  | false =>
    rw [if_neg Bool.false_ne_true]
    cases (onAnyMessage m).run s with
    | ok _ s1 => exact ⟨fun h => by cases h; exact ⟨rfl, rfl⟩, fun h => by cases h.2; rfl⟩
    | error fault s1 => exact iff_of_false (fun h => by cases h) fun h => by cases h.2

theorem forM_of_reach (hr : reach botStep s ls = some s') :
    (ls.forM onAnyMessage).run s = .ok ⟨⟩ s' := by
  induction ls generalizing s with
  | nil =>
    cases hr
    rfl
  | cons m ls ih =>
    unfold reach at hr
    cases hs : botStep s m with
    | none => rw [hs] at hr; cases hr
    | some s1 =>
      rw [hs] at hr
      rw [List.forM, bind_ok (botStep_eq_some.mp hs).2]
      exact ih hr

/-- A handler that comes back has said goodbye if it had to. -/
theorem returns_of_reach (hr : reach botStep (noSessions _) ls = some s) : ∀ m ∈ ls, m.Returns := by
  by_contra hm
  obtain ⟨s', he⟩ := Chats.forM_throws hm Chats.inStep_noSessions
  cases he.symm.trans (forM_of_reach hr)

/-- **The bot follows the protocol with every chat**, whatever the chats write and in whatever order,
and wherever the calls of the coroutines throw: no handler hangs, none resumes a handle it should not,
and the next one fails only where it cannot say goodbye. -/
theorem bot_follows_protocol (hop : operation ≠ .unspecified)
    (henough : ∀ m ∈ ls, Enough m.atStart ∧ Enough m.atPush)
    (hr : reach botStep (noSessions _) ls = some s) :
    (∀ k, ∀ session ∈ sessions s k, session.1.frame.2.fault = none ∧
      session.1.frame.2.running = none ∧
      ∃ phase, reach (protocol p operation) .unconnected session.1.frame.2.log = some phase) ∧
    ∀ m, (sessions s m.chatId).any inGame = false →
      ((∃ s', botStep s m = some s') ↔ m.Returns) := by
  have hown (k : ChatId) := @settled p operation garbage none hop (own Incoming.chatId k ls)
    (fun m hm => henough m (List.mem_of_mem_filter hm)) nofun
  obtain ⟨s1, hr1, hin, hs⟩ := process_represents ls (returns_of_reach hr) fun k => (hown k).1
  obtain rfl : s1 = s := by
    have hok := hr1.symm.trans (forM_of_reach hr)
    cases hok
    rfl
  refine ⟨fun k session hsession => ?_, fun m hgame => ?_⟩
  · have hrel := hs k
    rw [Option.mem_def.mp hsession] at hrel
    obtain ⟨c, hc, hrepresents⟩ : ∃ c, (own Incoming.chatId k ls).foldl
        (plainMove (program p operation garbage).next Point.connect (0 : ℤ)) none = some c ∧
          Represents k session c := by
      generalize (own Incoming.chatId k ls).foldl
        (plainMove (program p operation garbage).next Point.connect (0 : ℤ)) none = chat at hrel
      cases hrel with
      | some h => exact ⟨_, rfl, h⟩
    obtain ⟨phase, hstands⟩ := ((hown k).2 c hc).1.stands
    have hlog : c.log = session.1.frame.2.log := (shows_of_plainly hrepresents.awake.plainly).log
    exact ⟨hrepresents.inv.fault, hrepresents.awake.rests hrepresents.rests, phase,
      hlog ▸ hstands.log⟩
  · constructor
    · rintro ⟨s', hs'⟩
      by_contra hm
      obtain ⟨s2, he⟩ := Chats.onAnyMessage_throws (hin.has m.chatId) hm
      cases he.symm.trans (botStep_eq_some.mp hs').2
    · intro hm
      obtain ⟨s', hs', -⟩ := Chats.onAnyMessage_run s1 m hin hm
      exact ⟨s', botStep_eq_some.mpr ⟨hgame, hs'⟩⟩

/-- The session of chat `1` ends where it cannot be told its name; chat `2` leaves. -/
def brokenName : List (Incoming (clientEntry plainParsers .createSession 0)) :=
  [(1, "hello"), (2, "/quit"), (1, "hello")].map fun message =>
    ⟨⟨message.1, message.2⟩, List.replicate 20 (some []),
      List.replicate 3 (some []) ++ none :: List.replicate 36 (some []), true⟩

theorem bot_follows_protocol_broken : ∃ s, reach botStep (noSessions _) brokenName = some s ∧
    (∀ k, ∀ session ∈ sessions s k, session.1.frame.2.fault = none ∧
      session.1.frame.2.running = none ∧
      ∃ phase, reach (protocol plainParsers .createSession) .unconnected
        session.1.frame.2.log = some phase) ∧
    ∀ m, (sessions s m.chatId).any inGame = false →
      ((∃ s', botStep s m = some s') ↔ m.Returns) := by
  obtain ⟨s, hr⟩ := Option.isSome_iff_exists.mp
    (show (reach botStep (noSessions _) brokenName).isSome = true by decide +kernel)
  exact ⟨s, hr, bot_follows_protocol (by decide) (by decide +kernel) hr⟩

end Bot

end HanabiBot.TgClient.Bot
