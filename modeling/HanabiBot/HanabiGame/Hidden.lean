import HanabiBot.HanabiGame.Knowledge
import HanabiBot.HanabiGame.Turns

/-! # Hidden cards stay hidden

A run at the table is a list of `Act`s: the game is displayed, or a player plays, discards or gives
a hint. `heard` are the messages it writes to a connection. In two games that are the same for
player `i` they are the same on its connection, through every run in which what player `i` is told
is the same (`hidden_stays_hidden`). So nothing else of the hand of player `i`, and of the deck,
is ever told to it. -/

namespace HanabiBot.HanabiGame.Hidden

open HanabiBot.Lib.Calls HanabiBot.Lib.Pairs HanabiBot.Lib.Runs HanabiBot.Common.Messages
open HanabiBot.HanabiGame.Cards HanabiBot.HanabiGame.State HanabiBot.HanabiGame.Play
open HanabiBot.HanabiGame.Actions HanabiBot.HanabiGame.Audience HanabiBot.HanabiGame.Steps
open HanabiBot.HanabiGame.Turns HanabiBot.HanabiGame.Secrecy HanabiBot.HanabiGame.Told
open HanabiBot.HanabiGame.Knowledge

/-- A display of the game, or a call. -/
inductive Act (n : ℕ) where
  | display (writeOk : ℕ → Conn → Bool)
  | call (c : Call n)

section Acts
variable (parse : Bytes → ClientResponse) {n : ℕ}

/-- The function a call calls. -/
def callee (c : Call n) : GameM Bool :=
  match c.action with
  | .play => playCard (c.env parse) c.player
  | .discard => discardCard (c.env parse) c.player
  | .hint => giveHint (c.env parse) c.player

namespace Act

def program : Act n → GameM PUnit
  | .display writeOk => Play.display ⟨parse, writeOk⟩
  | .call c => do
    let _ ← callee parse c
    return ⟨⟩

/-- The world an act starts in. -/
def opening (g : Game) : Act n → World
  | .display _ => ⟨g, [], 0, []⟩
  | .call c => c.opening g

/-- What an act writes to `c`. -/
def told (c : Conn) (g : Game) (a : Act n) : List Sent :=
  sentTo c (after (a.program parse) (a.opening g)).out

/-- What player `i` is told in a call is the same in both games. -/
def Public (i : ℕ) (p : Game × Game) : Act n → Prop
  | .display _ => True
  | .call c => Told.Public parse i p.1 p.2 c

end Act

/-- One act; `none` where what the source does is undefined. -/
def actStep (g : Game) (a : Act n) : Option Game := outcome ((a.program parse).run (a.opening g))

/-- What a run writes to `c`. -/
def heard (c : Conn) (g : Game) (acts : List (Act n)) : List Sent :=
  trace (actStep parse) (Act.told parse c) g acts

variable {parse}

theorem actStep_call (g : Game) (c : Call n) : actStep parse g (.call c) = gameStep parse g c := by
  have hresult : c.result parse g = (callee parse c).run (c.opening g) := by
    unfold Call.result callee
    cases c.action <;> rfl
  rw [gameStep_eq, hresult, actStep, Act.program, Act.opening]
  cases h : (callee parse c).run (c.opening g) with
  | ok b w => rw [bind_ok h]; rfl
  | error e w => rw [bind_error h]; cases e <;> rfl

/-! ### One act -/

theorem outcome_after {α : Type} {p : GameM α} {w : World} {g : Game} (h : outcome (p.run w) = some g) :
    (after p w).game = g := by
  unfold after
  cases hr : p.run w with
  | ok a w' =>
    rw [hr] at h
    exact Option.some.inj h
  | error e w' =>
    rw [hr] at h
    cases e with
    | exn x => exact Option.some.inj h
    | fault f => cases h
    | outOfFuel => cases h

/-- No act changes the players. -/
theorem actStep_players {g g' : Game} {a : Act n} (h : actStep parse g a = some g') :
    g'.players = g.players := by
  rw [← outcome_after h]
  cases a with
  | display writeOk => exact congrArg Game.players (sameGame_display _ _)
  | call c =>
    have walk := addressing_walk (c.env parse) g.players
    have hkeeps : Keeps (addressing g.players) (callee parse c) := by
      unfold callee
      cases c.action with
      | play => exact walk.playCard
      | discard => exact walk.discardCard
      | hint => exact walk.giveHint
    exact (Keeps.bind hkeeps (fun _ => Keeps.pure _) (c.opening g) rfl).1

theorem callee_alike {i : ℕ} {c : Conn} {g g' : Game} (h : SameFor i g g') {k : Call n}
    (hpublic : Told.Public parse i g g' k) :
    Both (Done i c) (Ended i c) ((callee parse k).run (k.opening g))
      ((callee parse k).run (k.opening g')) := by
  have hstart : At c g g' k.responses (k.opening g) (k.opening g') :=
    ⟨⟨rfl, rfl, rfl, rfl⟩, rfl, rfl⟩
  unfold callee
  cases ha : k.action with
  | play =>
    refine playCard_alike h k.player hstart fun j m card hpick hcard => ?_
    obtain ⟨hcard', hdrawn⟩ := hpublic.taken (by rw [ha]; decide) j m card hpick hcard
    exact ⟨hcard', fun hfits => hdrawn (Or.inr hfits)⟩
  | discard =>
    refine discardCard_alike h k.player hstart fun j m card hpick hcard => ?_
    obtain ⟨hcard', hdrawn⟩ := hpublic.taken (by rw [ha]; decide) j m card hpick hcard
    exact ⟨hcard', hdrawn (Or.inl ha)⟩
  | hint => exact relates_giveHint h k.player (hpublic.hinted ha) _ _ hstart

theorem act_alike {i : ℕ} {c : Conn} {g g' : Game} (h : SameFor i g g')
    (hc : ∀ r player, g.players[r]? = some player → player.socket = c → r = i) {a : Act n}
    (hpublic : a.Public parse i (g, g')) :
    Both (fun _ _ => Ended i c) (Ended i c) ((a.program parse).run (a.opening g))
      ((a.program parse).run (a.opening g')) := by
  cases a with
  | display writeOk =>
    have hstart : SameFrom c g g' (Act.opening g (.display writeOk : Act n))
        (Act.opening g' (.display writeOk : Act n)) := ⟨rfl, rfl, rfl, rfl⟩
    have hended {w w' : World} (hw : SameFrom c g g' w w') : Ended i c w w' :=
      ⟨hw.left.symm ▸ hw.right.symm ▸ h, hw.sent⟩
    exact Both.mono ((inStep_display ⟨parse, writeOk⟩ h hc).relates _ _ hstart)
      (fun _ _ _ _ => hended) fun _ _ => hended
  | call k => exact Both.bind (callee_alike h hpublic) fun _ _ _ _ _ hdone => hdone.2

/-- The games two acts lead to. -/
theorem outcome_alike {i : ℕ} {c : Conn} {α : Type} {r r' : EStateM.Result Stop World α}
    (h : Both (fun _ _ => Ended i c) (Ended i c) r r') :
    Option.Rel (SameFor i) (outcome r) (outcome r') := by
  cases r with
  | ok a w =>
    cases r' with
    | ok b w' => exact .some h.games
    | error e w' => exact h.elim
  | error e w =>
    cases r' with
    | ok b w' => exact h.elim
    | error e' w' =>
      obtain ⟨rfl, hended⟩ := h
      cases e with
      | exn x => exact .some hended.games
      | fault f => exact .none
      | outOfFuel => exact .none

/-! ### Runs -/

/-- **Hidden cards stay hidden.** In two games that are the same for player `i`, on whose connection
`c` no other player sits, the same acts write the same to `c`, as long as what player `i` is told is
the same, and lead to games that are the same for it, or nowhere in both. -/
theorem hidden_stays_hidden {i : ℕ} {c : Conn} {g g' : Game} (h : SameFor i g g')
    (hc : ∀ r player, g.players[r]? = some player → player.socket = c → r = i) {acts : List (Act n)}
    (hpublic : Along (both (actStep parse)) (Act.Public parse i) (g, g') acts) :
    heard parse c g' acts = heard parse c g acts ∧
      Option.Rel (SameFor i) (reach (actStep parse) g acts) (reach (actStep parse) g' acts) := by
  have hstep (s t : Game) (a : Act n) (hst : SameFor i s t ∧ s.players = g.players)
      (hpublic : a.Public parse i (s, t)) : a.told parse c t = a.told parse c s ∧
        Option.Rel (fun s t => SameFor i s t ∧ s.players = g.players) (actStep parse s a)
          (actStep parse t a) := by
    obtain ⟨hsame, hplayers⟩ := hst
    have halike := act_alike (c := c) hsame (hplayers.symm ▸ hc) hpublic
    exact ⟨halike.after.sent, rel_mono (outcome_alike halike) fun s' t' hs' hsame' =>
      ⟨hsame', (actStep_players hs').trans hplayers⟩⟩
  obtain ⟨htrace, hreach⟩ := trace_eq hstep ⟨h, rfl⟩ hpublic
  exact ⟨htrace, rel_mono hreach fun _ _ _ hst => hst.1⟩

end Acts

/-- The deal for two, with another hand of the first player. -/
def exchanged : Game :=
  { dealtTwo with
    hands := dealtTwo.hands.set 0 [⟨3, .white, false, false⟩, ⟨4, .white, false, false⟩,
      ⟨5, .white, false, false⟩, ⟨2, .green, false, false⟩, ⟨2, .blue, false, false⟩] }

theorem sameFor_exchanged : SameFor 0 dealtTwo exchanged where
  sockets := rfl
  table := rfl
  numBlueTokens := rfl
  numBlackFuseTokens := rfl
  others j hj := List.getElem?_set_ne (Ne.symm hj)
  own := by
    have hown : ∃ hand hand', dealtTwo.hands[0]? = some hand ∧ exchanged.hands[0]? = some hand' ∧
        List.Forall₂ Seen hand hand' :=
      ⟨(dealtTwo.hands[0]?).getD [], (exchanged.hands[0]?).getD [], by decide +kernel,
        by decide +kernel, by decide +kernel⟩
    obtain ⟨hand, hand', hh, hh', hseen⟩ := hown
    rw [hh, hh']
    exact .some hseen

/-- The second player tells the first of its twos. -/
def hintTwos (player : Fin 2) : Call 2 where
  action := .hint
  player := player
  responses := [[8, 0], [8, 1], [8, 2]]
  writeOk _ _ := true

theorem hintTwos_public : Told.Public parseOption 0 dealtTwo exchanged (hintTwos 1) where
  taken ha := absurd rfl ha
  hinted _ hint hmem := by
    have hasked : asked parseOption dealtTwo 1 [[8, 0], [8, 1], [8, 2]] = [(0, .number 2)] := by
      decide +kernel
    have hmem' : (0, hint) ∈ asked parseOption dealtTwo 1 [[8, 0], [8, 1], [8, 2]] := hmem
    rw [hasked] at hmem'
    cases List.mem_singleton.mp hmem'
    have htouches : Touches 0 dealtTwo exchanged (.number 2) := by
      unfold Touches
      decide +kernel
    exact htouches

theorem dealtTwo_alone {c r : ℕ} {player : Player} (hr : dealtTwo.players[r]? = some player)
    (hsocket : player.socket = c) : r = c := by
  have hplayers : dealtTwo.players = guests 2 := rfl
  rw [hplayers, guests, List.getElem?_map] at hr
  obtain ⟨k, hk, rfl⟩ := Option.map_eq_some_iff.mp hr
  obtain ⟨hlt, hrange⟩ := List.getElem?_eq_some_iff.mp hk
  rw [List.getElem_range] at hrange
  exact hrange.trans hsocket

/-- Told of its twos, the first player hears the same in both games. -/
theorem hidden_after_hint :
    heard parseOption 0 exchanged [.call (hintTwos 1), .display fun _ _ => true] =
      heard parseOption 0 dealtTwo [.call (hintTwos 1), .display fun _ _ => true] := by
  have hpublic : Along (both (actStep parseOption)) (Act.Public parseOption 0) (dealtTwo, exchanged)
      [.call (hintTwos 1), .display fun _ _ => true] :=
    ⟨hintTwos_public, fun _ _ => ⟨trivial, fun _ _ => trivial⟩⟩
  exact (hidden_stays_hidden sameFor_exchanged (fun _ _ => dealtTwo_alone) hpublic).1

end HanabiBot.HanabiGame.Hidden
