import HanabiBot.HanabiGame.Play
import HanabiBot.Lib.Calls

/-! # The calls of a turn, walked through once

A turn is made of a few kinds of steps: a look at the game, an update of it that keeps the players,
a write to a player, a read. A frame that is kept by these (`Walk`) is kept by every call of a
turn, up to the round of its loop (`Walk.turnRound`).

`Seat` is what the frame knows of the players it meets in the game. -/

namespace HanabiBot.HanabiGame.Walks

open HanabiBot.Lib.Calls HanabiBot.Common.Messages HanabiBot.HanabiGame.Cards
open HanabiBot.HanabiGame.State HanabiBot.HanabiGame.Play

/-- The frame is kept by the steps that a turn is made of. -/
structure Walk (env : Env) (F : Frame World) (Seat : Player → Prop) : Prop where
  player : ∀ {α : Type} {i : ℕ} {f : Player → GameM α},
    (∀ player, Seat player → Keeps F (f player)) → Keeps F (element Game.players i >>= f)
  players : ∀ {α : Type} {f : List Player → GameM α},
    (∀ players, (∀ player ∈ players, Seat player) → Keeps F (f players)) →
      Keeps F (readGame Game.players >>= f)
  modifyGame : ∀ {f : Game → Game}, (∀ g, (f g).players = g.players) → Keeps F (modifyGame f)
  sendBytes : ∀ {player : Player}, Seat player → ∀ m, Keeps F (sendBytes env player.socket m)
  send_ : ∀ {player : Player}, Seat player → ∀ s, Keeps F (send_ env player.socket s)
  readBytesCatch : Keeps F readBytesCatch

section Looks
variable {F : Frame World} {α : Type}

theorem keeps_readGame (f : Game → α) : Keeps F (readGame f) := fun w => F.refl w

theorem keeps_element (l : Game → List α) (j : ℕ) : Keeps F (element l j) := by
  intro w
  cases h : (l w.game)[j]? with
  | none => rw [after_of_error (run_element_none h)]; exact F.refl w
  | some a => rw [after_of_ok (run_element h)]; exact F.refl w

theorem keeps_checked (f : Game → Except Fault α) : Keeps F (checked f) := by
  intro w
  cases h : f w.game with
  | error e => rw [after_of_error (run_checked_error h)]; exact F.refl w
  | ok a => rw [after_of_ok (run_checked_ok h)]; exact F.refl w

end Looks

namespace Walk
variable {env : Env} {F : Frame World} {Seat : Player → Prop} (walk : Walk env F Seat) {i : ℕ}
  {player : Player}
include walk

theorem sendInfo (hp : Seat player) (msg : String) : Keeps F (sendInfo env player.socket msg) :=
  walk.sendBytes hp _

theorem broadcast (msg : String) : Keeps F (broadcast env msg) :=
  walk.players fun _ hp => Keeps.forM fun player hmem => walk.sendInfo (hp player hmem) msg

theorem requestInt (lower higher : ℤ) (msg : String) (hp : Seat player) :
    Keeps F (requestInt env lower higher msg player) := by
  have hquery : Keeps F (requestQuery env player) := by
    refine Keeps.bind (walk.sendBytes hp _) fun _ => Keeps.bind walk.readBytesCatch fun o => ?_
    cases o with
    | none => exact Keeps.throw _
    | some b => exact Keeps.pure _
  refine Keeps.untilSome (Keeps.bind hquery fun _ => Keeps.ite ?_ (Keeps.pure _))
  exact Keeps.bind (walk.sendInfo hp _) fun _ => Keeps.pure _

/-! ### The actions -/

theorem draw : Keeps F draw :=
  Keeps.bind (keeps_readGame _) fun _ => Keeps.bind (walk.modifyGame fun _ => rfl) fun _ =>
    Keeps.pure _

theorem setCard (j k : ℕ) (card : Card) : Keeps F (setCard j k card) :=
  walk.modifyGame fun _ => rfl

theorem chooseCard (prompt : String) : Keeps F (chooseCard env i prompt) :=
  walk.player fun _ hp => Keeps.bind (walk.send_ hp _) fun _ => Keeps.bind (keeps_element _ _)
    fun _ => walk.requestInt _ _ _ hp

/-- `playCard` is a choice and what follows it. -/
theorem playCard_split : ∃ rest : ℤ → GameM Bool, playCard env i = Play.chooseCard env i
      "Select a card to play or enter -1 to change action: \n" >>= rest ∧
    ∀ cardIndex, Keeps F (rest cardIndex) := by
  refine ⟨_, rfl, fun cardIndex => Keeps.ite (Keeps.pure _) ?_⟩
  refine Keeps.bind (keeps_checked _) fun card => Keeps.bind (keeps_element _ _) fun _ => ?_
  refine Keeps.ite ?_ ?_
  · refine Keeps.bind (walk.modifyGame fun _ => rfl) fun _ => ?_
    refine Keeps.bind walk.draw fun _ => Keeps.bind (walk.setCard _ _ _) fun _ => ?_
    refine Keeps.bind (walk.modifyGame fun g => ?_) fun _ => ?_
    · split_ifs <;> rfl
    · exact Keeps.bind (walk.broadcast _) fun _ => Keeps.pure _
  · refine Keeps.bind (walk.modifyGame fun _ => rfl) fun _ => ?_
    refine Keeps.bind (walk.modifyGame fun _ => rfl) fun _ => ?_
    exact Keeps.bind (walk.broadcast _) fun _ => Keeps.bind (keeps_readGame _) fun _ =>
      Keeps.bind (walk.broadcast _) fun _ => Keeps.pure _

/-- So is `discardCard`. -/
theorem discardCard_split : ∃ rest : ℤ → GameM Bool, discardCard env i = Play.chooseCard env i
      "Select a card to discard or enter -1 to change action: \n" >>= rest ∧
    ∀ cardIndex, Keeps F (rest cardIndex) := by
  refine ⟨_, rfl, fun cardIndex => Keeps.ite (Keeps.pure _) ?_⟩
  refine Keeps.bind (keeps_checked _) fun card => Keeps.bind (keeps_checked _) fun _ => ?_
  refine Keeps.bind (walk.broadcast _) fun _ => Keeps.bind (walk.modifyGame fun _ => rfl) fun _ => ?_
  refine Keeps.bind (walk.modifyGame fun _ => rfl) fun _ => Keeps.bind walk.draw fun _ => ?_
  exact Keeps.bind (walk.setCard _ _ _) fun _ => Keeps.pure _

theorem playCard : Keeps F (playCard env i) := by
  obtain ⟨rest, h, hrest⟩ := walk.playCard_split (i := i)
  rw [h]
  exact Keeps.bind (walk.chooseCard _) hrest

theorem discardCard : Keeps F (discardCard env i) := by
  obtain ⟨rest, h, hrest⟩ := walk.discardCard_split (i := i)
  rw [h]
  exact Keeps.bind (walk.chooseCard _) hrest

theorem giveHintTo (hp : Seat player) (j : ℕ) (hint : Hint) :
    Keeps F (giveHintTo env player i j hint) := by
  refine Keeps.bind (keeps_element _ _) fun hand => Keeps.ite ?_ ?_
  · exact Keeps.bind (walk.send_ hp _) fun _ => Keeps.pure _
  · refine Keeps.bind (walk.broadcast _) fun _ => ?_
    refine Keeps.bind (walk.modifyGame fun _ => rfl) fun _ => ?_
    exact Keeps.bind (walk.modifyGame fun _ => rfl) fun _ => Keeps.pure _

theorem hinteeRound (hp : Seat player) : Keeps F (hinteeRound env player i) :=
  Keeps.bind (keeps_readGame _) fun _ => Keeps.bind (walk.requestInt _ _ _ hp) fun _ =>
    Keeps.ite (Keeps.bind (walk.send_ hp _) fun _ => Keeps.pure _) (Keeps.pure _)

theorem colourRound (hp : Seat player) (j : ℕ) : Keeps F (colourRound env player i j) :=
  Keeps.bind (walk.requestInt _ _ _ hp) fun _ => Keeps.ite (Keeps.pure _) (walk.giveHintTo hp _ _)

theorem numberRound (hp : Seat player) (j : ℕ) : Keeps F (numberRound env player i j) :=
  Keeps.bind (walk.requestInt _ _ _ hp) fun _ =>
    Keeps.ite (Keeps.bind (walk.send_ hp _) fun _ => Keeps.pure _)
      (Keeps.ite (Keeps.pure _) (walk.giveHintTo hp _ _))

theorem hintDialogue (hp : Seat player) : Keeps F (hintDialogue env player i) := by
  have hprompt (msg : String) {f : PUnit → GameM Bool} (hf : Keeps F (f ⟨⟩)) :
      Keeps F (State.send_ env player.socket msg >>= f) :=
    Keeps.bind (walk.send_ hp _) fun _ => hf
  refine Keeps.bind (Keeps.untilSome (walk.hinteeRound hp)) fun hinteeIndex => ?_
  refine Keeps.ite (Keeps.pure _) (hprompt _ (hprompt _ (hprompt _ ?_)))
  refine Keeps.bind (walk.requestInt _ _ _ hp) fun hintType => Keeps.ite (Keeps.pure _) ?_
  refine Keeps.ite (hprompt _ ?_) (hprompt _ ?_)
  · exact Keeps.bind (Keeps.forM fun _ _ => walk.send_ hp _) fun _ =>
      Keeps.untilSome (walk.colourRound hp _)
  · exact Keeps.bind (Keeps.forM fun _ _ => walk.send_ hp _) fun _ =>
      Keeps.untilSome (walk.numberRound hp _)

theorem giveHint : Keeps F (giveHint env i) :=
  walk.player fun _ hp => Keeps.bind (keeps_readGame _) fun _ =>
    Keeps.ite (Keeps.bind (walk.send_ hp _) fun _ => Keeps.pure _)
      (Keeps.bind (walk.send_ hp _) fun _ => walk.hintDialogue hp)

/-- **The round of the loop of `Game::turn`.** -/
theorem turnRound : Keeps F (turnRound env i) := by
  refine Keeps.bind (walk.player fun _ hp => ?_) fun _ => Keeps.pure _
  refine Keeps.bind (walk.requestInt _ _ _ hp) fun _ => Keeps.ite walk.playCard ?_
  exact Keeps.ite walk.discardCard (Keeps.ite walk.giveHint (Keeps.throw _))

end Walk

end HanabiBot.HanabiGame.Walks
