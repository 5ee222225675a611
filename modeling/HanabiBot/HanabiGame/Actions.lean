import HanabiBot.Lib.Runs
import HanabiBot.HanabiGame.Dialogue

/-! # What an action does to the game

An action talks to its player and then changes the game in one of four ways: `played`, `misplayed`,
`discarded`, `hinted`. For the two that take a card, the answer that counts (`pick`) decides which
card is taken, and what happens to the game is `playMove` or `discarded` of it (`playCard_ends`,
`discardCard_ends`). -/

namespace HanabiBot.HanabiGame.Actions

open HanabiBot.Lib.Calls HanabiBot.Common.Messages
open HanabiBot.HanabiGame.Cards HanabiBot.HanabiGame.State HanabiBot.HanabiGame.Play
open HanabiBot.HanabiGame.Dialogue

/-! ### The four changes -/

/-- Draws a card into the hand of player `i`, in the place of card `k`. -/
def redraw (g : Game) (i k : ℕ) : Game :=
  { g with
    deck := g.deck.draw.2
    hands := g.hands.modify i fun hand => hand.set k g.deck.draw.1 }

/-- The reward for a five. -/
def rewarded (card : Card) (g : Game) : Game :=
  if card.number = 5 ∧ g.numBlueTokens < Game.totalBlueTokens then
    { g with numBlueTokens := g.numBlueTokens + 1 }
  else g

/-- The game after card `k` of player `i` was played onto the table. -/
def played (g : Game) (i k : ℕ) (card : Card) : Game :=
  rewarded card (redraw { g with table := g.table.set card.colour.code card.number } i k)

/-- The game after a card that does not fit was played: it goes to the discard pile, and the hand
it came from is not touched. -/
def misplayed (g : Game) (card : Card) : Game :=
  { g with
    numBlackFuseTokens := g.numBlackFuseTokens - 1
    discardPile := g.discardPile ++ [card] }

/-- The game after card `k` of player `i` was discarded. -/
def discarded (g : Game) (i k : ℕ) (card : Card) : Game :=
  redraw { g with
    numBlueTokens := g.numBlueTokens + 1
    discardPile := g.discardPile ++ [card] } i k

/-- The game after a hint to player `j`. -/
def hinted (g : Game) (j : ℕ) (hint : Hint) : Game :=
  { g with
    numBlueTokens := g.numBlueTokens - 1
    hands := g.hands.modify j (revealHand hint) }

/-- The card is the next one of its colour. -/
def Fits (g : Game) (card : Card) : Prop :=
  ∃ top, g.table[card.colour.code]? = some top ∧ top + 1 = card.number

instance (g : Game) (card : Card) : Decidable (Fits g card) :=
  decidable_of_iff (g.table[card.colour.code]?.any fun top => top + 1 = card.number) (by
    simp [Fits, Option.any_eq_true])

/-- Plays `card`, the card `k` of player `i`; undefined if the table has no place for its colour. -/
def playMove (g : Game) (i k : ℕ) (card : Card) : Option Game :=
  match g.table[card.colour.code]? with
  | none => none
  | some top => some (if top + 1 = card.number then played g i k card else misplayed g card)

/-- What `giveHint` of player `i` checks before it gives a hint. -/
structure HintAllowed (g : Game) (i j : ℕ) (hint : Hint) : Prop where
  tokens : g.numBlueTokens ≠ 0
  other : j ≠ i
  seated : j < g.numPlayers
  named : ∃ hand, g.hands[j]? = some hand ∧ ∃ card ∈ hand, hint.targets card = true

/-- No card in a hand has the count `numColours` for a colour: `Card::getColourString` asserts it.
-/
def Coloured (g : Game) : Prop := ∀ hand ∈ g.hands, ∀ card ∈ hand, card.colour ≠ .numColours

/-! ### Taking a card -/

/-- The game a call leaves; `none` if what the source does is undefined. -/
def outcome {α : Type} : EStateM.Result Stop World α → Option Game
  | .ok _ w => some w.game
  | .error (.exn _) w => some w.game
  | .error _ _ => none

/-- The card of player `i` that the responses select, by its index, and the writes made by then. -/
def pick (env : Env) (g : Game) (i n : ℕ) (responses : List Bytes) : Option (ℕ × ℕ) :=
  match g.players[i]?, g.hands[i]? with
  | some player, some hand =>
    match answer env player.socket (-1) (hand.length - 1) (n + 1) responses with
    | some (v, m) => if v = -1 then none else some (v.toNat, m)
    | none => none
  | _, _ => none

/-- The call leaves the game `o`, and returns `b` if it returns. It fails with an exception, or
outside of a vector if `o` is undefined. -/
def Ends (o : Option Game) (b : Bool) : EStateM.Result Stop World Bool → Prop
  | .ok b' w => b' = b ∧ o = some w.game
  | .error (.exn _) w => o = some w.game
  | .error (.fault .outOfRange) _ => o = none
  | .error _ _ => False

theorem Ends.outcome_eq {o : Option Game} {b : Bool} {r : EStateM.Result Stop World Bool}
    (h : Ends o b r) : outcome r = o := by
  cases r with
  | ok b' w => exact h.2.symm
  | error e w =>
    cases e with
    | exn x => exact Eq.symm h
    | fault f =>
      cases f with
      | outOfRange => exact Eq.symm h
      | assertion => exact False.elim h
    | outOfFuel => exact False.elim h

/-- A call that talks, and then returns. -/
theorem ends_of_talks {α : Type} {p : GameM α} (h : Talks p) (b : Bool) (w : World) :
    Ends (some w.game) b ((p >>= fun _ => pure b).run w) :=
  h.bind_rule (P := Ends (some w.game) b) (fun _ _ _ hg => ⟨rfl, congrArg some hg.symm⟩)
    fun _ _ hg => congrArg some hg.symm

theorem cardAt_ok {g : Game} {i k : ℕ} {card : Card} (h : cardAt g i k = .ok card) :
    ∃ hand, g.hands[i]? = some hand ∧ hand[k]? = some card := by
  unfold cardAt at h
  split at h
  · next hand hh =>
    split at h
    · next c hc =>
      cases h
      exact ⟨hand, hh, hc⟩
    · cases h
  · cases h

theorem cardAt_of {g : Game} {i k : ℕ} {hand : List Card} {card : Card}
    (hh : g.hands[i]? = some hand) (hc : hand[k]? = some card) : cardAt g i k = .ok card := by
  unfold cardAt
  simp only [hh, hc]

/-- The card a redraw puts into the hand. -/
theorem cardAt_redraw {g : Game} {i k : ℕ} {card : Card} (h : cardAt g i k = .ok card) :
    cardAt (redraw g i k) i k = .ok g.deck.draw.1 := by
  obtain ⟨hand, hh, hk⟩ := cardAt_ok h
  have hset : (redraw g i k).hands[i]? = some (hand.set k g.deck.draw.1) := by
    rw [redraw, List.getElem?_modify_eq, hh]
    rfl
  exact cardAt_of hset (List.getElem?_set_self (List.getElem?_eq_some_iff.mp hk).1)

theorem run_draw (w : World) :
    draw.run w = .ok w.game.deck.draw.1 { w with game := { w.game with deck := w.game.deck.draw.2 } } :=
  rfl

section Outcomes
variable {i : ℕ} {w : World} {player : Player} {hand : List Card}

/-- What `chooseCard` comes to, as `pick` tells it. -/
theorem chooseCard_cases (env : Env) (hp : w.game.players[i]? = some player)
    (hh : w.game.hands[i]? = some hand) (prompt : String) :
    (pick env w.game i w.writes w.inbox = none ∧ ∃ w', w'.game = w.game ∧
        ((∃ x, (chooseCard env i prompt).run w = .error (.exn x) w') ∨
          (chooseCard env i prompt).run w = .ok (-1) w')) ∨
      ∃ (k m : ℕ) (card : Card) (w' : World), pick env w.game i w.writes w.inbox = some (k, m) ∧
        cardAt w.game i k = .ok card ∧ (chooseCard env i prompt).run w = .ok (k : ℤ) w' ∧
          w'.game = w.game ∧ w'.writes = m := by
  unfold chooseCard pick
  simp only [hp, hh]
  rw [bind_ok (run_element hp), bind_ok (run_send_ env w _ _)]
  -- the world in which `requestInt` starts
  generalize hw1 : ({ w with writes := w.writes + 1, out := _ } : World) = w1
  have hg1 : w1.game = w.game := by rw [← hw1]
  have hn1 : w1.writes = w.writes + 1 := by rw [← hw1]
  have hi1 : w1.inbox = w.inbox := by rw [← hw1]
  rw [bind_ok (run_element (hg1.symm ▸ hh)), ← hn1, ← hi1]
  have ht := talks_requestInt env (-1) (hand.length - 1) "invalid card selected!\n" player
  cases ha : answer env player.socket (-1) (hand.length - 1) w1.writes w1.inbox with
  | none =>
    obtain ⟨e, w', hr⟩ := requestInt_none "invalid card selected!\n" rfl ha
    obtain ⟨⟨x, rfl⟩, hg⟩ := ht.of_error hr
    exact Or.inl ⟨rfl, w', hg.trans hg1, Or.inl ⟨x, hr⟩⟩
  | some vm =>
    obtain ⟨v, m⟩ := vm
    obtain ⟨w', hr, hm⟩ := requestInt_some "invalid card selected!\n" rfl ha
    have hg := (ht.of_ok hr).trans hg1
    obtain ⟨h1, h2⟩ := answer_range ha
    by_cases hv : v = -1
    · subst hv
      exact Or.inl ⟨rfl, w', hg, Or.inr hr⟩
    · obtain ⟨k, rfl⟩ : ∃ k : ℕ, v = k := ⟨v.toNat, by omega⟩
      have hk : k < hand.length := by omega
      exact Or.inr ⟨k, m, hand[k], w', if_neg hv, cardAt_of hh (List.getElem?_eq_getElem hk), hr,
        hg, hm⟩

/-- **`playCard` is decided by the card it is told to take.** -/
theorem playCard_ends (env : Env) (hp : w.game.players[i]? = some player)
    (hh : w.game.hands[i]? = some hand) :
    pick env w.game i w.writes w.inbox = none ∧ Ends (some w.game) false ((playCard env i).run w) ∨
      ∃ k m card, pick env w.game i w.writes w.inbox = some (k, m) ∧
        cardAt w.game i k = .ok card ∧
          Ends (playMove w.game i k card) true ((playCard env i).run w) := by
  unfold playCard
  rcases chooseCard_cases env hp hh
    "Select a card to play or enter -1 to change action: \n" with
    ⟨hn, w', hg, ⟨x, hr⟩ | hr⟩ | ⟨k, m, card, w', hk, hc, hr, hg, -⟩
  · refine Or.inl ⟨hn, ?_⟩
    rw [bind_error hr]
    exact congrArg some hg.symm
  · refine Or.inl ⟨hn, ?_⟩
    rw [bind_ok hr, if_pos rfl]
    exact ⟨rfl, congrArg some hg.symm⟩
  · refine Or.inr ⟨k, m, card, hk, hc, ?_⟩
    rw [bind_ok hr, if_neg (by omega), Int.toNat_natCast, getCard,
      bind_ok (run_checked_ok (hg.symm ▸ hc)), playMove]
    cases ht : w.game.table[card.colour.code]? with
    | none =>
      rw [bind_error (run_element_none (hg.symm ▸ ht))]
      rfl
    | some top =>
      rw [bind_ok (run_element (hg.symm ▸ ht)), ← hg]
      simp only
      split_ifs with hf
      · rw [bind_ok (run_modifyGame _ _), bind_ok (run_draw _), setCard,
          bind_ok (run_modifyGame _ _), bind_ok (run_modifyGame _ _)]
        exact ends_of_talks (talks_broadcast env _) true _
      · rw [bind_ok (run_modifyGame _ _), bind_ok (run_modifyGame _ _)]
        have htalks : Talks (do
            broadcast env ("Player " ++ toString i ++ " played " ++ card.fullRepr ++
              " incorrectly!\n")
            let remaining ← readGame Game.numBlackFuseTokens
            broadcast env ("Black Fuse Token used! Remaining: " ++ toString remaining ++ "\n")) :=
          Talks.bind (talks_broadcast env _) fun _ =>
            Talks.bind (talks_readGame _) fun _ => talks_broadcast env _
        have hends := ends_of_talks htalks true { w' with game := misplayed w'.game card }
        simp only [bind_assoc] at hends
        exact hends

/-- **`discardCard` is decided by the card it is told to take**, and by whether everyone hears its
announcement: else it throws before it takes the card. -/
theorem discardCard_ends (env : Env) (hp : w.game.players[i]? = some player)
    (hh : w.game.hands[i]? = some hand) (hcol : Coloured w.game) :
    pick env w.game i w.writes w.inbox = none ∧
        Ends (some w.game) false ((discardCard env i).run w) ∨
      ∃ k m card, pick env w.game i w.writes w.inbox = some (k, m) ∧
        cardAt w.game i k = .ok card ∧
          (heard env m w.game.players = true ∧ (∃ w', (discardCard env i).run w = .ok true w' ∧
              w'.game = discarded w.game i k card) ∨
            heard env m w.game.players = false ∧
              Ends (some w.game) false ((discardCard env i).run w)) := by
  unfold discardCard
  rcases chooseCard_cases env hp hh
    "Select a card to discard or enter -1 to change action: \n" with
    ⟨hn, w', hg, ⟨x, hr⟩ | hr⟩ | ⟨k, m, card, w', hk, hc, hr, hg, hm⟩
  · refine Or.inl ⟨hn, ?_⟩
    rw [bind_error hr]
    exact congrArg some hg.symm
  · refine Or.inl ⟨hn, ?_⟩
    rw [bind_ok hr, if_pos rfl]
    exact ⟨rfl, congrArg some hg.symm⟩
  · refine Or.inr ⟨k, m, card, hk, hc, ?_⟩
    have hk0 : ¬ (k : ℤ) = -1 := by omega
    have hcard : card ∈ hand := by
      obtain ⟨hand', hh', hk'⟩ := cardAt_ok hc
      cases hh.symm.trans hh'
      exact List.mem_of_getElem? hk'
    have hshown : shown Card.fullRepr card = .ok card.fullRepr :=
      if_neg (hcol hand (List.mem_of_getElem? hh) card hcard)
    rw [bind_ok hr, if_neg hk0, Int.toNat_natCast, getCard,
      bind_ok (run_checked_ok (hg.symm ▸ hc)), bind_ok (run_checked_ok hshown), ← hg, ← hm]
    have hb := broadcast_heard env
      ("Player " ++ toString i ++ " discarded " ++ card.fullRepr ++ "\n") w'
    have ht := talks_broadcast env
      ("Player " ++ toString i ++ " discarded " ++ card.fullRepr ++ "\n")
    by_cases ha : heard env w'.writes w'.game.players = true
    · rw [if_pos ha] at hb
      obtain ⟨w2, hb, -⟩ := hb
      have hg2 := ht.of_ok hb
      refine Or.inl ⟨ha, ?_⟩
      rw [bind_ok hb, bind_ok (run_modifyGame _ _), bind_ok (run_modifyGame _ _),
        bind_ok (run_draw _), setCard, bind_ok (run_modifyGame _ _), ← hg2]
      exact ⟨_, rfl, rfl⟩
    · rw [if_neg ha] at hb
      obtain ⟨e, w2, hb⟩ := hb
      obtain ⟨⟨x, rfl⟩, hg2⟩ := ht.of_error hb
      rw [bind_error hb]
      exact Or.inr ⟨Bool.not_eq_true _ ▸ ha, congrArg some hg2.symm⟩

end Outcomes

end HanabiBot.HanabiGame.Actions
