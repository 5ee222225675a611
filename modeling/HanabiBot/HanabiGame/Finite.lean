import HanabiBot.HanabiGame.Conservation

/-! # How long a game can be

The main loop of `Game::start`, without the `return` behind its first turn: actions that return
true, each behind the game-over test (`actionStep`). A placeholder that is discarded earns a blue
token and is replaced by another one, so a game can go on for ever (`endless_discards`).

Every other action uses up some of the `potential`, which counts the real cards that are undrawn or
in a hand twice, and the tokens. So a game has at most `111` actions and two more for each
placeholder that is discarded, and games are bounded in length exactly if they are bounded in the
number of those (`bounded_iff`). -/

namespace HanabiBot.HanabiGame.Finite

open HanabiBot.Lib.Lists HanabiBot.Lib.Runs HanabiBot.Common.Messages
open HanabiBot.HanabiGame.Cards HanabiBot.HanabiGame.State HanabiBot.HanabiGame.Play
open HanabiBot.HanabiGame.Actions HanabiBot.HanabiGame.Steps HanabiBot.HanabiGame.Conservation

variable {parse : Bytes → ClientResponse} {n : ℕ} {g g' : Game} {c : Call n}

/-! ### Completed actions -/

/-- The game a call leaves if it returns true. -/
def completed : EStateM.Result Stop World Bool → Option Game
  | .ok true w => some w.game
  | _ => none

/-- One action, behind the game-over test of `Game::start`. -/
def actionStep (parse : Bytes → ClientResponse) (g : Game) (c : Call n) : Option Game :=
  match totalPts g with
  | .ok pts =>
    if pts = 25 ∨ g.numBlackFuseTokens = 0 then none else completed (c.result parse g)
  | .error _ => none

/-- The call discards a placeholder. -/
def wastes (parse : Bytes → ClientResponse) (g : Game) (c : Call n) : Bool :=
  match c.action, c.taken parse g with
  | .discard, some (_, card) => ¬ card.Real
  | _, _ => false

/-- The number of placeholders a run discards. -/
def wasted (parse : Bytes → ClientResponse) : Game → List (Call n) → ℕ :=
  sumAlong (actionStep parse) fun g c => (wastes parse g c).toNat

theorem completed_ends {o : Option Game} {b : Bool} {r : EStateM.Result Stop World Bool}
    (h : Ends o b r) (hr : completed r = some g') : b = true ∧ o = some g' := by
  match r, hr with
  | .ok true w, hr =>
    cases hr
    exact ⟨h.1.symm, h.2⟩

theorem actionStep_some (h : actionStep parse g c = some g') :
    g.numBlackFuseTokens ≠ 0 ∧ completed (c.result parse g) = some g' := by
  unfold actionStep at h
  split at h
  · split_ifs at h with hover
    exact ⟨fun hb => hover (Or.inr hb), h⟩
  · cases h

/-- **All that an action can do.** -/
theorem actionStep_cases (hg : Shape n g) (h : actionStep parse g c = some g') :
    (∃ k card, cardAt g c.player k = .ok card ∧ playMove g c.player k card = some g') ∨
      (∃ k card, c.action = .discard ∧ c.taken parse g = some (k, card) ∧
        cardAt g c.player k = .ok card ∧ g' = discarded g c.player k card) ∨
      ∃ j hint, HintAllowed g c.player j hint ∧ g' = hinted g j hint := by
  have hr := (actionStep_some h).2
  by_cases ha : c.action = .hint
  · rcases hint_ends hg.players hg.hands c ha with ⟨-, he⟩ | ⟨j, hint, -, hj, he⟩
    · cases (completed_ends he hr).1
    · exact Or.inr (Or.inr ⟨j, hint, hj, (Option.some.inj (completed_ends he hr).2).symm⟩)
  · rcases take_ends hg.players hg.hands hg.coloured c ha with ⟨-, he⟩ | ⟨k, card, -, -, hc, he⟩ |
      ⟨k, card, hact, ht, hc, w, hw, hgame⟩
    · cases (completed_ends he hr).1
    · exact Or.inl ⟨k, card, hc, (completed_ends he hr).2⟩
    · rw [hw] at hr
      exact Or.inr (Or.inl ⟨k, card, hact, ht, hc, (Option.some.inj hr).symm.trans hgame⟩)

/-- An action is one of the calls of a game. -/
theorem gameStep_of_action (h : actionStep parse g c = some g') : gameStep parse g c = some g' := by
  have hr := (actionStep_some h).2
  rw [gameStep_eq]
  match hc : c.result parse g, hr with
  | .ok true w, hr => exact hr

/-! ### The potential -/

/-- The number of real cards that are undrawn or in a hand. -/
def stock (g : Game) : ℕ := (faces g.deck.undrawn + (g.hands.map handFaces).sum).card

/-- What the actions of a game use up. -/
def potential (g : Game) : ℤ := 2 * stock g + g.numBlueTokens + g.numBlackFuseTokens

theorem card_holdings (g : Game) : (holdings g).card =
    stock g + (faces g.discardPile + (g.table.mapIdx column).sum).card := by
  unfold holdings stock
  rw [← Multiset.card_add, add_assoc]

/-- **A redraw takes the card out of the stock.** -/
theorem stock_redraw {i k : ℕ} {card : Card} (hg : Shape n g) (hc : cardAt g i k = .ok card) :
    stock (redraw g i k) + (weight card).card = stock g := by
  have hcard := congrArg Multiset.card (holdings_redraw hg hc)
  rw [Multiset.card_add, card_holdings, card_holdings] at hcard
  simp only [redraw] at hcard ⊢
  omega

theorem card_weight_real {card : Card} (h : card.Real) : (weight card).card = 1 := by
  rw [weight_real h, Multiset.card_singleton]

theorem stock_rewarded (card : Card) (g : Game) : stock (rewarded card g) = stock g := by
  unfold rewarded
  split_ifs <;> rfl

theorem rewarded_tokens (card : Card) (g : Game) :
    g.numBlueTokens ≤ (rewarded card g).numBlueTokens ∧
      (rewarded card g).numBlueTokens ≤ g.numBlueTokens + 1 ∧
        (rewarded card g).numBlackFuseTokens = g.numBlackFuseTokens := by
  unfold rewarded
  split_ifs
  · exact ⟨by simp only; omega, by simp only; omega, rfl⟩
  · exact ⟨Int.le_refl _, by omega, rfl⟩

theorem stock_hinted (g : Game) (j : ℕ) (hint : Hint) : stock (hinted g j hint) = stock g := by
  have hcard := congrArg Multiset.card (holdings_hinted g j hint)
  rw [card_holdings, card_holdings] at hcard
  simp only [hinted] at hcard ⊢
  omega

/-- What carries a game: no token is spent that is not there. -/
structure Playable (n : ℕ) (g : Game) : Prop where
  shape : Shape n g
  blue : 0 ≤ g.numBlueTokens
  black : 0 ≤ g.numBlackFuseTokens

theorem potential_played {i k : ℕ} {card : Card} (hg : Shape n g) (hc : cardAt g i k = .ok card)
    (hreal : card.Real) : potential (played g i k card) + 1 ≤ potential g := by
  have hstock := stock_redraw (hg.raised (Int.le_trans Int.one_nonneg hreal.1)) hc
  rw [card_weight_real hreal] at hstock
  obtain ⟨-, hblue, hblack⟩ := rewarded_tokens card
    (redraw { g with table := g.table.set card.colour.code card.number } i k)
  have hsame : stock { g with table := g.table.set card.colour.code card.number } = stock g := rfl
  have hblue' : (redraw { g with table := g.table.set card.colour.code card.number } i
    k).numBlueTokens = g.numBlueTokens := rfl
  have hblack' : (redraw { g with table := g.table.set card.colour.code card.number } i
    k).numBlackFuseTokens = g.numBlackFuseTokens := rfl
  unfold potential played
  rw [stock_rewarded, hblack]
  omega

theorem potential_discarded {i k : ℕ} {card : Card} (hg : Shape n g)
    (hc : cardAt g i k = .ok card) :
    potential (discarded g i k card) + 2 * (weight card).card = potential g + 1 := by
  have hstock : stock (discarded g i k card) + (weight card).card = stock g :=
    stock_redraw (g := { g with
      numBlueTokens := g.numBlueTokens + 1
      discardPile := g.discardPile ++ [card] }) { hg with } hc
  have hblue : (discarded g i k card).numBlueTokens = g.numBlueTokens + 1 := rfl
  have hblack : (discarded g i k card).numBlackFuseTokens = g.numBlackFuseTokens := rfl
  unfold potential
  omega

/-- **An action uses up one unit of the potential**, unless it discards a placeholder. -/
theorem potential_step (h : Playable n g) (hs : actionStep parse g c = some g') :
    Playable n g' ∧ potential g' + 1 ≤ potential g + (2 : ℕ) * (wastes parse g c).toNat := by
  have hshape := shape_step h.shape (gameStep_of_action hs)
  have hblack := h.black
  have hblue := h.blue
  have hopen := (actionStep_some hs).1
  rcases actionStep_cases h.shape hs with ⟨k, card, hc, hplay⟩ | ⟨k, card, ha, ht, hc, rfl⟩ |
    ⟨j, hint, hj, rfl⟩
  · rw [playMove] at hplay
    split at hplay
    · cases hplay
    · next top htop =>
      have hreal := (h.shape.table_some (h.shape.held_cardAt hc)).mp ⟨top, htop⟩
      cases hplay
      split_ifs at hshape ⊢ with hnum
      · obtain ⟨hle, -, hsame⟩ := rewarded_tokens card
          (redraw { g with table := g.table.set card.colour.code card.number } c.player k)
        have hpot := potential_played h.shape hc hreal
        refine ⟨⟨hshape, Int.le_trans hblue hle, ?_⟩, by omega⟩
        rw [played, hsame]
        exact hblack
      · refine ⟨⟨hshape, hblue, ?_⟩, ?_⟩
        · simp only [misplayed]
          omega
        · have hstock : stock (misplayed g card) = stock g := rfl
          unfold potential
          rw [hstock]
          simp only [misplayed]
          omega
  · have hpot := potential_discarded h.shape hc
    have hweight : 2 * (weight card).card + 2 * (wastes parse g c).toNat = 2 := by
      unfold wastes
      rw [ha, ht]
      rcases h.shape.held_cardAt hc with hreal | rfl
      · simp [card_weight_real hreal, hreal]
      · simp [weight_placeholder, Card.not_real_placeholder]
    refine ⟨⟨hshape, Int.le_add_one hblue, hblack⟩, by omega⟩
  · have hstock := stock_hinted g j hint
    have hne := hj.tokens
    refine ⟨⟨hshape, ?_, hblack⟩, ?_⟩
    · simp only [hinted]
      omega
    · unfold potential
      rw [hstock]
      simp only [hinted]
      omega

/-! ### Whole games -/

theorem playable_dealt (players : List Player) (sessionId : ℤ) (s : Shuffle) :
    Playable players.length (dealt players sessionId s) where
  shape := shape_dealt players sessionId s
  blue := (by decide : 0 ≤ Game.totalBlueTokens)
  black := (by decide : 0 ≤ Game.totalBlackFuseTokens)

theorem potential_dealt (players : List Player) (sessionId : ℤ) (s : Shuffle) :
    potential (dealt players sessionId s) ≤ 111 := by
  have hcard : (holdings (dealt players sessionId s)).card = 50 := by
    rw [holdings_dealt]
    rfl
  rw [card_holdings] at hcard
  have hblue : (dealt players sessionId s).numBlueTokens = 8 := rfl
  have hblack : (dealt players sessionId s).numBlackFuseTokens = 3 := rfl
  unfold potential
  omega

theorem Playable.potential_nonneg (h : Playable n g) : 0 ≤ potential g := by
  have hblue := h.blue
  have hblack := h.black
  unfold potential
  omega

/-- A game of completed actions, from the deal. -/
structure Played (parse : Bytes → ClientResponse) where
  players : List Player
  sessionId : ℤ
  shuffle : Shuffle
  calls : List (Call players.length)
  game : Game
  reached : reach (actionStep parse) (dealt players sessionId shuffle) calls = some game

namespace Played

/-- The number of placeholders the game discards. -/
def wasted (run : Played parse) : ℕ :=
  Finite.wasted parse (dealt run.players run.sessionId run.shuffle) run.calls

theorem wasted_le (run : Played parse) : run.wasted ≤ run.calls.length :=
  sumAlong_le_length (fun _ _ => Bool.toNat_le _) _ _

theorem length_le (run : Played parse) : run.calls.length ≤ 111 + 2 * run.wasted := by
  have hdealt := potential_dealt run.players run.sessionId run.shuffle
  have hend : Playable run.players.length run.game ∧ run.calls.length + potential run.game ≤
      potential (dealt run.players run.sessionId run.shuffle) + (2 : ℕ) * run.wasted :=
    length_le_of_potential (fun g c g' h hs => potential_step h hs)
      (playable_dealt run.players run.sessionId run.shuffle) run.reached
  have hnonneg := hend.1.potential_nonneg
  omega

end Played

/-- **When games are finite.** A game has at most `111` actions and two more for each placeholder it
discards; so games are bounded in length exactly if they are bounded in the number of these. -/
theorem bounded_iff (parse : Bytes → ClientResponse) :
    (∀ run : Played parse, run.calls.length ≤ 111 + 2 * run.wasted) ∧
      ∀ runs : Set (Played parse), (∃ N, ∀ run ∈ runs, run.calls.length ≤ N) ↔
        ∃ N, ∀ run ∈ runs, run.wasted ≤ N := by
  refine ⟨Played.length_le, fun runs => ⟨?_, ?_⟩⟩
  · rintro ⟨N, hN⟩
    exact ⟨N, fun run hrun => run.wasted_le.trans (hN run hrun)⟩
  · rintro ⟨N, hN⟩
    refine ⟨111 + 2 * N, fun run hrun => run.length_le.trans ?_⟩
    have := hN run hrun
    omega

/-- Discarding card `0` over and over never ends the game. -/
theorem discards_go_on (i : Fin n) : ∀ (m : ℕ) {g : Game}, Shape n g → totalPts g = .ok 0 →
    g.numBlackFuseTokens ≠ 0 → ∃ g', reach (actionStep parseOption) g
      (List.replicate m (.selecting .discard i 0)) = some g'
  | 0, g, _, _, _ => ⟨g, rfl⟩
  | m + 1, g, hg, hpts, hblack => by
    obtain ⟨card, -, -, w, hw, hgame⟩ := discard_selecting hg i
    have hs : actionStep parseOption g (.selecting .discard i 0) = some (discarded g i 0 card) := by
      unfold actionStep
      rw [hpts, hw, ← hgame]
      exact if_neg (not_or.mpr ⟨by decide, hblack⟩)
    rw [List.replicate_succ, reach, hs]
    exact discards_go_on i m (hg.discarded i 0 card) hpts hblack

/-- The first player of two discards for ever. -/
theorem endless_discards : ¬ ∃ N, ∀ run : Played parseOption, 2 ≤ run.players.length →
    run.players.length ≤ 5 → run.calls.length ≤ N := by
  rintro ⟨N, hN⟩
  obtain ⟨game, hgame⟩ := discards_go_on (n := 2) 0 (N + 1)
    (shape_dealt (guests 2) 0 Shuffle.unshuffled) rfl (by decide)
  have htwo : (guests 2).length = 2 := rfl
  have hle : (List.replicate (N + 1) (Call.selecting .discard (0 : Fin 2) 0)).length ≤ N :=
    hN ⟨guests 2, 0, Shuffle.unshuffled, _, game, hgame⟩ (Nat.le_of_eq htwo.symm)
      (htwo.trans_le (by decide))
  rw [List.length_replicate] at hle
  omega

end HanabiBot.HanabiGame.Finite
