import HanabiBot.Lib.Runs
import HanabiBot.HanabiGame.Steps

/-! # Tokens and placeholders

What `Game::playCard` and `Game::discardCard` leave unchecked.

* A discard gives back a blue token without a look at `totalBlueTokens`. The token bounds hold along
  a game exactly if no card is discarded while all blue tokens are there (`tokens_bounded_iff`).
* The placeholder of a drawn-out deck can be selected like any card. The game stays in order exactly
  if none ever is (`placeholder_safe_iff`): played, it is looked up behind the end of the table;
  discarded, it lands on the pile and earns a token. -/

namespace HanabiBot.HanabiGame.Bounds

open HanabiBot.Lib.Runs HanabiBot.Common.Messages
open HanabiBot.HanabiGame.Cards HanabiBot.HanabiGame.State HanabiBot.HanabiGame.Play
open HanabiBot.HanabiGame.Actions HanabiBot.HanabiGame.Steps

variable {parse : Bytes → ClientResponse} {n : ℕ} {g g' : Game} {c : Call n}

/-! ### Tokens -/

structure TokensBounded (g : Game) : Prop where
  blue_nonneg : 0 ≤ g.numBlueTokens
  blue_le : g.numBlueTokens ≤ Game.totalBlueTokens
  black_nonneg : 0 ≤ g.numBlackFuseTokens
  black_le : g.numBlackFuseTokens ≤ Game.totalBlackFuseTokens

/-- A call made under the game-over test of `Game::start`. -/
def openStep (parse : Bytes → ClientResponse) (g : Game) (c : Call n) : Option Game :=
  if g.numBlackFuseTokens = 0 then none else gameStep parse g c

/-- If the call discards a card, a blue token is missing. -/
def DiscardsBelowCap (parse : Bytes → ClientResponse) (g : Game) (c : Call n) : Prop :=
  g.numBlackFuseTokens ≠ 0 → c.action = .discard → c.taken parse g ≠ none →
    g.numBlueTokens < Game.totalBlueTokens

theorem openStep_some (h : openStep parse g c = some g') :
    g.numBlackFuseTokens ≠ 0 ∧ gameStep parse g c = some g' := by
  unfold openStep at h
  split_ifs at h with hb
  exact ⟨hb, h⟩

theorem tokens_played (h : TokensBounded g) (i k : ℕ) (card : Card) :
    TokensBounded (played g i k card) := by
  unfold played rewarded
  split_ifs with hr
  · exact { h with
      blue_nonneg := Int.le_add_one h.blue_nonneg
      blue_le := hr.2 }
  · exact { h with }

theorem tokens_step (hg : Shape n g) (h : TokensBounded g) (hC : DiscardsBelowCap parse g c)
    (hs : openStep parse g c = some g') : TokensBounded g' := by
  obtain ⟨hblack, hs⟩ := openStep_some hs
  rcases gameStep_cases hg.players hg.hands hg.coloured c with ⟨-, he⟩ | ⟨k, card, -, -, -, he⟩ |
    ⟨k, card, ha, ht, -, he⟩ | ⟨j, hint, -, hj, he⟩
  · cases hs.symm.trans he
    exact h
  · rw [he, playMove] at hs
    split at hs
    · cases hs
    · cases hs
      have h0 := h.black_nonneg
      have h3 := h.black_le
      split_ifs
      · exact tokens_played h _ _ _
      · exact { h with
          black_nonneg := by simp only [misplayed]; omega
          black_le := by simp only [misplayed]; omega }
  · cases hs.symm.trans he
    have hcap := hC hblack ha (by rw [ht]; exact Option.some_ne_none _)
    exact { h with
      blue_nonneg := Int.le_add_one h.blue_nonneg
      blue_le := hcap }
  · cases hs.symm.trans he
    have h0 := h.blue_nonneg
    have h8 := h.blue_le
    have hne := hj.tokens
    exact { h with
      blue_nonneg := by simp only [hinted]; omega
      blue_le := by simp only [hinted]; omega }

/-- A discard with all blue tokens there makes one too many. -/
theorem tokens_exceeded (parse : Bytes → ClientResponse) (hg : Shape n g)
    (hC : ¬ DiscardsBelowCap parse g c) : ∃ g', openStep parse g c = some g' ∧ ¬ TokensBounded g' := by
  unfold DiscardsBelowCap at hC
  push Not at hC
  obtain ⟨hblack, ha, ht, hfull⟩ := hC
  rw [openStep, if_neg hblack]
  rcases gameStep_cases hg.players hg.hands hg.coloured c with ⟨hn, -⟩ | ⟨k, card, hplay, -⟩ |
    ⟨k, card, -, -, -, he⟩ | ⟨j, hint, hn, -⟩
  · exact absurd hn ht
  · cases ha.symm.trans hplay
  · refine ⟨_, he, fun h => ?_⟩
    have h8 : g.numBlueTokens + 1 ≤ Game.totalBlueTokens := h.blue_le
    omega
  · exact absurd hn ht

theorem tokens_dealt (players : List Player) (sessionId : ℤ) (s : Shuffle) :
    TokensBounded (dealt players sessionId s) where
  blue_nonneg := (by decide : 0 ≤ Game.totalBlueTokens)
  blue_le := Int.le_refl _
  black_nonneg := (by decide : 0 ≤ Game.totalBlackFuseTokens)
  black_le := Int.le_refl _

/-- **When the tokens stay within their bounds**: exactly if no card is discarded while all blue
tokens are there. -/
theorem tokens_bounded_iff (parse : Bytes → ClientResponse) (players : List Player)
    (sessionId : ℤ) (s : Shuffle) (calls : List (Call players.length)) :
    States (openStep parse) TokensBounded (dealt players sessionId s) calls ↔
      Along (openStep parse) (DiscardsBelowCap parse) (dealt players sessionId s) calls := by
  refine states_iff (I := fun g => Shape players.length g ∧ TokensBounded g) ?_ ?_ ?_
    ⟨shape_dealt players sessionId s, tokens_dealt players sessionId s⟩ calls
  · intro g c g' ⟨hg, hb⟩ hC hs
    exact ⟨shape_step hg (openStep_some hs).2, tokens_step hg hb hC hs⟩
  · intro g h
    exact h.2
  · intro g c h hC
    exact tokens_exceeded parse h.1 hC

/-- A discard in the first turn makes nine blue tokens. -/
theorem tokens_first_discard : ¬ States (openStep parseOption) TokensBounded
    (dealt (guests 2) 0 Shuffle.unshuffled) [(.selecting .discard 0 0 : Call 2)] := by
  intro h
  obtain ⟨g', hs, hn⟩ := tokens_exceeded parseOption (shape_dealt (guests 2) 0 Shuffle.unshuffled)
    (c := (.selecting .discard 0 0 : Call 2)) fun hC => absurd (hC (by decide) rfl (by decide)) (by decide)
  exact hn (h.2.1 g' hs)

/-! ### Placeholders -/

/-- What is promised of a call: it is defined, the discard pile holds real cards only, and a blue
token is earned with a real card. -/
structure PlaceholderSafe (parse : Bytes → ClientResponse) (g : Game) (c : Call n) : Prop where
  defined : gameStep parse g c ≠ none
  pile : ∀ g', gameStep parse g c = some g' → ∀ card ∈ g'.discardPile, card.Real
  earned : ∀ g', gameStep parse g c = some g' → g.numBlueTokens < g'.numBlueTokens →
    ∃ k card, c.taken parse g = some (k, card) ∧ card.Real

/-- If the call takes a card, it is a real one. -/
def TakesReal (parse : Bytes → ClientResponse) (g : Game) (c : Call n) : Prop :=
  ∀ k card, c.taken parse g = some (k, card) → card.Real

/-- The discard pile holds real cards only. -/
def PileReal (g : Game) : Prop := ∀ card ∈ g.discardPile, card.Real

theorem pileReal_append {l : List Card} {card : Card} (h : ∀ c ∈ l, c.Real) (hc : card.Real) :
    ∀ c ∈ l ++ [card], c.Real := by
  intro c hmem
  rcases List.mem_append.mp hmem with hmem | hmem
  · exact h c hmem
  · exact List.mem_singleton.mp hmem ▸ hc

theorem played_discardPile (g : Game) (i k : ℕ) (card : Card) :
    (played g i k card).discardPile = g.discardPile := by
  unfold played rewarded
  split_ifs <;> rfl

theorem pileReal_step (hg : Shape n g) (h : PileReal g) (hC : TakesReal parse g c)
    (hs : gameStep parse g c = some g') : PileReal g' := by
  rcases gameStep_cases hg.players hg.hands hg.coloured c with ⟨-, he⟩ | ⟨k, card, -, ht, -, he⟩ |
    ⟨k, card, -, ht, -, he⟩ | ⟨j, hint, -, -, he⟩
  · cases hs.symm.trans he
    exact h
  · rw [he, playMove] at hs
    split at hs
    · cases hs
    · cases hs
      unfold PileReal
      split_ifs
      · rw [played_discardPile]
        exact h
      · exact pileReal_append h (hC k card ht)
  · cases hs.symm.trans he
    exact pileReal_append h (hC k card ht)
  · cases hs.symm.trans he
    exact h

/-- A call that takes no placeholder keeps the promises. -/
theorem placeholderSafe_of_real (hg : Shape n g) (h : PileReal g) (hC : TakesReal parse g c) :
    PlaceholderSafe parse g c := by
  refine ⟨?_, fun g' => pileReal_step hg h hC, fun g' hs hblue => ?_⟩
  · rcases gameStep_cases hg.players hg.hands hg.coloured c with ⟨-, he⟩ | ⟨k, card, -, ht, hc, he⟩ |
      ⟨k, card, -, -, -, he⟩ | ⟨j, hint, -, -, he⟩
    · rw [he]; exact Option.some_ne_none _
    · obtain ⟨top, htop⟩ := (hg.table_some (hg.held_cardAt hc)).mpr (hC k card ht)
      rw [he, playMove, htop]
      exact Option.some_ne_none _
    · rw [he]; exact Option.some_ne_none _
    · rw [he]; exact Option.some_ne_none _
  · rcases gameStep_cases hg.players hg.hands hg.coloured c with ⟨-, he⟩ | ⟨k, card, -, ht, -, -⟩ |
      ⟨k, card, -, ht, -, -⟩ | ⟨j, hint, -, -, he⟩
    · cases hs.symm.trans he
      exact absurd hblue (Int.lt_irrefl _)
    · exact ⟨k, card, ht, hC k card ht⟩
    · exact ⟨k, card, ht, hC k card ht⟩
    · cases hs.symm.trans he
      simp only [hinted] at hblue
      omega

/-- A call that takes a placeholder breaks one. -/
theorem not_placeholderSafe (hg : Shape n g) (hC : ¬ TakesReal parse g c) :
    ¬ PlaceholderSafe parse g c := by
  unfold TakesReal at hC
  push Not at hC
  obtain ⟨k, card, ht, hnot⟩ := hC
  intro hs
  rcases gameStep_cases hg.players hg.hands hg.coloured c with ⟨hn, -⟩ | ⟨k', card', -, ht', hc, he⟩ |
    ⟨k', card', -, ht', -, he⟩ | ⟨j, hint, hn, -⟩
  · cases ht.symm.trans hn
  · cases ht.symm.trans ht'
    cases htop : g.table[card.colour.code]? with
    | none => exact hs.defined (by rw [he, playMove, htop])
    | some top => exact hnot ((hg.table_some (hg.held_cardAt hc)).mp ⟨top, htop⟩)
  · cases ht.symm.trans ht'
    exact hnot (hs.pile _ he card (List.mem_append_right _ (List.mem_singleton_self card)))
  · cases ht.symm.trans hn

/-- **When a drawn-out deck is harmless**: exactly if no call takes a placeholder. -/
theorem placeholder_safe_iff (parse : Bytes → ClientResponse) (players : List Player)
    (sessionId : ℤ) (s : Shuffle) (calls : List (Call players.length)) :
    Along (gameStep parse) (PlaceholderSafe parse) (dealt players sessionId s) calls ↔
      Along (gameStep parse) (TakesReal parse) (dealt players sessionId s) calls := by
  refine along_iff (I := fun g => Shape players.length g ∧ PileReal g) ?_ ?_
    ⟨shape_dealt players sessionId s, fun _ hc => absurd hc List.not_mem_nil⟩ calls
  · intro g c g' ⟨hg, hp⟩ hC hs
    exact ⟨shape_step hg hs, pileReal_step hg hp hC hs⟩
  · intro g c ⟨hg, hp⟩
    refine ⟨fun hsafe => ?_, placeholderSafe_of_real hg hp⟩
    by_contra hC
    exact not_placeholderSafe hg hC hsafe

/-- Discarding card `0` over and over comes to the placeholder. -/
theorem discards_run_out (i : Fin n) : ∀ (m : ℕ) {g : Game}, Shape n g →
    g.deck.undrawn.length = m → ¬ Along (gameStep parseOption) (PlaceholderSafe parseOption) g
      (List.replicate (m + 2) (.selecting .discard i 0)) := by
  have hfirst : ∀ {g : Game}, Shape n g → ∃ card, cardAt g i 0 = .ok card ∧
      (Call.selecting .discard i 0).taken parseOption g = some (0, card) ∧
        gameStep parseOption g (.selecting .discard i 0) = some (discarded g i 0 card) := by
    intro g hg
    obtain ⟨card, hc, ht, w, hw, hgame⟩ := discard_selecting hg i
    refine ⟨card, hc, ht, ?_⟩
    rw [gameStep_eq, hw, ← hgame]
    rfl
  intro m
  induction m with
  | zero =>
    intro g hg hm hsafe
    obtain ⟨card, hc, -, hs⟩ := hfirst hg
    have hg' := hg.discarded i 0 card
    obtain ⟨card', hc', ht', -⟩ := hfirst hg'
    have hempty : g.deck.draw.1 = Card.placeholder := by
      rcases g.deck.draw_cases with hd | ⟨-, hd⟩
      · rw [hd] at hm
        cases hm
      · rw [hd]
    have hnew := cardAt_redraw (g := { g with
      numBlueTokens := g.numBlueTokens + 1
      discardPile := g.discardPile ++ [card] }) hc
    cases hc'.symm.trans hnew
    refine not_placeholderSafe hg' (fun hreal => ?_) (hsafe.2 _ hs).1
    have := hreal 0 _ ht'
    rw [hempty] at this
    exact Card.not_real_placeholder this
  | succ m ih =>
    intro g hg hm hsafe
    obtain ⟨card, -, -, hs⟩ := hfirst hg
    refine ih (hg.discarded i 0 card) ?_ (hsafe.2 _ hs)
    rcases g.deck.draw_cases with hd | ⟨hd, -⟩
    · rw [hd] at hm
      exact Nat.succ.inj hm
    · rw [hd] at hm
      cases hm

/-- Forty discards empty the deck of two players; two more discard a placeholder. -/
theorem placeholder_discarded : ¬ Along (gameStep parseOption) (PlaceholderSafe parseOption)
    (dealt (guests 2) 0 Shuffle.unshuffled)
      (List.replicate 42 (.selecting .discard 0 0 : Call 2)) :=
  discards_run_out (n := 2) 0 40 (shape_dealt (guests 2) 0 Shuffle.unshuffled) (by decide)

end HanabiBot.HanabiGame.Bounds
