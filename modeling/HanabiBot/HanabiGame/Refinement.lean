import HanabiBot.Lib.Simulation
import HanabiBot.HanabiGame.Positions

/-! # The game against the rules

`seen` is the move of the rules that a call makes, if it makes one.

The server does not keep to the rules by itself: a card that does not fit stays in its hand when it
is played, a discard is taken while no clue is missing, and a placeholder is taken like a card.
`Lawful` rules out these three, and nothing else: the rules are followed along a game exactly if every
call is lawful (`follows_rules_iff`). What is seen of a lawful game is then a game of Hanabi
(`lawful_game`), and so what is lost in it stays out of reach (`lawful_lost`). -/

namespace HanabiBot.HanabiGame.Refinement

open HanabiBot.Lib.Runs HanabiBot.Lib.Simulation HanabiBot.Common.Messages
open HanabiBot.HanabiGame.Cards HanabiBot.HanabiGame.State HanabiBot.HanabiGame.Play
open HanabiBot.HanabiGame.Actions HanabiBot.HanabiGame.Hints HanabiBot.HanabiGame.Steps
open HanabiBot.HanabiGame.Rules HanabiBot.HanabiGame.Positions

section Seen
variable (parse : Bytes → ClientResponse) {n : ℕ}

/-- The move a call makes. -/
def seen (g : Game) (c : Call n) : Option (Move Suit n) :=
  match c.taken parse g with
  | some (_, card) => (suited card).map fun f =>
    if c.action = .play then .play c.player f else .discard c.player f
  | none =>
    match c.named parse g with
    | some (j, hint) => if h : j < n then (about hint).map (.clue c.player ⟨j, h⟩) else none
    | none => none

/-- If the call takes a card, it is a real one; if it plays it, it is the next of its colour; if it
discards it, a blue token is missing. -/
def Lawful (g : Game) (c : Call n) : Prop :=
  ∀ k card, c.taken parse g = some (k, card) → card.Real ∧ (c.action = .play → Fits g card) ∧
    (c.action = .discard → g.numBlueTokens < Game.totalBlueTokens)

instance (g : Game) (c : Call n) : Decidable (Lawful parse g c) :=
  match h : c.taken parse g with
  | none => isTrue fun _ _ ht => by cases h.symm.trans ht
  | some (k, card) => decidable_of_iff (card.Real ∧ (c.action = .play → Fits g card) ∧
      (c.action = .discard → g.numBlueTokens < Game.totalBlueTokens))
    ⟨fun hc _ _ ht => by cases h.symm.trans ht; exact hc, fun hl => hl k card h⟩

/-- The call is defined, and makes no move or one that the rules allow. -/
def FollowsRules (g : Game) (c : Call n) : Prop :=
  ∃ g', gameStep parse g c = some g' ∧ (position n g' = position n g ∨
    ∃ m, move limits (position n g) m = some (position n g'))

end Seen

/-! ### Step by step -/

section Step
variable {parse : Bytes → ClientResponse} {n : ℕ} {g g' : Game} {c : Call n}

/-- What lawful calls keep. -/
structure Lively (n : ℕ) (g : Game) : Prop where
  shape : Shape n g
  blue_nonneg : 0 ≤ g.numBlueTokens
  blue_le : g.numBlueTokens ≤ Game.totalBlueTokens

theorem seen_take {k : ℕ} {card : Card} {f : Suit × ℕ} (ht : c.taken parse g = some (k, card))
    (hf : suited card = some f) : seen parse g c =
      some (if c.action = .play then .play c.player f else .discard c.player f) := by
  simp only [seen, ht, hf, Option.map_some]

theorem seen_none (ht : c.taken parse g = none) (hn : c.named parse g = none) :
    seen parse g c = none := by
  simp only [seen, ht, hn]

/-- The hint that a call gives is a clue. -/
theorem hint_explained (h : Lively n g) {j : ℕ} {hint : Hint}
    (hn : c.named parse g = some (j, hint)) (hj : HintAllowed g c.player j hint) :
    Explains (move limits) (position n) (seen parse g c) g (hinted g j hint) := by
  have ha : c.action = .hint := by
    by_contra ha
    rw [named_take ha] at hn
    cases hn
  have hranged : Ranged hint := by
    unfold Call.named at hn
    rw [ha] at hn
    simp only at hn
    split at hn
    · next given w' hr =>
      subst hn
      exact namedHint_ranged hr
    · cases hn
  have hlt : j < n := by
    have hs := hj.seated
    rwa [Game.numPlayers, h.shape.players] at hs
  obtain ⟨a, hab, htargets⟩ := about_ranged hranged
  have hseen : seen parse g c = some (.clue c.player ⟨j, hlt⟩ a) := by
    simp only [seen, taken_hint ha, hn, dif_pos hlt, hab, Option.map_some]
  have hnamed : (position n g).Named ⟨j, hlt⟩ a := by
    obtain ⟨hand, hh, card, hcard, ht⟩ := hj.named
    obtain ⟨f, hf, hname⟩ :=
      (htargets card (h.shape.held hand (List.mem_of_getElem? hh) card hcard)).mp ht
    refine ⟨f, ?_, hname⟩
    simp only [position, List.getD_eq_getElem?_getD, hh]
    exact List.mem_filterMap.mpr ⟨card, hcard, hf⟩
  have hclues : 0 < (position n g).clues := by
    have h0 := h.blue_nonneg
    have hne := hj.tokens
    simp only [position]
    omega
  have hother : (⟨j, hlt⟩ : Fin n) ≠ c.player := fun he => hj.other (congrArg Fin.val he)
  rw [hseen]
  refine (if_pos ⟨hclues, hother, hnamed⟩).trans (congrArg some ?_)
  exact (position_hinted h.shape ⟨j, hlt⟩ hint).symm

/-- **A lawful call is a move of the rules, or none.** -/
theorem lawful_step (h : Lively n g) (hC : Lawful parse g c) (hs : gameStep parse g c = some g') :
    Lively n g' ∧ Explains (move limits) (position n) (seen parse g c) g g' := by
  have hshape := shape_step h.shape hs
  have h8 : Game.totalBlueTokens = 8 := rfl
  by_cases ha : c.action = .hint
  · rcases gameStep_hint h.shape.players h.shape.hands c ha with ⟨hn, he⟩ | ⟨j, hint, hn, hj, he⟩
    · cases hs.symm.trans he
      rw [seen_none (taken_hint ha) hn]
      exact ⟨h, rfl⟩
    · cases hs.symm.trans he
      refine ⟨⟨hshape, ?_, ?_⟩, hint_explained h hn hj⟩
      · have h0 := h.blue_nonneg
        have hne := hj.tokens
        simp only [hinted]
        omega
      · have hle := h.blue_le
        simp only [hinted]
        omega
  · rcases gameStep_take h.shape.players h.shape.hands h.shape.coloured c ha with ⟨ht, he⟩ |
      ⟨k, card, hact, ht, hc, he⟩ | ⟨k, card, hact, ht, hc, he⟩
    · cases hs.symm.trans he
      rw [seen_none ht (named_take ha)]
      exact ⟨h, rfl⟩
    · obtain ⟨hr, hfits, -⟩ := hC k card ht
      have hf := suited_real hr
      have hmem := (position_redraw h.shape hc hf).1
      obtain ⟨top, htop, hnum⟩ := hfits hact
      rw [he, playMove, htop] at hs
      simp only [if_pos hnum] at hs
      cases hs
      have hblue : (played g c.player k card).numBlueTokens = g.numBlueTokens ∨
          (played g c.player k card).numBlueTokens = g.numBlueTokens + 1 ∧ g.numBlueTokens < 8 := by
        unfold played rewarded
        split_ifs with hif
        · exact Or.inr ⟨rfl, hif.2⟩
        · exact Or.inl rfl
      have h0 := h.blue_nonneg
      have hle := h.blue_le
      refine ⟨⟨hshape, by omega, by omega⟩, ?_⟩
      rw [seen_take ht hf, if_pos hact]
      refine (if_pos hmem).trans ((if_pos ((fits_iff h.shape hr hf).mp (hfits hact))).trans ?_)
      exact congrArg some (position_played h.shape h.blue_nonneg hc hr hf).symm
    · obtain ⟨hr, -, hbelow⟩ := hC k card ht
      have hf := suited_real hr
      have hmem := (position_redraw h.shape hc hf).1
      have hlt := hbelow hact
      cases hs.symm.trans he
      have h0 := h.blue_nonneg
      refine ⟨⟨hshape, ?_, ?_⟩, ?_⟩
      · simp only [discarded, redraw]
        omega
      · simp only [discarded, redraw]
        omega
      have hclues : (position n g).clues < limits.clues := by
        simp only [position, limits]
        omega
      rw [seen_take ht hf, if_neg (by rw [hact]; decide)]
      refine (if_pos ⟨hmem, hclues⟩).trans (congrArg some ?_)
      exact (position_discarded h.shape h.blue_nonneg hc hf).symm

theorem lawful_defined (h : Lively n g) (hC : Lawful parse g c) : ∃ g', gameStep parse g c = some g' := by
  rcases gameStep_cases h.shape.players h.shape.hands h.shape.coloured c with ⟨-, he⟩ |
    ⟨k, card, hact, ht, -, he⟩ | ⟨k, card, -, -, -, he⟩ | ⟨j, hint, -, -, he⟩
  · exact ⟨_, he⟩
  · obtain ⟨top, htop, -⟩ := (hC k card ht).2.1 hact
    rw [he, playMove, htop]
    exact ⟨_, rfl⟩
  · exact ⟨_, he⟩
  · exact ⟨_, he⟩

/-- A position that no move leads to: a face more is lost, and the deck and the hands are as before,
or a clue more is there and nothing else has changed. -/
theorem not_move_lost {p q : Position Suit n} {f : Suit × ℕ} (hlost : q.lost = f ::ₘ p.lost)
    (hclues : q.clues = p.clues) (hdeck : q.deck = p.deck) (hhands : q.hands = p.hands)
    (m : Move Suit n) : move limits p m ≠ some q := by
  have hne : q.lost ≠ p.lost := fun he => by
    have hcard := congrArg Multiset.card (hlost.symm.trans he)
    rw [Multiset.card_cons] at hcard
    omega
  intro hm
  rcases move_cases limits hm with ⟨i, f', -, hmem, -, rfl⟩ | ⟨i, f', -, hmem, -, -, rfl⟩ |
    ⟨i, f', -, hmem, -, rfl⟩ | ⟨i, j, a, -, -, rfl⟩
  · exact hne rfl
  · -- an empty deck gives nothing for the face that leaves the hand
    have hnil : p.deck = [] := by
      have hlen := congrArg List.length hdeck
      simp only [Position.redraw, Position.lose, List.length_tail] at hlen
      exact List.length_eq_zero_iff.mp (by omega)
    have hhand := congrFun hhands i
    simp only [Position.redraw, Position.lose, Function.update_self, hnil] at hhand
    have hcard := congrArg Multiset.card hhand
    have hpos := Multiset.card_pos_iff_exists_mem.mpr ⟨f', hmem⟩
    have hnone : ((List.head? ([] : List (Suit × ℕ))).toList : Multiset (Suit × ℕ)) = 0 := rfl
    rw [hnone, zero_add, Multiset.card_erase_of_mem hmem] at hcard
    have hpred := Nat.pred_lt (Nat.ne_of_gt hpos)
    omega
  · have hc : p.clues + 1 = p.clues := hclues
    omega
  · exact hne rfl

theorem not_move_clue {p q : Position Suit n} (hlost : q.lost = p.lost)
    (hclues : q.clues = p.clues + 1) (htop : q.top = p.top) (m : Move Suit n) :
    move limits p m ≠ some q := by
  intro hm
  rcases move_cases limits hm with ⟨i, f, -, -, hnext, rfl⟩ | ⟨i, f, -, -, -, -, rfl⟩ |
    ⟨i, f, -, -, -, rfl⟩ | ⟨i, j, a, -, -, rfl⟩
  · have hraised := congrFun htop f.1
    simp only [Position.earn, Position.redraw, Position.raise, Function.update_self] at hraised
    have hn : p.top f.1 + 1 = f.2 := hnext
    omega
  · have hc : p.clues = p.clues + 1 := hclues
    omega
  · have hcard := congrArg Multiset.card hlost
    simp only [Position.redraw, Position.lose, Multiset.card_cons] at hcard
    omega
  · have hc : p.clues - 1 = p.clues + 1 := hclues
    omega

/-- **An unlawful call is no move of the rules.** -/
theorem unlawful_step (h : Lively n g) (hC : ¬ Lawful parse g c) : ¬ FollowsRules parse g c := by
  have h8 : Game.totalBlueTokens = 8 := rfl
  have h0 := h.blue_nonneg
  have hle := h.blue_le
  unfold Lawful at hC
  push Not at hC
  obtain ⟨k, card, ht, hbad⟩ := hC
  have ha : c.action ≠ .hint := fun ha => by
    rw [taken_hint ha] at ht
    cases ht
  rintro ⟨g', hs, hrules⟩
  rcases gameStep_take h.shape.players h.shape.hands h.shape.coloured c ha with ⟨hn, -⟩ |
    ⟨k', card', hact, ht', hc, he⟩ | ⟨k', card', hact, ht', hc, he⟩
  · cases ht.symm.trans hn
  · cases ht.symm.trans ht'
    rw [he, playMove] at hs
    split at hs
    · cases hs
    next top htop =>
    have hr := (h.shape.table_some (h.shape.held_cardAt hc)).mp ⟨top, htop⟩
    have hnum : ¬ top + 1 = card.number := by
      intro hnum
      have := hbad hr fun _ => ⟨top, htop, hnum⟩
      rw [hact] at this
      exact absurd this.1 (by decide)
    rw [if_neg hnum] at hs
    cases hs
    have hlost : (position n (misplayed g card)).lost =
        (⟨card.colour, hr.2.2⟩, card.number.toNat) ::ₘ (position n g).lost := by
      refine (suits_concat g.discardPile card).trans ?_
      rw [counted, suited_real hr]
      rfl
    rcases hrules with hsame | ⟨m, hm⟩
    · have hcard := congrArg (fun p => Multiset.card p.lost) hsame
      simp only [hlost, Multiset.card_cons] at hcard
      omega
    · exact not_move_lost hlost rfl rfl rfl m hm
  · cases ht.symm.trans ht'
    cases hs.symm.trans he
    have hclues : (position n (discarded g c.player k card)).clues = (position n g).clues + 1 := by
      simp only [position, discarded, redraw]
      omega
    have hnot : ¬ position n (discarded g c.player k card) = position n g := by
      intro hsame
      rw [hsame] at hclues
      omega
    obtain ⟨m, hm⟩ := hrules.resolve_left hnot
    rcases h.shape.held_cardAt hc with hr | rfl
    · -- a real card, while all clues are there
      have hfull := (hbad hr fun hp => by rw [hact] at hp; cases hp).2
      have hmax := clues_move limits (p := position n g) (by simp only [position, limits]; omega) hm
      rw [hclues] at hmax
      simp only [position, limits] at hmax
      omega
    · -- a placeholder, which is no face
      refine not_move_clue ?_ hclues rfl m hm
      refine (suits_concat g.discardPile Card.placeholder).trans ?_
      rw [counted, suited_placeholder]
      exact zero_add _

end Step

/-! ### Whole games -/

section Games
variable (parse : Bytes → ClientResponse) (players : List Player) (sessionId : ℤ) (s : Shuffle)

theorem lively_dealt : Lively players.length (dealt players sessionId s) :=
  ⟨shape_dealt players sessionId s, (by decide : (0 : ℤ) ≤ Game.totalBlueTokens), le_refl _⟩

/-- **When the rules are followed**: exactly if every call is lawful. -/
theorem follows_rules_iff (calls : List (Call players.length)) :
    Along (gameStep parse) (FollowsRules parse) (dealt players sessionId s) calls ↔
      Along (gameStep parse) (Lawful parse) (dealt players sessionId s) calls := by
  refine along_iff (I := Lively players.length) (fun _ _ _ h hC hs => (lawful_step h hC hs).1)
    (fun g c h => ⟨fun hQ => ?_, fun hC => ?_⟩) (lively_dealt players sessionId s) calls
  · by_contra hC
    exact unlawful_step h hC hQ
  · obtain ⟨g', hs⟩ := lawful_defined h hC
    have hexp := (lawful_step h hC hs).2
    refine ⟨g', hs, ?_⟩
    unfold Explains at hexp
    split at hexp
    · exact Or.inl hexp
    · next m _ => exact Or.inr ⟨m, hexp⟩

/-- **A lawful game is a game of Hanabi**: the moves that are seen of it lead from the deal to where
it stands. -/
theorem lawful_game {calls : List (Call players.length)} {g : Game}
    (hC : Along (gameStep parse) (Lawful parse) (dealt players sessionId s) calls)
    (hr : reach (gameStep parse) (dealt players sessionId s) calls = some g) :
    reach (move limits) (position players.length (dealt players sessionId s))
      (trace (gameStep parse) (seen parse) (dealt players sessionId s) calls) =
        some (position players.length g) :=
  (reach_trace (I := Lively players.length) (fun _ _ _ h hC hs => lawful_step h hC hs)
    (lively_dealt players sessionId s) hC hr).2

end Games

/-! Two players. -/

def firstSeat : Fin 2 := ⟨0, Nat.two_pos⟩
def secondSeat : Fin 2 := ⟨1, Nat.one_lt_two⟩

/-- The second player is told of the fives, and discards the red one. -/
def fiveLost : List (Call 2) :=
  [⟨.hint, firstSeat, [[8, 1], [8, 1], [8, 5]], fun _ _ => true⟩, .selecting .discard secondSeat 4]

theorem lawful_five_lost : ∃ g : Game,
    reach (gameStep parseOption) (dealt (guests 2) 0 Shuffle.unshuffled) fiveLost = some g ∧
      reach (move limits) (position 2 (dealt (guests 2) 0 Shuffle.unshuffled)) (trace
        (gameStep parseOption) (seen parseOption) (dealt (guests 2) 0 Shuffle.unshuffled) fiveLost) =
          some (position 2 g) := by
  have hsome : (reach (gameStep parseOption) (dealt (guests 2) 0 Shuffle.unshuffled)
      fiveLost).isSome = true := by decide +kernel
  have hC : Along (gameStep parseOption) (Lawful parseOption)
      (dealt (guests 2) 0 Shuffle.unshuffled) fiveLost := by decide +kernel
  obtain ⟨g, hr⟩ := Option.isSome_iff_exists.mp hsome
  exact ⟨g, hr, lawful_game parseOption (guests 2) 0 Shuffle.unshuffled hC hr⟩

end HanabiBot.HanabiGame.Refinement
