import HanabiBot.Lib.Runs
import HanabiBot.HanabiGame.Steps
import Mathlib.Data.List.Induction

/-! # The flags are the hints

A flag of a card in a hand is set exactly if the card is a placeholder, or a hint has named the
attribute of the card since it came to its place (`told_reached`). A call either puts another card
in a place (`Call.replaces`), and then gives no hint, or leaves the card there with the flags its
hint sets (`cardAt_step`). -/

namespace HanabiBot.HanabiGame.Revealed

open HanabiBot.Lib.Runs HanabiBot.Common.Messages
open HanabiBot.HanabiGame.Cards HanabiBot.HanabiGame.State HanabiBot.HanabiGame.Play
open HanabiBot.HanabiGame.Actions HanabiBot.HanabiGame.Hints HanabiBot.HanabiGame.Steps

/-- What a hint can be about. -/
inductive Attribute where
  | colour | number

namespace Attribute

/-- The flag of the attribute. -/
def revealed : Attribute → Card → Bool
  | .colour => Card.colourRevealed
  | .number => Card.numberRevealed

/-- The hint that names the attribute of a card. -/
def hint : Attribute → Card → Hint
  | .colour, card => .colour card.colour
  | .number, card => .number card.number

end Attribute

/-- The card after a hint, if one is given, in the hand of player `p`. -/
def hear (given : Option Given) (p : ℕ) (card : Card) : Card :=
  match given with
  | some (j, hint) => if j = p ∧ hint.targets card then hint.reveal card else card
  | none => card

section Step
variable (parse : Bytes → ClientResponse) {n : ℕ}

/-- The call puts another card into place `k` of player `p`: it discards the card there, or plays it
and the card fits. -/
def Replaces (p k : ℕ) (g : Game) (c : Call n) : Prop :=
  c.player = p ∧ ∃ card, c.taken parse g = some (k, card) ∧ (c.action = .discard ∨ Fits g card)

/-- The call gives player `p` the hint that names the attribute `a` of `card`. -/
def Tells (p : ℕ) (a : Attribute) (card : Card) (g : Game) (c : Call n) : Prop :=
  c.named parse g = some (p, a.hint card)

end Step

/-! ### What a hint does to a card -/

theorem hear_colour (given : Option Given) (p : ℕ) (card : Card) :
    (hear given p card).colour = card.colour := by
  unfold hear
  rcases given with _ | ⟨j, _ | _⟩
  · rfl
  all_goals
    simp only
    split_ifs <;> rfl

theorem hear_number (given : Option Given) (p : ℕ) (card : Card) :
    (hear given p card).number = card.number := by
  unfold hear
  rcases given with _ | ⟨j, _ | _⟩
  · rfl
  all_goals
    simp only
    split_ifs <;> rfl

theorem hear_hint (a : Attribute) (given : Option Given) (p : ℕ) (card : Card) :
    a.hint (hear given p card) = a.hint card := by
  cases a with
  | colour => exact congrArg Hint.colour (hear_colour given p card)
  | number => exact congrArg Hint.number (hear_number given p card)

/-- **A flag is set by the hint that names the attribute**, and by no other. -/
theorem hear_revealed (a : Attribute) (given : Option Given) (p : ℕ) (card : Card) :
    a.revealed (hear given p card) = true ↔
      a.revealed card = true ∨ given = some (p, a.hint card) := by
  unfold hear
  rcases given with _ | ⟨j, hint⟩
  · simp
  · by_cases h : j = p ∧ hint.targets card = true
    · obtain ⟨rfl, ht⟩ := h
      cases a <;> cases hint <;>
        simp_all [Attribute.revealed, Attribute.hint, Hint.targets, Hint.reveal]
    · simp only [if_neg h]
      have hother : ¬ some (j, hint) = some (p, a.hint card) := by
        intro he
        cases he
        refine h ⟨rfl, ?_⟩
        cases a <;> simp [Attribute.hint, Hint.targets]
      simp [hother]

/-! ### What a call does to a place -/

section Place
variable {parse : Bytes → ClientResponse} {n : ℕ} {g g' : Game} {c : Call n} {p k : ℕ} {card' : Card}

theorem cardAt_congr (h : g'.hands = g.hands) (p k : ℕ) : cardAt g' p k = cardAt g p k := by
  unfold cardAt
  rw [h]

/-- The card at a place of a hand after a redraw. -/
theorem cardAt_redraw_cases {i m : ℕ} (h : cardAt (redraw g i m) p k = .ok card') :
    i = p ∧ m = k ∧ card' = g.deck.draw.1 ∨ ¬ (i = p ∧ m = k) ∧ cardAt g p k = .ok card' := by
  obtain ⟨hand', hh', hk'⟩ := cardAt_ok h
  simp only [redraw, List.getElem?_modify] at hh'
  by_cases hi : i = p
  · obtain ⟨hand, hh, rfl⟩ := Option.map_eq_some_iff.mp hh'
    rw [if_pos hi] at hk'
    by_cases hm : m = k
    · rw [hm] at hk'
      obtain ⟨hlt, hcard⟩ := List.getElem?_eq_some_iff.mp hk'
      rw [List.getElem_set_self] at hcard
      exact Or.inl ⟨hi, hm, hcard.symm⟩
    · rw [List.getElem?_set_ne hm] at hk'
      exact Or.inr ⟨fun h => hm h.2, cardAt_of hh hk'⟩
  · obtain ⟨hand, hh, rfl⟩ := Option.map_eq_some_iff.mp hh'
    rw [if_neg hi] at hk'
    exact Or.inr ⟨fun h => hi h.1, cardAt_of hh hk'⟩

theorem cardAt_hinted {j : ℕ} {hint : Hint} (h : cardAt (hinted g j hint) p k = .ok card') :
    ∃ card, cardAt g p k = .ok card ∧ card' = hear (some (j, hint)) p card := by
  obtain ⟨hand', hh', hk'⟩ := cardAt_ok h
  simp only [hinted, List.getElem?_modify] at hh'
  obtain ⟨hand, hh, rfl⟩ := Option.map_eq_some_iff.mp hh'
  by_cases hj : j = p
  · rw [if_pos hj, revealHand, List.getElem?_map] at hk'
    obtain ⟨card, hk, rfl⟩ := Option.map_eq_some_iff.mp hk'
    refine ⟨card, cardAt_of hh hk, ?_⟩
    simp only [hear, hj, true_and]
  · rw [if_neg hj] at hk'
    refine ⟨card', cardAt_of hh hk', ?_⟩
    simp only [hear, hj, false_and, if_false]

/-- **What a call does to the card at a place.** -/
theorem cardAt_step (hg : Shape n g) (hs : gameStep parse g c = some g')
    (hc' : cardAt g' p k = .ok card') :
    Replaces parse p k g c ∧ c.named parse g = none ∧ card' = g.deck.draw.1 ∨
      ¬ Replaces parse p k g c ∧
        ∃ card, cardAt g p k = .ok card ∧ card' = hear (c.named parse g) p card := by
  by_cases ha : c.action = .hint
  · have hstays : ¬ Replaces parse p k g c := by
      rintro ⟨-, card, ht, -⟩
      rw [taken_hint ha] at ht
      cases ht
    refine Or.inr ⟨hstays, ?_⟩
    rcases gameStep_hint hg.players hg.hands c ha with ⟨hn, he⟩ | ⟨j, hint, hn, -, he⟩
    · cases hs.symm.trans he
      exact ⟨card', hc', by rw [hn]; rfl⟩
    · cases hs.symm.trans he
      rw [hn]
      exact cardAt_hinted hc'
  -- a card is taken, and drawn in its place unless a play fails
  have hn : c.named parse g = none := named_take ha
  have hsame (hstays : ¬ Replaces parse p k g c) (hc : cardAt g p k = .ok card') :
      ¬ Replaces parse p k g c ∧
        ∃ card, cardAt g p k = .ok card ∧ card' = hear (c.named parse g) p card :=
    ⟨hstays, card', hc, by rw [hn]; rfl⟩
  have hdrawn {m : ℕ} {card : Card} {o : Game} (ht : c.taken parse g = some (m, card))
      (hput : c.action = .discard ∨ Fits g card) (hdeck : o.deck = g.deck)
      (hhands : o.hands = g.hands) (hc' : cardAt (redraw o c.player m) p k = .ok card') :
      Replaces parse p k g c ∧ c.named parse g = none ∧ card' = g.deck.draw.1 ∨
        ¬ Replaces parse p k g c ∧
          ∃ card, cardAt g p k = .ok card ∧ card' = hear (c.named parse g) p card := by
    rcases cardAt_redraw_cases hc' with ⟨hi, rfl, hcard⟩ | ⟨hne, hc⟩
    · exact Or.inl ⟨⟨hi, card, ht, hput⟩, hn, hdeck ▸ hcard⟩
    · refine Or.inr (hsame ?_ (cardAt_congr hhands p k ▸ hc))
      rintro ⟨hi, card1, ht1, -⟩
      cases ht.symm.trans ht1
      exact hne ⟨hi, rfl⟩
  rcases gameStep_take hg.players hg.hands hg.coloured c ha with ⟨ht, he⟩ | ⟨m, card, hact, ht, -, he⟩ |
    ⟨m, card, hact, ht, -, he⟩
  · cases hs.symm.trans he
    refine Or.inr (hsame ?_ hc')
    rintro ⟨-, card, ht1, -⟩
    cases ht.symm.trans ht1
  · rw [he, playMove] at hs
    split at hs
    · cases hs
    · next top htop =>
      cases hs
      split_ifs at hc' with hnum
      · refine hdrawn ht (Or.inr ⟨top, htop, hnum⟩)
          (o := { g with table := g.table.set card.colour.code card.number }) rfl rfl ?_
        rw [← hc', played]
        refine (cardAt_congr ?_ p k).symm
        unfold rewarded
        split_ifs <;> rfl
      · refine Or.inr (hsame ?_ hc')
        rintro ⟨-, card1, ht1, hput⟩
        cases ht.symm.trans ht1
        rcases hput with hput | ⟨top1, htop1, hfits⟩
        · rw [hact] at hput
          cases hput
        · cases htop.symm.trans htop1
          exact hnum hfits
  · cases hs.symm.trans he
    exact hdrawn ht (Or.inl hact) (o := { g with
      numBlueTokens := g.numBlueTokens + 1
      discardPile := g.discardPile ++ [card] }) rfl rfl hc'

end Place

/-! ### Along a run -/

/-- The flags of a card that has just been drawn: set on a placeholder only. -/
def Fresh (card : Card) : Prop := ∀ a : Attribute, a.revealed card = true ↔ card.colour = .empty

/-- A card with both flags down. -/
def Unmarked (card : Card) : Prop := ∀ a : Attribute, a.revealed card = false

theorem fresh_placeholder : Fresh Card.placeholder := by
  intro a
  cases a <;> exact iff_of_true rfl rfl

theorem fresh_of_unmarked {card : Card} (h : card.Real ∧ Unmarked card) : Fresh card := by
  intro a
  rw [h.2 a]
  refine iff_of_false Bool.false_ne_true fun he => ?_
  have hlt := h.1.2.2
  rw [he] at hlt
  exact absurd hlt (by decide)

/-- The game after the calls of a run from `g0`: the flags are the hints, and the cards of the deck
have none. -/
structure Told (parse : Bytes → ClientResponse) {n : ℕ} (g0 : Game) (calls : List (Call n))
    (g : Game) : Prop where
  flags : ∀ (a : Attribute) (p k : ℕ) (card : Card), cardAt g p k = .ok card →
    (a.revealed card = true ↔ card.colour = .empty ∨
      Since (gameStep parse) (Tells parse p a card) (Replaces parse p k) g0 calls)
  undrawn : ∀ card ∈ g.deck.undrawn, Unmarked card

section Run
variable {parse : Bytes → ClientResponse} {n : ℕ} {g0 g g' : Game} {c : Call n} {calls : List (Call n)}

/-- The undrawn cards are real and unmarked. -/
theorem undrawn_redraw (hg : Shape n g) (h : ∀ card ∈ g.deck.undrawn, Unmarked card) :
    Fresh g.deck.draw.1 ∧ ∀ card ∈ g.deck.draw.2.undrawn, Unmarked card := by
  have hdraw := draw_rule (P := fun card => card.Real ∧ Unmarked card) (Q := Fresh)
    (fun _ => fresh_of_unmarked) fresh_placeholder (d := g.deck)
    fun card hc => ⟨hg.undrawn card hc, h card hc⟩
  exact ⟨hdraw.1, fun card hc => (hdraw.2 card hc).2⟩

theorem undrawn_step (hg : Shape n g) (h : ∀ card ∈ g.deck.undrawn, Unmarked card)
    (hs : gameStep parse g c = some g') : ∀ card ∈ g'.deck.undrawn, Unmarked card := by
  have hdeck : g'.deck = g.deck ∨ g'.deck = g.deck.draw.2 := by
    rcases gameStep_cases hg.players hg.hands hg.coloured c with ⟨-, he⟩ | ⟨k, card, -, -, -, he⟩ |
      ⟨k, card, -, -, -, he⟩ | ⟨j, hint, -, -, he⟩
    · cases hs.symm.trans he
      exact Or.inl rfl
    · rw [he, playMove] at hs
      split at hs
      · cases hs
      · cases hs
        split_ifs
        · refine Or.inr ?_
          unfold played rewarded
          split_ifs <;> rfl
        · exact Or.inl rfl
    · cases hs.symm.trans he
      exact Or.inr rfl
    · cases hs.symm.trans he
      exact Or.inl rfl
  rcases hdeck with hdeck | hdeck
  · rw [hdeck]
    exact h
  · rw [hdeck]
    exact (undrawn_redraw hg h).2

/-- **One call more**: a card that comes to a place has no hint, one that stays has one more if it
is named. -/
theorem told_step (hg : Shape n g) (h : Told parse g0 calls g)
    (hr : reach (gameStep parse) g0 calls = some g) (hs : gameStep parse g c = some g') :
    Told parse g0 (calls ++ [c]) g' := by
  refine ⟨fun a p k card' hc' => ?_, undrawn_step hg h.undrawn hs⟩
  rw [since_concat hr hs]
  rcases cardAt_step hg hs hc' with ⟨hput, hn, rfl⟩ | ⟨hstays, card, hc, rfl⟩
  · have hfresh := (undrawn_redraw hg h.undrawn).1 a
    have hnot : ¬ Tells parse p a g.deck.draw.1 g c := by
      unfold Tells
      rw [hn]
      exact nofun
    rw [hfresh]
    tauto
  · have hflag := h.flags a p k card hc
    have htells : Tells parse p a (hear (c.named parse g) p card) = Tells (n := n) parse p a card := by
      unfold Tells
      rw [hear_hint]
    have hheard := hear_revealed a (c.named parse g) p card
    rw [htells, hear_colour, hheard, hflag]
    unfold Tells
    tauto

theorem told_dealt (players : List Player) (sessionId : ℤ) (s : Shuffle) :
    Told parse (dealt players sessionId s) ([] : List (Call n)) (dealt players sessionId s) := by
  have hfresh : ∀ card ∈ (Deck.ofShuffle s).undrawn, card.Real ∧ Unmarked card := by
    intro card hc
    obtain ⟨hreal, hcolour, hnumber⟩ := s.fresh (List.mem_of_mem_drop hc)
    exact ⟨hreal, fun a => by cases a <;> assumption⟩
  obtain ⟨-, hhands, hdeck⟩ := dealHands_rule (Q := Fresh) (fun _ => fresh_of_unmarked)
    fresh_placeholder (Game.ofSession players sessionId s).cardsPerHand players.length hfresh
  refine ⟨fun a p k card hc => ?_, fun card hc => (hdeck card hc).2⟩
  obtain ⟨hand, hh, hk⟩ := cardAt_ok hc
  have hcard := (hhands hand (List.mem_of_getElem? hh)).2 card (List.mem_of_getElem? hk)
  exact (hcard a).trans (or_iff_left id).symm

/-- **The flags are the hints received.** In every state a game reaches, a flag of a card in a hand
is set exactly if the card is a placeholder, or its holder was given the hint that names it since
the card came to its place; the cards of the deck have no flag. -/
theorem told_reached (parse : Bytes → ClientResponse) (players : List Player) (sessionId : ℤ)
    (s : Shuffle) (calls : List (Call players.length)) {g : Game}
    (h : reach (gameStep parse) (dealt players sessionId s) calls = some g) :
    Told parse (dealt players sessionId s) calls g := by
  induction calls using List.reverseRecOn generalizing g with
  | nil =>
    cases h
    exact told_dealt players sessionId s
  | append_singleton calls c ih =>
    rw [reach_concat] at h
    obtain ⟨g1, h1, hs⟩ := Option.bind_eq_some_iff.mp h
    have hg := inv_reach (I := Shape players.length) (fun _ _ _ hg hs => shape_step hg hs)
      (shape_dealt players sessionId s) h1
    exact told_step hg (ih h1) h1 hs

/-- The call in which the first player tells the second about the red cards. -/
def tellRed : Call 2 := ⟨.hint, 0, [[8, 1], [8, 0], [8, 0]], fun _ _ => true⟩

/-- After the hint the first card of the second player shows its colour, and not its number. -/
theorem told_first_hint : ∃ g card, reach (gameStep parseOption)
      (dealt (guests 2) 0 Shuffle.unshuffled) [tellRed] = some g ∧ cardAt g 1 0 = .ok card ∧
    Attribute.colour.revealed card = true ∧ Attribute.number.revealed card = false ∧
    Told parseOption (dealt (guests 2) 0 Shuffle.unshuffled) [tellRed] g := by
  have hcard : (reach (gameStep parseOption) (dealt (guests 2) 0 Shuffle.unshuffled)
      [tellRed]).bind (fun g => (cardAt g 1 0).toOption) = some ⟨3, .red, true, false⟩ := by
    decide +kernel
  obtain ⟨g, hg, hat⟩ := Option.bind_eq_some_iff.mp hcard
  have hok : cardAt g 1 0 = .ok ⟨3, .red, true, false⟩ := by
    cases h : cardAt g 1 0 with
    | ok card => rw [h] at hat; cases hat; rfl
    | error e => rw [h] at hat; cases hat
  exact ⟨g, _, hg, hok, rfl, rfl, told_reached parseOption (guests 2) 0 Shuffle.unshuffled _ hg⟩

end Run

end HanabiBot.HanabiGame.Revealed
