import HanabiBot.Lib.Runs
import HanabiBot.HanabiGame.Steps
import Mathlib.Algebra.Order.Group.Multiset

/-! # Conservation of the cards

`holdings g` is the multiset of the faces (colour and number) in the game: the undrawn cards, the
real cards in the hands, the discard pile and the columns of the table. The deal starts with the
fifty faces of the deck (`holdings_dealt`).

A redraw takes one card out of the game (`holdings_redraw`); a discard or a play that fits puts it
back elsewhere. A misplay puts the card on the discard pile and leaves it in the hand, and a
discarded placeholder is a face no deck has: either makes the game hold fifty-one faces. So the
faces are conserved along a game exactly if it is `Careful` (`conserved_iff`). -/

namespace HanabiBot.HanabiGame.Conservation

open HanabiBot.Lib.Lists HanabiBot.Lib.Runs HanabiBot.Common.Messages
open HanabiBot.HanabiGame.Cards HanabiBot.HanabiGame.State HanabiBot.HanabiGame.Play
open HanabiBot.HanabiGame.Actions HanabiBot.HanabiGame.Steps

/-- A card as a pair of colour and number. -/
abbrev Face := Colours × ℤ

def face (card : Card) : Face := (card.colour, card.number)

/-- The faces of a list of cards. -/
def faces (l : List Card) : Multiset Face := (l.map face : List Face)

/-- The faces of the cards of a hand that are not placeholders. -/
def handFaces (hand : List Card) : Multiset Face :=
  faces (hand.filter fun card => card.colour ≠ .empty)

/-- The faces `1` to `top` of colour `j`. -/
def column (j : ℕ) (top : ℤ) : Multiset Face :=
  ((List.range top.toNat).map fun k : ℕ => (Colours.ofCode j, (k : ℤ) + 1) : List Face)

/-- All the faces in the game. -/
def holdings (g : Game) : Multiset Face :=
  faces g.deck.undrawn + (g.hands.map handFaces).sum + faces g.discardPile +
    (g.table.mapIdx column).sum

/-- The game holds the faces of the deck. -/
def Conserved (g : Game) : Prop := holdings g = faces builtCards

/-! ### One place at a time -/

/-- What a card in a hand counts for. -/
def weight (card : Card) : Multiset Face := if card.colour ≠ .empty then {face card} else 0

theorem weight_real {card : Card} (h : card.Real) : weight card = {face card} := by
  refine if_pos fun he => ?_
  have hlt := h.2.2
  rw [he] at hlt
  exact absurd hlt (by decide)

theorem weight_placeholder : weight Card.placeholder = 0 := rfl

theorem faces_append (l : List Card) (card : Card) : faces (l ++ [card]) = faces l + {face card} := by
  unfold faces
  rw [List.map_append, ← Multiset.coe_add]
  rfl

theorem handFaces_eq (hand : List Card) : handFaces hand = (hand.map weight).sum := by
  induction hand with
  | nil => rfl
  | cons card hand ih =>
    rw [List.map_cons, List.sum_cons, ← ih]
    unfold handFaces weight
    by_cases h : card.colour ≠ .empty
    · rw [if_pos h, List.filter_cons_of_pos (by simpa using h)]
      rfl
    · rw [if_neg h, List.filter_cons_of_neg (by simpa using h), zero_add]

theorem handFaces_set {hand : List Card} {k : ℕ} {card : Card} (h : hand[k]? = some card)
    (new : Card) : handFaces (hand.set k new) + weight card = handFaces hand + weight new := by
  rw [handFaces_eq, handFaces_eq]
  exact sum_map_set h

theorem handFaces_reveal (hint : Hint) (hand : List Card) :
    handFaces (revealHand hint hand) = handFaces hand := by
  rw [handFaces_eq, handFaces_eq, revealHand, List.map_map]
  refine congrArg List.sum (List.map_congr_left fun card _ => ?_)
  rw [Function.comp_apply]
  split_ifs
  · cases hint <;> rfl
  · rfl

/-- A draw, from a deck that has run out as from any other. -/
theorem faces_draw {d : Deck} (h : ∀ card ∈ d.undrawn, card.Real) :
    faces d.draw.2.undrawn + weight d.draw.1 = faces d.undrawn := by
  rcases d.draw_cases with hd | ⟨-, hd⟩
  · rw [hd] at h
    rw [hd, weight_real (h _ List.mem_cons_self), add_comm]
    rfl
  · rw [hd]
    exact add_zero _

theorem column_succ (j : ℕ) {top : ℤ} (h : 0 ≤ top) :
    column j (top + 1) = column j top + {(Colours.ofCode j, top + 1)} := by
  obtain ⟨t, rfl⟩ := Int.eq_ofNat_of_zero_le h
  have ht : ((t : ℤ) + 1).toNat = t + 1 := rfl
  unfold column
  rw [ht, Int.toNat_natCast, List.range_succ, List.map_append, ← Multiset.coe_add]
  rfl

/-! ### The four changes -/

section Changes
variable {n : ℕ} {g : Game} {i k : ℕ} {card : Card}

/-- **A redraw takes the card out of the game.** -/
theorem holdings_redraw (h : Shape n g) (hc : cardAt g i k = .ok card) :
    holdings (redraw g i k) + weight card = holdings g := by
  obtain ⟨hand, hh, hk⟩ := cardAt_ok hc
  have hhands : (((redraw g i k).hands).map handFaces).sum + weight card =
      (g.hands.map handFaces).sum + weight g.deck.draw.1 := by
    have hmodify := sum_map_modify (f := handFaces) (g := fun hand => hand.set k g.deck.draw.1) hh
    have hset := handFaces_set hk g.deck.draw.1
    refine add_right_cancel (b := handFaces hand + handFaces (hand.set k g.deck.draw.1)) ?_
    calc (((redraw g i k).hands).map handFaces).sum + weight card +
          (handFaces hand + handFaces (hand.set k g.deck.draw.1))
        = (((redraw g i k).hands).map handFaces).sum + handFaces hand +
          (handFaces (hand.set k g.deck.draw.1) + weight card) := by abel
      _ = (g.hands.map handFaces).sum + handFaces (hand.set k g.deck.draw.1) +
          (handFaces hand + weight g.deck.draw.1) := by rw [hset]; exact congrArg (· + _) hmodify
      _ = _ := by abel
  calc holdings (redraw g i k) + weight card
      = faces g.deck.draw.2.undrawn + ((((redraw g i k).hands).map handFaces).sum + weight card) +
        faces g.discardPile + (g.table.mapIdx column).sum := by unfold holdings; simp only [redraw]; abel
    _ = faces g.deck.draw.2.undrawn + weight g.deck.draw.1 + (g.hands.map handFaces).sum +
        faces g.discardPile + (g.table.mapIdx column).sum := by rw [hhands]; abel
    _ = holdings g := by rw [faces_draw h.undrawn]; rfl

theorem holdings_discarded (h : Shape n g) (hc : cardAt g i k = .ok card) :
    holdings (discarded g i k card) + weight card = holdings g + {face card} := by
  have hr := holdings_redraw (g := { g with
    numBlueTokens := g.numBlueTokens + 1
    discardPile := g.discardPile ++ [card] }) { h with } hc
  refine hr.trans ?_
  simp only [holdings, faces_append]
  abel

theorem holdings_rewarded (g : Game) : holdings (rewarded card g) = holdings g := by
  unfold rewarded
  split_ifs <;> rfl

theorem holdings_played (h : Shape n g) (hc : cardAt g i k = .ok card) (hf : Fits g card) :
    holdings (played g i k card) + weight card = holdings g + {face card} := by
  obtain ⟨top, ht, hnum⟩ := hf
  have htop : 0 ≤ top := h.tops top (List.mem_of_getElem? ht)
  have htable : ((g.table.set card.colour.code card.number).mapIdx column).sum =
      (g.table.mapIdx column).sum + {face card} := by
    have hold : (g.table.mapIdx column)[card.colour.code]? = some (column card.colour.code top) := by
      rw [List.getElem?_mapIdx, ht]
      rfl
    have hset := sum_set (b := column card.colour.code card.number) hold
    rw [← hnum, column_succ _ htop, Colours.ofCode_code] at hset
    rw [List.mapIdx_set, face, ← hnum, column_succ _ htop, Colours.ofCode_code]
    refine add_right_cancel (b := column card.colour.code top) (hset.trans ?_)
    abel
  rw [played, holdings_rewarded, holdings_redraw (h.raised (by omega)) hc]
  simp only [holdings, htable]
  abel

theorem holdings_misplayed (g : Game) (card : Card) :
    holdings (misplayed g card) = holdings g + {face card} := by
  simp only [holdings, misplayed, faces_append]
  abel

theorem holdings_hinted (g : Game) (j : ℕ) (hint : Hint) :
    holdings (hinted g j hint) = holdings g := by
  have hhands : ((g.hands.modify j (revealHand hint)).map handFaces).sum =
      (g.hands.map handFaces).sum := by
    cases hj : g.hands[j]? with
    | none => rw [List.modify_eq_self (List.getElem?_eq_none_iff.mp hj)]
    | some hand =>
      have hmodify := sum_map_modify (f := handFaces) (g := revealHand hint) hj
      rw [handFaces_reveal] at hmodify
      exact add_right_cancel hmodify
  simp only [holdings, hinted, hhands]

end Changes

/-! ### The deal -/

theorem handFaces_cons (card : Card) (hand : List Card) :
    handFaces (card :: hand) = weight card + handFaces hand := by
  rw [handFaces_eq, handFaces_eq]
  rfl

theorem faces_drawN : ∀ (n : ℕ) {d : Deck}, (∀ card ∈ d.undrawn, card.Real) →
    faces (d.drawN n).2.undrawn + handFaces (d.drawN n).1 = faces d.undrawn
  | 0, d, _ => add_zero (faces d.undrawn)
  | n + 1, d, h => by
    have ih := faces_drawN n (draw_held h).2
    calc faces (d.drawN (n + 1)).2.undrawn + handFaces (d.drawN (n + 1)).1
        = faces (d.draw.2.drawN n).2.undrawn + handFaces (d.draw.2.drawN n).1 +
          weight d.draw.1 := by simp only [Deck.drawN, handFaces_cons]; abel
      _ = faces d.undrawn := by rw [ih, faces_draw h]

theorem faces_dealHands (size : ℕ) : ∀ (n : ℕ) {d : Deck}, (∀ card ∈ d.undrawn, card.Real) →
    faces (dealHands size n d).2.undrawn + ((dealHands size n d).1.map handFaces).sum =
      faces d.undrawn
  | 0, d, _ => add_zero (faces d.undrawn)
  | n + 1, d, h => by
    have ih := faces_dealHands size n (drawN_held size h).2
    calc faces (dealHands size (n + 1) d).2.undrawn +
          ((dealHands size (n + 1) d).1.map handFaces).sum
        = faces (dealHands size n (d.drawN size).2).2.undrawn +
          ((dealHands size n (d.drawN size).2).1.map handFaces).sum +
          handFaces (d.drawN size).1 := by
            simp only [dealHands, List.map_cons, List.sum_cons]; abel
      _ = faces d.undrawn := by rw [ih, faces_drawN size h]

/-- **The deal holds the deck.** -/
theorem holdings_dealt (players : List Player) (sessionId : ℤ) (s : Shuffle) :
    Conserved (dealt players sessionId s) := by
  have hreal : ∀ card ∈ (Deck.ofShuffle s).undrawn, card.Real :=
    fun card hc => (s.fresh (List.mem_of_mem_drop hc)).1
  have hdeal := faces_dealHands (Game.ofSession players sessionId s).cardsPerHand players.length hreal
  have hdeck : faces (Deck.ofShuffle s).undrawn = faces builtCards :=
    Multiset.coe_eq_coe.mpr (s.perm.map face)
  have htable : ((List.replicate colourCount (0 : ℤ)).mapIdx column).sum = 0 := rfl
  calc holdings (dealt players sessionId s)
      = faces (Deck.ofShuffle s).undrawn + 0 + 0 := congr (congrArg _ (congrArg (· + 0) hdeal)) htable
    _ = faces builtCards := by rw [add_zero, add_zero, hdeck]

/-! ### Along a run -/

/-- If the call takes a card, it plays the next card of its colour, or discards a real card. A play
of a placeholder is undefined, and so not of interest here. -/
def Careful {n : ℕ} (parse : Bytes → ClientResponse) (g : Game) (c : Call n) : Prop :=
  ∀ k card, c.taken parse g = some (k, card) →
    (c.action = .play → card.Real → Fits g card) ∧ (c.action = .discard → card.Real)

section Run
variable {parse : Bytes → ClientResponse} {n : ℕ} {g g' : Game} {c : Call n}

theorem conserved_step (hg : Shape n g) (hI : Conserved g) (hC : Careful parse g c)
    (hs : gameStep parse g c = some g') : Conserved g' := by
  rcases gameStep_cases hg.players hg.hands hg.coloured c with ⟨-, he⟩ | ⟨k, card, ha, ht, hc, he⟩ |
    ⟨k, card, ha, ht, hc, he⟩ | ⟨j, hint, -, -, he⟩
  · cases hs.symm.trans he
    exact hI
  · rw [he, playMove] at hs
    split at hs
    · cases hs
    · next top htop =>
      have hreal := (hg.table_some (hg.held_cardAt hc)).mp ⟨top, htop⟩
      obtain ⟨top', htop', hnum⟩ := (hC k card ht).1 ha hreal
      cases htop.symm.trans htop'
      rw [if_pos hnum] at hs
      cases hs
      have hp := holdings_played hg hc ⟨top, htop, hnum⟩
      rw [weight_real hreal] at hp
      exact (add_right_cancel hp).trans hI
  · cases hs.symm.trans he
    have hd := holdings_discarded hg hc
    rw [weight_real ((hC k card ht).2 ha)] at hd
    exact (add_right_cancel hd).trans hI
  · cases hs.symm.trans he
    exact (holdings_hinted g j hint).trans hI

/-- A face too many is not the deck. -/
theorem not_conserved_of_extra {x : Face} (hI : Conserved g) (h : holdings g' = holdings g + {x}) :
    ¬ Conserved g' := by
  intro hI'
  have hcard := congrArg Multiset.card (h.symm.trans (hI'.trans hI.symm))
  rw [Multiset.card_add, Multiset.card_singleton] at hcard
  omega

/-- **A careless call makes the game hold a face too many.** -/
theorem not_conserved_step (parse : Bytes → ClientResponse) (hg : Shape n g) (hI : Conserved g)
    (hC : ¬ Careful parse g c) : ∃ g', gameStep parse g c = some g' ∧ ¬ Conserved g' := by
  unfold Careful at hC
  push Not at hC
  obtain ⟨k, card, ht, hbad⟩ := hC
  rcases gameStep_cases hg.players hg.hands hg.coloured c with ⟨hn, -⟩ | ⟨k', card', ha, ht', hc, he⟩ |
    ⟨k', card', ha, ht', hc, he⟩ | ⟨j, hint, hn, -⟩
  · cases ht.symm.trans hn
  · cases ht.symm.trans ht'
    by_cases hplay : card.Real ∧ ¬ Fits g card
    · obtain ⟨top, htop⟩ := (hg.table_some (hg.held_cardAt hc)).mpr hplay.1
      have hnum : ¬ top + 1 = card.number := fun hnum => hplay.2 ⟨top, htop, hnum⟩
      refine ⟨misplayed g card, ?_, not_conserved_of_extra hI (holdings_misplayed g card)⟩
      rw [he, playMove, htop]
      exact congrArg some (if_neg hnum)
    · have hfits : card.Real → Fits g card := fun hr => by_contra fun hf => hplay ⟨hr, hf⟩
      cases ha.symm.trans (hbad fun _ => hfits).1
  · cases ht.symm.trans ht'
    have hplay : ¬ c.action = .play := by rw [ha]; decide
    have hnot := (hbad fun hp => absurd hp hplay).2
    rcases hg.held_cardAt hc with hreal | rfl
    · exact absurd hreal hnot
    · have hd := holdings_discarded hg hc
      rw [weight_placeholder, add_zero] at hd
      exact ⟨_, he, not_conserved_of_extra hI hd⟩
  · cases ht.symm.trans hn

end Run

/-- **When the cards are conserved**: exactly in the games in which every real card that is played
is the next of its colour, and every card that is discarded is a real one. -/
theorem conserved_iff (parse : Bytes → ClientResponse) (players : List Player) (sessionId : ℤ)
    (s : Shuffle) (calls : List (Call players.length)) :
    States (gameStep parse) Conserved (dealt players sessionId s) calls ↔
      Along (gameStep parse) (Careful parse) (dealt players sessionId s) calls := by
  refine states_iff (I := fun g => Shape players.length g ∧ Conserved g) ?_ ?_ ?_
    ⟨shape_dealt players sessionId s, holdings_dealt players sessionId s⟩ calls
  · intro g c g' ⟨hg, hI⟩ hC hs
    exact ⟨shape_step hg hs, conserved_step hg hI hC hs⟩
  · intro g h
    exact h.2
  · intro g c h hC
    exact not_conserved_step parse h.1 h.2 hC

/-- A red two played first is on the discard pile and in the hand. -/
theorem misplay_duplicates : ¬ States (gameStep parseOption) Conserved
    (dealt (guests 2) 0 Shuffle.unshuffled) [(.selecting .play 0 3 : Call 2)] := by
  intro h
  have hg := shape_dealt (guests 2) 0 Shuffle.unshuffled
  have hC : ¬ Careful parseOption (dealt (guests 2) 0 Shuffle.unshuffled)
      (.selecting .play 0 3 : Call 2) := by
    intro hC
    obtain ⟨top, ht, hnum⟩ := (hC 3 ⟨2, .red, false, false⟩ (by decide)).1 rfl (by decide)
    cases ht
    exact absurd hnum (by decide)
  obtain ⟨g', hs, hn⟩ := not_conserved_step parseOption hg (holdings_dealt _ _ _) hC
  exact hn (h.2.1 g' hs)

end HanabiBot.HanabiGame.Conservation
