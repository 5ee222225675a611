import HanabiBot.HanabiGame.Refinement
import HanabiBot.HanabiGame.Score
import Mathlib.Algebra.BigOperators.Fin

/-! # What is lost in a game

What the rules say of lost cards, for the server's game: once the discard pile of a lawful game holds
every copy of a card, that card is never played any more, and the score stays below what it would
have needed (`lawful_lost`). The copies are counted in the deck that `Deck::Deck` builds. -/

namespace HanabiBot.HanabiGame.Lost

open HanabiBot.Lib.Runs HanabiBot.Lib.Simulation HanabiBot.Common.Messages
open HanabiBot.HanabiGame.Cards HanabiBot.HanabiGame.State HanabiBot.HanabiGame.Play
open HanabiBot.HanabiGame.Actions HanabiBot.HanabiGame.Steps HanabiBot.HanabiGame.Conservation
open HanabiBot.HanabiGame.Score HanabiBot.HanabiGame.Rules HanabiBot.HanabiGame.Positions
open HanabiBot.HanabiGame.Refinement

/-- The sum over the hands of all players. -/
theorem sum_getD {M : Type*} [AddCommMonoid M] {n : ℕ} {hands : List (List Card)} (h : hands.length = n)
    (F : List Card → M) : ∑ i : Fin n, F (hands.getD i []) = (hands.map F).sum := by
  subst h
  rw [← Fin.sum_univ_fun_getElem]
  exact Finset.sum_congr rfl fun i _ => congrArg F (List.getD_eq_getElem _ _ i.isLt)

/-- The table is empty when a game starts. -/
theorem top_dealt (players : List Player) (sessionId : ℤ) (s : Shuffle) :
    ∑ c, column c ((position players.length (dealt players sessionId s)).top c) = 0 :=
  Finset.sum_eq_zero fun c _ => by
    obtain ⟨c, hc⟩ := c
    cases c <;> rfl

section Counts
variable {card : Card} {f : Suit × ℕ} (hf : suited card = some f)
include hf

/-- A card has the face exactly if it has the colour and the number. -/
theorem suited_iff (c : Card) : suited c = some f ↔ face c = face card := by
  unfold suited at hf ⊢
  split_ifs at hf with hr
  cases hf
  split_ifs with hc
  · have h1 := hr.1
    have h1' := hc.1
    simp only [face, Option.some.injEq, Prod.mk.injEq, Subtype.mk.injEq]
    exact and_congr_right fun _ => by omega
  · refine iff_of_false (by simp) fun he => hc ?_
    obtain ⟨hcol, hnum⟩ := Prod.mk.inj he
    unfold Card.Real
    rw [hcol, hnum]
    exact hr

theorem count_suits (l : List Card) :
    (suits l : Multiset (Suit × ℕ)).count f = (faces l).count (face card) := by
  induction l with
  | nil => rfl
  | cons c l ih =>
    have hfaces : faces (c :: l) = {face c} + faces l := rfl
    rw [suits_eq, List.map_cons, List.sum_cons, ← suits_eq, Multiset.count_add, ih, hfaces,
      Multiset.count_add]
    refine congrArg (· + _) ?_
    rw [Multiset.count_singleton, counted]
    by_cases h : face card = face c
    · rw [if_pos h, (suited_iff hf c).mpr h.symm]
      exact Multiset.count_singleton_self f
    · rw [if_neg h]
      cases hc : suited c with
      | none => rfl
      | some f' =>
        refine Multiset.count_eq_zero.mpr fun hmem => h ?_
        have he : f = f' := by simpa using hmem
        exact ((suited_iff hf c).mp (hc.trans (congrArg some he.symm))).symm

theorem count_hand (hand : List Card) :
    (suits hand : Multiset (Suit × ℕ)).count f = (handFaces hand).count (face card) := by
  have hempty : suits hand = suits (hand.filter fun c => c.colour ≠ .empty) := by
    unfold suits
    rw [List.filterMap_filter]
    refine List.filterMap_congr fun c _ => ?_
    by_cases hc : c.colour = .empty
    · have hnot : ¬ c.Real := fun hr => absurd (hc ▸ hr.2.2) (by decide)
      simp [hc, suited, hnot]
    · simp [hc]
  rw [hempty, count_suits hf]
  rfl

/-- The copies in the deck are those of the deal. -/
theorem count_dealt (players : List Player) (sessionId : ℤ) (s : Shuffle) :
    (position players.length (dealt players sessionId s)).cards.count f =
      (faces builtCards).count (face card) := by
  have hg := shape_dealt players sessionId s
  have hd : holdings (dealt players sessionId s) = _ := holdings_dealt players sessionId s
  have hhands : (∑ i, (position players.length (dealt players sessionId s)).hands i).count f =
      ((dealt players sessionId s).hands.map handFaces).sum.count (face card) := by
    rw [← sum_getD hg.hands, Multiset.count_sum', Multiset.count_sum']
    exact Finset.sum_congr rfl fun i _ => count_hand hf _
  calc (position players.length (dealt players sessionId s)).cards.count f
      = (faces (dealt players sessionId s).deck.undrawn).count (face card) +
          ((dealt players sessionId s).hands.map handFaces).sum.count (face card) := by
        rw [Position.cards, top_dealt, add_zero, Multiset.count_add, Multiset.count_add, hhands,
          ← count_suits hf]
        rfl
    _ = (faces builtCards).count (face card) := by
        rw [← Multiset.count_add, ← hd]
        refine congrArg (Multiset.count (face card)) ?_
        unfold holdings
        have hpile : faces (dealt players sessionId s).discardPile = 0 := rfl
        have htable : ((dealt players sessionId s).table.mapIdx Conservation.column).sum = 0 := rfl
        rw [hpile, htable, add_zero, add_zero]

end Counts

/-! ### The score -/

theorem ranks_suits {l : List Card} {f : Suit × ℕ} (h : f ∈ suits l) : f.2 ≤ limits.ranks := by
  obtain ⟨card, -, hf⟩ := List.mem_filterMap.mp h
  unfold suited at hf
  split_ifs at hf with hr
  cases hf
  have h5 := hr.2.1
  have hn : limits.ranks = 5 := rfl
  rw [hn]
  omega

theorem ranks_dealt (players : List Player) (sessionId : ℤ) (s : Shuffle) :
    ∀ f ∈ (position players.length (dealt players sessionId s)).cards, f.2 ≤ limits.ranks := by
  intro f hf
  rcases Multiset.mem_add.mp hf with hf | hf
  · rcases Multiset.mem_add.mp hf with hf | hf
    · rcases Multiset.mem_add.mp hf with hf | hf
      · exact ranks_suits hf
      · obtain ⟨i, -, hi⟩ := Multiset.mem_sum.mp hf
        exact ranks_suits hi
    · exact ranks_suits hf
  · rw [top_dealt] at hf
    exact absurd hf (Multiset.notMem_zero _)

theorem sum_suits (F : Suit → ℕ) : ∑ c, F c =
    F ⟨.red, by decide⟩ + (F ⟨.blue, by decide⟩ + (F ⟨.green, by decide⟩ + (F ⟨.yellow, by decide⟩ +
      F ⟨.white, by decide⟩))) := rfl

/-- The score is the sum of the columns. -/
theorem totalPts_position {n : ℕ} {g : Game} (h : Shape n g) :
    totalPts g = .ok (∑ c, (position n g).top c : ℕ) := by
  rw [totalPts_eq h.table, sum_suits]
  match ht : g.table, h.table, h.tops with
  | [r, b, gr, y, w], _, htops =>
    simp only [List.forall_mem_cons] at htops
    obtain ⟨hr, hb, hgr, hy, hw, -⟩ := htops
    simp only [position, ht, Colours.code, List.getD_cons_zero, List.getD_cons_succ, List.sum_cons,
      List.sum_nil, Except.ok.injEq]
    push_cast
    omega

/-- **What is lost stays out of reach.** Once the discard pile of a lawful game holds all copies of a
card, its column stays below it, and the score below what it would have needed. -/
theorem lawful_lost (parse : Bytes → ClientResponse) (players : List Player) (sessionId : ℤ)
    (s : Shuffle) {before later : List (Call players.length)} {g g' : Game} (card : Card)
    (hC : Along (gameStep parse) (Lawful parse) (dealt players sessionId s) before)
    (hr : reach (gameStep parse) (dealt players sessionId s) before = some g)
    (hlost : (faces builtCards).count (face card) ≤ (faces g.discardPile).count (face card))
    (hC' : Along (gameStep parse) (Lawful parse) g later)
    (hr' : reach (gameStep parse) g later = some g') (hcard : card.Real) :
    (∃ top, g'.table[card.colour.code]? = some top ∧ top < card.number) ∧
      ∃ pts, totalPts g' = .ok pts ∧ pts ≤ 19 + card.number := by
  have hstep : ∀ g (c : Call players.length) g', Lively players.length g → Lawful parse g c →
      gameStep parse g c = some g' → Lively players.length g' ∧ Explains (move limits)
        (position players.length) (seen parse g c) g g' := fun _ _ _ h hC hs => lawful_step h hC hs
  obtain ⟨hg, hbefore⟩ := reach_trace hstep (lively_dealt players sessionId s) hC hr
  obtain ⟨hg', hlater⟩ := reach_trace hstep hg hC' hr'
  have hf := suited_real hcard
  have hcards := (cards_reach limits hbefore).1
  have hcount : (position players.length g).cards.count (⟨card.colour, hcard.2.2⟩, card.number.toNat) ≤
      (position players.length g).lost.count (⟨card.colour, hcard.2.2⟩, card.number.toNat) := by
    rw [hcards, count_dealt hf]
    exact hlost.trans (Nat.le_of_eq (count_suits hf g.discardPile).symm)
  have hranks : ∀ f ∈ (position players.length g).cards, f.2 ≤ limits.ranks :=
    hcards ▸ ranks_dealt players sessionId s
  have h1 := hcard.1
  have hpos : 1 ≤ card.number.toNat := by omega
  refine ⟨?_, _, totalPts_position hg'.shape, ?_⟩
  · obtain ⟨top, ht⟩ := (hg'.shape.table_some (Or.inl hcard)).mpr hcard
    have hlt := top_lt_of_lost limits hlater hpos hcount
    simp only [position, List.getD_eq_getElem?_getD, ht, Option.getD_some] at hlt
    exact ⟨top, ht, by omega⟩
  · have hscore := score_le_of_lost limits hlater hpos hcount hranks
    have h25 : Fintype.card Suit * limits.ranks = 25 := rfl
    have h5 : limits.ranks = 5 := rfl
    rw [h25, h5] at hscore
    simp only at hscore
    omega

/-- After the red five, a red one. -/
theorem lawful_red_five : ∃ g g' : Game,
    reach (gameStep parseOption) (dealt (guests 2) 0 Shuffle.unshuffled) fiveLost = some g ∧
      reach (gameStep parseOption) g [(.selecting .play 0 0 : Call 2)] = some g' ∧
        (∃ top, g'.table[0]? = some top ∧ top < 5) ∧ ∃ pts, totalPts g' = .ok pts ∧ pts ≤ 24 := by
  have hC : Along (gameStep parseOption) (Lawful parseOption) (dealt (guests 2) 0 Shuffle.unshuffled)
      fiveLost := by decide +kernel
  have hlater : (reach (gameStep parseOption) (dealt (guests 2) 0 Shuffle.unshuffled) fiveLost).any
      (fun g => decide (Along (gameStep parseOption) (Lawful parseOption) g
          [(.selecting .play 0 0 : Call 2)] ∧
        (faces builtCards).count (.red, 5) ≤ (faces g.discardPile).count (.red, 5) ∧
        (reach (gameStep parseOption) g [(.selecting .play 0 0 : Call 2)]).isSome = true)) = true := by
    decide +kernel
  obtain ⟨g, hr, hg⟩ := (Option.any_eq_true _ _).mp hlater
  obtain ⟨hC', hlost, hsome⟩ := of_decide_eq_true hg
  obtain ⟨g', hr'⟩ := Option.isSome_iff_exists.mp hsome
  exact ⟨g, g', hr, hr', lawful_lost parseOption (guests 2) 0 Shuffle.unshuffled
    ⟨5, .red, false, false⟩ hC hr hlost hC' hr' (by decide)⟩

end HanabiBot.HanabiGame.Lost
