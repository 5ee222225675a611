import HanabiBot.Lib.Runs
import Mathlib.Algebra.BigOperators.Group.Finset.Piecewise
import Mathlib.Algebra.Order.BigOperators.Group.Finset
import Mathlib.Algebra.Order.Group.Multiset
import Mathlib.Data.Multiset.Count
import Mathlib.Tactic.Abel

/-! # The rules of Hanabi

The game the server is for, by itself: colours of any type, ranks from `1` to `ranks`, hands that are
multisets of faces, and three kinds of moves. A card that is played leaves its hand whether it fits
or not; a card is discarded only while a clue is missing; an empty deck leaves a smaller hand. Whose
turn it is, when the game ends and what the players know of the cards are no part of it.

A move keeps the cards of the position (`cards_move`), and so what is lost can never be played any
more: once all copies of a face are among the lost ones, the column of its colour stays below it in
every later position (`top_lt_of_lost`). -/

namespace HanabiBot.HanabiGame.Rules

open HanabiBot.Lib.Runs

/-- The highest rank, and the largest number of clues. -/
structure Limits where
  ranks : ℕ
  clues : ℕ

/-- A game of `n` players, as one sees it who sees all cards. -/
@[ext] structure Position (C : Type*) (n : ℕ) where
  deck : List (C × ℕ)
  hands : Fin n → Multiset (C × ℕ)
  top : C → ℕ
  lost : Multiset (C × ℕ)
  clues : ℕ
  fuses : ℕ

/-- What a clue is about. -/
inductive About (C : Type*) where
  | colour (c : C)
  | rank (r : ℕ)
deriving DecidableEq

inductive Move (C : Type*) (n : ℕ) where
  | play (i : Fin n) (f : C × ℕ)
  | discard (i : Fin n) (f : C × ℕ)
  | clue (i j : Fin n) (about : About C)

/-- The sum after an update. -/
theorem sum_update {ι M : Type*} [Fintype ι] [DecidableEq ι] [AddCommMonoid M] (g : ι → M) (i : ι)
    (b : M) : ∑ j, Function.update g i b j + g i = ∑ j, g j + b := by
  rw [Finset.sum_update_of_mem (Finset.mem_univ i), ← Finset.sum_sdiff (Finset.subset_univ {i}),
    Finset.sum_singleton, add_assoc, add_comm]

section Columns
variable {C : Type*}

/-- The faces `1` to `top` of a colour. -/
def column (c : C) (top : ℕ) : Multiset (C × ℕ) :=
  ((List.range top).map fun k => (c, k + 1) : List (C × ℕ))

theorem column_succ (c : C) (top : ℕ) : column c (top + 1) = column c top + {(c, top + 1)} := by
  unfold column
  rw [List.range_succ, List.map_append, ← Multiset.coe_add]
  rfl

theorem mem_column {c : C} {top : ℕ} {f : C × ℕ} :
    f ∈ column c top ↔ f.1 = c ∧ 1 ≤ f.2 ∧ f.2 ≤ top := by
  obtain ⟨d, r⟩ := f
  simp only [column, Multiset.mem_coe, List.mem_map, List.mem_range, Prod.mk.injEq]
  constructor
  · rintro ⟨k, hk, rfl, rfl⟩
    exact ⟨rfl, by omega, by omega⟩
  · rintro ⟨rfl, hr, ht⟩
    exact ⟨r - 1, by omega, rfl, by omega⟩

end Columns

section Rules
variable {C : Type*} [DecidableEq C] {n : ℕ} (lim : Limits)

/-- The clue is true of a face. -/
def About.names : About C → C × ℕ → Prop
  | .colour c, f => f.1 = c
  | .rank r, f => f.2 = r

instance : ∀ (about : About C) (f : C × ℕ), Decidable (about.names f)
  | .colour c, f => inferInstanceAs (Decidable (f.1 = c))
  | .rank r, f => inferInstanceAs (Decidable (f.2 = r))

/-- The face is the next of its column. -/
def Position.Next (p : Position C n) (f : C × ℕ) : Prop := p.top f.1 + 1 = f.2

instance (p : Position C n) (f : C × ℕ) : Decidable (p.Next f) :=
  inferInstanceAs (Decidable (_ = _))

/-- The clue names a face of the hand. -/
def Position.Named (p : Position C n) (j : Fin n) (about : About C) : Prop :=
  ∃ f ∈ p.hands j, about.names f

instance (p : Position C n) (j : Fin n) (about : About C) : Decidable (p.Named j about) :=
  Multiset.decidableExistsMultiset

/-- Takes a face out of a hand, and draws another if there is one. -/
def Position.redraw (p : Position C n) (i : Fin n) (f : C × ℕ) : Position C n :=
  { p with
    deck := p.deck.tail
    hands := Function.update p.hands i (p.deck.head?.toList + (p.hands i).erase f) }

/-- Puts a face on its column. -/
def Position.raise (p : Position C n) (f : C × ℕ) : Position C n :=
  { p with top := Function.update p.top f.1 f.2 }

/-- The clue that the highest face of a column earns. -/
def Position.earn (p : Position C n) (f : C × ℕ) : Position C n :=
  { p with clues := if f.2 = lim.ranks ∧ p.clues < lim.clues then p.clues + 1 else p.clues }

/-- Loses a face. -/
def Position.lose (p : Position C n) (f : C × ℕ) : Position C n := { p with lost := f ::ₘ p.lost }

/-- **The moves.** -/
def move (p : Position C n) : Move C n → Option (Position C n)
  | .play i f =>
    if f ∈ p.hands i then
      if p.Next f then some (((p.raise f).redraw i f).earn lim f)
      else if 0 < p.fuses then some (({ p with fuses := p.fuses - 1 }.lose f).redraw i f)
      else none
    else none
  | .discard i f =>
    if f ∈ p.hands i ∧ p.clues < lim.clues then
      some (({ p with clues := p.clues + 1 }.lose f).redraw i f)
    else none
  | .clue i j about =>
    if 0 < p.clues ∧ j ≠ i ∧ p.Named j about then
      some { p with clues := p.clues - 1 }
    else none

/-- **All that a move can do.** -/
theorem move_cases {p q : Position C n} {m : Move C n} (h : move lim p m = some q) :
    (∃ i f, m = .play i f ∧ f ∈ p.hands i ∧ p.Next f ∧ q = ((p.raise f).redraw i f).earn lim f) ∨
    (∃ i f, m = .play i f ∧ f ∈ p.hands i ∧ ¬ p.Next f ∧ 0 < p.fuses ∧
      q = ({ p with fuses := p.fuses - 1 }.lose f).redraw i f) ∨
    (∃ i f, m = .discard i f ∧ f ∈ p.hands i ∧ p.clues < lim.clues ∧
      q = ({ p with clues := p.clues + 1 }.lose f).redraw i f) ∨
    ∃ i j about, m = .clue i j about ∧ (0 < p.clues ∧ j ≠ i ∧ p.Named j about) ∧
      q = { p with clues := p.clues - 1 } := by
  cases m with
  | play i f =>
    simp only [move, Option.ite_none_right_eq_some] at h
    obtain ⟨hmem, h⟩ := h
    by_cases hnext : p.Next f
    · rw [if_pos hnext] at h
      exact Or.inl ⟨i, f, rfl, hmem, hnext, (Option.some.inj h).symm⟩
    · rw [if_neg hnext, Option.ite_none_right_eq_some] at h
      exact Or.inr (Or.inl ⟨i, f, rfl, hmem, hnext, h.1, (Option.some.inj h.2).symm⟩)
  | discard i f =>
    simp only [move, Option.ite_none_right_eq_some] at h
    exact Or.inr (Or.inr (Or.inl ⟨i, f, rfl, h.1.1, h.1.2, (Option.some.inj h.2).symm⟩))
  | clue i j about =>
    simp only [move, Option.ite_none_right_eq_some] at h
    exact Or.inr (Or.inr (Or.inr ⟨i, j, about, rfl, h.1, (Option.some.inj h.2).symm⟩))

/-- The clues never exceed their number. -/
theorem clues_move {p q : Position C n} (hp : p.clues ≤ lim.clues) {m : Move C n}
    (hm : move lim p m = some q) : q.clues ≤ lim.clues := by
  rcases move_cases lim hm with ⟨i, f, -, -, -, rfl⟩ | ⟨i, f, -, -, -, -, rfl⟩ |
    ⟨i, f, -, -, hlt, rfl⟩ | ⟨i, j, a, -, -, rfl⟩
  · show (if f.2 = lim.ranks ∧ p.clues < lim.clues then p.clues + 1 else p.clues) ≤ lim.clues
    split_ifs with hif
    · exact hif.2
    · exact hp
  · exact hp
  · exact hlt
  · exact (Nat.sub_le _ _).trans hp

/-- The move plays no face that is not the next of its column. -/
def Fitting (p : Position C n) : Move C n → Prop
  | .play _ f => p.Next f
  | _ => True

instance (p : Position C n) : ∀ m, Decidable (Fitting p m)
  | .play _ f => inferInstanceAs (Decidable (p.Next f))
  | .discard _ _ => isTrue trivial
  | .clue _ _ _ => isTrue trivial

/-! ### What is lost -/

variable [Fintype C]

/-- All the cards: in the deck, in the hands, on the table and lost. -/
def Position.cards (p : Position C n) : Multiset (C × ℕ) :=
  p.deck + ∑ i, p.hands i + p.lost + ∑ c, column c (p.top c)

/-- A redraw takes the face out of the game. -/
theorem cards_redraw {p : Position C n} {i : Fin n} {f : C × ℕ} (h : f ∈ p.hands i) :
    (p.redraw i f).cards + {f} = p.cards := by
  have hhands := sum_update p.hands i (p.deck.head?.toList + (p.hands i).erase f)
  have herase : (p.hands i).erase f + {f} = p.hands i := by
    rw [add_comm, Multiset.singleton_add, Multiset.cons_erase h]
  have hdeck : ((p.deck.tail : List (C × ℕ)) : Multiset (C × ℕ)) + p.deck.head?.toList = p.deck := by
    cases p.deck with
    | nil => rfl
    | cons d rest =>
      rw [add_comm]
      rfl
  refine add_right_cancel (b := p.hands i) ?_
  calc (p.redraw i f).cards + {f} + p.hands i
      = p.deck.tail + (∑ j, Function.update p.hands i
          (p.deck.head?.toList + (p.hands i).erase f) j + p.hands i) + {f} + p.lost +
          ∑ c, column c (p.top c) := by unfold Position.cards Position.redraw; simp only; abel
    _ = (p.deck.tail + p.deck.head?.toList) + ((p.hands i).erase f + {f}) + ∑ j, p.hands j + p.lost +
          ∑ c, column c (p.top c) := by rw [hhands]; abel
    _ = p.cards + p.hands i := by rw [hdeck, herase]; unfold Position.cards; abel

theorem cards_raise {p : Position C n} {f : C × ℕ} (h : p.Next f) :
    (p.raise f).cards = p.cards + {f} := by
  have hcols := sum_update (fun c => column c (p.top c)) f.1 (column f.1 f.2)
  have hcol : column f.1 f.2 = column f.1 (p.top f.1) + {f} := by
    rw [← show p.top f.1 + 1 = f.2 from h, column_succ, show p.top f.1 + 1 = f.2 from h]
  have hmap : (fun c => column c (Function.update p.top f.1 f.2 c)) =
      Function.update (fun c => column c (p.top c)) f.1 (column f.1 f.2) := by
    funext c
    by_cases hc : c = f.1
    · subst hc
      simp only [Function.update_self]
    · simp only [Function.update_of_ne hc]
  refine add_right_cancel (b := column f.1 (p.top f.1)) ?_
  calc (p.raise f).cards + column f.1 (p.top f.1)
      = p.deck + ∑ i, p.hands i + p.lost + (∑ c, Function.update (fun c => column c (p.top c)) f.1
          (column f.1 f.2) c + column f.1 (p.top f.1)) := by
            unfold Position.cards Position.raise
            simp only [hmap]
            abel
    _ = p.cards + {f} + column f.1 (p.top f.1) := by
            rw [hcols, hcol]
            unfold Position.cards
            abel

omit [DecidableEq C] in
theorem cards_lose (p : Position C n) (f : C × ℕ) : (p.lose f).cards = p.cards + {f} := by
  simp only [Position.cards, Position.lose, ← Multiset.singleton_add]
  abel

/-- **A move keeps the cards**, and what is lost stays lost. -/
theorem cards_move {p q : Position C n} {m : Move C n} (h : move lim p m = some q) :
    q.cards = p.cards ∧ p.lost ≤ q.lost := by
  rcases move_cases lim h with ⟨i, f, -, hmem, hnext, rfl⟩ | ⟨i, f, -, hmem, -, -, rfl⟩ |
    ⟨i, f, -, hmem, -, rfl⟩ | ⟨i, j, about, -, -, rfl⟩
  · refine ⟨add_right_cancel (b := {f}) ?_, le_rfl⟩
    exact (cards_redraw (p := p.raise f) hmem).trans (cards_raise hnext)
  · refine ⟨add_right_cancel (b := {f}) ?_, Multiset.le_cons_self _ _⟩
    exact (cards_redraw (p := ({ p with fuses := p.fuses - 1 } : Position C n).lose f) hmem).trans
      (cards_lose _ f)
  · refine ⟨add_right_cancel (b := {f}) ?_, Multiset.le_cons_self _ _⟩
    exact (cards_redraw (p := ({ p with clues := p.clues + 1 } : Position C n).lose f) hmem).trans
      (cards_lose _ f)
  · exact ⟨rfl, le_rfl⟩

omit [DecidableEq C] in
/-- The faces on the table. -/
theorem mem_columns {p : Position C n} {f : C × ℕ} :
    f ∈ ∑ c, column c (p.top c) ↔ 1 ≤ f.2 ∧ f.2 ≤ p.top f.1 := by
  rw [Multiset.mem_sum]
  constructor
  · rintro ⟨c, -, hc⟩
    obtain ⟨rfl, h⟩ := mem_column.mp hc
    exact h
  · intro h
    exact ⟨f.1, Finset.mem_univ _, mem_column.mpr ⟨rfl, h⟩⟩

/-- **A face whose copies are all lost is not on the table.** -/
theorem top_lt {p : Position C n} {f : C × ℕ} (hf : 1 ≤ f.2)
    (hlost : p.cards.count f ≤ p.lost.count f) : p.top f.1 < f.2 := by
  by_contra hle
  have hcol : 0 < (∑ c, column c (p.top c)).count f :=
    Multiset.count_pos.mpr (mem_columns.mpr ⟨hf, by omega⟩)
  unfold Position.cards at hlost
  simp only [Multiset.count_add] at hlost
  omega

section Run
variable {p q : Position C n} {ms : List (Move C n)} (hr : reach (move lim) p ms = some q)
include hr

theorem cards_reach : q.cards = p.cards ∧ p.lost ≤ q.lost :=
  inv_reach (I := fun q => q.cards = p.cards ∧ p.lost ≤ q.lost) (fun _ _ _ h hm =>
    ⟨(cards_move lim hm).1.trans h.1, h.2.trans (cards_move lim hm).2⟩) ⟨rfl, le_rfl⟩ hr

/-- **What is lost stays out of reach.** Once all copies of a face are lost, no later position has
it on the table. -/
theorem top_lt_of_lost {f : C × ℕ} (hf : 1 ≤ f.2) (hlost : p.cards.count f ≤ p.lost.count f) :
    q.top f.1 < f.2 := by
  obtain ⟨hcards, hle⟩ := cards_reach lim hr
  exact top_lt hf (hcards ▸ hlost.trans (Multiset.count_le_of_le f hle))

/-- The columns are as high as the ranks allow, and that of a lost face is lower. -/
theorem score_le_of_lost {f : C × ℕ} (hf : 1 ≤ f.2) (hlost : p.cards.count f ≤ p.lost.count f)
    (hranks : ∀ f ∈ p.cards, f.2 ≤ lim.ranks) :
    ∑ c, q.top c + lim.ranks ≤ Fintype.card C * lim.ranks + (f.2 - 1) := by
  have hcards := (cards_reach lim hr).1
  have htop (c : C) : q.top c ≤ lim.ranks := by
    rcases Nat.eq_zero_or_pos (q.top c) with h0 | hpos
    · omega
    · have hmem : (c, q.top c) ∈ q.cards :=
        Multiset.mem_add.mpr (Or.inr (mem_columns.mpr ⟨hpos, le_rfl⟩))
      exact hranks _ (hcards ▸ hmem)
  have hlt := top_lt_of_lost lim hr hf hlost
  have hrest : ∑ c ∈ Finset.univ.erase f.1, q.top c ≤ (Finset.univ.erase f.1).card * lim.ranks :=
    Finset.sum_le_card_nsmul _ _ _ fun c _ => htop c
  have hcount : (Finset.univ.erase f.1).card + 1 = Fintype.card C :=
    Finset.card_erase_add_one (Finset.mem_univ f.1)
  rw [← Finset.add_sum_erase _ _ (Finset.mem_univ f.1), ← hcount, Nat.succ_mul]
  omega

end Run

end Rules

end HanabiBot.HanabiGame.Rules
