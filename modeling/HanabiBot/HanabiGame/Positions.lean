import HanabiBot.HanabiGame.Rules
import HanabiBot.HanabiGame.Steps

/-! # A game as a position of the rules

`position` reads a state of the server's game as a position of the rules: a placeholder is no card,
and the order of a hand is forgotten. What `Actions` says an action does to the game is what the
rules do to its position: a play that fits (`position_played`), a discard (`position_discarded`) and
a hint (`position_hinted`), which names a colour of the deck or a number on its cards
(`namedHint_ranged`). -/

namespace HanabiBot.HanabiGame.Positions

open HanabiBot.Lib.Calls HanabiBot.Lib.Lists HanabiBot.Common.Messages
open HanabiBot.HanabiGame.Cards HanabiBot.HanabiGame.State HanabiBot.HanabiGame.Play
open HanabiBot.HanabiGame.Dialogue HanabiBot.HanabiGame.Actions HanabiBot.HanabiGame.Hints
open HanabiBot.HanabiGame.Steps HanabiBot.HanabiGame.Rules

/-- A colour that a deck has. -/
abbrev Suit := { c : Colours // c.code < colourCount }

instance : Fintype Suit where
  elems := {⟨.red, by decide⟩, ⟨.blue, by decide⟩, ⟨.green, by decide⟩, ⟨.yellow, by decide⟩,
    ⟨.white, by decide⟩}
  complete := by
    rintro ⟨c, hc⟩
    cases c with
    | numColours => exact absurd hc (by decide)
    | empty => exact absurd hc (by decide)
    | _ => simp

/-- `totalBlueTokens`, and the highest number on a card. -/
def limits : Limits := ⟨5, Game.totalBlueTokens.toNat⟩

/-- The face of a real card. -/
def suited (card : Card) : Option (Suit × ℕ) :=
  if h : card.Real then some (⟨card.colour, h.2.2⟩, card.number.toNat) else none

/-- The faces of the real cards of a list. -/
def suits (l : List Card) : List (Suit × ℕ) := l.filterMap suited

/-- **What the rules see of a game.** -/
def position (n : ℕ) (g : Game) : Position Suit n where
  deck := suits g.deck.undrawn
  hands i := suits (g.hands.getD i [])
  top c := (g.table.getD c.1.code 0).toNat
  lost := suits g.discardPile
  clues := g.numBlueTokens.toNat
  fuses := g.numBlackFuseTokens.toNat

/-- What a hint is about. -/
def about : Hint → Option (About Suit)
  | .colour c => if h : c.code < colourCount then some (.colour ⟨c, h⟩) else none
  | .number v => some (.rank v.toNat)

/-! ### Faces -/

theorem suited_real {card : Card} (h : card.Real) :
    suited card = some (⟨card.colour, h.2.2⟩, card.number.toNat) := dif_pos h

theorem suited_placeholder : suited Card.placeholder = none := dif_neg Card.not_real_placeholder

/-- What a card counts for. -/
def counted (card : Card) : Multiset (Suit × ℕ) := (suited card).toList

theorem suits_eq (l : List Card) : (suits l : Multiset (Suit × ℕ)) = (l.map counted).sum := by
  induction l with
  | nil => rfl
  | cons card l ih =>
    rw [List.map_cons, List.sum_cons, ← ih]
    unfold suits counted
    cases h : suited card with
    | none => rw [List.filterMap_cons_none h]; exact (zero_add _).symm
    | some f => rw [List.filterMap_cons_some h]; rfl

theorem suits_concat (l : List Card) (card : Card) :
    (suits (l ++ [card]) : Multiset (Suit × ℕ)) = counted card + suits l := by
  rw [suits_eq, suits_eq, List.map_append, List.sum_append, List.map_singleton, List.sum_singleton,
    add_comm]

theorem suits_reveal (hint : Hint) (hand : List Card) :
    (suits (revealHand hint hand) : Multiset (Suit × ℕ)) = suits hand := by
  rw [suits_eq, suits_eq, revealHand, List.map_map]
  refine congrArg List.sum (List.map_congr_left fun card _ => ?_)
  rw [Function.comp_apply]
  split_ifs
  · cases hint <;> rfl
  · rfl

/-- A card of a hand is replaced. -/
theorem suits_set {hand : List Card} {k : ℕ} {card : Card} {f : Suit × ℕ} (h : hand[k]? = some card)
    (hf : suited card = some f) (new : Card) : f ∈ suits hand ∧
      (suits (hand.set k new) : Multiset (Suit × ℕ)) = counted new + (suits hand : Multiset _).erase f := by
  have hmem : f ∈ suits hand := List.mem_filterMap.mpr ⟨card, List.mem_of_getElem? h, hf⟩
  have hsum := sum_map_set (f := counted) (b := new) h
  have hcard : counted card = {f} := by rw [counted, hf]; rfl
  rw [← suits_eq, ← suits_eq, hcard, add_comm, Multiset.singleton_add] at hsum
  refine ⟨hmem, (Multiset.cons_inj_right f).mp ?_⟩
  rw [hsum, ← Multiset.add_cons, Multiset.cons_erase (Multiset.mem_coe.mpr hmem), add_comm]

/-- A draw takes the first face of the deck. -/
theorem suits_draw {d : Deck} (h : ∀ card ∈ d.undrawn, card.Real) :
    suits d.draw.2.undrawn = (suits d.undrawn).tail ∧
      counted d.draw.1 = (suits d.undrawn).head?.toList := by
  rcases d.draw_cases with hd | ⟨hd, he⟩
  · have hreal := h d.draw.1 (hd ▸ List.mem_cons_self)
    have hcons : suits d.undrawn = (⟨d.draw.1.colour, hreal.2.2⟩, d.draw.1.number.toNat) ::
        suits d.draw.2.undrawn := by
      rw [hd, suits, List.filterMap_cons_some (suited_real hreal)]
      rfl
    rw [hcons, counted, suited_real hreal]
    exact ⟨rfl, rfl⟩
  · rw [he]
    simp only [hd]
    exact ⟨rfl, rfl⟩

/-! ### The four changes -/

section Changes
variable {n : ℕ} {g : Game} {i : Fin n} {k : ℕ} {card : Card} {f : Suit × ℕ}

/-- The hands after a change of one of them. -/
theorem position_hands (hands : List (List Card)) (hn : hands.length = n) (h : List Card → List Card)
    (j : Fin n) : (suits ((hands.modify i h).getD j []) : Multiset (Suit × ℕ)) =
      Function.update (fun j : Fin n => (suits (hands.getD j []) : Multiset (Suit × ℕ))) i
        (suits (h (hands.getD i []))) j := by
  by_cases hj : j = i
  · subst hj
    have hlt : (j : ℕ) < hands.length := hn.symm ▸ j.isLt
    rw [Function.update_self, List.getD_eq_getElem?_getD, List.getElem?_modify_eq,
      List.getD_eq_getElem?_getD, List.getElem?_eq_getElem hlt]
    rfl
  · have hne : (i : ℕ) ≠ j := fun he => hj (Fin.ext he.symm)
    rw [Function.update_of_ne hj, List.getD_eq_getElem?_getD, List.getElem?_modify,
      List.getD_eq_getElem?_getD]
    simp only [if_neg hne, id_map']

/-- A redraw is that of the rules. -/
theorem position_redraw (h : Shape n g) (hc : cardAt g i k = .ok card) (hf : suited card = some f) :
    f ∈ (position n g).hands i ∧ position n (redraw g i k) = (position n g).redraw i f := by
  obtain ⟨hand, hh, hk⟩ := cardAt_ok hc
  have hget : g.hands.getD i [] = hand := by rw [List.getD_eq_getElem?_getD, hh]; rfl
  obtain ⟨hmem, hset⟩ := suits_set hk hf g.deck.draw.1
  obtain ⟨hdeck, hdrawn⟩ := suits_draw h.undrawn
  refine ⟨by simpa only [position, hget, Multiset.mem_coe] using hmem, Position.ext hdeck ?_ rfl rfl rfl rfl⟩
  funext j
  refine (position_hands g.hands h.hands _ j).trans ?_
  rw [hget, hset, hdrawn]
  simp only [Position.redraw, position, hget]

/-- The card fits exactly if its face is the next of the rules. -/
theorem fits_iff (h : Shape n g) (hr : card.Real) (hf : suited card = some f) :
    Fits g card ↔ (position n g).Next f := by
  cases (suited_real hr).symm.trans hf
  obtain ⟨top, ht⟩ := (h.table_some (Or.inl hr)).mpr hr
  have htop := h.tops top (List.mem_of_getElem? ht)
  have hnum := hr.1
  have hget : g.table.getD card.colour.code 0 = top := by rw [List.getD_eq_getElem?_getD, ht]; rfl
  unfold Fits Position.Next
  simp only [position, hget, ht, Option.some.injEq, exists_eq_left']
  omega

/-- So is the raise of a column. -/
theorem position_raise (h : Shape n g) (hf : suited card = some f) (hr : card.Real) :
    position n { g with table := g.table.set card.colour.code card.number } =
      (position n g).raise f := by
  cases (suited_real hr).symm.trans hf
  refine Position.ext rfl rfl (funext fun c => ?_) rfl rfl rfl
  have hlt : card.colour.code < g.table.length := h.table.symm ▸ hr.2.2
  simp only [position, Position.raise]
  by_cases hc : c = ⟨card.colour, hr.2.2⟩
  · subst hc
    rw [Function.update_self, List.getD_eq_getElem?_getD, List.getElem?_set_self hlt]
    rfl
  · have hne : card.colour.code ≠ c.1.code := fun he => hc (Subtype.ext (by
      rw [← Colours.ofCode_code c.1, ← he, Colours.ofCode_code]))
    rw [Function.update_of_ne hc, List.getD_eq_getElem?_getD, List.getElem?_set_ne hne,
      ← List.getD_eq_getElem?_getD]

/-- And the reward. -/
theorem position_rewarded (hb : 0 ≤ g.numBlueTokens) (hf : suited card = some f) (hr : card.Real) :
    position n (rewarded card g) = (position n g).earn limits f := by
  cases (suited_real hr).symm.trans hf
  have hiff : (card.number = 5 ∧ g.numBlueTokens < Game.totalBlueTokens) ↔
      card.number.toNat = limits.ranks ∧ (position n g).clues < limits.clues := by
    have h8 : Game.totalBlueTokens = 8 := rfl
    have hranks : limits.ranks = 5 := rfl
    have hclues : limits.clues = 8 := rfl
    have h1 := hr.1
    simp only [position]
    omega
  unfold rewarded Position.earn
  by_cases h : card.number = 5 ∧ g.numBlueTokens < Game.totalBlueTokens
  · simp only [if_pos h, if_pos (hiff.mp h)]
    exact Position.ext rfl rfl rfl rfl (Int.toNat_add hb Int.one_nonneg) rfl
  · simp only [if_neg h, if_neg (mt hiff.mpr h)]

/-- **A play that fits is that of the rules.** -/
theorem position_played (h : Shape n g) (hb : 0 ≤ g.numBlueTokens) (hc : cardAt g i k = .ok card)
    (hr : card.Real) (hf : suited card = some f) :
    position n (played g i k card) = (((position n g).raise f).redraw i f).earn limits f := by
  have hredraw := (position_redraw (h.raised (Int.le_trans Int.one_nonneg hr.1)) hc hf).2
  rw [position_raise h hf hr] at hredraw
  exact (position_rewarded
    (g := redraw { g with table := g.table.set card.colour.code card.number } i k) hb hf hr).trans
      (congrArg (Position.earn limits · f) hredraw)

/-- **So is a discard.** -/
theorem position_discarded (h : Shape n g) (hb : 0 ≤ g.numBlueTokens) (hc : cardAt g i k = .ok card)
    (hf : suited card = some f) : position n (discarded g i k card) =
      (({ position n g with clues := (position n g).clues + 1 } : Position Suit n).lose f).redraw i f := by
  have hg : Shape n { g with
    numBlueTokens := g.numBlueTokens + 1
    discardPile := g.discardPile ++ [card] } := { h with }
  have hpile : (suits (g.discardPile ++ [card]) : Multiset (Suit × ℕ)) = f ::ₘ suits g.discardPile := by
    rw [suits_concat, counted, hf]
    rfl
  refine (position_redraw hg hc hf).2.trans (congrArg (Position.redraw · i f) ?_)
  exact Position.ext rfl rfl rfl hpile (Int.toNat_add hb Int.one_nonneg) rfl

/-- **So is a hint.** -/
theorem position_hinted (h : Shape n g) (j : Fin n) (hint : Hint) : position n (hinted g j hint) =
    { position n g with clues := (position n g).clues - 1 } := by
  refine Position.ext rfl (funext fun l => ?_) rfl rfl ?_ rfl
  · refine (position_hands g.hands h.hands _ l).trans ?_
    rw [suits_reveal]
    by_cases hl : l = j
    · subst hl
      rw [Function.update_self]
      rfl
    · rw [Function.update_of_ne hl]
      rfl
  · simp only [position, hinted]
    omega

end Changes

/-! ### The hint that is named -/

/-- A hint that the dialogue of `giveHint` can name. -/
def Ranged : Hint → Prop
  | .colour c => c.code < colourCount
  | .number v => 1 ≤ v ∧ v ≤ 5

theorem code_ofCode : ∀ {k : ℕ}, k < colourCount → (Colours.ofCode k).code = k := by decide

section Named
variable {env : Env} {player : Player} {i j : ℕ} {w w' : World} {given : Given}

theorem namedHintTo_ok {hint : Hint}
    (h : (namedHintTo env player i j hint).run w = .ok (some (some given)) w') : given.2 = hint := by
  obtain ⟨o, w1, -, h⟩ := bind_eq_ok h
  match o with
  | some true => cases h; rfl
  | some false => cases h
  | none => cases h

theorem namedColourRound_ok (h : (namedColourRound env player i j).run w = .ok (some (some given)) w') :
    Ranged given.2 := by
  obtain ⟨v, w1, hv, h⟩ := bind_eq_ok h
  have hrange := (requestInt_ok hv).2
  split_ifs at h with hback
  · cases h
  · rw [namedHintTo_ok h]
    have hlt : v.toNat < colourCount := by
      have h5 : colourCount = 5 := rfl
      omega
    show (Colours.ofCode v.toNat).code < colourCount
    rw [code_ofCode hlt]
    exact hlt

theorem namedNumberRound_ok (h : (namedNumberRound env player i j).run w = .ok (some (some given)) w') :
    Ranged given.2 := by
  obtain ⟨v, w1, hv, h⟩ := bind_eq_ok h
  have hrange := (requestInt_ok hv).2
  split_ifs at h with hzero hback
  · cases h
  · cases h
  · rw [namedHintTo_ok h]
    exact ⟨by omega, hrange.2⟩

/-- A loop of rounds names what one of them does. -/
theorem untilSome_ok {body : GameM (Option (Option Given))} (hs : Shrinks World.pending body)
    (hbody : ∀ w w' given, body.run w = .ok (some (some given)) w' → Ranged given.2)
    (h : (untilSome .outOfFuel World.pending body).run w = .ok (some given) w') : Ranged given.2 := by
  refine untilSome_rule Stop.outOfFuel hs
    (P := fun _ r => ∀ given w', r = .ok (some given) w' → Ranged given.2) ?_ ?_ ?_ w given w' h
  · intro w o w1 hr given w' he
    cases he
    exact hbody w w1 given hr
  · intro w w1 r _ ih
    exact ih
  · intro w e w1 _ given w' he
    cases he

/-- **What `giveHint` names** is a colour of the deck, or a number on its cards. -/
theorem namedHint_ranged (h : (namedHint env i).run w = .ok (some given) w') : Ranged given.2 := by
  obtain ⟨player, w1, -, h⟩ := bind_eq_ok h
  obtain ⟨tokens, w2, -, h⟩ := bind_eq_ok h
  split_ifs at h
  · obtain ⟨_, w3, -, h⟩ := bind_eq_ok h
    cases h
  obtain ⟨_, w3, -, h⟩ := bind_eq_ok h
  obtain ⟨hintee, w4, -, h⟩ := bind_eq_ok h
  split_ifs at h
  · cases h
  obtain ⟨_, w5, -, h⟩ := bind_eq_ok h
  obtain ⟨_, w6, -, h⟩ := bind_eq_ok h
  obtain ⟨_, w7, -, h⟩ := bind_eq_ok h
  obtain ⟨hintType, w8, -, h⟩ := bind_eq_ok h
  split_ifs at h
  · cases h
  · obtain ⟨_, w9, -, h⟩ := bind_eq_ok h
    obtain ⟨_, w10, -, h⟩ := bind_eq_ok h
    exact untilSome_ok (shrinks_namedColourRound env _ _) (fun _ _ _ => namedColourRound_ok) h
  · obtain ⟨_, w9, -, h⟩ := bind_eq_ok h
    obtain ⟨_, w10, -, h⟩ := bind_eq_ok h
    exact untilSome_ok (shrinks_namedNumberRound env _ _) (fun _ _ _ => namedNumberRound_ok) h

end Named

/-- Of the cards a player holds, the hint targets those whose face it names. -/
theorem about_ranged {hint : Hint} (h : Ranged hint) : ∃ a, about hint = some a ∧
    ∀ card, Held card → (hint.targets card = true ↔ ∃ f, suited card = some f ∧ a.names f) := by
  cases hint with
  | colour c =>
    refine ⟨.colour ⟨c, h⟩, dif_pos h, ?_⟩
    rintro card (hr | rfl)
    · rw [suited_real hr]
      simp [Hint.targets, About.names, Subtype.ext_iff]
    · refine iff_of_false (fun ht => ?_) fun ⟨f, hf, _⟩ => by cases suited_placeholder.symm.trans hf
      have he : Colours.empty = c := of_decide_eq_true ht
      have hlt : Colours.empty.code < colourCount := he ▸ h
      exact absurd hlt (by decide)
  | number v =>
    refine ⟨.rank v.toNat, rfl, ?_⟩
    obtain ⟨h1, h5⟩ := h
    rintro card (hr | rfl)
    · rw [suited_real hr]
      have hn := hr.1
      simp only [Hint.targets, About.names, decide_eq_true_eq, Option.some.injEq, exists_eq_left']
      omega
    · refine iff_of_false (fun ht => ?_) fun ⟨f, hf, _⟩ => by cases suited_placeholder.symm.trans hf
      have he : (0 : ℤ) = v := of_decide_eq_true ht
      omega

end HanabiBot.HanabiGame.Positions
