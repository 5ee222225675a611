import HanabiBot.HanabiGame.Secrecy

/-! # What a player is told

Two games that are the same for player `i` stay so through a call in which what is told to player
`i` is the same in both (`Public`): the face of a card that is played or discarded, the places of
the hand of player `i` that a hint touches that is asked for it, and what the others draw.

`asked` are the hints a call of `giveHint` asks for, by the game and the responses alone: up to the
first that finds a card, or until the player gives up. -/

namespace HanabiBot.HanabiGame.Told

open HanabiBot.Common.Messages
open HanabiBot.HanabiGame.Cards HanabiBot.HanabiGame.State HanabiBot.HanabiGame.Play
open HanabiBot.HanabiGame.Dialogue HanabiBot.HanabiGame.Actions HanabiBot.HanabiGame.Steps
open HanabiBot.HanabiGame.Secrecy

/-! ### What is told -/

section Told
variable (parse : Bytes → ClientResponse)

/-- The first option within the bounds, and the responses behind it. -/
def firstOption (lower higher : ℤ) : List Bytes → Option (ℤ × List Bytes)
  | [] => none
  | b :: rest =>
    if higher < optionOf parse b ∨ optionOf parse b < lower then firstOption lower higher rest
    else some (optionOf parse b, rest)

/-- The hintee that player `i` of `n` names, or `-1`, and the responses behind it. -/
def hinteeOf (n i : ℕ) : List Bytes → Option (ℤ × List Bytes)
  | [] => none
  | b :: rest =>
    if (n : ℤ) - 1 < optionOf parse b ∨ optionOf parse b < -1 then hinteeOf n i rest
    else if optionOf parse b = i then hinteeOf n i rest
    else some (optionOf parse b, rest)

/-- The hints asked for by the options up to `higher`, until one is `found` to touch a card. -/
def hintsOf (higher : ℤ) (hintAt : ℤ → Option Hint) (found : Hint → Bool) : List Bytes → List Hint
  | [] => []
  | b :: rest =>
    if higher < optionOf parse b ∨ optionOf parse b < -1 then hintsOf higher hintAt found rest
    else if optionOf parse b = -1 then []
    else
      match hintAt (optionOf parse b) with
      | none => hintsOf higher hintAt found rest
      | some hint => hint :: if found hint then [] else hintsOf higher hintAt found rest

def colourAt (v : ℤ) : Option Hint := some (.colour (Colours.ofCode v.toNat))

def numberAt (v : ℤ) : Option Hint := if v = 0 then none else some (.number v)

/-- The hint touches a card of player `j`. -/
def found (g : Game) (j : ℕ) (hint : Hint) : Bool := ((g.hands[j]?).getD []).any hint.targets

/-- The hints that player `i` asks for, and whom they are for, if all writes go out. -/
def asked (g : Game) (i : ℕ) (responses : List Bytes) : List (ℕ × Hint) :=
  if g.numBlueTokens = 0 then []
  else
    match hinteeOf parse g.numPlayers i responses with
    | none => []
    | some (hintee, rest) =>
      if hintee = -1 then []
      else
        match firstOption parse (-1) 1 rest with
        | none => []
        | some (kind, rest) =>
          if kind = -1 then []
          else
            (if kind = 0 then hintsOf parse (colourCount - 1) colourAt (found g hintee.toNat) rest
              else hintsOf parse 5 numberAt (found g hintee.toNat) rest).map (hintee.toNat, ·)

/-- The hint touches the same places of the hand of player `i`. -/
def Touches (i : ℕ) (g g' : Game) (hint : Hint) : Prop :=
  (g'.hands[i]?.getD []).map hint.targets = (g.hands[i]?.getD []).map hint.targets

/-- The next cards of the decks look the same to player `i` in the hand of player `r`. -/
def DrawnAlike (i r : ℕ) (g g' : Game) : Prop :=
  Seen g.deck.draw.1 g'.deck.draw.1 ∧ (r ≠ i → g'.deck.draw.1 = g.deck.draw.1)

variable {n : ℕ}

/-- **What player `i` is told is the same** in both games. -/
structure Public (i : ℕ) (g g' : Game) (c : Call n) : Prop where
  taken : c.action ≠ .hint → ∀ k m card, pick (c.env parse) g c.player 0 c.responses = some (k, m) →
    cardAt g c.player k = .ok card → cardAt g' c.player k = .ok card ∧
      (c.action = .discard ∨ Fits g card → DrawnAlike i c.player g g')
  hinted : c.action = .hint → ∀ hint, (i, hint) ∈ asked parse g c.player c.responses →
    Touches i g g' hint

end Told

section Responses
variable {parse : Bytes → ClientResponse}

theorem hinteeOf_first {n r : ℕ} {v : ℤ} {rest : List Bytes} :
    ∀ {inbox : List Bytes}, firstOption parse (-1) ((n : ℤ) - 1) inbox = some (v, rest) →
      hinteeOf parse n r inbox = if v = r then hinteeOf parse n r rest else some (v, rest)
  | [], hf => by cases hf
  | b :: inbox, hf => by
    unfold firstOption at hf
    rw [hinteeOf]
    split_ifs at hf with hout
    · rw [if_pos hout]
      exact hinteeOf_first hf
    · cases hf
      rw [if_neg hout]

theorem hintsOf_first {higher v : ℤ} {hintAt : ℤ → Option Hint}
    {found : Hint → Bool} {rest : List Bytes} :
    ∀ {inbox : List Bytes}, firstOption parse (-1) higher inbox = some (v, rest) →
      hintsOf parse higher hintAt found inbox = if v = -1 then [] else
        match hintAt v with
        | none => hintsOf parse higher hintAt found rest
        | some hint => hint :: if found hint then [] else hintsOf parse higher hintAt found rest
  | [], hf => by cases hf
  | b :: inbox, hf => by
    unfold firstOption at hf
    rw [hintsOf]
    split_ifs at hf with hout
    · rw [if_pos hout]
      exact hintsOf_first hf
    · cases hf
      rw [if_neg hout]

end Responses

/-! ### Games that are the same for a player -/

section Games
variable {i : ℕ} {g g' : Game}

/-- A place of a hand is filled. -/
theorem forall₂_set {hand hand' : List Card} (h : List.Forall₂ Seen hand hand') {card card' : Card}
    (hc : Seen card card') : ∀ k, List.Forall₂ Seen (hand.set k card) (hand'.set k card') := by
  induction h with
  | nil => exact fun _ => List.Forall₂.nil
  | cons hab hrest ih =>
    intro k
    cases k with
    | zero => exact List.Forall₂.cons hc hrest
    | succ k => exact List.Forall₂.cons hab (ih k)

/-- A card is touched by a hint, or is not. -/
theorem seen_reveal {card card' : Card} (h : Seen card card') {hint : Hint}
    (ht : hint.targets card' = hint.targets card) :
    Seen (if hint.targets card then hint.reveal card else card)
      (if hint.targets card' then hint.reveal card' else card') := by
  rw [ht]
  split_ifs with htargets
  · cases hint with
    | colour c =>
      have hc : card.colour = c := of_decide_eq_true htargets
      have hc' : card'.colour = c := of_decide_eq_true (ht.trans htargets)
      exact ⟨rfl, h.numberRevealed, fun _ => hc'.trans hc.symm, h.number, h.count⟩
    | number v =>
      have hv : card.number = v := of_decide_eq_true htargets
      have hv' : card'.number = v := of_decide_eq_true (ht.trans htargets)
      exact ⟨h.colourRevealed, rfl, h.colour, fun _ => hv'.trans hv.symm, h.count⟩
  · exact h

theorem forall₂_revealHand {hand hand' : List Card} (h : List.Forall₂ Seen hand hand') {hint : Hint}
    (ht : hand'.map hint.targets = hand.map hint.targets) :
    List.Forall₂ Seen (revealHand hint hand) (revealHand hint hand') := by
  induction h with
  | nil => exact List.Forall₂.nil
  | cons hab hrest ih =>
    obtain ⟨hhead, htail⟩ := List.cons.inj ht
    exact List.Forall₂.cons (seen_reveal hab hhead) (ih htail)

/-- The hand of one player is changed, alike in both games if it is that of player `i`. -/
theorem same_modify (h : SameFor i g g') {r : ℕ} (f f' : List Card → List Card)
    (hown : ∀ hand hand', r = i → g.hands[i]? = some hand → g'.hands[i]? = some hand' →
      List.Forall₂ Seen hand hand' → List.Forall₂ Seen (f hand) (f' hand'))
    (hothers : r ≠ i → f' = f) :
    (∀ j, j ≠ i → (g'.hands.modify r f')[j]? = (g.hands.modify r f)[j]?) ∧
      Option.Rel (List.Forall₂ Seen) (g.hands.modify r f)[i]? (g'.hands.modify r f')[i]? := by
  constructor
  · intro j hj
    rw [List.getElem?_modify, List.getElem?_modify, h.others j hj]
    by_cases hr : r = j
    · rw [hothers (hr ▸ hj)]
    · simp only [if_neg hr]
  · rw [List.getElem?_modify, List.getElem?_modify]
    rcases h.own_cases with ⟨hh, hh'⟩ | ⟨hand, hand', hh, hh', hseen⟩
    · rw [hh, hh']
      exact .none
    · rw [hh, hh']
      by_cases hr : r = i
      · simp only [hr, if_true, Option.map_eq_map, Option.map_some]
        exact .some (hown hand hand' hr hh hh' hseen)
      · simp only [if_neg hr, Option.map_eq_map, Option.map_some]
        exact .some hseen

theorem same_redraw (h : SameFor i g g') {r : ℕ} (k : ℕ) (hd : DrawnAlike i r g g') :
    SameFor i (redraw g r k) (redraw g' r k) := by
  obtain ⟨hothers, hown⟩ := same_modify h (r := r) (fun hand => hand.set k g.deck.draw.1)
    (fun hand => hand.set k g'.deck.draw.1)
    (fun _ _ _ _ _ hseen => forall₂_set hseen hd.1 k) fun hr => by rw [hd.2 hr]
  exact ⟨h.sockets, h.table, h.numBlueTokens, h.numBlackFuseTokens, hothers, hown⟩

theorem same_hinted (h : SameFor i g g') {j : ℕ} {hint : Hint} (ht : j = i → Touches i g g' hint) :
    SameFor i (hinted g j hint) (hinted g' j hint) := by
  obtain ⟨hothers, hown⟩ := same_modify h (r := j) (revealHand hint) (revealHand hint)
    (fun hand hand' hj hh hh' hseen => forall₂_revealHand hseen (by
      have htouches := ht hj
      rw [Touches, hh, hh'] at htouches
      exact htouches)) fun _ => rfl
  exact ⟨h.sockets, h.table, congrArg (· - 1) h.numBlueTokens, h.numBlackFuseTokens, hothers, hown⟩

theorem same_misplayed (h : SameFor i g g') (card : Card) :
    SameFor i (misplayed g card) (misplayed g' card) :=
  ⟨h.sockets, h.table, h.numBlueTokens, congrArg (· - 1) h.numBlackFuseTokens, h.others, h.own⟩

theorem same_rewarded (h : SameFor i g g') (card : Card) :
    SameFor i (rewarded card g) (rewarded card g') := by
  have hblue := h.numBlueTokens
  unfold Actions.rewarded
  by_cases hc : card.number = 5 ∧ g.numBlueTokens < Game.totalBlueTokens
  · rw [if_pos hc, if_pos (hblue ▸ hc)]
    exact ⟨h.sockets, h.table, congrArg (· + 1) hblue, h.numBlackFuseTokens, h.others, h.own⟩
  · rw [if_neg hc, if_neg (hblue ▸ hc)]
    exact h

theorem same_played (h : SameFor i g g') {r : ℕ} (k : ℕ) (card : Card) (hd : DrawnAlike i r g g') :
    SameFor i (played g r k card) (played g' r k card) := by
  have hraised : SameFor i { g with table := g.table.set card.colour.code card.number }
      { g' with table := g'.table.set card.colour.code card.number } :=
    ⟨h.sockets, by rw [h.table], h.numBlueTokens, h.numBlackFuseTokens, h.others, h.own⟩
  exact same_rewarded (same_redraw hraised k hd) card

theorem same_discarded (h : SameFor i g g') {r : ℕ} (k : ℕ) (card : Card)
    (hd : DrawnAlike i r g g') : SameFor i (discarded g r k card) (discarded g' r k card) := by
  have hthrown : SameFor i { g with
        numBlueTokens := g.numBlueTokens + 1, discardPile := g.discardPile ++ [card] }
      { g' with numBlueTokens := g'.numBlueTokens + 1, discardPile := g'.discardPile ++ [card] } :=
    ⟨h.sockets, h.table, congrArg (· + 1) h.numBlueTokens, h.numBlackFuseTokens, h.others, h.own⟩
  exact same_redraw hthrown k hd

end Games

end HanabiBot.HanabiGame.Told
