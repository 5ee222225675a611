import HanabiBot.Lib.Lists
import HanabiBot.HanabiGame.Hints

/-! # Runs of a game

A run starts from the `dealt` game and is a list of `Call`s: which action, by which player, with
which responses, on which network. `gameStep` is one call, with no next state where what the source
does is undefined. `taken` is the card a call takes from its player's hand, by the inputs of the
call alone, `named` the hint it gives, and `gameStep_cases` says all that a call can do.

`Shape` is what every call keeps (`shape_step`): the sizes of the vectors, and that a hand holds
real cards and placeholders, the deck and the table real cards only. -/

namespace HanabiBot.HanabiGame.Steps

open HanabiBot.Lib.Calls HanabiBot.Lib.Lists HanabiBot.Common.Messages
open HanabiBot.HanabiGame.Cards HanabiBot.HanabiGame.State HanabiBot.HanabiGame.Play
open HanabiBot.HanabiGame.Dialogue HanabiBot.HanabiGame.Actions HanabiBot.HanabiGame.Hints

/-- The three actions of `Game::selectAction`. -/
inductive Action where
  | play | discard | hint
deriving DecidableEq, Repr

/-- A call of `playCard`, `discardCard` or `giveHint` in a game of `n` players. -/
structure Call (n : ℕ) where
  action : Action
  player : Fin n
  responses : List Bytes
  writeOk : ℕ → Conn → Bool

section Step
variable (parse : Bytes → ClientResponse) {n : ℕ}

def Call.env (c : Call n) : Env := ⟨parse, c.writeOk⟩

/-- The world a call starts in. -/
def Call.opening (g : Game) (c : Call n) : World := ⟨g, c.responses, 0, []⟩

/-- What a call comes to. -/
def Call.result (g : Game) (c : Call n) : EStateM.Result Stop World Bool :=
  match c.action with
  | .play => (playCard (c.env parse) c.player).run (c.opening g)
  | .discard => (discardCard (c.env parse) c.player).run (c.opening g)
  | .hint => (giveHint (c.env parse) c.player).run (c.opening g)

/-- One call; `none` where what the source does is undefined. -/
def gameStep (g : Game) (c : Call n) : Option Game :=
  match c.action with
  | .play => outcome ((playCard (c.env parse) c.player).run (c.opening g))
  | .discard => outcome ((discardCard (c.env parse) c.player).run (c.opening g))
  | .hint => outcome ((giveHint (c.env parse) c.player).run (c.opening g))

/-- The index of the card a call selects, if the call goes on to take it: a play at once, a discard
if its announcement is heard by everyone. -/
def Call.selected (g : Game) (c : Call n) : Option ℕ :=
  match c.action, pick (c.env parse) g c.player 0 c.responses with
  | .play, some (k, _) => some k
  | .discard, some (k, m) => if heard (c.env parse) m g.players then some k else none
  | _, _ => none

/-- The card a call takes from the hand of its player, and the index of it. -/
def Call.taken (g : Game) (c : Call n) : Option (ℕ × Card) :=
  match c.selected parse g with
  | some k =>
    match cardAt g c.player k with
    | .ok card => some (k, card)
    | .error _ => none
  | none => none

/-- The hint a call of `giveHint` has given when it returns, and the player it was given to. -/
def Call.named (g : Game) (c : Call n) : Option Given :=
  match c.action with
  | .hint =>
    match (namedHint (c.env parse) c.player).run (c.opening g) with
    | .ok given _ => given
    | .error _ _ => none
  | _ => none

variable {parse}

theorem taken_eq {g : Game} {c : Call n} {k : ℕ} {card : Card} (hs : c.selected parse g = some k)
    (hc : cardAt g c.player k = .ok card) : c.taken parse g = some (k, card) := by
  simp only [Call.taken, hs, hc]

theorem taken_eq_none {g : Game} {c : Call n} (hs : c.selected parse g = none) :
    c.taken parse g = none := by
  simp only [Call.taken, hs]

theorem taken_hint {g : Game} {c : Call n} (ha : c.action = .hint) : c.taken parse g = none :=
  taken_eq_none (by simp only [Call.selected, ha])

theorem named_take {g : Game} {c : Call n} (ha : c.action ≠ .hint) : c.named parse g = none := by
  unfold Call.named
  cases hc : c.action with
  | play => rfl
  | discard => rfl
  | hint => exact absurd hc ha

theorem gameStep_eq (g : Game) (c : Call n) : gameStep parse g c = outcome (c.result parse g) := by
  unfold gameStep Call.result
  cases c.action <;> rfl

/-- What a call of `giveHint` comes to. -/
theorem hint_ends {g : Game} (hp : g.players.length = n) (hl : g.hands.length = n) (c : Call n)
    (ha : c.action = .hint) :
    c.named parse g = none ∧ Ends (some g) false (c.result parse g) ∨
      ∃ j hint, c.named parse g = some (j, hint) ∧ HintAllowed g c.player j hint ∧
        Ends (some (hinted g j hint)) true (c.result parse g) := by
  have hlt : (c.player : ℕ) < g.players.length := hp.symm ▸ c.player.isLt
  have hplayer : (c.opening g).game.players[(c.player : ℕ)]? = some g.players[(c.player : ℕ)] :=
    List.getElem?_eq_getElem hlt
  have hgives := namedHint_gives (c.env parse) hplayer (hl.trans hp.symm)
  have hresult : c.result parse g = (giveHint (c.env parse) c.player).run (c.opening g) := by
    simp only [Call.result, ha]
  rw [giveHint_eq, run_map] at hresult
  unfold Call.named
  rw [hresult, ha]
  cases hr : (namedHint (c.env parse) c.player).run (c.opening g) with
  | error e w =>
    rw [hr] at hgives
    obtain ⟨⟨x, rfl⟩, hg⟩ := hgives
    exact Or.inl ⟨rfl, congrArg some hg.symm⟩
  | ok o w =>
    rw [hr] at hgives
    match o with
    | none => exact Or.inl ⟨rfl, rfl, congrArg some hgives.symm⟩
    | some (j, hint) =>
      exact Or.inr ⟨j, hint, rfl, hgives.1, rfl, congrArg some hgives.2.symm⟩

/-- What a call of `playCard` or `discardCard` comes to. -/
theorem take_ends {g : Game} (hp : g.players.length = n) (hl : g.hands.length = n)
    (hcol : Coloured g) (c : Call n) (ha : c.action ≠ .hint) :
    c.taken parse g = none ∧ Ends (some g) false (c.result parse g) ∨
      (∃ k card, c.action = .play ∧ c.taken parse g = some (k, card) ∧
        cardAt g c.player k = .ok card ∧
          Ends (playMove g c.player k card) true (c.result parse g)) ∨
      ∃ k card, c.action = .discard ∧ c.taken parse g = some (k, card) ∧
        cardAt g c.player k = .ok card ∧
          ∃ w, c.result parse g = .ok true w ∧ w.game = discarded g c.player k card := by
  have hplayers : (c.player : ℕ) < g.players.length := hp.symm ▸ c.player.isLt
  have hhands : (c.player : ℕ) < g.hands.length := hl.symm ▸ c.player.isLt
  have hplayer : (c.opening g).game.players[(c.player : ℕ)]? = some g.players[(c.player : ℕ)] :=
    List.getElem?_eq_getElem hplayers
  have hhand : (c.opening g).game.hands[(c.player : ℕ)]? = some g.hands[(c.player : ℕ)] :=
    List.getElem?_eq_getElem hhands
  cases hact : c.action with
  | play =>
    have hresult : c.result parse g = (playCard (c.env parse) c.player).run (c.opening g) := by
      simp only [Call.result, hact]
    rw [hresult]
    rcases playCard_ends (c.env parse) hplayer hhand with ⟨hk, he⟩ | ⟨k, m, card, hk, hc, he⟩
    · refine Or.inl ⟨taken_eq_none ?_, he⟩
      simp only [Call.selected, hact]
      exact hk ▸ rfl
    · refine Or.inr (Or.inl ⟨k, card, rfl, taken_eq ?_ hc, hc, he⟩)
      simp only [Call.selected, hact]
      exact hk ▸ rfl
  | discard =>
    have hresult : c.result parse g = (discardCard (c.env parse) c.player).run (c.opening g) := by
      simp only [Call.result, hact]
    rw [hresult]
    rcases discardCard_ends (c.env parse) hplayer hhand hcol with ⟨hk, he⟩ | ⟨k, m, card, hk, hc, he⟩
    · refine Or.inl ⟨taken_eq_none ?_, he⟩
      simp only [Call.selected, hact]
      exact hk ▸ rfl
    · have hsel : c.selected parse g = if heard (c.env parse) m g.players then some k else none := by
        simp only [Call.selected, hact]
        exact hk ▸ rfl
      rcases he with ⟨hheard, hok⟩ | ⟨hheard, he⟩
      · exact Or.inr (Or.inr ⟨k, card, rfl, taken_eq (hsel.trans (if_pos hheard)) hc, hc, hok⟩)
      · refine Or.inl ⟨taken_eq_none (hsel.trans (if_neg ?_)), he⟩
        exact (Bool.not_eq_true _).mpr hheard
  | hint => exact absurd hact ha

/-- **All that a call of `giveHint` can do.** -/
theorem gameStep_hint {g : Game} (hp : g.players.length = n) (hl : g.hands.length = n) (c : Call n)
    (ha : c.action = .hint) :
    c.named parse g = none ∧ gameStep parse g c = some g ∨
      ∃ j hint, c.named parse g = some (j, hint) ∧ HintAllowed g c.player j hint ∧
        gameStep parse g c = some (hinted g j hint) := by
  rw [gameStep_eq]
  rcases hint_ends hp hl c ha with ⟨hn, he⟩ | ⟨j, hint, hn, hj, he⟩
  · exact Or.inl ⟨hn, he.outcome_eq⟩
  · exact Or.inr ⟨j, hint, hn, hj, he.outcome_eq⟩

/-- **All that a call of `playCard` or `discardCard` can do.** -/
theorem gameStep_take {g : Game} (hp : g.players.length = n) (hl : g.hands.length = n)
    (hcol : Coloured g) (c : Call n)
    (ha : c.action ≠ .hint) :
    c.taken parse g = none ∧ gameStep parse g c = some g ∨
      (∃ k card, c.action = .play ∧ c.taken parse g = some (k, card) ∧
        cardAt g c.player k = .ok card ∧ gameStep parse g c = playMove g c.player k card) ∨
      ∃ k card, c.action = .discard ∧ c.taken parse g = some (k, card) ∧
        cardAt g c.player k = .ok card ∧
          gameStep parse g c = some (discarded g c.player k card) := by
  rw [gameStep_eq]
  rcases take_ends hp hl hcol c ha with ⟨hn, he⟩ | ⟨k, card, hact, ht, hc, he⟩ |
    ⟨k, card, hact, ht, hc, w, hw, hgame⟩
  · exact Or.inl ⟨hn, he.outcome_eq⟩
  · exact Or.inr (Or.inl ⟨k, card, hact, ht, hc, he.outcome_eq⟩)
  · refine Or.inr (Or.inr ⟨k, card, hact, ht, hc, ?_⟩)
    rw [hw, ← hgame]
    rfl

/-- **All that a call can do.** -/
theorem gameStep_cases {g : Game} (hp : g.players.length = n) (hl : g.hands.length = n)
    (hcol : Coloured g) (c : Call n) :
    c.taken parse g = none ∧ gameStep parse g c = some g ∨
      (∃ k card, c.action = .play ∧ c.taken parse g = some (k, card) ∧
        cardAt g c.player k = .ok card ∧ gameStep parse g c = playMove g c.player k card) ∨
      (∃ k card, c.action = .discard ∧ c.taken parse g = some (k, card) ∧
        cardAt g c.player k = .ok card ∧
          gameStep parse g c = some (discarded g c.player k card)) ∨
      ∃ j hint, c.taken parse g = none ∧ HintAllowed g c.player j hint ∧
        gameStep parse g c = some (hinted g j hint) := by
  by_cases ha : c.action = .hint
  · rcases gameStep_hint hp hl c ha with ⟨-, ho⟩ | ⟨j, hint, -, hj, ho⟩
    · exact Or.inl ⟨taken_hint ha, ho⟩
    · exact Or.inr (Or.inr (Or.inr ⟨j, hint, taken_hint ha, hj, ho⟩))
  · rcases gameStep_take hp hl hcol c ha with hsame | hplay | hdiscard
    · exact Or.inl hsame
    · exact Or.inr (Or.inl hplay)
    · exact Or.inr (Or.inr (Or.inl hdiscard))

end Step

/-! ### The deal -/

/-- The game `Game::start` deals to the players of a session. -/
def dealt (players : List Player) (sessionId : ℤ) (s : Shuffle) : Game :=
  deal (Game.ofSession players sessionId s)

/-- A real card or a placeholder. -/
def Held (card : Card) : Prop := card.Real ∨ card = Card.placeholder

/-- What every call keeps, in a game of `n` players. -/
structure Shape (n : ℕ) (g : Game) : Prop where
  players : g.players.length = n
  hands : g.hands.length = n
  table : g.table.length = colourCount
  sizes : ∀ hand ∈ g.hands, hand.length = g.cardsPerHand
  held : ∀ hand ∈ g.hands, ∀ card ∈ hand, Held card
  undrawn : ∀ card ∈ g.deck.undrawn, card.Real
  tops : ∀ top ∈ g.table, 0 ≤ top

section Draws
variable {P Q : Card → Prop} (hPQ : ∀ card, P card → Q card) (hQ : Q Card.placeholder)
include hPQ hQ

/-- What holds of the cards of the deck, and of a placeholder, holds of the card that is drawn. -/
theorem draw_rule {d : Deck} (h : ∀ card ∈ d.undrawn, P card) :
    Q d.draw.1 ∧ ∀ card ∈ d.draw.2.undrawn, P card := by
  rcases d.draw_cases with hd | ⟨hd, he⟩
  · rw [hd] at h
    exact ⟨hPQ _ (h _ List.mem_cons_self), fun card hc => h card (List.mem_cons_of_mem _ hc)⟩
  · rw [he]
    exact ⟨hQ, h⟩

theorem drawN_rule : ∀ (n : ℕ) {d : Deck}, (∀ card ∈ d.undrawn, P card) →
    (∀ card ∈ (d.drawN n).1, Q card) ∧ ∀ card ∈ (d.drawN n).2.undrawn, P card
  | 0, _, h => ⟨fun _ hc => absurd hc List.not_mem_nil, h⟩
  | n + 1, _, h => by
    obtain ⟨hfirst, hdeck⟩ := draw_rule hPQ hQ h
    obtain ⟨hrest, hdeck⟩ := drawN_rule n hdeck
    exact ⟨List.forall_mem_cons.mpr ⟨hfirst, hrest⟩, hdeck⟩

/-- The hands of the deal. -/
theorem dealHands_rule (size : ℕ) : ∀ (n : ℕ) {d : Deck}, (∀ card ∈ d.undrawn, P card) →
    (dealHands size n d).1.length = n ∧
      (∀ hand ∈ (dealHands size n d).1, hand.length = size ∧ ∀ card ∈ hand, Q card) ∧
        ∀ card ∈ (dealHands size n d).2.undrawn, P card
  | 0, _, h => ⟨rfl, fun _ hc => absurd hc List.not_mem_nil, h⟩
  | n + 1, d, h => by
    obtain ⟨hhand, hdeck⟩ := drawN_rule hPQ hQ size h
    obtain ⟨hlen, hhands, hdeck⟩ := dealHands_rule size n hdeck
    exact ⟨congrArg (· + 1) hlen,
      List.forall_mem_cons.mpr ⟨⟨Deck.length_drawN size d, hhand⟩, hhands⟩, hdeck⟩

end Draws

theorem Held.coloured {card : Card} (h : Held card) : card.colour ≠ .numColours := by
  rcases h with h | rfl
  · intro he
    have hlt := h.2.2
    rw [he] at hlt
    exact absurd hlt (by decide)
  · decide

theorem draw_held {d : Deck} (h : ∀ card ∈ d.undrawn, card.Real) :
    Held d.draw.1 ∧ ∀ card ∈ d.draw.2.undrawn, card.Real :=
  draw_rule (Q := Held) (fun _ => Or.inl) (Or.inr rfl) h

theorem drawN_held (n : ℕ) {d : Deck} (h : ∀ card ∈ d.undrawn, card.Real) :
    (∀ card ∈ (d.drawN n).1, Held card) ∧ ∀ card ∈ (d.drawN n).2.undrawn, card.Real :=
  drawN_rule (Q := Held) (fun _ => Or.inl) (Or.inr rfl) n h

theorem shape_dealt (players : List Player) (sessionId : ℤ) (s : Shuffle) :
    Shape players.length (dealt players sessionId s) := by
  have hreal : ∀ card ∈ (Deck.ofShuffle s).undrawn, card.Real :=
    fun card hc => (s.fresh (List.mem_of_mem_drop hc)).1
  obtain ⟨h1, h2, h3⟩ := dealHands_rule (Q := Held) (fun _ => Or.inl) (Or.inr rfl)
    (Game.ofSession players sessionId s).cardsPerHand players.length hreal
  exact
    { players := rfl
      hands := h1
      table := List.length_replicate
      sizes := fun hand hh => (h2 hand hh).1
      held := fun hand hh => (h2 hand hh).2
      undrawn := h3
      tops := fun top ht => Int.le_of_eq (List.eq_of_mem_replicate ht).symm }

/-! ### What every call keeps -/

theorem Shape.redraw {n : ℕ} {g : Game} (h : Shape n g) (i k : ℕ) :
    Shape n (redraw g i k) where
  players := h.players
  hands := (List.length_modify _ _ _).trans h.hands
  table := h.table
  sizes := forall_mem_modify h.sizes fun _ hb => List.length_set.trans hb
  held := forall_mem_modify h.held fun _ hb => forall_mem_set hb (draw_held h.undrawn).1
  undrawn := (draw_held h.undrawn).2
  tops := h.tops

theorem Shape.rewarded {n : ℕ} {g : Game} (h : Shape n g) (card : Card) :
    Shape n (rewarded card g) := by
  unfold Actions.rewarded
  split_ifs
  · exact { h with }
  · exact h

theorem Shape.raised {n : ℕ} {g : Game} (h : Shape n g) {card : Card} (hc : 0 ≤ card.number) :
    Shape n { g with table := g.table.set card.colour.code card.number } :=
  { h with
    table := List.length_set.trans h.table
    tops := forall_mem_set h.tops hc }

theorem Shape.played {n : ℕ} {g : Game} (h : Shape n g) (i k : ℕ) {card : Card}
    (hc : 0 ≤ card.number) : Shape n (played g i k card) :=
  ((h.raised hc).redraw i k).rewarded card

theorem Shape.misplayed {n : ℕ} {g : Game} (h : Shape n g) (card : Card) :
    Shape n (misplayed g card) := { h with }

theorem Shape.discarded {n : ℕ} {g : Game} (h : Shape n g) (i k : ℕ) (card : Card) :
    Shape n (discarded g i k card) :=
  Shape.redraw (g := { g with
    numBlueTokens := g.numBlueTokens + 1
    discardPile := g.discardPile ++ [card] }) { h with } i k

theorem held_reveal {card : Card} (h : Held card) (hint : Hint) : Held (hint.reveal card) := by
  rcases h with h | rfl
  · cases hint <;> exact Or.inl h
  · cases hint <;> exact Or.inr rfl

theorem Shape.hinted {n : ℕ} {g : Game} (h : Shape n g) (j : ℕ) (hint : Hint) :
    Shape n (hinted g j hint) where
  players := h.players
  hands := (List.length_modify _ _ _).trans h.hands
  table := h.table
  sizes := forall_mem_modify h.sizes fun _ hb => List.length_map _ |>.trans hb
  held := forall_mem_modify h.held fun hand hb card hc => by
    obtain ⟨old, ho, rfl⟩ := List.mem_map.mp hc
    split_ifs
    · exact held_reveal (hb old ho) hint
    · exact hb old ho
  undrawn := h.undrawn
  tops := h.tops

theorem Shape.coloured {n : ℕ} {g : Game} (h : Shape n g) : Coloured g :=
  fun hand hh card hc => (h.held hand hh card hc).coloured

/-- The card a player holds. -/
theorem Shape.held_cardAt {n : ℕ} {g : Game} (h : Shape n g) {i k : ℕ} {card : Card}
    (hc : cardAt g i k = .ok card) : Held card := by
  obtain ⟨hand, hh, hk⟩ := cardAt_ok hc
  exact h.held hand (List.mem_of_getElem? hh) card (List.mem_of_getElem? hk)

/-- The table has a place for the colour of a real card, and for no other. -/
theorem Shape.table_some {n : ℕ} {g : Game} (h : Shape n g) {card : Card} (hc : Held card) :
    (∃ top, g.table[card.colour.code]? = some top) ↔ card.Real := by
  rw [← Option.isSome_iff_exists, isSome_getElem?, h.table]
  constructor
  · rcases hc with hc | rfl
    · exact fun _ => hc
    · exact fun hlt => absurd hlt (by decide)
  · exact fun hr => hr.2.2

/-- **Every call keeps the shape of the game.** -/
theorem shape_step {parse : Bytes → ClientResponse} {n : ℕ} {g g' : Game} (h : Shape n g)
    {c : Call n} (hs : gameStep parse g c = some g') : Shape n g' := by
  rcases gameStep_cases h.players h.hands h.coloured c with ⟨-, he⟩ | ⟨k, card, -, -, hc, he⟩ |
    ⟨k, card, -, -, -, he⟩ | ⟨j, hint, -, -, he⟩
  · cases hs.symm.trans he
    exact h
  · rw [he, playMove] at hs
    have hreal := h.table_some (h.held_cardAt hc)
    split at hs
    · cases hs
    · next top ht =>
      cases hs
      split_ifs
      · exact h.played c.player k (Int.le_trans Int.one_nonneg (hreal.mp ⟨top, ht⟩).1)
      · exact h.misplayed card
  · cases hs.symm.trans he
    exact h.discarded c.player k card
  · cases hs.symm.trans he
    exact h.hinted j hint

/-! ### Fixed inputs -/

/-- What `ParseFromString` leaves of a response that selects an option below `128`. -/
def parseOption : Bytes → ClientResponse
  | [8, v] => ⟨some v.toNat⟩
  | _ => ⟨none⟩

/-- A table of `n` players. -/
def guests (n : ℕ) : List Player := (List.range n).map fun i => ⟨"Guest " ++ toString i, i⟩

/-- The call in which a player selects option `v` at once, on a healthy network. -/
def Call.selecting {n : ℕ} (action : Action) (player : Fin n) (v : UInt8) : Call n where
  action := action
  player := player
  responses := [[8, v]]
  writeOk _ _ := true

/-- Such a call takes the selected card. -/
theorem taken_selecting {n : ℕ} {g : Game} (h : Shape n g) {a : Action} (ha : a ≠ .hint)
    (i : Fin n) {v : UInt8} (hv : v.toNat < g.cardsPerHand) :
    ∃ card, cardAt g i v.toNat = .ok card ∧
      (Call.selecting a i v).taken parseOption g = some (v.toNat, card) := by
  have hp : (i : ℕ) < g.players.length := h.players.symm ▸ i.isLt
  have hl : (i : ℕ) < g.hands.length := h.hands.symm ▸ i.isLt
  have hsize := h.sizes g.hands[(i : ℕ)] (List.getElem_mem hl)
  have hk : v.toNat < g.hands[(i : ℕ)].length := hsize ▸ hv
  have hc := cardAt_of (List.getElem?_eq_getElem hl) (List.getElem?_eq_getElem hk)
  refine ⟨_, hc, taken_eq ?_ hc⟩
  have hpick : pick (Env.healthy parseOption) g i 0 [[8, v]] = some (v.toNat, 2) := by
    simp only [pick, List.getElem?_eq_getElem hp, List.getElem?_eq_getElem hl, answer,
      Env.healthy_writeOk, Env.healthy_parseResponse, optionOf, parseOption,
      ClientResponse.optionselected, Option.getD_some, if_true]
    rw [if_neg (by omega)]
    simp only
    rw [if_neg (by omega), Int.toNat_natCast]
  have hheard : heard (Env.healthy parseOption) 2 g.players = true := heard_healthy _ _ _
  unfold Call.selected
  change (match a, pick (Env.healthy parseOption) g i 0 [[8, v]] with
    | .play, some (k, _) => some k
    | .discard, some (k, m) => if heard (Env.healthy parseOption) m g.players then some k else none
    | _, _ => none) = _
  rw [hpick]
  cases a with
  | play => rfl
  | discard => exact if_pos hheard
  | hint => exact absurd rfl ha

/-- A discard of card `0` always goes through. -/
theorem discard_selecting {n : ℕ} {g : Game} (h : Shape n g) (i : Fin n) :
    ∃ card, cardAt g i 0 = .ok card ∧
      (Call.selecting .discard i 0).taken parseOption g = some (0, card) ∧
        ∃ w, (Call.selecting .discard i 0).result parseOption g = .ok true w ∧
          w.game = discarded g i 0 card := by
  have hpos : 0 < g.cardsPerHand := by
    unfold Game.cardsPerHand
    split_ifs <;> omega
  obtain ⟨card, hc, ht⟩ := taken_selecting h (a := .discard) (by decide) i (v := 0) hpos
  refine ⟨card, hc, ht, ?_⟩
  rcases take_ends h.players h.hands h.coloured (.selecting .discard i 0) Action.noConfusion with
    ⟨hn, -⟩ | ⟨k, card', hplay, -⟩ | ⟨k, card', -, ht', -, hok⟩
  · cases ht.symm.trans hn
  · cases hplay
  · cases ht.symm.trans ht'
    exact hok

end HanabiBot.HanabiGame.Steps
