import HanabiBot.Lib.Pairs
import HanabiBot.HanabiGame.Dialogue
import HanabiBot.HanabiGame.Steps

/-! # Hidden cards do not leak

Two games are the same for player `i` (`SameFor`) if they differ at most in the deck, the discard
pile and what the flags of the cards of player `i` do not show. `display` then runs in step on both:
it sends the connection of player `i` the same messages, and fails in both if in one
(`display_hides`).

The text for player `i` is the same (`handsStr_own`). The texts for the others show the hand of
player `i`, and so may differ, but they are made without a fault in both games or in neither
(`stop_handsStr`). -/

namespace HanabiBot.HanabiGame.Secrecy

open HanabiBot.Lib.Calls HanabiBot.Lib.Pairs HanabiBot.Common.Messages
open HanabiBot.HanabiGame.Cards HanabiBot.HanabiGame.State HanabiBot.HanabiGame.Play
open HanabiBot.HanabiGame.Steps

/-- Cards that look the same to their holder. On a card with the count `numColours` for a colour,
which no deck has, `Card::getColourString` fails its assertion, whether or not the colour is
revealed. -/
structure Seen (card card' : Card) : Prop where
  colourRevealed : card'.colourRevealed = card.colourRevealed
  numberRevealed : card'.numberRevealed = card.numberRevealed
  colour : card.colourRevealed = true → card'.colour = card.colour
  number : card.numberRevealed = true → card'.number = card.number
  count : card'.colour = .numColours ↔ card.colour = .numColours

/-- Games that are the same for player `i`. -/
structure SameFor (i : ℕ) (g g' : Game) : Prop where
  sockets : g'.players.map Player.socket = g.players.map Player.socket
  table : g'.table = g.table
  numBlueTokens : g'.numBlueTokens = g.numBlueTokens
  numBlackFuseTokens : g'.numBlackFuseTokens = g.numBlackFuseTokens
  others : ∀ j, j ≠ i → g'.hands[j]? = g.hands[j]?
  own : Option.Rel (List.Forall₂ Seen) g.hands[i]? g'.hands[i]?

/-! ### The texts -/

section Texts
variable {i : ℕ} {g g' : Game}

theorem Seen.hiddenRepr {card card' : Card} (h : Seen card card') :
    card'.hiddenRepr = card.hiddenRepr := by
  unfold Card.hiddenRepr
  rw [h.colourRevealed, h.numberRevealed]
  cases hc : card.colourRevealed <;> cases hn : card.numberRevealed
  · rfl
  · rw [h.number hn]
    rfl
  · rw [h.colour hc]
    rfl
  · rw [h.colour hc, h.number hn]

theorem SameFor.numPlayers (h : SameFor i g g') : g'.numPlayers = g.numPlayers := by
  have hlen := congrArg List.length h.sockets
  rwa [List.length_map, List.length_map] at hlen

theorem SameFor.cardsPerHand (h : SameFor i g g') : g'.cardsPerHand = g.cardsPerHand := by
  unfold Game.cardsPerHand
  rw [h.numPlayers]

theorem SameFor.tokensStr (h : SameFor i g g') : tokensStr g' = tokensStr g := by
  unfold Play.tokensStr
  rw [h.numBlueTokens, h.numBlackFuseTokens]

theorem SameFor.tableStr (h : SameFor i g g') : tableStr g' = tableStr g := by
  have hline : tableLine g' = tableLine g := by
    funext j
    unfold tableLine
    rw [h.table]
  unfold Play.tableStr
  rw [hline]

theorem cardAt_others (h : SameFor i g g') {j : ℕ} (hj : j ≠ i) (k : ℕ) :
    cardAt g' j k = cardAt g j k := by
  unfold cardAt
  rw [h.others j hj]

theorem SameFor.own_cases (h : SameFor i g g') :
    g.hands[i]? = none ∧ g'.hands[i]? = none ∨ ∃ hand hand', g.hands[i]? = some hand ∧
      g'.hands[i]? = some hand' ∧ List.Forall₂ Seen hand hand' := by
  have hown := h.own
  cases hh : g.hands[i]? with
  | none =>
    cases hh' : g'.hands[i]? with
    | none => exact Or.inl ⟨rfl, rfl⟩
    | some hand' =>
      rw [hh, hh'] at hown
      cases hown
  | some hand =>
    cases hh' : g'.hands[i]? with
    | none =>
      rw [hh, hh'] at hown
      cases hown
    | some hand' =>
      rw [hh, hh'] at hown
      cases hown with
      | some hseen => exact Or.inr ⟨hand, hand', rfl, rfl, hseen⟩

/-- The same places of the hand of player `i` are taken, by cards that look the same. -/
theorem cardAt_own (h : SameFor i g g') (k : ℕ) :
    (∃ card card', cardAt g i k = .ok card ∧ cardAt g' i k = .ok card' ∧ Seen card card') ∨
      cardAt g i k = .error .outOfRange ∧ cardAt g' i k = .error .outOfRange := by
  unfold cardAt
  rcases h.own_cases with ⟨hh, hh'⟩ | ⟨hand, hand', hh, hh', hseen⟩
  · rw [hh, hh']
    exact Or.inr ⟨rfl, rfl⟩
  · rw [hh, hh']
    have hlen := hseen.length_eq
    by_cases hk : k < hand.length
    · have hk' : k < hand'.length := hlen ▸ hk
      simp only [List.getElem?_eq_getElem hk, List.getElem?_eq_getElem hk']
      exact Or.inl ⟨hand[k], hand'[k], rfl, rfl, hseen.get hk hk'⟩
    · have hnone : hand[k]? = none := List.getElem?_eq_none (by omega)
      have hnone' : hand'[k]? = none := List.getElem?_eq_none (by omega)
      exact Or.inr ⟨by simp only [hnone], by simp only [hnone']⟩

theorem handLine_own (h : SameFor i g g') (k : ℕ) :
    handLine g' Card.hiddenRepr i k = handLine g Card.hiddenRepr i k := by
  unfold handLine
  rcases cardAt_own h k with ⟨card, card', hc, hc', hseen⟩ | ⟨hc, hc'⟩
  · have hshown : shown Card.hiddenRepr card' = shown Card.hiddenRepr card := by
      unfold shown
      rw [hseen.hiddenRepr, if_congr hseen.count rfl rfl]
    rw [hc, hc']
    show (shown Card.hiddenRepr card' >>= _) = (shown Card.hiddenRepr card >>= _)
    rw [hshown]
  · rw [hc, hc']

theorem handLine_others (h : SameFor i g g') (repr : Card → String) {j : ℕ} (hj : j ≠ i) (k : ℕ) :
    handLine g' repr j k = handLine g repr j k := by
  unfold handLine
  rw [cardAt_others h hj]

/-- A line is made without a fault in both games or in neither. -/
theorem stop_handLine (h : SameFor i g g') (repr : Card → String) (j k : ℕ) :
    stop (handLine g' repr j k) = stop (handLine g repr j k) := by
  by_cases hj : j = i
  · subst hj
    unfold handLine
    rcases cardAt_own h k with ⟨card, card', hc, hc', hseen⟩ | ⟨hc, hc'⟩
    · have hshown : stop (shown repr card') = stop (shown repr card) := by
        unfold shown
        rw [if_congr hseen.count rfl rfl]
        split_ifs <;> rfl
      rw [hc, hc']
      show stop (shown repr card' >>= _) = stop (shown repr card >>= _)
      exact stop_bind hshown fun _ _ => rfl
    · rw [hc, hc']
  · rw [handLine_others h repr hj]

/-- **Player `i` is shown the same** of every hand. -/
theorem handStr_own (h : SameFor i g g') (j : ℕ) : handStr g' i j = handStr g i j := by
  have hhidden : handLine g' Card.hiddenRepr i = handLine g Card.hiddenRepr i :=
    funext fun k => handLine_own h k
  unfold handStr
  rcases h.own_cases with ⟨hh, hh'⟩ | ⟨hand, hand', hh, hh', hseen⟩
  · rw [hh, hh']
  · rw [hh, hh']
    simp only
    rw [hseen.length_eq, h.cardsPerHand, hhidden]
    split_ifs with hsize hj
    · rfl
    · rfl
    · have hfull : handLine g' Card.fullRepr j = handLine g Card.fullRepr j :=
        funext fun k => handLine_others h _ (Ne.symm hj) k
      rw [hfull]

/-- What another player is shown is made without a fault in both games or in neither. -/
theorem stop_handStr (h : SameFor i g g') {r : ℕ} (hr : r ≠ i) (j : ℕ) :
    stop (handStr g' r j) = stop (handStr g r j) := by
  unfold handStr
  rw [h.others r hr, h.cardsPerHand]
  cases g.hands[r]? with
  | none => rfl
  | some hand =>
    simp only
    split_ifs
    · rfl
    · exact stop_bind (stop_mapM fun k _ => stop_handLine h _ r k) fun _ _ => rfl
    · exact stop_bind (stop_mapM fun k _ => stop_handLine h _ j k) fun _ _ => rfl

theorem handsStr_own (h : SameFor i g g') : handsStr g' i = handsStr g i := by
  have hstr : handStr g' i = handStr g i := funext fun j => handStr_own h j
  unfold handsStr
  rw [hstr, h.numPlayers]

theorem stop_handsStr (h : SameFor i g g') {r : ℕ} (hr : r ≠ i) :
    stop (handsStr g' r) = stop (handsStr g r) := by
  unfold handsStr
  rw [h.numPlayers]
  exact stop_bind (stop_mapM fun j _ => stop_handStr h hr j) fun _ _ => rfl

end Texts

/-! ### The messages -/

/-- The messages written to a connection. -/
def sentTo (c : Conn) (out : List Sent) : List Sent := out.filter fun s => s.socket = c

/-- Two worlds in the games `g` and `g'`, with as many writes, of which those to `c` were the
same. -/
structure SameFrom (c : Conn) (g g' : Game) (w w' : World) : Prop where
  left : w.game = g
  right : w'.game = g'
  writes : w'.writes = w.writes
  sent : sentTo c w'.out = sentTo c w.out

theorem sentTo_append (c : Conn) (out : List Sent) (s : Sent) :
    sentTo c (out ++ [s]) = sentTo c out ++ sentTo c [s] := List.filter_append _ _

section Messages
variable (env : Env) {i : ℕ} {c : Conn} {g g' : Game} {α : Type}

/-- A message to the same connection, the same one if that is `c`. -/
theorem inStep_sendInfo {player player' : Player} {str str' : String}
    (hsocket : player'.socket = player.socket) (hstr : player.socket = c → str' = str) :
    InStep (SameFrom c g g') (fun _ _ => True) (sendInfo env player.socket str)
      (sendInfo env player'.socket str') := by
  intro w w' hw
  unfold sendInfo
  rw [run_sendBytes, run_sendBytes, hsocket, hw.writes]
  split_ifs
  · refine ⟨trivial, hw.left, hw.right, congrArg (· + 1) hw.writes, ?_⟩
    simp only [World.sent]
    rw [sentTo_append, sentTo_append, hw.sent]
    by_cases hc : player.socket = c
    · rw [hstr hc]
    · have hnone (str : String) :
          sentTo c [.frame player.socket ⟨some str, some .continue⟩] = [] := by
        simp [sentTo, Sent.socket, hc]
      rw [hnone, hnone]
  · exact ⟨rfl, hw.left, hw.right, rfl, hw.sent⟩

theorem inStep_readGame {V : α → α → Prop} {f : Game → α} (h : V (f g) (f g')) :
    InStep (SameFrom c g g') V (readGame f) (readGame f) := by
  intro w w' hw
  rw [run_readGame, run_readGame]
  exact ⟨by rw [hw.left, hw.right]; exact h, hw⟩

/-- A check that fails in both games or in neither. -/
theorem inStep_checked {V : α → α → Prop} {f : Game → Except Fault α} (hstop : stop (f g') = stop (f g))
    (hV : ∀ a b, f g = .ok a → f g' = .ok b → V a b) :
    InStep (SameFrom c g g') V (checked f) (checked f) := by
  intro w w' hw
  obtain rfl := hw.left
  obtain rfl := hw.right
  cases hf : f w.game with
  | ok a =>
    cases hf' : f w'.game with
    | ok b =>
      rw [run_checked_ok hf, run_checked_ok hf']
      exact ⟨hV a b hf hf', hw⟩
    | error e =>
      rw [hf, hf'] at hstop
      cases hstop
  | error e =>
    cases hf' : f w'.game with
    | ok b =>
      rw [hf, hf'] at hstop
      cases hstop
    | error e' =>
      rw [hf, hf'] at hstop
      cases hstop
      rw [run_checked_error hf, run_checked_error hf']
      exact ⟨rfl, hw⟩

/-- The same connection, by its index. -/
theorem inStep_player (h : SameFor i g g') (r : ℕ) :
    InStep (SameFrom c g g')
      (fun player player' => g.players[r]? = some player ∧ player'.socket = player.socket)
      (element Game.players r) (element Game.players r) := by
  intro w w' hw
  obtain rfl := hw.left
  obtain rfl := hw.right
  have hr : (w'.game.players[r]?).map Player.socket = (w.game.players[r]?).map Player.socket := by
    rw [← List.getElem?_map, ← List.getElem?_map, h.sockets]
  cases hp : w.game.players[r]? with
  | none =>
    rw [hp, Option.map_none, Option.map_eq_none_iff] at hr
    rw [run_element_none hp, run_element_none hr]
    exact ⟨rfl, hw⟩
  | some player =>
    rw [hp, Option.map_some] at hr
    obtain ⟨player', hp', hsocket⟩ := Option.map_eq_some_iff.mp hr
    rw [run_element hp, run_element hp']
    exact ⟨⟨rfl, hsocket⟩, hw⟩

theorem inStep_broadcast (h : SameFor i g g') (str : String) :
    InStep (SameFrom c g g') (fun _ _ => True) (broadcast env str) (broadcast env str) := by
  have hplayers : List.Forall₂ (fun player player' : Player => player'.socket = player.socket)
      g.players g'.players := by
    have hsockets : List.Forall₂ Eq (g'.players.map Player.socket) (g.players.map Player.socket) := by
      rw [h.sockets]
      exact List.forall₂_refl _
    exact (List.forall₂_map_right_iff.mp (List.forall₂_map_left_iff.mp hsockets)).flip
  refine (inStep_readGame hplayers).bind fun players players' hall => ?_
  exact InStep.forM hall fun player player' hsocket => inStep_sendInfo env hsocket fun _ => rfl

/-- `display` on two games that are the same for player `i`. -/
theorem inStep_display (h : SameFor i g g')
    (hc : ∀ r player, g.players[r]? = some player → player.socket = c → r = i) :
    InStep (SameFrom c g g') (fun _ _ => True) (display env) (display env) := by
  refine InStep.bind (V := fun _ _ => True) ?_ fun _ _ _ => InStep.bind (V := fun _ _ => True) ?_
    fun _ _ _ => ?_
  · refine (inStep_readGame (V := fun str str' => str' = str) h.tokensStr).bind ?_
    rintro _ str rfl
    exact inStep_broadcast env h str
  · refine (inStep_checked (V := fun str str' => str' = str) (congrArg stop h.tableStr) ?_).bind ?_
    · intro str str' hstr hstr'
      rw [h.tableStr, hstr] at hstr'
      cases hstr'
      rfl
    · rintro _ str rfl
      exact inStep_broadcast env h str
  · refine (inStep_readGame (V := fun n n' => n' = n) h.numPlayers).bind ?_
    rintro n _ rfl
    refine InStep.forM (List.forall₂_same.mpr fun r _ => rfl) (T := Eq) ?_
    rintro r _ rfl
    refine (inStep_checked (V := fun str str' => r = i → str' = str) ?_ ?_).bind fun str str' hstr =>
      (inStep_player h r).bind fun player player' hplayer => ?_
    · by_cases hr : r = i
      · rw [hr, handsStr_own h]
      · exact stop_handsStr h hr
    · rintro str str' hs hs' rfl
      rw [handsStr_own h, hs] at hs'
      cases hs'
      rfl
    · exact inStep_sendInfo env hplayer.2 fun hsocket => hstr (hc r player hplayer.1 hsocket)

end Messages

/-- **A player's hidden cards do not leak.** Whatever the network does: in two games that are the
same for player `i`, on whose connection no other player sits, `display` sends that connection the
same messages, and ends with the same failure, if with one. -/
theorem display_hides (env : Env) {i : ℕ} {c : Conn} {g g' : Game} (h : SameFor i g g')
    (hc : ∀ r player, g.players[r]? = some player → player.socket = c → r = i)
    (inbox inbox' : List Bytes) (writes : ℕ) (out : List Sent) :
    sentTo c (after (display env) ⟨g', inbox', writes, out⟩).out =
        sentTo c (after (display env) ⟨g, inbox, writes, out⟩).out ∧
      ∀ e, (∃ w, (display env).run ⟨g, inbox, writes, out⟩ = .error e w) ↔
        ∃ w, (display env).run ⟨g', inbox', writes, out⟩ = .error e w := by
  have hstart : SameFrom c g g' ⟨g, inbox, writes, out⟩ ⟨g', inbox', writes, out⟩ :=
    ⟨rfl, rfl, rfl, rfl⟩
  obtain ⟨hend, hfail⟩ := (inStep_display env h hc).after hstart
  exact ⟨hend.sent, hfail⟩

instance (card card' : Card) : Decidable (Seen card card') :=
  decidable_of_iff (card'.colourRevealed = card.colourRevealed ∧
      card'.numberRevealed = card.numberRevealed ∧
      (card.colourRevealed = true → card'.colour = card.colour) ∧
      (card.numberRevealed = true → card'.number = card.number) ∧
      (card'.colour = .numColours ↔ card.colour = .numColours))
    ⟨fun ⟨h1, h2, h3, h4, h5⟩ => ⟨h1, h2, h3, h4, h5⟩,
      fun ⟨h1, h2, h3, h4, h5⟩ => ⟨h1, h2, h3, h4, h5⟩⟩

/-- A deal for two, and the same with other cards in the hand of the first player and in the
deck. -/
def dealtTwo : Game := dealt (guests 2) 0 Shuffle.unshuffled

def swapped : Game :=
  { dealtTwo with
    hands := dealtTwo.hands.set 0 (List.replicate 5 ⟨5, .white, false, false⟩)
    deck := ⟨[], 0⟩ }

theorem sameFor_swapped : SameFor 0 dealtTwo swapped where
  sockets := rfl
  table := rfl
  numBlueTokens := rfl
  numBlackFuseTokens := rfl
  others j hj := List.getElem?_set_ne (Ne.symm hj)
  own := by
    have hown : ∃ hand, dealtTwo.hands[0]? = some hand ∧
        List.Forall₂ Seen hand (List.replicate 5 ⟨5, .white, false, false⟩) :=
      ⟨(dealtTwo.hands[0]?).getD [], by decide +kernel, by decide +kernel⟩
    obtain ⟨hand, hh, hseen⟩ := hown
    have hlt : 0 < dealtTwo.hands.length := by decide +kernel
    rw [hh, swapped, List.getElem?_set_self hlt]
    exact .some hseen

theorem swapped_hides :
    sentTo 0 (after (display (Env.healthy parseOption)) ⟨swapped, [], 0, []⟩).out =
      sentTo 0 (after (display (Env.healthy parseOption)) ⟨dealtTwo, [], 0, []⟩).out := by
  refine (display_hides (Env.healthy parseOption) sameFor_swapped (c := 0) ?_ [] [] 0 []).1
  intro r player hr hsocket
  have hplayers : dealtTwo.players = guests 2 := rfl
  rw [hplayers, guests, List.getElem?_map] at hr
  obtain ⟨k, hk, rfl⟩ := Option.map_eq_some_iff.mp hr
  obtain ⟨hlt, hrange⟩ := List.getElem?_eq_some_iff.mp hk
  rw [List.getElem_range] at hrange
  exact hrange.trans hsocket

end HanabiBot.HanabiGame.Secrecy
