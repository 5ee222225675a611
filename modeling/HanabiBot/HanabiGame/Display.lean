import HanabiBot.Lib.Runs
import HanabiBot.HanabiGame.Steps

/-! # Display

`Displayable g` says that every vector access and assertion on the way of `Game::display` is in
order. A displayable game is displayed without a fault (`display_within`), and any other is not
(`display_fault`).

A hand always has `cardsPerHand` cards, which is `4` from four players on, while the loops of
`displayHands` run to `5`: a dealt game can be displayed, then and later, exactly if it has at most
three players (`display_safe_iff`). -/

namespace HanabiBot.HanabiGame.Display

open HanabiBot.Lib.Calls HanabiBot.Lib.Runs HanabiBot.Common.Messages
open HanabiBot.HanabiGame.Cards HanabiBot.HanabiGame.State HanabiBot.HanabiGame.Play
open HanabiBot.HanabiGame.Dialogue HanabiBot.HanabiGame.Steps

/-- The texts of `displayTable` and `displayHands` are made without a fault. -/
structure Displayable (g : Game) : Prop where
  table : ∃ str, tableStr g = .ok str
  hands : ∀ i < g.numPlayers, ∃ str, handsStr g i = .ok str

/-! ### Displaying -/

section Display
variable {env : Env} {g : Game} {I : World → Prop} {E : Stop → World → Prop}

theorem broadcast_within (hs : ∀ c s, Within I E (sendInfo env c s)) (msg : String) :
    Within I E (broadcast env msg) :=
  Within.bind (fun _ hw => hw) fun _ => Within.forM fun _ _ => hs _ _

section SameGame
variable (hI : ∀ w, I w → w.game = g)
include hI

theorem checked_within {α : Type} {f : Game → Except Fault α} (h : ∃ a, f g = .ok a) :
    Within I E (checked f) := by
  obtain ⟨a, ha⟩ := h
  intro w hw
  rw [run_checked_ok (hI w hw ▸ ha)]
  exact hw

theorem element_within {α : Type} {l : Game → List α} {i : ℕ} (h : i < (l g).length) :
    Within I E (element l i) := by
  intro w hw
  have hg := hI w hw
  subst hg
  rw [run_element (List.getElem?_eq_getElem h)]
  exact hw

/-- One recipient of `displayHands`. -/
theorem displayHand_within (hs : ∀ c s, Within I E (sendInfo env c s)) {i : ℕ}
    (hi : i < g.numPlayers) (hd : ∃ str, handsStr g i = .ok str) :
    Within I E (do
      let str ← checked fun g => handsStr g i
      let player ← element Game.players i
      sendInfo env player.socket str) :=
  Within.bind (checked_within hI hd) fun _ =>
    Within.bind (element_within hI hi) fun _ => hs _ _

theorem displayHands_within (hs : ∀ c s, Within I E (sendInfo env c s))
    (hd : ∀ i < g.numPlayers, ∃ str, handsStr g i = .ok str) : Within I E (displayHands env) := by
  intro w hw
  rw [displayHands, bind_ok (run_readGame w _)]
  refine Within.forM (fun i hi => ?_) w hw
  have hlt : i < g.numPlayers := hI w hw ▸ List.mem_range.mp hi
  exact displayHand_within hI hs hlt (hd i hlt)

/-- **A displayable game is displayed**, if the frames go out. -/
theorem display_within (hs : ∀ c s, Within I E (sendInfo env c s)) (hd : Displayable g) :
    Within I E (display env) := by
  refine Within.bind (Within.bind (fun _ hw => hw) fun _ => broadcast_within hs _) fun _ => ?_
  refine Within.bind (Within.bind (checked_within hI hd.table) fun _ => broadcast_within hs _)
    fun _ => ?_
  exact displayHands_within hI hs hd.hands

end SameGame

/-- **Any other is not**: its display ends early. -/
theorem display_fault (env : Env) (hd : ¬ Displayable g) {w : World} (hw : w.game = g) :
    ∃ e w', (display env).run w = .error e w' := by
  have hs : ∀ c s, TalksIn g (sendInfo env c s) := fun c s => talks_sendInfo env c s g
  have hI : ∀ w : World, w.game = g → w.game = g := fun _ hw => hw
  rw [display]
  rcases bind_cases (displayTokens env) _ w with ⟨_, w1, h1, hrun⟩ | ⟨e, w1, -, hrun⟩
  on_goal 2 => exact ⟨e, w1, hrun⟩
  have hw1 : w1.game = g :=
    (Within.bind (fun _ hw => hw) fun _ => broadcast_within hs _ : TalksIn g _).of_ok hw h1
  rw [hrun]
  rcases bind_cases (displayTable env) _ w1 with ⟨_, w2, h2, hrun⟩ | ⟨e, w2, -, hrun⟩
  on_goal 2 => exact ⟨e, w2, hrun⟩
  rw [hrun]
  cases ht : tableStr g with
  | error e =>
    have hstop := bind_error (f := fun str => broadcast env str)
      (run_checked_error (w := w1) (hw1 ▸ ht))
    cases h2.symm.trans hstop
  | ok str =>
    have hw2 : w2.game = g :=
      (Within.bind (checked_within hI ⟨str, ht⟩) fun _ => broadcast_within hs _ :
        TalksIn g _).of_ok hw1 h2
    obtain ⟨i, hi, hn⟩ : ∃ i < g.numPlayers, ¬ ∃ str, handsStr g i = .ok str := by
      by_contra hall
      push Not at hall
      exact hd ⟨⟨str, ht⟩, hall⟩
    rw [displayHands, bind_ok (run_readGame w2 _)]
    refine forM_error (I := fun w => w.game = g) (List.mem_range.mpr (hw2 ▸ hi)) ?_ ?_ hw2
    · intro w hw
      cases hstr : handsStr g i with
      | ok str => exact absurd ⟨str, hstr⟩ hn
      | error e => exact ⟨_, _, bind_error (run_checked_error (hw ▸ hstr))⟩
    · intro j hj w w' hw hrun
      cases hstr : handsStr g j with
      | error e => cases hrun.symm.trans (bind_error (run_checked_error (w := w) (hw ▸ hstr)))
      | ok str =>
        exact (displayHand_within hI hs (hw2 ▸ List.mem_range.mp hj) ⟨str, hstr⟩).of_ok hw hrun

end Display

/-! ### Which games are displayable -/

section Shaped
variable {n : ℕ} {g : Game}

theorem cardAt_ok_iff (h : Shape n g) {p : ℕ} (hp : p < n) (k : ℕ) :
    (∃ card, cardAt g p k = .ok card) ↔ k < g.cardsPerHand := by
  have hlt : p < g.hands.length := h.hands.symm ▸ hp
  rw [cardAt, List.getElem?_eq_getElem hlt, ← h.sizes g.hands[p] (List.getElem_mem hlt)]
  simp only
  by_cases hk : k < g.hands[p].length
  · rw [List.getElem?_eq_getElem hk]
    exact iff_of_true ⟨_, rfl⟩ hk
  · rw [List.getElem?_eq_none (by omega)]
    exact iff_of_false (by rintro ⟨_, h⟩; cases h) hk

/-- The loop over the cards of player `p`, which runs to `5`. -/
theorem handLines_ok_iff (h : Shape n g) {p : ℕ} (hp : p < n) (repr : Card → String) :
    (∃ strs, (List.range 5).mapM (handLine g repr p) = .ok strs) ↔ 5 ≤ g.cardsPerHand := by
  have hline : ∀ k, (∃ str, handLine g repr p k = .ok str) ↔ k < g.cardsPerHand := by
    intro k
    rw [← cardAt_ok_iff h hp k]
    unfold handLine
    cases hc : cardAt g p k with
    | error e => exact iff_of_false (by rintro ⟨_, h⟩; cases h) (by rintro ⟨_, h⟩; cases h)
    | ok card =>
      have hshown : shown repr card = .ok (repr card) := if_neg (h.held_cardAt hc).coloured
      exact iff_of_true (ok_map_iff.mpr ⟨_, hshown⟩) ⟨card, rfl⟩
  rw [mapM_ok_iff]
  constructor
  · intro hall
    exact (hline 4).mp (hall 4 (by decide))
  · intro hsize k hk
    exact (hline k).mpr (Nat.lt_of_lt_of_le (List.mem_range.mp hk) hsize)

/-- The assertion and the accesses for recipient `i` and displayed player `j`. -/
theorem handStr_ok_iff (h : Shape n g) {i j : ℕ} (hi : i < n) (hj : j < n) :
    (∃ str, handStr g i j = .ok str) ↔ 5 ≤ g.cardsPerHand := by
  have hlt : i < g.hands.length := h.hands.symm ▸ hi
  rw [handStr, List.getElem?_eq_getElem hlt]
  simp only
  rw [if_neg (not_not.mpr (h.sizes g.hands[i] (List.getElem_mem hlt)))]
  split_ifs
  · exact ok_map_iff.trans (handLines_ok_iff h hi _)
  · exact ok_map_iff.trans (handLines_ok_iff h hj _)

theorem tableStr_ok (h : Shape n g) : ∃ str, tableStr g = .ok str := by
  refine ok_map_iff.mpr (mapM_ok_iff.mpr fun j hj => ?_)
  rw [tableLine, List.getElem?_eq_getElem (h.table.symm ▸ List.mem_range.mp hj)]
  exact ⟨_, rfl⟩

theorem five_le_cardsPerHand (h : Shape n g) : 5 ≤ g.cardsPerHand ↔ n ≤ 3 := by
  rw [Game.cardsPerHand, Game.numPlayers, h.players]
  split_ifs <;> omega

/-- What recipient `i` is shown. -/
theorem handsStr_ok_iff (h : Shape n g) {i : ℕ} (hi : i < n) :
    (∃ str, handsStr g i = .ok str) ↔ n ≤ 3 := by
  rw [← five_le_cardsPerHand h]
  have hplayers : g.numPlayers = n := h.players
  constructor
  · intro hd
    obtain ⟨strs, hs⟩ := ok_map_iff.mp hd
    have hfirst := mapM_ok_iff.mp ⟨strs, hs⟩ i (List.mem_range.mpr (hplayers.symm ▸ hi))
    exact (handStr_ok_iff h hi hi).mp hfirst
  · intro hsize
    refine ok_map_iff.mpr (mapM_ok_iff.mpr fun j hj => ?_)
    exact (handStr_ok_iff h hi (hplayers ▸ List.mem_range.mp hj)).mpr hsize

/-- **A game can be displayed if its hands have five cards.** -/
theorem displayable_iff (h : Shape n g) : Displayable g ↔ n ≤ 3 := by
  have hplayers : g.numPlayers = n := h.players
  constructor
  · intro hd
    by_contra hsize
    have hn : 0 < n := by omega
    exact hsize ((handsStr_ok_iff h hn).mp (hd.hands 0 (hplayers.symm ▸ hn)))
  · intro hsize
    exact ⟨tableStr_ok h, fun i hi => (handsStr_ok_iff h (hplayers ▸ hi)).mpr hsize⟩

end Shaped

/-! ### Display along a run -/

/-- Every hand has its size, the accesses and assertions of `displayHands` are in order, and
`display` ends with an exception of the network at worst. -/
structure DisplaySafe (g : Game) : Prop where
  sizes : ∀ hand ∈ g.hands, hand.length = g.cardsPerHand
  access : ∀ i < g.numPlayers, ∀ j < g.numPlayers, ∃ str, handStr g i j = .ok str
  display : ∀ env w f w', w.game = g → (display env).run w ≠ .error (.fault f) w'

theorem displaySafe_of_shape {n : ℕ} {g : Game} (h : Shape n g) (hn : n ≤ 3) : DisplaySafe g where
  sizes := h.sizes
  access i hi j hj := by
    have hplayers : g.numPlayers = n := h.players
    exact (handStr_ok_iff h (hplayers ▸ hi) (hplayers ▸ hj)).mpr ((five_le_cardsPerHand h).mpr hn)
  display env w f w' hw hrun := by
    have htalks := display_within (fun _ hw => hw) (fun c s => talks_sendInfo env c s g)
      ((displayable_iff h).mpr hn)
    obtain ⟨⟨x, hx⟩, -⟩ := Within.of_error htalks hw hrun
    cases hx

theorem not_displaySafe_of_shape {n : ℕ} {g : Game} (h : Shape n g) (hn : 3 < n) :
    ¬ DisplaySafe g := by
  intro hs
  have hplayers : g.numPlayers = n := h.players
  have h0 := hs.access 0 (by omega) 0 (by omega)
  rw [handStr_ok_iff h (by omega) (by omega), five_le_cardsPerHand h] at h0
  omega

/-- **When a game can be displayed.** Whatever is played, every hand keeps its size and every
display is in order, exactly if the game has at most three players. -/
theorem display_safe_iff (parse : Bytes → ClientResponse) (players : List Player) (sessionId : ℤ)
    (s : Shuffle) (calls : List (Call players.length)) :
    States (gameStep parse) DisplaySafe (dealt players sessionId s) calls ↔
      players.length ≤ 3 := by
  have hdealt := shape_dealt players sessionId s
  constructor
  · intro hall
    by_contra hn
    exact not_displaySafe_of_shape hdealt (by omega) hall.1
  · intro hn
    refine states_of_inv (C := fun _ _ => True) (I := Shape players.length) ?_ ?_ hdealt ?_
    · intro g c g' h _ hs
      exact shape_step h hs
    · intro g h
      exact displaySafe_of_shape h hn
    · exact along_of_forall (fun _ _ => trivial) _ _

/-- Four players cannot be shown their hands. -/
theorem display_four_unsafe :
    ¬ States (gameStep parseOption) DisplaySafe (dealt (guests 4) 0 Shuffle.unshuffled)
      ([] : List (Call 4)) :=
  fun h => not_displaySafe_of_shape (shape_dealt _ _ _) (by decide) h.1

end HanabiBot.HanabiGame.Display
