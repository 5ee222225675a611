import HanabiBot.HanabiGame.Wire

/-! # A turn is one move

`Game::turn` runs `selectAction` until it returns true. A `Move` is the effect of one action: a card
of the player's hand is played or discarded, or a hint is given. `selectAction` makes one move if it
returns true, and else leaves the game as it is (`selectAction_acts`), so a loop that ends has made
exactly one (`turn_one_move`). -/

namespace HanabiBot.HanabiGame.Turns

open HanabiBot.Lib.Calls HanabiBot.Common.Messages
open HanabiBot.HanabiGame.Cards HanabiBot.HanabiGame.State HanabiBot.HanabiGame.Play
open HanabiBot.HanabiGame.Dialogue HanabiBot.HanabiGame.Actions HanabiBot.HanabiGame.Hints
open HanabiBot.HanabiGame.Steps HanabiBot.HanabiGame.Wire HanabiBot.HanabiGame.Walks

/-- The games one move of player `i` can lead to; `hintable` are the hints the player may give. -/
inductive Move (g : Game) (i : ℕ) (hintable : ℕ → Hint → Prop) : Game → Prop where
  | play (k : ℕ) (card : Card) (hk : cardAt g i k = .ok card) (g' : Game)
      (h : playMove g i k card = some g') : Move g i hintable g'
  | discard (k : ℕ) (card : Card) (hk : cardAt g i k = .ok card) :
      Move g i hintable (discarded g i k card)
  | hint (j : ℕ) (hint : Hint) (h : hintable j hint) : Move g i hintable (hinted g j hint)

/-- How a move of player `i` fails: with an exception, or outside of the table, on which a card of
the player has no place. -/
def Stops (g : Game) (i : ℕ) (e : Stop) : Prop :=
  (∃ x, e = .exn x) ∨
    e = .fault .outOfRange ∧ ∃ k card, cardAt g i k = .ok card ∧ playMove g i k card = none

/-- A round of `selectAction` on the game `g`: a move, or the game as it was. It fails neither for
want of fuel nor in the default branch of its switch. -/
def Acts (g : Game) (i : ℕ) : EStateM.Result Stop World Bool → Prop
  | .ok true w => Move g i (HintAllowed g i) w.game
  | .ok false w => w.game = g
  | .error e _ => Stops g i e

section Acts
variable (env : Env) {g : Game} {i : ℕ}

/-- A call that ends with a move if it returns true, and with the same game if not. -/
theorem acts_of_ends {o : Option Game} {b : Bool} {r : EStateM.Result Stop World Bool}
    (h : Ends o b r) (hmove : b = true → ∀ g', o = some g' → Move g i (HintAllowed g i) g')
    (hsame : b = false → o = some g)
    (hnone : o = none → ∃ k card, cardAt g i k = .ok card ∧ playMove g i k card = none) :
    Acts g i r := by
  cases r with
  | ok b' w =>
    obtain ⟨rfl, ho⟩ := h
    cases b' with
    | true => exact hmove rfl _ ho
    | false => exact (Option.some.inj ((hsame rfl).symm.trans ho)).symm
  | error e w =>
    cases e with
    | exn x => exact Or.inl ⟨x, rfl⟩
    | fault f =>
      cases f with
      | outOfRange => exact Or.inr ⟨rfl, hnone h⟩
      | assertion => exact False.elim h
    | outOfFuel => exact False.elim h

/-- **`selectAction` makes one move or none.** -/
theorem selectAction_acts (hl : g.hands.length = g.numPlayers)
    (hcol : Coloured g) (hi : i < g.numPlayers)
    {w : World} (hw : w.game = g) : Acts g i ((selectAction env i).run w) := by
  subst hw
  have hlt : i < w.game.hands.length := hl ▸ hi
  obtain ⟨player, hp⟩ : ∃ player, w.game.players[i]? = some player :=
    ⟨_, List.getElem?_eq_getElem hi⟩
  obtain ⟨hand, hh⟩ : ∃ hand, w.game.hands[i]? = some hand := ⟨_, List.getElem?_eq_getElem hlt⟩
  unfold selectAction
  rw [bind_ok (run_element hp)]
  refine (talks_requestInt env _ _ _ _).bind_rule (P := Acts w.game i) ?_ ?_
  · intro action w1 hrun hg
    have hrange := (requestInt_ok hrun).2
    rw [← hg] at hp hh hl hcol ⊢
    split_ifs with h0 h1 h2
    · rcases playCard_ends env hp hh with ⟨-, he⟩ | ⟨k, m, card, -, hc, he⟩
      · exact acts_of_ends he nofun (fun _ => rfl) nofun
      · exact acts_of_ends he (fun _ g' ho => .play k card hc g' ho) nofun
          fun ho => ⟨k, card, hc, ho⟩
    · rcases discardCard_ends env hp hh hcol with ⟨-, he⟩ | ⟨k, m, card, -, hc, hd⟩
      · exact acts_of_ends he nofun (fun _ => rfl) nofun
      · rcases hd with ⟨-, w2, hr, hg2⟩ | ⟨-, he⟩
        · rw [hr]
          have hmove : Move w1.game i (HintAllowed w1.game i) w2.game := hg2 ▸ .discard k card hc
          exact hmove
        · exact acts_of_ends he nofun (fun _ => rfl) nofun
    · have hgives := namedHint_gives env hp hl
      rw [giveHint_eq, run_map]
      cases hr : (namedHint env i).run w1 with
      | error e w2 =>
        rw [hr] at hgives
        obtain ⟨hx, -⟩ := hgives
        exact Or.inl hx
      | ok o w2 =>
        rw [hr] at hgives
        match o with
        | none => exact hgives
        | some (j, hint) =>
          have hmove : Move w1.game i (HintAllowed w1.game i) w2.game := by
            rw [hgives.2]
            exact .hint j hint hgives.1
          exact hmove
    · omega
  · intro x w1 _
    exact Or.inl ⟨x, rfl⟩

end Acts

/-! ### Rejected responses -/

section Rejected
variable {env : Env} {i j : ℕ} {player : Player} {w w' : World}

theorem giveHintTo_none {hint : Hint}
    (h : (giveHintTo env player i j hint).run w = .ok none w') : w'.game = w.game := by
  obtain ⟨hand, w1, h1, h⟩ := bind_eq_ok h
  have hw1 : w1 = w := by
    cases hh : w.game.hands[j]? with
    | none => rw [run_element_none hh] at h1; cases h1
    | some hand' => rw [run_element hh] at h1; cases h1; rfl
  simp only at h
  split_ifs at h
  · rw [bind_ok (run_send_ env w1 _ _)] at h
    cases h
    rw [hw1]
  · obtain ⟨_, w2, -, h⟩ := bind_eq_ok h
    cases h

theorem colourRound_none (h : (colourRound env player i j).run w = .ok none w') :
    w'.game = w.game := by
  obtain ⟨v, w1, h1, h⟩ := bind_eq_ok h
  have hg := (talks_requestInt env _ _ _ _).of_ok h1
  split_ifs at h
  · cases h
  · exact (giveHintTo_none h).trans hg

theorem numberRound_none (h : (numberRound env player i j).run w = .ok none w') :
    w'.game = w.game := by
  obtain ⟨v, w1, h1, h⟩ := bind_eq_ok h
  have hg := (talks_requestInt env _ _ _ _).of_ok h1
  split_ifs at h
  · rw [bind_ok (run_send_ env w1 _ _)] at h
    cases h
    exact hg
  · cases h
  · exact (giveHintTo_none h).trans hg

end Rejected

/-! ### The loop of a turn -/

/-- The worlds with the same game. -/
def sameGame : Frame World := Frame.same World.game

section SameGame
variable (env : Env)

theorem sameGame_sendInfo (c : Conn) (s : String) : Keeps sameGame (sendInfo env c s) :=
  (quiet_sendBytes env c _).mono fun _ _ h => congrArg Prod.fst h

theorem sameGame_broadcast (msg : String) : Keeps sameGame (broadcast env msg) :=
  Keeps.bind (keeps_readGame _) fun _ => Keeps.forM fun _ _ => sameGame_sendInfo env _ _

theorem sameGame_display : Keeps sameGame (display env) := by
  refine Keeps.bind (Keeps.bind (keeps_readGame _) fun _ => sameGame_broadcast env _) fun _ => ?_
  refine Keeps.bind (Keeps.bind (keeps_checked _) fun _ => sameGame_broadcast env _) fun _ => ?_
  refine Keeps.bind (keeps_readGame _) fun _ => Keeps.forM fun i _ => ?_
  refine Keeps.bind (keeps_checked _) fun _ => ?_
  exact Keeps.bind (keeps_element _ _) fun _ => sameGame_sendInfo env _ _

end SameGame

/-- What is promised of a turn of player `i`, and of the loop it ends with. -/
structure OneMove (env : Env) (g : Game) (i : ℕ) (hintable : ℕ → Hint → Prop) : Prop where
  loop : ∀ w w', w.game = g →
    (untilSome .outOfFuel World.pending (turnRound env i)).run w = .ok ⟨⟩ w' →
      Move g i hintable w'.game
  turn : ∀ w w', w.game = g → (turn env i).run w = .ok ⟨⟩ w' → Move g i hintable w'.game
  undone : ∀ w w', w.game = g → (selectAction env i).run w = .ok false w' → w'.game = g
  rejected : ∀ lower higher msg player w w',
    (requestIntRound env lower higher msg player).run w = .ok none w' → w'.game = w.game
  rejected_hintee : ∀ player w w', (hinteeRound env player i).run w = .ok none w' → w'.game = w.game
  rejected_hint : ∀ player j w w', (colourRound env player i j).run w = .ok none w' ∨
    (numberRound env player i j).run w = .ok none w' → w'.game = w.game
  defined : ∀ w w', w.game = g → (selectAction env i).run w ≠ .error (.fault .assertion) w'

section Turn
variable {env : Env} {g : Game} {i : ℕ}

theorem Move.mono {hintable hintable' : ℕ → Hint → Prop} {g' : Game} (h : Move g i hintable g')
    (hh : ∀ j hint, hintable j hint → hintable' j hint) : Move g i hintable' g' := by
  cases h with
  | play k card hk g' hm => exact .play k card hk g' hm
  | discard k card hk => exact .discard k card hk
  | hint j hint hj => exact .hint j hint (hh j hint hj)

/-- The loop of a turn on the game `g`: a move. -/
def LoopActs (g : Game) (i : ℕ) : EStateM.Result Stop World PUnit → Prop
  | .ok _ w => Move g i (HintAllowed g i) w.game
  | .error e _ => Stops g i e

/-- **The loop of `turn` makes one move**: its last round makes it, and the rounds before leave the
game as it was. -/
theorem turnLoop_acts (env : Env) (hl : g.hands.length = g.numPlayers)
    (hcol : Coloured g) (hi : i < g.numPlayers) {w : World} (hw : w.game = g) :
    LoopActs g i ((untilSome .outOfFuel World.pending (turnRound env i)).run w) := by
  refine untilSome_rule Stop.outOfFuel (shrinks_turnRound env i)
    (P := fun w r => w.game = g → LoopActs g i r) ?_ ?_ ?_ w hw
  · intro w a w' hr hw
    obtain ⟨done, w1, h1, h2⟩ := bind_eq_ok hr
    have hacts := selectAction_acts env hl hcol hi hw
    rw [h1] at hacts
    cases done with
    | true =>
      cases h2
      exact hacts
    | false => cases h2
  · intro w w' r hr ih hw
    obtain ⟨done, w1, h1, h2⟩ := bind_eq_ok hr
    have hacts := selectAction_acts env hl hcol hi hw
    rw [h1] at hacts
    cases done with
    | true => cases h2
    | false =>
      cases h2
      exact ih hacts
  · intro w e w' hr hw
    have hacts := selectAction_acts env hl hcol hi hw
    unfold turnRound at hr
    rcases bind_cases (selectAction env i) _ w with ⟨done, w1, -, hrun⟩ | ⟨e', w1, h1, hrun⟩
    · cases hrun.symm.trans hr
    · cases hrun.symm.trans hr
      rw [h1] at hacts
      exact hacts

/-- A loop of `turn` that ends has made one move. -/
theorem turnLoop_move (hl : g.hands.length = g.numPlayers)
    (hcol : Coloured g) (hi : i < g.numPlayers)
    {w w' : World} (hw : w.game = g)
    (h : (untilSome .outOfFuel World.pending (turnRound env i)).run w = .ok ⟨⟩ w') :
    Move g i (HintAllowed g i) w'.game := by
  have hacts := turnLoop_acts env hl hcol hi hw
  rwa [h] at hacts

/-- What a turn does before its loop leaves the game alone. -/
theorem turn_eq_ok {w w' : World} (h : (turn env i).run w = .ok ⟨⟩ w') :
    ∃ w1, w1.game = w.game ∧
      (untilSome .outOfFuel World.pending (turnRound env i)).run w1 = .ok ⟨⟩ w' := by
  obtain ⟨_, w1, h1, h⟩ := bind_eq_ok h
  obtain ⟨player, w2, h2, h⟩ := bind_eq_ok h
  obtain ⟨_, w3, h3, h⟩ := bind_eq_ok h
  obtain ⟨players, w4, h4, h⟩ := bind_eq_ok h
  obtain ⟨_, w5, h5, h⟩ := bind_eq_ok h
  have hothers : Keeps sameGame (players.zipIdx.forM fun p =>
      if p.2 ≠ i then
        sendInfo env p.1.socket
          ("It's player " ++ toString i ++ "'s turn! (" ++ player.name ++ ")\n")
      else return ⟨⟩) :=
    Keeps.forM fun _ _ => Keeps.ite (sameGame_sendInfo env _ _) (Keeps.pure _)
  have hg1 : w1.game = w.game := (sameGame_display env).of_ok h1
  have hg2 : w2.game = w1.game := (keeps_element (F := sameGame) _ _).of_ok h2
  have hg3 : w3.game = w2.game := (sameGame_sendInfo env _ _).of_ok h3
  have hg4 : w4.game = w3.game := (keeps_readGame (F := sameGame) _).of_ok h4
  have hg5 : w5.game = w4.game := hothers.of_ok h5
  exact ⟨w5, by rw [hg5, hg4, hg3, hg2, hg1], h⟩

/-- Only a hint lowers the number of blue tokens. -/
theorem Move.le_numBlueTokens {hintable : ℕ → Hint → Prop} {g' : Game} (h : Move g i hintable g')
    (hh : ∀ j hint, ¬ hintable j hint) : g.numBlueTokens ≤ g'.numBlueTokens := by
  have hredraw (g : Game) (k : ℕ) : (redraw g i k).numBlueTokens = g.numBlueTokens := rfl
  cases h with
  | play k card hk g' hm =>
    unfold playMove at hm
    split at hm
    · cases hm
    · cases hm
      split_ifs
      · unfold played rewarded
        split_ifs
        · exact Int.le_add_one (Int.le_refl _)
        · exact Int.le_refl _
      · exact Int.le_refl _
  | discard k card hk => exact Int.le_add_one (Int.le_refl _)
  | hint j hint hj => exact absurd hj (hh j hint)

theorem oneMove (env : Env) (hl : g.hands.length = g.numPlayers)
    (hcol : Coloured g) (hi : i < g.numPlayers) :
    OneMove env g i (HintAllowed g i) where
  loop _ _ hw h := turnLoop_move hl hcol hi hw h
  turn w w' hw h := by
    obtain ⟨w1, hg, hloop⟩ := turn_eq_ok h
    exact turnLoop_move hl hcol hi (hg.trans hw) hloop
  undone w w' hw h := by
    have hacts := selectAction_acts env hl hcol hi hw
    rwa [h] at hacts
  rejected _ _ _ _ _ _ h := (talks_requestIntRound env _ _ _ _).of_ok h
  rejected_hintee player _ _ h := (talks_hinteeRound env player).of_ok h
  rejected_hint player j _ _ h := h.elim colourRound_none numberRound_none
  defined w w' hw h := by
    have hacts := selectAction_acts env hl hcol hi hw
    rw [h] at hacts
    rcases hacts with ⟨x, hx⟩ | ⟨hx, -⟩ <;> cases hx

theorem OneMove.mono {hintable hintable' : ℕ → Hint → Prop} (h : OneMove env g i hintable)
    (hh : ∀ j hint, hintable j hint → hintable' j hint) : OneMove env g i hintable' :=
  { h with
    loop := fun w w' hw hr => (h.loop w w' hw hr).mono hh
    turn := fun w w' hw hr => (h.turn w w' hw hr).mono hh }

end Turn

/-- **A turn is one move.** A turn that ends has made one move: a card played, a card discarded or a
hint, with a blue token wherever their number is not negative. What is undone or rejected leaves the
game as it was, and no answer leads to the default branch of `selectAction`. -/
theorem turn_one_move (env : Env) {g : Game} {i : ℕ} (hl : g.hands.length = g.numPlayers)
    (hcol : Coloured g) (hi : i < g.numPlayers) :
    OneMove env g i (HintAllowed g i) ∧
      (0 ≤ g.numBlueTokens →
        OneMove env g i fun j hint => 0 < g.numBlueTokens ∧ HintAllowed g i j hint) := by
  have hmove := oneMove env hl hcol hi
  refine ⟨hmove, fun ht => hmove.mono fun j hint h => ⟨?_, h⟩⟩
  have hne := h.tokens
  omega

/-- A deal for two, with no blue token left and one less. -/
def overdrawn : Game := { dealt (guests 2) 0 Shuffle.unshuffled with numBlueTokens := -1 }

/-- The first player hints at the red cards of the second. -/
def redHint : List Bytes := [[8, 2], [8, 1], [8, 0], [8, 0]]

theorem turn_one_move_deal :
    (dealt (guests 2) 0 Shuffle.unshuffled).hands.length = 2 ∧
      OneMove (Env.healthy parseOption) (dealt (guests 2) 0 Shuffle.unshuffled) 0 fun j hint =>
        0 < Game.totalBlueTokens ∧ HintAllowed (dealt (guests 2) 0 Shuffle.unshuffled) 0 j hint := by
  have hg := shape_dealt (guests 2) 0 Shuffle.unshuffled
  exact ⟨hg.hands,
    (turn_one_move (Env.healthy parseOption) hg.hands hg.coloured (by decide)).2 (by decide)⟩

/-- The guard of `giveHint` is `== 0`: with a negative number of tokens, which no deal leads to, a
hint is still given. -/
theorem overdrawn_hints :
    (∀ hand ∈ overdrawn.hands, hand.length = overdrawn.cardsPerHand ∧ ∀ card ∈ hand, card.Real) ∧
      ¬ OneMove (Env.healthy parseOption) overdrawn 0 fun j hint =>
        0 < overdrawn.numBlueTokens ∧ HintAllowed overdrawn 0 j hint := by
  refine ⟨by decide +kernel, fun h => ?_⟩
  have htokens : (match (untilSome .outOfFuel World.pending
        (turnRound (Env.healthy parseOption) 0)).run ⟨overdrawn, redHint, 0, []⟩ with
      | .ok _ w => some w.game.numBlueTokens
      | .error _ _ => none) = some (-2) := by decide +kernel
  split at htokens
  · next w' hr =>
    have hle := (h.loop _ w' rfl hr).le_numBlueTokens fun j hint hj => absurd hj.1 (by decide)
    have hlow : overdrawn.numBlueTokens = -1 := rfl
    have hend := Option.some.inj htokens
    omega
  · cases htokens

end HanabiBot.HanabiGame.Turns
