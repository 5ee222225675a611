import HanabiBot.HanabiGame.Turns

/-! # The turn of a started game

`Game::start` deals and plays one turn. An exception of that turn goes to the handler of
`Game::start`; a fault, which is an index outside of a vector or a failed assertion, does not.

Three players and fewer are dealt real cards, and a real card has its place on the table, so their
turn ends without a fault. With more of them the display of the hands has one, and without any of
them the look at the first player; a game comes to that point if everyone hears the two broadcasts
before it (`turn_sound_iff`). -/

namespace HanabiBot.HanabiGame.FirstTurn

open HanabiBot.Lib.Calls HanabiBot.Common.Messages
open HanabiBot.HanabiGame.Cards HanabiBot.HanabiGame.State HanabiBot.HanabiGame.Play
open HanabiBot.HanabiGame.Dialogue HanabiBot.HanabiGame.Actions HanabiBot.HanabiGame.Steps
open HanabiBot.HanabiGame.Display HanabiBot.HanabiGame.Turns HanabiBot.HanabiGame.Audience

/-- The call has returned, or failed with an exception. -/
def Sound {α : Type} : EStateM.Result Stop World α → Prop
  | .ok _ _ => True
  | .error e _ => ∃ x, e = .exn x

/-- Everyone hears the two broadcasts a turn begins with. -/
def HeardTwice (env : Env) (players : List Player) : Prop :=
  heard env 0 players = true ∧ heard env players.length players = true

/-! ### The cards that are dealt -/

/-- As long as the deck lasts it hands out its own cards. -/
theorem drawN_undrawn : ∀ (n : ℕ) {d : Deck}, n ≤ d.undrawn.length →
    (d.drawN n).1 ++ (d.drawN n).2.undrawn = d.undrawn
  | 0, _, _ => rfl
  | n + 1, d, h => by
    rcases d.draw_cases with hd | ⟨hd, -⟩
    · rw [hd, List.length_cons] at h
      have ih := drawN_undrawn n (d := d.draw.2) (by omega)
      rw [hd, Deck.drawN, List.cons_append, ih]
    · rw [hd] at h
      cases h

theorem dealHands_undrawn (size : ℕ) : ∀ (n : ℕ) {d : Deck}, n * size ≤ d.undrawn.length →
    (dealHands size n d).1.flatten ++ (dealHands size n d).2.undrawn = d.undrawn
  | 0, _, _ => rfl
  | n + 1, d, h => by
    rw [Nat.succ_mul] at h
    have hhand := drawN_undrawn size (d := d) (by omega)
    have hlength := congrArg List.length hhand
    rw [List.length_append, Deck.length_drawN] at hlength
    have ih := dealHands_undrawn size n (d := (d.drawN size).2) (by omega)
    rw [dealHands, List.flatten_cons, List.append_assoc, ih, hhand]

section Deal
variable {players : List Player} {sessionId : ℤ} {s : Shuffle}

/-- The deck lasts for three players. -/
theorem real_dealt (hn : players.length ≤ 3) {hand : List Card} {card : Card}
    (hh : hand ∈ (dealt players sessionId s).hands) (hc : card ∈ hand) : card.Real := by
  have hsize : (Game.ofSession players sessionId s).cardsPerHand = 5 := if_pos hn
  have hlength : (Deck.ofShuffle s).undrawn.length = 50 :=
    s.perm.length_eq.trans length_builtCards
  have hdeal := dealHands_undrawn 5 players.length (d := Deck.ofShuffle s) (by omega)
  have hhands : (dealt players sessionId s).hands =
      (dealHands 5 players.length (Deck.ofShuffle s)).1 := by
    rw [← hsize]
    rfl
  rw [hhands] at hh
  have hmem : card ∈ (Deck.ofShuffle s).undrawn := by
    rw [← hdeal]
    exact List.mem_append_left _ (List.mem_flatten.mpr ⟨hand, hh, hc⟩)
  exact (s.fresh (List.mem_of_mem_drop hmem)).1

/-- So there is no fault in a move. -/
theorem exn_of_stops (hn : players.length ≤ 3) {i : ℕ} {e : Stop}
    (h : Stops (dealt players sessionId s) i e) : ∃ x, e = .exn x := by
  rcases h with hx | ⟨-, k, card, hc, hnone⟩
  · exact hx
  · obtain ⟨hand, hh, hk⟩ := cardAt_ok hc
    have hreal := real_dealt hn (List.mem_of_getElem? hh) (List.mem_of_getElem? hk)
    obtain ⟨top, ht⟩ := ((shape_dealt players sessionId s).table_some (Or.inl hreal)).mpr hreal
    rw [playMove, ht] at hnone
    cases hnone

end Deal

/-! ### Up to the display of the hands -/

/-- `Game::turn` behind its second broadcast. -/
def behindTable (env : Env) (playerIndex : ℕ) : GameM PUnit := do
  displayHands env
  let player ← element Game.players playerIndex
  sendInfo env player.socket "It's your turn!\n"
  let players ← readGame Game.players
  players.zipIdx.forM fun p =>
    if p.2 ≠ playerIndex then
      sendInfo env p.1.socket
        ("It's player " ++ toString playerIndex ++ "'s turn! (" ++ player.name ++ ")\n")
    else return ⟨⟩
  untilSome .outOfFuel World.pending (turnRound env playerIndex)

section Turn
variable {env : Env} {w : World}

theorem behindTokens_eq (env : Env) (i : ℕ) :
    behindTokens env i = displayTable env >>= fun _ => behindTable env i := rfl

theorem run_displayTokens {r : EStateM.Result Stop World PUnit}
    (h : (broadcast env (tokensStr w.game)).run w = r) : (displayTokens env).run w = r :=
  (bind_ok (run_readGame w _)).trans h

theorem run_displayTable {str : String} {r : EStateM.Result Stop World PUnit}
    (hstr : tableStr w.game = .ok str) (h : (broadcast env str).run w = r) :
    (displayTable env).run w = r :=
  (bind_ok (run_checked_ok hstr)).trans h

/-- A broadcast that is not heard by everyone throws. -/
theorem broadcast_unheard (msg : String) (h : ¬ heard env w.writes w.game.players = true) :
    ∃ x w', (broadcast env msg).run w = .error (.exn x) w' := by
  have hb := broadcast_heard env msg w
  rw [if_neg h] at hb
  obtain ⟨e, w', hb⟩ := hb
  obtain ⟨⟨x, rfl⟩, -⟩ := (talks_broadcast env msg).of_error hb
  exact ⟨x, w', hb⟩

/-- **A turn that is heard comes to the hands.** -/
theorem turn_heard (env : Env) (i : ℕ) (htable : ∃ str, tableStr w.game = .ok str)
    (hw : w.writes = 0) (h : HeardTwice env w.game.players) :
    ∃ w', w'.game = w.game ∧ (turn env i).run w = (behindTable env i).run w' := by
  obtain ⟨str, htable⟩ := htable
  have hfirst := broadcast_heard env (tokensStr w.game) w
  rw [hw, if_pos h.1] at hfirst
  obtain ⟨w1, hb, hwrites⟩ := hfirst
  have hg1 := (talks_broadcast env _).of_ok hb
  have hsecond := broadcast_heard env str w1
  rw [hg1, hwrites, Nat.zero_add, if_pos h.2] at hsecond
  obtain ⟨w2, hb2, -⟩ := hsecond
  rw [turn_eq, bind_ok (run_displayTokens hb), behindTokens_eq,
    bind_ok (run_displayTable (hg1.symm ▸ htable) hb2)]
  exact ⟨w2, ((talks_broadcast env _).of_ok hb2).trans hg1, rfl⟩

/-- **Any other throws before it.** -/
theorem turn_unheard (env : Env) (i : ℕ) (htable : ∃ str, tableStr w.game = .ok str)
    (hw : w.writes = 0) (h : ¬ HeardTwice env w.game.players) :
    ∃ x w', (turn env i).run w = .error (.exn x) w' := by
  obtain ⟨str, htable⟩ := htable
  rw [turn_eq]
  by_cases h1 : heard env 0 w.game.players = true
  · have hfirst := broadcast_heard env (tokensStr w.game) w
    rw [hw, if_pos h1] at hfirst
    obtain ⟨w1, hb, hwrites⟩ := hfirst
    have hg1 := (talks_broadcast env _).of_ok hb
    have h2 : ¬ heard env w1.writes w1.game.players = true := by
      rw [hg1, hwrites, Nat.zero_add]
      exact fun h2 => h ⟨h1, h2⟩
    obtain ⟨x, w2, hb2⟩ := broadcast_unheard str h2
    rw [bind_ok (run_displayTokens hb), behindTokens_eq]
    exact ⟨x, w2, bind_error (run_displayTable (hg1.symm ▸ htable) hb2)⟩
  · have hunheard : ¬ heard env w.writes w.game.players = true := hw.symm ▸ h1
    obtain ⟨x, w1, hb⟩ := broadcast_unheard (tokensStr w.game) hunheard
    exact ⟨x, w1, bind_error (run_displayTokens hb)⟩

end Turn

/-! ### From there on -/

section Started
variable (env : Env) {players : List Player} {sessionId : ℤ} {s : Shuffle} {w : World}
  (hw : w.game = dealt players sessionId s)
include hw

/-- With one to three players there is no fault. -/
theorem sound_behindTable (h1 : 1 ≤ players.length) (h3 : players.length ≤ 3) :
    Sound ((behindTable env 0).run w) := by
  have hg := shape_dealt players sessionId s
  have hhands : TalksIn (dealt players sessionId s) (displayHands env) :=
    displayHands_within (fun _ hw => hw) (fun c msg => talks_sendInfo env c msg _)
      fun i hi => (handsStr_ok_iff hg hi).mpr h3
  refine hhands.bind_rule hw ?_ fun x _ _ => ⟨x, rfl⟩
  intro _ w1 _ hw1
  have hplayer : w1.game.players[0]? = some players[0] :=
    hw1.symm ▸ List.getElem?_eq_getElem (l := players) h1
  rw [bind_ok (run_element hplayer)]
  refine (talks_sendInfo env _ _ _).bind_rule hw1 ?_ fun x _ _ => ⟨x, rfl⟩
  intro _ w2 _ hw2
  rw [bind_ok (run_readGame w2 _)]
  have hothers (seats : List (Player × ℕ)) : Talks (seats.forM fun p =>
      if p.2 ≠ 0 then
        sendInfo env p.1.socket
          ("It's player " ++ toString 0 ++ "'s turn! (" ++ players[0].name ++ ")\n")
      else return ⟨⟩) :=
    Talks.forM fun _ => Talks.ite (talks_sendInfo env _ _) (Talks.pure _)
  refine (hothers _ _).bind_rule hw2 ?_ fun x _ _ => ⟨x, rfl⟩
  intro _ w3 _ hw3
  have hloop := turnLoop_acts env hg.hands hg.coloured h1 hw3
  cases hr : (untilSome .outOfFuel World.pending (turnRound env 0)).run w3 with
  | ok _ w4 => trivial
  | error e w4 =>
    rw [hr] at hloop
    exact exn_of_stops h3 hloop

/-- Without players there is none to look at. -/
theorem not_sound_nobody (h0 : players.length = 0) : ¬ Sound ((behindTable env 0).run w) := by
  have hplayers : w.game.players = [] := hw ▸ List.length_eq_zero_iff.mp h0
  have hhands : (displayHands env).run w = .ok ⟨⟩ w := by
    rw [displayHands, bind_ok (run_readGame w _), Game.numPlayers, hplayers]
    rfl
  have hnone : w.game.players[0]? = none := by rw [hplayers]; rfl
  rw [behindTable, bind_ok hhands, bind_error (run_element_none hnone)]
  rintro ⟨x, hx⟩
  cases hx

/-- From four players on the first hand cannot be shown. -/
theorem not_sound_crowd (h4 : 3 < players.length) : ¬ Sound ((behindTable env 0).run w) := by
  have hg := shape_dealt players sessionId s
  have hnumber : w.game.numPlayers = players.length := hw ▸ hg.players
  obtain ⟨n, hn⟩ : ∃ n, players.length = n + 1 := ⟨players.length - 1, by omega⟩
  cases hstr : handsStr w.game 0 with
  | ok str =>
    have hle := (handsStr_ok_iff hg (i := 0) (by omega)).mp ⟨str, hw ▸ hstr⟩
    omega
  | error f =>
    have hhands : (displayHands env).run w = .error (.fault f) w := by
      rw [displayHands, bind_ok (run_readGame w _), hnumber, hn, List.range_succ_eq_map, List.forM]
      exact bind_error (bind_error (run_checked_error hstr))
    rw [behindTable, bind_error hhands]
    rintro ⟨x, hx⟩
    cases hx

end Started

/-- **When the turn of a started game ends without a fault**: in a game of one to three players, or
where one of the first two broadcasts of the turn fails. -/
theorem turn_sound_iff (env : Env) (players : List Player) (sessionId : ℤ) (s : Shuffle)
    (responses : List Bytes) :
    Sound ((turn env 0).run ⟨dealt players sessionId s, responses, 0, []⟩) ↔
      (HeardTwice env players → 1 ≤ players.length ∧ players.length ≤ 3) := by
  have htable := tableStr_ok (shape_dealt players sessionId s)
  by_cases h : HeardTwice env players
  · obtain ⟨w', hw', hrun⟩ :=
      turn_heard env 0 (w := ⟨dealt players sessionId s, responses, 0, []⟩) htable rfl h
    rw [hrun, forall_prop_of_true h]
    constructor
    · intro hsound
      by_contra hn
      rcases Nat.eq_zero_or_pos players.length with h0 | hpos
      · exact not_sound_nobody env hw' h0 hsound
      · exact not_sound_crowd env hw' (by omega) hsound
    · intro hn
      exact sound_behindTable env hw' hn.1 hn.2
  · obtain ⟨x, w', hrun⟩ :=
      turn_unheard env 0 (w := ⟨dealt players sessionId s, responses, 0, []⟩) htable rfl h
    rw [hrun]
    exact iff_of_true ⟨x, rfl⟩ fun hheard => absurd hheard h

end HanabiBot.HanabiGame.FirstTurn
