import HanabiBot.HanabiGame.Walks

/-! # Who a game writes to

A game writes to its players only, and it keeps them (`addressing_turn`, `addressing_endGame`). A
turn begins with a broadcast of the tokens, so it writes to all of them, up to the first write of
that broadcast that fails (`turn_to`); the handler of `Game::start` consists of two broadcasts
(`endGame_to`). -/

namespace HanabiBot.HanabiGame.Audience

open HanabiBot.Lib.Calls HanabiBot.Common.Messages HanabiBot.HanabiGame.Cards
open HanabiBot.HanabiGame.State HanabiBot.HanabiGame.Play HanabiBot.HanabiGame.Walks

/-- In a game between `players` what is written goes to one of them. -/
def addressing (players : List Player) : Frame World where
  rel w w' := w.game.players = players → w'.game.players = players ∧
    ∃ more, w'.out = w.out ++ more ∧ ∀ s ∈ more, s.socket ∈ players.map Player.socket
  refl w h := ⟨h, [], (List.append_nil _).symm, fun s hs => by cases hs⟩
  trans h h' hp := by
    obtain ⟨hp', more, hout, hmore⟩ := h hp
    obtain ⟨hp'', more', hout', hmore'⟩ := h' hp'
    refine ⟨hp'', more ++ more', by rw [hout', hout, List.append_assoc], fun s hs => ?_⟩
    rcases List.mem_append.mp hs with hs | hs
    · exact hmore s hs
    · exact hmore' s hs

theorem addressing_walk (env : Env) (players : List Player) :
    Walk env (addressing players) (· ∈ players) where
  player {α i f} h w hp := by
    cases hi : w.game.players[i]? with
    | none =>
      rw [after_of_error (bind_error (run_element_none hi))]
      exact (addressing players).refl w hp
    | some player =>
      rw [after_bind_ok (run_element hi)]
      exact h player (hp ▸ List.mem_of_getElem? hi) w hp
  players {α f} h w hp := by
    rw [after_bind_ok (run_readGame w _), hp]
    exact h players (fun _ hmem => hmem) w hp
  modifyGame {f} hf w hp := by
    rw [after_of_ok (run_modifyGame w f)]
    exact ⟨(hf w.game).trans hp, [], (List.append_nil _).symm, fun s hs => by cases hs⟩
  sendBytes {player} hmem m w := by
    unfold after
    rw [run_sendBytes]
    split_ifs
    · refine fun hp => ⟨hp, _, rfl, fun s hs => ?_⟩
      rw [List.mem_singleton.mp hs]
      exact List.mem_map_of_mem hmem
    · exact (addressing players).refl w
  send_ {player} hmem msg w hp := by
    rw [after_of_ok (run_send_ env w player.socket msg)]
    simp only
    split_ifs
    · refine ⟨hp, _, rfl, fun s hs => ?_⟩
      rw [List.mem_singleton.mp hs]
      exact List.mem_map_of_mem hmem
    · exact ⟨hp, [], (List.append_nil _).symm, fun s hs => by cases hs⟩
  readBytesCatch w := by
    unfold after
    rw [run_readBytesCatch]
    cases w.inbox <;> exact (addressing players).refl w

/-! ### How far a broadcast gets -/

/-- The connections of `cs` that are written to, one after the other, before a write fails. -/
def wentOut (writeOk : ℕ → Conn → Bool) : ℕ → List Conn → List Conn
  | _, [] => []
  | n, c :: cs => if writeOk n c then c :: wentOut writeOk (n + 1) cs else []

section WentOut
variable {writeOk : ℕ → Conn → Bool}

theorem wentOut_initial : ∀ (n : ℕ) (cs : List Conn), wentOut writeOk n cs <+: cs
  | _, [] => List.prefix_rfl
  | n, c :: cs => by
    unfold wentOut
    split_ifs
    · exact List.cons_prefix_cons.mpr ⟨rfl, wentOut_initial (n + 1) cs⟩
    · exact List.nil_prefix

theorem wentOut_append_all : ∀ {n : ℕ} {cs : List Conn}, wentOut writeOk n cs = cs →
    ∀ ds, wentOut writeOk n (cs ++ ds) = cs ++ wentOut writeOk (n + cs.length) ds
  | _, [], _, _ => rfl
  | n, c :: cs, h, ds => by
    unfold wentOut at h
    split_ifs at h with hc
    have ih := wentOut_append_all (List.cons.inj h).2 ds
    rw [List.cons_append, wentOut, if_pos hc, ih, List.length_cons, List.cons_append]
    congr 3
    omega

theorem wentOut_append_cut : ∀ {n : ℕ} {cs : List Conn}, wentOut writeOk n cs ≠ cs →
    ∀ ds, wentOut writeOk n (cs ++ ds) = wentOut writeOk n cs
  | _, [], h, _ => absurd rfl h
  | n, c :: cs, h, ds => by
    unfold wentOut at h ⊢
    rw [List.cons_append]
    simp only
    split_ifs at h ⊢ with hc
    · rw [wentOut_append_cut (fun heq => h (congrArg (c :: ·) heq)) ds]
    · rfl

/-- A broadcast to `cs` and `ds` gets to all if both parts do. -/
theorem wentOut_append_iff {n : ℕ} {cs ds : List Conn} : wentOut writeOk n (cs ++ ds) = cs ++ ds ↔
    wentOut writeOk n cs = cs ∧ wentOut writeOk (n + cs.length) ds = ds := by
  by_cases h : wentOut writeOk n cs = cs
  · rw [wentOut_append_all h, List.append_cancel_left_eq, and_iff_right h]
  · rw [wentOut_append_cut h]
    refine iff_of_false (fun heq => h ?_) fun hall => h hall.1
    have hprefix : wentOut writeOk n cs <+: cs := wentOut_initial n cs
    have hle := hprefix.length_le
    rw [heq, List.length_append] at hle
    refine hprefix.eq_of_length ?_
    rw [heq, List.length_append]
    omega

end WentOut

section To
variable {env : Env}

/-- A broadcast to a list of players either gets to all of them or ends before one. -/
theorem forM_sendInfo_to (msg : String) : ∀ (players : List Player) (w : World),
    ∃ w', w'.out.map Sent.socket = w.out.map Sent.socket ++
        wentOut env.writeOk w.writes (players.map Player.socket) ∧
      ((players.forM fun player => sendInfo env player.socket msg).run w = .ok ⟨⟩ w' ∧
          w'.game = w.game ∧ w'.writes = w.writes + players.length ∧
            wentOut env.writeOk w.writes (players.map Player.socket) = players.map Player.socket ∨
        (∃ e, (players.forM fun player => sendInfo env player.socket msg).run w = .error e w') ∧
          wentOut env.writeOk w.writes (players.map Player.socket) ≠ players.map Player.socket)
  | [], w => ⟨w, (List.append_nil _).symm, Or.inl ⟨rfl, rfl, rfl, rfl⟩⟩
  | p :: players, w => by
    rw [List.forM, List.map_cons, wentOut]
    by_cases hw : env.writeOk w.writes p.socket = true
    · have hsent : (sendInfo env p.socket msg).run w =
          .ok ⟨⟩ (w.sent [.frame p.socket ⟨some msg, some .continue⟩]) := by
        rw [sendInfo, run_sendBytes, if_pos hw]
      obtain ⟨w', hout, hrun⟩ :=
        forM_sendInfo_to msg players (w.sent [.frame p.socket ⟨some msg, some .continue⟩])
      have hwrites : (w.sent [.frame p.socket ⟨some msg, some .continue⟩]).writes = w.writes + 1 :=
        rfl
      rw [hwrites] at hout hrun
      rw [if_pos hw, bind_ok hsent]
      refine ⟨w', ?_, ?_⟩
      · rw [hout]
        simp [World.sent, Sent.socket]
      · rcases hrun with ⟨hr, hgame, hcount, hall⟩ | ⟨he, hcut⟩
        · refine Or.inl ⟨hr, hgame, ?_, by rw [hall]⟩
          rw [hcount, List.length_cons]
          omega
        · exact Or.inr ⟨he, fun heq => hcut (List.cons.inj heq).2⟩
    · have hfailed : (sendInfo env p.socket msg).run w =
          .error (.exn (.write p.socket)) { w with writes := w.writes + 1 } := by
        rw [sendInfo, run_sendBytes, if_neg hw]
      rw [if_neg hw]
      exact ⟨{ w with writes := w.writes + 1 }, (List.append_nil _).symm,
        Or.inr ⟨⟨_, bind_error hfailed⟩, by simp⟩⟩

/-- **How far a `broadcast` gets.** -/
theorem broadcast_to (env : Env) (msg : String) (w : World) :
    ∃ w', w'.out.map Sent.socket = w.out.map Sent.socket ++
        wentOut env.writeOk w.writes (w.game.players.map Player.socket) ∧
      ((broadcast env msg).run w = .ok ⟨⟩ w' ∧ w'.game = w.game ∧
          w'.writes = w.writes + w.game.players.length ∧
            wentOut env.writeOk w.writes (w.game.players.map Player.socket) =
              w.game.players.map Player.socket ∨
        (∃ e, (broadcast env msg).run w = .error e w') ∧
          wentOut env.writeOk w.writes (w.game.players.map Player.socket) ≠
            w.game.players.map Player.socket) := by
  unfold broadcast
  rw [bind_ok (run_readGame w _)]
  exact forM_sendInfo_to msg _ w

/-- `Game::turn` behind its first broadcast. -/
def behindTokens (env : Env) (playerIndex : ℕ) : GameM PUnit := do
  displayTable env
  displayHands env
  let player ← element Game.players playerIndex
  sendInfo env player.socket "It's your turn!\n"
  let players ← readGame Game.players
  players.zipIdx.forM fun p =>
    if p.2 ≠ playerIndex then
      sendInfo env p.1.socket
        ("It's player " ++ toString playerIndex ++ "'s turn! (" ++ player.name ++ ")\n")
    else return ⟨⟩
  untilSome .outOfFuel World.pending (turnRound env playerIndex)

theorem turn_eq (env : Env) (i : ℕ) :
    turn env i = displayTokens env >>= fun _ => behindTokens env i := by
  unfold turn display behindTokens
  rw [bind_assoc]
  refine congrArg (displayTokens env >>= ·) (funext fun _ => ?_)
  rw [bind_assoc]

theorem addressing_behindTokens {players : List Player} (i : ℕ) :
    Keeps (addressing players) (behindTokens env i) := by
  have walk := addressing_walk env players
  refine Keeps.bind (Keeps.bind (keeps_checked _) fun _ => walk.broadcast _) fun _ => ?_
  refine Keeps.bind ?_ fun _ => walk.player fun player hp => ?_
  · refine Keeps.bind (keeps_readGame _) fun n => Keeps.forM fun j _ => ?_
    exact Keeps.bind (keeps_checked _) fun str => walk.player fun _ hp => walk.sendInfo hp _
  · refine Keeps.bind (walk.sendInfo hp _) fun _ => walk.players fun players' hps => ?_
    refine Keeps.bind (Keeps.forM fun q hq => ?_) fun _ => Keeps.untilSome walk.turnRound
    have hseat := hps q.1 (List.fst_mem_of_mem_zipIdx hq)
    exact Keeps.ite (walk.sendInfo hseat _) (Keeps.pure _)

/-- A turn writes to its players only, and keeps them. -/
theorem addressing_turn {players : List Player} (i : ℕ) :
    Keeps (addressing players) (turn env i) := by
  rw [turn_eq]
  exact Keeps.bind (Keeps.bind (keeps_readGame _) fun _ => (addressing_walk env players).broadcast _)
    fun _ => addressing_behindTokens i

/-- So does the handler of `Game::start`. -/
theorem addressing_endGame {players : List Player} : Keeps (addressing players) (endGame env) :=
  Keeps.bind ((addressing_walk env players).broadcast _) fun _ =>
    (addressing_walk env players).broadcast _

/-- **Who a turn writes to**: all its players, up to the first write of its first broadcast that
fails. -/
theorem turn_to (env : Env) (i : ℕ) {w : World} (hw : w.out = []) (c : Conn) :
    c ∈ (after (turn env i) w).out.map Sent.socket ↔
      c ∈ wentOut env.writeOk w.writes (w.game.players.map Player.socket) := by
  obtain ⟨w1, hout, hrun⟩ := broadcast_to env (tokensStr w.game) w
  rw [hw, List.map_nil, List.nil_append] at hout
  have htokens : (displayTokens env).run w = (broadcast env (tokensStr w.game)).run w :=
    bind_ok (run_readGame w _)
  rw [← htokens] at hrun
  rw [turn_eq]
  rcases hrun with ⟨hok, hgame, -, hall⟩ | ⟨⟨e, hfailed⟩, -⟩
  · -- the rest of the turn writes to the same players
    obtain ⟨-, more, hmore, hto⟩ :=
      addressing_behindTokens i w1 (congrArg Game.players hgame)
    rw [after_bind_ok hok, hmore, List.map_append, List.mem_append, hout, hall]
    refine or_iff_left_of_imp fun hc => ?_
    obtain ⟨s, hs, rfl⟩ := List.mem_map.mp hc
    exact hto s hs
  · rw [after_of_error (bind_error hfailed), hout]

/-- **Who the handler of `Game::start` writes to.** -/
theorem endGame_to (env : Env) (w : World) : (after (endGame env) w).out.map Sent.socket =
    w.out.map Sent.socket ++ wentOut env.writeOk w.writes
      (w.game.players.map Player.socket ++ w.game.players.map Player.socket) := by
  unfold endGame
  obtain ⟨w1, hout, ⟨hok, hgame, hwrites, hall⟩ | ⟨⟨e, hfailed⟩, hcut⟩⟩ := broadcast_to env
    "An error occurred in the game loop! likely that someone left :(\n" w
  · obtain ⟨w2, hout', hrun⟩ := broadcast_to env "Ending Game...\n" w1
    have hafter : after (broadcast env "Ending Game...\n") w1 = w2 := by
      rcases hrun with ⟨hok', -⟩ | ⟨⟨e, hfailed⟩, -⟩
      · exact after_of_ok hok'
      · exact after_of_error hfailed
    rw [after_bind_ok hok, hafter, hout', hout, hgame, hwrites, wentOut_append_all hall, hall,
      List.length_map, List.append_assoc]
  · rw [after_of_error (bind_error hfailed), hout, wentOut_append_cut hcut]

end To

end HanabiBot.HanabiGame.Audience
