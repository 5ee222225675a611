import HanabiBot.Lib.Lists
import HanabiBot.Lobby.Failures
import Mathlib.Data.List.Induction

/-! # Whom a broadcast reaches

A broadcast of a session or of a game is a loop of `sendBytes` over the players, and ends with the
first that throws. On a network where some sockets work and the others fail on every write, it
reaches exactly the players in front of the first whose socket fails: all whose sockets work, if none
of them stands behind one whose socket fails (`LostLast`).

The handler of `Game::start` makes two broadcasts, and the closing of a session is followed by its
erase: neither second part comes about if a write of the first fails (`reach_iff`). The session of a
game is erased before the game (`game_erased`). -/

namespace HanabiBot.Lobby.Broadcasts

open HanabiBot.Lib.Calls HanabiBot.Lib.Lists HanabiBot.Lib.Runs HanabiBot.Common.Messages
open HanabiBot.HanabiGame.State HanabiBot.HanabiGame.Play HanabiBot.HanabiGame.Dialogue
open HanabiBot.Lobby.Sessions HanabiBot.Lobby.Machine HanabiBot.Lobby.Moves HanabiBot.Lobby.Sections
open HanabiBot.Lobby.Failures

/-- The network on which the sockets of `works` work, and the writes to the others fail. -/
def network (works : Conn → Bool) : ℕ → Conn → Bool := fun _ c => works c

/-- The players whose sockets work. -/
def connected (works : Conn → Bool) (players : List Player) : List Player :=
  players.filter fun player => works player.socket

/-- No player whose socket works stands behind one whose socket fails. -/
def LostLast (works : Conn → Bool) (players : List Player) : Prop :=
  players.Pairwise fun a b => works b.socket = true → works a.socket = true

/-- What a broadcast of `Session` is to write: the packet, to every player whose socket works. -/
def told (works : Conn → Bool) (players : List Player) (packet : Packet) : List Write :=
  (connected works players).map fun player => (player.socket, packet)

/-- The same of the `broadcast` of a game. -/
def informed (works : Conn → Bool) (players : List Player) (message : String) : List Sent :=
  (connected works players).map fun player => .frame player.socket ⟨some message, some .continue⟩

section Reach
variable {works : Conn → Bool}

/-! ### One broadcast -/

theorem writesOut_network : ∀ (n : ℕ) (ws : List Write),
    writesOut (network works) n ws = ws.takeWhile fun w => works w.1
  | _, [] => rfl
  | n, w :: ws => by
    rw [writesOut, List.takeWhile_cons, writesOut_network (n + 1) ws]
    rfl

/-- **Whom a broadcast of a session reaches.** -/
theorem broadcast_told (works : Conn → Bool) (session : Session) (message : String) :
    writesOut (network works) 0 (session.broadcast message) =
        told works session.players (.info ⟨some message, none⟩) ↔
      LostLast works session.players := by
  rw [writesOut_network, Session.broadcast, List.takeWhile_map]
  exact map_takeWhile_eq_iff _ _

/-- How far a loop of `sendInfo` gets. -/
theorem forM_sendInfo_network (parse : Bytes → ClientResponse) (message : String) :
    ∀ (players : List Player) (w : World),
      (after (players.forM fun player => sendInfo ⟨parse, network works⟩ player.socket message)
          w).out = w.out ++ (players.takeWhile fun player => works player.socket).map fun player =>
        .frame player.socket ⟨some message, some .continue⟩
  | [], w => (List.append_nil _).symm
  | player :: players, w => by
    rw [List.forM, List.takeWhile_cons]
    by_cases hw : works player.socket = true
    · have hsent : (sendInfo ⟨parse, network works⟩ player.socket message).run w =
          .ok ⟨⟩ (w.sent [.frame player.socket ⟨some message, some .continue⟩]) := by
        rw [sendInfo, run_sendBytes]
        exact if_pos hw
      rw [after_bind_ok hsent, forM_sendInfo_network parse message players, if_pos hw]
      simp [World.sent]
    · have hfailed : (sendInfo ⟨parse, network works⟩ player.socket message).run w =
          .error (.exn (.write player.socket)) { w with writes := w.writes + 1 } := by
        rw [sendInfo, run_sendBytes]
        exact if_neg hw
      rw [after_of_error (bind_error hfailed), if_neg hw]
      exact (List.append_nil _).symm

theorem after_broadcast (works : Conn → Bool) (parse : Bytes → ClientResponse) (message : String)
    (w : World) : (after (broadcast ⟨parse, network works⟩ message) w).out = w.out ++
      (w.game.players.takeWhile fun player => works player.socket).map fun player =>
        .frame player.socket ⟨some message, some .continue⟩ := by
  unfold broadcast
  rw [after_bind_ok (run_readGame w _)]
  exact forM_sendInfo_network parse message _ w

/-- **Whom a broadcast of a game reaches.** -/
theorem broadcast_informed (parse : Bytes → ClientResponse) (message : String) (w : World) :
    (after (broadcast ⟨parse, network works⟩ message) w).out =
        w.out ++ informed works w.game.players message ↔ LostLast works w.game.players := by
  rw [after_broadcast, List.append_cancel_left_eq]
  exact map_takeWhile_eq_iff _ _

/-! ### The handler of a game -/

theorem heard_network {parse : Bytes → ClientResponse} {n : ℕ} {players : List Player} :
    heard ⟨parse, network works⟩ n players = true ↔
      ∀ player ∈ players, works player.socket = true := by
  rw [heard_iff_wentOut, wentOut_all]
  constructor
  · intro h player hp
    obtain ⟨i, hi⟩ := List.mem_iff_getElem?.mp (List.mem_map_of_mem hp)
    exact h i _ hi
  · intro h i c hi
    obtain ⟨player, hp, rfl⟩ := List.mem_map.mp (List.mem_of_getElem? hi)
    exact h player hp

/-- The two messages of the handler of `Game::start`. -/
def closingMessages (works : Conn → Bool) (players : List Player) : List Sent :=
  informed works players "An error occurred in the game loop! likely that someone left :(\n" ++
    informed works players "Ending Game...\n"

/-- **Whom the handler of `Game::start` reaches**: with both messages only if there is no one lost,
or no one left. -/
theorem endGame_informed (parse : Bytes → ClientResponse) (w : World) :
    (after (endGame ⟨parse, network works⟩) w).out =
        w.out ++ closingMessages works w.game.players ↔
      (∀ player ∈ w.game.players, works player.socket = true) ∨
        ∀ player ∈ w.game.players, works player.socket = false := by
  have hfirst := broadcast_heard ⟨parse, network works⟩
    "An error occurred in the game loop! likely that someone left :(\n" w
  have hout := after_broadcast works parse
    "An error occurred in the game loop! likely that someone left :(\n" w
  unfold endGame
  by_cases hall : ∀ player ∈ w.game.players, works player.socket = true
  · rw [if_pos (heard_network.mpr hall)] at hfirst
    obtain ⟨w1, hok, -⟩ := hfirst
    have hgame := (talks_broadcast _ _).of_ok hok
    have hself : connected works w.game.players = w.game.players := List.filter_eq_self.mpr hall
    rw [after_of_ok hok] at hout
    rw [after_bind_ok hok, after_broadcast, hout, hgame, closingMessages, informed, informed, hself,
      List.takeWhile_eq_self_iff.mpr hall, List.append_assoc]
    exact iff_of_true rfl (Or.inl hall)
  · rw [if_neg fun h => hall (heard_network.mp h)] at hfirst
    obtain ⟨e, w1, hfailed⟩ := hfirst
    have hle : (w.game.players.takeWhile fun player => works player.socket).length ≤
        (connected works w.game.players).length := length_takeWhile_le_filter _ _
    have hnone : connected works w.game.players = [] ↔
        ∀ player ∈ w.game.players, works player.socket = false := by
      simp [connected, List.filter_eq_nil_iff]
    rw [after_of_error hfailed] at hout
    rw [after_of_error (bind_error hfailed), hout, List.append_cancel_left_eq,
      or_iff_right hall, ← hnone, closingMessages, informed, informed]
    constructor
    · intro h
      have hlength := congrArg List.length h
      simp only [List.length_map, List.length_append] at hlength
      exact List.eq_nil_of_length_eq_zero (by omega)
    · intro h
      rw [h] at hle ⊢
      rw [List.eq_nil_of_length_eq_zero (Nat.le_zero.mp hle)]
      rfl

end Reach

/-! ### The closing of a session -/

/-- A call of `create_session` whose leader has left, about to close its session. -/
structure Leaving (works : Conn → Bool) where
  sys : Sys
  label : Label
  hold : Hold
  node : Node
  live : sys.crash = none
  pc : sys.pc label.thread = .createInvalidate hold
  found : sys.find hold.id hold.uid = some node
  network : label.writeOk = network works

namespace Leaving
variable {works : Conn → Bool} (c : Leaving works) (p : Parsers)

/-- The closing notice goes to every player whose socket works. -/
def Notified : Prop := ∃ s', step p c.sys c.label = some s' ∧ s'.sent = c.sys.sent ++
  told works c.node.session.players (.info ⟨some "--> This session is now closed..\n", none⟩)

/-- The thread goes on, and whenever it moves next erases the session. -/
def Erases : Prop := ∃ s', step p c.sys c.label = some s' ∧ s'.crash = none ∧
  ∀ run s1 l, (∀ k ∈ run, Label.thread k ≠ c.label.thread) → reach (step p) s' run = some s1 →
    s1.crash = none → l.thread = c.label.thread →
      ∃ s2, step p s1 l = some s2 ∧ s2.crash = none ∧ s2.sessions.lookup c.hold.id = none

theorem act_eq : act p c.sys c.label = some (.write c.node.session.invalidate
    (c.sys.setPc c.label.thread (.createErase c.hold))) := by
  unfold act withNode
  rw [c.pc]
  simp only [c.found]

/-- A thread stays where it is while others move. -/
theorem others_stay {p : Parsers} {t : Conn} : ∀ {run : List Label} {s s' : Sys},
    (∀ k ∈ run, Label.thread k ≠ t) → reach (step p) s run = some s' → s'.pc t = s.pc t
  | [], s, s', _, hr => by cases hr; rfl
  | k :: run, s, s', hrun, hr => by
    obtain ⟨hk, hrest⟩ := List.forall_mem_cons.mp hrun
    unfold reach at hr
    cases hs : step p s k with
    | none => rw [hs] at hr; cases hr
    | some s1 =>
      rw [hs] at hr
      exact (others_stay hrest hr).trans ((step_move hs).2 t hk.symm)

/-- **When the closing notice reaches all that are left.** -/
theorem notified_iff : c.Notified p ↔ LostLast works c.node.session.players := by
  have htold := broadcast_told works c.node.session
    "--> This session is now closed..\n"
  have hwrites : writesOut c.label.writeOk 0 c.node.session.invalidate =
      writesOut (Broadcasts.network works) 0
        (c.node.session.broadcast "--> This session is now closed..\n") := by
    rw [c.network]
    rfl
  have hstep : ∃ s', step p c.sys c.label = some s' ∧
      s'.sent = c.sys.sent ++ writesOut c.label.writeOk 0 c.node.session.invalidate := by
    by_cases hout : AllOut c.label.writeOk c.node.session.invalidate
    · refine ⟨_, step_write c.live (c.act_eq p) hout, ?_⟩
      rw [writesOut_of_allOut hout]
      rfl
    · exact ⟨_, step_escape c.live (c.act_eq p) hout, rfl⟩
  obtain ⟨s', hs, hsent⟩ := hstep
  rw [← htold, ← hwrites, Notified]
  constructor
  · rintro ⟨s'', hs'', h⟩
    cases hs.symm.trans hs''
    exact List.append_cancel_left (hsent.symm.trans h)
  · intro h
    exact ⟨s', hs, by rw [hsent, h]⟩

/-- **When the session is erased.** -/
theorem erases_iff : c.Erases p ↔ ∀ player ∈ c.node.session.players, works player.socket = true := by
  have hall : AllOut c.label.writeOk c.node.session.invalidate ↔
      ∀ player ∈ c.node.session.players, works player.socket = true := by
    have hheard : heard ⟨p.response, Broadcasts.network works⟩ 0 c.node.session.players = true ↔
        ∀ player ∈ c.node.session.players, works player.socket = true := heard_network
    rw [allOut_iff, delivered_iff, c.network, Session.invalidate, fst_broadcast, sockets]
    exact heard_iff_wentOut.symm.trans hheard
  rw [← hall]
  by_cases hout : AllOut c.label.writeOk c.node.session.invalidate
  · refine iff_of_true ⟨_, step_write c.live (c.act_eq p) hout, c.live, ?_⟩ hout
    intro run s1 l hrun hr hlive hl
    have hpc : s1.pc l.thread = .createErase c.hold := by
      rw [hl, others_stay hrun hr]
      exact setPc_self ..
    have hact : act p s1 l = some (.write [] ((s1.erase c.hold.id).setPc l.thread .done)) := by
      unfold act
      rw [hpc]
    refine ⟨_, step_silent hlive hact, erase_crash hlive _, ?_⟩
    have hsessions : ((s1.erase c.hold.id).setPc l.thread .done).sessions =
        s1.sessions.erase c.hold.id := erase_sessions s1 _
    rw [hsessions]
    exact AList.lookup_erase _ _
  · refine iff_of_false ?_ hout
    rintro ⟨s', hs, hcrash, -⟩
    cases (step_escape c.live (c.act_eq p) hout).symm.trans hs
    cases hcrash

end Leaving

/-! ### The end of a game -/

/-- The thread is in `Game::start`. -/
def inGame : Pc → Bool
  | .playing _ | .catching _ => true
  | _ => false

/-- The step erases the session whose game the thread starts. -/
def EndsSession (s s' : Sys) (l : Label) : Prop :=
  ∃ h game, s.pc l.thread = .createEraseStarted h game ∧ s'.sessions.lookup h.id = none

/-- In a step of the run, the thread has erased the session. -/
def HasErased (p : Parsers) (t : Conn) (run : List Label) : Prop :=
  ∃ before l after s s', run = before ++ l :: after ∧ l.thread = t ∧
    reach (step p) init before = some s ∧ step p s l = some s' ∧ EndsSession s s' l

section InGame
variable {p : Parsers} {s s' : Sys} {l : Label} {t : Conn} {pc pc' : Pc}

theorem speaks_inGame {ws : List Write} (h : Speaks s t pc ws pc') : inGame pc' = false := by
  cases h <;> rfl

theorem thinks_inGame (h : Thinks p s l pc pc') : inGame pc' = false := by
  cases h <;> rfl

theorem plays_inGame {game : Game} {call : GameM PUnit} {w : World} (h : Plays p l pc game call w) :
    inGame pc = true := by
  cases h <;> rfl

/-- **A thread comes to its game by the erase.** -/
theorem move_inGame (h : Move p l s s') (hgame : inGame (s'.pc l.thread) = true) :
    inGame (s.pc l.thread) = true ∨ EndsSession s s' l := by
  have hnot {pc : Pc} (hpc : s'.pc l.thread = pc) (hpc' : inGame pc = false) : False := by
    rw [hpc, hpc'] at hgame
    cases hgame
  cases h with
  | speaks ws pc' h hout hk hpc hsent => exact (hnot hpc (speaks_inGame h)).elim
  | thinks pc' h hk hpc hsent => exact (hnot hpc (thinks_inGame h)).elim
  | plays game call w h hk hpc hsent => exact Or.inl (plays_inGame h)
  | cut ws pc' h hout hk hpc hsent => exact Or.inl (hpc ▸ hgame)
  | dies hreads hk hpc hsent => exact Or.inl (hpc ▸ hgame)
  | inserted leader hpc hnew hs hu hj hg hpc' hsent => exact (hnot hpc' rfl).elim
  | collided leader first node hpc hold hfirst hk hpc' hsent => exact (hnot hpc' rfl).elim
  | madeUp id hpc hnew hs hu hj hg hpc' hsent =>
    rcases hpc' with hpc' | ⟨-, hpc'⟩
    · exact Or.inl (hpc' ▸ hgame)
    · exact (hnot hpc' rfl).elim
  | joined name id node hold haccept hpc hs hu hj hg hsent hfirst =>
    rcases hpc with ⟨-, hpc'⟩ | ⟨-, hpc'⟩
    · exact (hnot hpc' rfl).elim
    · exact (hnot hpc' rfl).elim
  | moved h node hpc hold huid hs hu hj hg hpc' hsent => exact (hnot hpc' rfl).elim
  | erased h hpc hs hu hj hg hsent =>
    rcases hpc with ⟨-, hpc'⟩ | ⟨game, hpc, -⟩
    · exact (hnot hpc' rfl).elim
    · exact Or.inr ⟨h, game, hpc, by rw [hs, AList.lookup_erase]⟩

/-- **A session is erased before its game**, in every run. -/
theorem game_erased : ∀ {run : List Label} {s : Sys}, reach (step p) init run = some s →
    inGame (s.pc t) = true → HasErased p t run := by
  intro run
  induction run using List.reverseRecOn with
  | nil =>
    intro s hr hgame
    cases hr
    cases hgame
  | append_singleton run l ih =>
    intro s' hr hgame
    rw [reach_concat] at hr
    obtain ⟨s, hs, hstep⟩ := Option.bind_eq_some_iff.mp hr
    have hbefore (h : inGame (s.pc t) = true) : HasErased p t (run ++ [l]) := by
      obtain ⟨before, k, after, s1, s2, rfl, hrest⟩ := ih hs h
      exact ⟨before, k, after ++ [l], s1, s2, by rw [List.append_assoc, List.cons_append], hrest⟩
    obtain ⟨hmove, hothers⟩ := step_move hstep
    by_cases ht : t = l.thread
    · rw [ht] at hgame
      rcases move_inGame hmove hgame with h | h
      · exact hbefore (ht ▸ h)
      · exact ⟨run, l, [], s, s', rfl, ht.symm, hs, hstep, h⟩
    · rw [hothers t ht] at hgame
      exact hbefore hgame

end InGame

/-- **Whom the broadcasts reach.** A broadcast reaches all players whose sockets work exactly if none
of them stands behind one whose socket fails; both messages of the handler of `Game::start` reach
them exactly if there is none, or none fails, and the session of the game has been erased by then;
the closing notice reaches them as a broadcast does, and the session is erased exactly if no socket
fails. -/
theorem reach_iff (p : Parsers) (works : Conn → Bool) :
    (∀ (session : Session) message, writesOut (network works) 0 (session.broadcast message) =
        told works session.players (.info ⟨some message, none⟩) ↔
          LostLast works session.players) ∧
      (∀ session : Session, writesOut (network works) 0 session.broadcastStatus =
        told works session.players (.info ⟨some session.statusStr, none⟩) ↔
          LostLast works session.players) ∧
      (∀ message w, (after (broadcast ⟨p.response, network works⟩ message) w).out =
        w.out ++ informed works w.game.players message ↔ LostLast works w.game.players) ∧
      (∀ w, (after (endGame ⟨p.response, network works⟩) w).out =
        w.out ++ closingMessages works w.game.players ↔
          (∀ player ∈ w.game.players, works player.socket = true) ∨
            ∀ player ∈ w.game.players, works player.socket = false) ∧
      (∀ run s t, reach (step p) init run = some s → inGame (s.pc t) = true → HasErased p t run) ∧
      ∀ c : Leaving works, (c.Notified p ↔ LostLast works c.node.session.players) ∧
        (c.Erases p ↔ ∀ player ∈ c.node.session.players, works player.socket = true) :=
  ⟨broadcast_told works, fun session => broadcast_told works session session.statusStr,
    broadcast_informed p.response, endGame_informed p.response, fun _ _ _ => game_erased,
    fun c => ⟨c.notified_iff p, c.erases_iff p⟩⟩

/-- A leader opens session `0`, another client joins it, and the leader leaves. -/
def leaderLeft : List Label := entering 0 [16, 1] ++ steps 0 3 ++ entering 1 [16, 2, 24, 0] ++
  steps 1 3 ++ steps 0 1

/-- There is a leader, in a state that is reached, about to close a session of two. -/
theorem exists_leaving (works : Conn → Bool) : ∃ c : Leaving works,
    reach (step plainParsers) init leaderLeft = some c.sys ∧
      c.node.session.players = [⟨"", 0⟩, ⟨"", 1⟩] := by
  have hreach : (reach (step plainParsers) init leaderLeft).map
      (fun s => (s.crash, s.pc 0, s.find 0 0)) = some (none, .createInvalidate ⟨0, 0, 0⟩,
        some ⟨0, some 0, [⟨"", 0⟩, ⟨"", 1⟩], 0, 2⟩) := rfl
  obtain ⟨s, hs, hview⟩ := Option.map_eq_some_iff.mp hreach
  simp only [Prod.mk.injEq] at hview
  obtain ⟨hlive, hpc, hfound⟩ := hview
  exact ⟨⟨s, { Label.plain 0 none with writeOk := network works }, ⟨0, 0, 0⟩, _, hlive, hpc, hfound,
    rfl⟩, hs, rfl⟩

/-- A session with two players. -/
def pair : Session := ⟨[⟨"", 0⟩, ⟨"", 1⟩], 0, 2⟩

/-- The leader is lost: the other player is not told that the session is closed. -/
theorem lost_leader_untold : writesOut (network (· ≠ 0)) 0 pair.invalidate ≠
    told (· ≠ 0) pair.players (.info ⟨some "--> This session is now closed..\n", none⟩) := by
  decide

end HanabiBot.Lobby.Broadcasts
