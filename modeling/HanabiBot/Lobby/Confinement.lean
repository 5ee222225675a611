import HanabiBot.Lobby.Acks
import HanabiBot.Lobby.Freshness

/-! # News stay at the table

Two connections are `Together` if they have their seats in one session, or in one game. What a thread
writes to another connection is meant for those it sits together with.

A thread that holds a session of its own, or a reference into the table, finds those. The second
section of `join_session` has only the id, under which another session may be by then: that of a
leader who came when the first had been erased for its game. The news of the join are then told to
strangers. While all ids are fresh this is the only way for a frame to get to one (`confined_iff`). -/

namespace HanabiBot.Lobby.Confinement

open HanabiBot.Lib.Runs HanabiBot.Lib.Tables HanabiBot.Common.Messages HanabiBot.HanabiGame.State
open HanabiBot.Lobby.Sessions HanabiBot.Lobby.Machine HanabiBot.Lobby.Moves HanabiBot.Lobby.Sections
open HanabiBot.Lobby.Table HanabiBot.Lobby.Seats HanabiBot.Lobby.Freshness HanabiBot.Lobby.Failures
open HanabiBot.Lobby.Writes HanabiBot.Lobby.Views HanabiBot.Lobby.Acks

/-- The two have their seats in one session, or in one game. -/
def Together (s : Sys) (c c' : Conn) : Prop :=
  (∃ id node, s.sessions.lookup id = some node ∧ c ∈ seats node ∧ c' ∈ seats node) ∨
    ∃ g ∈ s.games, c ∈ sockets g.2.players ∧ c' ∈ sockets g.2.players

/-- A frame of this step goes to the thread's own connection, or to one it sits together with. -/
def Confined (p : Parsers) (s : Sys) (l : Label) : Prop :=
  ∀ s', step p s l = some s' → ∀ ws, s'.sent = s.sent ++ ws → ∀ w ∈ ws,
    w.1 = l.thread ∨ Together s l.thread w.1

/-- A joiner finds the session it has joined under the id, or its news get to nobody. -/
def FindsOwn (s : Sys) (l : Label) : Prop :=
  s.crash = none → ∀ player id node, s.pc l.thread = .joinBroadcast player id →
    s.sessions.lookup id = some node → l.thread ∈ seats node ∨ reached s l = []

/-- The node a thread of `join_random_session` has a reference to. -/
def reference : Pc → Option (ℤ × ℕ)
  | .randomAck _ id uid | .randomBroadcast _ id uid => some (id, uid)
  | _ => none

/-- The invariant of the runs in which every id is fresh. -/
structure Orderly (s : Sys) : Prop where
  owned : Owned s
  seated : Seated s
  below : UidsBelow s
  references : ∀ t id uid, reference (s.pc t) = some (id, uid) → uid < s.nextUid ∧
    ∀ node, s.sessions.lookup id = some node → node.uid = uid →
      t ∈ seats node ∨ node.session.players = []
  games : ∀ t game, gameOf (s.pc t) = some game →
    t ∈ sockets game.players ∧ ∃ g ∈ s.games, g.2.players = game.players

section Step
variable {p : Parsers} {s s' : Sys} {l : Label} {c : Conn}

/-- How a thread comes by a reference. -/
theorem move_reference {id : ℤ} {uid : ℕ} (h : Move p l s s')
    (hr : reference (s'.pc l.thread) = some (id, uid)) :
    reference (s.pc l.thread) = some (id, uid) ∨ ∃ name node, s.sessions.lookup id = some node ∧
      node.uid = uid ∧ s'.nextUid = s.nextUid ∧
        s'.sessions = s.sessions.insert id { node with session :=
          { node.session with
            players := node.session.players ++ [⟨name, l.thread⟩]
            numPlayers := node.session.numPlayers + 1 } } := by
  cases h with
  | speaks ws pc' hspeaks hout hk hpc hsent =>
    rw [hpc] at hr
    generalize s.pc l.thread = pc at hspeaks
    cases hspeaks with
    | randomAck player id uid m hm => exact Or.inl hr
    | _ => cases hr
  | cut ws pc' hspeaks hout hk hpc hsent => exact Or.inl (hpc ▸ hr)
  | thinks pc' hthinks hk hpc hsent =>
    rw [hpc] at hr
    generalize s.pc l.thread = pc at hthinks
    cases hthinks <;> cases hr
  | plays game call w hplays hk hpc hsent =>
    rcases hpc with hpc | hpc | hpc <;> rw [hpc] at hr
    · cases hr
    · cases hr
    · exact Or.inl hr
  | dies hreads hk hpc hsent => exact Or.inl (hpc ▸ hr)
  | inserted leader hpc hnew hs hu hj hg hpc' hsent => rw [hpc'] at hr; cases hr
  | collided leader first node hpc hold hfirst hk hpc' hsent => rw [hpc'] at hr; cases hr
  | madeUp id' hpc hnew hs hu hj hg hpc' hsent =>
    rcases hpc' with hpc' | ⟨-, hpc'⟩ <;> rw [hpc'] at hr
    · exact Or.inl hr
    · cases hr
  | joined name id' node hold haccept hpc hs hu hj hg hsent =>
    rcases hpc with ⟨-, hpc'⟩ | ⟨-, hpc'⟩ <;> rw [hpc'] at hr <;> cases hr
    exact Or.inr ⟨name, node, hold, rfl, hu, hs⟩
  | moved k node hpc hold huid hs hu hj hg hpc' hsent => rw [hpc'] at hr; cases hr
  | erased k hpc hs hu hj hg hsent =>
    rcases hpc with ⟨-, hpc'⟩ | ⟨game, -, hpc'⟩ <;> rw [hpc'] at hr <;> cases hr

/-- A player stays in its session until the session is emptied for a game. -/
theorem reference_kept (h : Move p l s s') {t : Conn} {id : ℤ} {uid : ℕ} (hlt : uid < s.nextUid)
    (hI : ∀ node, s.sessions.lookup id = some node → node.uid = uid →
      t ∈ seats node ∨ node.session.players = []) {node' : Node}
    (hl : s'.sessions.lookup id = some node') (huid' : node'.uid = uid) :
    t ∈ seats node' ∨ node'.session.players = [] := by
  unfold seats at *
  cases move_node h hl with
  | new huid hu hsession => omega
  | same node hold huid hsession =>
    rw [hsession]
    exact hI node hold (by omega)
  | grown name node hold huid haccept hsession =>
    rw [hsession, List.map_append]
    rcases hI node hold (by omega) with hseat | hnil
    · exact Or.inl (List.mem_append_left _ hseat)
    · obtain ⟨session, hjoin⟩ := Option.isSome_iff_exists.mp haccept
      exact absurd hnil (Session.join_some hjoin).1
  | emptied node hold huid hg hplayers => exact Or.inr hplayers

theorem references_step (hI : Orderly s) (hs : step p s l = some s') {t : Conn} {id : ℤ} {uid : ℕ}
    (hr : reference (s'.pc t) = some (id, uid)) : uid < s'.nextUid ∧
      ∀ node, s'.sessions.lookup id = some node → node.uid = uid →
        t ∈ seats node ∨ node.session.players = [] := by
  obtain ⟨hmove, hothers⟩ := step_move hs
  have hle := move_nextUid hmove
  have hkept (hold : reference (s.pc t) = some (id, uid)) : uid < s'.nextUid ∧
      ∀ node, s'.sessions.lookup id = some node → node.uid = uid →
        t ∈ seats node ∨ node.session.players = [] := by
    obtain ⟨hlt, hseat⟩ := hI.references t id uid hold
    exact ⟨by omega, fun node' => reference_kept hmove hlt hseat⟩
  by_cases ht : t = l.thread
  · subst ht
    rcases move_reference hmove hr with hold | ⟨name, node, hold, rfl, hu, hsess⟩
    · exact hkept hold
    · refine ⟨hu ▸ hI.below id node hold, fun node' hl _ => Or.inl ?_⟩
      rw [hsess, AList.lookup_insert] at hl
      cases hl
      exact List.mem_map_of_mem (List.mem_append_right _ List.mem_cons_self)
  · exact hkept (by rw [← hothers t ht, hr])

theorem games_step (hI : Orderly s) (hs : step p s l = some s') {t : Conn} {game : Game}
    (hg : gameOf (s'.pc t) = some game) :
    t ∈ sockets game.players ∧ ∃ g ∈ s'.games, g.2.players = game.players := by
  obtain ⟨hmove, hothers⟩ := step_move hs
  have hgames := (move_games_initial hmove).subset
  by_cases ht : t = l.thread
  · subst ht
    rcases move_gameOf hmove hg with ⟨old, hold, hplayers⟩ | ⟨k, node, hpc, hl, hplayers, hmem⟩
    · obtain ⟨hseat, g, hmem, hsame⟩ := hI.games _ old hold
      exact ⟨hplayers ▸ hseat, g, hgames hmem, hsame.trans hplayers.symm⟩
    · refine ⟨?_, _, hmem, rfl⟩
      obtain ⟨node', hl', -, -, hfirst⟩ := (hI.owned.own _ k false (by rw [hpc]; rfl)).node
      cases hl.symm.trans hl'
      rcases hfirst with hmoved | ⟨name, rest, hcons⟩
      · cases hmoved
      · rw [hplayers, hcons]
        exact List.mem_cons_self
  · obtain ⟨hseat, g, hmem, hsame⟩ := hI.games t game (by rw [← hothers t ht, hg])
    exact ⟨hseat, g, hgames hmem, hsame⟩

theorem orderly_step (hI : Orderly s) (hC : Fresh s l) (hs : step p s l = some s') : Orderly s' where
  owned := owned_step hI.owned hC hs
  seated := seated_step hI.seated hs
  below := uidsBelow_step hI.below hs
  references _ _ _ hr := references_step hI hs hr
  games _ _ hg := games_step hI hs hg

theorem orderly_init : Orderly init where
  owned := owned_init
  seated := seated_init
  below := uidsBelow_init
  references := nofun
  games := nofun

/-! ### The audience -/

/-- Those a player writes to through its node. -/
theorem together_node {id : ℤ} {node : Node} (hl : s.sessions.lookup id = some node)
    (ht : l.thread ∈ seats node ∨ node.session.players = [])
    (hc : c ∈ sockets node.session.players) : Together s l.thread c := by
  rcases ht with ht | hnil
  · exact Or.inl ⟨id, node, hl, ht, hc⟩
  · rw [hnil] at hc
    cases hc

theorem mem_ifThere {t : Conn} {cs : List Conn} (h : c ∈ ifThere s t cs) : c ∈ cs := by
  unfold ifThere at h
  split_ifs at h
  · cases h
  · exact h

/-- **The audience of a thread sits together with it.** -/
theorem audience_together (hI : Orderly s) (hlive : s.crash = none) (hC : FindsOwn s l)
    (hc : c ∈ reached s l) : Together s l.thread c := by
  have hgame {game : Game} (hg : gameOf (s.pc l.thread) = some game)
      (hc : c ∈ sockets game.players) : Together s l.thread c := by
    obtain ⟨hseat, g, hmem, hplayers⟩ := hI.games _ game hg
    exact Or.inr ⟨g, hmem, hplayers ▸ hseat, hplayers ▸ hc⟩
  have hheld {k : Hold} (hh : (s.pc l.thread).hold = some (k, false))
      (hc : c ∈ ifFound s k.id k.uid fun session => sockets session.players) :
      Together s l.thread c := by
    obtain ⟨node, hl, huid, -, hfirst⟩ := (hI.owned.own _ k false hh).node
    rcases hfirst with hmoved | ⟨name, rest, hcons⟩
    · cases hmoved
    · have hfind : s.find k.id k.uid = some node := by rw [Sys.find, hl]; exact if_pos huid
      rw [ifFound, hfind] at hc
      refine together_node hl (Or.inl ?_) hc
      rw [seats, hcons]
      exact List.mem_cons_self
  have haudience := reached_subset hc
  unfold audience unguarded at haudience
  cases hpc : s.pc l.thread with
  | playing game =>
    rw [hpc] at haudience
    exact hgame (by rw [hpc]; rfl) haudience
  | catching game =>
    rw [hpc] at haudience
    exact hgame (by rw [hpc]; rfl) (or_self_iff.mp (List.mem_append.mp haudience))
  | createInvalidate k | createBroadcast k =>
    rw [hpc] at haudience
    exact hheld (by rw [hpc]; rfl) haudience
  | joinBroadcast player id =>
    rw [hpc] at haudience
    simp only [addresses, if_true] at haudience
    split at haudience
    · next node hl =>
      have hmem := or_self_iff.mp (List.mem_append.mp (mem_ifThere haudience))
      rcases hC hlive player id node hpc hl with hseat | hnobody
      · exact together_node hl (Or.inl hseat) hmem
      · rw [hnobody] at hc
        cases hc
    · cases haudience
  | randomBroadcast player id uid =>
    rw [hpc] at haudience
    simp only [addresses, if_true, ifFound] at haudience
    split at haudience
    · next node hf =>
      obtain ⟨hl, huid⟩ := find_some hf
      have hmem := or_self_iff.mp (List.mem_append.mp (mem_ifThere haudience))
      exact together_node hl ((hI.references _ id uid (by rw [hpc]; rfl)).2 node hl huid) hmem
    · cases haudience
  | _ => rw [hpc] at haudience; cases haudience

theorem confined_of_findsOwn (hI : Orderly s) (hC : FindsOwn s l) : Confined p s l := by
  intro s' hs ws hws w hw
  have hlive := step_live hs
  cases step_writes hs with
  | silent hsent =>
    rw [hsent, List.self_eq_append_right] at hws
    rw [hws] at hw
    cases hw
  | own packet how hsent =>
    rw [hsent, List.append_cancel_left_eq] at hws
    subst hws
    cases List.mem_singleton.mp hw
    exact Or.inl rfl
  | leader k m hh hsent =>
    rw [hsent, List.append_cancel_left_eq] at hws
    subst hws
    cases List.mem_singleton.mp hw
    exact Or.inl (hI.owned.own _ k false hh).socket
  | news ws' hnews hto hsent =>
    rw [hsent, List.append_cancel_left_eq] at hws
    subst hws
    exact Or.inr (audience_together hI hlive hC ((hto w.1).mp (List.mem_map_of_mem hw)))

/-- Who sits at another table is a stranger. -/
theorem not_together (hI : Orderly s) {id : ℤ} {node : Node} (hl : s.sessions.lookup id = some node)
    (hc : c ∈ seats node) {t : Conn} (ht : t ∉ seats node) : ¬ Together s t c := by
  have hnodup := List.nodup_append'.mp hI.seated.nodup
  rintro (⟨id', node', hl', ht', hc'⟩ | ⟨g, hg, -, hc'⟩)
  · have hid := key_unique seats hnodup.1 hl hl' hc hc'
    subst hid
    cases hl.symm.trans hl'
    exact ht ht'
  · exact hnodup.2.2 ((mem_gather seats).mpr ⟨id, node, hl, hc⟩) (List.mem_flatMap.mpr ⟨g, hg, hc'⟩)

theorem findsOwn_of_confined (hI : Orderly s) (hC : Confined p s l) : FindsOwn s l := by
  intro hlive player id node hpc hl
  by_contra hnot
  obtain ⟨hseat, hsomebody⟩ := not_or.mp hnot
  obtain ⟨c, hc⟩ := List.exists_mem_of_ne_nil _ hsomebody
  have haudience := reached_subset hc
  unfold audience unguarded at haudience
  rw [hpc] at haudience
  simp only [addresses, if_true, hl] at haudience
  have hmem : c ∈ seats node := or_self_iff.mp (List.mem_append.mp (mem_ifThere haudience))
  obtain ⟨s', ws, hs, hsent, -, hto⟩ := step_tells (p := p) hlive (by rw [hpc]; rfl)
  obtain ⟨w, hw, hwc⟩ := List.mem_map.mp ((hto c).mpr hc)
  rcases hC s' hs ws hsent w hw with hself | htogether
  · exact hseat (hself ▸ hwc ▸ hmem)
  · exact not_together hI hl hmem hseat (hwc ▸ htogether)

end Step

/-- **When frames stay at the table.** In the runs in which every id is fresh, each frame goes to the
connection of the thread that writes it or to one that it sits together with, exactly if every joiner
of `join_session` finds the session it has joined under its id. -/
theorem confined_iff (p : Parsers) (run : List Label) :
    Along (step p) (fun s l => Fresh s l ∧ Confined p s l) init run ↔
      Along (step p) (fun s l => Fresh s l ∧ FindsOwn s l) init run :=
  along_iff (fun _ _ _ hI hC hs => orderly_step hI hC.1 hs)
    (fun _ _ hI => and_congr_right fun _ =>
      ⟨findsOwn_of_confined hI, confined_of_findsOwn hI⟩) orderly_init run

/-- A leader creates session `0`, and another client joins it. Before that client tells the others,
the leader starts the game, and a second leader creates session `0`. -/
def sameId : List Label := List.flatten
  [entering 0 [16, 1], steps 0 3, entering 1 [16, 2, 24, 0], steps 1 1, [.plain 0 (some [])],
    steps 0 4, entering 2 [16, 1], steps 2 3, steps 1 2]

/-- The second leader is told of the join. -/
example : (reach (step plainParsers) init sameId).map (fun s => (got s.sent 2).drop 2) =
    some [.info ⟨some " has joined the session!", none⟩,
      .info ⟨some "Session 0 has 1 players:\n\n", none⟩] := by
  decide +kernel

end HanabiBot.Lobby.Confinement
