import HanabiBot.Lobby.Table

/-! # Seats

A connection has a seat where its player is: in the session of a node, or in a game. A thread seats
its own connection and no other, once, by the `emplace` of its session or by an accepted join, and
until then its connection has no seat (`outside`). Whatever else a step does, it seats nobody
(`step_seats`): so no connection has two seats, in any run (`seated_step`). -/

namespace HanabiBot.Lobby.Seats

open HanabiBot.Lib.Tables HanabiBot.Common.Messages HanabiBot.HanabiGame.State
open HanabiBot.Lobby.Sessions HanabiBot.Lobby.Machine HanabiBot.Lobby.Moves HanabiBot.Lobby.Sections

/-- The seats of a node. -/
def seats (node : Node) : List Conn := node.session.players.map Player.socket

/-- The seats in games. -/
def gameSeats (games : List (ℕ × Game)) : List Conn :=
  games.flatMap fun g => g.2.players.map Player.socket

/-- All seats. -/
def allSeats (s : Sys) : List Conn := gather seats s.sessions ++ gameSeats s.games

/-- The thread has not seated its connection, and still can. -/
def outside : Pc → Bool
  | .greet | .readConnection | .createEmplace _ | .joinLock _ _ | .randomLock _ | .randomNew _ =>
    true
  | _ => false

/-- The thread stands before its acknowledgement, and its player has a seat. -/
def Pending (c : Conn) : Pc → Prop
  | .joinAck _ _ | .randomAck _ _ _ => True
  | .createLog h | .createAck h => h.socket = c
  | _ => False

theorem pending_inside {c : Conn} {pc : Pc} (h : Pending c pc) : outside pc = false := by
  cases pc <;> first | rfl | exact h.elim

/-- No connection has two seats, and none has a seat whose thread is outside. -/
structure Seated (s : Sys) : Prop where
  nodup : (allSeats s).Nodup
  inside : ∀ c ∈ allSeats s, outside (s.pc c) = false

section Step
variable {p : Parsers} {s s' : Sys} {l : Label}

theorem speaks_outside {t : Conn} {ws : List Write} {pc pc' : Pc} (h : Speaks s t pc ws pc')
    (hpc : outside pc = false) : outside pc' = false := by
  cases h <;> first | rfl | exact hpc

theorem thinks_outside {pc pc' : Pc} (h : Thinks p s l pc pc') (hpc : outside pc = false) :
    outside pc' = false := by
  cases h <;> first | rfl | exact hpc

/-- A player who joins takes a seat, ... -/
theorem allSeats_joined {id : ℤ} {node : Node} {session : Session} {player : Player}
    (hold : s.sessions.lookup id = some node)
    (hplayers : session.players = node.session.players ++ [player])
    (hs : s'.sessions = s.sessions.insert id { node with session := session })
    (hg : s'.games = s.games) : (allSeats s').Perm (player.socket :: allSeats s) := by
  rw [allSeats, hs, hg, gather_insert, allSeats, ← List.cons_append]
  refine List.Perm.append_right _ ?_
  have hperm : (session.players.map Player.socket).Perm (player.socket :: seats node) := by
    rw [hplayers, List.map_append]
    exact List.perm_append_singleton _ _
  exact (hperm.append_right _).trans ((gather_lookup seats hold).symm.cons player.socket)

/-- ... and players who move into a game keep theirs. -/
theorem allSeats_moved {id : ℤ} {node : Node} {session : Session} {game : Game}
    (hold : s.sessions.lookup id = some node) (hnone : session.players = [])
    (hplayers : game.players = node.session.players)
    (hs : s'.sessions = s.sessions.insert id { node with session := session })
    (hg : s'.games = s.games ++ [(node.uid, game)]) : (allSeats s').Perm (allSeats s) := by
  have hgame : gameSeats (s.games ++ [(node.uid, game)]) = gameSeats s.games ++ seats node := by
    unfold gameSeats
    rw [List.flatMap_append]
    simp [seats, hplayers]
  have hempty : seats { node with session := session } = [] := by
    rw [seats, hnone]
    rfl
  rw [allSeats, hs, hg, gather_insert, allSeats, hgame, hempty]
  open List in
  calc gather seats (s.sessions.erase id) ++ (gameSeats s.games ++ seats node)
      ~ gather seats (s.sessions.erase id) ++ (seats node ++ gameSeats s.games) :=
        List.Perm.append_left _ List.perm_append_comm
    _ ~ seats node ++ gather seats (s.sessions.erase id) ++ gameSeats s.games := by
        rw [← List.append_assoc]
        exact List.Perm.append_right _ List.perm_append_comm
    _ ~ gather seats s.sessions ++ gameSeats s.games :=
        List.Perm.append_right _ (gather_lookup seats hold).symm

/-- **What a step does to the seats.** -/
theorem step_seats (h : Move p l s s') :
    (allSeats s').Subperm (allSeats s) ∧
        (outside (s.pc l.thread) = false → outside (s'.pc l.thread) = false) ∨
      (allSeats s').Perm (l.thread :: allSeats s) ∧ outside (s.pc l.thread) = true ∧
        Pending l.thread (s'.pc l.thread) := by
  have hkept (hk : Kept s s') : (allSeats s').Subperm (allSeats s) := by
    rw [allSeats, hk.sessions, hk.games]
    exact List.Subperm.refl _
  cases h with
  | speaks ws pc' hspeaks hout hk hpc hsent =>
    exact Or.inl ⟨hkept hk, fun ho => hpc ▸ speaks_outside hspeaks ho⟩
  | cut ws pc' hspeaks hout hk hpc hsent => exact Or.inl ⟨hkept hk, fun ho => hpc ▸ ho⟩
  | thinks pc' hthinks hk hpc hsent =>
    exact Or.inl ⟨hkept hk, fun ho => hpc ▸ thinks_outside hthinks ho⟩
  | plays game call w hplays hk hpc hsent =>
    refine Or.inl ⟨hkept hk, fun ho => ?_⟩
    rcases hpc with hpc | hpc | hpc <;> rw [hpc]
    · rfl
    · rfl
    · exact ho
  | dies hreads hk hpc hsent => exact Or.inl ⟨hkept hk, fun ho => hpc ▸ ho⟩
  | inserted leader hpc hnew hs hu hj hg hpc' hsent =>
    refine Or.inr ⟨?_, by rw [hpc]; rfl, by rw [hpc']; exact rfl⟩
    rw [allSeats, hs, hg, gather_insert_new _ hnew]
    exact List.Perm.refl _
  | collided leader first node hpc hold hfirst hk hpc' hsent =>
    exact Or.inl ⟨hkept hk, fun _ => by rw [hpc']; rfl⟩
  | madeUp id hpc hnew hs hu hj hg hpc' hsent =>
    refine Or.inl ⟨?_, fun ho => ?_⟩
    · rw [allSeats, hs, hg, gather_insert_new _ hnew]
      exact List.Subperm.refl _
    · rcases hpc' with hpc' | ⟨-, hpc'⟩ <;> rw [hpc']
      · exact ho
      · rfl
  | joined name id node hold haccept hpc hs hu hj hg hsent =>
    refine Or.inr ⟨?_, ?_⟩
    · exact allSeats_joined hold rfl hs hg
    · rcases hpc with ⟨hpc, hpc'⟩ | ⟨hpc, hpc'⟩ <;> rw [hpc, hpc'] <;> exact ⟨rfl, trivial⟩
  | moved k node hpc hold huid hs hu hj hg hpc' hsent =>
    have hseats := allSeats_moved hold rfl rfl hs hg
    exact Or.inl ⟨hseats.subperm, fun _ => by rw [hpc']; rfl⟩
  | erased k hpc hs hu hj hg hsent =>
    refine Or.inl ⟨?_, fun _ => ?_⟩
    · rw [allSeats, hs, hg]
      exact ((gather_erase_sublist seats).append_right _).subperm
    · rcases hpc with ⟨-, hpc'⟩ | ⟨game, -, hpc'⟩ <;> rw [hpc'] <;> rfl

/-- **No connection gets a second seat.** -/
theorem seated_step (hI : Seated s) (hs : step p s l = some s') : Seated s' := by
  obtain ⟨hmove, hothers⟩ := step_move hs
  rcases step_seats hmove with ⟨hsub, hout⟩ | ⟨hperm, hout, hpending⟩
  · have hnodup : (allSeats s').Nodup := by
      obtain ⟨seats', hperm, hsublist⟩ := hsub
      exact hperm.nodup_iff.mp (hI.nodup.sublist hsublist)
    refine ⟨hnodup, fun c hc => ?_⟩
    have hold := hI.inside c (hsub.subset hc)
    by_cases hthread : c = l.thread
    · subst hthread
      exact hout hold
    · rw [hothers c hthread]
      exact hold
  · have hnew : l.thread ∉ allSeats s := fun hmem => by
      rw [hI.inside _ hmem] at hout
      cases hout
    refine ⟨hperm.nodup_iff.mpr (List.nodup_cons.mpr ⟨hnew, hI.nodup⟩), fun c hc => ?_⟩
    rcases List.mem_cons.mp (hperm.mem_iff.mp hc) with rfl | hold
    · exact pending_inside hpending
    · rw [hothers c (fun hc => hnew (hc ▸ hold))]
      exact hI.inside c hold

theorem seated_init : Seated init :=
  ⟨List.nodup_nil, fun c hc => by cases hc⟩

end Step

end HanabiBot.Lobby.Seats
