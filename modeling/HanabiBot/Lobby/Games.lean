import HanabiBot.Lib.Runs
import HanabiBot.Lobby.Seats

/-! # The games

`create_session` counts the players before it accepts a start request, and moves them into a game
some steps later, without the lock in between. Nobody leaves a session meanwhile, so the game has as
many players as were counted, or more, and `Session::join` keeps them at five (`Ready`).

Only another call that holds the same session can come between: once it has moved the players out,
the session is empty, but its count is not reset. The games are well formed exactly in the runs in
which every session still has its players when they are moved into a game (`wellFormed_iff`). -/

namespace HanabiBot.Lobby.Games

open HanabiBot.Lib.Runs HanabiBot.Common.Messages HanabiBot.HanabiGame.State
open HanabiBot.Lobby.Sessions HanabiBot.Lobby.Machine HanabiBot.Lobby.Moves HanabiBot.Lobby.Sections
open HanabiBot.Lobby.Table HanabiBot.Lobby.Seats

/-- Every game has two to five players, a node gives rise to one game at most, no connection plays
in two games or twice in one, and in every turn of the loop of `Game::start` there is a player and
`numPlayers` is not zero. -/
structure WellFormed (s : Sys) : Prop where
  size : ∀ g ∈ s.games, 2 ≤ g.2.players.length ∧ g.2.players.length ≤ 5
  once : (s.games.map Prod.fst).Nodup
  apart : (s.games.flatMap fun g => g.2.players.map Player.socket).Nodup
  turns : ∀ g ∈ s.games, g.2.numPlayers ≠ 0 ∧ (∃ player, g.2.players[0]? = some player) ∧
    ∀ curPlayer, ∃ player, g.2.players[(curPlayer + 1) % g.2.numPlayers]? = some player

/-- The players that this step moves into a game, if it does, have not been moved already. -/
def Unmoved (s : Sys) (l : Label) : Prop :=
  s.crash = none → ∀ h node, s.pc l.thread = .createMove h → s.find h.id h.uid = some node →
    node.session.players ≠ []

/-- A session with players has as many as it counts, and five at most. -/
def Counted (s : Sys) : Prop :=
  ∀ id node, s.sessions.lookup id = some node → node.session.players = [] ∨
    node.session.numPlayers = node.session.players.length ∧ node.session.players.length ≤ 5

/-- The thread has accepted a start request, and not yet moved the players into a game. -/
def starting : Pc → Option Hold
  | .createAccept h | .createBroadcast h | .createMove h => some h
  | _ => none

/-- The session of an accepted start request has two players or more, unless they have been moved
already. -/
def Ready (s : Sys) : Prop :=
  ∀ t h, starting (s.pc t) = some h → h.uid < s.nextUid ∧ ∀ node,
    s.sessions.lookup h.id = some node → node.uid = h.uid →
      node.session.players = [] ∨ 2 ≤ node.session.players.length

/-- A session that has given rise to a game has no players. -/
def Played (s : Sys) : Prop :=
  ∀ g ∈ s.games, g.1 < s.nextUid ∧ ∀ id node, s.sessions.lookup id = some node →
    node.uid = g.1 → node.session.players = []

/-! ### In every run -/

section Every
variable {p : Parsers} {s s' : Sys} {l : Label}

theorem accepted {isOpen : Conn → Bool} {session : Session} {player : Player}
    (h : (session.join isOpen player).isSome) :
    session.players ≠ [] ∧ session.numPlayers < Session.maxPlayers := by
  obtain ⟨session', hjoin⟩ := Option.isSome_iff_exists.mp h
  obtain ⟨hne, hlt, -⟩ := Session.join_some hjoin
  exact ⟨hne, hlt⟩

theorem counted_step (hI : Counted s) (h : Move p l s s') : Counted s' := by
  intro id node' hl
  cases move_node h hl with
  | new huid hu hsession =>
    rcases hsession with hsession | ⟨name, -, hsession⟩ <;> rw [hsession]
    · exact Or.inl rfl
    · exact Or.inr ⟨rfl, by simp [Session.ofLeader]⟩
  | same node hold huid hsession =>
    rw [hsession]
    exact hI id node hold
  | grown name node hold huid haccept hsession =>
    obtain ⟨hne, hlt⟩ := accepted haccept
    have hmax : Session.maxPlayers = 5 := rfl
    rw [hsession]
    rcases hI id node hold with hnil | ⟨hcount, hle⟩
    · exact absurd hnil hne
    · simp only [List.length_append, List.length_singleton]
      exact Or.inr ⟨by omega, by omega⟩
  | emptied node hold huid hg hplayers => exact Or.inl hplayers

/-- How a thread comes to have accepted a start request. -/
theorem move_starting {h : Hold} (hmove : Move p l s s')
    (hs : starting (s'.pc l.thread) = some h) : starting (s.pc l.thread) = some h ∨
      Kept s s' ∧ ∃ node, s.sessions.lookup h.id = some node ∧ node.uid = h.uid ∧
        node.session.numPlayers ≠ 1 := by
  cases hmove with
  | speaks ws pc' hspeaks hout hk hpc hsent =>
    rw [hpc] at hs
    generalize s.pc l.thread = pc at hspeaks
    cases hspeaks with
    | createAccept k m => exact Or.inl hs
    | createBroadcast k node hl hu => exact Or.inl hs
    | _ => cases hs
  | cut ws pc' hspeaks hout hk hpc hsent => exact Or.inl (hpc ▸ hs)
  | thinks pc' hthinks hk hpc hsent =>
    rw [hpc] at hs
    generalize s.pc l.thread = pc at hthinks
    cases hthinks with
    | starts k node hl hu hn =>
      cases hs
      exact Or.inr ⟨hk, node, hl, hu, hn⟩
    | _ => cases hs
  | plays game call w hplays hk hpc hsent =>
    rcases hpc with hpc | hpc | hpc <;> rw [hpc] at hs
    · cases hs
    · cases hs
    · exact Or.inl hs
  | dies hreads hk hpc hsent => exact Or.inl (hpc ▸ hs)
  | inserted leader hpc hnew hsess hu hj hg hpc' hsent => rw [hpc'] at hs; cases hs
  | collided leader first node hpc hold hfirst hk hpc' hsent => rw [hpc'] at hs; cases hs
  | madeUp id hpc hnew hsess hu hj hg hpc' hsent =>
    rcases hpc' with hpc' | ⟨-, hpc'⟩ <;> rw [hpc'] at hs
    · exact Or.inl hs
    · cases hs
  | joined name id node hold haccept hpc hsess hu hj hg hsent =>
    rcases hpc with ⟨-, hpc'⟩ | ⟨-, hpc'⟩ <;> rw [hpc'] at hs <;> cases hs
  | moved k node hpc hold huid hsess hu hj hg hpc' hsent => rw [hpc'] at hs; cases hs
  | erased k hpc hsess hu hj hg hsent =>
    rcases hpc with ⟨-, hpc'⟩ | ⟨game, -, hpc'⟩ <;> rw [hpc'] at hs <;> cases hs

/-- The players of an accepted start request do not leave. -/
theorem ready_kept {h : Hold} (hmove : Move p l s s') (hlt : h.uid < s.nextUid)
    (hI : ∀ node, s.sessions.lookup h.id = some node → node.uid = h.uid →
      node.session.players = [] ∨ 2 ≤ node.session.players.length) {node' : Node}
    (hl : s'.sessions.lookup h.id = some node') (huid' : node'.uid = h.uid) :
    node'.session.players = [] ∨ 2 ≤ node'.session.players.length := by
  cases move_node hmove hl with
  | new huid hu hsession => omega
  | same node hold huid hsession =>
    rw [hsession]
    exact hI node hold (by omega)
  | grown name node hold huid haccept hsession =>
    rw [hsession]
    rcases hI node hold (by omega) with hnil | hle
    · exact absurd hnil (accepted haccept).1
    · simp only [List.length_append, List.length_singleton]
      omega
  | emptied node hold huid hg hplayers => exact Or.inl hplayers

theorem ready_step (hb : UidsBelow s) (hc : Counted s) (hI : Ready s)
    (hs : step p s l = some s') : Ready s' := by
  obtain ⟨hmove, hothers⟩ := step_move hs
  have hle := move_nextUid hmove
  intro t h ht
  have hold : starting (s.pc t) = some h ∨ Kept s s' ∧ ∃ node,
      s.sessions.lookup h.id = some node ∧ node.uid = h.uid ∧ node.session.numPlayers ≠ 1 := by
    by_cases hthread : t = l.thread
    · subst hthread
      exact move_starting hmove ht
    · exact Or.inl (by rw [← hothers t hthread, ht])
  rcases hold with hold | ⟨hk, node, hl, huid, hn⟩
  · obtain ⟨hlt, hready⟩ := hI t h hold
    exact ⟨by omega, fun node' => ready_kept hmove hlt hready⟩
  · have := hb h.id node hl
    refine ⟨by omega, fun node' hl' _ => ?_⟩
    rw [hk.sessions, hl] at hl'
    cases hl'
    rcases hc h.id node hl with hnil | ⟨hcount, -⟩
    · exact Or.inl hnil
    · by_cases hnil : node.session.players = []
      · exact Or.inl hnil
      · have hpos := List.length_pos_iff.mpr hnil
        exact Or.inr (by omega)

end Every

/-! ### In the runs of the condition -/

/-- The invariant of the runs in which no session is moved twice. -/
structure Orderly (s : Sys) : Prop where
  below : UidsBelow s
  uidsApart : UidsApart s
  seated : Seated s
  counted : Counted s
  ready : Ready s
  played : Played s
  size : ∀ g ∈ s.games, 2 ≤ g.2.players.length ∧ g.2.players.length ≤ 5
  once : (s.games.map Prod.fst).Nodup

section Condition
variable {p : Parsers} {s s' : Sys} {l : Label}

theorem find_of_lookup {id : ℤ} {uid : ℕ} {node : Node} (hl : s.sessions.lookup id = some node)
    (hu : node.uid = uid) : s.find id uid = some node := by
  unfold Sys.find
  rw [hl]
  exact if_pos hu

/-- A session that has given rise to a game stays without players. -/
theorem played_kept (hI : Played s) (h : Move p l s s') {g : ℕ × Game} (hg : g ∈ s.games) :
    g.1 < s'.nextUid ∧ ∀ id node', s'.sessions.lookup id = some node' → node'.uid = g.1 →
      node'.session.players = [] := by
  have hle := move_nextUid h
  obtain ⟨hlt, hempty⟩ := hI g hg
  refine ⟨by omega, fun id node' hl huid' => ?_⟩
  cases move_node h hl with
  | new huid hu hsession => omega
  | same node hold huid hsession =>
    rw [hsession]
    exact hempty id node hold (by omega)
  | grown name node hold huid haccept hsession =>
    exact absurd (hempty id node hold (by omega)) (accepted haccept).1
  | emptied node hold huid hg hplayers => exact hplayers

/-- **A step that moves no session a second time keeps the games well formed.** -/
theorem orderly_step (hI : Orderly s) (hC : Unmoved s l) (hs : step p s l = some s') :
    Orderly s' := by
  have hmove := (step_move hs).1
  have hbelow := uidsBelow_step hI.below hs
  have hapart := uidsApart_step hI.below hI.uidsApart hs
  have hseated := seated_step hI.seated hs
  have hcounted := counted_step hI.counted hmove
  have hready := ready_step hI.below hI.counted hI.ready hs
  rcases move_games hmove with hg | ⟨k, node, sessionId, hpc, hl, huid, hl', hg⟩
  · refine ⟨hbelow, hapart, hseated, hcounted, hready, fun g hmem => ?_, ?_, ?_⟩
    · exact played_kept hI.played hmove (hg ▸ hmem)
    · rw [hg]
      exact hI.size
    · rw [hg]
      exact hI.once
  · have hne := hC (step_live hs) k node hpc (find_of_lookup hl huid)
    have hnew : node.uid ∉ s.games.map Prod.fst := by
      intro hmem
      obtain ⟨g, hgame, hfst⟩ := List.mem_map.mp hmem
      exact hne ((hI.played g hgame).2 k.id node hl hfst.symm)
    have hsize : 2 ≤ node.session.players.length ∧ node.session.players.length ≤ 5 := by
      have hstarting : starting (s.pc l.thread) = some k := by
        rw [hpc]
        rfl
      have hmany := ((hI.ready l.thread k hstarting).2 node hl huid).resolve_left hne
      have hfew := (hI.counted k.id node hl).resolve_left hne
      exact ⟨hmany, hfew.2⟩
    refine ⟨hbelow, hapart, hseated, hcounted, hready, fun g hmem => ?_, fun g hmem => ?_, ?_⟩
    · rw [hg] at hmem
      rcases List.mem_append.mp hmem with hmem | hmem
      · exact played_kept hI.played hmove hmem
      · rw [List.mem_singleton.mp hmem]
        have hlt := hbelow k.id _ hl'
        refine ⟨hlt, fun id node' hnode' huid' => ?_⟩
        have hid : id = k.id := hapart _ _ _ _ hnode' hl' huid'
        subst hid
        cases hnode'.symm.trans hl'
        rfl
    · rw [hg] at hmem
      rcases List.mem_append.mp hmem with hmem | hmem
      · exact hI.size g hmem
      · rw [List.mem_singleton.mp hmem]
        exact hsize
    · rw [hg, List.map_append, List.nodup_append]
      refine ⟨hI.once, List.nodup_singleton _, fun uid huid' uid' hmem => ?_⟩
      rw [List.map_singleton, List.mem_singleton] at hmem
      intro heq
      have hfst : uid = node.uid := heq.trans hmem
      exact hnew (hfst ▸ huid')

theorem Orderly.wellFormed (h : Orderly s) : WellFormed s where
  size := h.size
  once := h.once
  apart := (List.nodup_append.mp h.seated.nodup).2.1
  turns g hg := by
    have hsize := (h.size g hg).1
    have hnum : g.2.numPlayers = g.2.players.length := rfl
    have hplayer (i : ℕ) (hi : i < g.2.players.length) : ∃ player, g.2.players[i]? = some player :=
      ⟨_, List.getElem?_eq_getElem hi⟩
    refine ⟨by omega, hplayer 0 (by omega), fun curPlayer => hplayer _ ?_⟩
    exact Nat.mod_lt _ (by omega)

/-- **A session that is moved a second time makes a game without players.** -/
theorem moved_again (hC : ¬ Unmoved s l) : ∃ s', step p s l = some s' ∧ ¬ WellFormed s' := by
  unfold Unmoved at hC
  push Not at hC
  obtain ⟨hlive, h, node, hpc, hfind, hnil⟩ := hC
  have hact : act p s l = some (createMove s l h) := by simp only [act, hpc]
  unfold createMove withNode at hact
  rw [hfind] at hact
  refine ⟨_, step_silent hlive hact, fun hwell => ?_⟩
  have hsize := (hwell.size _ (List.mem_append_right _ List.mem_cons_self)).1
  rw [hnil] at hsize
  exact Nat.not_succ_le_zero 1 hsize

end Condition

theorem orderly_init : Orderly init where
  below := uidsBelow_init
  uidsApart := uidsApart_init
  seated := seated_init
  counted id node hl := by cases hl
  ready t h ht := by cases ht
  played g hg := by cases hg
  size g hg := by cases hg
  once := List.nodup_nil

/-- **When every game is well formed**: exactly in the runs in which no session's players are moved
into a game a second time. -/
theorem wellFormed_iff (p : Parsers) (run : List Label) :
    States (step p) WellFormed init run ↔ Along (step p) Unmoved init run :=
  states_iff (I := Orderly) (fun _ _ _ hI hC hs => orderly_step hI hC hs)
    (fun _ hI => hI.wellFormed) (fun _ _ _ hC => moved_again hC) orderly_init run

/-- Two leaders create sessions `0` and `1`, and the first leaves. The call for a third leader then
holds session `1` too. Another client joins it, and its leader asks twice for the start: each of the
two calls reads one of the requests. -/
def startedTwice : List Label := List.flatten
  [entering 0 [16, 1], steps 0 1, entering 1 [16, 1], steps 1 1, steps 0 5,
    entering 2 [16, 1], steps 2 3, steps 1 2, entering 3 [16, 2, 24, 1], steps 3 1,
    [.plain 1 (some [])], steps 1 3, [.plain 2 (some [])], steps 2 3]

/-- The second game has no players. -/
theorem second_game_empty : ¬ States (step plainParsers) WellFormed init startedTwice := by
  intro h
  have hgames : (last (step plainParsers) init startedTwice).games.map
      (fun g => g.2.players.length) = [2, 0] := by decide +kernel
  obtain ⟨g, hg, hnone⟩ : ∃ g ∈ (last (step plainParsers) init startedTwice).games,
      g.2.players.length = 0 := by
    rw [← List.mem_map, hgames]
    decide
  have hsize := (h.last.size g hg).1
  omega

end HanabiBot.Lobby.Games
