import HanabiBot.Lib.Runs
import HanabiBot.Lobby.Table

/-! # The closing of a session

`create_session` closes a session in two steps: the closing notice to its players, or the move of
them into a game, and then the erase. Between the two the session is still in the table.

After the move it has no players, and `Session::join` refuses. After the closing notice it has, and
the leader's socket, which `Session::join` asks, is still open on the server's side: a player who is
accepted then is erased with the session, and is never told (`late_joiner_dropped`). If no join is
accepted between the two steps, no accepted player is dropped (`none_dropped`). -/

namespace HanabiBot.Lobby.Closing

open HanabiBot.Lib.Runs HanabiBot.Common.Messages HanabiBot.HanabiGame.State
open HanabiBot.Lobby.Sessions HanabiBot.Lobby.Machine HanabiBot.Lobby.Moves HanabiBot.Lobby.Sections
open HanabiBot.Lobby.Table

/-- The frame of `Session::invalidate`. -/
def notice : Packet := .info ⟨some "--> This session is now closed..\n", none⟩

/-- A player of a session plays in the game made from it, or has been sent the closing notice. -/
def Told (s : Sys) (uid : ℕ) (player : Player) : Prop :=
  (∃ game, (uid, game) ∈ s.games ∧ player ∈ game.players) ∨ (player.socket, notice) ∈ s.sent

/-- The session is in the table. -/
def Open (s : Sys) (uid : ℕ) : Prop := ∃ id node, s.sessions.lookup id = some node ∧ node.uid = uid

/-- Every player whose join was accepted is in a session that is still in the table, or plays in the
game made from it, or has been sent its closing notice. -/
def NoneDropped (s : Sys) : Prop :=
  ∀ uid player, (uid, player) ∈ s.joined → Open s uid ∨ Told s uid player

/-- The id of the session that accepts a player in this step. -/
def accepts (s : Sys) (l : Label) : Option ℤ :=
  match s.pc l.thread with
  | .joinLock joiner sessionId =>
    match s.sessions.lookup sessionId with
    | some node =>
      if (node.session.join l.isOpen (l.player joiner)).isSome then some sessionId else none
    | none => none
  | .randomLock joiner =>
    if l.order.Perm s.sessions.keys then
      (firstJoin s l.isOpen (l.player joiner) l.order).map Prod.fst
    else none
  | _ => none

/-- The thread erases its session next: it has sent the closing notice, or moved the players into a
game. -/
def closing : Pc → Option Hold
  | .createErase h | .createEraseStarted h _ => some h
  | _ => none

/-- No session accepts a player between its closing notice, or the move of its players into a game,
and its erase. -/
def InTime (s : Sys) (l : Label) : Prop :=
  s.crash = none → ∀ id, accepts s l = some id → ∀ t h, closing (s.pc t) = some h → h.id ≠ id

/-- The invariant of the runs in which every join is in time. -/
structure Lawful (s : Sys) : Prop where
  below : UidsBelow s
  uidsApart : UidsApart s
  joinedBelow : ∀ uid player, (uid, player) ∈ s.joined → uid < s.nextUid
  /-- an accepted player is in its session until it is told -/
  there : ∀ uid player, (uid, player) ∈ s.joined → ∀ id node, s.sessions.lookup id = some node →
    node.uid = uid → player ∈ node.session.players ∨ Told s uid player
  /-- the players of a session that is about to be erased have been told -/
  closed : ∀ t h, closing (s.pc t) = some h → ∀ node, s.sessions.lookup h.id = some node →
    ∀ player, (node.uid, player) ∈ s.joined → Told s node.uid player
  noneDropped : NoneDropped s

section Step
variable {p : Parsers} {s s' : Sys} {l : Label} {uid : ℕ} {player : Player} {id : ℤ}
  {node node' : Node}

theorem Told.mono (h : Move p l s s') (ht : Told s uid player) : Told s' uid player := by
  rcases ht with ⟨game, hg, hmem⟩ | hsent
  · exact Or.inl ⟨game, (move_games_initial h).subset hg, hmem⟩
  · exact Or.inr ((move_sent h).subset hsent)

theorem mem_invalidate {session : Session} (h : player ∈ session.players) :
    (player.socket, notice) ∈ session.invalidate :=
  List.mem_map_of_mem h

/-- What a step adds to the joins. -/
theorem move_joined (h : Move p l s s') : s'.joined = s.joined ∨ ∃ id node node',
    accepts s l = some id ∧ s.sessions.lookup id = some node ∧ s'.sessions.lookup id = some node' ∧
      node'.uid = node.uid ∧ s'.nextUid = s.nextUid ∧ ∃ joiner ∈ node'.session.players,
        s'.joined = s.joined ++ [(node.uid, joiner)] := by
  cases h with
  | speaks ws pc' hspeaks hout hk hpc hsent => exact Or.inl hk.joined
  | cut ws pc' hspeaks hout hk hpc hsent => exact Or.inl hk.joined
  | thinks pc' hthinks hk hpc hsent => exact Or.inl hk.joined
  | plays game call w hplays hk hpc hsent => exact Or.inl hk.joined
  | dies hreads hk hpc hsent => exact Or.inl hk.joined
  | collided leader first node hpc hold hfirst hk hpc' hsent => exact Or.inl hk.joined
  | inserted leader hpc hnew hs hu hj hg hpc' hsent => exact Or.inl hj
  | madeUp id hpc hnew hs hu hj hg hpc' hsent => exact Or.inl hj
  | moved k node hpc hold huid hs hu hj hg hpc' hsent => exact Or.inl hj
  | erased k hpc hs hu hj hg hsent => exact Or.inl hj
  | joined name id node hold haccept hpc hs hu hj hg hsent hfirst =>
    have hl' := (congrArg (AList.lookup id) hs).trans (AList.lookup_insert _)
    refine Or.inr ⟨id, node, _, ?_, hold, hl', rfl, hu, _,
      List.mem_append_right _ List.mem_cons_self, hj⟩
    unfold accepts
    rcases hpc with ⟨hpc, -⟩ | ⟨hpc, -⟩
    · rw [hpc]
      simp only [hold]
      exact if_pos haccept
    · obtain ⟨hperm, hfirst⟩ := hfirst name hpc
      rw [hpc]
      simp only [if_pos hperm]
      exact hfirst

/-- A node of the table after a step is a node of the table before, or new. -/
theorem node_old (h : Move p l s s') (hl : s'.sessions.lookup id = some node') :
    (∃ node, s.sessions.lookup id = some node ∧ node'.uid = node.uid) ∨
      node'.uid = s.nextUid ∧ s'.nextUid = s.nextUid + 1 := by
  cases move_node h hl with
  | new huid hu hsession => exact Or.inr ⟨huid, hu⟩
  | same node hold huid hsession => exact Or.inl ⟨node, hold, huid⟩
  | grown name node hold huid haccept hsession => exact Or.inl ⟨node, hold, huid⟩
  | emptied node hold huid hg hplayers => exact Or.inl ⟨node, hold, huid⟩

/-- A node stays in the table, or its erase is what the thread has done. -/
theorem node_stays (h : Move p l s s') (hl : s.sessions.lookup id = some node) :
    (∃ node', s'.sessions.lookup id = some node' ∧ node'.uid = node.uid) ∨
      ∃ k, closing (s.pc l.thread) = some k ∧ k.id = id := by
  have hinsert (id' : ℤ) (new : Node) (hs : s'.sessions = s.sessions.insert id' new)
      (hnew : id = id' → new.uid = node.uid) :
      ∃ node', s'.sessions.lookup id = some node' ∧ node'.uid = node.uid := by
    rw [hs]
    by_cases hid : id = id'
    · subst hid
      exact ⟨new, AList.lookup_insert _, hnew rfl⟩
    · exact ⟨node, by rw [AList.lookup_insert_ne hid, hl], rfl⟩
  have hkept (hs : s'.sessions = s.sessions) :
      ∃ node', s'.sessions.lookup id = some node' ∧ node'.uid = node.uid :=
    ⟨node, by rw [hs, hl], rfl⟩
  cases h with
  | speaks ws pc' hspeaks hout hk hpc hsent => exact Or.inl (hkept hk.sessions)
  | cut ws pc' hspeaks hout hk hpc hsent => exact Or.inl (hkept hk.sessions)
  | thinks pc' hthinks hk hpc hsent => exact Or.inl (hkept hk.sessions)
  | plays game call w hplays hk hpc hsent => exact Or.inl (hkept hk.sessions)
  | dies hreads hk hpc hsent => exact Or.inl (hkept hk.sessions)
  | collided leader first node hpc hold hfirst hk hpc' hsent => exact Or.inl (hkept hk.sessions)
  | inserted leader hpc hnew hs hu hj hg hpc' hsent =>
    refine Or.inl (hinsert _ _ hs fun hid => ?_)
    rw [hid, hnew] at hl
    cases hl
  | madeUp id' hpc hnew hs hu hj hg hpc' hsent =>
    refine Or.inl (hinsert _ _ hs fun hid => ?_)
    rw [hid, hnew] at hl
    cases hl
  | joined name id' old hold haccept hpc hs hu hj hg hsent =>
    refine Or.inl (hinsert _ _ hs fun hid => ?_)
    rw [hid, hold] at hl
    cases hl
    rfl
  | moved k old hpc hold huid hs hu hj hg hpc' hsent =>
    refine Or.inl (hinsert _ _ hs fun hid => ?_)
    rw [hid, hold] at hl
    cases hl
    rfl
  | erased k hpc hs hu hj hg hsent =>
    by_cases hid : id = k.id
    · refine Or.inr ⟨k, ?_, hid.symm⟩
      rcases hpc with ⟨hpc, -⟩ | ⟨game, hpc, -⟩ <;> rw [hpc] <;> rfl
    · exact Or.inl ⟨node, by rw [hs, AList.lookup_erase_ne hid, hl], rfl⟩

/-- How a thread comes to be about to erase its session. -/
theorem move_closing {h : Hold} (hmove : Move p l s s')
    (hc : closing (s'.pc l.thread) = some h) : closing (s.pc l.thread) = some h ∨
      s'.joined = s.joined ∧ ∃ node, s.sessions.lookup h.id = some node ∧
        ∀ player ∈ node.session.players, Told s' node.uid player := by
  cases hmove with
  | speaks ws pc' hspeaks hout hk hpc hsent =>
    rw [hpc] at hc
    generalize s.pc l.thread = pc at hspeaks
    cases hspeaks with
    | createInvalidate k node hl hu =>
      cases hc
      refine Or.inr ⟨hk.joined, node, hl, fun player hplayer => Or.inr ?_⟩
      rw [hsent]
      exact List.mem_append_right _ (mem_invalidate hplayer)
    | _ => cases hc
  | cut ws pc' hspeaks hout hk hpc hsent => exact Or.inl (hpc ▸ hc)
  | thinks pc' hthinks hk hpc hsent =>
    rw [hpc] at hc
    generalize s.pc l.thread = pc at hthinks
    cases hthinks <;> cases hc
  | plays game call w hplays hk hpc hsent =>
    rcases hpc with hpc | hpc | hpc <;> rw [hpc] at hc
    · cases hc
    · cases hc
    · exact Or.inl hc
  | dies hreads hk hpc hsent => exact Or.inl (hpc ▸ hc)
  | inserted leader hpc hnew hs hu hj hg hpc' hsent => rw [hpc'] at hc; cases hc
  | collided leader first node hpc hold hfirst hk hpc' hsent => rw [hpc'] at hc; cases hc
  | madeUp id hpc hnew hs hu hj hg hpc' hsent =>
    rcases hpc' with hpc' | ⟨-, hpc'⟩ <;> rw [hpc'] at hc
    · exact Or.inl hc
    · cases hc
  | joined name id node hold haccept hpc hs hu hj hg hsent =>
    rcases hpc with ⟨-, hpc'⟩ | ⟨-, hpc'⟩ <;> rw [hpc'] at hc <;> cases hc
  | moved k node hpc hold huid hs hu hj hg hpc' hsent =>
    rw [hpc'] at hc
    cases hc
    refine Or.inr ⟨hj, node, hold, fun player hplayer => Or.inl
      ⟨.ofSession node.session.players node.session.sessionId l.shuffle, ?_, hplayer⟩⟩
    rw [hg]
    exact List.mem_append_right _ List.mem_cons_self
  | erased k hpc hs hu hj hg hsent =>
    rcases hpc with ⟨-, hpc'⟩ | ⟨game, -, hpc'⟩ <;> rw [hpc'] at hc <;> cases hc

/-- An accepted player is in its session until it is told. -/
theorem there_step (hI : Lawful s) (hapart : UidsApart s') (h : Move p l s s')
    (hj : (uid, player) ∈ s'.joined) (hl : s'.sessions.lookup id = some node')
    (huid' : node'.uid = uid) : player ∈ node'.session.players ∨ Told s' uid player := by
  have hthere (hj : (uid, player) ∈ s.joined) :
      player ∈ node'.session.players ∨ Told s' uid player := by
    have hlt := hI.joinedBelow uid player hj
    cases move_node h hl with
    | new huid hu hsession => omega
    | same node hold huid hsession =>
      rw [hsession]
      exact (hI.there uid player hj id node hold (by omega)).imp_right (Told.mono h)
    | grown name node hold huid haccept hsession =>
      rw [hsession]
      exact (hI.there uid player hj id node hold (by omega)).imp (List.mem_append_left _)
        (Told.mono h)
    | emptied node hold huid hg hplayers =>
      rcases hI.there uid player hj id node hold (by omega) with hmem | ht
      · obtain ⟨sessionId, hg⟩ := hg
        exact Or.inr (Or.inl ⟨_, huid' ▸ huid ▸ hg, hmem⟩)
      · exact Or.inr (ht.mono h)
  rcases move_joined h with hsame | ⟨id', node, grown, -, -, hgrown, hguid, -, joiner, hmem, hadd⟩
  · exact hthere (hsame ▸ hj)
  · rw [hadd] at hj
    rcases List.mem_append.mp hj with hj | hj
    · exact hthere hj
    · cases List.mem_singleton.mp hj
      have hid := hapart _ _ _ _ hl hgrown (huid'.trans hguid.symm)
      subst hid
      cases hl.symm.trans hgrown
      exact Or.inl hmem

/-- The players of a session that is about to be erased have been told. -/
theorem closed_step (hI : Lawful s) (hC : InTime s l) (hs : step p s l = some s') {t : Conn}
    {h : Hold} (hc : closing (s'.pc t) = some h) (hl : s'.sessions.lookup h.id = some node')
    (hj : (node'.uid, player) ∈ s'.joined) : Told s' node'.uid player := by
  obtain ⟨hmove, hothers⟩ := step_move hs
  have hold : closing (s.pc t) = some h ∨ s'.joined = s.joined ∧ ∃ node,
      s.sessions.lookup h.id = some node ∧ ∀ player ∈ node.session.players,
        Told s' node.uid player := by
    by_cases hthread : t = l.thread
    · subst hthread
      exact move_closing hmove hc
    · exact Or.inl (by rw [← hothers t hthread, hc])
  -- an accepted player of the node has been accepted before this step
  have hold_join : (node'.uid, player) ∈ s.joined := by
    rcases move_joined hmove with hsame | ⟨id, node, grown, haccepts, hnode, -, -, hu, joiner, -, hadd⟩
    · exact hsame ▸ hj
    · rw [hadd] at hj
      refine (List.mem_append.mp hj).resolve_right fun hnew => ?_
      have huid : node'.uid = node.uid := congrArg Prod.fst (List.mem_singleton.mp hnew)
      rcases hold with hold | ⟨hsame, -⟩
      · obtain ⟨node₀, hnode₀, huid₀⟩ := (node_old hmove hl).resolve_right fun h => by omega
        have hid := hI.uidsApart _ _ _ _ hnode₀ hnode (huid₀.symm.trans huid)
        exact hC (step_live hs) id haccepts t h hold hid
      · rw [hsame] at hadd
        exact absurd hadd (by simp)
  have hlt := hI.joinedBelow _ _ hold_join
  obtain ⟨node, hnode, huid⟩ := (node_old hmove hl).resolve_right fun hnew => by omega
  rw [huid] at hold_join ⊢
  rcases hold with hold | ⟨-, first, hfirst, hplayers⟩
  · exact (hI.closed t h hold node hnode player hold_join).mono hmove
  · cases hfirst.symm.trans hnode
    rcases hI.there _ player hold_join h.id node hnode rfl with hmem | ht
    · exact hplayers player hmem
    · exact ht.mono hmove

/-- A player is dropped in no other way. -/
theorem noneDropped_step (hI : Lawful s) (h : Move p l s s') : NoneDropped s' := by
  intro uid player hj
  have hthere (hj : (uid, player) ∈ s.joined) : Open s' uid ∨ Told s' uid player := by
    rcases hI.noneDropped uid player hj with ⟨id, node, hl, huid⟩ | ht
    · rcases node_stays h hl with ⟨node', hl', huid'⟩ | ⟨k, hk, hid⟩
      · exact Or.inl ⟨id, node', hl', huid'.trans huid⟩
      · have ht := hI.closed l.thread k hk node (hid ▸ hl) player (huid ▸ hj)
        exact Or.inr (huid ▸ ht.mono h)
    · exact Or.inr (ht.mono h)
  rcases move_joined h with hsame | ⟨id, node, grown, -, -, hgrown, hguid, -, joiner, -, hadd⟩
  · exact hthere (hsame ▸ hj)
  · rw [hadd] at hj
    rcases List.mem_append.mp hj with hj | hj
    · exact hthere hj
    · cases List.mem_singleton.mp hj
      exact Or.inl ⟨id, grown, hgrown, hguid⟩

/-- **A step in which no join is late drops nobody.** -/
theorem lawful_step (hI : Lawful s) (hC : InTime s l) (hs : step p s l = some s') : Lawful s' := by
  have hmove := (step_move hs).1
  have hapart := uidsApart_step hI.below hI.uidsApart hs
  have hle := move_nextUid hmove
  refine ⟨uidsBelow_step hI.below hs, hapart, fun uid player hj => ?_, fun uid player hj id node' hl
    huid' => there_step hI hapart hmove hj hl huid', fun t h hc node' hl player hj =>
      closed_step hI hC hs hc hl hj, noneDropped_step hI hmove⟩
  rcases move_joined hmove with hsame | ⟨id, node, grown, -, hnode, -, -, hu, joiner, -, hadd⟩
  · have := hI.joinedBelow uid player (hsame ▸ hj)
    omega
  · rw [hadd] at hj
    rcases List.mem_append.mp hj with hj | hj
    · have := hI.joinedBelow uid player hj
      omega
    · have huid : uid = node.uid := congrArg Prod.fst (List.mem_singleton.mp hj)
      have := hI.below id node hnode
      omega

end Step

theorem lawful_init : Lawful init where
  below := uidsBelow_init
  uidsApart := uidsApart_init
  joinedBelow uid player hj := by cases hj
  there uid player hj := by cases hj
  closed t h hc := by cases hc
  noneDropped uid player hj := by cases hj

/-- **No accepted player is dropped**, in the runs in which every join is in time. -/
theorem none_dropped (p : Parsers) (run : List Label) (h : Along (step p) InTime init run) :
    States (step p) NoneDropped init run :=
  states_of_inv (fun _ _ _ hI hC hs => lawful_step hI hC hs) (fun _ hI => hI.noneDropped)
    lawful_init h

/-- A run of the threads `ts` moves no other thread. -/
theorem others_greet {p : Parsers} {s s' : Sys} {l : Label} {ts : List Conn}
    (hI : ∀ t ∉ ts, s.pc t = .greet) (hl : l.thread ∈ ts) (hs : step p s l = some s') :
    ∀ t ∉ ts, s'.pc t = .greet := by
  intro t ht
  rw [(step_move hs).2 t (fun heq => ht (heq ▸ hl))]
  exact hI t ht

/-- In a run of the threads `ts` only these can be late. -/
theorem along_inTime (p : Parsers) (ts : List Conn) {run : List Label}
    (h : Along (step p) (fun s l => l.thread ∈ ts ∧ (accepts s l = none ∨
      ∀ t ∈ ts, (closing (s.pc t)).map Hold.id ≠ accepts s l)) init run) :
    Along (step p) InTime init run := by
  refine along_of_inv (I := fun s => ∀ t ∉ ts, s.pc t = .greet) ?_ ?_ (fun _ _ => rfl) h
  · exact fun s l s' hI hC hs => others_greet hI hC.1 hs
  · intro s l hI hC hlive id haccepts t k hk hid
    have hmem : t ∈ ts := by
      by_contra hnot
      rw [hI t hnot] at hk
      cases hk
    rcases hC.2 with hnone | hall
    · rw [haccepts] at hnone
      cases hnone
    · refine hall t hmem ?_
      rw [hk, haccepts, Option.map_some, hid]

/-- A leader creates session `0`, another client joins it, and the leader leaves. -/
def leaderLeaves : List Label := List.flatten
  [entering 0 [16, 1], steps 0 3, entering 1 [16, 2, 24, 0], steps 1 3, steps 0 3]

/-- The client has been sent the closing notice. -/
theorem leader_leaves_told : ((last (step plainParsers) init leaderLeaves).joined = [(0, ⟨"", 1⟩)]) ∧
    States (step plainParsers) NoneDropped init leaderLeaves :=
  ⟨by decide +kernel, none_dropped plainParsers leaderLeaves
    (along_inTime plainParsers [0, 1] (by decide +kernel))⟩

/-- A leader creates session `0`, another client joins it, and is told of. The leader leaves and
sends the closing notice. Before it erases the session a third client joins. -/
def lateJoin : List Label := List.flatten
  [entering 0 [16, 1], steps 0 3, entering 1 [16, 2, 24, 0], steps 1 3, steps 0 2,
    entering 2 [16, 2, 24, 0], steps 2 1, steps 0 1]

/-- The third client is dropped. -/
theorem late_joiner_dropped : ¬ States (step plainParsers) NoneDropped init lateJoin := by
  intro h
  rcases h.last 0 ⟨"", 2⟩ (by decide +kernel) with ⟨id, node, hl, -⟩ | ⟨game, hg, -⟩ | hsent
  · have hkeys : (last (step plainParsers) init lateJoin).sessions.keys = [] := by decide +kernel
    have hmem : id ∈ (last (step plainParsers) init lateJoin).sessions := by
      rw [← AList.lookup_isSome, hl]
      rfl
    rw [AList.mem_keys, hkeys] at hmem
    cases hmem
  · have hgames : (last (step plainParsers) init lateJoin).games.map Prod.fst = [] := by
      decide +kernel
    rw [List.map_eq_nil_iff.mp hgames] at hg
    cases hg
  · exact absurd hsent (by decide +kernel)

end HanabiBot.Lobby.Closing
