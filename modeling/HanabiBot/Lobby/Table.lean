import HanabiBot.Lib.Tables
import HanabiBot.Lobby.Sections

/-! # What a step does to the table

`TableStep` lists the ways in which one step of a thread can change the table `sessions`, and
`step_table` says that there are no others: `emplace` of a new key or of a key that is taken, a
`subscript` that makes up a session, an accepted join, the move of the players into a game, an
erase. It is read off the moves of a thread. -/

namespace HanabiBot.Lobby.Table

open HanabiBot.Lib.Tables HanabiBot.Common.Messages HanabiBot.HanabiGame.State
open HanabiBot.Lobby.Sessions HanabiBot.Lobby.Machine HanabiBot.Lobby.Moves HanabiBot.Lobby.Sections

/-- The ways in which a step of thread `t` changes the table. -/
inductive TableStep (s s' : Sys) (t : Conn) : Prop where
  | quiet (hs : s'.sessions = s.sessions) (hu : s'.nextUid = s.nextUid)
      (hh : (s'.pc t).hold = (s.pc t).hold)
  | inserted (leader : String) (hpc : s.pc t = .createEmplace leader)
      (hnew : s.sessions.lookup (s.size : ℤ) = none)
      (hs : s'.sessions = s.sessions.insert (s.size : ℤ)
        ⟨s.nextUid, some t, .ofLeader ⟨leader, t⟩ s.size⟩)
      (hu : s'.nextUid = s.nextUid + 1)
      (hpc' : s'.pc t = .createLog ⟨s.size, s.nextUid, t⟩)
  | collided (leader : String) (first : Player) (node : Node) (hpc : s.pc t = .createEmplace leader)
      (hold : s.sessions.lookup (s.size : ℤ) = some node)
      (hfirst : node.session.players.head? = some first) (hs : s'.sessions = s.sessions)
      (hu : s'.nextUid = s.nextUid)
      (hpc' : s'.pc t = .createLog ⟨s.size, node.uid, first.socket⟩)
  | madeUp (id : ℤ) (hpc : (s.pc t).subscripts = some id)
      (hnew : s.sessions.lookup id = none)
      (hs : s'.sessions = s.sessions.insert id ⟨s.nextUid, none, .default⟩)
      (hu : s'.nextUid = s.nextUid + 1) (hh : (s'.pc t).hold = (s.pc t).hold)
  | joined (id : ℤ) (node : Node) (joiner : Player) (hh : (s.pc t).hold = none)
      (hold : s.sessions.lookup id = some node) (hne : node.session.players ≠ [])
      (hs : s'.sessions = s.sessions.insert id { node with session :=
        { node.session with
          players := node.session.players ++ [joiner]
          numPlayers := node.session.numPlayers + 1 } })
      (hu : s'.nextUid = s.nextUid) (hh' : (s'.pc t).hold = none)
  | moved (h : Hold) (node : Node) (game : Game) (hpc : s.pc t = .createMove h)
      (hold : s.sessions.lookup h.id = some node) (huid : node.uid = h.uid)
      (hs : s'.sessions = s.sessions.insert h.id { node with session :=
        { node.session with players := [] } })
      (hu : s'.nextUid = s.nextUid)
      (hpc' : s'.pc t = .createEraseStarted h game)
  | erased (h : Hold) (moved : Bool) (hh : (s.pc t).hold = some (h, moved))
      (hs : s'.sessions = s.sessions.erase h.id) (hu : s'.nextUid = s.nextUid)
      (hh' : (s'.pc t).hold = none)

theorem speaks_hold {s : Sys} {t : Conn} {ws : List Write} {pc pc' : Pc} (h : Speaks s t pc ws pc') :
    pc'.hold = pc.hold := by
  cases h <;> rfl

theorem thinks_hold {p : Parsers} {s : Sys} {l : Label} {pc pc' : Pc} (h : Thinks p s l pc pc') :
    pc'.hold = pc.hold := by
  cases h <;> rfl

theorem plays_hold {p : Parsers} {l : Label} {pc : Pc} {game : Game} {call : GameM PUnit}
    {w : World} (h : Plays p l pc game call w) : pc.hold = none := by
  cases h <;> rfl

/-- **What a move does to the table.** -/
theorem move_table {p : Parsers} {s s' : Sys} {l : Label} (h : Move p l s s') :
    TableStep s s' l.thread := by
  cases h with
  | speaks ws pc' hspeaks hout hk hpc hsent =>
    exact .quiet hk.sessions hk.nextUid (by rw [hpc, speaks_hold hspeaks])
  | cut ws pc' hspeaks hout hk hpc hsent => exact .quiet hk.sessions hk.nextUid (by rw [hpc])
  | thinks pc' hthinks hk hpc hsent =>
    exact .quiet hk.sessions hk.nextUid (by rw [hpc, thinks_hold hthinks])
  | plays game call w hplays hk hpc hsent =>
    refine .quiet hk.sessions hk.nextUid ?_
    rw [plays_hold hplays]
    rcases hpc with hpc | hpc | hpc <;> rw [hpc]
    · rfl
    · rfl
    · exact plays_hold hplays
  | dies hreads hk hpc hsent => exact .quiet hk.sessions hk.nextUid (by rw [hpc])
  | inserted leader hpc hnew hs hu hj hg hpc' hsent => exact .inserted leader hpc hnew hs hu hpc'
  | collided leader first node hpc hold hfirst hk hpc' hsent =>
    exact .collided leader first node hpc hold hfirst hk.sessions hk.nextUid hpc'
  | madeUp id hpc hnew hs hu hj hg hpc' hsent =>
    refine .madeUp id hpc hnew hs hu ?_
    rcases hpc' with hpc' | ⟨hh, hpc'⟩ <;> rw [hpc']
    exact hh.symm
  | joined name id node hold haccept hpc hs hu hj hg hsent =>
    have hne : node.session.players ≠ [] := by
      obtain ⟨session, hjoin⟩ := Option.isSome_iff_exists.mp haccept
      exact (Session.join_some hjoin).1
    rcases hpc with ⟨hpc, hpc'⟩ | ⟨hpc, hpc'⟩
    · exact .joined id node _ (by rw [hpc]; rfl) hold hne hs hu (by rw [hpc']; rfl)
    · exact .joined id node _ (by rw [hpc]; rfl) hold hne hs hu (by rw [hpc']; rfl)
  | moved k node hpc hold huid hs hu hj hg hpc' hsent =>
    exact .moved k node _ hpc hold huid hs hu hpc'
  | erased k hpc hs hu hj hg hsent =>
    rcases hpc with ⟨hpc, hpc'⟩ | ⟨game, hpc, hpc'⟩
    · exact .erased k false (by rw [hpc]; rfl) hs hu (by rw [hpc']; rfl)
    · exact .erased k true (by rw [hpc]; rfl) hs hu (by rw [hpc']; rfl)

/-- What a step does to the table, and that only its own thread moves. -/
theorem step_table {p : Parsers} {s s' : Sys} {l : Label} (h : step p s l = some s') :
    TableStep s s' l.thread ∧ ∀ t ≠ l.thread, s'.pc t = s.pc t :=
  ⟨move_table (step_move h).1, (step_move h).2⟩

/-! ### One node -/

/-- Where a node of the table after a step comes from: it is new, it is an old one with its session
as it was, or with one more player, or without players. -/
inductive NodeStep (l : Label) (s s' : Sys) (id : ℤ) (node' : Node) : Prop where
  | new (huid : node'.uid = s.nextUid) (hu : s'.nextUid = s.nextUid + 1)
      (hsession : node'.session = .default ∨ ∃ name, s.pc l.thread = .createEmplace name ∧
        node'.session = .ofLeader ⟨name, l.thread⟩ id)
  | same (node : Node) (hl : s.sessions.lookup id = some node) (huid : node'.uid = node.uid)
      (hsession : node'.session = node.session)
  | grown (name : String) (node : Node) (hl : s.sessions.lookup id = some node)
      (huid : node'.uid = node.uid)
      (haccept : (node.session.join l.isOpen ⟨name, l.thread⟩).isSome)
      (hsession : node'.session = { node.session with
        players := node.session.players ++ [⟨name, l.thread⟩]
        numPlayers := node.session.numPlayers + 1 })
  | emptied (node : Node) (hl : s.sessions.lookup id = some node) (huid : node'.uid = node.uid)
      (hg : ∃ sessionId, (node.uid, .ofSession node.session.players sessionId l.shuffle) ∈ s'.games)
      (hplayers : node'.session.players = [])

section Node
variable {p : Parsers} {s s' : Sys} {l : Label} {id : ℤ} {node' : Node}

theorem lookup_insert_cases {new : Node} {id' : ℤ}
    (h : (s.sessions.insert id new).lookup id' = some node') :
    id' = id ∧ node' = new ∨ id' ≠ id ∧ s.sessions.lookup id' = some node' := by
  by_cases hid : id' = id
  · subst hid
    rw [AList.lookup_insert] at h
    exact Or.inl ⟨rfl, (Option.some.inj h).symm⟩
  · rw [AList.lookup_insert_ne hid] at h
    exact Or.inr ⟨hid, h⟩

theorem lookup_erase_some {id' : ℤ} (h : (s.sessions.erase id).lookup id' = some node') :
    id' ≠ id ∧ s.sessions.lookup id' = some node' := by
  have hid : id' ≠ id := by
    rintro rfl
    rw [AList.lookup_erase] at h
    cases h
  exact ⟨hid, by rwa [AList.lookup_erase_ne hid] at h⟩

/-- **Where the nodes come from.** -/
theorem move_node (h : Move p l s s') (hl : s'.sessions.lookup id = some node') :
    NodeStep l s s' id node' := by
  have hkept (hk : Kept s s') : NodeStep l s s' id node' :=
    .same node' (by rwa [hk.sessions] at hl) rfl rfl
  cases h with
  | speaks ws pc' hspeaks hout hk hpc hsent => exact hkept hk
  | cut ws pc' hspeaks hout hk hpc hsent => exact hkept hk
  | thinks pc' hthinks hk hpc hsent => exact hkept hk
  | plays game call w hplays hk hpc hsent => exact hkept hk
  | dies hreads hk hpc hsent => exact hkept hk
  | collided leader first node hpc hold hfirst hk hpc' hsent => exact hkept hk
  | inserted leader hpc hnew hs hu hj hg hpc' hsent =>
    rw [hs] at hl
    rcases lookup_insert_cases hl with ⟨rfl, rfl⟩ | ⟨-, hl⟩
    · exact .new rfl hu (Or.inr ⟨leader, hpc, rfl⟩)
    · exact .same node' hl rfl rfl
  | madeUp id' hpc hnew hs hu hj hg hpc' hsent =>
    rw [hs] at hl
    rcases lookup_insert_cases hl with ⟨rfl, rfl⟩ | ⟨-, hl⟩
    · exact .new rfl hu (Or.inl rfl)
    · exact .same node' hl rfl rfl
  | joined name id' node hold haccept hpc hs hu hj hg hsent =>
    rw [hs] at hl
    rcases lookup_insert_cases hl with ⟨rfl, rfl⟩ | ⟨-, hl⟩
    · exact .grown name node hold rfl haccept rfl
    · exact .same node' hl rfl rfl
  | moved k node hpc hold huid hs hu hj hg hpc' hsent =>
    rw [hs] at hl
    rcases lookup_insert_cases hl with ⟨rfl, rfl⟩ | ⟨-, hl⟩
    · exact .emptied node hold rfl ⟨_, by rw [hg]; exact List.mem_append_right _ List.mem_cons_self⟩ rfl
    · exact .same node' hl rfl rfl
  | erased k hpc hs hu hj hg hsent =>
    rw [hs] at hl
    exact .same node' (lookup_erase_some hl).2 rfl rfl

theorem move_nextUid (h : Move p l s s') : s.nextUid ≤ s'.nextUid := by
  cases move_table h <;> omega

end Node

/-- The nodes of the table are older than the next one. -/
def UidsBelow (s : Sys) : Prop :=
  ∀ id node, s.sessions.lookup id = some node → node.uid < s.nextUid

theorem uidsBelow_step {p : Parsers} {s s' : Sys} {l : Label} (h : UidsBelow s)
    (hs : step p s l = some s') : UidsBelow s' := by
  have hmove := (step_move hs).1
  have hle := move_nextUid hmove
  intro id node hl
  cases move_node hmove hl with
  | new huid hu hsession => omega
  | same old hold huid hsession => have := h id old hold; omega
  | grown name old hold huid haccept hsession => have := h id old hold; omega
  | emptied old hold huid hg hplayers => have := h id old hold; omega

/-- No two nodes have the same `uid`. -/
def UidsApart (s : Sys) : Prop := Distinct Node.uid s.sessions

theorem uidsApart_step {p : Parsers} {s s' : Sys} {l : Label} (hb : UidsBelow s)
    (h : UidsApart s) (hs : step p s l = some s') : UidsApart s' := by
  have hnew (id : ℤ) (new : Node) (huid : new.uid = s.nextUid) :
      Distinct Node.uid (s.sessions.insert id new) :=
    Distinct.insert_new h id fun id' node hl => by
      have := hb id' node hl
      omega
  unfold UidsApart
  cases (step_table hs).1 with
  | quiet hsess hu hh => rwa [hsess]
  | collided leader first node hpc hold hfirst hsess hu hpc' => rwa [hsess]
  | inserted leader hpc hnone hsess hu hpc' =>
    rw [hsess]
    exact hnew _ _ rfl
  | madeUp id hpc hnone hsess hu hh =>
    rw [hsess]
    exact hnew _ _ rfl
  | joined id node joiner hh hold hne hsess hu hh' =>
    rw [hsess]
    exact Distinct.insert_same h hold rfl
  | moved k node game hpc hold huid hsess hu hpc' =>
    rw [hsess]
    exact Distinct.insert_same h hold rfl
  | erased k moved hh hsess hu hh' =>
    rw [hsess]
    exact Distinct.erase h k.id

theorem uidsBelow_init : UidsBelow init := by
  intro id node hl
  cases hl

theorem uidsApart_init : UidsApart init := by
  intro id id' node node' hl
  cases hl

end HanabiBot.Lobby.Table
