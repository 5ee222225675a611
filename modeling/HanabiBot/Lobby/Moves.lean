import HanabiBot.Lobby.Machine
import HanabiBot.Lib.Calls

/-! # The moves of a thread

`Move` lists what one step of a thread can do to the state. A thread that speaks (`Speaks`) writes
and goes on, or is cut off by a write that fails; a thread that thinks (`Thinks`) goes on without a
write; the turn of a game writes what the game writes; and there are six moves that change the
table: `emplace` of a new key or of a key that is taken, a `subscript` that makes up a session, an
accepted join, the move of the players into a game, an erase. The other threads stand where they
stood. -/

namespace HanabiBot.Lobby.Moves

open HanabiBot.Lib.Calls HanabiBot.Common.Messages HanabiBot.HanabiGame.State
open HanabiBot.HanabiGame.Play HanabiBot.Lobby.Sessions HanabiBot.Lobby.Machine

/-! ### The parts of the state -/

section Updates
variable (s : Sys) (t : Conn)

@[simp] theorem setPc_self (pc : Pc) : (s.setPc t pc).pc t = pc := Function.update_self ..

theorem setPc_ne {t t' : Conn} (h : t' ≠ t) (pc : Pc) : (s.setPc t pc).pc t' = s.pc t' :=
  Function.update_of_ne h _ _

theorem erase_absent {id : ℤ} (h : s.sessions.lookup id = none) : s.erase id = s := by
  unfold Sys.erase
  rw [h]

theorem erase_sessions (id : ℤ) : (s.erase id).sessions = s.sessions.erase id := by
  cases h : s.sessions.lookup id with
  | some node =>
    unfold Sys.erase
    rw [h]
  | none =>
    rw [erase_absent s h]
    exact (AList.ext (List.kerase_of_notMem_keys (AList.lookup_eq_none.mp h))).symm

/-- The rest of the state that an erase leaves. -/
theorem erase_rest (id : ℤ) : (s.erase id).nextUid = s.nextUid ∧ (s.erase id).pc = s.pc ∧
    (s.erase id).games = s.games ∧ (s.erase id).joined = s.joined ∧ (s.erase id).sent = s.sent := by
  unfold Sys.erase
  split <;> exact ⟨rfl, rfl, rfl, rfl, rfl⟩

theorem emplace_free {t : Conn} {id : ℤ} {leader : Player} (h : s.sessions.lookup id = none) :
    s.emplace t id leader = (⟨s.nextUid, some t, .ofLeader leader id⟩,
      s.insertNode id (some t) (.ofLeader leader id)) := by
  unfold Sys.emplace
  rw [h]

theorem emplace_taken {t : Conn} {id : ℤ} {leader : Player} {node : Node}
    (h : s.sessions.lookup id = some node) :
    s.emplace t id leader = (node, s.destroy [leader]) := by
  unfold Sys.emplace
  rw [h]

theorem subscript_absent {id : ℤ} (h : s.sessions.lookup id = none) :
    s.subscript id = (⟨s.nextUid, none, .default⟩, s.insertNode id none .default) := by
  unfold Sys.subscript
  rw [h]

theorem subscript_present {id : ℤ} {node : Node} (h : s.sessions.lookup id = some node) :
    s.subscript id = (node, s) := by
  unfold Sys.subscript
  rw [h]

variable {s}

theorem find_some {id : ℤ} {uid : ℕ} {node : Node} (h : s.find id uid = some node) :
    s.sessions.lookup id = some node ∧ node.uid = uid := by
  unfold Sys.find at h
  split at h
  · next n hn =>
    split_ifs at h with hu
    cases h
    exact ⟨hn, hu⟩
  · cases h

theorem firstJoin_some {isOpen : Conn → Bool} {joiner : Player} {order : List ℤ} {id : ℤ}
    {node : Node} {session : Session}
    (h : firstJoin s isOpen joiner order = some (id, node, session)) :
    s.sessions.lookup id = some node ∧ node.session.join isOpen joiner = some session := by
  obtain ⟨k, -, hk⟩ := List.exists_of_findSome?_eq_some h
  cases hl : s.sessions.lookup k with
  | none => rw [hl] at hk; cases hk
  | some n =>
    rw [hl] at hk
    obtain ⟨session', hj, heq⟩ := Option.map_eq_some_iff.mp hk
    cases heq
    exact ⟨hl, hj⟩

end Updates

/-! ### What a thread says -/

/-- What a thread at a place of the program writes, outside of a game, and where it goes then. -/
inductive Speaks (s : Sys) (t : Conn) : Pc → List Write → Pc → Prop where
  | greet (m : AckMessage) : Speaks s t .greet [(t, .ack m)] .readConnection
  | createAck (h : Hold) (m : CreateSessionAck) :
    Speaks s t (.createAck h) [(h.socket, .createSessionAck m)] (.createWait h)
  | createRefuse (h : Hold) (m : CreateSessionAck) :
    Speaks s t (.createRefuse h) [(h.socket, .createSessionAck m)] (.createWait h)
  | createAccept (h : Hold) (m : CreateSessionAck) :
    Speaks s t (.createAccept h) [(h.socket, .createSessionAck m)] (.createBroadcast h)
  | createInvalidate (h : Hold) (node : Node) (hl : s.sessions.lookup h.id = some node)
      (hu : node.uid = h.uid) :
    Speaks s t (.createInvalidate h) node.session.invalidate (.createErase h)
  | createBroadcast (h : Hold) (node : Node) (hl : s.sessions.lookup h.id = some node)
      (hu : node.uid = h.uid) :
    Speaks s t (.createBroadcast h) (node.session.broadcast gameStartedStr) (.createMove h)
  | joinRefuse (joiner message : String) (m : JoinSessionAck) :
    Speaks s t (.joinRefuse joiner message) [(t, .joinSessionAck m)] .done
  | joinAck (player : String) (id : ℤ) (m : JoinSessionAck) :
    Speaks s t (.joinAck player id) [(t, .joinSessionAck m)] (.joinBroadcast player id)
  | joinBroadcast (player : String) (id : ℤ) (node : Node) (hl : s.sessions.lookup id = some node)
      (ht : t ∉ s.gone) :
    Speaks s t (.joinBroadcast player id) (joinNews node.session player) .done
  | randomAck (player : String) (id : ℤ) (uid : ℕ) (m : JoinRandomSessionAck)
      (hm : m.sessionType = some .existingSession) :
    Speaks s t (.randomAck player id uid) [(t, .joinRandomSessionAck m)]
      (.randomBroadcast player id uid)
  | randomBroadcast (player : String) (id : ℤ) (uid : ℕ) (node : Node)
      (hl : s.sessions.lookup id = some node) (hu : node.uid = uid) (ht : t ∉ s.gone) :
    Speaks s t (.randomBroadcast player id uid) (joinNews node.session player) .done
  | randomNew (joiner : String) (m : JoinRandomSessionAck)
      (hm : m.sessionType = some .newSession) :
    Speaks s t (.randomNew joiner) [(t, .joinRandomSessionAck m)] (.createEmplace joiner)

/-- Where a thread goes without a write, if it leaves the table alone. -/
inductive Thinks (p : Parsers) (s : Sys) (l : Label) : Pc → Pc → Prop where
  | leaves (hb : l.received.bind p.connection = none) : Thinks p s l .readConnection .done
  | create (b : Bytes) (m : NewConnection) (hb : l.received = some b)
      (hm : p.connection b = some m) (hop : m.getOperation = .createSession) :
    Thinks p s l .readConnection (.createEmplace m.getName)
  | specific (b : Bytes) (m : NewConnection) (hb : l.received = some b)
      (hm : p.connection b = some m) (hop : m.getOperation = .joinSpecificSession) :
    Thinks p s l .readConnection (.joinLock m.getName m.getSessionId)
  | random (b : Bytes) (m : NewConnection) (hb : l.received = some b)
      (hm : p.connection b = some m) (hop : m.getOperation ≠ .createSession)
      (hop' : m.getOperation ≠ .joinSpecificSession) :
    Thinks p s l .readConnection (.randomLock m.getName)
  | logged (h : Hold) : Thinks p s l (.createLog h) (.createAck h)
  | lost (h : Hold) (hb : l.received = none) : Thinks p s l (.createWait h) (.createInvalidate h)
  | alone (h : Hold) : Thinks p s l (.createWait h) (.createRefuse h)
  | starts (h : Hold) (node : Node) (hl : s.sessions.lookup h.id = some node) (hu : node.uid = h.uid)
      (hn : node.session.numPlayers ≠ 1) : Thinks p s l (.createWait h) (.createAccept h)
  | refused (joiner : String) (id : ℤ) (message : String) :
    Thinks p s l (.joinLock joiner id) (.joinRefuse joiner message)
  | noSession (joiner : String) : Thinks p s l (.randomLock joiner) (.randomNew joiner)

/-- The call a thread makes in a game, with the world it starts in. -/
inductive Plays (p : Parsers) (l : Label) : Pc → Game → GameM PUnit → World → Prop where
  | turn (game : Game) : Plays p l (.playing game) game
    (HanabiGame.Play.turn ⟨p.response, l.writeOk⟩ 0) ⟨deal game, l.responses, 0, []⟩
  | endGame (game : Game) : Plays p l (.catching game) game
    (HanabiGame.Play.endGame ⟨p.response, l.writeOk⟩) ⟨game, [], 0, []⟩

/-- The step leaves the table, the joins and the games as they are. -/
structure Kept (s s' : Sys) : Prop where
  sessions : s'.sessions = s.sessions
  nextUid : s'.nextUid = s.nextUid
  joined : s'.joined = s.joined
  games : s'.games = s.games

/-- **What a step of thread `l.thread` can do.** -/
inductive Move (p : Parsers) (l : Label) (s s' : Sys) : Prop where
  | speaks (ws : List Write) (pc' : Pc) (h : Speaks s l.thread (s.pc l.thread) ws pc')
      (hout : AllOut l.writeOk ws) (hk : Kept s s') (hpc : s'.pc l.thread = pc')
      (hsent : s'.sent = s.sent ++ ws)
  | cut (ws : List Write) (pc' : Pc) (h : Speaks s l.thread (s.pc l.thread) ws pc')
      (hout : ¬ AllOut l.writeOk ws) (hk : Kept s s') (hpc : s'.pc l.thread = s.pc l.thread)
      (hsent : s'.sent = s.sent ++ writesOut l.writeOk 0 ws)
  | thinks (pc' : Pc) (h : Thinks p s l (s.pc l.thread) pc') (hk : Kept s s')
      (hpc : s'.pc l.thread = pc') (hsent : s'.sent = s.sent)
  | plays (game : Game) (call : GameM PUnit) (w : World)
      (h : Plays p l (s.pc l.thread) game call w) (hk : Kept s s')
      (hpc : s'.pc l.thread = .done ∨ s'.pc l.thread = .catching (after call w).game ∨
        s'.pc l.thread = s.pc l.thread)
      (hsent : s'.sent = s.sent ++ (after call w).out.map ofSent)
  | dies (hreads : s.pc l.thread ≠ .readConnection) (hk : Kept s s')
      (hpc : s'.pc l.thread = s.pc l.thread) (hsent : s'.sent = s.sent)
  | inserted (leader : String) (hpc : s.pc l.thread = .createEmplace leader)
      (hnew : s.sessions.lookup (s.size : ℤ) = none)
      (hs : s'.sessions = s.sessions.insert (s.size : ℤ)
        ⟨s.nextUid, some l.thread, .ofLeader ⟨leader, l.thread⟩ s.size⟩)
      (hu : s'.nextUid = s.nextUid + 1) (hj : s'.joined = s.joined) (hg : s'.games = s.games)
      (hpc' : s'.pc l.thread = .createLog ⟨s.size, s.nextUid, l.thread⟩) (hsent : s'.sent = s.sent)
  | collided (leader : String) (first : Player) (node : Node)
      (hpc : s.pc l.thread = .createEmplace leader)
      (hold : s.sessions.lookup (s.size : ℤ) = some node)
      (hfirst : node.session.players.head? = some first) (hk : Kept s s')
      (hpc' : s'.pc l.thread = .createLog ⟨s.size, node.uid, first.socket⟩)
      (hsent : s'.sent = s.sent)
  | madeUp (id : ℤ) (hpc : (s.pc l.thread).subscripts = some id)
      (hnew : s.sessions.lookup id = none)
      (hs : s'.sessions = s.sessions.insert id ⟨s.nextUid, none, .default⟩)
      (hu : s'.nextUid = s.nextUid + 1) (hj : s'.joined = s.joined) (hg : s'.games = s.games)
      (hpc' : s'.pc l.thread = s.pc l.thread ∨
        (s.pc l.thread).hold = none ∧ s'.pc l.thread = .done)
      (hsent : s'.sent = s.sent)
  | joined (name : String) (id : ℤ) (node : Node)
      (hold : s.sessions.lookup id = some node)
      (haccept : (node.session.join l.isOpen ⟨name, l.thread⟩).isSome)
      (hpc : s.pc l.thread = .joinLock name id ∧ s'.pc l.thread = .joinAck name id ∨
        s.pc l.thread = .randomLock name ∧ s'.pc l.thread = .randomAck name id node.uid)
      (hs : s'.sessions = s.sessions.insert id { node with session :=
        { node.session with
          players := node.session.players ++ [⟨name, l.thread⟩]
          numPlayers := node.session.numPlayers + 1 } })
      (hu : s'.nextUid = s.nextUid) (hj : s'.joined = s.joined ++ [(node.uid, ⟨name, l.thread⟩)])
      (hg : s'.games = s.games) (hsent : s'.sent = s.sent)
      (hfirst : ∀ joiner, s.pc l.thread = .randomLock joiner → l.order.Perm s.sessions.keys ∧
        (firstJoin s l.isOpen (l.player joiner) l.order).map Prod.fst = some id)
  | moved (h : Hold) (node : Node) (hpc : s.pc l.thread = .createMove h)
      (hold : s.sessions.lookup h.id = some node) (huid : node.uid = h.uid)
      (hs : s'.sessions = s.sessions.insert h.id { node with session :=
        { node.session with players := [] } })
      (hu : s'.nextUid = s.nextUid) (hj : s'.joined = s.joined)
      (hg : s'.games = s.games ++
        [(node.uid, .ofSession node.session.players node.session.sessionId l.shuffle)])
      (hpc' : s'.pc l.thread = .createEraseStarted h
        (.ofSession node.session.players node.session.sessionId l.shuffle))
      (hsent : s'.sent = s.sent)
  | erased (h : Hold) (hpc : s.pc l.thread = .createErase h ∧ s'.pc l.thread = .done ∨
        ∃ game, s.pc l.thread = .createEraseStarted h game ∧ s'.pc l.thread = .playing game)
      (hs : s'.sessions = s.sessions.erase h.id) (hu : s'.nextUid = s.nextUid)
      (hj : s'.joined = s.joined) (hg : s'.games = s.games) (hsent : s'.sent = s.sent)

/-! ### The records -/

section Records
variable {p : Parsers} {l : Label} {s s' : Sys}

/-- What has been written stays written. -/
theorem move_sent (h : Move p l s s') : s.sent <+: s'.sent := by
  have hsame (hsent : s'.sent = s.sent) : s.sent <+: s'.sent := hsent ▸ List.prefix_rfl
  cases h with
  | speaks ws pc' hspeaks hout hk hpc hsent => exact ⟨_, hsent.symm⟩
  | cut ws pc' hspeaks hout hk hpc hsent => exact ⟨_, hsent.symm⟩
  | plays game call w hplays hk hpc hsent => exact ⟨_, hsent.symm⟩
  | thinks pc' hthinks hk hpc hsent => exact hsame hsent
  | dies hreads hk hpc hsent => exact hsame hsent
  | inserted leader hpc hnew hs hu hj hg hpc' hsent => exact hsame hsent
  | collided leader first node hpc hold hfirst hk hpc' hsent => exact hsame hsent
  | madeUp id hpc hnew hs hu hj hg hpc' hsent => exact hsame hsent
  | joined name id node hold haccept hpc hs hu hj hg hsent => exact hsame hsent
  | moved k node hpc hold huid hs hu hj hg hpc' hsent => exact hsame hsent
  | erased k hpc hs hu hj hg hsent => exact hsame hsent

/-- What a step adds to the games. -/
theorem move_games (h : Move p l s s') : s'.games = s.games ∨ ∃ k node sessionId,
    s.pc l.thread = .createMove k ∧ s.sessions.lookup k.id = some node ∧ node.uid = k.uid ∧
      s'.sessions.lookup k.id = some { node with session := { node.session with players := [] } } ∧
        s'.games = s.games ++
          [(node.uid, .ofSession node.session.players sessionId l.shuffle)] := by
  cases h with
  | speaks ws pc' hspeaks hout hk hpc hsent => exact Or.inl hk.games
  | cut ws pc' hspeaks hout hk hpc hsent => exact Or.inl hk.games
  | thinks pc' hthinks hk hpc hsent => exact Or.inl hk.games
  | plays game call w hplays hk hpc hsent => exact Or.inl hk.games
  | dies hreads hk hpc hsent => exact Or.inl hk.games
  | collided leader first node hpc hold hfirst hk hpc' hsent => exact Or.inl hk.games
  | inserted leader hpc hnew hs hu hj hg hpc' hsent => exact Or.inl hg
  | madeUp id hpc hnew hs hu hj hg hpc' hsent => exact Or.inl hg
  | joined name id node hold haccept hpc hs hu hj hg hsent => exact Or.inl hg
  | erased k hpc hs hu hj hg hsent => exact Or.inl hg
  | moved k node hpc hold huid hs hu hj hg hpc' hsent =>
    refine Or.inr ⟨k, node, _, hpc, hold, huid, ?_, hg⟩
    rw [hs]
    exact AList.lookup_insert _

/-- The games stay. -/
theorem move_games_initial (h : Move p l s s') : s.games <+: s'.games := by
  rcases move_games h with hg | ⟨k, node, sessionId, -, -, -, -, hg⟩
  · exact hg ▸ List.prefix_rfl
  · exact ⟨_, hg.symm⟩

end Records

end HanabiBot.Lobby.Moves
