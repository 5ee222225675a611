import HanabiBot.Lib.Runs
import HanabiBot.Lobby.Table
import HanabiBot.Lobby.Writes

/-! # The answers to joins

`join_session` and `join_random_session` decide on a join in a section under the lock, and answer it
later, without the lock, when the table may be another. `joinSpecific` and `joinRandom` are the two as
operations on a table, with nobody else there: the answer, and the table they leave.

In every run each answer to a join is the answer of that operation at one moment between the request
and the answer, and in that step the table became the one that the operation leaves. And whoever gets
a `CreateSessionAck` has opened the session it names (`linearizable`). -/

namespace HanabiBot.Lobby.Answers

open HanabiBot.Lib.Runs HanabiBot.Common.Messages HanabiBot.HanabiGame.State
open HanabiBot.Lobby.Sessions HanabiBot.Lobby.Machine HanabiBot.Lobby.Moves HanabiBot.Lobby.Sections
open HanabiBot.Lobby.Table HanabiBot.Lobby.Handshake HanabiBot.Lobby.Writes

/-! ### The operations -/

section Operations
variable (isOpen : Conn → Bool) (s : Sys) (player : Player)

/-- The table with the session joined. -/
def withSession (id : ℤ) (node : Node) (session : Session) : Table :=
  s.sessions.insert id { node with session := session }

/-- A join of a session. -/
def joinSpecific (id : ℤ) : JoinSessionAck × Table :=
  match s.sessions.lookup id with
  | none => (⟨some .failed, some "Session does not exist!", none⟩, s.sessions)
  | some node =>
    if Session.maxPlayers ≤ node.session.numPlayers then
      (⟨some .failed, some "Session is full!", none⟩, s.sessions)
    else
      match node.session.join isOpen player with
      | none => (⟨some .failed, some "Failed to join session! (Unknown error)", none⟩, s.sessions)
      | some session =>
        (⟨some .succeed, some "Successfully joined session!", some id⟩, withSession s id node session)

/-- A join of the first session in the order that takes the player. -/
def joinRandom (order : List ℤ) : JoinRandomSessionAck × Table :=
  match firstJoin s isOpen player order with
  | some (id, node, session) =>
    (⟨some .existingSession, some id, some "Joined Existing Session!"⟩, withSession s id node session)
  | none =>
    (⟨some .newSession, none, some "No available sessions found! Creating a new session..."⟩,
      s.sessions)

/-- The join that a request asks for. -/
def joinFor (l : Label) (m : NewConnection) : Packet × Table :=
  if m.getOperation = .joinSpecificSession then
    (joinSpecific l.isOpen s (l.player m.getName) m.getSessionId).map .joinSessionAck id
  else
    (joinRandom l.isOpen s (l.player m.getName) l.order).map .joinRandomSessionAck id

end Operations

/-! ### What a thread answers -/

/-- The acknowledgement that a thread writes next. -/
def acknowledges (t : Conn) : Pc → Option Write
  | .createAck h => some (h.socket,
    .createSessionAck ⟨some .succeed, some "Session created successfully!", some h.id⟩)
  | .createRefuse h => some (h.socket,
    .createSessionAck ⟨some .failed, some "Not enough players to start the game!", some h.id⟩)
  | .createAccept h => some (h.socket,
    .createSessionAck ⟨some .succeed, some "You have started the game!", some h.id⟩)
  | .joinRefuse _ message => some (t, .joinSessionAck ⟨some .failed, some message, none⟩)
  | .joinAck _ id => some (t,
    .joinSessionAck ⟨some .succeed, some "Successfully joined session!", some id⟩)
  | .randomAck _ id _ => some (t,
    .joinRandomSessionAck ⟨some .existingSession, some id, some "Joined Existing Session!"⟩)
  | .randomNew _ => some (t, .joinRandomSessionAck
    ⟨some .newSession, none, some "No available sessions found! Creating a new session..."⟩)
  | _ => none

/-- The packet answers a join. -/
def IsJoinAnswer : Packet → Prop
  | .joinSessionAck _ | .joinRandomSessionAck _ => True
  | _ => False

/-- The packet acknowledges an operation. -/
def IsAnswer : Packet → Prop
  | .createSessionAck _ | .joinSessionAck _ | .joinRandomSessionAck _ => True
  | _ => False

section Step
variable {p : Parsers} {s s' : Sys} {l : Label} {w : Write}

/-- A section that writes one acknowledgement, or ends the process. -/
theorem sent_write (hlive : s.crash = none) {next : Sys} (hact : act p s l = some (.write [w] next))
    (hsent : next.sent = s.sent) (hs : step p s l = some s') :
    s'.sent = s.sent ∨ s'.sent = s.sent ++ [w] := by
  by_cases hout : AllOut l.writeOk [w]
  · cases (step_write hlive hact hout).symm.trans hs
    exact Or.inr (congrArg (· ++ [w]) hsent)
  · cases (step_escape hlive hact hout).symm.trans hs
    refine Or.inl ?_
    rw [writesOut_single hout, hsent, List.append_nil]

theorem sent_withPlayer (hlive : s.crash = none) {c : Conn} {next : Sys}
    (hact : act p s l = some (withPlayer s l c (.write [w] next))) (hsent : next.sent = s.sent)
    (hs : step p s l = some s') : s'.sent = s.sent ∨ s'.sent = s.sent ++ [w] := by
  unfold withPlayer at hact
  split_ifs at hact
  · cases (step_crash hlive hact).symm.trans hs
    exact Or.inl rfl
  · exact sent_write hlive hact hsent hs

/-- **A thread writes its acknowledgement**, or dies. -/
theorem acknowledges_sent (hs : step p s l = some s')
    (ha : acknowledges l.thread (s.pc l.thread) = some w) :
    s'.sent = s.sent ∨ s'.sent = s.sent ++ [w] := by
  have hlive := step_live hs
  cases hpc : s.pc l.thread with
  | createAck h =>
    rw [hpc] at ha
    cases ha
    have hact : act p s l = some (createAck s l h .succeed "Session created successfully!"
        (.createWait h)) := by unfold act; rw [hpc]
    exact sent_withPlayer hlive hact rfl hs
  | createRefuse h =>
    rw [hpc] at ha
    cases ha
    have hact : act p s l = some (createAck s l h .failed "Not enough players to start the game!"
        (.createWait h)) := by unfold act; rw [hpc]
    exact sent_withPlayer hlive hact rfl hs
  | createAccept h =>
    rw [hpc] at ha
    cases ha
    have hact : act p s l = some (createAck s l h .succeed "You have started the game!"
        (.createBroadcast h)) := by unfold act; rw [hpc]
    exact sent_withPlayer hlive hact rfl hs
  | joinRefuse joiner message =>
    rw [hpc] at ha
    cases ha
    have hact : act p s l = some (.write
        [(l.thread, .joinSessionAck ⟨some .failed, some message, none⟩)]
        ((s.destroy [l.player joiner]).setPc l.thread .done)) := by unfold act; rw [hpc]
    exact sent_write hlive hact rfl hs
  | joinAck player id =>
    rw [hpc] at ha
    cases ha
    have hact : act p s l = some (withPlayer s l l.thread (.write
        [(l.thread,
          .joinSessionAck ⟨some .succeed, some "Successfully joined session!", some id⟩)]
        (s.setPc l.thread (.joinBroadcast player id)))) := by unfold act; rw [hpc]
    exact sent_withPlayer hlive hact rfl hs
  | randomAck player id uid =>
    rw [hpc] at ha
    cases ha
    have hact : act p s l = some (withNode s l id uid fun _ => withPlayer s l l.thread (.write
        [(l.thread, .joinRandomSessionAck
          ⟨some .existingSession, some id, some "Joined Existing Session!"⟩)]
        (s.setPc l.thread (.randomBroadcast player id uid)))) := by
      unfold act
      rw [hpc]
    unfold withNode at hact
    split at hact
    · exact sent_withPlayer hlive hact rfl hs
    · cases (step_crash hlive hact).symm.trans hs
      exact Or.inl rfl
  | randomNew joiner =>
    rw [hpc] at ha
    cases ha
    have hact : act p s l = some (.write [(l.thread, .joinRandomSessionAck
        ⟨some .newSession, none, some "No available sessions found! Creating a new session..."⟩)]
        (s.setPc l.thread (.createEmplace joiner))) := by unfold act; rw [hpc]
    exact sent_write hlive hact rfl hs
  | _ => rw [hpc] at ha; cases ha

/-- A thread that tells no news acknowledges something, or greets. -/
theorem speaks_acknowledges {t : Conn} {ws : List Write} {pc pc' : Pc} (h : Speaks s t pc ws pc')
    (hpc : addresses pc = false) : acknowledges t pc ≠ none ∨ ∃ m, ws = [(t, .ack m)] := by
  cases h with
  | greet m => exact Or.inr ⟨m, rfl⟩
  | createInvalidate | createBroadcast | joinBroadcast | randomBroadcast => cases hpc
  | _ => exact Or.inl nofun

/-- **Where an acknowledgement comes from.** -/
theorem step_acknowledges (hs : step p s l = some s') (hw : w ∈ s'.sent) (ha : IsAnswer w.2) :
    w ∈ s.sent ∨ acknowledges l.thread (s.pc l.thread) = some w := by
  obtain ⟨c, packet⟩ := w
  have hsame (hsent : s'.sent = s.sent) :
      (c, packet) ∈ s.sent ∨ acknowledges l.thread (s.pc l.thread) = some (c, packet) :=
    Or.inl (hsent ▸ hw)
  by_cases haddr : addresses (s.pc l.thread) = true
  · obtain ⟨s'', ws, hs'', hsent, hnews, -⟩ := step_tells (p := p) (step_live hs) haddr
    cases hs.symm.trans hs''
    rw [hsent] at hw
    rcases List.mem_append.mp hw with hw | hw
    · exact Or.inl hw
    · have hn := hnews _ hw
      cases packet <;> first | exact ha.elim | exact hn.elim
  · have hsilent : addresses (s.pc l.thread) = false := eq_false_of_ne_true haddr
    cases (step_move hs).1 with
    | speaks ws pc' hspeaks hout hk hpc hsent =>
      rcases speaks_acknowledges hspeaks hsilent with hne | ⟨m, rfl⟩
      · obtain ⟨w, hw'⟩ := Option.ne_none_iff_exists'.mp hne
        rcases acknowledges_sent hs hw' with hsent | hsent
        · exact hsame hsent
        · rw [hsent] at hw
          rcases List.mem_append.mp hw with hw | hw
          · exact Or.inl hw
          · exact Or.inr (List.mem_singleton.mp hw ▸ hw')
      · rw [hsent] at hw
        rcases List.mem_append.mp hw with hw | hw
        · exact Or.inl hw
        · cases List.mem_singleton.mp hw
          exact ha.elim
    | cut ws pc' hspeaks hout hk hpc hsent =>
      rw [speaks_cut hspeaks hsilent hout, List.append_nil] at hsent
      exact hsame hsent
    | plays game call w hplays hk hpc hsent =>
      generalize s.pc l.thread = pc at hplays hsilent
      cases hplays <;> cases hsilent
    | thinks pc' hthinks hk hpc hsent => exact hsame hsent
    | dies hreads hk hpc hsent => exact hsame hsent
    | inserted leader hpc hnew hs hu hj hg hpc' hsent => exact hsame hsent
    | collided leader first node hpc hold hfirst hk hpc' hsent => exact hsame hsent
    | madeUp id hpc hnew hs hu hj hg hpc' hsent => exact hsame hsent
    | joined name id node hold haccept hpc hs hu hj hg hsent => exact hsame hsent
    | moved k node hpc hold huid hs hu hj hg hpc' hsent => exact hsame hsent
    | erased k hpc hs hu hj hg hsent => exact hsame hsent

end Step

/-! ### The sections -/

section Sections
variable {p : Parsers} {s s' : Sys} {l : Label}

/-- **The section of `join_session`** does the operation. -/
theorem step_joinLock (hs : step p s l = some s') {name : String} {id : ℤ}
    (hpc : s.pc l.thread = .joinLock name id) :
    acknowledges l.thread (s'.pc l.thread) = some (l.thread, .joinSessionAck
        (joinSpecific l.isOpen s (l.player name) id).1) ∧
      s'.sessions = (joinSpecific l.isOpen s (l.player name) id).2 := by
  have hact : act p s l = some (joinLock s l name id) := by
    unfold act
    rw [hpc]
  have hstep {next : Sys} (h : joinLock s l name id = .write [] next) : s' = next := by
    rw [h] at hact
    exact Option.some.inj (hs.symm.trans (step_silent (step_live hs) hact))
  unfold joinLock at hstep
  unfold joinSpecific
  cases hl : s.sessions.lookup id with
  | none =>
    simp only [hl] at hstep
    cases hstep rfl
    exact ⟨congrArg (acknowledges l.thread) (setPc_self ..), rfl⟩
  | some node =>
    simp only [hl] at hstep ⊢
    split_ifs at hstep ⊢ with hfull
    · cases hstep rfl
      exact ⟨congrArg (acknowledges l.thread) (setPc_self ..), rfl⟩
    · cases hj : node.session.join l.isOpen (l.player name) with
      | none =>
        simp only [hj] at hstep
        cases hstep rfl
        exact ⟨congrArg (acknowledges l.thread) (setPc_self ..), rfl⟩
      | some session =>
        simp only [hj] at hstep
        cases hstep rfl
        exact ⟨congrArg (acknowledges l.thread) (setPc_self ..), rfl⟩

/-- **The section of `join_random_session`** does the operation. -/
theorem step_randomLock (hs : step p s l = some s') {name : String}
    (hpc : s.pc l.thread = .randomLock name) :
    l.order.Perm s.sessions.keys ∧
      acknowledges l.thread (s'.pc l.thread) = some (l.thread, .joinRandomSessionAck
        (joinRandom l.isOpen s (l.player name) l.order).1) ∧
      s'.sessions = (joinRandom l.isOpen s (l.player name) l.order).2 := by
  have hact : act p s l =
      if l.order.Perm s.sessions.keys then some (randomLock s l name) else none := by
    unfold act
    rw [hpc]
  by_cases hperm : l.order.Perm s.sessions.keys
  · rw [if_pos hperm] at hact
    refine ⟨hperm, ?_⟩
    have hstep {next : Sys} (h : randomLock s l name = .write [] next) : s' = next := by
      rw [h] at hact
      exact Option.some.inj (hs.symm.trans (step_silent (step_live hs) hact))
    unfold randomLock at hstep
    unfold joinRandom
    cases hf : firstJoin s l.isOpen (l.player name) l.order with
    | none =>
      simp only [hf] at hstep
      cases hstep rfl
      exact ⟨congrArg (acknowledges l.thread) (setPc_self ..), rfl⟩
    | some found =>
      obtain ⟨id, node, session⟩ := found
      simp only [hf] at hstep
      cases hstep rfl
      exact ⟨congrArg (acknowledges l.thread) (setPc_self ..), rfl⟩
  · rw [if_neg hperm] at hact
    unfold step at hs
    rw [step_live hs, hact] at hs
    cases hs

end Sections

/-! ### Where a thread comes from -/

section Origins
variable {p : Parsers} {s s' : Sys} {l : Label} {c : Conn}

/-- The thread of `c` reads the request `m`. -/
def Reads (p : Parsers) (c : Conn) (m : NewConnection) (s : Sys) (l : Label) : Prop :=
  l.thread = c ∧ s.pc c = .readConnection ∧ l.received.bind p.connection = some m

/-- The thread has the lock of a join before it. -/
def deciding : Pc → Bool
  | .joinLock _ _ | .randomLock _ => true
  | _ => false

/-- A thread that has a join to decide on has just read it. -/
theorem step_deciding (hs : step p s l = some s') (h : deciding (s'.pc c) = true) :
    s'.pc c = s.pc c ∨ ∃ m, Reads p c m s l ∧ m.getOperation ≠ .createSession ∧
      s'.pc c = if m.getOperation = .joinSpecificSession then .joinLock m.getName m.getSessionId
        else .randomLock m.getName := by
  by_cases hc : c = l.thread
  · subst hc
    cases (step_move hs).1 with
    | speaks ws pc' hspeaks hout hk hpc hsent =>
      rw [hpc] at h
      generalize s.pc l.thread = pc at hspeaks
      cases hspeaks <;> cases h
    | cut ws pc' hspeaks hout hk hpc hsent => exact Or.inl hpc
    | thinks pc' hthinks hk hpc hsent =>
      rw [hpc] at h ⊢
      generalize hold : s.pc l.thread = pc at hthinks
      cases hthinks with
      | specific b m hb hm hop =>
        refine Or.inr ⟨m, ⟨rfl, hold, by rw [hb]; exact hm⟩, by rw [hop]; decide, ?_⟩
        rw [if_pos hop]
      | random b m hb hm hop hop' =>
        refine Or.inr ⟨m, ⟨rfl, hold, by rw [hb]; exact hm⟩, hop, ?_⟩
        rw [if_neg hop']
      | _ => cases h
    | plays game call w hplays hk hpc hsent =>
      rcases hpc with hpc | hpc | hpc
      · rw [hpc] at h
        cases h
      · rw [hpc] at h
        cases h
      · exact Or.inl hpc
    | dies hreads hk hpc hsent => exact Or.inl hpc
    | inserted leader hpc hnew hs hu hj hg hpc' hsent => rw [hpc'] at h; cases h
    | collided leader first node hpc hold hfirst hk hpc' hsent => rw [hpc'] at h; cases h
    | madeUp id hpc hnew hs hu hj hg hpc' hsent =>
      rcases hpc' with hpc' | ⟨-, hpc'⟩
      · exact Or.inl hpc'
      · rw [hpc'] at h
        cases h
    | joined name id node hold haccept hpc hs hu hj hg hsent =>
      rcases hpc with ⟨-, hpc'⟩ | ⟨-, hpc'⟩ <;> rw [hpc'] at h <;> cases h
    | moved k node hpc hold huid hs hu hj hg hpc' hsent => rw [hpc'] at h; cases h
    | erased k hpc hs hu hj hg hsent =>
      rcases hpc with ⟨-, hpc'⟩ | ⟨game, -, hpc'⟩ <;> rw [hpc'] at h <;> cases h
  · exact Or.inl ((step_move hs).2 c hc)

/-- A thread that has a join to answer has just decided on it. -/
theorem step_decided (hs : step p s l = some s') {packet : Packet} (hj : IsJoinAnswer packet)
    (h : acknowledges c (s'.pc c) = some (c, packet)) :
    s'.pc c = s.pc c ∨ l.thread = c ∧ deciding (s.pc c) = true := by
  by_cases hc : c = l.thread
  · subst hc
    have hsilent (hpc : acknowledges l.thread (s'.pc l.thread) = none) : False := by
      rw [hpc] at h
      cases h
    cases (step_move hs).1 with
    | speaks ws pc' hspeaks hout hk hpc hsent =>
      refine (hsilent ?_).elim
      rw [hpc]
      generalize s.pc l.thread = pc at hspeaks
      cases hspeaks <;> rfl
    | cut ws pc' hspeaks hout hk hpc hsent => exact Or.inl hpc
    | thinks pc' hthinks hk hpc hsent =>
      rw [hpc] at h
      generalize s.pc l.thread = pc at hthinks ⊢
      cases hthinks with
      | refused => exact Or.inr ⟨rfl, rfl⟩
      | noSession => exact Or.inr ⟨rfl, rfl⟩
      | logged | alone | starts =>
        obtain rfl := (Prod.mk.inj (Option.some.inj h)).2
        exact hj.elim
      | _ => cases h
    | plays game call w hplays hk hpc hsent =>
      rcases hpc with hpc | hpc | hpc
      · exact (hsilent (by rw [hpc]; rfl)).elim
      · exact (hsilent (by rw [hpc]; rfl)).elim
      · exact Or.inl hpc
    | dies hreads hk hpc hsent => exact Or.inl hpc
    | inserted leader hpc hnew hs hu hj hg hpc' hsent =>
      exact (hsilent (by rw [hpc']; rfl)).elim
    | collided leader first node hpc hold hfirst hk hpc' hsent =>
      exact (hsilent (by rw [hpc']; rfl)).elim
    | madeUp id hpc hnew hs hu hj hg hpc' hsent =>
      rcases hpc' with hpc' | ⟨-, hpc'⟩
      · exact Or.inl hpc'
      · exact (hsilent (by rw [hpc']; rfl)).elim
    | joined name id node hold haccept hpc hs hu hj hg hsent =>
      rcases hpc with ⟨hpc, -⟩ | ⟨hpc, -⟩ <;> exact Or.inr ⟨rfl, by rw [hpc]; rfl⟩
    | moved k node hpc hold huid hs hu hj hg hpc' hsent =>
      exact (hsilent (by rw [hpc']; rfl)).elim
    | erased k hpc hs hu hj hg hsent =>
      rcases hpc with ⟨-, hpc'⟩ | ⟨game, -, hpc'⟩ <;>
        exact (hsilent (by rw [hpc']; rfl)).elim
  · exact Or.inl ((step_move hs).2 c hc)

/-- A join is answered to the one who asked. -/
theorem acknowledges_self {t : Conn} {pc : Pc} {packet : Packet} (hj : IsJoinAnswer packet)
    (h : acknowledges t pc = some (c, packet)) : c = t := by
  cases pc with
  | createAck | createRefuse | createAccept =>
    obtain rfl := (Prod.mk.inj (Option.some.inj h)).2
    exact hj.elim
  | joinRefuse | joinAck | randomAck | randomNew =>
    exact (Prod.mk.inj (Option.some.inj h)).1.symm
  | _ => cases h

end Origins

/-! ### The runs -/

section Runs
variable {p : Parsers} {s : Sys} {run : List Label} {c : Conn} {packet : Packet}

/-- The request `m` has been read from `c`. -/
def Requested (p : Parsers) (c : Conn) (m : NewConnection) (run : List Label) : Prop :=
  Sometime (step p) (fun _ s l => Reads p c m s l) init run

/-- The label is the moment of an answer to a join: the table is the one the operation leaves, and
its request has been read before. A random join looks at all sessions there are. -/
def Decides (p : Parsers) (c : Conn) (packet : Packet) (before : List Label) (s : Sys) (l : Label) :
    Prop :=
  ∃ m s', Requested p c m before ∧ m.getOperation ≠ .createSession ∧ l.thread = c ∧
    step p s l = some s' ∧ joinFor s l m = (packet, s'.sessions) ∧
      (m.getOperation ≠ .joinSpecificSession → l.order.Perm s.sessions.keys)

/-- A thread with a join before it has read the request for it. -/
theorem requested (hr : reach (step p) init run = some s) (h : deciding (s.pc c) = true) :
    ∃ m, Requested p c m run ∧ m.getOperation ≠ .createSession ∧
      s.pc c = if m.getOperation = .joinSpecificSession then .joinLock m.getName m.getSessionId
        else .randomLock m.getName := by
  have hread : Sometime (step p) (fun _ s1 l => ∃ m, Reads p c m s1 l ∧
      m.getOperation ≠ .createSession ∧
      s.pc c = if m.getOperation = .joinSpecificSession then .joinLock m.getName m.getSessionId
        else .randomLock m.getName) init run := by
    refine sometime_of_acquired (P := fun s1 => s1.pc c = s.pc c) (fun hpc => ?_)
      (fun before s1 l s2 _ hs hpc => ?_) hr rfl
    · rw [← hpc] at h
      cases h
    · rcases step_deciding hs (hpc.symm ▸ h) with hsame | hreads
      · exact Or.inl (hsame.symm.trans hpc)
      · exact Or.inr (hpc ▸ hreads)
  obtain ⟨before, l, after, s1, hrun, hr1, m, hreads, hop, hpc⟩ := hread
  exact ⟨m, ⟨before, l, after, s1, hrun, hr1, hreads⟩, hop, hpc⟩

/-- **A decision** is the operation that was asked for. -/
theorem decides {before : List Label} {s s' : Sys} {l : Label}
    (hr : reach (step p) init before = some s) (hs : step p s l = some s')
    (hpc : deciding (s.pc l.thread) = true)
    (ha : acknowledges l.thread (s'.pc l.thread) = some (l.thread, packet)) :
    Decides p l.thread packet before s l := by
  obtain ⟨m, hm, hop, hpc⟩ := requested hr hpc
  refine ⟨m, s', hm, hop, rfl, hs, ?_⟩
  unfold joinFor
  split_ifs at hpc ⊢ with hspecific
  · obtain ⟨hack, hsessions⟩ := step_joinLock hs hpc
    obtain rfl := (Prod.mk.inj (Option.some.inj (hack.symm.trans ha))).2
    exact ⟨Prod.ext rfl hsessions.symm, fun hne => absurd hspecific hne⟩
  · obtain ⟨hperm, hack, hsessions⟩ := step_randomLock hs hpc
    obtain rfl := (Prod.mk.inj (Option.some.inj (hack.symm.trans ha))).2
    exact ⟨Prod.ext rfl hsessions.symm, fun _ => hperm⟩

/-- **An answer to a join has been decided on.** -/
theorem decided (hr : reach (step p) init run = some s) (hj : IsJoinAnswer packet)
    (hw : (c, packet) ∈ s.sent) : Sometime (step p) (Decides p c packet) init run := by
  have ha : IsAnswer packet := by
    cases packet <;> trivial
  have hwrites : Sometime (step p) (fun _ s l =>
      acknowledges l.thread (s.pc l.thread) = some (c, packet)) init run :=
    sometime_of_acquired (P := fun s => (c, packet) ∈ s.sent) (List.not_mem_nil)
      (fun _ _ _ _ _ hs hw => step_acknowledges hs hw ha) hr hw
  obtain ⟨before, l, after, s1, rfl, hr1, hack⟩ := hwrites
  obtain rfl := acknowledges_self hj hack
  refine Sometime.append ?_ _
  refine sometime_of_acquired (P := fun s => acknowledges l.thread (s.pc l.thread) =
    some (l.thread, packet)) (fun h => ?_) (fun before s1 k s2 hr hs hack => ?_) hr1 hack
  · cases h
  rcases step_decided hs hj hack with hsame | ⟨hk, hdeciding⟩
  · exact Or.inl (hsame ▸ hack)
  · rw [← hk] at hack hdeciding ⊢
    exact Or.inr (decides hr hs hdeciding hack)

/-- The label is the moment in which the thread of `c` takes a seat in session `id`. -/
def Joins (p : Parsers) (c : Conn) (id : ℤ) (name : String) (s : Sys) (l : Label) : Prop :=
  l.thread = c ∧ ∃ node session s', s.sessions.lookup id = some node ∧
    node.session.join l.isOpen ⟨name, c⟩ = some session ∧ step p s l = some s' ∧
      s'.sessions = withSession s id node session

/-- Who is told that it has joined has a seat. -/
theorem joins_of_specific {before : List Label} {s : Sys} {l : Label} {m : JoinSessionAck}
    (h : Decides p c (.joinSessionAck m) before s l) (hm : m.status = some .succeed) :
    ∃ r, Requested p c r before ∧ m.sessionId = some r.getSessionId ∧
      Joins p c r.getSessionId r.getName s l := by
  obtain ⟨r, s', hr, -, rfl, hs, hanswer, -⟩ := h
  unfold joinFor at hanswer
  split_ifs at hanswer with hop
  · obtain ⟨hack, hsessions⟩ := Prod.mk.inj hanswer
    obtain rfl := Packet.joinSessionAck.inj hack
    refine ⟨r, hr, ?_⟩
    cases hl : s.sessions.lookup r.getSessionId with
    | none =>
      simp only [hl] at hm
      cases hm
    | some node =>
      simp only [hl] at hm hsessions ⊢
      split_ifs at hm hsessions ⊢ with hfull
      · cases hm
      · cases hj : node.session.join l.isOpen (l.player r.getName) with
        | none =>
          simp only [hj] at hm
          cases hm
        | some session =>
          simp only [hj] at hsessions
          exact ⟨rfl, rfl, node, session, s', hl, hj, hs, hsessions.symm⟩
  · cases (Prod.mk.inj hanswer).1

theorem joins_of_random {before : List Label} {s : Sys} {l : Label} {m : JoinRandomSessionAck}
    (h : Decides p c (.joinRandomSessionAck m) before s l)
    (hm : m.sessionType = some .existingSession) :
    ∃ r id, Requested p c r before ∧ m.sessionId = some id ∧ Joins p c id r.getName s l := by
  obtain ⟨r, s', hr, -, rfl, hs, hanswer, -⟩ := h
  unfold joinFor at hanswer
  split_ifs at hanswer with hop
  · cases (Prod.mk.inj hanswer).1
  · obtain ⟨hack, hsessions⟩ := Prod.mk.inj hanswer
    obtain rfl := Packet.joinRandomSessionAck.inj hack
    cases hf : firstJoin s l.isOpen (l.player r.getName) l.order with
    | none =>
      simp only [hf] at hm
      cases hm
    | some found =>
      obtain ⟨id, node, session⟩ := found
      simp only [hf] at hsessions ⊢
      obtain ⟨hl, hj⟩ := firstJoin_some hf
      exact ⟨r, id, hr, rfl, rfl, node, session, s', hl, hj, hs, hsessions.symm⟩

/-- The label is the moment in which the thread of `c` opens session `id`, with its client as the
leader. -/
def Opens (p : Parsers) (c : Conn) (id : ℤ) (s : Sys) (l : Label) : Prop :=
  l.thread = c ∧ s.sessions.lookup id = none ∧ ∃ name s', s.pc c = .createEmplace name ∧
    step p s l = some s' ∧ s'.sessions = s.sessions.insert id
      ⟨s.nextUid, some c, .ofLeader ⟨name, c⟩ id⟩

/-- The client leads session `id`, or a call of `create_session` takes it for its leader. -/
def LeaderOf (c : Conn) (id : ℤ) (s : Sys) : Prop :=
  (∃ node first, s.sessions.lookup id = some node ∧ node.session.players.head? = some first ∧
    first.socket = c) ∨
  ∃ t h moved, (s.pc t).hold = some (h, moved) ∧ h.id = id ∧ h.socket = c

theorem step_leaderOf {s' : Sys} {l : Label} {id : ℤ} (hs : step p s l = some s')
    (h : LeaderOf c id s') : LeaderOf c id s ∨ Opens p c id s l := by
  obtain ⟨htable, hothers⟩ := step_table hs
  -- a hold of another thread, or of this one if it is as it was
  have hholds {t : Conn} {k : Hold} {moved : Bool} (hh : (s'.pc t).hold = some (k, moved))
      (hid : k.id = id) (hc : k.socket = c)
      (hown : t = l.thread → LeaderOf c id s ∨ Opens p c id s l) :
      LeaderOf c id s ∨ Opens p c id s l := by
    by_cases ht : t = l.thread
    · exact hown ht
    · exact Or.inl (Or.inr ⟨t, k, moved, hothers t ht ▸ hh, hid, hc⟩)
  cases htable with
  | quiet hsess hu hh =>
    rw [LeaderOf, hsess] at h
    rcases h with hnode | ⟨t, k, moved, hk, hid, hc⟩
    · exact Or.inl (Or.inl hnode)
    · exact hholds hk hid hc fun ht =>
        Or.inl (Or.inr ⟨l.thread, k, moved, hh ▸ ht ▸ hk, hid, hc⟩)
  | inserted leader hpc hnew hsess hu hpc' =>
    have hopens : Opens p l.thread s.size s l := ⟨rfl, hnew, leader, s', hpc, hs, hsess⟩
    rcases h with ⟨node, first, hl, hfirst, rfl⟩ | ⟨t, k, moved, hk, rfl, rfl⟩
    · rw [hsess] at hl
      rcases lookup_insert_cases hl with ⟨rfl, rfl⟩ | ⟨-, hl⟩
      · cases hfirst
        exact Or.inr hopens
      · exact Or.inl (Or.inl ⟨node, first, hl, hfirst, rfl⟩)
    · refine hholds hk rfl rfl ?_
      rintro rfl
      rw [hpc'] at hk
      cases hk
      exact Or.inr hopens
  | collided leader first node hpc hold hfirst hsess hu hpc' =>
    rcases h with ⟨node', first', hl, hfirst', rfl⟩ | ⟨t, k, moved, hk, rfl, rfl⟩
    · exact Or.inl (Or.inl ⟨node', first', hsess ▸ hl, hfirst', rfl⟩)
    · refine hholds hk rfl rfl ?_
      rintro rfl
      rw [hpc'] at hk
      cases hk
      exact Or.inl (Or.inl ⟨node, first, hold, hfirst, rfl⟩)
  | madeUp made hpc hnew hsess hu hh =>
    rcases h with ⟨node, first, hl, hfirst, rfl⟩ | ⟨t, k, moved, hk, rfl, rfl⟩
    · rw [hsess] at hl
      rcases lookup_insert_cases hl with ⟨rfl, rfl⟩ | ⟨-, hl⟩
      · cases hfirst
      · exact Or.inl (Or.inl ⟨node, first, hl, hfirst, rfl⟩)
    · exact hholds hk rfl rfl fun ht =>
        Or.inl (Or.inr ⟨l.thread, k, moved, hh ▸ ht ▸ hk, rfl, rfl⟩)
  | joined jid old joiner hh hold hne hsess hu hh' =>
    rcases h with ⟨node, first, hl, hfirst, rfl⟩ | ⟨t, k, moved, hk, rfl, rfl⟩
    · rw [hsess] at hl
      rcases lookup_insert_cases hl with ⟨rfl, rfl⟩ | ⟨-, hl⟩
      · rw [List.head?_append_of_ne_nil _ hne] at hfirst
        exact Or.inl (Or.inl ⟨old, first, hold, hfirst, rfl⟩)
      · exact Or.inl (Or.inl ⟨node, first, hl, hfirst, rfl⟩)
    · refine hholds hk rfl rfl ?_
      rintro rfl
      rw [hh'] at hk
      cases hk
  | moved k old game hpc hold huid hsess hu hpc' =>
    rcases h with ⟨node, first, hl, hfirst, rfl⟩ | ⟨t, k', moved, hk, rfl, rfl⟩
    · rw [hsess] at hl
      rcases lookup_insert_cases hl with ⟨rfl, rfl⟩ | ⟨-, hl⟩
      · cases hfirst
      · exact Or.inl (Or.inl ⟨node, first, hl, hfirst, rfl⟩)
    · refine hholds hk rfl rfl ?_
      rintro rfl
      rw [hpc'] at hk
      cases hk
      exact Or.inl (Or.inr ⟨l.thread, k, false, by rw [hpc]; rfl, rfl, rfl⟩)
  | erased k moved hh hsess hu hh' =>
    rcases h with ⟨node, first, hl, hfirst, rfl⟩ | ⟨t, k', moved', hk, rfl, rfl⟩
    · rw [hsess] at hl
      exact Or.inl (Or.inl ⟨node, first, (lookup_erase_some hl).2, hfirst, rfl⟩)
    · refine hholds hk rfl rfl ?_
      rintro rfl
      rw [hh'] at hk
      cases hk

/-- **Whoever is told of a session as its leader has opened it**, even where the thread that tells
has found the key taken. -/
theorem opened (hr : reach (step p) init run = some s) {m : CreateSessionAck}
    (hw : (c, .createSessionAck m) ∈ s.sent) :
    ∃ id, m.sessionId = some id ∧ Sometime (step p) (fun _ s l => Opens p c id s l) init run := by
  have ha : IsAnswer (.createSessionAck m) := trivial
  have hwrites : Sometime (step p) (fun _ s l =>
      acknowledges l.thread (s.pc l.thread) = some (c, .createSessionAck m)) init run :=
    sometime_of_acquired (P := fun s => (c, .createSessionAck m) ∈ s.sent) (List.not_mem_nil)
      (fun _ _ _ _ _ hs hw => step_acknowledges hs hw ha) hr hw
  obtain ⟨before, l, after, s1, rfl, hr1, hack⟩ := hwrites
  obtain ⟨h, hh, rfl, hid⟩ : ∃ h, (s1.pc l.thread).hold = some (h, false) ∧ h.socket = c ∧
      m.sessionId = some h.id := by
    generalize s1.pc l.thread = pc at hack
    cases pc <;> cases hack <;> exact ⟨_, rfl, rfl, rfl⟩
  refine ⟨h.id, hid, Sometime.append ?_ _⟩
  have hstep (s1 : Sys) (k : Label) (s2 : Sys) (hs : step p s1 k = some s2)
      (hl : LeaderOf h.socket h.id s2) :
      LeaderOf h.socket h.id s1 ∨ Opens p h.socket h.id s1 k := step_leaderOf hs hl
  refine sometime_of_acquired (P := LeaderOf h.socket h.id) ?_ (fun _ s1 k s2 _ => hstep s1 k s2) hr1
    (Or.inr ⟨l.thread, h, false, hh, rfl, rfl⟩)
  rintro (⟨node, first, hl, -⟩ | ⟨t, k, moved, hk, -⟩)
  · cases hl
  · cases hk

/-- **The answers are linearizable**: in every run, each answer to a join was the answer of the
operation at one moment, behind the read of the request and before the write of the answer; and of
an acknowledged session there was one moment at which its leader has opened it. -/
theorem linearizable (p : Parsers) (run : List Label) (s : Sys)
    (hr : reach (step p) init run = some s) (c : Conn) (packet : Packet)
    (hw : (c, packet) ∈ s.sent) :
    (IsJoinAnswer packet → Sometime (step p) (Decides p c packet) init run) ∧
      ∀ m, packet = .createSessionAck m → ∃ id, m.sessionId = some id ∧
        Sometime (step p) (fun _ s l => Opens p c id s l) init run := by
  refine ⟨fun hj => decided hr hj hw, ?_⟩
  rintro m rfl
  exact opened hr hw

/-- A leader, and two clients that join its session: the lock goes to the second of them before the
answer to the first is written. -/
def twoJoins : List Label := List.flatten
  [entering 0 [16, 1], steps 0 3, entering 1 [16, 2, 24, 0], steps 1 1, entering 2 [16, 2, 24, 0],
    steps 2 1, steps 1 1]

theorem twoJoins_runs : (reach (step plainParsers) init twoJoins).isSome = true := by
  decide +kernel

theorem linearizable_twoJoins : Sometime (step plainParsers) (Decides plainParsers 1
    (.joinSessionAck ⟨some .succeed, some "Successfully joined session!", some 0⟩)) init twoJoins :=
  (linearizable plainParsers twoJoins _ (Option.some_get twoJoins_runs).symm 1 _
    (by decide +kernel)).1 trivial

end Runs

end HanabiBot.Lobby.Answers
