import HanabiBot.HanabiGame.Audience
import HanabiBot.Lobby.Failures
import HanabiBot.Lobby.Handshake

/-! # What a step writes

A step writes nothing, or an acknowledgement of its own connection, or a `CreateSessionAck` to the
leader it holds, or news (`WriteStep`). News go to the `audience` of the thread, the players of a
session or of a game, up to the first write that fails: to those that are `reached`. -/

namespace HanabiBot.Lobby.Writes

open HanabiBot.Lib.Calls HanabiBot.Common.Messages HanabiBot.HanabiGame.State
open HanabiBot.HanabiGame.Play HanabiBot.HanabiGame.Audience HanabiBot.Lobby.Sessions
open HanabiBot.Lobby.Machine HanabiBot.Lobby.Moves HanabiBot.Lobby.Sections HanabiBot.Lobby.Failures
open HanabiBot.Lobby.Handshake

/-! ### Frames of one connection -/

/-- What has been written to a connection. -/
def got (sent : List Write) (c : Conn) : List Packet :=
  (sent.filter fun w => w.1 = c).map Prod.snd

section Got
variable {sent ws : List Write} {c : Conn} {packet : Packet}

theorem got_append : got (sent ++ ws) c = got sent c ++ got ws c := by
  unfold got
  rw [List.filter_append, List.map_append]

theorem got_self : got [(c, packet)] c = [packet] := by simp [got]

theorem got_ne {t : Conn} (h : c ≠ t) : got [(t, packet)] c = [] := by simp [got, h.symm]

theorem mem_got : packet ∈ got sent c ↔ (c, packet) ∈ sent := by
  simp [got]

theorem got_eq_nil (h : c ∉ ws.map Prod.fst) : got ws c = [] := by
  unfold got
  rw [List.map_eq_nil_iff, List.filter_eq_nil_iff]
  intro w hw hc
  exact h (List.mem_map.mpr ⟨w, hw, of_decide_eq_true hc⟩)

/-- The first frame of those that go to a connection. -/
theorem got_cons (h : c ∈ ws.map Prod.fst) :
    ∃ packet more, got ws c = packet :: more ∧ (c, packet) ∈ ws := by
  obtain ⟨⟨c', packet⟩, hw, rfl⟩ := List.mem_map.mp h
  cases hgot : got ws c' with
  | nil => exact absurd (mem_got.mpr hw) (hgot ▸ List.not_mem_nil)
  | cons first more => exact ⟨first, more, rfl, mem_got.mp (hgot ▸ List.mem_cons_self)⟩

end Got

/-! ### News -/

theorem news_broadcast (session : Session) (message : String) :
    ∀ w ∈ session.broadcast message, IsNews w.2 := by
  intro w hw
  obtain ⟨player, -, rfl⟩ := List.mem_map.mp hw
  trivial

theorem news_joinNews (session : Session) (player : String) :
    ∀ w ∈ joinNews session player, IsNews w.2 := by
  intro w hw
  rcases List.mem_append.mp hw with hw | hw
  · exact news_broadcast session _ w hw
  · exact news_broadcast session _ w hw

theorem news_ofSent (out : List Sent) : ∀ w ∈ out.map ofSent, IsNews w.2 := by
  intro w hw
  obtain ⟨sent, -, rfl⟩ := List.mem_map.mp hw
  cases sent <;> trivial

theorem fst_ofSent (out : List Sent) : (out.map ofSent).map Prod.fst = out.map Sent.socket := by
  rw [List.map_map]
  refine List.map_congr_left fun sent _ => ?_
  cases sent <;> rfl

/-- The thread tells news: a broadcast of a session, or the turn of a game. -/
def addresses : Pc → Bool
  | .createInvalidate _ | .createBroadcast _ | .joinBroadcast _ _ | .randomBroadcast _ _ _
  | .playing _ | .catching _ => true
  | _ => false

/-- The connections that a thread writes news to in its next step. -/
def audience (s : Sys) (t : Conn) : List Conn :=
  match s.pc t with
  | .playing game => sockets game.players
  | pc => if addresses pc then unguarded s t else []

/-- Those that the news get to, before a write fails. -/
def reached (s : Sys) (l : Label) : List Conn := wentOut l.writeOk 0 (audience s l.thread)

theorem reached_subset {s : Sys} {l : Label} : reached s l ⊆ audience s l.thread :=
  (wentOut_initial 0 _).subset

/-- What a step that tells news adds to what has been written. -/
def Tells (p : Parsers) (s : Sys) (l : Label) : Prop :=
  ∃ s' ws, step p s l = some s' ∧ s'.sent = s.sent ++ ws ∧ (∀ w ∈ ws, IsNews w.2) ∧
    ∀ c, c ∈ ws.map Prod.fst ↔ c ∈ reached s l

section Tells
variable {p : Parsers} {s : Sys} {l : Label} (hlive : s.crash = none)
include hlive

/-- A section writes news to its audience. -/
theorem tells_write {ws : List Write} {next : Sys} (hact : act p s l = some (.write ws next))
    (hnews : ∀ w ∈ ws, IsNews w.2) (hto : ws.map Prod.fst = audience s l.thread)
    (hsent : next.sent = s.sent) : Tells p s l := by
  have hreached (c : Conn) :
      c ∈ (writesOut l.writeOk 0 ws).map Prod.fst ↔ c ∈ reached s l := by
    rw [fst_writesOut, hto, reached]
  have hmore (w : Write) (hw : w ∈ writesOut l.writeOk 0 ws) : IsNews w.2 :=
    hnews w ((writesOut_initial 0 ws).subset hw)
  by_cases hout : AllOut l.writeOk ws
  · refine ⟨_, _, step_write hlive hact hout, ?_, hmore, hreached⟩
    rw [writesOut_of_allOut hout, hsent]
  · exact ⟨_, _, step_escape hlive hact hout, congrArg (· ++ _) hsent, hmore, hreached⟩

/-- A section that finds a player or a session gone has no audience. -/
theorem tells_crash {c : Crash} {next : Sys} (hact : act p s l = some (.crash c next))
    (hto : audience s l.thread = []) (hsent : next.sent = s.sent) : Tells p s l := by
  refine ⟨_, [], step_crash hlive hact, hsent.trans (List.append_nil _).symm, List.forall_mem_nil _,
    fun c => ?_⟩
  rw [reached, hto]
  exact Iff.rfl

/-- So does one that cannot use its reference to a player. -/
theorem tells_withPlayer {c : Conn} {a : Act} {cs : List Conn}
    (hact : act p s l = some (withPlayer s l c a)) (hto : audience s l.thread = ifThere s c cs)
    (h : act p s l = some a → audience s l.thread = cs → Tells p s l) : Tells p s l := by
  unfold withPlayer at hact
  unfold ifThere at hto
  split_ifs at hact hto
  · exact tells_crash hlive hact hto rfl
  · exact h hact hto

theorem tells_withNode {id : ℤ} {uid : ℕ} {a : Node → Act} (cs : Session → List Conn)
    (hact : act p s l = some (withNode s l id uid a))
    (hto : audience s l.thread = ifFound s id uid cs)
    (h : ∀ node, act p s l = some (a node) → audience s l.thread = cs node.session → Tells p s l) :
    Tells p s l := by
  unfold withNode at hact
  unfold ifFound at hto
  cases hfind : s.find id uid with
  | none =>
    rw [hfind] at hact hto
    exact tells_crash hlive hact hto rfl
  | some node =>
    rw [hfind] at hact hto
    exact h node hact hto

/-- The sections of a game. -/
theorem tells_play {game : Game} (hpc : s.pc l.thread = .playing game) : Tells p s l := by
  have hreached (c : Conn) : c ∈ ((after (turn ⟨p.response, l.writeOk⟩ 0)
      ⟨deal game, l.responses, 0, []⟩).out.map ofSent).map Prod.fst ↔ c ∈ reached s l := by
    rw [fst_ofSent, turn_to _ _ rfl, reached, audience, hpc]
    rfl
  have hact : act p s l = some (play p s l game) := by
    unfold act
    rw [hpc]
  unfold play at hact
  split at hact
  · next w hr =>
    rw [after_of_ok hr] at hreached
    exact ⟨_, _, step_silent hlive hact, rfl, news_ofSent _, hreached⟩
  · next x w hr =>
    rw [after_of_error hr] at hreached
    exact ⟨_, _, step_silent hlive hact, rfl, news_ofSent _, hreached⟩
  · next stop w hne hr =>
    rw [after_of_error hr] at hreached
    exact ⟨_, _, step_crash hlive hact, rfl, news_ofSent _, hreached⟩

theorem tells_catchPlay {game : Game} (hpc : s.pc l.thread = .catching game) : Tells p s l := by
  have hreached (c : Conn) : c ∈ ((after (endGame ⟨p.response, l.writeOk⟩)
      ⟨game, [], 0, []⟩).out.map ofSent).map Prod.fst ↔ c ∈ reached s l := by
    rw [fst_ofSent, endGame_to, reached, audience, hpc]
    simp only [unguarded, hpc]
    rfl
  have hact : act p s l = some (catchPlay p s l game) := by
    unfold act
    rw [hpc]
  unfold catchPlay at hact
  split at hact
  · next w hr =>
    rw [after_of_ok hr] at hreached
    exact ⟨_, _, step_silent hlive hact, rfl, news_ofSent _, hreached⟩
  · next x w hr =>
    rw [after_of_error hr] at hreached
    exact ⟨_, _, step_crash hlive hact, rfl, news_ofSent _, hreached⟩
  · next stop w hne hr =>
    rw [after_of_error hr] at hreached
    exact ⟨_, _, step_crash hlive hact, rfl, news_ofSent _, hreached⟩

/-- The sections that tell the players of a session. -/
theorem tells_broadcast {k : Hold} {message : String} {pc' : Pc}
    (hact : act p s l = some (withNode s l k.id k.uid fun node =>
      .write (node.session.broadcast message) (s.setPc l.thread pc')))
    (hto : audience s l.thread = ifFound s k.id k.uid fun session => sockets session.players) :
    Tells p s l :=
  tells_withNode hlive _ hact hto fun _ hact hto =>
    tells_write hlive hact (news_broadcast _ _) ((fst_broadcast _ _).trans hto.symm) rfl

theorem tells_joinBroadcast {player : String} {id : ℤ}
    (hpc : s.pc l.thread = .joinBroadcast player id) : Tells p s l := by
  have hact : act p s l = some (joinBroadcast s l player id) := by
    unfold act
    rw [hpc]
  have hto : audience s l.thread = unguarded s l.thread := by
    unfold audience
    rw [hpc]
    rfl
  unfold unguarded at hto
  rw [hpc] at hto
  unfold joinBroadcast at hact
  cases hl : s.sessions.lookup id with
  | none =>
    rw [subscript_absent s hl] at hact
    simp only [hl] at hto
    unfold withPlayer at hact
    simp only at hact
    split_ifs at hact
    · exact tells_crash hlive hact hto rfl
    · exact tells_write hlive hact (news_joinNews _ _) hto.symm rfl
  | some node =>
    rw [subscript_present s hl] at hact
    simp only [hl] at hto
    exact tells_withPlayer hlive hact hto fun hact hto =>
      tells_write hlive hact (news_joinNews _ _) ((fst_joinNews _ _).trans hto.symm) rfl

theorem tells_randomBroadcast {player : String} {id : ℤ} {uid : ℕ}
    (hpc : s.pc l.thread = .randomBroadcast player id uid) : Tells p s l := by
  have hact : act p s l = some (withNode s l id uid fun node => withPlayer s l l.thread
      (.write (joinNews node.session player) (s.setPc l.thread .done))) := by
    unfold act
    rw [hpc]
  have hto : audience s l.thread = ifFound s id uid fun session =>
      ifThere s l.thread (sockets session.players ++ sockets session.players) := by
    unfold audience unguarded
    rw [hpc]
    rfl
  exact tells_withNode hlive _ hact hto fun _ hact hto => tells_withPlayer hlive hact hto
    fun hact hto =>
      tells_write hlive hact (news_joinNews _ _) ((fst_joinNews _ _).trans hto.symm) rfl

/-- **News reach the audience**, up to the first write that fails. -/
theorem step_tells (h : addresses (s.pc l.thread) = true) : Tells p s l := by
  have hto (hpc : ∀ game, s.pc l.thread ≠ .playing game) :
      audience s l.thread = unguarded s l.thread := by
    unfold audience
    split
    · next game hgame => exact absurd hgame (hpc game)
    · exact if_pos h
  cases hpc : s.pc l.thread with
  | playing game => exact tells_play hlive hpc
  | catching game => exact tells_catchPlay hlive hpc
  | joinBroadcast player id => exact tells_joinBroadcast hlive hpc
  | createInvalidate k =>
    refine tells_broadcast hlive (by unfold act; rw [hpc]; rfl) ((hto ?_).trans ?_)
    · simp [hpc]
    · unfold unguarded
      rw [hpc]
  | createBroadcast k =>
    refine tells_broadcast hlive (by unfold act; rw [hpc]) ((hto ?_).trans ?_)
    · simp [hpc]
    · unfold unguarded
      rw [hpc]
  | randomBroadcast player id uid => exact tells_randomBroadcast hlive hpc
  | _ => rw [hpc] at h; cases h

end Tells

/-! ### All writes -/

/-- The thread acknowledges something to its own connection. -/
def owns : Pc → Bool
  | .greet | .joinRefuse _ _ | .joinAck _ _ | .randomAck _ _ _ | .randomNew _ => true
  | _ => false

/-- What a step writes. -/
inductive WriteStep (s s' : Sys) (l : Label) : Prop where
  | silent (hsent : s'.sent = s.sent)
  | own (packet : Packet) (how : owns (s.pc l.thread) = true)
      (hsent : s'.sent = s.sent ++ [(l.thread, packet)])
  | leader (h : Hold) (m : CreateSessionAck) (hh : (s.pc l.thread).hold = some (h, false))
      (hsent : s'.sent = s.sent ++ [(h.socket, .createSessionAck m)])
  | news (ws : List Write) (hnews : ∀ w ∈ ws, IsNews w.2)
      (hto : ∀ c, c ∈ ws.map Prod.fst ↔ c ∈ reached s l) (hsent : s'.sent = s.sent ++ ws)

/-- A thread that tells no news writes one acknowledgement. -/
theorem speaks_single {s : Sys} {t : Conn} {ws : List Write} {pc pc' : Pc}
    (h : Speaks s t pc ws pc') (hpc : addresses pc = false) :
    (∃ packet, ws = [(t, packet)] ∧ owns pc = true) ∨
      ∃ k m, ws = [(k.socket, .createSessionAck m)] ∧ pc.hold = some (k, false) := by
  cases h with
  | greet m => exact Or.inl ⟨_, rfl, rfl⟩
  | joinRefuse joiner message m => exact Or.inl ⟨_, rfl, rfl⟩
  | joinAck player id m => exact Or.inl ⟨_, rfl, rfl⟩
  | randomAck player id uid m hm => exact Or.inl ⟨_, rfl, rfl⟩
  | randomNew joiner m hm => exact Or.inl ⟨_, rfl, rfl⟩
  | createAck k m => exact Or.inr ⟨k, m, rfl, rfl⟩
  | createRefuse k m => exact Or.inr ⟨k, m, rfl, rfl⟩
  | createAccept k m => exact Or.inr ⟨k, m, rfl, rfl⟩
  | createInvalidate k node hl hu => cases hpc
  | createBroadcast k node hl hu => cases hpc
  | joinBroadcast player id node hl ht => cases hpc
  | randomBroadcast player id uid node hl hu ht => cases hpc

/-- If that fails, nothing is written. -/
theorem speaks_cut {s : Sys} {l : Label} {ws : List Write} {pc pc' : Pc}
    (h : Speaks s l.thread pc ws pc') (hpc : addresses pc = false) (hout : ¬ AllOut l.writeOk ws) :
    writesOut l.writeOk 0 ws = [] := by
  rcases speaks_single h hpc with ⟨packet, rfl, -⟩ | ⟨k, m, rfl, -⟩
  · exact writesOut_single hout
  · exact writesOut_single hout

/-- **What a step writes.** -/
theorem step_writes {p : Parsers} {s s' : Sys} {l : Label} (hs : step p s l = some s') :
    WriteStep s s' l := by
  by_cases haddr : addresses (s.pc l.thread) = true
  · obtain ⟨s'', ws, hs'', hsent, hnews, hto⟩ := step_tells (p := p) (step_live hs) haddr
    cases hs.symm.trans hs''
    exact .news ws hnews hto hsent
  · have hsilent : addresses (s.pc l.thread) = false := eq_false_of_ne_true haddr
    cases (step_move hs).1 with
    | speaks ws pc' hspeaks hout hk hpc hsent =>
      rcases speaks_single hspeaks hsilent with ⟨packet, rfl, how⟩ | ⟨k, m, rfl, hh⟩
      · exact .own packet how hsent
      · exact .leader k m hh hsent
    | cut ws pc' hspeaks hout hk hpc hsent =>
      rw [speaks_cut hspeaks hsilent hout, List.append_nil] at hsent
      exact .silent hsent
    | plays game call w hplays hk hpc hsent =>
      generalize s.pc l.thread = pc at hplays hsilent
      cases hplays <;> cases hsilent
    | thinks pc' hthinks hk hpc hsent => exact .silent hsent
    | dies hreads hk hpc hsent => exact .silent hsent
    | inserted leader hpc hnew hs hu hj hg hpc' hsent => exact .silent hsent
    | collided leader first node hpc hold hfirst hk hpc' hsent => exact .silent hsent
    | madeUp id hpc hnew hs hu hj hg hpc' hsent => exact .silent hsent
    | joined name id node hold haccept hpc hs hu hj hg hsent => exact .silent hsent
    | moved k node hpc hold huid hs hu hj hg hpc' hsent => exact .silent hsent
    | erased k hpc hs hu hj hg hsent => exact .silent hsent

end HanabiBot.Lobby.Writes
