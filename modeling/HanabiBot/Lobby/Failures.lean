import HanabiBot.Lib.Runs
import HanabiBot.HanabiGame.FirstTurn
import HanabiBot.Lobby.Sections

/-! # Failures

A read that fails is a value (`readBytesCatch`), and an exception in the turn of a game goes to the
handler of `Game::start`. Every other write of a thread throws past the end of `handle_client` if it
fails: the greeting, the acknowledgements, the broadcasts of a session, its closing notice, and the
broadcasts of that handler. `unguarded` lists the connections of these writes.

Nor does a thread return where it uses what is not there any more. A session is erased, and its
players with it, while other threads hold references to them; a session that has been emptied for
its game has no leader, which `getLeader` asserts; and a game of no players or of more than three
cannot be displayed. `InPlace` says of a step that it meets none of this.

No thread takes the server down exactly in the runs in which everything is in place and the
unguarded writes go out (`stays_up_iff`). -/

namespace HanabiBot.Lobby.Failures

open HanabiBot.Lib.Runs HanabiBot.Common.Messages HanabiBot.HanabiGame.State
open HanabiBot.HanabiGame.Dialogue HanabiBot.HanabiGame.Audience HanabiBot.HanabiGame.Steps
open HanabiBot.HanabiGame.FirstTurn HanabiBot.HanabiGame.Cards HanabiBot.Lobby.Sessions
open HanabiBot.Lobby.Machine HanabiBot.Lobby.Moves HanabiBot.Lobby.Sections

/-- No thread has taken the server down: neither by an exception, nor by a failed assertion, nor by
the use of what is not there. -/
def Up (s : Sys) : Prop := s.crash = none

/-- The writes to `cs`, in this order, all go out. -/
def Delivered (writeOk : ℕ → Conn → Bool) (cs : List Conn) : Prop :=
  ∀ i c, cs[i]? = some c → writeOk i c = true

def sockets (players : List Player) : List Conn := players.map Player.socket

section Recipients
variable (s : Sys)

/-- Writes made through a reference to a player, if the player is still there. -/
def ifThere (c : Conn) (cs : List Conn) : List Conn := if c ∈ s.gone then [] else cs

/-- Writes made through a reference into the table, if the node is still there. -/
def ifFound (id : ℤ) (uid : ℕ) (cs : Session → List Conn) : List Conn :=
  match s.find id uid with
  | some node => cs node.session
  | none => []

/-- The connections a thread writes to in its next step, outside of the `try` block of a game. -/
def unguarded (t : Conn) : List Conn :=
  match s.pc t with
  | .greet | .joinRefuse _ _ | .randomNew _ => [t]
  | .createAck h | .createRefuse h | .createAccept h => ifThere s h.socket [h.socket]
  | .createInvalidate h | .createBroadcast h =>
    ifFound s h.id h.uid fun session => sockets session.players
  | .catching game => sockets game.players ++ sockets game.players
  | .joinAck _ _ => ifThere s t [t]
  | .joinBroadcast _ sessionId =>
    match s.sessions.lookup sessionId with
    | some node => ifThere s t (sockets node.session.players ++ sockets node.session.players)
    | none => []
  | .randomAck _ sessionId uid => ifFound s sessionId uid fun _ => ifThere s t [t]
  | .randomBroadcast _ sessionId uid => ifFound s sessionId uid fun session =>
      ifThere s t (sockets session.players ++ sockets session.players)
  | _ => []

end Recipients

/-- What the next step of a thread uses is there. -/
def InPlace (s : Sys) (l : Label) : Prop :=
  match s.pc l.thread with
  -- `getLeader` of the session that is found under the new id, and the log line behind it
  | .createEmplace _ =>
    ∀ node, s.sessions.lookup (s.size : ℤ) = some node → node.session.players ≠ []
  | .createLog h => ∃ node, s.sessions.lookup h.id = some node ∧ node.session.players ≠ []
  -- the socket of the leader, and the session
  | .createAck h | .createRefuse h | .createAccept h => h.socket ∉ s.gone
  | .createWait h => h.socket ∉ s.gone ∧ (l.received ≠ none → s.find h.id h.uid ≠ none)
  | .createInvalidate h | .createBroadcast h | .createMove h => s.find h.id h.uid ≠ none
  -- the hands, unless one of the two broadcasts before them throws
  | .playing game => Delivered l.writeOk (sockets game.players ++ sockets game.players) →
      1 ≤ game.players.length ∧ game.players.length ≤ 3
  -- the joiner, and the session
  | .joinAck _ _ | .joinBroadcast _ _ => l.thread ∉ s.gone
  | .randomAck _ id uid | .randomBroadcast _ id uid => s.find id uid ≠ none ∧ l.thread ∉ s.gone
  | _ => True

/-- The next step of a thread has what it uses, and its unguarded writes go out. -/
def Withstood (s : Sys) (l : Label) : Prop :=
  InPlace s l ∧ Delivered l.writeOk (unguarded s l.thread)

section Delivered
variable {writeOk : ℕ → Conn → Bool}

theorem forall_getElem?_cons {P : ℕ → Conn → Prop} {c : Conn} {cs : List Conn} {n : ℕ} :
    (∀ i d, (c :: cs)[i]? = some d → P (n + i) d) ↔
      P n c ∧ ∀ i d, cs[i]? = some d → P (n + 1 + i) d := by
  constructor
  · intro h
    refine ⟨h 0 c rfl, fun i d hd => ?_⟩
    have := h (i + 1) d hd
    rwa [show n + (i + 1) = n + 1 + i by omega] at this
  · rintro ⟨h0, h⟩ i d hd
    cases i with
    | zero =>
      cases hd
      exact h0
    | succ i =>
      have := h i d hd
      rwa [show n + 1 + i = n + (i + 1) by omega] at this

theorem wentOut_all {n : ℕ} {cs : List Conn} : wentOut writeOk n cs = cs ↔
    ∀ i c, cs[i]? = some c → writeOk (n + i) c = true := by
  induction cs generalizing n with
  | nil => simp [wentOut]
  | cons c cs ih =>
    rw [forall_getElem?_cons (P := fun i c => writeOk i c = true), ← ih, wentOut]
    split_ifs with hw
    · simp [hw]
    · simp [hw]

theorem delivered_iff {cs : List Conn} : Delivered writeOk cs ↔ wentOut writeOk 0 cs = cs := by
  rw [wentOut_all]
  simp only [Nat.zero_add]
  rfl

theorem fst_writesOut : ∀ (n : ℕ) (ws : List Write),
    (writesOut writeOk n ws).map Prod.fst = wentOut writeOk n (ws.map Prod.fst)
  | _, [] => rfl
  | n, w :: ws => by
    rw [writesOut, List.map_cons, wentOut]
    split_ifs
    · rw [List.map_cons, fst_writesOut (n + 1) ws]
    · rfl

theorem writesOut_initial : ∀ (n : ℕ) (ws : List Write), writesOut writeOk n ws <+: ws
  | _, [] => List.prefix_rfl
  | n, w :: ws => by
    unfold writesOut
    split_ifs
    · exact List.cons_prefix_cons.mpr ⟨rfl, writesOut_initial (n + 1) ws⟩
    · exact List.nil_prefix

theorem writesOut_of_allOut {ws : List Write} (h : AllOut writeOk ws) : writesOut writeOk 0 ws = ws :=
  (writesOut_initial 0 ws).eq_of_length h

/-- The step function's own test. -/
theorem allOut_iff {ws : List Write} : AllOut writeOk ws ↔ Delivered writeOk (ws.map Prod.fst) := by
  rw [delivered_iff, ← fst_writesOut]
  refine ⟨fun h => by rw [writesOut_of_allOut h], fun h => ?_⟩
  have hlength := congrArg List.length h
  rwa [List.length_map, List.length_map] at hlength

/-- The writes of the handler of `Game::start`. -/
theorem delivered_handler (parse : Bytes → ClientResponse) (players : List Player) :
    Delivered writeOk (sockets players ++ sockets players) ↔
      heard ⟨parse, writeOk⟩ 0 players = true ∧
        heard ⟨parse, writeOk⟩ players.length players = true := by
  have hlength : (sockets players).length = players.length := List.length_map _
  rw [delivered_iff, wentOut_append_iff, heard_iff_wentOut, heard_iff_wentOut, hlength, Nat.zero_add]
  rfl

end Delivered

/-- A section that needs `safe`: it writes to `cs` and goes on, or it ends the process. -/
def Act.Needs (safe : Prop) (cs : List Conn) : Act → Prop
  | .write ws next => safe ∧ ws.map Prod.fst = cs ∧ next.crash = none
  | .crash _ _ => ¬ safe

/-- The game a thread is about to play. -/
def upcoming : Pc → Option Game
  | .createEraseStarted _ game | .playing game => some game
  | _ => none

/-- A game that has not been dealt is as its constructor left it. -/
def Undealt (s : Sys) : Prop := ∀ t game, upcoming (s.pc t) = some game →
  ∃ players sessionId shuffle, game = Game.ofSession players sessionId shuffle

section Needs
variable {p : Parsers} {s s' : Sys} {l : Label}

theorem undealt_step (hI : Undealt s) (hs : step p s l = some s') : Undealt s' := by
  obtain ⟨hmove, hothers⟩ := step_move hs
  intro t game hgame
  by_cases ht : t = l.thread
  · subst ht
    cases hmove with
    | speaks ws pc' hspeaks hout hk hpc hsent =>
      rw [hpc] at hgame
      generalize s.pc l.thread = pc at hspeaks
      cases hspeaks <;> cases hgame
    | thinks pc' hthinks hk hpc hsent =>
      rw [hpc] at hgame
      generalize s.pc l.thread = pc at hthinks
      cases hthinks <;> cases hgame
    | cut ws pc' hspeaks hout hk hpc hsent => exact hI _ game (hpc ▸ hgame)
    | plays game' call w hplays hk hpc hsent =>
      rcases hpc with hpc | hpc | hpc <;> rw [hpc] at hgame
      · cases hgame
      · cases hgame
      · exact hI _ game hgame
    | dies hreads hk hpc hsent => exact hI _ game (hpc ▸ hgame)
    | inserted leader hpc hnew hs hu hj hg hpc' hsent => rw [hpc'] at hgame; cases hgame
    | collided leader first node hpc hold hfirst hk hpc' hsent => rw [hpc'] at hgame; cases hgame
    | madeUp id hpc hnew hs hu hj hg hpc' hsent =>
      rcases hpc' with hpc' | ⟨-, hpc'⟩ <;> rw [hpc'] at hgame
      · exact hI _ game hgame
      · cases hgame
    | joined name id node hold haccept hpc hs hu hj hg hsent =>
      rcases hpc with ⟨-, hpc'⟩ | ⟨-, hpc'⟩ <;> rw [hpc'] at hgame <;> cases hgame
    | moved k node hpc hold huid hs hu hj hg hpc' hsent =>
      rw [hpc'] at hgame
      cases hgame
      exact ⟨_, _, _, rfl⟩
    | erased k hpc hs hu hj hg hsent =>
      rcases hpc with ⟨-, hpc'⟩ | ⟨game', hpc, hpc'⟩ <;> rw [hpc'] at hgame
      · cases hgame
      · cases hgame
        exact hI l.thread game (by rw [hpc]; rfl)
  · rw [hothers t ht] at hgame
    exact hI t game hgame

theorem undealt_init : Undealt init := by
  intro t game hgame
  cases hgame

theorem Act.Needs.congr {safe safe' : Prop} {cs : List Conn} {a : Act} (h : Act.Needs safe cs a)
    (hsafe : safe' ↔ safe) : Act.Needs safe' cs a := by
  rwa [propext hsafe]

theorem needs_withPlayer {safe : Prop} {c : Conn} {cs : List Conn} {a : Act}
    (h : Act.Needs safe cs a) :
    Act.Needs (c ∉ s.gone ∧ safe) (ifThere s c cs) (withPlayer s l c a) := by
  unfold ifThere withPlayer
  split_ifs with hc
  · exact fun hsafe => hsafe.1 hc
  · exact h.congr (and_iff_right hc)

theorem needs_withNode {safe : Prop} {id : ℤ} {uid : ℕ} {cs : Session → List Conn}
    {a : Node → Act} (h : ∀ node, Act.Needs safe (cs node.session) (a node)) :
    Act.Needs (s.find id uid ≠ none ∧ safe) (ifFound s id uid cs) (withNode s l id uid a) := by
  unfold ifFound withNode
  cases s.find id uid with
  | none => exact fun hsafe => hsafe.1 rfl
  | some node => exact (h node).congr (and_iff_right nofun)

theorem needs_write {cs : List Conn} {ws : List Write} {next : Sys} (hws : ws.map Prod.fst = cs)
    (hnext : next.crash = none) : Act.Needs True cs (.write ws next) := ⟨trivial, hws, hnext⟩

theorem needs_player {c : Conn} {cs : List Conn} {a : Act} (h : Act.Needs True cs a) :
    Act.Needs (c ∉ s.gone) (ifThere s c cs) (withPlayer s l c a) :=
  (needs_withPlayer h).congr (and_iff_left trivial).symm

theorem needs_node {id : ℤ} {uid : ℕ} {cs : Session → List Conn} {a : Node → Act}
    (h : ∀ node, Act.Needs True (cs node.session) (a node)) :
    Act.Needs (s.find id uid ≠ none) (ifFound s id uid cs) (withNode s l id uid a) :=
  (needs_withNode h).congr (and_iff_left trivial).symm

theorem ifThere_nil (c : Conn) : ifThere s c [] = [] := ite_self _

theorem ifFound_nil (id : ℤ) (uid : ℕ) : ifFound s id uid (fun _ => []) = [] := by
  unfold ifFound
  split <;> rfl

theorem fst_broadcast (session : Session) (message : String) :
    (session.broadcast message).map Prod.fst = sockets session.players := by
  simp [Session.broadcast, sockets, Function.comp_def]

theorem fst_joinNews (session : Session) (player : String) :
    (joinNews session player).map Prod.fst =
      sockets session.players ++ sockets session.players := by
  rw [joinNews, List.map_append, fst_broadcast, Session.broadcastStatus, fst_broadcast]

/-- A thread that cannot move needs nothing. -/
theorem withstood_of_disabled (hact : act p s l = none) : Withstood s l := by
  unfold act at hact
  unfold Withstood InPlace unguarded
  cases hpc : s.pc l.thread with
  | randomLock joiner => exact ⟨trivial, fun i c hi => by cases hi⟩
  | done => exact ⟨trivial, fun i c hi => by cases hi⟩
  | _ => simp [hpc] at hact

section Live
variable (hlive : s.crash = none)
include hlive

theorem needs_handleConnection : Act.Needs True [] (handleConnection p s l) := by
  unfold handleConnection
  cases l.received with
  | none => exact ⟨trivial, rfl, hlive⟩
  | some b =>
    simp only
    cases p.connection b with
    | none => exact ⟨trivial, rfl, hlive⟩
    | some m =>
      simp only
      split <;> exact ⟨trivial, rfl, hlive⟩

/-- A new session has its leader. -/
theorem needs_createEmplace (leader : String) :
    Act.Needs (∀ node, s.sessions.lookup (s.size : ℤ) = some node → node.session.players ≠ []) []
      (createEmplace s l leader) := by
  unfold createEmplace
  cases hl : s.sessions.lookup (s.size : ℤ) with
  | none =>
    simp only [emplace_free s hl]
    exact ⟨nofun, rfl, hlive⟩
  | some node =>
    simp only [emplace_taken s hl]
    cases hplayers : node.session.players with
    | nil => exact fun hsafe => hsafe node rfl hplayers
    | cons first rest =>
      refine ⟨fun node' hnode => ?_, rfl, hlive⟩
      cases hnode
      rw [hplayers]
      nofun

/-- A session made up for the log line has none. -/
theorem needs_createLog (h : Hold) :
    Act.Needs (∃ node, s.sessions.lookup h.id = some node ∧ node.session.players ≠ []) []
      (createLog s l h) := by
  unfold createLog
  cases hl : s.sessions.lookup h.id with
  | none =>
    rw [subscript_absent s hl]
    rintro ⟨node, hnode, -⟩
    cases hnode
  | some node =>
    rw [subscript_present s hl]
    simp only
    cases hplayers : node.session.players with
    | nil =>
      rintro ⟨node', hnode, hne⟩
      cases hnode
      exact hne hplayers
    | cons first rest => exact ⟨⟨node, rfl, by rw [hplayers]; nofun⟩, rfl, hlive⟩

theorem needs_createWait (h : Hold) :
    Act.Needs (h.socket ∉ s.gone ∧ (l.received ≠ none → s.find h.id h.uid ≠ none)) []
      (createWait s l h) := by
  rw [← ifThere_nil (s := s) h.socket]
  refine needs_withPlayer ?_
  cases l.received with
  | none => exact ⟨fun hne => absurd rfl hne, rfl, hlive⟩
  | some b =>
    simp only
    rw [← ifFound_nil (s := s) h.id h.uid]
    have hnode : (some b ≠ none → s.find h.id h.uid ≠ none) ↔ s.find h.id h.uid ≠ none :=
      forall_prop_of_true nofun
    rw [hnode]
    exact needs_node fun node => needs_write rfl hlive

theorem needs_play (hI : Undealt s) {game : Game} (hpc : s.pc l.thread = .playing game) :
    Act.Needs (Delivered l.writeOk (sockets game.players ++ sockets game.players) →
      1 ≤ game.players.length ∧ game.players.length ≤ 3) [] (play p s l game) := by
  obtain ⟨players, sessionId, shuffle, rfl⟩ := hI l.thread game (by rw [hpc]; rfl)
  have hsound := turn_sound_iff ⟨p.response, l.writeOk⟩ players sessionId shuffle l.responses
  refine Act.Needs.congr ?_ (imp_congr_left (delivered_handler p.response _))
  unfold dealt at hsound
  unfold play
  split
  · next hr =>
    rw [hr] at hsound
    exact ⟨hsound.mp trivial, rfl, hlive⟩
  · next x w hr =>
    rw [hr] at hsound
    exact ⟨hsound.mp ⟨x, rfl⟩, rfl, hlive⟩
  · next stop w hstop hr =>
    rw [hr] at hsound
    exact fun hsafe => (hsound.mpr hsafe).elim hstop

theorem needs_joinLock (joiner : String) (sessionId : ℤ) :
    Act.Needs True [] (joinLock s l joiner sessionId) := by
  unfold joinLock
  cases s.sessions.lookup sessionId with
  | none => exact ⟨trivial, rfl, hlive⟩
  | some node =>
    simp only
    split_ifs
    · exact ⟨trivial, rfl, hlive⟩
    · cases node.session.join l.isOpen (l.player joiner) <;> exact ⟨trivial, rfl, hlive⟩

theorem needs_randomLock (joiner : String) : Act.Needs True [] (randomLock s l joiner) := by
  unfold randomLock
  split <;> exact ⟨trivial, rfl, hlive⟩

/-- A session made up for the news has no one to tell them to. -/
theorem needs_joinBroadcast (player : String) (sessionId : ℤ) :
    Act.Needs (l.thread ∉ s.gone) (match s.sessions.lookup sessionId with
      | some node =>
        ifThere s l.thread (sockets node.session.players ++ sockets node.session.players)
      | none => []) (joinBroadcast s l player sessionId) := by
  unfold joinBroadcast
  cases hl : s.sessions.lookup sessionId with
  | some node =>
    rw [subscript_present s hl]
    exact needs_player (needs_write (fst_joinNews _ _) hlive)
  | none =>
    rw [subscript_absent s hl]
    simp only
    rw [← ifThere_nil (s := s.insertNode sessionId none .default) l.thread]
    exact needs_player (needs_write (fst_joinNews _ _) hlive)

theorem erase_crash (id : ℤ) : (s.erase id).crash = none := by
  unfold Sys.erase
  split <;> exact hlive

/-- **What a section needs and writes**, unless it is the handler of `Game::start`. -/
theorem act_needs {a : Act} (hI : Undealt s) (hact : act p s l = some a)
    (hcatch : ∀ game, s.pc l.thread ≠ .catching game) :
    Act.Needs (InPlace s l) (unguarded s l.thread) a := by
  unfold act at hact
  unfold InPlace unguarded
  cases hpc : s.pc l.thread with
  | greet | joinRefuse joiner message | randomNew joiner =>
    rw [hpc] at hact
    cases hact
    exact ⟨trivial, rfl, hlive⟩
  | readConnection => rw [hpc] at hact; cases hact; exact needs_handleConnection hlive
  | createEmplace leader => rw [hpc] at hact; cases hact; exact needs_createEmplace hlive leader
  | createLog h => rw [hpc] at hact; cases hact; exact needs_createLog hlive h
  | createAck h | createRefuse h | createAccept h =>
    rw [hpc] at hact
    cases hact
    exact needs_player (needs_write rfl hlive)
  | createWait h => rw [hpc] at hact; cases hact; exact needs_createWait hlive h
  | createInvalidate h | createBroadcast h =>
    rw [hpc] at hact
    cases hact
    exact needs_node fun node => needs_write (fst_broadcast _ _) hlive
  | createMove h =>
    rw [hpc] at hact
    cases hact
    simp only
    rw [← ifFound_nil (s := s) h.id h.uid]
    exact needs_node fun node => needs_write rfl hlive
  | createErase h | createEraseStarted h game =>
    rw [hpc] at hact
    cases hact
    exact ⟨trivial, rfl, erase_crash hlive _⟩
  | playing game => rw [hpc] at hact; cases hact; exact needs_play hlive hI hpc
  | catching game => exact absurd hpc (hcatch game)
  | joinLock joiner id => rw [hpc] at hact; cases hact; exact needs_joinLock hlive joiner id
  | joinAck player id =>
    rw [hpc] at hact
    cases hact
    exact needs_player (needs_write rfl hlive)
  | joinBroadcast player id =>
    rw [hpc] at hact
    cases hact
    exact needs_joinBroadcast hlive player id
  | randomLock joiner =>
    rw [hpc] at hact
    simp only at hact
    split_ifs at hact
    cases hact
    exact needs_randomLock hlive joiner
  | randomAck player id uid =>
    rw [hpc] at hact
    cases hact
    exact needs_withNode fun node => needs_player (needs_write rfl hlive)
  | randomBroadcast player id uid =>
    rw [hpc] at hact
    cases hact
    exact needs_withNode fun node => needs_player (needs_write (fst_joinNews _ _) hlive)
  | done => rw [hpc] at hact; cases hact

/-- The handler of `Game::start` fails with an exception if one of its writes does. -/
theorem catchPlay_cases (p : Parsers) (l : Label) (game : Game) :
    Delivered l.writeOk (sockets game.players ++ sockets game.players) ∧
        (∃ next, catchPlay p s l game = .write [] next ∧ next.crash = none) ∨
      ¬ Delivered l.writeOk (sockets game.players ++ sockets game.players) ∧
        ∃ next, catchPlay p s l game = .crash (.escaped l.thread) next := by
  have hend := endGame_heard ⟨p.response, l.writeOk⟩ ⟨game, [], 0, []⟩
  rw [delivered_handler p.response]
  unfold catchPlay
  split_ifs at hend with hd <;> rw [Nat.zero_add] at hd
  · obtain ⟨w, hrun⟩ := hend
    rw [hrun]
    exact Or.inl ⟨hd, _, rfl, hlive⟩
  · obtain ⟨e, w, hrun⟩ := hend
    rw [hrun]
    exact Or.inr ⟨hd, _, rfl⟩

/-- **What a section comes to**: the thread goes on if everything is in place and the unguarded
writes go out, and else the process ends. -/
theorem act_cases {a : Act} (hI : Undealt s) (hact : act p s l = some a) :
    (∃ ws next, a = .write ws next ∧ next.crash = none ∧ (AllOut l.writeOk ws ↔ Withstood s l)) ∨
      ∃ c next, a = .crash c next ∧ ¬ Withstood s l := by
  unfold Withstood
  by_cases hcatch : ∃ game, s.pc l.thread = .catching game
  · obtain ⟨game, hpc⟩ := hcatch
    unfold act at hact
    rw [hpc] at hact
    cases hact
    simp only [InPlace, unguarded, hpc, true_and]
    rcases catchPlay_cases hlive p l game with ⟨hd, next, ha, hnext⟩ | ⟨hd, next, ha⟩
    · exact Or.inl ⟨[], next, ha, hnext, iff_of_true (allOut_nil _) hd⟩
    · exact Or.inr ⟨_, next, ha, hd⟩
  · push Not at hcatch
    have hneeds := act_needs hlive hI hact hcatch
    cases a with
    | write ws next =>
      obtain ⟨hsafe, hws, hnext⟩ := hneeds
      exact Or.inl ⟨ws, next, rfl, hnext, by rw [allOut_iff, hws, and_iff_right hsafe]⟩
    | crash c next => exact Or.inr ⟨c, next, rfl, fun h => hneeds h.1⟩

/-- **A step that is withstood leaves the server up.** -/
theorem up_step (hI : Undealt s) (hC : Withstood s l) (hs : step p s l = some s') : Up s' := by
  cases hact : act p s l with
  | none =>
    unfold step at hs
    rw [hlive, hact] at hs
    cases hs
  | some a =>
    rcases act_cases hlive hI hact with ⟨ws, next, rfl, hnext, hout⟩ | ⟨c, next, rfl, hnot⟩
    · rw [step_write hlive hact (hout.mpr hC)] at hs
      cases hs
      exact hnext
    · exact absurd hC hnot

/-- **Any other takes it down.** -/
theorem down_step (hI : Undealt s) (hC : ¬ Withstood s l) :
    ∃ s', step p s l = some s' ∧ ¬ Up s' := by
  cases hact : act p s l with
  | none => exact absurd (withstood_of_disabled hact) hC
  | some a =>
    rcases act_cases hlive hI hact with ⟨ws, next, rfl, hnext, hout⟩ | ⟨c, next, rfl, -⟩
    · exact ⟨_, step_escape hlive hact fun h => hC (hout.mp h), nofun⟩
    · exact ⟨_, step_crash hlive hact, nofun⟩

end Live

end Needs

/-- **When no failure takes the server down**: exactly in the runs in which every step has what it
uses, and every write outside of the `try` block of a game goes out. -/
theorem stays_up_iff (p : Parsers) (run : List Label) :
    States (step p) Up init run ↔
      Along (step p) (fun s l => s.crash = none → Withstood s l) init run := by
  refine states_iff (I := fun s => Undealt s ∧ Up s) ?_ (fun _ h => h.2) ?_
    ⟨undealt_init, rfl⟩ run
  · intro s l s' hI hC hs
    exact ⟨undealt_step hI.1 hs, up_step hI.2 hI.1 (hC hI.2) hs⟩
  · intro s l hI hC
    exact down_step hI.2 hI.1 fun h => hC fun _ => h

/-- A leader creates a session and leaves; the closing notice to the leader's own socket fails. -/
def leaderLeaves : List Label :=
  entering 0 [16, 1] ++ [.plain 0 none, .plain 0 none, .plain 0 none, .plain 0 none] ++
    [{ Label.plain 0 none with writeOk := fun _ _ => false }]

/-- The exception ends the server. -/
theorem leaving_leader_takes_down : ¬ States (step plainParsers) Up init leaderLeaves := by
  intro h
  cases h.last

end HanabiBot.Lobby.Failures
