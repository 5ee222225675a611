import HanabiBot.Lobby.Seats
import HanabiBot.Lobby.Writes

/-! # The views of the connections

`Watched` is the server together with what every connection has asked for; what there is to know of
one connection is its `view`.

A player has its seat as soon as the section that accepts it is over, and its acknowledgement is
written later, without the lock; in between it is `Waiting`. A step in which no news reach a waiting
connection keeps every handshake in order (`step_passes`). -/

namespace HanabiBot.Lobby.Views

open HanabiBot.Lib.Tables HanabiBot.Common.Messages HanabiBot.HanabiGame.State
open HanabiBot.Lobby.Sessions HanabiBot.Lobby.Machine HanabiBot.Lobby.Moves HanabiBot.Lobby.Sections
open HanabiBot.Lobby.Failures HanabiBot.Lobby.Seats HanabiBot.Lobby.Handshake HanabiBot.Lobby.Writes

/-- The operation that the thread reads in this step. -/
def request (p : Parsers) (s : Sys) (l : Label) : Option ClientOperation :=
  match s.pc l.thread with
  | .readConnection => (l.received.bind p.connection).map NewConnection.getOperation
  | _ => none

/-- The server, and what every connection has asked for. -/
structure Watched where
  sys : Sys
  asked : Conn → Option ClientOperation

namespace Watched

def init : Watched := ⟨Machine.init, fun _ => none⟩

/-- What has been asked for after this step. -/
def asks (p : Parsers) (w : Watched) (l : Label) : Conn → Option ClientOperation :=
  Function.update w.asked l.thread ((request p w.sys l).or (w.asked l.thread))

def step (p : Parsers) (w : Watched) (l : Label) : Option Watched :=
  (Machine.step p w.sys l).map fun s => ⟨s, w.asks p l⟩

/-- What there is to know of one connection. -/
def view (w : Watched) (c : Conn) : View := ⟨w.asked c, got w.sys.sent c, w.sys.pc c⟩

end Watched

/-- The connection has a seat and its thread has not written the acknowledgement; nor has another
call of `create_session` that holds the same session. -/
def Waiting (s : Sys) (c : Conn) : Prop :=
  Pending c (s.pc c) ∧ ∀ m, (c, .createSessionAck m) ∉ s.sent

/-- No news reach a waiting connection in this step. -/
def Undisturbed (s : Sys) (l : Label) : Prop :=
  s.crash = none → ∀ c ∈ reached s l, ¬ Waiting s c

/-- The game a thread has. -/
def gameOf : Pc → Option Game
  | .createEraseStarted _ game | .playing game | .catching game => some game
  | _ => none

/-- The invariant of the runs in which no connection is disturbed. -/
structure Orderly (w : Watched) : Prop where
  fits : ∀ c, (w.view c).Fits
  seats : ∀ c ∈ allSeats w.sys, (w.view c).Seated c
  /-- the first player of a session is a leader -/
  heads : ∀ id node first, w.sys.sessions.lookup id = some node →
    node.session.players.head? = some first → (w.view first.socket).Leads
  holds : ∀ t h moved, (w.sys.pc t).hold = some (h, moved) → (w.view h.socket).Leads
  games : ∀ t game, gameOf (w.sys.pc t) = some game →
    ∀ c ∈ sockets game.players, c ∈ gameSeats w.sys.games

/-! ### What a connection hears -/

section Hearing
variable {p : Parsers} {w : Watched} {l : Label} {s' : Sys} {c : Conn}

/-- News go to those who have a seat. -/
theorem audience_seated (hI : Orderly w) {t : Conn} (hc : c ∈ audience w.sys t) :
    c ∈ allSeats w.sys := by
  have hnode {id : ℤ} {node : Node} (hl : w.sys.sessions.lookup id = some node)
      (hc : c ∈ sockets node.session.players) : c ∈ allSeats w.sys :=
    List.mem_append_left _ ((mem_gather seats).mpr ⟨id, node, hl, hc⟩)
  have hfound {id : ℤ} {uid : ℕ} (hc : c ∈ ifFound w.sys id uid fun session =>
      sockets session.players) : c ∈ allSeats w.sys := by
    unfold ifFound at hc
    split at hc
    · next node hf => exact hnode (find_some hf).1 hc
    · cases hc
  have hthere {t : Conn} {node : Node} {id : ℤ} (hl : w.sys.sessions.lookup id = some node)
      (hc : c ∈ ifThere w.sys t (sockets node.session.players ++ sockets node.session.players)) :
      c ∈ allSeats w.sys := by
    unfold ifThere at hc
    split_ifs at hc
    · cases hc
    · exact hnode hl (or_self_iff.mp (List.mem_append.mp hc))
  have hgame {game : Game} (hg : gameOf (w.sys.pc t) = some game)
      (hc : c ∈ sockets game.players) : c ∈ allSeats w.sys :=
    List.mem_append_right _ (hI.games t game hg c hc)
  unfold audience unguarded at hc
  cases hpc : w.sys.pc t with
  | playing game =>
    rw [hpc] at hc
    exact hgame (by rw [hpc]; rfl) hc
  | catching game =>
    rw [hpc] at hc
    exact hgame (by rw [hpc]; rfl) (or_self_iff.mp (List.mem_append.mp hc))
  | createInvalidate k =>
    rw [hpc] at hc
    exact hfound hc
  | createBroadcast k =>
    rw [hpc] at hc
    exact hfound hc
  | joinBroadcast player id =>
    rw [hpc] at hc
    simp only [addresses, if_true] at hc
    split at hc
    · next node hl => exact hthere hl hc
    · cases hc
  | randomBroadcast player id uid =>
    rw [hpc] at hc
    simp only [addresses, if_true, ifFound] at hc
    split at hc
    · next node hf => exact hthere (find_some hf).1 hc
    · cases hc
  | _ => rw [hpc] at hc; cases hc

/-- **What a connection hears in an undisturbed step**, its own acknowledgements apart. -/
theorem step_hears (hI : Orderly w) (hC : Undisturbed w.sys l)
    (hs : Machine.step p w.sys l = some s')
    (hown : s'.sent = w.sys.sent ∨ owns (w.sys.pc l.thread) = false ∨ c ≠ l.thread) :
    Hears (w.view c) { w.view c with packets := got s'.sent c } := by
  have hnothing (hsame : got s'.sent c = got w.sys.sent c) :
      Hears (w.view c) { w.view c with packets := got s'.sent c } := by
    rw [hsame]
    exact .nothing
  cases step_writes hs with
  | silent hsent => exact hnothing (by rw [hsent])
  | own packet how hsent =>
    rcases hown with hsame | hown | hne
    · exact hnothing (by rw [hsame])
    · rw [how] at hown
      cases hown
    · exact hnothing (by rw [hsent, got_append, got_ne hne, List.append_nil])
  | leader k m hh hsent =>
    by_cases hc : c = k.socket
    · subst hc
      rw [hsent, got_append, got_self]
      exact .created m (hI.holds l.thread k false hh)
    · exact hnothing (by rw [hsent, got_append, got_ne hc, List.append_nil])
  | news ws hnews hto hsent =>
    by_cases hc : c ∈ reached w.sys l
    · have hseated := hI.seats c (audience_seated hI (reached_subset hc))
      have hsettled := settled_of_seated (hI.fits c).stands hseated fun hp => by
        have hw := hC (step_live hs) c hc
        unfold Waiting at hw
        push Not at hw
        obtain ⟨m, hm⟩ := hw hp
        exact ⟨m, mem_got.mpr hm⟩
      rw [hsent, got_append]
      exact .news _ hsettled
    · exact hnothing (by rw [hsent, got_append, got_eq_nil (fun h => hc ((hto c).mp h)),
        List.append_nil])

end Hearing

/-! ### What a step does to the views -/

section Passing
variable {p : Parsers} {w : Watched} {l : Label} {s' : Sys}

theorem asks_same (h : w.sys.pc l.thread ≠ .readConnection) : w.asks p l = w.asked := by
  have hnone : request p w.sys l = none := by
    unfold request
    split
    · next hpc => exact absurd hpc h
    · rfl
  unfold Watched.asks
  rw [hnone, Option.none_or, Function.update_eq_self]

theorem asks_none (h : l.received.bind p.connection = none) : w.asks p l = w.asked := by
  have hnone : request p w.sys l = none := by
    unfold request
    split
    · rw [h]
      rfl
    · rfl
  unfold Watched.asks
  rw [hnone, Option.none_or, Function.update_eq_self]

theorem asks_some {b : Bytes} {m : NewConnection} (hpc : w.sys.pc l.thread = .readConnection)
    (hb : l.received = some b) (hm : p.connection b = some m) :
    w.asks p l l.thread = some m.getOperation := by
  unfold Watched.asks request
  rw [hpc, hb, Function.update_self]
  simp [hm]

/-- The views of the others change by what they hear. -/
theorem passes_others (hI : Orderly w) (hC : Undisturbed w.sys l)
    (hs : Machine.step p w.sys l = some s') {c : Conn} (hc : c ≠ l.thread) :
    Passes c (w.view c) (Watched.view ⟨s', w.asks p l⟩ c) := by
  have hview : Watched.view ⟨s', w.asks p l⟩ c = { w.view c with packets := got s'.sent c } := by
    simp only [Watched.view, Watched.asks, Function.update_of_ne hc, (step_move hs).2 c hc]
  rw [hview]
  exact (step_hears hI hC hs (Or.inr (Or.inr hc))).passes

/-- A step of its own thread before the acknowledgement, or the acknowledgement. -/
theorem passes_of {pc pc' : Pc} (hasks : w.asks p l = w.asked) (hpc : w.sys.pc l.thread = pc)
    (hpc' : s'.pc l.thread = pc') {packets : List Packet} (hgot : got s'.sent l.thread = packets)
    (h : Passes l.thread ⟨w.asked l.thread, got w.sys.sent l.thread, pc⟩
      ⟨w.asked l.thread, packets, pc'⟩) :
    Passes l.thread (w.view l.thread) (Watched.view ⟨s', w.asks p l⟩ l.thread) := by
  have hview' : Watched.view ⟨s', w.asks p l⟩ l.thread = ⟨w.asked l.thread, packets, pc'⟩ := by
    simp only [Watched.view, hasks, hgot, hpc']
  rw [hview', Watched.view, hpc]
  exact h

/-- A step of its own thread that goes nowhere. -/
theorem passes_still (hI : Orderly w) (hC : Undisturbed w.sys l)
    (hs : Machine.step p w.sys l = some s') (hasks : w.asks p l = w.asked)
    (hown : s'.sent = w.sys.sent ∨ owns (w.sys.pc l.thread) = false)
    (hpc : s'.pc l.thread = w.sys.pc l.thread) :
    Passes l.thread (w.view l.thread) (Watched.view ⟨s', w.asks p l⟩ l.thread) := by
  have hview : Watched.view ⟨s', w.asks p l⟩ l.thread =
      { w.view l.thread with packets := got s'.sent l.thread } := by
    simp only [Watched.view, hasks, hpc]
  rw [hview]
  exact (step_hears hI hC hs (hown.imp_right Or.inl)).passes

/-- A step of its own thread behind the acknowledgement. -/
theorem passes_free (hI : Orderly w) (hC : Undisturbed w.sys l)
    (hs : Machine.step p w.sys l = some s') (hasks : w.asks p l = w.asked)
    (hown : s'.sent = w.sys.sent ∨ owns (w.sys.pc l.thread) = false)
    (hfree : free (s'.pc l.thread) = true)
    (hpending : Pending l.thread (w.sys.pc l.thread) →
      ∃ m, (l.thread, .createSessionAck m) ∈ s'.sent) :
    Passes l.thread (w.view l.thread) (Watched.view ⟨s', w.asks p l⟩ l.thread) := by
  refine (step_hears hI hC hs (hown.imp_right Or.inl)).passes.trans
    (passes_behind (congrFun hasks _) rfl hfree fun hv hp => ?_)
  refine settled_of_seated hv.stands (Or.inr hp) fun hp => ?_
  obtain ⟨m, hm⟩ := hpending hp
  exact ⟨m, mem_got.mpr hm⟩

theorem speaks_reads {s : Sys} {t : Conn} {ws : List Write} {pc pc' : Pc}
    (h : Speaks s t pc ws pc') : pc ≠ .readConnection := by
  rintro rfl
  cases h

/-- What a thread says. -/
theorem passes_speaks (hI : Orderly w) (hC : Undisturbed w.sys l)
    (hs : Machine.step p w.sys l = some s') {ws : List Write} {pc' : Pc}
    (h : Speaks w.sys l.thread (w.sys.pc l.thread) ws pc') (hpc' : s'.pc l.thread = pc')
    (hsent : s'.sent = w.sys.sent ++ ws) :
    Passes l.thread (w.view l.thread) (Watched.view ⟨s', w.asks p l⟩ l.thread) := by
  have hasks := asks_same (p := p) (speaks_reads h)
  have hgot (packet : Packet) (hws : ws = [(l.thread, packet)]) :
      got s'.sent l.thread = got w.sys.sent l.thread ++ [packet] := by
    rw [hsent, hws, got_append, got_self]
  have hfree (hown : owns (w.sys.pc l.thread) = false) (hf : free pc' = true)
      (hpending : Pending l.thread (w.sys.pc l.thread) →
        ∃ m, (l.thread, .createSessionAck m) ∈ ws) :
      Passes l.thread (w.view l.thread) (Watched.view ⟨s', w.asks p l⟩ l.thread) := by
    refine passes_free hI hC hs hasks (Or.inr hown) (hpc' ▸ hf) fun hp => ?_
    obtain ⟨m, hm⟩ := hpending hp
    exact ⟨m, by rw [hsent]; exact List.mem_append_right _ hm⟩
  generalize hpc : w.sys.pc l.thread = pc at h hfree
  cases h with
  | greet m => exact passes_of hasks hpc hpc' (hgot _ rfl) (passes_greet m)
  | joinRefuse joiner message m =>
    exact passes_of hasks hpc hpc' (hgot _ rfl)
      (passes_joinSessionAck m (Or.inl ⟨joiner, message, rfl⟩) rfl)
  | joinAck player id m =>
    exact passes_of hasks hpc hpc' (hgot _ rfl)
      (passes_joinSessionAck m (Or.inr ⟨player, id, rfl⟩) rfl)
  | randomAck player id uid m hm =>
    exact passes_of hasks hpc hpc' (hgot _ rfl) (passes_randomAck hm rfl)
  | randomNew joiner m hm =>
    exact passes_of hasks hpc hpc' (hgot _ rfl) (passes_randomNew hm)
  | createAck k m =>
    refine hfree rfl rfl fun hp => ⟨m, ?_⟩
    have hsocket : k.socket = l.thread := hp
    rw [hsocket]
    exact List.mem_singleton_self _
  | createRefuse k m => exact hfree rfl rfl False.elim
  | createAccept k m => exact hfree rfl rfl False.elim
  | createInvalidate k node hl hu => exact hfree rfl rfl False.elim
  | createBroadcast k node hl hu => exact hfree rfl rfl False.elim
  | joinBroadcast player id node hl ht => exact hfree rfl rfl False.elim
  | randomBroadcast player id uid node hl hu ht => exact hfree rfl rfl False.elim

/-- What a thread does without a write. -/
theorem passes_thinks (hI : Orderly w) (hC : Undisturbed w.sys l)
    (hs : Machine.step p w.sys l = some s') {pc' : Pc}
    (h : Thinks p w.sys l (w.sys.pc l.thread) pc') (hpc' : s'.pc l.thread = pc')
    (hsent : s'.sent = w.sys.sent) :
    Passes l.thread (w.view l.thread) (Watched.view ⟨s', w.asks p l⟩ l.thread) := by
  have hgot : got s'.sent l.thread = got w.sys.sent l.thread := by rw [hsent]
  have hfree (hasks : w.asks p l = w.asked) (hf : free pc' = true)
      (hpending : ¬ Pending l.thread (w.sys.pc l.thread)) :
      Passes l.thread (w.view l.thread) (Watched.view ⟨s', w.asks p l⟩ l.thread) :=
    passes_free hI hC hs hasks (Or.inl hsent) (hpc' ▸ hf) fun hp => absurd hp hpending
  have hasked {b : Bytes} {m : NewConnection} (hpc : w.sys.pc l.thread = .readConnection)
      (hb : l.received = some b) (hm : p.connection b = some m)
      (hop : Passes l.thread ⟨w.asked l.thread, got w.sys.sent l.thread, .readConnection⟩
        ⟨some m.getOperation, got w.sys.sent l.thread, pc'⟩) :
      Passes l.thread (w.view l.thread) (Watched.view ⟨s', w.asks p l⟩ l.thread) := by
    have hview' : Watched.view ⟨s', w.asks p l⟩ l.thread =
        ⟨some m.getOperation, got w.sys.sent l.thread, pc'⟩ := by
      simp only [Watched.view, asks_some hpc hb hm, hgot, hpc']
    rw [hview', Watched.view, hpc]
    exact hop
  generalize hpc : w.sys.pc l.thread = pc at h hfree hasked
  have hasks (hreads : pc ≠ .readConnection) : w.asks p l = w.asked := asks_same (hpc ▸ hreads)
  cases h with
  | leaves hb => exact hfree (asks_none hb) rfl id
  | create b m hb hm hop => exact hasked rfl hb hm (passes_asks (Or.inl ⟨_, hop, rfl⟩))
  | specific b m hb hm hop =>
    exact hasked rfl hb hm (passes_asks (Or.inr (Or.inl ⟨_, _, hop, rfl⟩)))
  | random b m hb hm hop hop' =>
    exact hasked rfl hb hm (passes_asks (Or.inr (Or.inr ⟨_, ⟨hop, hop'⟩, rfl⟩)))
  | logged k => exact passes_of (hasks (by simp)) hpc hpc' hgot (passes_createLog k)
  | lost k hb => exact hfree (hasks (by simp)) rfl id
  | alone k => exact hfree (hasks (by simp)) rfl id
  | starts k node hl hu hn => exact hfree (hasks (by simp)) rfl id
  | refused joiner id message =>
    exact passes_of (hasks (by simp)) hpc hpc' hgot (passes_joinLock (Or.inl ⟨message, rfl⟩))
  | noSession joiner =>
    exact passes_of (hasks (by simp)) hpc hpc' hgot (passes_randomLock (Or.inl rfl))

theorem plays_pending {game : Game} {call : GameM PUnit} {v : World} {pc : Pc} {c : Conn}
    (h : Plays p l pc game call v) :
    pc ≠ .readConnection ∧ owns pc = false ∧ free pc = true ∧ ¬ Pending c pc := by
  cases h with
  | turn game => exact ⟨by simp, rfl, rfl, id⟩
  | endGame game => exact ⟨by simp, rfl, rfl, id⟩

theorem subscripts_pending {pc : Pc} {id : ℤ} {c : Conn} (h : pc.subscripts = some id) :
    pc ≠ .readConnection ∧ (pc.hold = none → ¬ Pending c pc) := by
  cases pc with
  | createLog k => exact ⟨by simp, fun hh => by cases hh⟩
  | joinBroadcast player id => exact ⟨by simp, fun _ hp => hp⟩
  | _ => cases h

/-- **An undisturbed step keeps the handshake of its own connection in order.** -/
theorem passes_own (hI : Orderly w) (hC : Undisturbed w.sys l)
    (hs : Machine.step p w.sys l = some s') :
    Passes l.thread (w.view l.thread) (Watched.view ⟨s', w.asks p l⟩ l.thread) := by
  have hstill {pc : Pc} (hpc : w.sys.pc l.thread = pc) (hreads : pc ≠ .readConnection)
      (hpc' : s'.pc l.thread = pc) (hsent : s'.sent = w.sys.sent) :
      Passes l.thread (w.view l.thread) (Watched.view ⟨s', w.asks p l⟩ l.thread) :=
    passes_still hI hC hs (asks_same (hpc ▸ hreads)) (Or.inl hsent) (hpc'.trans hpc.symm)
  have hfree {pc pc' : Pc} (hpc : w.sys.pc l.thread = pc) (hreads : pc ≠ .readConnection)
      (hpending : ¬ Pending l.thread pc) (hpc' : s'.pc l.thread = pc') (hf : free pc' = true)
      (hsent : s'.sent = w.sys.sent) :
      Passes l.thread (w.view l.thread) (Watched.view ⟨s', w.asks p l⟩ l.thread) :=
    passes_free hI hC hs (asks_same (hpc ▸ hreads)) (Or.inl hsent) (hpc' ▸ hf) fun hp =>
      absurd (hpc ▸ hp) hpending
  cases (step_move hs).1 with
  | speaks ws pc' hspeaks hout hk hpc' hsent =>
    exact passes_speaks hI hC hs hspeaks hpc' hsent
  | cut ws pc' hspeaks hout hk hpc' hsent =>
    refine passes_still hI hC hs (asks_same (speaks_reads hspeaks)) ?_ hpc'
    by_cases haddr : addresses (w.sys.pc l.thread) = true
    · refine Or.inr ?_
      generalize w.sys.pc l.thread = pc at haddr
      cases pc <;> first | rfl | cases haddr
    · rw [hsent, speaks_cut hspeaks (eq_false_of_ne_true haddr) hout, List.append_nil]
      exact Or.inl rfl
  | thinks pc' hthinks hk hpc' hsent => exact passes_thinks hI hC hs hthinks hpc' hsent
  | plays game call v hplays hk hpc' hsent =>
    obtain ⟨hreads, hown, hf, hp⟩ := plays_pending (c := l.thread) hplays
    refine passes_free hI hC hs (asks_same hreads) (Or.inr hown) ?_ fun h => absurd h hp
    rcases hpc' with hpc' | hpc' | hpc' <;> rw [hpc']
    · rfl
    · rfl
    · exact hf
  | dies hreads hk hpc' hsent => exact hstill rfl hreads hpc' hsent
  | inserted leader hpc hnew hs hu hj hg hpc' hsent =>
    exact passes_of (asks_same (by simp [hpc])) hpc hpc' (by rw [hsent])
      (passes_createEmplace leader _)
  | collided leader first node hpc hold hfirst hk hpc' hsent =>
    exact passes_of (asks_same (by simp [hpc])) hpc hpc' (by rw [hsent])
      (passes_createEmplace leader _)
  | madeUp id hsub hnew hs hu hj hg hpc' hsent =>
    obtain ⟨hreads, hpending⟩ := subscripts_pending (c := l.thread) hsub
    rcases hpc' with hpc' | ⟨hh, hpc'⟩
    · exact hstill rfl hreads hpc' hsent
    · exact hfree rfl hreads (hpending hh) hpc' rfl hsent
  | joined name id node hold haccept hpc hs hu hj hg hsent =>
    rcases hpc with ⟨hpc, hpc'⟩ | ⟨hpc, hpc'⟩
    · exact passes_of (asks_same (by simp [hpc])) hpc hpc' (by rw [hsent])
        (passes_joinLock (Or.inr rfl))
    · exact passes_of (asks_same (by simp [hpc])) hpc hpc' (by rw [hsent])
        (passes_randomLock (Or.inr ⟨id, node.uid, rfl⟩))
  | moved k node hpc hold huid hs hu hj hg hpc' hsent =>
    exact hfree hpc (by simp) id hpc' rfl hsent
  | erased k hpc hs hu hj hg hsent =>
    rcases hpc with ⟨hpc, hpc'⟩ | ⟨game, hpc, hpc'⟩
    · exact hfree hpc (by simp) id hpc' rfl hsent
    · exact hfree hpc (by simp) id hpc' rfl hsent

/-- **An undisturbed step keeps every handshake in order.** -/
theorem step_passes (hI : Orderly w) (hC : Undisturbed w.sys l)
    (hs : Machine.step p w.sys l = some s') (c : Conn) :
    Passes c (w.view c) (Watched.view ⟨s', w.asks p l⟩ c) := by
  by_cases hc : c = l.thread
  · subst hc
    exact passes_own hI hC hs
  · exact passes_others hI hC hs hc

end Passing

end HanabiBot.Lobby.Views
