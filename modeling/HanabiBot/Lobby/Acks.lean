import HanabiBot.Lib.Runs
import HanabiBot.Lobby.Views

/-! # The acknowledgement comes first

A client that has sent its request reads one frame, and takes it for the acknowledgement of its
operation. `Acknowledged` says that all that was written to a connection is in the order the client
expects.

News of others that reach a connection between its seat and its acknowledgement come first. The
acknowledgements come first exactly in the runs in which no news reach a waiting connection
(`acknowledged_iff`). -/

namespace HanabiBot.Lobby.Acks

open HanabiBot.Lib.Runs HanabiBot.Common.Messages HanabiBot.HanabiGame.State
open HanabiBot.HanabiGame.Audience HanabiBot.Lobby.Machine HanabiBot.Lobby.Moves
open HanabiBot.Lobby.Sections HanabiBot.Lobby.Table HanabiBot.Lobby.Seats HanabiBot.Lobby.Handshake
open HanabiBot.Lobby.Writes HanabiBot.Lobby.Views

/-- Every connection gets its acknowledgement first. -/
def Acknowledged (w : Watched) : Prop := ∀ c, AckFirst (w.asked c) (got w.sys.sent c)

/-! ### Who has a seat, who leads, who plays -/

section Places
variable {p : Parsers} {w : Watched} {l : Label} {s s' : Sys}

/-- Where a seat comes from. -/
theorem move_seat (h : Move p l s s') {c : Conn} (hc : c ∈ allSeats s') :
    c ∈ allSeats s ∨ c = l.thread ∧ Pending c (s'.pc l.thread) := by
  rcases step_seats h with ⟨hsub, -⟩ | ⟨hperm, -, hpending⟩
  · exact Or.inl (hsub.subset hc)
  · rcases List.mem_cons.mp (hperm.mem_iff.mp hc) with rfl | hold
    · exact Or.inr ⟨rfl, hpending⟩
    · exact Or.inl hold

/-- Where a game comes from. -/
theorem move_gameOf (h : Move p l s s') {game : Game} (hg : gameOf (s'.pc l.thread) = some game) :
    (∃ old, gameOf (s.pc l.thread) = some old ∧ game.players = old.players) ∨
      ∃ k node, s.pc l.thread = .createMove k ∧ s.sessions.lookup k.id = some node ∧
        game.players = node.session.players ∧ (node.uid, game) ∈ s'.games := by
  have hsame (hpc : s'.pc l.thread = s.pc l.thread) :
      ∃ old, gameOf (s.pc l.thread) = some old ∧ game.players = old.players :=
    ⟨game, hpc ▸ hg, rfl⟩
  cases h with
  | speaks ws pc' hspeaks hout hk hpc' hsent =>
    rw [hpc'] at hg
    generalize s.pc l.thread = pc at hspeaks
    cases hspeaks <;> cases hg
  | cut ws pc' hspeaks hout hk hpc' hsent => exact Or.inl (hsame hpc')
  | thinks pc' hthinks hk hpc' hsent =>
    rw [hpc'] at hg
    generalize s.pc l.thread = pc at hthinks
    cases hthinks <;> cases hg
  | plays old call v hplays hk hpc' hsent =>
    rcases hpc' with hpc' | hpc' | hpc'
    · rw [hpc'] at hg
      cases hg
    · rw [hpc'] at hg
      cases hg
      generalize s.pc l.thread = pc at hplays
      cases hplays with
      | turn => exact Or.inl ⟨old, rfl, (addressing_turn 0 _ rfl).1⟩
      | endGame => exact Or.inl ⟨old, rfl, (addressing_endGame _ rfl).1⟩
    · exact Or.inl (hsame hpc')
  | dies hreads hk hpc' hsent => exact Or.inl (hsame hpc')
  | inserted leader hpc hnew hs hu hj hg' hpc' hsent => rw [hpc'] at hg; cases hg
  | collided leader first node hpc hold hfirst hk hpc' hsent => rw [hpc'] at hg; cases hg
  | madeUp id hpc hnew hs hu hj hg' hpc' hsent =>
    rcases hpc' with hpc' | ⟨-, hpc'⟩
    · exact Or.inl (hsame hpc')
    · rw [hpc'] at hg
      cases hg
  | joined name id node hold haccept hpc hs hu hj hg' hsent =>
    rcases hpc with ⟨-, hpc'⟩ | ⟨-, hpc'⟩ <;> rw [hpc'] at hg <;> cases hg
  | moved k node hpc hold huid hs hu hj hg' hpc' hsent =>
    rw [hpc'] at hg
    cases hg
    refine Or.inr ⟨k, node, hpc, hold, rfl, ?_⟩
    rw [hg']
    exact List.mem_append_right _ List.mem_cons_self
  | erased k hpc hs hu hj hg' hsent =>
    rcases hpc with ⟨-, hpc'⟩ | ⟨old, hpc, hpc'⟩
    · rw [hpc'] at hg
      cases hg
    · rw [hpc'] at hg
      cases hg
      exact Or.inl ⟨game, by rw [hpc]; rfl, rfl⟩

theorem move_game (h : Move p l s s') {game : Game} (hg : gameOf (s'.pc l.thread) = some game) :
    (∃ old, gameOf (s.pc l.thread) = some old ∧ game.players = old.players) ∨
      ∃ uid, (uid, game) ∈ s'.games := by
  rcases move_gameOf h hg with hold | ⟨k, node, -, -, -, hmem⟩
  · exact Or.inl hold
  · exact Or.inr ⟨_, hmem⟩

theorem gameSeats_mono {games games' : List (ℕ × Game)} (h : games <+: games') {c : Conn}
    (hc : c ∈ gameSeats games) : c ∈ gameSeats games' := by
  obtain ⟨g, hg, hmem⟩ := List.mem_flatMap.mp hc
  exact List.mem_flatMap.mpr ⟨g, h.subset hg, hmem⟩

end Places

/-! ### The runs -/

section Runs
variable {p : Parsers} {w : Watched} {l : Label} {s' : Sys}

/-- The leaders, after a step that keeps them. -/
theorem heads_step (hI : Orderly w) (hs : Machine.step p w.sys l = some s') {w' : Watched}
    (hsys : w'.sys = s') (hfits : (w'.view l.thread).Fits)
    (hleads : ∀ c, (w.view c).Leads → (w'.view c).Leads) :
    (∀ id node first, s'.sessions.lookup id = some node →
        node.session.players.head? = some first → (w'.view first.socket).Leads) ∧
      ∀ t h moved, (s'.pc t).hold = some (h, moved) → (w'.view h.socket).Leads := by
  subst hsys
  obtain ⟨htable, hothers⟩ := step_table hs
  have hheads (hsess : w'.sys.sessions = w.sys.sessions) : ∀ id node first,
      w'.sys.sessions.lookup id = some node → node.session.players.head? = some first →
        (w'.view first.socket).Leads := by
    intro id node first hl hf
    rw [hsess] at hl
    exact hleads _ (hI.heads id node first hl hf)
  have hinsert {id : ℤ} {new : Node} (hsess : w'.sys.sessions = w.sys.sessions.insert id new)
      (hnew : ∀ first, new.session.players.head? = some first → (w'.view first.socket).Leads) :
      ∀ id node first, w'.sys.sessions.lookup id = some node →
        node.session.players.head? = some first → (w'.view first.socket).Leads := by
    intro id node first hl hf
    rw [hsess] at hl
    rcases lookup_insert_cases hl with ⟨rfl, rfl⟩ | ⟨-, hl⟩
    · exact hnew first hf
    · exact hleads _ (hI.heads id node first hl hf)
  have hholds (hown : ∀ h moved, (w'.sys.pc l.thread).hold = some (h, moved) →
      (w'.view h.socket).Leads) : ∀ t h moved, (w'.sys.pc t).hold = some (h, moved) →
        (w'.view h.socket).Leads := by
    intro t h moved hh
    by_cases ht : t = l.thread
    · exact hown h moved (ht ▸ hh)
    · rw [hothers t ht] at hh
      exact hleads _ (hI.holds t h moved hh)
  have hsame (hh : (w'.sys.pc l.thread).hold = (w.sys.pc l.thread).hold) (h : Hold) (moved : Bool)
      (hh' : (w'.sys.pc l.thread).hold = some (h, moved)) : (w'.view h.socket).Leads :=
    hleads _ (hI.holds l.thread h moved (hh ▸ hh'))
  have hnone (hh : (w'.sys.pc l.thread).hold = none) (h : Hold) (moved : Bool)
      (hh' : (w'.sys.pc l.thread).hold = some (h, moved)) : (w'.view h.socket).Leads := by
    rw [hh] at hh'
    cases hh'
  cases htable with
  | quiet hsess hu hh => exact ⟨hheads hsess, hholds (hsame hh)⟩
  | inserted leader hpc hnew hsess hu hpc' =>
    have hnewLeads : (w'.view l.thread).Leads := leads_createLog hpc' hfits.stands
    refine ⟨hinsert hsess fun first hf => ?_, hholds fun h moved hh => ?_⟩
    · cases hf
      exact hnewLeads
    · rw [hpc'] at hh
      cases hh
      exact hnewLeads
  | collided leader first node hpc hold hfirst hsess hu hpc' =>
    refine ⟨hheads hsess, hholds fun h moved hh => ?_⟩
    rw [hpc'] at hh
    cases hh
    exact hleads _ (hI.heads _ node first hold hfirst)
  | madeUp id hpc hnew hsess hu hh =>
    exact ⟨hinsert hsess (fun first hf => nomatch hf), hholds (hsame hh)⟩
  | joined id old joiner hh hold hne hsess hu hh' =>
    refine ⟨hinsert hsess fun first hf => ?_, hholds (hnone hh')⟩
    refine hleads _ (hI.heads _ old first hold ?_)
    rwa [← List.head?_append_of_ne_nil _ hne]
  | moved k old game hpc hold huid hsess hu hpc' =>
    refine ⟨hinsert hsess (fun first hf => nomatch hf), hholds fun h moved hh => ?_⟩
    rw [hpc'] at hh
    cases hh
    exact hleads _ (hI.holds l.thread _ false (by rw [hpc]; rfl))
  | erased k moved hh hsess hu hh' =>
    refine ⟨fun id node first hl hf => ?_, hholds (hnone hh')⟩
    rw [hsess] at hl
    exact hleads _ (hI.heads id node first (lookup_erase_some hl).2 hf)

/-- **An undisturbed step keeps the order.** -/
theorem orderly_step (hI : Orderly w) (hC : Undisturbed w.sys l)
    (hs : Machine.step p w.sys l = some s') : Orderly ⟨s', w.asks p l⟩ := by
  obtain ⟨hmove, hothers⟩ := step_move hs
  have hpasses := step_passes hI hC hs
  have hfits (c : Conn) := (hpasses c).fits (hI.fits c)
  obtain ⟨hheads, hholds⟩ := heads_step hI hs rfl (hfits l.thread) fun c hl =>
    (hpasses c).leads (hI.fits c) hl
  refine ⟨hfits, fun c hc => ?_, hheads, hholds, fun t game hg c hc => ?_⟩
  · rcases move_seat hmove hc with hold | ⟨rfl, hpending⟩
    · exact (hpasses c).seated (hI.fits c) (hI.seats c hold)
    · exact Or.inr hpending
  · have hmono := gameSeats_mono (move_games_initial hmove) (c := c)
    by_cases ht : t = l.thread
    · subst ht
      rcases move_game hmove hg with ⟨old, hold, hplayers⟩ | ⟨uid, hmem⟩
      · exact hmono (hI.games _ old hold c (hplayers ▸ hc))
      · exact List.mem_flatMap.mpr ⟨_, hmem, hc⟩
    · have hold : gameOf (w.sys.pc t) = some game := hothers t ht ▸ hg
      exact hmono (hI.games t game hold c hc)

theorem orderly_init : Orderly .init where
  fits c := ⟨.silent, rfl, rfl⟩
  seats c hc := by cases hc
  heads id node first hl := by cases hl
  holds t h moved hh := by cases hh
  games t game hg := by cases hg

/-- **News that reach a waiting connection come before its acknowledgement.** -/
theorem disturbed_step (hI : Orderly w) (hC : ¬ Undisturbed w.sys l) :
    ∃ w', Watched.step p w l = some w' ∧ ¬ Acknowledged w' := by
  unfold Undisturbed at hC
  push Not at hC
  obtain ⟨hlive, c, hc, hpending, hwaiting⟩ := hC
  have haddr : addresses (w.sys.pc l.thread) = true := by
    have hmem := reached_subset hc
    unfold audience at hmem
    split at hmem
    · next game hpc => rw [hpc]; rfl
    · split_ifs at hmem with h
      · exact h
      · cases hmem
  obtain ⟨s', ws, hs, hsent, hnews, hto⟩ := step_tells (p := p) hlive haddr
  have hasks : w.asks p l = w.asked := asks_same fun hpc => by
    rw [hpc] at haddr
    cases haddr
  refine ⟨⟨s', w.asks p l⟩, by unfold Watched.step; rw [hs]; rfl, fun hack => ?_⟩
  obtain ⟨packet, more, hgot, hmem⟩ := got_cons ((hto c).mpr hc)
  have hfirst := hack c
  simp only [hasks, hsent, got_append, hgot] at hfirst
  exact not_ackFirst_waiting (hI.fits c).stands hpending (fun m hm => hwaiting m (mem_got.mp hm))
    (hnews _ hmem) more hfirst

/-- **When the acknowledgement comes first**: exactly in the runs in which no news reach a
connection between its seat and its acknowledgement. -/
theorem acknowledged_iff (p : Parsers) (run : List Label) :
    States (Watched.step p) Acknowledged .init run ↔
      Along (Watched.step p) (fun w l => Undisturbed w.sys l) .init run := by
  refine states_iff (I := Orderly) ?_ (fun w hI c => (hI.fits c).first)
    (fun w l hI hC => disturbed_step hI hC) orderly_init run
  intro w l w' hI hC hs
  obtain ⟨s', hs', rfl⟩ := Option.map_eq_some_iff.mp hs
  exact orderly_step hI hC hs'

end Runs

/-- A leader creates session `0`. Another client joins it, and before its acknowledgement is written
the leader sends a start request, which is accepted. -/
def earlyStart : List Label := List.flatten
  [entering 0 [16, 1], steps 0 3, entering 1 [16, 2, 24, 0], steps 1 1, [.plain 0 (some [])],
    steps 0 2]

/-- The first frame behind the greeting of the client is the news of the start. -/
theorem news_before_ack : ¬ States (Watched.step plainParsers) Acknowledged .init earlyStart := by
  intro h
  have hack := h.last 1
  have hgot : got (last (Watched.step plainParsers) .init earlyStart).sys.sent 1 =
      [.ack ⟨some .succeed, some "Welcome to the server!"⟩, .info ⟨some gameStartedStr, none⟩] := by
    decide +kernel
  rw [hgot] at hack
  have hnews : IsNews (.info ⟨some gameStartedStr, none⟩) := trivial
  exact not_ackFirst_greeted hnews [] hack

end HanabiBot.Lobby.Acks
