import HanabiBot.Lobby.Moves

/-! # The sections make moves

Every section of `Machine.act` is one of the moves (`act_moves`), so there is nothing else that a
step can do, and the threads that do not move stand where they stood (`step_move`). -/

namespace HanabiBot.Lobby.Sections

open HanabiBot.Lib.Calls HanabiBot.Common.Messages HanabiBot.HanabiGame.State
open HanabiBot.HanabiGame.Play HanabiBot.Lobby.Sessions HanabiBot.Lobby.Machine
open HanabiBot.Lobby.Moves

/-! ### The sections -/

/-- What a section does: it speaks, or it makes a silent move. The other threads stay. -/
def Act.Fine (p : Parsers) (l : Label) (s : Sys) : Act → Prop
  | .write ws next =>
    ((∃ pc', Speaks s l.thread (s.pc l.thread) ws pc' ∧ Kept s next ∧ next.pc l.thread = pc' ∧
        next.sent = s.sent) ∨ ws = [] ∧ Move p l s next) ∧
      ∀ t ≠ l.thread, next.pc t = s.pc t
  | .crash c next => Move p l s { next with crash := some c } ∧ next.pc = s.pc

section Acts
variable {p : Parsers} {s : Sys} {l : Label}

theorem moves_speaks {ws : List Write} {next : Sys} {pc pc' : Pc} (hpc : s.pc l.thread = pc)
    (h : Speaks s l.thread pc ws pc') (hk : Kept s next) (hsent : next.sent = s.sent)
    (hothers : next.pc = s.pc) : Act.Fine p l s (.write ws (next.setPc l.thread pc')) := by
  refine ⟨Or.inl ⟨pc', hpc ▸ h, ⟨hk.1, hk.2, hk.3, hk.4⟩, setPc_self .., hsent⟩, fun t ht => ?_⟩
  rw [setPc_ne next ht, hothers]

theorem moves_silent {next : Sys} {pc' : Pc} (h : Move p l s (next.setPc l.thread pc'))
    (hothers : next.pc = s.pc) : Act.Fine p l s (.write [] (next.setPc l.thread pc')) := by
  refine ⟨Or.inr ⟨rfl, h⟩, fun t ht => ?_⟩
  rw [setPc_ne next ht, hothers]

theorem moves_thinks {next : Sys} {pc pc' : Pc} (hpc : s.pc l.thread = pc)
    (h : Thinks p s l pc pc') (hk : Kept s next) (hsent : next.sent = s.sent)
    (hothers : next.pc = s.pc) : Act.Fine p l s (.write [] (next.setPc l.thread pc')) :=
  moves_silent (.thinks pc' (hpc ▸ h) ⟨hk.1, hk.2, hk.3, hk.4⟩ (setPc_self ..) hsent) hothers

theorem kept_refl (s : Sys) : Kept s s := ⟨rfl, rfl, rfl, rfl⟩

theorem moves_dies {c : Crash} {next : Sys} (hreads : s.pc l.thread ≠ .readConnection)
    (hk : Kept s next) (hsent : next.sent = s.sent) (hothers : next.pc = s.pc) :
    Act.Fine p l s (.crash c next) :=
  ⟨.dies hreads ⟨hk.1, hk.2, hk.3, hk.4⟩ (congrFun hothers _) hsent, hothers⟩

theorem moves_withPlayer {c : Conn} {a : Act} (hreads : s.pc l.thread ≠ .readConnection)
    (h : c ∉ s.gone → Act.Fine p l s a) :
    Act.Fine p l s (withPlayer s l c a) := by
  unfold withPlayer
  split_ifs with hc
  · exact moves_dies hreads (kept_refl s) rfl rfl
  · exact h hc

theorem moves_withNode {id : ℤ} {uid : ℕ} {a : Node → Act}
    (hreads : s.pc l.thread ≠ .readConnection)
    (h : ∀ node, s.sessions.lookup id = some node → node.uid = uid → Act.Fine p l s (a node)) :
    Act.Fine p l s (withNode s l id uid a) := by
  unfold withNode
  split
  · next node hn => exact h node (find_some hn).1 (find_some hn).2
  · exact moves_dies hreads (kept_refl s) rfl rfl

theorem moves_handleConnection (hpc : s.pc l.thread = .readConnection) :
    Act.Fine p l s (handleConnection p s l) := by
  have hleaves (hb : l.received.bind p.connection = none) :
      Act.Fine p l s (.write [] ((s.destroy [l.player ""]).setPc l.thread .done)) :=
    moves_thinks hpc (.leaves hb) ⟨rfl, rfl, rfl, rfl⟩ rfl rfl
  unfold handleConnection
  cases hb : l.received with
  | none => exact hleaves (by rw [hb]; rfl)
  | some b =>
    simp only
    cases hm : p.connection b with
    | none => exact hleaves (by rw [hb, Option.bind_some, hm])
    | some m =>
      simp only
      split
      · next hop => exact moves_thinks hpc (.create b m hb hm hop) (kept_refl s) rfl rfl
      · next hop => exact moves_thinks hpc (.specific b m hb hm hop) (kept_refl s) rfl rfl
      · next hop hop' => exact moves_thinks hpc (.random b m hb hm hop hop') (kept_refl s) rfl rfl

theorem moves_createEmplace {leader : String} (hpc : s.pc l.thread = .createEmplace leader) :
    Act.Fine p l s (createEmplace s l leader) := by
  have hreads : s.pc l.thread ≠ .readConnection := by simp [hpc]
  unfold createEmplace
  cases hl : s.sessions.lookup (s.size : ℤ) with
  | none =>
    simp only [emplace_free s hl]
    exact moves_silent (.inserted leader hpc hl rfl rfl rfl rfl (setPc_self ..) rfl) rfl
  | some node =>
    simp only [emplace_taken s hl]
    cases hplayers : node.session.players with
    | nil => exact moves_dies hreads ⟨rfl, rfl, rfl, rfl⟩ rfl rfl
    | cons first rest =>
      have hfirst : node.session.players.head? = some first := by rw [hplayers]; rfl
      exact moves_silent (.collided leader first node hpc hl hfirst ⟨rfl, rfl, rfl, rfl⟩
        (setPc_self ..) rfl) rfl

theorem moves_createLog {h : Hold} (hpc : s.pc l.thread = .createLog h) :
    Act.Fine p l s (createLog s l h) := by
  have hreads : s.pc l.thread ≠ .readConnection := by simp [hpc]
  have hsub : (s.pc l.thread).subscripts = some h.id := by rw [hpc]; rfl
  unfold createLog
  cases hl : s.sessions.lookup h.id with
  | none =>
    rw [subscript_absent s hl]
    exact ⟨.madeUp h.id hsub hl rfl rfl rfl rfl (Or.inl rfl) rfl, rfl⟩
  | some node =>
    rw [subscript_present s hl]
    simp only
    cases node.session.players with
    | nil => exact moves_dies hreads (kept_refl s) rfl rfl
    | cons first rest => exact moves_thinks hpc (.logged h) (kept_refl s) rfl rfl

theorem moves_createWait {h : Hold} (hpc : s.pc l.thread = .createWait h) :
    Act.Fine p l s (createWait s l h) := by
  have hreads : s.pc l.thread ≠ .readConnection := by simp [hpc]
  refine moves_withPlayer hreads fun _ => ?_
  cases hb : l.received with
  | none => exact moves_thinks hpc (.lost h hb) (kept_refl s) rfl rfl
  | some b =>
    refine moves_withNode hreads fun node hl hu => ?_
    split_ifs with hn
    · exact moves_thinks hpc (.alone h) (kept_refl s) rfl rfl
    · exact moves_thinks hpc (.starts h node hl hu hn) (kept_refl s) rfl rfl

theorem moves_createMove {h : Hold} (hpc : s.pc l.thread = .createMove h) :
    Act.Fine p l s (createMove s l h) :=
  moves_withNode (by simp [hpc]) fun node hl hu =>
    moves_silent (.moved h node hpc hl hu rfl rfl rfl rfl (setPc_self ..) rfl) rfl

theorem moves_erase {h : Hold} {pc' : Pc}
    (hpc : s.pc l.thread = .createErase h ∧ pc' = .done ∨
      ∃ game, s.pc l.thread = .createEraseStarted h game ∧ pc' = .playing game) :
    Act.Fine p l s (.write [] ((s.erase h.id).setPc l.thread pc')) := by
  obtain ⟨hu, hothers, hg, hj, hsent⟩ := erase_rest s h.id
  refine moves_silent (.erased h ?_ (erase_sessions s h.id) hu hj hg hsent) hothers
  rw [setPc_self]
  exact hpc

theorem moves_play {game : Game} (hpc : s.pc l.thread = .playing game) :
    Act.Fine p l s (play p s l game) := by
  have hplays : Plays p l (s.pc l.thread) game (turn ⟨p.response, l.writeOk⟩ 0)
      ⟨deal game, l.responses, 0, []⟩ := by
    rw [hpc]
    exact .turn game
  unfold play
  split
  · next w hr =>
    refine moves_silent (.plays game _ _ hplays ⟨rfl, rfl, rfl, rfl⟩ (Or.inl (setPc_self ..)) ?_) rfl
    rw [after_of_ok hr]
    rfl
  · next x w hr =>
    refine moves_silent (.plays game _ _ hplays ⟨rfl, rfl, rfl, rfl⟩ (Or.inr (Or.inl ?_)) ?_) rfl
    · rw [setPc_self, after_of_error hr]
    · rw [after_of_error hr]
      rfl
  · next stop w hne hr =>
    refine ⟨.plays game _ _ hplays ⟨rfl, rfl, rfl, rfl⟩ (Or.inr (Or.inr rfl)) ?_, rfl⟩
    rw [after_of_error hr]

theorem moves_catchPlay {game : Game} (hpc : s.pc l.thread = .catching game) :
    Act.Fine p l s (catchPlay p s l game) := by
  have hplays : Plays p l (s.pc l.thread) game (endGame ⟨p.response, l.writeOk⟩)
      ⟨game, [], 0, []⟩ := by
    rw [hpc]
    exact .endGame game
  unfold catchPlay
  split
  · next w hr =>
    refine moves_silent (.plays game _ _ hplays ⟨rfl, rfl, rfl, rfl⟩ (Or.inl (setPc_self ..)) ?_) rfl
    rw [after_of_ok hr]
    rfl
  · next x w hr =>
    refine ⟨.plays game _ _ hplays ⟨rfl, rfl, rfl, rfl⟩ (Or.inr (Or.inr rfl)) ?_, rfl⟩
    rw [after_of_error hr]
  · next stop w hne hr =>
    refine ⟨.plays game _ _ hplays ⟨rfl, rfl, rfl, rfl⟩ (Or.inr (Or.inr rfl)) ?_, rfl⟩
    rw [after_of_error hr]

theorem moves_joined {name : String} {id : ℤ} {node : Node} {session : Session} {pc' : Pc}
    (hl : s.sessions.lookup id = some node)
    (hj : node.session.join l.isOpen (l.player name) = some session)
    (hpc : s.pc l.thread = .joinLock name id ∧ pc' = .joinAck name id ∨
      s.pc l.thread = .randomLock name ∧ pc' = .randomAck name id node.uid)
    (hfirst : ∀ joiner, s.pc l.thread = .randomLock joiner → l.order.Perm s.sessions.keys ∧
      (firstJoin s l.isOpen (l.player joiner) l.order).map Prod.fst = some id) :
    Act.Fine p l s
      (.write [] ((s.accept id node session (l.player name)).setPc l.thread pc')) := by
  have haccept : (node.session.join l.isOpen ⟨name, l.thread⟩).isSome := by
    rw [show (⟨name, l.thread⟩ : Player) = l.player name from rfl, hj]
    rfl
  obtain ⟨-, -, rfl⟩ := Session.join_some hj
  refine moves_silent (.joined name id node hl haccept ?_ rfl rfl rfl rfl rfl hfirst) rfl
  rw [setPc_self]
  exact hpc

theorem moves_joinLock {joiner : String} {id : ℤ} (hpc : s.pc l.thread = .joinLock joiner id) :
    Act.Fine p l s (joinLock s l joiner id) := by
  have hrefused (message : String) :
      Act.Fine p l s (.write [] (s.setPc l.thread (.joinRefuse joiner message))) :=
    moves_thinks hpc (.refused joiner id message) (kept_refl s) rfl rfl
  unfold joinLock
  cases hl : s.sessions.lookup id with
  | none => exact hrefused _
  | some node =>
    simp only
    split_ifs
    · exact hrefused _
    · cases hj : node.session.join l.isOpen (l.player joiner) with
      | none => exact hrefused _
      | some session =>
        refine moves_joined hl hj (Or.inl ⟨hpc, rfl⟩) fun joiner' hpc' => ?_
        rw [hpc] at hpc'
        cases hpc'

theorem moves_joinBroadcast {player : String} {id : ℤ}
    (hpc : s.pc l.thread = .joinBroadcast player id) :
    Act.Fine p l s (joinBroadcast s l player id) := by
  have hreads : s.pc l.thread ≠ .readConnection := by simp [hpc]
  have hsub : (s.pc l.thread).subscripts = some id := by rw [hpc]; rfl
  have hh : (s.pc l.thread).hold = none := by rw [hpc]; rfl
  unfold joinBroadcast withPlayer
  cases hl : s.sessions.lookup id with
  | none =>
    rw [subscript_absent s hl]
    simp only
    split_ifs
    · exact ⟨.madeUp id hsub hl rfl rfl rfl rfl (Or.inl rfl) rfl, rfl⟩
    · exact moves_silent (.madeUp id hsub hl rfl rfl rfl rfl (Or.inr ⟨hh, setPc_self ..⟩) rfl) rfl
  | some node =>
    rw [subscript_present s hl]
    simp only
    split_ifs with ht
    · exact moves_dies hreads (kept_refl s) rfl rfl
    · exact moves_speaks hpc (.joinBroadcast player id node hl ht) (kept_refl s) rfl rfl

theorem moves_randomLock {joiner : String} (hpc : s.pc l.thread = .randomLock joiner)
    (hperm : l.order.Perm s.sessions.keys) :
    Act.Fine p l s (randomLock s l joiner) := by
  unfold randomLock
  cases hf : firstJoin s l.isOpen (l.player joiner) l.order with
  | none => exact moves_thinks hpc (.noSession joiner) (kept_refl s) rfl rfl
  | some found =>
    obtain ⟨id, node, session⟩ := found
    obtain ⟨hl, hj⟩ := firstJoin_some hf
    refine moves_joined hl hj (Or.inr ⟨hpc, rfl⟩) fun joiner' hpc' => ⟨hperm, ?_⟩
    rw [hpc] at hpc'
    cases hpc'
    rw [hf]
    rfl

/-- **Every section makes a move.** -/
theorem act_moves {a : Act} (h : act p s l = some a) : Act.Fine p l s a := by
  have hk := kept_refl s
  unfold act at h
  by_cases hreads : s.pc l.thread = .readConnection
  · rw [hreads] at h
    cases h
    exact moves_handleConnection hreads
  cases hpc : s.pc l.thread with
  | greet => rw [hpc] at h; cases h; exact moves_speaks hpc (.greet _) hk rfl rfl
  | readConnection => exact absurd hpc hreads
  | createEmplace leader => rw [hpc] at h; cases h; exact moves_createEmplace hpc
  | createLog k => rw [hpc] at h; cases h; exact moves_createLog hpc
  | createWait k => rw [hpc] at h; cases h; exact moves_createWait hpc
  | createAck k =>
    rw [hpc] at h
    cases h
    exact moves_withPlayer hreads fun _ => moves_speaks hpc (.createAck k _) hk rfl rfl
  | createRefuse k =>
    rw [hpc] at h
    cases h
    exact moves_withPlayer hreads fun _ => moves_speaks hpc (.createRefuse k _) hk rfl rfl
  | createAccept k =>
    rw [hpc] at h
    cases h
    exact moves_withPlayer hreads fun _ => moves_speaks hpc (.createAccept k _) hk rfl rfl
  | createInvalidate k =>
    rw [hpc] at h
    cases h
    exact moves_withNode hreads fun node hl hu =>
      moves_speaks hpc (.createInvalidate k node hl hu) hk rfl rfl
  | createBroadcast k =>
    rw [hpc] at h
    cases h
    exact moves_withNode hreads fun node hl hu =>
      moves_speaks hpc (.createBroadcast k node hl hu) hk rfl rfl
  | createErase k => rw [hpc] at h; cases h; exact moves_erase (Or.inl ⟨hpc, rfl⟩)
  | createMove k => rw [hpc] at h; cases h; exact moves_createMove hpc
  | createEraseStarted k game =>
    rw [hpc] at h
    cases h
    exact moves_erase (Or.inr ⟨game, hpc, rfl⟩)
  | playing game => rw [hpc] at h; cases h; exact moves_play hpc
  | catching game => rw [hpc] at h; cases h; exact moves_catchPlay hpc
  | joinLock joiner id => rw [hpc] at h; cases h; exact moves_joinLock hpc
  | joinRefuse joiner message =>
    rw [hpc] at h
    cases h
    exact moves_speaks hpc (.joinRefuse joiner message _) ⟨rfl, rfl, rfl, rfl⟩ rfl rfl
  | joinAck player id =>
    rw [hpc] at h
    cases h
    exact moves_withPlayer hreads fun _ => moves_speaks hpc (.joinAck player id _) hk rfl rfl
  | joinBroadcast player id => rw [hpc] at h; cases h; exact moves_joinBroadcast hpc
  | randomLock joiner =>
    rw [hpc] at h
    simp only at h
    split_ifs at h with hperm
    cases h
    exact moves_randomLock hpc hperm
  | randomAck player id uid =>
    rw [hpc] at h
    cases h
    exact moves_withNode hreads fun node _ _ =>
      moves_withPlayer hreads fun _ => moves_speaks hpc (.randomAck player id uid _ rfl) hk rfl rfl
  | randomBroadcast player id uid =>
    rw [hpc] at h
    cases h
    exact moves_withNode hreads fun node hl hu =>
      moves_withPlayer hreads fun ht =>
        moves_speaks hpc (.randomBroadcast player id uid node hl hu ht) hk rfl rfl
  | randomNew joiner =>
    rw [hpc] at h
    cases h
    exact moves_speaks hpc (.randomNew joiner _ rfl) hk rfl rfl
  | done => rw [hpc] at h; cases h

end Acts

/-! ### The step -/

theorem allOut_nil (writeOk : ℕ → Conn → Bool) : AllOut writeOk [] := rfl

theorem allOut_single {writeOk : ℕ → Conn → Bool} {w : Write} :
    AllOut writeOk [w] ↔ writeOk 0 w.1 = true := by
  unfold AllOut writesOut
  by_cases h : writeOk 0 w.1 = true
  · rw [if_pos h]
    exact iff_of_true rfl h
  · rw [if_neg h]
    exact iff_of_false Nat.zero_ne_one h

theorem writesOut_single {writeOk : ℕ → Conn → Bool} {w : Write} (h : ¬ AllOut writeOk [w]) :
    writesOut writeOk 0 [w] = [] := by
  unfold writesOut
  exact if_neg fun hw => h (allOut_single.mpr hw)

theorem step_live {p : Parsers} {s s' : Sys} {l : Label} (h : step p s l = some s') :
    s.crash = none := by
  unfold step at h
  split_ifs at h with hcrash
  exact Option.not_isSome_iff_eq_none.mp hcrash

section StepOfAct
variable {p : Parsers} {s : Sys} {l : Label} (hlive : s.crash = none)
include hlive

theorem step_write {ws : List Write} {next : Sys} (h : act p s l = some (.write ws next))
    (hout : AllOut l.writeOk ws) : step p s l = some { next with sent := next.sent ++ ws } := by
  unfold step
  rw [hlive, h]
  exact if_pos hout

theorem step_escape {ws : List Write} {next : Sys} (h : act p s l = some (.write ws next))
    (hout : ¬ AllOut l.writeOk ws) : step p s l = some { next with
      pc := s.pc
      sent := next.sent ++ writesOut l.writeOk 0 ws
      crash := some (.escaped l.thread) } := by
  unfold step
  rw [hlive, h]
  exact if_neg hout

theorem step_crash {c : Crash} {next : Sys} (h : act p s l = some (.crash c next)) :
    step p s l = some { next with crash := some c } := by
  unfold step
  rw [hlive, h]
  rfl

theorem step_silent {next : Sys} (h : act p s l = some (.write [] next)) :
    step p s l = some next := by
  rw [step_write hlive h (allOut_nil _), List.append_nil]

end StepOfAct

/-- **What a step does, and that only its own thread moves.** -/
theorem step_move {p : Parsers} {s s' : Sys} {l : Label} (h : step p s l = some s') :
    Move p l s s' ∧ ∀ t ≠ l.thread, s'.pc t = s.pc t := by
  have hlive := step_live h
  cases ha : act p s l with
  | none =>
    unfold step at h
    rw [hlive, ha] at h
    cases h
  | some a =>
    have hmoves := act_moves ha
    cases a with
    | crash c next =>
      cases (step_crash hlive ha).symm.trans h
      exact ⟨hmoves.1, fun t _ => congrFun hmoves.2 t⟩
    | write ws next =>
      obtain ⟨⟨pc', hspeaks, hk, hpc, hsent⟩ | ⟨rfl, hmove⟩, hothers⟩ := hmoves
      · by_cases hout : AllOut l.writeOk ws
        · cases (step_write hlive ha hout).symm.trans h
          refine ⟨.speaks ws pc' hspeaks hout ⟨hk.1, hk.2, hk.3, hk.4⟩ hpc ?_, hothers⟩
          rw [← hsent]
        · cases (step_escape hlive ha hout).symm.trans h
          refine ⟨.cut ws pc' hspeaks hout ⟨hk.1, hk.2, hk.3, hk.4⟩ rfl ?_, fun _ _ => rfl⟩
          rw [← hsent]
      · cases (step_silent hlive ha).symm.trans h
        exact ⟨hmove, hothers⟩

end HanabiBot.Lobby.Sections
