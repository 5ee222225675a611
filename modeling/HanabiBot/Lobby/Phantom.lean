import HanabiBot.Lib.Runs
import HanabiBot.Lobby.Table

/-! # Phantom sessions

Between the section in which a joiner is accepted and the one in which it tells the others, the
leader can leave or start the game, and the session is erased. The second section then subscripts
the table with a key it does not have, and makes up a session without players.

The entries of the table are those of the calls of `create_session` that have not erased theirs
(`Emplaced`), and the join functions use no reference into an erased session, exactly in the runs in
which every joiner finds its session again (`noPhantom_iff`). -/

namespace HanabiBot.Lobby.Phantom

open HanabiBot.Lib.Runs HanabiBot.Common.Messages HanabiBot.Lobby.Machine HanabiBot.Lobby.Moves
open HanabiBot.Lobby.Sections HanabiBot.Lobby.Table

/-- Every entry was inserted by the `emplace` of a call that still holds on to it. -/
def Emplaced (s : Sys) : Prop :=
  ∀ id node, s.sessions.lookup id = some node → ∃ t h moved, node.origin = some t ∧
    (s.pc t).hold = some (h, moved) ∧ h.id = id ∧ h.uid = node.uid

/-- The thread is in a join function, behind the accepted join. -/
def joining : Pc → Bool
  | .joinAck _ _ | .joinBroadcast _ _ | .randomAck _ _ _ | .randomBroadcast _ _ _ => true
  | _ => false

/-- After the step there is no phantom, and a join function has not used a reference to something
erased, such as the key `session_id` that `join_random_session` subscripts with. -/
def NoPhantom (p : Parsers) (s : Sys) (l : Label) : Prop :=
  ∀ s', step p s l = some s' →
    Emplaced s' ∧ (joining (s.pc l.thread) = true → s'.crash ≠ some (.dangling l.thread))

/-- What the step is about to use is still there: under the key to subscript there is an entry, the
node of the reference is in the table, the player is not destroyed. -/
def StillThere (s : Sys) (l : Label) : Prop :=
  s.crash = none →
    match s.pc l.thread with
    | .createLog h => s.sessions.lookup h.id ≠ none
    | .joinAck _ _ => l.thread ∉ s.gone
    | .joinBroadcast _ sessionId => s.sessions.lookup sessionId ≠ none ∧ l.thread ∉ s.gone
    | .randomAck _ sessionId uid | .randomBroadcast _ sessionId uid =>
      s.find sessionId uid ≠ none ∧ l.thread ∉ s.gone
    | _ => True

section Step
variable {p : Parsers} {s s' : Sys} {l : Label}

/-- The call that inserted the entry holds on to it. -/
def HeldEntry (s : Sys) (id : ℤ) (node : Node) : Prop :=
  ∃ t h moved, node.origin = some t ∧ (s.pc t).hold = some (h, moved) ∧ h.id = id ∧
    h.uid = node.uid

/-- An old entry is still held, if the thread that moves does not let go of it. -/
theorem Emplaced.kept (hI : Emplaced s) (hpc : ∀ t ≠ l.thread, s'.pc t = s.pc t) {id : ℤ}
    {node : Node} (hl : s.sessions.lookup id = some node)
    (hkeep : ∀ h moved, (s.pc l.thread).hold = some (h, moved) → h.id = id →
      ∃ moved', (s'.pc l.thread).hold = some (h, moved')) : HeldEntry s' id node := by
  obtain ⟨t, h, moved, horigin, hhold, hid, huid⟩ := hI id node hl
  by_cases ht : t = l.thread
  · subst ht
    obtain ⟨moved', hhold'⟩ := hkeep h moved hhold hid
    exact ⟨_, h, moved', horigin, hhold', hid, huid⟩
  · exact ⟨t, h, moved, horigin, by rw [hpc t ht, hhold], hid, huid⟩

/-- A thread that holds nothing lets go of nothing. -/
theorem Emplaced.kept_of_none (hI : Emplaced s) (hpc : ∀ t ≠ l.thread, s'.pc t = s.pc t)
    (hnone : (s.pc l.thread).hold = none) {id : ℤ} {node : Node}
    (hl : s.sessions.lookup id = some node) : HeldEntry s' id node :=
  hI.kept hpc hl fun h moved hhold _ => by rw [hnone] at hhold; cases hhold

/-- A thread that subscripts with a key that is not there has not found what it uses. -/
theorem not_stillThere_of_absent {id : ℤ} (hlive : s.crash = none)
    (hsub : (s.pc l.thread).subscripts = some id) (hnew : s.sessions.lookup id = none) :
    ¬ StillThere s l := by
  intro hC
  have hthere := hC hlive
  cases hat : s.pc l.thread with
  | createLog h =>
    rw [hat] at hsub hthere
    cases hsub
    exact hthere hnew
  | joinBroadcast player sessionId =>
    rw [hat] at hsub hthere
    cases hsub
    exact hthere.1 hnew
  | _ => rw [hat] at hsub; cases hsub

/-- **A step that finds what it uses makes no phantom.** -/
theorem emplaced_step (hI : Emplaced s) (hC : StillThere s l) (hs : step p s l = some s') :
    Emplaced s' := by
  obtain ⟨htable, hpc⟩ := step_table hs
  intro id node hl
  cases htable with
  | quiet hsess hu hh =>
    rw [hsess] at hl
    exact hI.kept hpc hl fun h moved hhold _ => ⟨moved, hh.trans hhold⟩
  | collided leader first node hemplace hold hfirst hsess hu hpc' =>
    rw [hsess] at hl
    exact hI.kept_of_none hpc (by rw [hemplace]; rfl) hl
  | inserted leader hemplace hnew hsess hu hpc' =>
    rw [hsess] at hl
    rcases lookup_insert_cases hl with ⟨rfl, rfl⟩ | ⟨-, hl⟩
    · exact ⟨l.thread, _, false, rfl, by rw [hpc']; rfl, rfl, rfl⟩
    · exact hI.kept_of_none hpc (by rw [hemplace]; rfl) hl
  | madeUp id hsub hnew hsess hu hh =>
    exact absurd hC (not_stillThere_of_absent (step_live hs) hsub hnew)
  | joined id node joiner hh hold hne hsess hu hh' =>
    rw [hsess] at hl
    rcases lookup_insert_cases hl with ⟨rfl, rfl⟩ | ⟨-, hl⟩
    · have hheld : HeldEntry s' _ node := hI.kept_of_none hpc hh hold
      exact hheld
    · exact hI.kept_of_none hpc hh hl
  | moved k node game hmove hold huid hsess hu hpc' =>
    rw [hsess] at hl
    have hkeep (id : ℤ) : ∀ h moved, (s.pc l.thread).hold = some (h, moved) → h.id = id →
        ∃ moved', (s'.pc l.thread).hold = some (h, moved') := by
      intro h moved hhold _
      rw [hmove] at hhold
      cases hhold
      exact ⟨true, by rw [hpc']; rfl⟩
    rcases lookup_insert_cases hl with ⟨rfl, rfl⟩ | ⟨-, hl⟩
    · have hheld : HeldEntry s' _ node := hI.kept hpc hold (hkeep _)
      exact hheld
    · exact hI.kept hpc hl (hkeep _)
  | erased k moved hk hsess hu hh' =>
    rw [hsess] at hl
    obtain ⟨hid, hl⟩ := lookup_erase_some hl
    refine hI.kept hpc hl fun h moved' hhold hid' => ?_
    cases hhold.symm.trans hk
    exact absurd hid'.symm hid

/-- The state a section leaves. -/
def leaves : Act → Sys
  | .write _ next => next
  | .crash _ next => next

/-- The table after a step is the one its section leaves, whatever the writes do. -/
theorem step_sessions (hlive : s.crash = none) {a : Act} (h : act p s l = some a) :
    ∃ s', step p s l = some s' ∧ s'.sessions = (leaves a).sessions := by
  cases a with
  | crash c next => exact ⟨_, step_crash hlive h, rfl⟩
  | write ws next =>
    by_cases hout : AllOut l.writeOk ws
    · exact ⟨_, step_write hlive h hout, rfl⟩
    · exact ⟨_, step_escape hlive h hout, rfl⟩

theorem withPlayer_there {c : Conn} {a : Act} (h : c ∉ s.gone) : withPlayer s l c a = a :=
  if_neg h

theorem withPlayer_gone {c : Conn} {a : Act} (h : c ∈ s.gone) :
    withPlayer s l c a = .crash (.dangling l.thread) s := if_pos h

theorem withNode_there {id : ℤ} {uid : ℕ} {node : Node} {a : Node → Act}
    (h : s.find id uid = some node) : withNode s l id uid a = a node := by
  unfold withNode
  rw [h]

theorem withNode_erased {id : ℤ} {uid : ℕ} {a : Node → Act} (h : s.find id uid = none) :
    withNode s l id uid a = .crash (.dangling l.thread) s := by
  unfold withNode
  rw [h]

theorem withNode_lost {id : ℤ} {uid : ℕ} {a : Node → Act}
    (hlost : ¬ (s.find id uid ≠ none ∧ l.thread ∉ s.gone)) :
    (withNode s l id uid fun node => withPlayer s l l.thread (a node)) =
      .crash (.dangling l.thread) s := by
  cases hf : s.find id uid with
  | none => exact withNode_erased hf
  | some node =>
    have hgone : l.thread ∈ s.gone :=
      not_not.mp fun hg => hlost ⟨by rw [hf]; exact Option.some_ne_none node, hg⟩
    rw [withNode_there hf, withPlayer_gone hgone]

/-- A thread in a join function that finds what it uses writes something. -/
theorem joining_writes (hlive : s.crash = none) (hC : StillThere s l)
    (hj : joining (s.pc l.thread) = true) :
    ∃ ws next, act p s l = some (.write ws next) ∧ next.crash = none := by
  have hthere := hC hlive
  cases hpc : s.pc l.thread with
  | joinAck player id =>
    rw [hpc] at hthere
    simp only [act, hpc]
    exact ⟨_, _, congrArg some (withPlayer_there hthere), hlive⟩
  | joinBroadcast player id =>
    rw [hpc] at hthere
    obtain ⟨node, hl⟩ := Option.ne_none_iff_exists'.mp hthere.1
    simp only [act, hpc, joinBroadcast, subscript_present s hl]
    exact ⟨_, _, congrArg some (withPlayer_there hthere.2), hlive⟩
  | randomAck player id uid =>
    rw [hpc] at hthere
    obtain ⟨node, hf⟩ := Option.ne_none_iff_exists'.mp hthere.1
    simp only [act, hpc, withNode_there hf]
    exact ⟨_, _, congrArg some (withPlayer_there hthere.2), hlive⟩
  | randomBroadcast player id uid =>
    rw [hpc] at hthere
    obtain ⟨node, hf⟩ := Option.ne_none_iff_exists'.mp hthere.1
    simp only [act, hpc, withNode_there hf]
    exact ⟨_, _, congrArg some (withPlayer_there hthere.2), hlive⟩
  | _ => rw [hpc] at hj; cases hj

/-- A thread in a join function that finds what it uses uses nothing erased. -/
theorem joining_not_dangling (hC : StillThere s l) (hj : joining (s.pc l.thread) = true)
    (hs : step p s l = some s') : s'.crash ≠ some (.dangling l.thread) := by
  have hlive : s.crash = none := step_live hs
  obtain ⟨ws, next, hact, hnext⟩ := joining_writes (p := p) hlive hC hj
  by_cases hout : AllOut l.writeOk ws
  · rw [step_write hlive hact hout] at hs
    cases hs
    simp [hnext]
  · rw [step_escape hlive hact hout] at hs
    cases hs
    simp

theorem noPhantom_of_stillThere (hI : Emplaced s) (hC : StillThere s l) : NoPhantom p s l :=
  fun _ hs => ⟨emplaced_step hI hC hs, fun hj => joining_not_dangling hC hj hs⟩

/-- A made-up session is a phantom. -/
theorem not_emplaced_of_madeUp {id : ℤ} {node : Node} (hl : s.sessions.lookup id = some node)
    (horigin : node.origin = none) : ¬ Emplaced s := by
  intro h
  obtain ⟨t, -, -, ht, -⟩ := h id node hl
  rw [horigin] at ht
  cases ht

/-- A section that subscripts a key that is not there. -/
theorem not_noPhantom_of_madeUp (hlive : s.crash = none) {a : Act} (id : ℤ)
    (hact : act p s l = some a)
    (hl : (leaves a).sessions = (s.insertNode id none .default).sessions) : ¬ NoPhantom p s l := by
  intro hno
  obtain ⟨s', hs, hsess⟩ := step_sessions hlive hact
  have hmade : s'.sessions.lookup id = some ⟨s.nextUid, none, .default⟩ := by
    rw [hsess, hl]
    exact AList.lookup_insert _
  exact not_emplaced_of_madeUp hmade rfl (hno s' hs).1

/-- A join function that uses something erased. -/
theorem not_noPhantom_of_dangling (hlive : s.crash = none) (next : Sys)
    (hj : joining (s.pc l.thread) = true)
    (hact : act p s l = some (.crash (.dangling l.thread) next)) : ¬ NoPhantom p s l :=
  fun hno => (hno _ (step_crash hlive hact)).2 hj rfl

/-- **A step that does not find what it uses makes a phantom, or uses something erased.** -/
theorem not_noPhantom_of_lost (hC : ¬ StillThere s l) : ¬ NoPhantom p s l := by
  unfold StillThere at hC
  push Not at hC
  obtain ⟨hlive, hlost⟩ := hC
  cases hpc : s.pc l.thread with
  | createLog h =>
    simp only [hpc] at hlost
    have hact : act p s l = some (createLog s l h) := by simp only [act, hpc]
    refine not_noPhantom_of_madeUp hlive h.id hact ?_
    rw [createLog, subscript_absent s (not_not.mp hlost)]
    rfl
  | joinAck player id =>
    simp only [hpc] at hlost
    refine not_noPhantom_of_dangling hlive s (by rw [hpc]; rfl) ?_
    simp only [act, hpc, withPlayer_gone (not_not.mp hlost)]
  | joinBroadcast player id =>
    simp only [hpc] at hlost
    have hact : act p s l = some (joinBroadcast s l player id) := by simp only [act, hpc]
    cases hl : s.sessions.lookup id with
    | none =>
      refine not_noPhantom_of_madeUp hlive id hact ?_
      unfold joinBroadcast withPlayer
      rw [subscript_absent s hl]
      simp only
      split_ifs <;> rfl
    | some node =>
      have hgone : l.thread ∈ s.gone := not_not.mp fun hg => hlost ⟨by simp [hl], hg⟩
      refine not_noPhantom_of_dangling hlive s (by rw [hpc]; rfl) ?_
      rw [hact, joinBroadcast, subscript_present s hl]
      exact congrArg some (withPlayer_gone hgone)
  | randomAck player id uid =>
    simp only [hpc] at hlost
    refine not_noPhantom_of_dangling hlive s (by rw [hpc]; rfl) ?_
    simp only [act, hpc, withNode_lost hlost]
  | randomBroadcast player id uid =>
    simp only [hpc] at hlost
    refine not_noPhantom_of_dangling hlive s (by rw [hpc]; rfl) ?_
    simp only [act, hpc, withNode_lost hlost]
  | _ => simp only [hpc, not_true_eq_false] at hlost

end Step

theorem emplaced_init : Emplaced init := by
  intro id node hl
  cases hl

/-- **When there is no phantom session**: exactly in the runs in which every joiner finds its
session again for its acknowledgement and for its broadcast, and `create_session` for its log line.
-/
theorem noPhantom_iff (p : Parsers) (run : List Label) :
    Along (step p) (NoPhantom p) init run ↔ Along (step p) StillThere init run := by
  refine along_iff (I := Emplaced) (fun s l s' hI hC hs => emplaced_step hI hC hs) ?_
    emplaced_init run
  intro s l hI
  constructor
  · intro hno
    by_contra hC
    exact not_noPhantom_of_lost hC hno
  · exact noPhantom_of_stillThere hI

/-- A leader creates session `0`, another client joins it, and before that client tells the others
the leader starts the game. -/
def startedMeanwhile : List Label :=
  entering 0 [16, 1] ++ [.plain 0 none, .plain 0 none, .plain 0 none] ++
    entering 1 [16, 2, 24, 0] ++ [.plain 1 none] ++
    [.plain 0 (some []), .plain 0 none, .plain 0 none, .plain 0 none, .plain 0 none] ++
    [.plain 1 none]

/-- The news of the join then makes up a session `0` without players. -/
theorem join_after_start_phantom : ¬ Along (step plainParsers) (NoPhantom plainParsers) init
    (startedMeanwhile ++ [.plain 1 none]) := by
  intro h
  have hreach : (reach (step plainParsers) init startedMeanwhile).map
      (fun s => (s.crash, s.pc 1, (s.sessions.lookup 0).isSome)) =
        some (none, .joinBroadcast "" 0, false) := rfl
  obtain ⟨s, hs, hview⟩ := Option.map_eq_some_iff.mp hreach
  simp only [Prod.mk.injEq] at hview
  obtain ⟨hlive, hpc, habsent⟩ := hview
  refine not_noPhantom_of_lost (fun hC => ?_) (h.at_reach hs)
  have hthere := hC hlive
  rw [show (Label.plain 1 none).thread = 1 from rfl, hpc] at hthere
  rw [Option.isSome_eq_false_iff, Option.isNone_iff_eq_none] at habsent
  exact hthere.1 habsent

end HanabiBot.Lobby.Phantom
