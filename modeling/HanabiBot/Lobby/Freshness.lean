import HanabiBot.Lib.Runs
import HanabiBot.Lobby.Table

/-! # Session ids

`create_session` takes the number of entries as the new id. Entries are erased in any order, so the
number can be the id of a live entry (`Fresh` says that it is not): then `emplace` inserts nothing,
the new leader is destroyed with its session, and the call goes on with the session of another.

As long as every id is fresh, each call of `create_session` owns the session under its id
(`Owned`): the calls of a run own their sessions throughout exactly if every id is fresh
(`keepsOwn_iff_fresh`). -/

namespace HanabiBot.Lobby.Freshness

open HanabiBot.Lib.Runs HanabiBot.Common.Messages HanabiBot.Lobby.Machine HanabiBot.Lobby.Moves
open HanabiBot.Lobby.Sections HanabiBot.Lobby.Table

/-- Thread `t`, which holds on to `h`, finds under its id the session it has inserted, with its own
player as the leader until the players have moved into the game. -/
structure Owns (s : Sys) (t : Conn) (h : Hold) (moved : Bool) : Prop where
  socket : h.socket = t
  node : ∃ node, s.sessions.lookup h.id = some node ∧ node.uid = h.uid ∧ node.origin = some t ∧
    (moved = true ∨ ∃ name rest, node.session.players = ⟨name, t⟩ :: rest)

/-- Every call of `create_session` owns its session, and no two hold the same id. -/
structure Owned (s : Sys) : Prop where
  own : ∀ t h moved, (s.pc t).hold = some (h, moved) → Owns s t h moved
  distinct : ∀ t t' h h' moved moved', (s.pc t).hold = some (h, moved) →
    (s.pc t').hold = some (h', moved') → h.id = h'.id → t = t'

/-- The `emplace` of this step inserts the new session, and the call goes on with it. -/
def Inserts (p : Parsers) (s : Sys) (l : Label) : Prop :=
  s.crash = none → ∀ leader, s.pc l.thread = .createEmplace leader → ∃ s', step p s l = some s' ∧
    s'.crash = none ∧ (s'.pc l.thread).hold = some (⟨s.size, s.nextUid, l.thread⟩, false) ∧
      s'.sessions.lookup (s.size : ℤ) =
        some ⟨s.nextUid, some l.thread, .ofLeader ⟨leader, l.thread⟩ s.size⟩

/-- The id `create_session` chooses in this step is not the id of a live entry. -/
def Fresh (s : Sys) (l : Label) : Prop :=
  s.crash = none → ∀ leader, s.pc l.thread = .createEmplace leader →
    s.sessions.lookup (s.size : ℤ) = none

/-- Every call inserts a session of its own and keeps it. -/
def KeepsOwn (p : Parsers) (s : Sys) (l : Label) : Prop :=
  Inserts p s l ∧ ∀ s', step p s l = some s' → Owned s'

section Step
variable {p : Parsers} {s s' : Sys} {l : Label} {t : Conn} {h : Hold} {moved : Bool}

/-- The node under an id says whose session it is. -/
theorem owned_of_own (hown : ∀ t h moved, (s.pc t).hold = some (h, moved) → Owns s t h moved) :
    Owned s := by
  refine ⟨hown, fun t t' h h' moved moved' ht ht' hid => ?_⟩
  obtain ⟨node, hl, -, horigin, -⟩ := (hown t h moved ht).node
  obtain ⟨node', hl', -, horigin', -⟩ := (hown t' h' moved' ht').node
  rw [hid] at hl
  cases hl.symm.trans hl'
  exact Option.some.inj (horigin.symm.trans horigin')

theorem Owns.of_lookup (ho : Owns s t h moved)
    (hl : s'.sessions.lookup h.id = s.sessions.lookup h.id) : Owns s' t h moved := by
  obtain ⟨node, hnode, hrest⟩ := ho.node
  exact ⟨ho.socket, node, hl.trans hnode, hrest⟩

theorem Owns.present (ho : Owns s t h moved) {id : ℤ} (hid : s.sessions.lookup id = none) :
    h.id ≠ id := by
  rintro rfl
  obtain ⟨node, hl, -⟩ := ho.node
  rw [hid] at hl
  cases hl

/-- A step that leaves what the threads hold, and what they find under their ids. -/
theorem owned_of_hold (hI : Owned s) (hh : ∀ t, (s'.pc t).hold = (s.pc t).hold)
    (hl : ∀ t h moved, (s.pc t).hold = some (h, moved) →
      s'.sessions.lookup h.id = s.sessions.lookup h.id) : Owned s' := by
  refine owned_of_own fun t h moved ht => ?_
  rw [hh] at ht
  exact (hI.own t h moved ht).of_lookup (hl t h moved ht)

/-- **A step with a fresh id keeps every session with its owner.** -/
theorem owned_step (hI : Owned s) (hC : Fresh s l) (hs : step p s l = some s') : Owned s' := by
  have hlive := step_live hs
  obtain ⟨htable, hpc⟩ := step_table hs
  have hsame : (s'.pc l.thread).hold = (s.pc l.thread).hold →
      ∀ t, (s'.pc t).hold = (s.pc t).hold := by
    intro hh t
    by_cases ht : t = l.thread
    · rw [ht, hh]
    · rw [hpc t ht]
  cases htable with
  | quiet hsess _ hh => exact owned_of_hold hI (hsame hh) fun t h moved _ => by rw [hsess]
  | madeUp id _ hnew hsess _ hh =>
    refine owned_of_hold hI (hsame hh) fun t h moved ht => ?_
    rw [hsess, AList.lookup_insert_ne ((hI.own t h moved ht).present hnew)]
  | collided leader first node hemplace hold => cases (hC hlive leader hemplace).symm.trans hold
  | inserted leader hemplace hnew hsess _ hpc' =>
    refine owned_of_own fun t h moved ht => ?_
    by_cases hthread : t = l.thread
    · subst hthread
      rw [hpc'] at ht
      cases ht
      have hl := (congrArg (AList.lookup (s.size : ℤ)) hsess).trans (AList.lookup_insert _)
      exact ⟨rfl, _, hl, rfl, rfl, Or.inr ⟨leader, [], rfl⟩⟩
    · rw [hpc t hthread] at ht
      have ho := hI.own t h moved ht
      exact ho.of_lookup (by rw [hsess, AList.lookup_insert_ne (ho.present hnew)])
  | joined id node joiner hh hold hne hsess _ hh' =>
    refine owned_of_own fun t h moved ht => ?_
    rw [hsame (hh'.trans hh.symm)] at ht
    have ho := hI.own t h moved ht
    by_cases hid : h.id = id
    · subst hid
      obtain ⟨node', hl, huid, horigin, hplayers⟩ := ho.node
      cases hl.symm.trans hold
      have hl' := (congrArg (AList.lookup h.id) hsess).trans (AList.lookup_insert _)
      refine ⟨ho.socket, _, hl', huid, horigin, hplayers.imp_right ?_⟩
      rintro ⟨name, rest, hcons⟩
      exact ⟨name, rest ++ [joiner], congrArg (· ++ [joiner]) hcons⟩
    · exact ho.of_lookup (by rw [hsess, AList.lookup_insert_ne hid])
  | moved k node game hmove hold huid hsess _ hpc' =>
    have hk : (s.pc l.thread).hold = some (k, false) := by rw [hmove]; rfl
    refine owned_of_own fun t h moved ht => ?_
    by_cases hthread : t = l.thread
    · subst hthread
      rw [hpc'] at ht
      cases ht
      have ho := hI.own _ k false hk
      obtain ⟨node', hl, -, horigin, -⟩ := ho.node
      cases hl.symm.trans hold
      have hl' := (congrArg (AList.lookup k.id) hsess).trans (AList.lookup_insert _)
      exact ⟨ho.socket, _, hl', huid, horigin, Or.inl rfl⟩
    · rw [hpc t hthread] at ht
      have hid : h.id ≠ k.id := fun hid => hthread (hI.distinct _ _ _ _ _ _ ht hk hid)
      exact (hI.own t h moved ht).of_lookup (by rw [hsess, AList.lookup_insert_ne hid])
  | erased k moved' hk hsess _ hh' =>
    refine owned_of_own fun t h moved ht => ?_
    by_cases hthread : t = l.thread
    · subst hthread
      rw [hh'] at ht
      cases ht
    · rw [hpc t hthread] at ht
      have hid : h.id ≠ k.id := fun hid => hthread (hI.distinct _ _ _ _ _ _ ht hk hid)
      exact (hI.own t h moved ht).of_lookup (by rw [hsess, AList.lookup_erase_ne hid])

theorem inserts_of_fresh (hC : Fresh s l) : Inserts p s l := by
  intro hlive leader hpc
  have hnew := hC hlive leader hpc
  have hact : act p s l = some (.write [] ((s.insertNode (s.size : ℤ) (some l.thread)
      (.ofLeader (l.player leader) s.size)).setPc l.thread
        (.createLog ⟨s.size, s.nextUid, l.thread⟩))) := by
    simp only [act, hpc, createEmplace, emplace_free s hnew]
    rfl
  refine ⟨_, step_silent hlive hact, hlive, ?_, AList.lookup_insert _⟩
  exact congrArg Pc.hold (setPc_self _ _ _)

/-- **A call that chooses the id of a live entry does not insert.** -/
theorem not_inserts_of_taken (huid : UidsBelow s) (hC : ¬ Fresh s l) : ¬ Inserts p s l := by
  unfold Fresh at hC
  push Not at hC
  obtain ⟨hlive, leader, hpc, htaken⟩ := hC
  obtain ⟨node, hl⟩ := Option.ne_none_iff_exists'.mp htaken
  intro hins
  obtain ⟨s', hs, hcrash, -, hlookup⟩ := hins hlive leader hpc
  have hact : act p s l = some (createEmplace s l leader) := by simp only [act, hpc]
  have hsess : s'.sessions = s.sessions := by
    simp only [createEmplace, emplace_taken s hl] at hact
    cases hplayers : node.session.players with
    | nil =>
      rw [hplayers] at hact
      cases hs.symm.trans (step_crash hlive hact)
      rfl
    | cons first rest =>
      rw [hplayers] at hact
      cases hs.symm.trans (step_silent hlive hact)
      rfl
  rw [hsess, hl] at hlookup
  have hlt := huid _ node hl
  cases hlookup
  exact Nat.lt_irrefl _ hlt

end Step

theorem owned_init : Owned init where
  own t h moved ht := by cases ht
  distinct t t' h h' moved moved' ht := by cases ht

/-- **When every call of `create_session` has a session of its own**: exactly in the runs in which
the number of entries is never the id of a live entry when a session is created. -/
theorem keepsOwn_iff_fresh (p : Parsers) (run : List Label) :
    Along (step p) (KeepsOwn p) init run ↔ Along (step p) Fresh init run := by
  refine along_iff (I := fun s => Owned s ∧ UidsBelow s) ?_ ?_ ⟨owned_init, uidsBelow_init⟩ run
  · intro s l s' ⟨hI, huid⟩ hC hs
    exact ⟨owned_step hI hC hs, uidsBelow_step huid hs⟩
  · intro s l ⟨hI, huid⟩
    constructor
    · intro hown
      by_contra hC
      exact not_inserts_of_taken huid hC hown.1
    · intro hC
      exact ⟨inserts_of_fresh hC, fun s' hs => owned_step hI hC hs⟩

/-- Two leaders create sessions `0` and `1`, and the first leaves. -/
def firstLeaves : List Label :=
  entering 0 [16, 1] ++ [.plain 0 none] ++ entering 1 [16, 1] ++ [.plain 1 none] ++
    [.plain 0 none, .plain 0 none, .plain 0 none, .plain 0 none, .plain 0 none]

/-- A third leader, who comes then, is lost. -/
theorem third_leader_lost : ¬ Along (step plainParsers) (KeepsOwn plainParsers) init
    (firstLeaves ++ entering 2 [16, 1] ++ [.plain 2 none]) := by
  intro h
  have hreach : (reach (step plainParsers) init (firstLeaves ++ entering 2 [16, 1])).map
      (fun s => (s.crash, s.pc 2, s.size, (s.sessions.lookup 1).isSome)) =
        some (none, .createEmplace "", 1, true) := rfl
  obtain ⟨s, hs, hview⟩ := Option.map_eq_some_iff.mp hreach
  simp only [Prod.mk.injEq] at hview
  obtain ⟨hlive, hpc, hsize, htaken⟩ := hview
  have huid : UidsBelow s := inv_reach (fun _ _ _ hI => uidsBelow_step hI) uidsBelow_init hs
  refine not_inserts_of_taken huid (fun hC => ?_) (h.at_reach hs).1
  have hnone := hC hlive "" hpc
  rw [hsize] at hnone
  rw [show ((1 : ℕ) : ℤ) = 1 from rfl] at hnone
  rw [hnone] at htaken
  cases htaken

end HanabiBot.Lobby.Freshness
