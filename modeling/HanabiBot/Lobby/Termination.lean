import HanabiBot.Lib.Runs
import HanabiBot.Lobby.Sections

/-! # The steps of a handler

`rank` is the most steps that are before a thread, if no start is refused any more. Every step of a
thread lessens it; a refused start, which costs the leader a frame, raises it again. The other
threads leave it alone. So the steps of a thread are bounded by the start frames it reads, in every
run (`steps_bounded`). How long it waits in one of them, for a frame, for a write to go out or for
`sessions_mutex`, is another matter. -/

namespace HanabiBot.Lobby.Termination

open HanabiBot.Lib.Runs HanabiBot.Common.Messages HanabiBot.HanabiGame.State
open HanabiBot.HanabiGame.Play HanabiBot.Lobby.Sessions HanabiBot.Lobby.Machine
open HanabiBot.Lobby.Moves HanabiBot.Lobby.Sections

def rank : Pc → ℕ
  | .done => 0
  | .catching _ | .createErase _ | .joinRefuse _ _ | .joinBroadcast _ _ | .randomBroadcast _ _ _ => 1
  | .playing _ | .createInvalidate _ | .joinAck _ _ | .randomAck _ _ _ => 2
  | .createEraseStarted _ _ | .joinLock _ _ => 3
  | .createMove _ => 4
  | .createBroadcast _ => 5
  | .createAccept _ => 6
  | .createWait _ => 7
  | .createAck _ | .createRefuse _ => 8
  | .createLog _ => 9
  | .createEmplace _ => 10
  | .randomNew _ => 11
  | .randomLock _ => 12
  | .readConnection => 13
  | .greet => 14

/-- A start frame is read. -/
def readsStart (s : Sys) (l : Label) : Bool :=
  match s.pc l.thread with
  | .createWait _ => l.received.isSome
  | _ => false

section Acts
variable {p : Parsers} {s : Sys} {l : Label}

/-- A section leads to a smaller rank, unless a start frame is read. -/
def Act.Lessens (s : Sys) (l : Label) : Act → Prop
  | .write _ next =>
    rank (next.pc l.thread) < rank (s.pc l.thread) + 2 * (readsStart s l).toNat
  | .crash _ _ => True

theorem lessens_setPc {ws : List Write} {next : Sys} {pc pc' : Pc} (hpc : s.pc l.thread = pc)
    (hrank : rank pc' < rank pc) : Act.Lessens s l (.write ws (next.setPc l.thread pc')) := by
  show rank ((next.setPc l.thread pc').pc l.thread) < _
  rw [setPc_self, hpc]
  exact Nat.lt_add_right _ hrank

theorem lessens_withPlayer {s1 : Sys} {c : Conn} {a : Act} (h : Act.Lessens s l a) :
    Act.Lessens s l (withPlayer s1 l c a) := by
  unfold withPlayer
  split
  · trivial
  · exact h

theorem lessens_withNode {id : ℤ} {uid : ℕ} {a : Node → Act} (h : ∀ node, Act.Lessens s l (a node)) :
    Act.Lessens s l (withNode s l id uid a) := by
  unfold withNode
  split
  · exact h _
  · trivial

theorem lessens_handleConnection (hpc : s.pc l.thread = .readConnection) :
    Act.Lessens s l (handleConnection p s l) := by
  unfold handleConnection
  split
  · exact lessens_setPc hpc (show 0 < 13 by decide)
  · split
    · exact lessens_setPc hpc (show 0 < 13 by decide)
    · split
      · exact lessens_setPc hpc (show 10 < 13 by decide)
      · exact lessens_setPc hpc (show 3 < 13 by decide)
      · exact lessens_setPc hpc (Nat.lt_succ_self 12)

theorem lessens_createWait {h : Hold} (hpc : s.pc l.thread = .createWait h) :
    Act.Lessens s l (createWait s l h) := by
  refine lessens_withPlayer ?_
  cases hreceived : l.received with
  | none => exact lessens_setPc hpc (show 2 < 7 by decide)
  | some frame =>
    refine lessens_withNode fun node => ?_
    show rank ((s.setPc l.thread _).pc l.thread) < _
    unfold readsStart
    rw [setPc_self, hpc, hreceived]
    split_ifs
    · exact show 8 < 7 + 2 * 1 by decide
    · exact show 6 < 7 + 2 * 1 by decide

theorem lessens_play {game : Game} (hpc : s.pc l.thread = .playing game) :
    Act.Lessens s l (play p s l game) := by
  unfold play
  split
  · exact lessens_setPc hpc (show 0 < 2 by decide)
  · exact lessens_setPc hpc (Nat.lt_succ_self 1)
  · trivial

theorem lessens_catchPlay {game : Game} (hpc : s.pc l.thread = .catching game) :
    Act.Lessens s l (catchPlay p s l game) := by
  unfold catchPlay
  split
  · exact lessens_setPc hpc (Nat.lt_succ_self 0)
  · trivial
  · trivial

theorem lessens_joinLock {joiner : String} {id : ℤ} (hpc : s.pc l.thread = .joinLock joiner id) :
    Act.Lessens s l (joinLock s l joiner id) := by
  unfold joinLock
  split
  · exact lessens_setPc hpc (show 1 < 3 by decide)
  · split_ifs
    · exact lessens_setPc hpc (show 1 < 3 by decide)
    · split
      · exact lessens_setPc hpc (show 1 < 3 by decide)
      · exact lessens_setPc hpc (Nat.lt_succ_self 2)

theorem lessens_randomLock {joiner : String} (hpc : s.pc l.thread = .randomLock joiner) :
    Act.Lessens s l (randomLock s l joiner) := by
  unfold randomLock
  split
  · exact lessens_setPc hpc (show 2 < 12 by decide)
  · exact lessens_setPc hpc (Nat.lt_succ_self 11)

theorem act_lessens {a : Act} (h : act p s l = some a) : Act.Lessens s l a := by
  unfold act at h
  cases hpc : s.pc l.thread with
  | greet => rw [hpc] at h; cases h; exact lessens_setPc hpc (Nat.lt_succ_self _)
  | readConnection => rw [hpc] at h; cases h; exact lessens_handleConnection hpc
  | createEmplace leader =>
    rw [hpc] at h
    cases h
    unfold createEmplace
    simp only
    split
    · trivial
    · exact lessens_setPc hpc (Nat.lt_succ_self _)
  | createLog k =>
    rw [hpc] at h
    cases h
    unfold createLog
    simp only
    split
    · trivial
    · exact lessens_setPc hpc (Nat.lt_succ_self _)
  | createAck k | createRefuse k | createAccept k | joinAck player id =>
    rw [hpc] at h
    cases h
    exact lessens_withPlayer (lessens_setPc hpc (Nat.lt_succ_self _))
  | createWait k => rw [hpc] at h; cases h; exact lessens_createWait hpc
  | createInvalidate k | createBroadcast k | createMove k =>
    rw [hpc] at h
    cases h
    exact lessens_withNode fun node => lessens_setPc hpc (Nat.lt_succ_self _)
  | createErase k | createEraseStarted k game | joinRefuse joiner message | randomNew joiner =>
    rw [hpc] at h
    cases h
    exact lessens_setPc hpc (Nat.lt_succ_self _)
  | playing game => rw [hpc] at h; cases h; exact lessens_play hpc
  | catching game => rw [hpc] at h; cases h; exact lessens_catchPlay hpc
  | joinLock joiner id => rw [hpc] at h; cases h; exact lessens_joinLock hpc
  | joinBroadcast player id =>
    rw [hpc] at h
    cases h
    exact lessens_withPlayer (lessens_setPc hpc (Nat.lt_succ_self 0))
  | randomLock joiner =>
    rw [hpc] at h
    simp only at h
    split_ifs at h
    cases h
    exact lessens_randomLock hpc
  | randomAck player id uid | randomBroadcast player id uid =>
    rw [hpc] at h
    cases h
    exact lessens_withNode fun node =>
      lessens_withPlayer (lessens_setPc hpc (Nat.lt_succ_self _))
  | done => rw [hpc] at h; cases h

end Acts

/-! ### Whole runs -/

section Runs
variable {p : Parsers} {s s' : Sys} {l : Label}

/-- The steps before a thread, with the one in which the process may end. -/
def potential (t : Conn) (s : Sys) : ℕ := rank (s.pc t) + s.crash.isNone.toNat

theorem potential_live (t : Conn) (hlive : s.crash = none) : potential t s = rank (s.pc t) + 1 := by
  rw [potential, hlive]
  rfl

theorem potential_le (t : Conn) (s : Sys) : potential t s ≤ rank (s.pc t) + 1 :=
  Nat.add_le_add_left (Bool.toNat_le _) _

theorem potential_step (hs : step p s l = some s') :
    potential l.thread s' + 1 ≤ potential l.thread s + 2 * (readsStart s l).toNat := by
  have hlive := step_live hs
  rw [potential_live _ hlive]
  cases hact : act p s l with
  | none =>
    unfold step at hs
    rw [hlive, hact] at hs
    cases hs
  | some a =>
    have hlessens := act_lessens hact
    cases a with
    | crash c next =>
      cases (step_crash hlive hact).symm.trans hs
      have hpc := (act_moves hact).2
      show rank (next.pc l.thread) + 1 ≤ _
      rw [hpc]
      exact Nat.le_add_right _ _
    | write ws next =>
      by_cases hout : AllOut l.writeOk ws
      · cases (step_write hlive hact hout).symm.trans hs
        have hle := potential_le l.thread { next with sent := next.sent ++ ws }
        replace hlessens : rank (next.pc l.thread) < _ := hlessens
        simp only at hle
        omega
      · cases (step_escape hlive hact hout).symm.trans hs
        exact Nat.le_add_right (rank (s.pc l.thread) + 1) _

end Runs

end HanabiBot.Lobby.Termination
