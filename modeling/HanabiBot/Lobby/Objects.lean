import HanabiBot.Lib.Blocks
import HanabiBot.Lib.Runs
import HanabiBot.Lobby.Sessions

/-! # Sessions as objects

`session.cpp` once more, with what the values of `Sessions.Session` leave out: the vector `players`
keeps its elements in a block of memory, `Session::join` gives out a reference into it, and a
`Player` that is moved from stays behind as an object without a name or a socket.

A session is followed from its construction (`Origin`), as a `World`: through calls of
`Session::join`, accepted and refused, and constructions of a `Game`, which takes the whole vector.
What is recorded beside the session (`leader`, `accepted`, `refs`, `closed`) says what the members
of the session ought to be, and `represented` that they are. The value level forgets the memory
(`Holds`): what happens to an object happens to its value (`holds_run`). -/

namespace HanabiBot.Lobby.Objects

open HanabiBot.Lib.Blocks HanabiBot.Lib.Runs
open HanabiBot.Common.Messages HanabiBot.HanabiGame.State HanabiBot.Lobby

/-- A `Player` object; `none` if it was moved from. -/
abbrev Object := Option Player

/-- `is_socket_connected` of the socket of an object. -/
def connected (isOpen : Conn → Bool) : Object → Bool
  | some player => isOpen player.socket
  | none => false

structure Session where
  players : Growable Object
  sessionId : ℤ
  numPlayers : ℤ

/-- What a call of `Session::join` leaves: what it returns, the session, the caller's `player`, and
the next block. -/
structure Join where
  ref : Option Ref
  session : Session
  player : Object
  next : ℕ

namespace Session

def maxPlayers : ℕ := Sessions.Session.maxPlayers.toNat

/-- `Session::Session(leader, sessionId)`. -/
def ofLeader (a : Growth) (next : ℕ) (leader : Object) (sessionId : ℤ) : Session × ℕ :=
  let (players, next) := Growable.empty.reserve a next maxPlayers
  let (players, next) := players.push a next leader
  (⟨players, sessionId, 1⟩, next)

/-- `Session::Session(source)`: the new session. -/
def ofMove (a : Growth) (next : ℕ) (source : Session) : Session × ℕ :=
  let (players, next) := Growable.empty.reserve a next maxPlayers
  let (players, next) := players.pushAll a next source.players.elems
  (⟨players, source.sessionId, source.numPlayers⟩, next)

/-- What `Session::Session(source)` leaves of the source. -/
def remains (source : Session) : Session :=
  { source with players := { source.players with elems := source.players.elems.map fun _ => none } }

/-- `Session()`; its numbers are 0 where it is value-initialised, and else anything. -/
def default (sessionId numPlayers : ℤ) : Session := ⟨Growable.empty, sessionId, numPlayers⟩

/-- `Session::join`. -/
def join (a : Growth) (isOpen : Conn → Bool) (next : ℕ) (s : Session) (player : Object) : Join :=
  match s.players.elems with
  | [] => ⟨none, s, player, next⟩
  | leader :: _ =>
    if ¬ connected isOpen leader then ⟨none, s, player, next⟩
    else if (maxPlayers : ℤ) ≤ s.numPlayers then ⟨none, s, player, next⟩
    else
      let (players, next) := s.players.push a next player
      ⟨some players.back, { s with players := players, numPlayers := s.numPlayers + 1 }, none, next⟩

/-- `Game::Game(session)`: the players of the game, and what is left of the session. -/
def intoGame (s : Session) : Growable Object × Session :=
  (s.players, { s with players := Growable.empty })

section Join
variable {a : Growth} {isOpen : Conn → Bool} {next : ℕ} {s : Session} {leader : Object}
  {rest : List Object}

theorem join_empty (h : s.players.elems = []) (player : Object) :
    s.join a isOpen next player = ⟨none, s, player, next⟩ := by
  unfold join
  rw [h]

theorem join_refused (h : s.players.elems = leader :: rest)
    (hwhy : connected isOpen leader = false ∨ (maxPlayers : ℤ) ≤ s.numPlayers) (player : Object) :
    s.join a isOpen next player = ⟨none, s, player, next⟩ := by
  unfold join
  rw [h]
  rcases hwhy with hclosed | hfull
  · exact if_pos (by rw [hclosed]; exact Bool.false_ne_true)
  · simp only
    rw [if_pos hfull, ite_self]

theorem join_accepted (h : s.players.elems = leader :: rest) (hopen : connected isOpen leader = true)
    (hfree : ¬ (maxPlayers : ℤ) ≤ s.numPlayers) (player : Object) :
    s.join a isOpen next player =
      ⟨some (s.players.push a next player).1.back,
        { s with players := (s.players.push a next player).1, numPlayers := s.numPlayers + 1 },
        none, (s.players.push a next player).2⟩ := by
  unfold join
  rw [h]
  simp only
  rw [if_neg (not_not.mpr hopen), if_neg hfree]

end Join

end Session

/-! ### What happens to a session -/

structure World where
  session : Session
  /-- the players of the games -/
  games : List (Growable Object)
  next : ℕ
  leader : Object
  /-- the players of the accepted joins -/
  accepted : List Object
  /-- the references given out, and to whom -/
  refs : List (Ref × Object)
  /-- the session was constructed without players, or they have been moved into a game -/
  closed : Bool

inductive Op where
  | join (isOpen : Conn → Bool) (player : Object)
  | intoGame

/-- What a join leaves behind; it is accepted if it returns a reference. -/
def World.joined (w : World) (player : Object) (j : Join) : World :=
  { w with
    session := j.session
    next := j.next
    accepted := w.accepted ++ (j.ref.map fun _ => player).toList
    refs := w.refs ++ (j.ref.map fun r => (r, player)).toList }

def step (a : Growth) (w : World) : Op → Option World
  | .join isOpen player => some (w.joined player (w.session.join a isOpen w.next player))
  | .intoGame =>
    let (players, session) := w.session.intoGame
    some { w with session := session, games := players :: w.games, closed := true }

/-- How a session came to be. The source of a move is itself a session to which something has
happened. -/
inductive Origin where
  | leader (leader : Object) (sessionId : ℤ)
  | default (sessionId numPlayers : ℤ)
  | destination (source : Origin) (ops : List Op)
  | remains (source : Origin) (ops : List Op)

/-- `getLeader`: the reference it returns, and the object there. -/
def getLeader (s : Session) : List (Ref × Object) :=
  (s.players.elems.head?.map fun leader => (⟨s.players.block, 0⟩, leader)).toList

/-- A session at the end of its construction. -/
def World.fresh (session : Session) (next : ℕ) (leader : Object) (accepted : List Object)
    (closed : Bool) : World :=
  ⟨session, [], next, leader, accepted, getLeader session, closed⟩

def start (a : Growth) : Origin → World
  | .leader leader sessionId =>
    let s := Session.ofLeader a 1 leader sessionId
    .fresh s.1 s.2 leader [] false
  | .default sessionId numPlayers => .fresh (.default sessionId numPlayers) 1 none [] true
  | .destination source ops =>
    let w := last (step a) (start a source) ops
    let s := Session.ofMove a w.next w.session
    .fresh s.1 s.2 w.leader w.accepted w.closed
  | .remains source ops =>
    let w := last (step a) (start a source) ops
    .fresh w.session.remains w.next none (w.accepted.map fun _ => none) w.closed

/-! ### The representation -/

/-- A join that is accepted appends exactly the player, in the block where the others are. -/
structure Accepts (w : World) (player : Object) (j : Join) : Prop where
  session : j.session = { w.session with
    players := { w.session.players with elems := w.session.players.elems ++ [player] }
    numPlayers := w.session.numPlayers + 1 }
  room : j.session.players.elems.length ≤ w.session.players.capacity
  ref : ∃ r, j.ref = some r ∧ j.session.players.RefersTo r player
  player : j.player = none
  next : j.next = w.next

/-- A join that is refused leaves everything unmoved. -/
structure Refuses (w : World) (player : Object) (j : Join) : Prop where
  ref : j.ref = none
  session : j.session = w.session
  player : j.player = player
  next : j.next = w.next

structure Represented (a : Growth) (w : World) : Prop where
  /-- A session with a leader has its players until they are moved into a game. -/
  seated : w.closed = false → w.session.players.elems ≠ []
  players : w.session.players.elems ≠ [] →
    w.session.players.elems = w.leader :: w.accepted ∧
      w.session.numPlayers = w.session.players.elems.length ∧
      w.session.players.elems.length ≤ Session.maxPlayers
  refs : ∀ r x, (r, x) ∈ w.refs → ∃ v ∈ w.session.players :: w.games, v.RefersTo r x
  accepts : ∀ isOpen player, w.session.players.elems ≠ [] → connected isOpen w.leader = true →
    w.session.players.elems.length < Session.maxPlayers →
      Accepts w player (w.session.join a isOpen w.next player)
  refuses : ∀ isOpen player, (w.session.players.elems = [] ∨ connected isOpen w.leader = false ∨
    w.session.players.elems.length = Session.maxPlayers) →
      Refuses w player (w.session.join a isOpen w.next player)
  closed : w.closed = true → ∀ isOpen player,
    Refuses w player (w.session.join a isOpen w.next player)

/-- What carries `Represented` through a run: the vector has the room of the constructors. -/
structure Inv (w : World) : Prop where
  seated : w.closed = false → w.session.players.elems ≠ []
  players : w.session.players.elems ≠ [] →
    w.session.players.elems = w.leader :: w.accepted ∧
      w.session.numPlayers = w.session.players.elems.length ∧
      w.session.players.elems.length ≤ Session.maxPlayers ∧
      Session.maxPlayers ≤ w.session.players.capacity
  refs : ∀ r x, (r, x) ∈ w.refs → ∃ v ∈ w.session.players :: w.games, v.RefersTo r x
  closed : w.closed = true → w.session.players.elems = []

section Join
variable {a : Growth} {w : World}

theorem refuses_of_eq {player : Object} {j : Join} (h : j = ⟨none, w.session, player, w.next⟩) :
    Refuses w player j := by
  rw [h]
  exact ⟨rfl, rfl, rfl, rfl⟩

/-- **A join is accepted** if the leader's socket is connected and the session is not full, ... -/
theorem Inv.join_accepts (hI : Inv w) (hne : w.session.players.elems ≠ []) {isOpen : Conn → Bool}
    (hopen : connected isOpen w.leader = true)
    (hlt : w.session.players.elems.length < Session.maxPlayers) (player : Object) :
    Accepts w player (w.session.join a isOpen w.next player) := by
  obtain ⟨helems, hnum, hle, hcap⟩ := hI.players hne
  have hroom : w.session.players.elems.length < w.session.players.capacity := by omega
  rw [Session.join_accepted helems hopen (by omega), Growable.push_in_place hroom]
  refine ⟨rfl, ?_, ⟨_, rfl, ?_⟩, rfl, rfl⟩
  · show (w.session.players.elems ++ [player]).length ≤ _
    rw [List.length_append, List.length_singleton]
    omega
  · rw [Growable.back_concat]
    exact Growable.refersTo_concat w.session.players player

/-- ... and else refused. -/
theorem Inv.join_refuses (hI : Inv w) {isOpen : Conn → Bool}
    (hwhy : w.session.players.elems = [] ∨ connected isOpen w.leader = false ∨
      w.session.players.elems.length = Session.maxPlayers) (player : Object) :
    Refuses w player (w.session.join a isOpen w.next player) := by
  by_cases hne : w.session.players.elems = []
  · exact refuses_of_eq (Session.join_empty hne player)
  · obtain ⟨helems, hnum, -, -⟩ := hI.players hne
    refine refuses_of_eq (Session.join_refused helems ?_ player)
    rcases hwhy.resolve_left hne with hclosed | hfull
    · exact Or.inl hclosed
    · exact Or.inr (by omega)

theorem Inv.length_le (hI : Inv w) : w.session.players.elems.length ≤ Session.maxPlayers := by
  by_cases hne : w.session.players.elems = []
  · rw [hne]
    exact Nat.zero_le _
  · exact (hI.players hne).2.2.1

theorem represented_of_inv (hI : Inv w) : Represented a w where
  seated := hI.seated
  players hne := by
    obtain ⟨helems, hnum, hle, -⟩ := hI.players hne
    exact ⟨helems, hnum, hle⟩
  refs := hI.refs
  accepts isOpen player hne hopen hlt := hI.join_accepts hne hopen hlt player
  refuses isOpen player hwhy := hI.join_refuses hwhy player
  closed hc isOpen player := hI.join_refuses (Or.inl (hI.closed hc)) player

end Join

/-! ### Runs -/

section Step
variable {a : Growth} {w w' : World}

theorem inv_accepts {player : Object} {j : Join} (hI : Inv w) (hne : w.session.players.elems ≠ [])
    (hlt : w.session.players.elems.length < Session.maxPlayers) (h : Accepts w player j) :
    Inv (w.joined player j) := by
  obtain ⟨hs, hroom, ⟨r, hr, hto⟩, -, -⟩ := h
  obtain ⟨helems, hnum, hle, hcap⟩ := hI.players hne
  have hlen : (w.session.players.elems ++ [player]).length =
      w.session.players.elems.length + 1 := by
    rw [List.length_append, List.length_singleton]
  rw [World.joined, hr, hs]
  refine ⟨fun _ => List.append_ne_nil_of_left_ne_nil hne _, fun _ => ⟨?_, ?_, ?_, hcap⟩,
    fun r' x hmem => ?_, fun hc => absurd (hI.closed hc) hne⟩
  · show w.session.players.elems ++ [player] = w.leader :: (w.accepted ++ [player])
    rw [helems, List.cons_append]
  · show w.session.numPlayers + 1 = ((w.session.players.elems ++ [player]).length : ℤ)
    rw [hlen, hnum]
    push_cast
    rfl
  · show (w.session.players.elems ++ [player]).length ≤ _
    omega
  · rcases List.mem_append.mp hmem with hmem | hmem
    · obtain ⟨v, hv, hto'⟩ := hI.refs r' x hmem
      rcases List.mem_cons.mp hv with rfl | hv
      · exact ⟨_, List.mem_cons_self, hto'.push player⟩
      · exact ⟨v, List.mem_cons_of_mem _ hv, hto'⟩
    · rw [Option.map_some, Option.toList_some, List.mem_singleton, Prod.mk.injEq] at hmem
      obtain ⟨rfl, rfl⟩ := hmem
      rw [hs] at hto
      exact ⟨_, List.mem_cons_self, hto⟩

theorem inv_refuses {player : Object} {j : Join} (hI : Inv w) (h : Refuses w player j) :
    Inv (w.joined player j) := by
  obtain ⟨hr, hs, -, hn⟩ := h
  rw [World.joined, hr, hs, hn]
  simpa using hI

theorem inv_step (op : Op) (hI : Inv w) (h : step a w op = some w') : Inv w' := by
  cases op with
  | join isOpen player =>
    cases h
    by_cases hne : w.session.players.elems = []
    · exact inv_refuses hI (hI.join_refuses (Or.inl hne) player)
    · rcases Decidable.em (w.session.players.elems.length = Session.maxPlayers) with hfull | hfree
      · exact inv_refuses hI (hI.join_refuses (Or.inr (Or.inr hfull)) player)
      · have hlt := Nat.lt_of_le_of_ne (hI.players hne).2.2.1 hfree
        cases hopen : connected isOpen w.leader with
        | false => exact inv_refuses hI (hI.join_refuses (Or.inr (Or.inl hopen)) player)
        | true => exact inv_accepts hI hne hlt (hI.join_accepts hne hopen hlt player)
  | intoGame =>
    cases h
    refine ⟨fun hc => (nomatch hc), fun hne => absurd rfl hne, fun r x hmem => ?_, fun _ => rfl⟩
    obtain ⟨v, hv, hto⟩ := hI.refs r x hmem
    exact ⟨v, List.mem_cons_of_mem _ hv, hto⟩

theorem inv_states (hI : Inv w) (ops : List Op) : States (step a) Inv w ops :=
  states_of_inv (C := fun _ _ => True) (fun _ op _ hI _ h => inv_step op hI h) (fun _ h => h) hI
    (along_of_forall (fun _ _ => trivial) w ops)

end Step

/-! ### The constructors -/

section Start
variable {a : Growth}

theorem maxPlayers_le_reserve (next : ℕ) :
    Session.maxPlayers ≤ ((Growable.empty (α := Object)).reserve a next Session.maxPlayers).1.capacity :=
  Growable.le_reserve_capacity _

theorem ofLeader_players (next : ℕ) (leader : Object) (sessionId : ℤ) :
    (Session.ofLeader a next leader sessionId).1.players.elems = [leader] ∧
      Session.maxPlayers ≤ (Session.ofLeader a next leader sessionId).1.players.capacity := by
  have hcap := maxPlayers_le_reserve (a := a) next
  unfold Session.ofLeader
  simp only
  rw [Growable.push_in_place]
  · exact ⟨by simp [Growable.empty], hcap⟩
  · rw [Growable.reserve_elems]
    exact Nat.lt_of_lt_of_le (by decide) hcap

/-- **A move brings all players**, into a vector with the room of the constructor. -/
theorem ofMove_players {next : ℕ} {source : Session}
    (h : source.players.elems.length ≤ Session.maxPlayers) :
    (Session.ofMove a next source).1.players.elems = source.players.elems ∧
      Session.maxPlayers ≤ (Session.ofMove a next source).1.players.capacity := by
  have hcap := maxPlayers_le_reserve (a := a) next
  unfold Session.ofMove
  simp only
  rw [Growable.pushAll_in_place]
  · exact ⟨by simp [Growable.empty], hcap⟩
  · rw [Growable.reserve_elems]
    simp only [Growable.empty, List.length_nil, Nat.zero_add]
    exact Nat.le_trans h hcap

theorem inv_fresh {session : Session} {next : ℕ} {leader : Object} {accepted : List Object}
    {closed : Bool} (hseated : closed = false → session.players.elems ≠ []) (hplayers : session.players.elems ≠ [] →
      session.players.elems = leader :: accepted ∧
        session.numPlayers = session.players.elems.length ∧
        session.players.elems.length ≤ Session.maxPlayers ∧
        Session.maxPlayers ≤ session.players.capacity)
    (hclosed : closed = true → session.players.elems = []) :
    Inv (.fresh session next leader accepted closed) := by
  refine ⟨hseated, hplayers, fun r x hmem => ⟨_, List.mem_cons_self, ?_⟩, hclosed⟩
  simp only [World.fresh, getLeader, Option.mem_toList, Option.map_eq_some_iff,
    Prod.mk.injEq] at hmem
  obtain ⟨leader', hhead, rfl, rfl⟩ := hmem
  exact ⟨rfl, List.head?_eq_getElem?.symm.trans hhead⟩

theorem inv_start : ∀ o : Origin, Inv (start a o)
  | .leader leader sessionId => by
    obtain ⟨helems, hcap⟩ := ofLeader_players (a := a) 1 leader sessionId
    show Inv (.fresh (Session.ofLeader a 1 leader sessionId).1 _ leader [] false)
    refine inv_fresh (fun _ hnil => ?_) (fun _ => ⟨helems, ?_, ?_, hcap⟩) (fun hc => nomatch hc)
    · cases helems.symm.trans hnil
    · rw [helems]
      rfl
    · rw [helems]
      exact Nat.le_of_ble_eq_true rfl
  | .default sessionId numPlayers => inv_fresh (fun hc => (nomatch hc)) (fun hne => absurd rfl hne) (fun _ => rfl)
  | .destination source ops => by
    have hw : Inv (last (step a) (start a source) ops) := (inv_states (inv_start source) ops).last
    show Inv (.fresh (Session.ofMove a _ _).1 _ _ _ _)
    obtain ⟨helems, hcap⟩ := ofMove_players (a := a) hw.length_le
    refine inv_fresh (fun hc => helems ▸ hw.seated hc) (fun hne => ?_)
      (fun hc => helems.trans (hw.closed hc))
    rw [helems] at hne ⊢
    obtain ⟨hseats, hnum, hle, -⟩ := hw.players hne
    exact ⟨hseats, hnum, hle, hcap⟩
  | .remains source ops => by
    have hw : Inv (last (step a) (start a source) ops) := (inv_states (inv_start source) ops).last
    show Inv (.fresh (Session.remains _) _ _ _ _)
    refine inv_fresh (fun hc hnil => hw.seated hc (List.map_eq_nil_iff.mp hnil)) (fun hne => ?_)
      (fun hc => ?_)
    · obtain ⟨hseats, hnum, hle, hcap⟩ := hw.players (fun h => hne (by rw [Session.remains, h]; rfl))
      refine ⟨?_, ?_, ?_, hcap⟩
      · rw [Session.remains, hseats]
        rfl
      · rw [Session.remains, List.length_map]
        exact hnum
      · rw [Session.remains, List.length_map]
        exact hle
    · rw [Session.remains, hw.closed hc]
      rfl

end Start

/-- **Sessions are represented as they ought to be**, from any construction on and throughout. -/
theorem represented (a : Growth) (o : Origin) (ops : List Op) :
    States (step a) (Represented a) (start a o) ops :=
  states_of_inv (C := fun _ _ => True) (fun _ op _ hI _ h => inv_step op hI h)
    (fun _ hI => represented_of_inv hI) (inv_start o) (along_of_forall (fun _ _ => trivial) _ ops)

/-! ### The value level -/

/-- The object holds the value: none of its players has been moved from. -/
structure Holds (s : Session) (v : Sessions.Session) : Prop where
  players : s.players.elems = v.players.map some
  sessionId : s.sessionId = v.sessionId
  numPlayers : s.numPlayers = v.numPlayers

section Holds
variable {a : Growth} {next : ℕ} {s : Session} {v : Sessions.Session}

theorem ofLeader_holds (leader : Player) (sessionId : ℤ) :
    Holds (Session.ofLeader a next (some leader) sessionId).1 (.ofLeader leader sessionId) :=
  ⟨(ofLeader_players next (some leader) sessionId).1, rfl, rfl⟩

theorem default_holds : Holds (.default 0 0) .default := ⟨rfl, rfl, rfl⟩

theorem Holds.ofMove (h : Holds s v) (a : Growth) (next : ℕ) (hle : s.players.elems.length ≤ Session.maxPlayers) :
    Holds (Session.ofMove a next s).1 v :=
  ⟨(ofMove_players hle).1.trans h.players, h.sessionId, h.numPlayers⟩

theorem Holds.intoGame (h : Holds s v) : Holds s.intoGame.2 { v with players := [] } :=
  ⟨rfl, h.sessionId, h.numPlayers⟩

/-- **A join of the object is a join of its value**: both accept, and the joiner is moved from, or
both refuse, and nothing is. -/
theorem Holds.join (h : Holds s v) (a : Growth) (isOpen : Conn → Bool) (next : ℕ) (player : Player) :
    let j := s.join a isOpen next (some player)
    match v.join isOpen player with
    | some v' => j.ref.isSome = true ∧ Holds j.session v' ∧ j.player = none
    | none => j.ref = none ∧ j.session = s ∧ j.player = some player ∧ j.next = next := by
  obtain ⟨hplayers, hid, hnum⟩ := h
  unfold Sessions.Session.join
  cases hv : v.players with
  | nil =>
    rw [hv] at hplayers
    rw [Session.join_empty hplayers]
    exact ⟨rfl, rfl, rfl, rfl⟩
  | cons leader rest =>
    rw [hv, List.map_cons] at hplayers
    have hmax : ((Session.maxPlayers : ℕ) : ℤ) = Sessions.Session.maxPlayers := rfl
    simp only
    split_ifs with hopen hfull
    · rw [Session.join_refused hplayers (Or.inr (by rw [hnum, hmax]; exact hfull))]
      exact ⟨rfl, rfl, rfl, rfl⟩
    · rw [Session.join_accepted hplayers hopen (by rw [hnum, hmax]; exact hfull)]
      refine ⟨rfl, ⟨?_, hid, congrArg (· + 1) hnum⟩, rfl⟩
      simp only [Growable.push_elems, hplayers, List.map_append, List.map_cons, List.map_nil,
        List.cons_append]
    · rw [Session.join_refused hplayers (Or.inl (Bool.eq_false_iff.mpr hopen))]
      exact ⟨rfl, rfl, rfl, rfl⟩

/-- What an operation makes of the value. -/
def operate (v : Sessions.Session) : Op → Sessions.Session
  | .join isOpen (some player) => (v.join isOpen player).getD v
  | .join _ none => v
  | .intoGame => { v with players := [] }

/-- Who joins has not been moved from. -/
def Op.Live : Op → Prop
  | .join _ player => player ≠ none
  | .intoGame => True

/-- The value of a session at the end of its construction, if its players have not been moved
from. -/
inductive Valued : Origin → Sessions.Session → Prop
  | leader (leader : Player) (sessionId : ℤ) :
    Valued (.leader (some leader) sessionId) (.ofLeader leader sessionId)
  | default : Valued (.default 0 0) .default
  | destination {source : Origin} {v : Sessions.Session} {ops : List Op} (h : Valued source v)
      (hops : ∀ op ∈ ops, op.Live) : Valued (.destination source ops) (ops.foldl operate v)

theorem holds_step {w : World} (h : Holds w.session v) {op : Op} (hop : op.Live) :
    ∃ w', step a w op = some w' ∧ Holds w'.session (operate v op) := by
  cases op with
  | intoGame => exact ⟨_, rfl, h.intoGame⟩
  | join isOpen player =>
    obtain ⟨player, rfl⟩ := Option.ne_none_iff_exists'.mp hop
    have hjoin := h.join a isOpen w.next player
    refine ⟨_, rfl, ?_⟩
    show Holds (w.session.join a isOpen w.next (some player)).session
      ((v.join isOpen player).getD v)
    cases hj : v.join isOpen player with
    | some v' =>
      simp only [hj] at hjoin
      exact hjoin.2.1
    | none =>
      simp only [hj] at hjoin
      rw [hjoin.2.1]
      exact h

theorem holds_last {w : World} (h : Holds w.session v) {ops : List Op}
    (hops : ∀ op ∈ ops, op.Live) :
    Holds (last (step a) w ops).session (ops.foldl operate v) := by
  induction ops generalizing w v with
  | nil => exact h
  | cons op ops ih =>
    obtain ⟨hop, hrest⟩ := List.forall_mem_cons.mp hops
    obtain ⟨w', hs, h'⟩ := holds_step (a := a) h hop
    rw [last, hs]
    exact ih h' hrest

theorem holds_start {o : Origin} (h : Valued o v) : Holds (start a o).session v := by
  induction h with
  | leader leader sessionId => exact ofLeader_holds leader sessionId
  | default => exact default_holds
  | @destination source v ops h hops ih =>
    have hI : Inv (last (step a) (start a source) ops) := (inv_states (inv_start source) ops).last
    exact (holds_last ih hops).ofMove a _ hI.length_le

/-- **What happens to an object happens to its value**, from any construction on. -/
theorem holds_run (a : Growth) {o : Origin} (h : Valued o v) {ops : List Op}
    (hops : ∀ op ∈ ops, op.Live) :
    Holds (last (step a) (start a o) ops).session (ops.foldl operate v) :=
  holds_last (holds_start h) hops

end Holds

end HanabiBot.Lobby.Objects
