import HanabiBot.Lobby.Sections
import HanabiBot.Lobby.Objects

/-! # Random joins and specific joins

`join_random_session` and `join_session` each decide on their own whether a session takes the
joiner. A `Call` is a joiner at the lock of either of them, with the table and the iteration order it
meets, and nobody else moves. Then the random join takes the first session in iteration order that
`join_session` would take (`Takes`), and goes on as `join_session` would (`Alike`); or there is no
such session, and it goes on to `create_session` with everything as it was (`Creates`).

That the joiner is passed to every session by reference is the loop `tryAll` over the session
objects, of which `Machine.firstJoin` is the outcome (`tryAll_firstJoin`). -/

namespace HanabiBot.Lobby.RandomJoin

open HanabiBot.Lib.Blocks HanabiBot.Lib.Runs
open HanabiBot.Common.Messages HanabiBot.HanabiGame.State
open HanabiBot.Lobby HanabiBot.Lobby.Sessions HanabiBot.Lobby.Machine HanabiBot.Lobby.Moves
open HanabiBot.Lobby.Sections

/-! ### The loop over the objects -/

/-- Where the loop of `join_random_session` ends: the session found and the reference it returned,
the sessions, the joiner, and the next block. -/
structure Tried where
  found : Option (ℤ × Ref)
  sessions : List (ℤ × Objects.Session)
  joiner : Objects.Object
  next : ℕ

/-- The loop of `join_random_session`, in iteration order. -/
def tryAll (a : Growth) (isOpen : Conn → Bool) (next : ℕ) (joiner : Objects.Object) :
    List (ℤ × Objects.Session) → Tried
  | [] => ⟨none, [], joiner, next⟩
  | (id, session) :: rest =>
    let j := session.join a isOpen next joiner
    match j.ref with
    | some r => ⟨some (id, r), (id, j.session) :: rest, j.player, j.next⟩
    | none =>
      let t := tryAll a isOpen j.next j.player rest
      { t with sessions := (id, j.session) :: t.sessions }

/-- The objects of the sessions of a table, in iteration order. -/
structure Shows (s : Sys) (order : List ℤ) (objects : List (ℤ × Objects.Session)) : Prop where
  keys : objects.map Prod.fst = order
  holds : ∀ e ∈ objects, ∃ node, s.sessions.lookup e.1 = some node ∧ Objects.Holds e.2 node.session

/-- Every table is shown by some objects, in every order. -/
theorem exists_shows {s : Sys} : ∀ {order : List ℤ}, (∀ id ∈ order, id ∈ s.sessions.keys) →
    ∃ objects, Shows s order objects
  | [], _ => ⟨[], rfl, fun e he => nomatch he⟩
  | id :: order, h => by
    obtain ⟨objects, hkeys, hholds⟩ := exists_shows fun id' hid' => h id' (List.mem_cons_of_mem _ hid')
    obtain ⟨node, hl⟩ := Option.isSome_iff_exists.mp
      (AList.lookup_isSome.mpr (AList.mem_keys.mpr (h id List.mem_cons_self)))
    let o : Objects.Session := ⟨⟨0, node.session.players.map some, node.session.players.length⟩,
      node.session.sessionId, node.session.numPlayers⟩
    refine ⟨(id, o) :: objects, congrArg (id :: ·) hkeys, fun e he => ?_⟩
    rcases List.mem_cons.mp he with rfl | he
    · exact ⟨node, hl, rfl, rfl, rfl⟩
    · exact hholds e he

section Loop
variable {a : Growth} {isOpen : Conn → Bool} {next : ℕ}

theorem tryAll_accepts {joiner : Objects.Object} {id : ℤ} {o : Objects.Session}
    {rest : List (ℤ × Objects.Session)} {r : Ref} (h : (o.join a isOpen next joiner).ref = some r) :
    tryAll a isOpen next joiner ((id, o) :: rest) =
      ⟨some (id, r), (id, (o.join a isOpen next joiner).session) :: rest,
        (o.join a isOpen next joiner).player, (o.join a isOpen next joiner).next⟩ := by
  rw [tryAll]
  simp only [h]

/-- A session that refuses the joiner leaves it to the next. -/
theorem tryAll_refuses {joiner : Objects.Object} {id : ℤ} {o : Objects.Session}
    {rest : List (ℤ × Objects.Session)} (hr : (o.join a isOpen next joiner).ref = none)
    (hs : (o.join a isOpen next joiner).session = o)
    (hp : (o.join a isOpen next joiner).player = joiner)
    (hn : (o.join a isOpen next joiner).next = next) :
    tryAll a isOpen next joiner ((id, o) :: rest) =
      { tryAll a isOpen next joiner rest with
        sessions := (id, o) :: (tryAll a isOpen next joiner rest).sessions } := by
  rw [tryAll]
  simp only [hr, hs, hp, hn]

variable {s : Sys} {joiner : Player} {order : List ℤ} {id : ℤ} {node : Node}

theorem firstJoin_accepts {session : Session} (hl : s.sessions.lookup id = some node)
    (hj : node.session.join isOpen joiner = some session) :
    firstJoin s isOpen joiner (id :: order) = some (id, node, session) := by
  rw [firstJoin, List.findSome?_cons, hl]
  simp only [hj, Option.map_some]

theorem firstJoin_refuses (hl : s.sessions.lookup id = some node)
    (hj : node.session.join isOpen joiner = none) :
    firstJoin s isOpen joiner (id :: order) = firstJoin s isOpen joiner order := by
  rw [firstJoin, List.findSome?_cons, hl]
  simp only [hj, Option.map_none]
  rfl

/-- What the loop does to the objects: the first session that accepts the joiner takes it, and no
other object is touched; or no session does, and nothing is touched. -/
def Loops (t : Tried) (objects : List (ℤ × Objects.Session)) (joiner : Player) (next : ℕ) :
    Option (ℤ × Node × Session) → Prop
  | some (id, _, session) => ∃ before o o' after r,
      objects = before ++ (id, o) :: after ∧ t.sessions = before ++ (id, o') :: after ∧
        Objects.Holds o' session ∧ t.found = some (id, r) ∧ t.joiner = none
  | none => t = ⟨none, objects, some joiner, next⟩

/-- **The loop by reference** has the outcome of `firstJoin`. -/
theorem tryAll_firstJoin (a : Growth) (isOpen : Conn → Bool) (next : ℕ) (joiner : Player) :
    ∀ {order : List ℤ} {objects : List (ℤ × Objects.Session)},
    Shows s order objects → Loops (tryAll a isOpen next (some joiner) objects) objects joiner next
      (firstJoin s isOpen joiner order)
  | [], [], _ => rfl
  | [], _ :: _, h => nomatch h.keys
  | _ :: _, [], h => nomatch h.keys
  | id :: order, (id', o) :: objects, h => by
    obtain ⟨rfl, hkeys⟩ := List.cons.inj h.keys
    obtain ⟨node, hl, ho⟩ := h.holds _ List.mem_cons_self
    have hjoin := ho.join a isOpen next joiner
    cases hj : node.session.join isOpen joiner with
    | some session =>
      simp only [hj] at hjoin
      obtain ⟨hr, ho', hp⟩ := hjoin
      obtain ⟨r, hr⟩ := Option.isSome_iff_exists.mp hr
      rw [firstJoin_accepts hl hj, tryAll_accepts hr]
      exact ⟨[], o, _, objects, r, rfl, rfl, ho', rfl, hp⟩
    | none =>
      simp only [hj] at hjoin
      obtain ⟨hr, hs, hp, hn⟩ := hjoin
      have hrest : Shows s order objects :=
        ⟨hkeys, fun e he => h.holds e (List.mem_cons_of_mem _ he)⟩
      have ih := tryAll_firstJoin a isOpen next joiner hrest
      rw [firstJoin_refuses hl hj, tryAll_refuses hr hs hp hn]
      generalize firstJoin s isOpen joiner order = f at ih ⊢
      rcases f with _ | ⟨id, node, session⟩
      · show Tried.mk _ _ _ _ = _
        rw [show tryAll a isOpen next (some joiner) objects = _ from ih]
      · obtain ⟨before, o1, o2, after, r, hob, hse, ho2, hf, hp⟩ := ih
        refine ⟨(id', o) :: before, o1, o2, after, r, ?_, ?_, ho2, hf, hp⟩
        · rw [hob, List.cons_append]
        · rw [hse, List.cons_append]

end Loop

/-! ### The two calls -/

/-- A joiner at the lock, alive, in a process that runs; in the next step its thread finds the table
in the iteration order of the label. -/
structure Call where
  sys : Sys
  label : Label
  joiner : String
  running : sys.crash = none
  intact : label.thread ∉ sys.gone
  order : label.order.Perm sys.sessions.keys

namespace Call
variable (p : Parsers) (c : Call)

/-- The joiner in `join_random_session(joiner)`. -/
def random : Sys := c.sys.setPc c.label.thread (.randomLock c.joiner)

/-- The joiner in `join_session(joiner, id)`. -/
def specific (id : ℤ) : Sys := c.sys.setPc c.label.thread (.joinLock c.joiner id)

/-- `join_session(joiner, id)` succeeds: it goes on to its positive answer. -/
def Admits (id : ℤ) : Prop :=
  ∃ s', step p (c.specific id) c.label = some s' ∧ s'.pc c.label.thread = .joinAck c.joiner id

/-- `join_session(joiner, id)` fails: nothing has changed, and it goes on to refuse. -/
def Refuses (id : ℤ) : Prop :=
  ∃ message, step p (c.specific id) c.label =
    some (c.sys.setPc c.label.thread (.joinRefuse c.joiner message))

/-- `join_random_session(joiner)` makes of the table what `join_session(joiner, id)`, with success,
makes of it. -/
def Takes (id : ℤ) : Prop :=
  c.Admits p id ∧ ∃ r s', step p c.random c.label = some r ∧
    step p (c.specific id) c.label = some s' ∧ r.sessions = s'.sessions

/-- The acknowledgement of `join_random_session` for an existing session. -/
def randomAckWrite (id : ℤ) : Write :=
  (c.label.thread, .joinRandomSessionAck
    ⟨some .existingSession, some id, some "Joined Existing Session!"⟩)

/-- The acknowledgement of `join_session`. -/
def joinAckWrite (id : ℤ) : Write :=
  (c.label.thread,
    .joinSessionAck ⟨some .succeed, some "Successfully joined session!", some id⟩)

/-- The acknowledgement of `join_random_session` for a new session. -/
def newAckWrite : Write :=
  (c.label.thread, .joinRandomSessionAck
    ⟨some .newSession, none, some "No available sessions found! Creating a new session..."⟩)

/-- The state `b`, but the joiner's thread stands at `pc`, has written `ws`, and has crashed. -/
def stands (b : Sys) (pc : Pc) (ws : List Write) (crash : Option Crash) : Sys :=
  { b.setPc c.label.thread pc with sent := b.sent ++ ws, crash := crash }

/-- **The random join and the specific join, side by side**, behind the join that led to `b`. All
that differs is which of the two functions the thread is in, and its acknowledgement. -/
inductive Alike (b : Sys) (id : ℤ) (uid : ℕ) : Sys → Sys → Prop
  | ack (crash : Option Crash) : Alike b id uid
      (c.stands b (.randomAck c.joiner id uid) [] crash) (c.stands b (.joinAck c.joiner id) [] crash)
  | broadcast (ws : List Write) (crash : Option Crash) : Alike b id uid
      (c.stands b (.randomBroadcast c.joiner id uid) (c.randomAckWrite id :: ws) crash)
      (c.stands b (.joinBroadcast c.joiner id) (c.joinAckWrite id :: ws) crash)
  | done (ws : List Write) : Alike b id uid
      (c.stands b .done (c.randomAckWrite id :: ws) none)
      (c.stands b .done (c.joinAckWrite id :: ws) none)

end Call

/-! ### The first section -/

section First
variable {p : Parsers} {c : Call} {id : ℤ} {node : Node} {session : Session}

/-- Where a thread stands, once it has moved on, is forgotten. -/
theorem accept_setPc_setPc (s : Sys) (t : Conn) (pc pc' : Pc) (joiner : Player) :
    ((s.setPc t pc).accept id node session joiner).setPc t pc' =
      (s.accept id node session joiner).setPc t pc' := by
  unfold Sys.accept Sys.put Sys.setPc
  simp only [Function.update_idem]

theorem setPc_setPc (s : Sys) (t : Conn) (pc pc' : Pc) :
    (s.setPc t pc).setPc t pc' = s.setPc t pc' := by
  unfold Sys.setPc
  rw [Function.update_idem]

/-- The table behind an accepted join. -/
def Call.joined (c : Call) (id : ℤ) (node : Node) (session : Session) : Sys :=
  c.sys.accept id node session (c.label.player c.joiner)

theorem act_specific (p : Parsers) (c : Call) (id : ℤ) :
    act p (c.specific id) c.label = some (joinLock (c.specific id) c.label c.joiner id) := by
  unfold act
  rw [show (c.specific id).pc c.label.thread = .joinLock c.joiner id from setPc_self ..]

theorem act_random (p : Parsers) (c : Call) :
    act p c.random c.label = some (randomLock c.random c.label c.joiner) := by
  unfold act
  rw [show c.random.pc c.label.thread = .randomLock c.joiner from setPc_self ..]
  exact if_pos c.order

theorem specific_admits (hl : c.sys.sessions.lookup id = some node)
    (hj : node.session.join c.label.isOpen (c.label.player c.joiner) = some session) :
    step p (c.specific id) c.label =
      some ((c.joined id node session).setPc c.label.thread (.joinAck c.joiner id)) := by
  have hl' : (c.specific id).sessions.lookup id = some node := hl
  have hfree : ¬ Session.maxPlayers ≤ node.session.numPlayers := by
    have := (Session.join_some hj).2.1
    omega
  refine step_silent (s := c.specific id) c.running ((act_specific p c id).trans ?_)
  unfold joinLock
  simp only [hl', if_neg hfree, hj]
  simp only [Call.specific, accept_setPc_setPc, Call.joined]

/-- `join_session` refuses for the reasons for which `Session::join` does, and where there is no
session. -/
theorem specific_refuses (h : ∀ node, c.sys.sessions.lookup id = some node →
    node.session.join c.label.isOpen (c.label.player c.joiner) = none) : c.Refuses p id := by
  have hact : ∃ message, joinLock (c.specific id) c.label c.joiner id =
      .write [] (c.sys.setPc c.label.thread (.joinRefuse c.joiner message)) := by
    unfold joinLock
    cases hl : c.sys.sessions.lookup id with
    | none =>
      have hl' : (c.specific id).sessions.lookup id = none := hl
      simp only [hl']
      simp only [Call.specific, setPc_setPc]
      exact ⟨_, rfl⟩
    | some node =>
      have hl' : (c.specific id).sessions.lookup id = some node := hl
      simp only [hl', h node hl]
      simp only [Call.specific, setPc_setPc]
      split_ifs <;> exact ⟨_, rfl⟩
  obtain ⟨message, hact⟩ := hact
  exact ⟨message, step_silent (s := c.specific id) c.running
    ((act_specific p c id).trans (congrArg some hact))⟩

theorem random_joins
    (hf : firstJoin c.sys c.label.isOpen (c.label.player c.joiner) c.label.order =
      some (id, node, session)) :
    step p c.random c.label = some ((c.joined id node session).setPc c.label.thread
      (.randomAck c.joiner id node.uid)) := by
  have hf' : firstJoin c.random c.label.isOpen (c.label.player c.joiner) c.label.order =
      some (id, node, session) := hf
  refine step_silent (s := c.random) c.running ((act_random p c).trans ?_)
  unfold randomLock
  simp only [hf']
  simp only [Call.random, accept_setPc_setPc, Call.joined]

theorem random_asks
    (hf : firstJoin c.sys c.label.isOpen (c.label.player c.joiner) c.label.order = none) :
    step p c.random c.label = some (c.sys.setPc c.label.thread (.randomNew c.joiner)) := by
  have hf' : firstJoin c.random c.label.isOpen (c.label.player c.joiner) c.label.order = none := hf
  refine step_silent (s := c.random) c.running ((act_random p c).trans ?_)
  unfold randomLock
  simp only [hf']
  simp only [Call.random, setPc_setPc]

end First

/-! ### The rest of the call -/

section Rest
variable {p : Parsers} {c : Call} {b r s : Sys} {id : ℤ} {node : Node} {l : Label}

theorem act_randomAck {joiner : String} {uid : ℕ} (hpc : s.pc l.thread = .randomAck joiner id uid)
    (hl : s.sessions.lookup id = some node) (huid : node.uid = uid) (ht : l.thread ∉ s.gone) :
    act p s l = some (.write [(l.thread, .joinRandomSessionAck
        ⟨some .existingSession, some id, some "Joined Existing Session!"⟩)]
      (s.setPc l.thread (.randomBroadcast joiner id uid))) := by
  subst huid
  unfold act
  rw [hpc]
  simp only [withNode, Sys.find, hl, if_true, withPlayer, if_neg ht]

theorem act_randomBroadcast {joiner : String}
    (hpc : s.pc l.thread = .randomBroadcast joiner id node.uid)
    (hl : s.sessions.lookup id = some node) (ht : l.thread ∉ s.gone) :
    act p s l = some (.write (joinNews node.session joiner) (s.setPc l.thread .done)) := by
  unfold act
  rw [hpc]
  simp only [withNode, Sys.find, hl, if_true, withPlayer, if_neg ht]

theorem act_joinAck {joiner : String} (hpc : s.pc l.thread = .joinAck joiner id)
    (ht : l.thread ∉ s.gone) :
    act p s l = some (.write [(l.thread, .joinSessionAck
        ⟨some .succeed, some "Successfully joined session!", some id⟩)]
      (s.setPc l.thread (.joinBroadcast joiner id))) := by
  unfold act
  rw [hpc]
  simp only [withPlayer, if_neg ht]

theorem act_joinBroadcast {joiner : String} (hpc : s.pc l.thread = .joinBroadcast joiner id)
    (hl : s.sessions.lookup id = some node) (ht : l.thread ∉ s.gone) :
    act p s l = some (.write (joinNews node.session joiner) (s.setPc l.thread .done)) := by
  unfold act
  rw [hpc]
  simp only [joinBroadcast, subscript_present s hl, withPlayer, if_neg ht]

section Stands
variable {pc pc' : Pc} {ws ws' : List Write} (hthread : l.thread = c.label.thread)
include hthread

theorem stands_write (h : act p (c.stands b pc ws none) l =
      some (.write ws' ((c.stands b pc ws none).setPc l.thread pc')))
    (hout : AllOut l.writeOk ws') :
    step p (c.stands b pc ws none) l = some (c.stands b pc' (ws ++ ws') none) := by
  rw [step_write rfl h hout, hthread]
  simp only [Call.stands, Sys.setPc, Function.update_idem, List.append_assoc]

theorem stands_escape (h : act p (c.stands b pc ws none) l =
      some (.write ws' ((c.stands b pc ws none).setPc l.thread pc')))
    (hout : ¬ AllOut l.writeOk ws') : step p (c.stands b pc ws none) l =
      some (c.stands b pc (ws ++ writesOut l.writeOk 0 ws') (some (.escaped c.label.thread))) := by
  rw [step_escape rfl h hout, hthread]
  simp only [Call.stands, Sys.setPc, List.append_assoc]

end Stands

/-- **The two calls go on in lockstep.** -/
theorem alike_step (hl : b.sessions.lookup id = some node) (ht : c.label.thread ∉ b.gone)
    (h : c.Alike b id node.uid r s) (hthread : l.thread = c.label.thread) :
    Option.Rel (c.Alike b id node.uid) (step p r l) (step p s l) := by
  have hpc (pc : Pc) (ws : List Write) : (c.stands b pc ws none).pc l.thread = pc := by
    rw [hthread]
    exact setPc_self ..
  have halive (pc : Pc) (ws : List Write) : l.thread ∉ (c.stands b pc ws none).gone := by
    rw [hthread]
    exact ht
  cases h with
  | ack crash =>
    cases crash with
    | some crash => exact .none
    | none =>
      have hr := act_randomAck (p := p) (hpc (.randomAck c.joiner id node.uid) []) hl rfl (halive _ _)
      have hs := act_joinAck (p := p) (hpc (.joinAck c.joiner id) []) (halive _ _)
      by_cases hout : l.writeOk 0 l.thread = true
      · rw [stands_write hthread hr (allOut_single.mpr hout),
          stands_write hthread hs (allOut_single.mpr hout), hthread]
        exact .some (.broadcast [] none)
      · have hcut (w : Write) (hw : w.1 = l.thread) : ¬ AllOut l.writeOk [w] := fun h =>
          hout (hw ▸ allOut_single.mp h)
        rw [stands_escape hthread hr (hcut _ rfl), stands_escape hthread hs (hcut _ rfl),
          writesOut_single (hcut _ rfl), writesOut_single (hcut _ rfl)]
        exact .some (.ack _)
  | broadcast ws crash =>
    cases crash with
    | some crash => exact .none
    | none =>
      have hr := act_randomBroadcast (p := p)
        (hpc (.randomBroadcast c.joiner id node.uid) (c.randomAckWrite id :: ws)) hl (halive _ _)
      have hs := act_joinBroadcast (p := p)
        (hpc (.joinBroadcast c.joiner id) (c.joinAckWrite id :: ws)) hl (halive _ _)
      by_cases hout : AllOut l.writeOk (joinNews node.session c.joiner)
      · rw [stands_write hthread hr hout, stands_write hthread hs hout]
        exact .some (.done _)
      · rw [stands_escape hthread hr hout, stands_escape hthread hs hout]
        exact .some (.broadcast _ _)
  | done ws =>
    have hnone (w : Write) : step p (c.stands b .done (w :: ws) none) l = none := by
      unfold step act
      rw [hpc]
      rfl
    rw [hnone, hnone]
    exact .none

end Rest

/-! ### The agreement -/

namespace Call
variable (p : Parsers) (c : Call)

/-- The call as it would be in another iteration order. -/
def reorder (order : List ℤ) (h : order.Perm c.sys.sessions.keys) : Call :=
  { c with label := { c.label with order := order }, order := h }

/-- **The random join is the specific join of `id`**: it changes the session of `id` and no other,
it goes on as `join_session(joiner, id)` does, up to the acknowledgement, and of the objects it has
touched that of `id`, into which the joiner is moved. -/
structure Joins (id : ℤ) (node : Node) (session : Session) : Prop where
  admits : c.Admits p id
  found : c.sys.sessions.lookup id = some node
  accepts : node.session.join c.label.isOpen (c.label.player c.joiner) = some session
  table : ∀ k, (c.joined id node session).sessions.lookup k =
    if k = id then some { node with session := session } else c.sys.sessions.lookup k
  joined : (c.joined id node session).joined =
    c.sys.joined ++ [(node.uid, c.label.player c.joiner)]
  alike : ∀ ls, (∀ l ∈ ls, l.thread = c.label.thread) →
    Option.Rel (c.Alike (c.joined id node session) id node.uid)
      (reach (step p) c.random (c.label :: ls)) (reach (step p) (c.specific id) (c.label :: ls))
  acknowledges : ∀ l, l.thread = c.label.thread → l.writeOk 0 l.thread = true →
    reach (step p) c.random [c.label, l] =
      some (c.stands (c.joined id node session) (.randomBroadcast c.joiner id node.uid)
        [c.randomAckWrite id] none)
  objects : ∀ a next objects, Shows c.sys c.label.order objects →
    Loops (tryAll a c.label.isOpen next (some (c.label.player c.joiner)) objects) objects
      (c.label.player c.joiner) next (some (id, node, session))

/-- **The random join goes on to `create_session`**: nothing has changed but for the acknowledgement
that went out, and of the objects none, the joiner included. -/
structure Creates : Prop where
  asks : step p c.random c.label = some (c.stands c.sys (.randomNew c.joiner) [] none)
  creates : ∀ l, l.thread = c.label.thread →
    step p (c.stands c.sys (.randomNew c.joiner) [] none) l = some (
      if l.writeOk 0 l.thread = true then
        c.stands c.sys (.createEmplace c.joiner) [c.newAckWrite] none
      else c.stands c.sys (.randomNew c.joiner) [] (some (.escaped c.label.thread)))
  objects : ∀ a next objects, Shows c.sys c.label.order objects →
    tryAll a c.label.isOpen next (some (c.label.player c.joiner)) objects =
      ⟨none, objects, some (c.label.player c.joiner), next⟩

/-- How `join_random_session` and `join_session` agree. -/
structure Agrees : Prop where
  refuses : ∀ id, ¬ c.Admits p id → c.Refuses p id
  takes : (∃ id ∈ c.sys.sessions.keys, c.Admits p id) → ∃! id, c.Takes p id
  joins : ∀ id, c.Takes p id → ∃ node session, c.Joins p id node session
  creates : c.Creates p ↔ ∀ id ∈ c.sys.sessions.keys, ¬ c.Admits p id
  reorder : ∀ order h, (c.reorder order h).Creates p ↔ c.Creates p

end Call

section Agreement
variable {p : Parsers} {c : Call} {id : ℤ} {node : Node} {session : Session}

theorem admits_iff : c.Admits p id ↔ ∃ node session, c.sys.sessions.lookup id = some node ∧
    node.session.join c.label.isOpen (c.label.player c.joiner) = some session := by
  constructor
  · intro ⟨s', hs', hpc⟩
    by_contra hno
    have hrefuses : c.Refuses p id := specific_refuses fun node hl => by
      cases hj : node.session.join c.label.isOpen (c.label.player c.joiner) with
      | none => rfl
      | some session => exact absurd ⟨node, session, hl, hj⟩ hno
    obtain ⟨message, hs⟩ := hrefuses
    cases hs'.symm.trans hs
    rw [setPc_self] at hpc
    cases hpc
  · intro ⟨node, session, hl, hj⟩
    exact ⟨_, specific_admits hl hj, setPc_self ..⟩

theorem admits_mem (h : c.Admits p id) : id ∈ c.sys.sessions.keys := by
  obtain ⟨node, session, hl, -⟩ := admits_iff.mp h
  refine AList.mem_keys.mp ?_
  rw [← AList.lookup_isSome, hl]
  rfl

theorem refuses_of_not_admits (h : ¬ c.Admits p id) : c.Refuses p id :=
  specific_refuses fun node hl => by
    cases hj : node.session.join c.label.isOpen (c.label.player c.joiner) with
    | none => rfl
    | some session => exact absurd (admits_iff.mpr ⟨node, session, hl, hj⟩) h

/-- The loop finds nothing exactly when `join_session` fails for every key. -/
theorem firstJoin_none :
    firstJoin c.sys c.label.isOpen (c.label.player c.joiner) c.label.order = none ↔
      ∀ id ∈ c.sys.sessions.keys, ¬ c.Admits p id := by
  unfold firstJoin
  rw [List.findSome?_eq_none_iff]
  refine forall_congr' fun id => ?_
  rw [c.order.mem_iff]
  refine forall_congr' fun hid => ?_
  rw [admits_iff]
  cases hl : c.sys.sessions.lookup id with
  | none => simp
  | some node => simp [Option.eq_none_iff_forall_ne_some]

theorem stands_nil {b : Sys} (hb : b.crash = none) (pc : Pc) :
    c.stands b pc [] none = b.setPc c.label.thread pc := by
  unfold Call.stands
  rw [List.append_nil, ← hb]
  rfl

theorem creates_of_none
    (hf : firstJoin c.sys c.label.isOpen (c.label.player c.joiner) c.label.order = none) :
    c.Creates p where
  asks := (random_asks hf).trans (congrArg some (stands_nil c.running _).symm)
  creates l hthread := by
    have hact : act p (c.stands c.sys (.randomNew c.joiner) [] none) l =
        some (.write [(l.thread, .joinRandomSessionAck ⟨some .newSession, none,
          some "No available sessions found! Creating a new session..."⟩)]
          ((c.stands c.sys (.randomNew c.joiner) [] none).setPc l.thread
            (.createEmplace c.joiner))) := by
      unfold act
      rw [hthread, show (c.stands c.sys (.randomNew c.joiner) [] none).pc c.label.thread =
        .randomNew c.joiner from setPc_self ..]
    split_ifs with hout
    · rw [stands_write hthread hact (allOut_single.mpr hout), hthread]
      rfl
    · have hcut (packet : Packet) : ¬ AllOut l.writeOk [(l.thread, packet)] := fun h =>
        hout (allOut_single.mp h)
      rw [stands_escape hthread hact (hcut _), writesOut_single (hcut _)]
      rfl
  objects a next objects h := by
    have hloops := tryAll_firstJoin a c.label.isOpen next (c.label.player c.joiner) h
    rwa [hf] at hloops

theorem lookup_joined (id : ℤ) (node : Node) (session : Session) (k : ℤ) :
    (c.joined id node session).sessions.lookup k =
      if k = id then some { node with session := session } else c.sys.sessions.lookup k := by
  show (c.sys.sessions.insert id { node with session := session }).lookup k = _
  split_ifs with hk
  · rw [hk, AList.lookup_insert]
  · rw [AList.lookup_insert_ne hk]

theorem joins_of_some
    (hf : firstJoin c.sys c.label.isOpen (c.label.player c.joiner) c.label.order =
      some (id, node, session)) : c.Takes p id ∧ c.Joins p id node session := by
  obtain ⟨hl, hj⟩ := firstJoin_some hf
  have hr := random_joins (p := p) hf
  have hs := specific_admits (p := p) hl hj
  have hadmits : c.Admits p id := admits_iff.mpr ⟨node, session, hl, hj⟩
  have hb : (c.joined id node session).sessions.lookup id = some { node with session := session } :=
    AList.lookup_insert _
  have hlive : (c.joined id node session).crash = none := c.running
  refine ⟨⟨hadmits, _, _, hr, hs, rfl⟩, hadmits, hl, hj, lookup_joined id node session, rfl,
    fun ls hls => ?_, fun l hthread hout => ?_, fun a next objects h => ?_⟩
  · have hstart : c.Alike (c.joined id node session) id node.uid
        (c.stands _ (.randomAck c.joiner id node.uid) [] none)
        (c.stands _ (.joinAck c.joiner id) [] none) := .ack none
    rw [stands_nil hlive, stands_nil hlive] at hstart
    unfold reach
    rw [hr, hs]
    refine reach_rel (C := fun l : Label => l.thread = c.label.thread) ?_ hstart hls
    intro r s l h hthread
    have hnext := alike_step (p := p) hb c.intact h hthread
    exact hnext
  · have hpc : (c.stands (c.joined id node session) (.randomAck c.joiner id node.uid) [] none).pc
        l.thread = .randomAck c.joiner id node.uid := by
      rw [hthread]
      exact setPc_self ..
    have halive : l.thread ∉ c.sys.gone := hthread ▸ c.intact
    have hact := act_randomAck (p := p) hpc hb rfl halive
    have hstep := stands_write hthread hact (allOut_single.mpr hout)
    simp only [reach, hr, ← stands_nil hlive, hstep]
    rw [hthread]
    rfl
  · have hloops := tryAll_firstJoin a c.label.isOpen next (c.label.player c.joiner) h
    rwa [hf] at hloops

theorem creates_iff : c.Creates p ↔ ∀ id ∈ c.sys.sessions.keys, ¬ c.Admits p id := by
  rw [← firstJoin_none]
  refine ⟨fun h => ?_, creates_of_none⟩
  by_contra hf
  obtain ⟨⟨id, node, session⟩, hf⟩ := Option.ne_none_iff_exists'.mp hf
  have hpc := congrArg (fun s : Sys => s.pc c.label.thread)
    (Option.some.inj (h.asks.symm.trans (random_joins hf)))
  simp only [Call.stands, setPc_self] at hpc
  cases hpc

/-- A session that has accepted the joiner is not what it was. -/
theorem takes_unique {id' : ℤ} (h : c.Takes p id) (h' : c.Takes p id') : id' = id := by
  obtain ⟨hadmits, r, s, hr, hs, heq⟩ := h
  obtain ⟨hadmits', r', s', hr', hs', heq'⟩ := h'
  obtain ⟨node, session, hl, hj⟩ := admits_iff.mp hadmits
  obtain ⟨node', session', hl', hj'⟩ := admits_iff.mp hadmits'
  cases hr.symm.trans hr'
  cases hs.symm.trans (specific_admits hl hj)
  cases hs'.symm.trans (specific_admits hl' hj')
  by_contra hne
  have hlookup : (c.joined id node session).sessions.lookup id' =
      (c.joined id' node' session').sessions.lookup id' :=
    congrArg (AList.lookup id') (heq.symm.trans heq')
  rw [lookup_joined, lookup_joined, if_neg hne, if_pos rfl, hl'] at hlookup
  have hsame : node'.session = session' := congrArg Node.session (Option.some.inj hlookup)
  have hplayers := congrArg Session.players ((Session.join_some hj').2.2.symm.trans hsame.symm)
  exact absurd (congrArg List.length hplayers) (by simp)

end Agreement

/-- **A random join agrees with the specific joins**, whatever the table, the joiner and the order
of the iteration. -/
theorem agrees (p : Parsers) (c : Call) : c.Agrees p where
  refuses id := refuses_of_not_admits
  takes := by
    rintro ⟨id, hid, hadmits⟩
    obtain ⟨⟨id', node, session⟩, hf⟩ := Option.ne_none_iff_exists'.mp
      fun hf => firstJoin_none.mp hf id hid hadmits
    have htakes := (joins_of_some (p := p) hf).1
    exact ⟨id', htakes, fun k hk => takes_unique htakes hk⟩
  joins id htakes := by
    obtain ⟨⟨id', node, session⟩, hf⟩ := Option.ne_none_iff_exists'.mp
      fun hf => firstJoin_none.mp hf id (admits_mem htakes.1) htakes.1
    obtain ⟨htakes', hjoins⟩ := joins_of_some (p := p) hf
    rw [takes_unique htakes htakes'] at hjoins
    exact ⟨node, session, hjoins⟩
  creates := creates_iff
  reorder order h := by
    rw [creates_iff, creates_iff]
    refine forall_congr' fun id => imp_congr Iff.rfl (not_congr ?_)
    exact admits_iff.trans (admits_iff (c := c)).symm

/-- A leader opens session `0`, and another client asks for any session. -/
def oneOpen : List Label := entering 0 [16, 1] ++ steps 0 3 ++ entering 1 [16, 3]

/-- There is a call, in a state that is reached, that a session admits. -/
theorem exists_admitted : ∃ c : Call, reach (step plainParsers) init oneOpen = some c.random ∧
    c.Admits plainParsers 0 := by
  have hreach : (reach (step plainParsers) init oneOpen).map
      (fun s => (s.crash, s.pc 1, s.gone, s.sessions.keys, s.sessions.lookup 0)) =
        some (none, .randomLock "", [], [0], some ⟨0, some 0, .ofLeader ⟨"", 0⟩ 0⟩) := rfl
  obtain ⟨s, hs, hview⟩ := Option.map_eq_some_iff.mp hreach
  simp only [Prod.mk.injEq] at hview
  obtain ⟨hrunning, hpc, hgone, hkeys, hlookup⟩ := hview
  let c : Call := {
    sys := s
    label := { Label.plain 1 none with order := [0] }
    joiner := ""
    running := hrunning
    intact := by rw [hgone]; exact List.not_mem_nil
    order := by rw [hkeys] }
  have hrandom : c.random = s := by
    show { s with pc := Function.update s.pc 1 (.randomLock "") } = s
    rw [← hpc, Function.update_eq_self]
  exact ⟨c, hs.trans (congrArg some hrandom.symm), admits_iff.mpr ⟨_, _, hlookup, rfl⟩⟩

end HanabiBot.Lobby.RandomJoin
