import HanabiBot.Lobby.Seats

/-! # The handshake of one connection

What the server writes to a connection, from the view of that connection: the greeting, the
acknowledgement of the operation it has asked for, and then anything (`AckFirst`). A random join
that finds no session has an acknowledgement of two frames.

A `View` is what there is to know of one connection: what it has asked for, what has been written
to it, and where its thread stands. A step of the server `Passes` if it keeps the handshake in
order. Written to by others (`Hears`), a connection passes if it is behind its acknowledgement, or
if what it gets is the acknowledgement it waits for. -/

namespace HanabiBot.Lobby.Handshake

open HanabiBot.Common.Messages HanabiBot.Lobby.Sessions HanabiBot.Lobby.Machine
open HanabiBot.Lobby.Seats

/-! ### Frames -/

/-- The operations that `handle_client` takes for a random join. -/
def IsRandom (op : ClientOperation) : Prop := op ≠ .createSession ∧ op ≠ .joinSpecificSession

/-- The connection still gets the acknowledgement of a new session. -/
inductive Creating : Option ClientOperation → List Packet → Prop where
  | asked (g : AckMessage) : Creating (some .createSession) [.ack g]
  | random (op : ClientOperation) (g : AckMessage) (m : JoinRandomSessionAck) (hop : IsRandom op)
      (hm : m.sessionType = some .newSession) :
    Creating (some op) [.ack g, .joinRandomSessionAck m]

/-- The connection has got the acknowledgement of a new session. -/
inductive Created : Option ClientOperation → List Packet → Prop where
  | asked (g : AckMessage) (m : CreateSessionAck) (more : List Packet) :
    Created (some .createSession) (.ack g :: .createSessionAck m :: more)
  | random (op : ClientOperation) (g : AckMessage) (m : JoinRandomSessionAck) (m' : CreateSessionAck)
      (more : List Packet) (hop : IsRandom op) (hm : m.sessionType = some .newSession) :
    Created (some op) (.ack g :: .joinRandomSessionAck m :: .createSessionAck m' :: more)

/-- The connection has got the acknowledgement of a join. -/
inductive Joined : Option ClientOperation → List Packet → Prop where
  | specific (g : AckMessage) (m : JoinSessionAck) (more : List Packet) :
    Joined (some .joinSpecificSession) (.ack g :: .joinSessionAck m :: more)
  | random (op : ClientOperation) (g : AckMessage) (m : JoinRandomSessionAck) (more : List Packet)
      (hop : IsRandom op) (hm : m.sessionType = some .existingSession) :
    Joined (some op) (.ack g :: .joinRandomSessionAck m :: more)

/-- **The acknowledgement comes first**: a connection has been written nothing, or the greeting, or
the greeting and its acknowledgement, or the greeting and the first half of its acknowledgement. -/
inductive AckFirst : Option ClientOperation → List Packet → Prop where
  | silent : AckFirst none []
  | greeted (asked : Option ClientOperation) (g : AckMessage) : AckFirst asked [.ack g]
  | creating {asked : Option ClientOperation} {packets : List Packet} (h : Creating asked packets) :
    AckFirst asked packets
  | created {asked : Option ClientOperation} {packets : List Packet} (h : Created asked packets) :
    AckFirst asked packets
  | joined {asked : Option ClientOperation} {packets : List Packet} (h : Joined asked packets) :
    AckFirst asked packets

section Frames
variable {asked : Option ClientOperation} {packets : List Packet}

theorem Creating.append (h : Creating asked packets) (m : CreateSessionAck) :
    Created asked (packets ++ [.createSessionAck m]) := by
  cases h with
  | asked g => exact .asked g m []
  | random op g m' hop hm => exact .random op g m' m [] hop hm

theorem Created.append (h : Created asked packets) (more : List Packet) :
    Created asked (packets ++ more) := by
  cases h with
  | asked g m rest => exact .asked g m _
  | random op g m m' rest hop hm => exact .random op g m m' _ hop hm

theorem Joined.append (h : Joined asked packets) (more : List Packet) :
    Joined asked (packets ++ more) := by
  cases h with
  | specific g m rest => exact .specific g m _
  | random op g m rest hop hm => exact .random op g m _ hop hm

theorem Created.mem (h : Created asked packets) : ∃ m, .createSessionAck m ∈ packets := by
  cases h with
  | asked g m more => exact ⟨m, by simp⟩
  | random op g m m' more hop hm => exact ⟨m', by simp⟩

theorem Creating.not_mem (h : Creating asked packets) (m : CreateSessionAck) :
    .createSessionAck m ∉ packets := by
  cases h <;> simp

/-- A frame that belongs to no handshake. -/
def IsNews : Packet → Prop
  | .info _ | .text _ => True
  | _ => False

/-- Behind the greeting nothing but an acknowledgement may come. -/
theorem not_ackFirst_greeted {g : AckMessage} {packet : Packet} (hn : IsNews packet)
    (more : List Packet) : ¬ AckFirst asked (.ack g :: packet :: more) := by
  intro h
  cases h with
  | creating h => cases h; exact hn
  | created h => cases h <;> exact hn
  | joined h => cases h <;> exact hn

/-- Behind the first half of an acknowledgement the second must come. -/
theorem not_ackFirst_creating (h : Creating asked packets) {packet : Packet} (hn : IsNews packet)
    (more : List Packet) : ¬ AckFirst asked (packets ++ packet :: more) := by
  intro hack
  cases h with
  | asked g => exact not_ackFirst_greeted hn more hack
  | random op g m hop hm =>
    cases hack with
    | creating h => cases h
    | created h =>
      cases h with
      | random => exact hn
    | joined h =>
      cases h with
      | random op' g' m' more' hop' hm' =>
        rw [hm] at hm'
        cases hm'

end Frames

/-! ### The view of a connection -/

/-- What there is to know of one connection. -/
structure View where
  asked : Option ClientOperation
  packets : List Packet
  pc : Pc

/-- The thread stands before its acknowledgement, that of a leader apart. -/
def before : Pc → Bool
  | .greet | .readConnection | .createEmplace _ | .joinLock _ _ | .joinRefuse _ _ | .joinAck _ _
  | .randomLock _ | .randomAck _ _ _ | .randomNew _ => true
  | _ => false

/-- The thread has no part in the handshake any more. -/
def free : Pc → Bool
  | .createLog _ | .createAck _ => false
  | pc => !before pc

namespace View

/-- The acknowledgement is complete. -/
def Settled (v : View) : Prop := Created v.asked v.packets ∨ Joined v.asked v.packets

/-- The connection has got the greeting only. -/
def Greeted (v : View) : Prop := ∃ g, v.packets = [.ack g]

/-- What has been written to a connection whose thread stands there. -/
def Stands (v : View) : Prop :=
  match v.pc with
  | .greet => v.asked = none ∧ v.packets = []
  | .readConnection => v.asked = none ∧ v.Greeted
  | .joinLock _ _ | .joinRefuse _ _ | .joinAck _ _ =>
    v.asked = some .joinSpecificSession ∧ v.Greeted
  | .randomLock _ | .randomAck _ _ _ | .randomNew _ =>
    (∃ op, IsRandom op ∧ v.asked = some op) ∧ v.Greeted
  | .createEmplace _ => Creating v.asked v.packets
  | .createLog _ | .createAck _ => Creating v.asked v.packets ∨ Created v.asked v.packets
  | _ => True

/-- The connection is that of a leader. -/
def Leads (v : View) : Prop :=
  (Creating v.asked v.packets ∨ Created v.asked v.packets) ∧ ∀ leader, v.pc ≠ .createEmplace leader

/-- The connection may have a seat. -/
def Seated (c : Conn) (v : View) : Prop := v.Settled ∨ Pending c v.pc

structure Fits (v : View) : Prop where
  first : AckFirst v.asked v.packets
  stands : v.Stands

end View

/-- A change of the view that keeps the handshake in order. -/
structure Passes (c : Conn) (v v' : View) : Prop where
  fits : v.Fits → v'.Fits
  seated : v.Fits → v.Seated c → v'.Seated c
  leads : v.Fits → v.Leads → v'.Leads

theorem Passes.refl (c : Conn) (v : View) : Passes c v v := ⟨id, fun _ => id, fun _ => id⟩

theorem Passes.trans {c : Conn} {v v' v'' : View} (h : Passes c v v') (h' : Passes c v' v'') :
    Passes c v v'' where
  fits hv := h'.fits (h.fits hv)
  seated hv hs := h'.seated (h.fits hv) (h.seated hv hs)
  leads hv hl := h'.leads (h.fits hv) (h.leads hv hl)

section Views
variable {c : Conn} {v v' : View}

open View

theorem creating_not_settled (h : Creating v.asked v.packets) : ¬ v.Settled := by
  obtain ⟨asked, packets, pc⟩ := v
  rintro (hs | hs)
  · cases h <;> cases hs
  · cases h with
    | asked g => cases hs
    | random op g m hop hm =>
      cases hs with
      | random op' g' m' more hop' hm' =>
        rw [hm] at hm'
        cases hm'

/-- Before its acknowledgement a connection is neither settled nor that of a leader. -/
theorem before_not (h : v.Stands) (hb : before v.pc = true) : ¬ (v.Settled ∨ v.Leads) := by
  obtain ⟨asked, packets, pc⟩ := v
  cases pc with
  | greet =>
    obtain ⟨rfl, rfl⟩ := h
    rintro ((h | h) | ⟨h | h, -⟩) <;> cases h
  | readConnection =>
    obtain ⟨rfl, g, rfl⟩ := h
    rintro ((h | h) | ⟨h | h, -⟩) <;> cases h
  | joinLock | joinRefuse | joinAck =>
    obtain ⟨rfl, g, rfl⟩ := h
    rintro ((h | h) | ⟨h | h, -⟩) <;> cases h
  | randomLock | randomAck | randomNew =>
    obtain ⟨⟨op, hop, rfl⟩, g, rfl⟩ := h
    rintro ((h | h) | ⟨h | h, -⟩) <;> cases h
    exact hop.1 rfl
  | createEmplace leader =>
    rintro (hs | hl)
    · exact creating_not_settled h hs
    · exact hl.2 leader rfl
  | _ => cases hb

/-- Behind it the frames matter only if it is that of a leader. -/
theorem stands_behind (hb : before v.pc = false)
    (h : free v.pc = false → Creating v.asked v.packets ∨ Created v.asked v.packets) : v.Stands := by
  obtain ⟨asked, packets, pc⟩ := v
  cases pc with
  | createLog | createAck => exact h rfl
  | greet | readConnection | createEmplace | joinLock | joinRefuse | joinAck | randomLock | randomAck
  | randomNew => cases hb
  | _ => trivial

theorem behind_stands (hb : before v.pc = false) (hf : free v.pc = false) (h : v.Stands) :
    Creating v.asked v.packets ∨ Created v.asked v.packets := by
  obtain ⟨asked, packets, pc⟩ := v
  cases pc with
  | createLog | createAck => exact h
  | greet | readConnection | createEmplace | joinLock | joinRefuse | joinAck | randomLock | randomAck
  | randomNew => cases hb
  | _ => cases hf

theorem leads_createLog {h : Hold} (hpc : v.pc = .createLog h) (hs : v.Stands) : v.Leads := by
  refine ⟨behind_stands (by rw [hpc]; rfl) (by rw [hpc]; rfl) hs, fun leader h => ?_⟩
  rw [hpc] at h
  cases h

theorem Settled.first (h : v.Settled) : AckFirst v.asked v.packets := h.elim .created .joined

/-! ### What a connection hears -/

/-- What others write to a connection, or what its thread writes to itself as to one of many. -/
inductive Hears (v : View) : View → Prop where
  | nothing : Hears v v
  | news (more : List Packet) (h : v.Settled) : Hears v { v with packets := v.packets ++ more }
  | created (m : CreateSessionAck) (h : v.Leads) :
    Hears v { v with packets := v.packets ++ [.createSessionAck m] }

theorem Hears.passes (h : Hears v v') : Passes c v v' := by
  cases h with
  | nothing => exact .refl c v
  | news more hs =>
    have hs' : View.Settled { v with packets := v.packets ++ more } :=
      hs.imp (Created.append · more) (Joined.append · more)
    have hcreated (hv : Creating v.asked v.packets ∨ Created v.asked v.packets) :
        Created v.asked (v.packets ++ more) :=
      (hv.resolve_left fun h => creating_not_settled h hs).append more
    refine ⟨fun hv => ⟨Settled.first hs', ?_⟩, fun _ _ => Or.inl hs', fun _ hl =>
      ⟨Or.inr (hcreated hl.1), hl.2⟩⟩
    have hb : before v.pc = false :=
      eq_false_of_ne_true fun hb => before_not hv.stands hb (Or.inl hs)
    exact stands_behind hb fun hf => Or.inr (hcreated (behind_stands hb hf hv.stands))
  | created m hl =>
    have hcreated : Created v.asked (v.packets ++ [.createSessionAck m]) :=
      hl.1.elim (Creating.append · m) (Created.append · _)
    refine ⟨fun hv => ⟨.created hcreated, ?_⟩, fun _ _ => Or.inl (Or.inl hcreated), fun _ hl =>
      ⟨Or.inr hcreated, hl.2⟩⟩
    have hb : before v.pc = false :=
      eq_false_of_ne_true fun hb => before_not hv.stands hb (Or.inr hl)
    exact stands_behind hb fun _ => Or.inr hcreated

/-! ### What its own thread does -/

theorem free_behind {pc : Pc} (h : free pc = true) :
    before pc = false ∧ ∀ leader, pc ≠ .createEmplace leader := by
  cases pc <;> first | exact ⟨rfl, fun _ h => by cases h⟩ | cases h

theorem stands_free (h : free v.pc = true) : v.Stands :=
  stands_behind (free_behind h).1 fun hf => by rw [h] at hf; cases hf

/-- A step before the acknowledgement, or the acknowledgement. -/
theorem passes_before (hb : before v.pc = true) (hfits : v.Fits → v'.Fits)
    (hpending : v.Fits → Pending c v.pc → v'.Seated c) : Passes c v v' where
  fits := hfits
  seated hv hs := hs.elim (fun h => absurd (Or.inl h) (before_not hv.stands hb)) (hpending hv)
  leads hv hl := absurd (Or.inr hl) (before_not hv.stands hb)

/-- The acknowledgement of a join. -/
theorem passes_joined (hb : before v.pc = true) (hfree : free v'.pc = true)
    (hack : v.Stands → Joined v'.asked v'.packets) : Passes c v v' :=
  passes_before hb (fun hv => ⟨.joined (hack hv.stands), stands_free hfree⟩)
    fun hv _ => Or.inl (Or.inr (hack hv.stands))

/-- A step behind the acknowledgement. -/
theorem passes_behind (hasked : v'.asked = v.asked) (hpackets : v'.packets = v.packets)
    (hfree : free v'.pc = true) (hpending : v.Fits → Pending c v.pc → v.Settled) :
    Passes c v v' := by
  refine ⟨fun hv => ⟨?_, stands_free hfree⟩, fun hv hs => ?_, fun hv hl => ?_⟩
  · rw [hasked, hpackets]
    exact hv.first
  · have hsettled : v.Settled := hs.elim id (hpending hv)
    unfold View.Seated View.Settled
    rw [hasked, hpackets]
    exact Or.inl hsettled
  · unfold View.Leads
    rw [hasked, hpackets]
    exact ⟨hl.1, (free_behind hfree).2⟩

section Steps
variable {asked : Option ClientOperation} {packets : List Packet}

theorem passes_greet (m : AckMessage) :
    Passes c ⟨asked, packets, .greet⟩ ⟨asked, packets ++ [.ack m], .readConnection⟩ := by
  refine passes_before rfl (fun hv => ?_) fun _ hp => hp.elim
  obtain ⟨rfl, rfl⟩ : asked = none ∧ packets = [] := hv.stands
  exact ⟨.greeted none m, rfl, m, rfl⟩

theorem passes_asks {op : ClientOperation} {pc' : Pc}
    (h : (∃ leader, op = .createSession ∧ pc' = .createEmplace leader) ∨
      (∃ joiner id, op = .joinSpecificSession ∧ pc' = .joinLock joiner id) ∨
        ∃ joiner, IsRandom op ∧ pc' = .randomLock joiner) :
    Passes c ⟨asked, packets, .readConnection⟩ ⟨some op, packets, pc'⟩ := by
  refine passes_before rfl (fun hv => ?_) fun _ hp => hp.elim
  obtain ⟨-, g, rfl⟩ : asked = none ∧ ∃ g, packets = [.ack g] := hv.stands
  rcases h with ⟨leader, rfl, rfl⟩ | ⟨joiner, id, rfl, rfl⟩ | ⟨joiner, hop, rfl⟩
  · exact ⟨.creating (.asked g), .asked g⟩
  · exact ⟨.greeted _ g, rfl, g, rfl⟩
  · exact ⟨.greeted _ g, ⟨op, hop, rfl⟩, g, rfl⟩

theorem passes_createEmplace (leader : String) (h : Hold) :
    Passes c ⟨asked, packets, .createEmplace leader⟩ ⟨asked, packets, .createLog h⟩ :=
  passes_before rfl (fun hv => ⟨hv.first, Or.inl hv.stands⟩) fun _ hp => hp.elim

theorem passes_createLog (h : Hold) :
    Passes c ⟨asked, packets, .createLog h⟩ ⟨asked, packets, .createAck h⟩ :=
  ⟨fun hv => ⟨hv.first, hv.stands⟩, fun _ hs => hs, fun _ hl => ⟨hl.1, fun _ h => by cases h⟩⟩

theorem passes_joinLock {joiner : String} {id : ℤ} {pc' : Pc}
    (h : (∃ message, pc' = .joinRefuse joiner message) ∨ pc' = .joinAck joiner id) :
    Passes c ⟨asked, packets, .joinLock joiner id⟩ ⟨asked, packets, pc'⟩ := by
  refine passes_before rfl (fun hv => ⟨hv.first, ?_⟩) fun _ hp => hp.elim
  rcases h with ⟨message, rfl⟩ | rfl
  · exact hv.stands
  · exact hv.stands

theorem passes_randomLock {joiner : String} {pc' : Pc}
    (h : pc' = .randomNew joiner ∨ ∃ id uid, pc' = .randomAck joiner id uid) :
    Passes c ⟨asked, packets, .randomLock joiner⟩ ⟨asked, packets, pc'⟩ := by
  refine passes_before rfl (fun hv => ⟨hv.first, ?_⟩) fun _ hp => hp.elim
  rcases h with rfl | ⟨id, uid, rfl⟩
  · exact hv.stands
  · exact hv.stands

/-- Both acknowledgements of `join_session`. -/
theorem passes_joinSessionAck {pc pc' : Pc} (m : JoinSessionAck)
    (hpc : (∃ joiner message, pc = .joinRefuse joiner message) ∨ ∃ player id, pc = .joinAck player id)
    (hfree : free pc' = true) :
    Passes c ⟨asked, packets, pc⟩ ⟨asked, packets ++ [.joinSessionAck m], pc'⟩ := by
  have hack (h : asked = some .joinSpecificSession ∧ ∃ g, packets = [.ack g]) :
      Joined asked (packets ++ [.joinSessionAck m]) := by
    obtain ⟨rfl, g, rfl⟩ := h
    exact .specific g m []
  rcases hpc with ⟨joiner, message, rfl⟩ | ⟨player, id, rfl⟩
  · exact passes_joined rfl hfree hack
  · exact passes_joined rfl hfree hack

theorem passes_randomAck {player : String} {id : ℤ} {uid : ℕ} {pc' : Pc} {m : JoinRandomSessionAck}
    (hm : m.sessionType = some .existingSession) (hfree : free pc' = true) :
    Passes c ⟨asked, packets, .randomAck player id uid⟩
      ⟨asked, packets ++ [.joinRandomSessionAck m], pc'⟩ := by
  refine passes_joined rfl hfree fun h => ?_
  obtain ⟨⟨op, hop, rfl⟩, g, rfl⟩ : (∃ op, IsRandom op ∧ asked = some op) ∧ ∃ g, packets = [.ack g] :=
    h
  exact .random op g m [] hop hm

theorem passes_randomNew {joiner leader : String} {m : JoinRandomSessionAck}
    (hm : m.sessionType = some .newSession) :
    Passes c ⟨asked, packets, .randomNew joiner⟩
      ⟨asked, packets ++ [.joinRandomSessionAck m], .createEmplace leader⟩ := by
  refine passes_before rfl (fun hv => ?_) fun _ hp => hp.elim
  obtain ⟨⟨op, hop, rfl⟩, g, rfl⟩ : (∃ op, IsRandom op ∧ asked = some op) ∧ ∃ g, packets = [.ack g] :=
    hv.stands
  exact ⟨.creating (.random op g m hop hm), .random op g m hop hm⟩

end Steps

/-! ### Waiting for the acknowledgement -/

theorem pending_stands (h : v.Stands) (hp : Pending c v.pc) :
    v.Greeted ∨ Creating v.asked v.packets ∨ Created v.asked v.packets := by
  obtain ⟨asked, packets, pc⟩ := v
  cases pc with
  | joinAck player id => exact Or.inl h.2
  | randomAck player id uid => exact Or.inl h.2
  | createLog k => exact Or.inr h
  | createAck k => exact Or.inr h
  | _ => exact hp.elim

/-- A connection with a seat is settled if it is not waiting. -/
theorem settled_of_seated (h : v.Stands) (hs : v.Seated c)
    (hw : Pending c v.pc → ∃ m, .createSessionAck m ∈ v.packets) : v.Settled := by
  rcases hs with hs | hp
  · exact hs
  obtain ⟨m, hm⟩ := hw hp
  rcases pending_stands h hp with ⟨g, hg⟩ | hc | hc
  · rw [hg] at hm
    simp at hm
  · exact absurd hm (hc.not_mem m)
  · exact Or.inl hc

/-- If it is waiting, news come too early. -/
theorem not_ackFirst_waiting (h : v.Stands) (hp : Pending c v.pc)
    (hw : ∀ m, .createSessionAck m ∉ v.packets) {packet : Packet} (hn : IsNews packet)
    (more : List Packet) : ¬ AckFirst v.asked (v.packets ++ packet :: more) := by
  rcases pending_stands h hp with ⟨g, hg⟩ | hc | hc
  · rw [hg]
    exact not_ackFirst_greeted hn more
  · exact not_ackFirst_creating hc hn more
  · obtain ⟨m, hm⟩ := hc.mem
    exact absurd hm (hw m)

end Views

end HanabiBot.Lobby.Handshake
