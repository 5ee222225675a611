import HanabiBot.Lib.Lists
import HanabiBot.Lobby.Acks
import HanabiBot.Lobby.Answers
import HanabiBot.TgClient.Conversation

/-! # What client and server agree on

A run of the server and a run of one of its clients, joined by the wire between them: the request
that the server reads from the connection is one the client has sent, and the frames the client has
read are the first of those written to the connection (`Linked`).

The client knows its session by an id. In a run of the server in which no news reach a waiting
connection it is the id of the session in which the server has given it a seat, and a client that
takes itself for a leader is one (`agreement`). -/

namespace HanabiBot.TgClient.Agreement

open HanabiBot.Lib.Runs HanabiBot.Lib.Lists HanabiBot.Common.Messages
open HanabiBot.Lobby HanabiBot.Lobby.Sessions HanabiBot.Lobby.Handshake HanabiBot.Lobby.Writes
open HanabiBot.Lobby.Views HanabiBot.Lobby.Acks HanabiBot.Lobby.Answers
open HanabiBot.TgClient.Tasks (Event)
open HanabiBot.TgClient.Entry HanabiBot.TgClient.Conversation
open HanabiBot.TgClient.Coroutines (joinRandomSession createSession)

/-! ### The frames that are read -/

section Frames
variable {q : Entry.Parsers} {operation : ClientOperation} {garbage : ℤ}

/-- The frame of a `readBytes`. -/
def frameOf : Event (program q operation garbage) → Option Bytes
  | .out (.readBytes frame) => some frame
  | _ => none

/-- The frames the client has read. -/
def heard (log : List (Event (program q operation garbage))) : List Bytes := log.filterMap frameOf

/-- What a phase says about the frames that have been read. -/
def Told (q : Entry.Parsers) (operation : ClientOperation) (frames : List Bytes) : Phase → Prop
  | .unconnected | .connected => frames = []
  | .greeted | .asked => ∃ greeting, frames = [greeting]
  | .creating => operation = .joinRandomSession ∧ ∃ greeting frame, frames = [greeting, frame] ∧
      joinRandomSession (q.joinRandomSessionAck frame) = none
  | .joined id => ∃ greeting frame, frames = [greeting, frame] ∧
      (operation = .joinRandomSession ∧ joinRandomSession (q.joinRandomSessionAck frame) = some id ∨
        operation = .joinSpecificSession ∧ joinSpecificSession (q.joinSessionAck frame) = some id)
  | .leading id =>
      (operation = .createSession ∧ ∃ greeting frame, frames = [greeting, frame] ∧
        createSession (q.createSessionAck frame) = some id) ∨
      (operation = .joinRandomSession ∧ ∃ greeting frame frame', frames = [greeting, frame, frame'] ∧
        joinRandomSession (q.joinRandomSessionAck frame) = none ∧
          createSession (q.createSessionAck frame') = some id)
  | _ => True

variable {phase phase' : Phase} {frames : List Bytes}

/-- A frame more. -/
theorem told_hears (h : Told q operation frames phase) {frame : Bytes}
    (hs : hears q operation frame phase = some phase') :
    Told q operation (frames ++ [frame]) phase' := by
  cases phase with
  | connected =>
    cases hs
    obtain rfl : frames = [] := h
    split_ifs
    · exact ⟨frame, rfl⟩
    · trivial
  | asked =>
    obtain ⟨greeting, rfl⟩ : ∃ greeting, frames = [greeting] := h
    cases operation with
    | joinRandomSession =>
      cases hs
      cases hack : joinRandomSession (q.joinRandomSessionAck frame) with
      | none => exact ⟨rfl, greeting, frame, rfl, hack⟩
      | some id => exact ⟨greeting, frame, rfl, Or.inl ⟨rfl, hack⟩⟩
    | joinSpecificSession =>
      cases hs
      cases hack : joinSpecificSession (q.joinSessionAck frame) with
      | none => trivial
      | some id => exact ⟨greeting, frame, rfl, Or.inr ⟨rfl, hack⟩⟩
    | createSession =>
      cases hs
      cases hack : createSession (q.createSessionAck frame) with
      | none => trivial
      | some id => exact Or.inl ⟨rfl, greeting, frame, rfl, hack⟩
    | unspecified => cases hs
  | creating =>
    obtain ⟨hop, greeting, frame', rfl, hnone⟩ := h
    cases hs
    cases hack : createSession (q.createSessionAck frame) with
    | none => trivial
    | some id => exact Or.inr ⟨hop, greeting, frame', frame, rfl, hnone, hack⟩
  | starting id =>
    cases hs
    trivial
  | _ => cases hs

/-- **A step of the protocol keeps what a phase says.** -/
theorem told_protocol {e : Event (program q operation garbage)} (h : Told q operation frames phase)
    (hs : protocol q operation phase e = some phase') :
    Told q operation (frames ++ (frameOf e).toList) phase' := by
  have hquiet (htold : Told q operation frames phase') :
      Told q operation (frames ++ []) phase' := by rwa [List.append_nil]
  cases e with
  | took text =>
    refine hquiet ?_
    cases phase with
    | greeted =>
      cases hs
      exact h
    | waiting id =>
      cases hs
      split_ifs <;> trivial
    | _ => cases hs
  | out out =>
    simp only [protocol] at hs
    unfold does at hs
    split at hs
    · cases hs
      exact hquiet h
    · cases hs
      exact hquiet h
    · exact told_hears h hs
    · split_ifs at hs
      cases hs
      exact hquiet h
    · refine hquiet ?_
      unfold subscribes at hs
      split at hs <;> cases hs <;> trivial
    · cases hs
      exact hquiet trivial
    · cases hs
      exact hquiet trivial
    · cases hs
      refine hquiet ?_
      cases phase with
      | greeted => exact h
      | _ => trivial
    · split_ifs at hs
      cases hs
      exact hquiet h
    · cases hs

theorem told_reach {log : List (Event (program q operation garbage))}
    (hr : reach (protocol q operation) .unconnected log = some phase) :
    Told q operation (heard log) phase := by
  induction log using List.reverseRecOn generalizing phase with
  | nil =>
    cases hr
    rfl
  | append_singleton log e ih =>
    rw [reach_concat] at hr
    obtain ⟨phase1, hr1, hs⟩ := Option.bind_eq_some_iff.mp hr
    have hone : [e].filterMap frameOf = (frameOf e).toList := by
      cases he : frameOf e <;> simp [he]
    rw [heard, List.filterMap_append, hone]
    exact told_protocol (ih hr1) hs

/-- What the client sends is a request for its operation. -/
theorem newConnection_operation {log : List (Event (program q operation garbage))}
    (hr : reach (protocol q operation) .unconnected log = some phase) {m : NewConnection}
    (hm : .out (.newConnection m) ∈ log) : m.getOperation = operation := by
  obtain ⟨pre, post, rfl⟩ := List.append_of_mem hm
  rw [reach_append] at hr
  obtain ⟨phase1, -, hr⟩ := Option.bind_eq_some_iff.mp hr
  rw [reach] at hr
  cases hs : protocol q operation phase1 (.out (.newConnection m)) with
  | none =>
    rw [hs] at hr
    cases hr
  | some phase2 =>
    cases phase1 with
    | greeted =>
      simp only [protocol, does] at hs
      split_ifs at hs with hcond
      rw [NewConnection.getOperation, hcond.1]
      rfl
    | _ => cases hs

end Frames

/-! ### The server -/

section Server
variable {p : Machine.Parsers} {run : List Machine.Label} {w : Watched} {c : Conn}

theorem watched_sys (hw : reach (Watched.step p) .init run = some w) :
    reach (Machine.step p) Machine.init run = some w.sys := by
  refine reach_map (f := Watched.sys) (fun w l w' hs => ?_) hw
  obtain ⟨s', hs', rfl⟩ := Option.map_eq_some_iff.mp hs
  exact hs'

/-- What is asked for is read. -/
theorem asks_reads {l : Machine.Label} {op : ClientOperation} (h : w.asks p l c = some op) :
    w.asked c = some op ∨ ∃ m, Reads p c m w.sys l ∧ m.getOperation = op := by
  unfold Watched.asks at h
  by_cases hc : c = l.thread
  · subst hc
    rw [Function.update_self, Option.or_eq_some_iff] at h
    rcases h with h | ⟨-, h⟩
    · unfold request at h
      split at h
      · next hpc =>
        obtain ⟨m, hm, hop⟩ := Option.map_eq_some_iff.mp h
        exact Or.inr ⟨m, ⟨rfl, hpc, hm⟩, hop⟩
      · cases h
    · exact Or.inl h
  · rw [Function.update_of_ne hc] at h
    exact Or.inl h

/-- What has been asked for has been requested. -/
theorem asked_requested (hw : reach (Watched.step p) .init run = some w) {op : ClientOperation}
    (hop : w.asked c = some op) : ∃ m, Requested p c m run ∧ m.getOperation = op := by
  have hread : Sometime (Watched.step p) (fun _ w l => ∃ m, Reads p c m w.sys l ∧
      m.getOperation = op) .init run := by
    refine sometime_of_acquired (P := fun w => w.asked c = some op) (fun h => ?_)
      (fun _ w1 l w2 _ hs hasked => ?_) hw hop
    · cases h
    · obtain ⟨s', -, rfl⟩ := Option.map_eq_some_iff.mp hs
      exact asks_reads hasked
  obtain ⟨before, l, after, w1, rfl, hw1, m, hreads, hop⟩ := hread
  exact ⟨m, ⟨before, l, after, w1.sys, rfl, watched_sys hw1, hreads⟩, hop⟩

end Server

/-! ### Both of them -/

/-- The client reads a packet as the server has written it. -/
def ReadsBack (q : Entry.Parsers) (serialize : Packet → Bytes) : Packet → Prop
  | .ack m => q.ack (serialize (.ack m)) = m
  | .createSessionAck m => q.createSessionAck (serialize (.createSessionAck m)) = m
  | .joinSessionAck m => q.joinSessionAck (serialize (.joinSessionAck m)) = m
  | .joinRandomSessionAck m => q.joinRandomSessionAck (serialize (.joinRandomSessionAck m)) = m
  | _ => True

section Agreement
variable {p : Machine.Parsers} {q : Entry.Parsers} {operation : ClientOperation} {garbage : ℤ}

/-- The wire between a connection of the server and the client. -/
structure Linked (p : Machine.Parsers) (serialize : Packet → Bytes) (c : Conn)
    (run : List Machine.Label) (w : Watched) (log : List (Event (program q operation garbage))) :
    Prop where
  requests : ∀ m, Requested p c m run → .out (.newConnection m) ∈ log
  frames : heard log <+: (got w.sys.sent c).map serialize
  reads : ∀ packet ∈ got w.sys.sent c, ReadsBack q serialize packet

section Answers
variable {serialize : Packet → Bytes} {g packet packet' : Packet} {more : List Packet}
  {asked : Option ClientOperation} {id : ℤ}

theorem createSession_some {m : CreateSessionAck} (h : createSession m = some id) :
    m.sessionId.getD 0 = id := by
  unfold createSession at h
  split_ifs at h
  exact Option.some.inj h

theorem joinSpecificSession_some {m : JoinSessionAck} (h : joinSpecificSession m = some id) :
    m.status = some .succeed ∧ m.sessionId.getD 0 = id := by
  unfold joinSpecificSession at h
  split_ifs at h with hstatus
  refine ⟨?_, Option.some.inj h⟩
  cases hm : m.status with
  | none =>
    rw [hm] at hstatus
    cases hstatus
  | some status =>
    rw [hm] at hstatus
    exact congrArg some hstatus

/-- An acknowledgement of a random join is taken as it is meant. -/
theorem joinRandomSession_of {m : JoinRandomSessionAck} :
    (m.sessionType = some .newSession → joinRandomSession m = none) ∧
      (m.sessionType = some .existingSession → joinRandomSession m = some (m.sessionId.getD 0)) := by
  unfold joinRandomSession
  constructor
  · intro h
    rw [h]
    rfl
  · intro h
    rw [h]
    rfl

/-- A client that takes itself for joined has been told so. -/
theorem joined_answer (h : AckFirst asked (g :: packet :: more))
    (hasked : ∀ op, asked = some op → op = operation) (hreads : ReadsBack q serialize packet)
    (htold : operation = .joinRandomSession ∧
        joinRandomSession (q.joinRandomSessionAck (serialize packet)) = some id ∨
      operation = .joinSpecificSession ∧
        joinSpecificSession (q.joinSessionAck (serialize packet)) = some id) :
    (∃ m, packet = .joinSessionAck m ∧ m.status = some .succeed ∧ m.sessionId.getD 0 = id) ∨
      ∃ m, packet = .joinRandomSessionAck m ∧ m.sessionType = some .existingSession ∧
        m.sessionId.getD 0 = id := by
  have hnew {m : JoinRandomSessionAck} (hop : IsRandom operation)
      (hm : m.sessionType = some .newSession)
      (hback : q.joinRandomSessionAck (serialize (.joinRandomSessionAck m)) = m)
      (htold : operation = .joinRandomSession ∧
          joinRandomSession (q.joinRandomSessionAck (serialize (.joinRandomSessionAck m))) = some id ∨
        operation = .joinSpecificSession ∧ joinSpecificSession
          (q.joinSessionAck (serialize (.joinRandomSessionAck m))) = some id) : False := by
    rcases htold with ⟨-, hack⟩ | ⟨hspecific, -⟩
    · rw [hback, joinRandomSession_of.1 hm] at hack
      cases hack
    · exact hop.2 hspecific
  cases h with
  | creating h =>
    cases h with
    | random op g m hop hm => exact (hnew (hasked op rfl ▸ hop) hm hreads htold).elim
  | created h =>
    cases h with
    | asked g m more =>
      obtain rfl := hasked _ rfl
      rcases htold with ⟨hop, -⟩ | ⟨hop, -⟩ <;> cases hop
    | random op g m m' more hop hm => exact (hnew (hasked op rfl ▸ hop) hm hreads htold).elim
  | joined h =>
    cases h with
    | specific g m more =>
      obtain rfl := hasked _ rfl
      rcases htold with ⟨hop, -⟩ | ⟨-, hack⟩
      · cases hop
      · have hback : q.joinSessionAck (serialize (.joinSessionAck m)) = m := hreads
        rw [hback] at hack
        exact Or.inl ⟨m, rfl, joinSpecificSession_some hack⟩
    | random op g m more hop hm =>
      rcases htold with ⟨-, hack⟩ | ⟨hspecific, -⟩
      · have hback : q.joinRandomSessionAck (serialize (.joinRandomSessionAck m)) = m := hreads
        rw [hback, joinRandomSession_of.2 hm] at hack
        exact Or.inr ⟨m, rfl, hm, Option.some.inj hack⟩
      · exact ((hasked op rfl ▸ hop).2 hspecific).elim

/-- A client that takes itself for the leader has been told so. -/
theorem leading_answer (h : AckFirst asked (g :: packet :: more))
    (hasked : ∀ op, asked = some op → op = operation) (hreads : ReadsBack q serialize packet)
    (hop : operation = .createSession)
    (htold : createSession (q.createSessionAck (serialize packet)) = some id) :
    ∃ m, packet = .createSessionAck m ∧ m.sessionId.getD 0 = id := by
  subst hop
  have hrandom {op : ClientOperation} (hasked : op = .createSession) (hop : IsRandom op) : False :=
    hop.1 hasked
  cases h with
  | creating h =>
    cases h with
    | random op g m hop hm => exact (hrandom (hasked op rfl) hop).elim
  | created h =>
    cases h with
    | asked g m more =>
      have hback : q.createSessionAck (serialize (.createSessionAck m)) = m := hreads
      rw [hback] at htold
      exact ⟨m, rfl, createSession_some htold⟩
    | random op g m m' more hop hm => exact (hrandom (hasked op rfl) hop).elim
  | joined h =>
    cases h with
    | specific g m more => cases hasked _ rfl
    | random op g m more hop hm => exact (hrandom (hasked op rfl) hop).elim

/-- So has one that has made a session because there was none to join. -/
theorem random_answer (h : AckFirst asked (g :: packet :: packet' :: more))
    (hasked : ∀ op, asked = some op → op = operation) (hreads : ReadsBack q serialize packet)
    (hreads' : ReadsBack q serialize packet') (hop : operation = .joinRandomSession)
    (hnone : joinRandomSession (q.joinRandomSessionAck (serialize packet)) = none)
    (htold : createSession (q.createSessionAck (serialize packet')) = some id) :
    ∃ m, packet' = .createSessionAck m ∧ m.sessionId.getD 0 = id := by
  subst hop
  cases h with
  | creating h => cases h
  | created h =>
    cases h with
    | asked g m more => cases hasked _ rfl
    | random op g m m' more hop hm =>
      have hback : q.createSessionAck (serialize (.createSessionAck m')) = m' := hreads'
      rw [hback] at htold
      exact ⟨m', rfl, createSession_some htold⟩
  | joined h =>
    cases h with
    | specific g m more => cases hasked _ rfl
    | random op g m more hop hm =>
      have hback : q.joinRandomSessionAck (serialize (.joinRandomSessionAck m)) = m := hreads
      rw [hback, joinRandomSession_of.2 hm] at hnone
      cases hnone

end Answers

section Linked
variable {run : List Machine.Label} {w : Watched} {serialize : Packet → Bytes} {c : Conn} {id : ℤ}
  {log : List (Event (program q operation garbage))} {phase : Phase}
  (hw : reach (Watched.step p) .init run = some w)
  (hquiet : Along (Watched.step p) (fun w l => Undisturbed w.sys l) .init run)
  (hlink : Linked p serialize c run w log)

section
include hw hlink

/-- What the server has been asked for is what the client wants. -/
theorem linked_asked (hphase : reach (protocol q operation) .unconnected log = some phase)
    (op : ClientOperation) (hop : w.asked c = some op) : op = operation := by
  obtain ⟨m, hm, rfl⟩ := asked_requested hw hop
  exact newConnection_operation hphase (hlink.requests m hm)

end

section
include hw hquiet

theorem linked_first (c : Conn) : AckFirst (w.asked c) (got w.sys.sent c) := by
  have horderly : Orderly w := inv_reach_along (fun w l w' hI hC hs => by
    obtain ⟨s', hs', rfl⟩ := Option.map_eq_some_iff.mp hs
    exact orderly_step hI hC hs') orderly_init hquiet hw
  exact (horderly.fits c).first

end

section
include hw hquiet hlink

/-- A client that has joined has a seat. -/
theorem joined_seat (hphase : reach (protocol q operation) .unconnected log = some (.joined id)) :
    ∃ m, .out (.newConnection m) ∈ log ∧
      Sometime (Machine.step p) (fun _ s l => Joins p c id m.getName s l) Machine.init run := by
  obtain ⟨greeting, frame, hheard, hanswer⟩ := told_reach hphase
  have hframes := hlink.frames
  rw [hheard] at hframes
  obtain ⟨g, tail, hgot, rfl, htail⟩ := cons_prefix_map hframes
  obtain ⟨packet, more, rfl, rfl, -⟩ := cons_prefix_map htail
  have hmem : packet ∈ got w.sys.sent c := by rw [hgot]; simp
  have hfirst := linked_first hw hquiet c
  rw [hgot] at hfirst
  rcases joined_answer hfirst (linked_asked hw hlink hphase) (hlink.reads packet hmem) hanswer with
    ⟨m, rfl, hstatus, hid⟩ | ⟨m, rfl, htype, hid⟩
  · have hj : IsJoinAnswer (.joinSessionAck m) := trivial
    obtain ⟨before, l, after, s, rfl, hr, hdecides⟩ := decided (watched_sys hw) hj (mem_got.mp hmem)
    obtain ⟨r, hrequested, hid', hjoins⟩ := joins_of_specific hdecides hstatus
    rw [hid'] at hid
    obtain rfl : r.getSessionId = id := hid
    exact ⟨r, hlink.requests r (hrequested.append _), before, l, after, s, rfl, hr, hjoins⟩
  · have hj : IsJoinAnswer (.joinRandomSessionAck m) := trivial
    obtain ⟨before, l, after, s, rfl, hr, hdecides⟩ := decided (watched_sys hw) hj (mem_got.mp hmem)
    obtain ⟨r, id', hrequested, hid', hjoins⟩ := joins_of_random hdecides htype
    rw [hid'] at hid
    obtain rfl : id' = id := hid
    exact ⟨r, hlink.requests r (hrequested.append _), before, l, after, s, rfl, hr, hjoins⟩

/-- A client that leads has been told of a new session. -/
theorem leading_told (hphase : reach (protocol q operation) .unconnected log = some (.leading id)) :
    ∃ m, .createSessionAck m ∈ got w.sys.sent c ∧ m.sessionId.getD 0 = id := by
  have hframes := hlink.frames
  have hfirst := linked_first hw hquiet c
  have hasked := linked_asked hw hlink hphase
  rcases told_reach hphase with ⟨hop, greeting, frame, hheard, hack⟩ |
    ⟨hop, greeting, frame, frame', hheard, hnone, hack⟩
  · rw [hheard] at hframes
    obtain ⟨g, tail, hgot, rfl, htail⟩ := cons_prefix_map hframes
    obtain ⟨packet, more, rfl, rfl, -⟩ := cons_prefix_map htail
    have hmem : packet ∈ got w.sys.sent c := by rw [hgot]; simp
    rw [hgot] at hfirst
    obtain ⟨m, rfl, hid⟩ := leading_answer hfirst hasked (hlink.reads packet hmem) hop hack
    exact ⟨m, hmem, hid⟩
  · rw [hheard] at hframes
    obtain ⟨g, tail, hgot, rfl, htail⟩ := cons_prefix_map hframes
    obtain ⟨packet, tail', rfl, rfl, htail'⟩ := cons_prefix_map htail
    obtain ⟨packet', more, rfl, rfl, -⟩ := cons_prefix_map htail'
    have hmem : packet ∈ got w.sys.sent c := by rw [hgot]; simp
    have hmem' : packet' ∈ got w.sys.sent c := by rw [hgot]; simp
    rw [hgot] at hfirst
    obtain ⟨m, rfl, hid⟩ := random_answer hfirst hasked (hlink.reads packet hmem)
      (hlink.reads packet' hmem') hop hnone hack
    exact ⟨m, hmem', hid⟩

/-- So the server has opened one for it. -/
theorem leading_opened (hphase : reach (protocol q operation) .unconnected log = some (.leading id)) :
    Sometime (Machine.step p) (fun _ s l => Opens p c id s l) Machine.init run := by
  obtain ⟨m, hmem, hid⟩ := leading_told hw hquiet hlink hphase
  obtain ⟨id', hid', hopens⟩ := opened (watched_sys hw) (mem_got.mp hmem)
  rw [hid'] at hid
  obtain rfl : id' = id := hid
  exact hopens

end

end Linked

/-- **Client and server agree**: the session the client is in is one in which the server has given it
a seat, under the name it has sent; and the session it leads is one that the server has opened for
it. -/
theorem agreement (hop : operation ≠ .unspecified) {run : List Machine.Label} {w : Watched}
    (hw : reach (Watched.step p) .init run = some w)
    (hquiet : Along (Watched.step p) (fun w l => Undisturbed w.sys l) .init run)
    {ls : List (Tasks.Label (program q operation garbage))}
    {s : Tasks.State (program q operation garbage)}
    (hs : reach Tasks.step (start q operation garbage) ls = some s)
    {serialize : Packet → Bytes} {c : Conn} (hlink : Linked p serialize c run w s.log) :
    ∃ phase, reach (protocol q operation) .unconnected s.log = some phase ∧
      (∀ id, phase = .joined id → ∃ m, .out (.newConnection m) ∈ s.log ∧
        Sometime (Machine.step p) (fun _ s l => Joins p c id m.getName s l) Machine.init run) ∧
      ∀ id, phase = .leading id →
        Sometime (Machine.step p) (fun _ s l => Opens p c id s l) Machine.init run := by
  obtain ⟨phase, hphase⟩ := reach_protocol hop hs
  refine ⟨phase, hphase, ?_, ?_⟩
  · rintro id rfl
    exact joined_seat hw hquiet hlink hphase
  · rintro id rfl
    exact leading_opened hw hquiet hlink hphase

end Agreement

/-! A client that joins session 0, which another one leads. -/

/-- The parsers of the server, of requests with the name. -/
def namedParsers : Machine.Parsers where
  connection b := (Machine.parseConnection b).map fun m => { m with name := some nameStr }
  response _ := ⟨none⟩

def welcomeAck : AckMessage := ⟨some .succeed, some "Welcome to the server!"⟩
def joinedAck : JoinSessionAck := ⟨some .succeed, some "Successfully joined session!", some 0⟩

/-- The two frames that the client reads, ... -/
def serializeJoin (packet : Packet) : Bytes :=
  if packet = .ack welcomeAck then [1] else if packet = .joinSessionAck joinedAck then [2] else []

/-- ... and its parsers of them. -/
def joinParsers : Entry.Parsers where
  ack frame := if frame = [1] then welcomeAck else ⟨none, none⟩
  joinRandomSessionAck _ := ⟨none, none, none⟩
  joinSessionAck frame := if frame = [2] then joinedAck else ⟨none, none, none⟩
  createSessionAck _ := ⟨none, none, none⟩

def serverJoin : List Machine.Label := List.flatten
  [Machine.entering 0 [16, 1], Machine.steps 0 3, Machine.entering 1 [16, 2, 24, 0],
    Machine.steps 1 2]

def clientJoin : List (Tasks.Label (program joinParsers .joinSpecificSession 0)) :=
  .start :: .run (some []) :: .run (some [1]) :: List.replicate 2 (.run (some [])) ++
    .pushMessage "/start" :: List.replicate 7 (.run (some [])) ++
    .pushMessage "0" :: List.replicate 4 (.run (some [])) ++ [.run (some [2]), .run (some [])]

theorem serverJoin_runs : (reach (Watched.step namedParsers) .init serverJoin).isSome = true := by
  decide +kernel

theorem clientJoin_runs :
    (reach Tasks.step (start joinParsers .joinSpecificSession 0) clientJoin).isSome = true := by
  decide +kernel

theorem serverJoin_quiet :
    Along (Watched.step namedParsers) (fun w l => Undisturbed w.sys l) .init serverJoin := by
  have hsilent : Along (Watched.step namedParsers) (fun w l => reached w.sys l = []) .init
      serverJoin := by decide +kernel
  refine along_of_inv (I := fun _ => True) (fun _ _ _ _ _ _ => trivial) (fun w l _ hnone _ c hc => ?_)
    trivial hsilent
  rw [hnone] at hc
  cases hc

theorem serverJoin_requests {m : NewConnection} (h : Requested namedParsers 1 m serverJoin) :
    m = ⟨some nameStr, some .joinSpecificSession, some 0⟩ := by
  obtain ⟨before, l, after, s, hrun, -, hthread, -, hm⟩ := h
  have hmem : l ∈ serverJoin := by rw [hrun]; simp
  have hall : ∀ l ∈ serverJoin, l.thread = 1 → ∀ m ∈ l.received.bind namedParsers.connection,
      m = ⟨some nameStr, some .joinSpecificSession, some 0⟩ := by decide +kernel
  exact hall l hmem hthread m hm

theorem agreement_join : ∃ name, Sometime (Machine.step namedParsers)
    (fun _ s l => Joins namedParsers 1 0 name s l) Machine.init serverJoin := by
  have hgot : got ((reach (Watched.step namedParsers) .init serverJoin).get
      serverJoin_runs).sys.sent 1 = [.ack welcomeAck, .joinSessionAck joinedAck] := by decide +kernel
  have hlink : Linked namedParsers serializeJoin 1 serverJoin
      ((reach (Watched.step namedParsers) .init serverJoin).get serverJoin_runs)
      ((reach Tasks.step (start joinParsers .joinSpecificSession 0) clientJoin).get
        clientJoin_runs).log := by
    refine ⟨fun m hm => ?_, ?_, ?_⟩
    · rw [serverJoin_requests hm]
      exact mem_of_any (by decide +kernel)
    · rw [hgot]
      decide +kernel
    · rw [hgot]
      intro packet hp
      rcases List.mem_pair.mp hp with rfl | rfl <;> rfl
  obtain ⟨phase, hphase, hjoined, -⟩ := agreement (by decide) (Option.some_get serverJoin_runs).symm
    serverJoin_quiet (Option.some_get clientJoin_runs).symm hlink
  have hzero : reach (protocol joinParsers .joinSpecificSession) .unconnected
      ((reach Tasks.step (start joinParsers .joinSpecificSession 0) clientJoin).get
        clientJoin_runs).log = some (.joined 0) := by decide +kernel
  obtain ⟨m, -, hseat⟩ := hjoined 0 (Option.some.inj (hphase.symm.trans hzero))
  exact ⟨m.getName, hseat⟩

end HanabiBot.TgClient.Agreement
