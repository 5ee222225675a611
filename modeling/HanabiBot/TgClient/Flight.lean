import HanabiBot.Lib.Lists
import HanabiBot.TgClient.LeaderLink

/-! # Frames in flight

How the two ends of a leader's link stand while some frames are written and not read (`Phase`): no
request is under way, and one subscription may be in the middle of a frame; or a request is not
answered, and nothing is in flight; or the answer is the first frame in flight.

There is one lemma for each thing the server or the client does to the frames. Each says what
becomes of the phase, and a read also which frame it was. -/

namespace HanabiBot.TgClient.Flight

open HanabiBot.Lib.Framing HanabiBot.Lib.Lists HanabiBot.Common.Messages
open HanabiBot.TgClient.LeaderLink

variable {sessionId : ℤ} (pb : Protobuf sessionId)

/-- The server, once it has answered. -/
def Answered (accepted : Bool) (server : ServerPc) : Prop :=
  if accepted then server.started = true else server = .waiting

/-- The client, once it has the answer. -/
def settledPc (accepted : Bool) : ClientPc := if accepted then .inGame else .startCommand

/-- The payloads of frames. -/
def payloads (rest : List (Kind × Bytes)) : List Bytes := rest.map Prod.snd

/-- How the two ends stand while the frames `rest` are written and not read. -/
inductive Phase (client : ClientPc) (server : ServerPc) (requests : ℕ) (held : List Bytes)
    (wire : Bytes) (rest : List (Kind × Bytes)) : Prop where
  /-- No request is under way; one subscription may be in the middle of a frame. -/
  | settled (accepted : Bool) (i : ℕ) (hc : client = settledPc accepted)
      (hs : Answered accepted server) (hr : requests = 0) (hi : ∀ e ∈ rest, e.1 = .info)
      (ho : OnlyAt held i) (hin : Incoming (payloads rest) (held.getD i []) wire)
  /-- A request is not answered, and nothing is in flight. -/
  | asked (hc : client = .readBytes [])
      (hs : requests = 1 ∧ server = .waiting ∨
        requests = 0 ∧ (server = .refusing ∨ server = .accepting))
      (hrest : rest = []) (ho : ∀ b ∈ held, b = []) (hw : wire = [])
  /-- The answer is the first frame in flight. -/
  | answered (accepted : Bool) (buf : Bytes) (infos : List (Kind × Bytes))
      (hc : client = .readBytes buf) (hs : Answered accepted server) (hr : requests = 0)
      (hrest : rest = (.startAck, (pb.serialize accepted).bytes) :: infos)
      (hi : ∀ e ∈ infos, e.1 = .info) (ho : ∀ b ∈ held, b = [])
      (hin : Incoming (payloads rest) buf wire)

section Steps
variable {pb} {client : ClientPc} {server server' : ServerPc} {requests : ℕ} {held : List Bytes}
  {wire : Bytes} {rest : List (Kind × Bytes)}

theorem payloads_write (rest : List (Kind × Bytes)) (kind : Kind) (p : Payload) :
    payloads (rest ++ [(kind, p.bytes)]) = payloads rest ++ [p.bytes] := by
  simp [payloads]

/-- The server writes an `InfoMessage`, with no request to answer. -/
theorem Phase.write (h : Phase pb client server requests held wire rest)
    (hno : ¬ (0 < requests ∨ server = .refusing ∨ server = .accepting)) (p : Payload)
    (hserver : ∀ accepted, Answered accepted server → Answered accepted server') :
    Phase pb client server' requests held (wire ++ frame p.bytes) (rest ++ [(.info, p.bytes)]) := by
  have hinfo : ∀ {l : List (Kind × Bytes)}, (∀ e ∈ l, e.1 = .info) →
      ∀ e ∈ l ++ [(.info, p.bytes)], e.1 = .info := by
    intro l hl e he
    rcases List.mem_append.mp he with he | he
    · exact hl e he
    · rw [List.mem_singleton.mp he]
  cases h with
  | settled accepted i hc hs hr hi ho hin =>
    refine .settled accepted i hc (hserver _ hs) hr (hinfo hi) ho ?_
    rw [payloads_write]
    exact hin.write p.short
  | asked hc hs hrest ho hw =>
    refine absurd ?_ hno
    rcases hs with ⟨rfl, -⟩ | ⟨-, hs⟩
    · exact Or.inl Nat.one_pos
    · exact Or.inr hs
  | answered accepted buf infos hc hs hr hrest hi ho hin =>
    refine .answered accepted buf (infos ++ [(.info, p.bytes)]) hc (hserver _ hs) hr ?_ (hinfo hi)
      ho ?_
    · rw [hrest, List.cons_append]
    · rw [payloads_write]
      exact hin.write p.short

theorem Answered.not_asked {accepted : Bool} (h : Answered accepted server) :
    server ≠ .refusing ∧ server ≠ .accepting := by
  unfold Answered at h
  constructor <;>
  · rintro rfl
    cases accepted <;> simp [ServerPc.started] at h

theorem Answered.started {accepted : Bool} (hst : server.started = true)
    (hst' : server'.started = true) (h : Answered accepted server) : Answered accepted server' := by
  cases accepted with
  | true => exact hst'
  | false =>
    have hw : server = .waiting := h
    rw [hw] at hst
    cases hst

/-- The server answers. -/
theorem Phase.answer (h : Phase pb client server requests held wire rest) (accepted : Bool)
    (hserver : server = if accepted then .accepting else .refusing)
    (hserver' : Answered accepted server') :
    Phase pb client server' requests held (wire ++ frame (pb.serialize accepted).bytes)
      (rest ++ [(.startAck, (pb.serialize accepted).bytes)]) := by
  have hne : ∀ {b}, Answered b server → False := by
    intro b hb
    have := hb.not_asked
    cases accepted
    · exact this.1 hserver
    · exact this.2 hserver
  cases h with
  | settled b i hc hs hr hi ho hin => exact absurd hs hne
  | answered b buf infos hc hs hr hrest hi ho hin => exact absurd hs hne
  | asked hc hs hrest ho hw =>
    have hr : requests = 0 := by
      rcases hs with ⟨-, hs⟩ | ⟨hr, -⟩
      · rw [hs] at hserver
        cases accepted <;> cases hserver
      · exact hr
    subst hrest
    subst hw
    refine .answered accepted [] [] hc hserver' hr rfl (fun e he => by cases he) ho ?_
    have hin : Incoming [] [] [] := incoming_start fun p hp => by cases hp
    exact hin.write (pb.serialize accepted).short

/-- The server reads a request. -/
theorem Phase.request (h : Phase pb client .waiting requests held wire rest)
    (hpos : 0 < requests) (hserver : server' = .refusing ∨ server' = .accepting) :
    Phase pb client server' (requests - 1) held wire rest := by
  cases h with
  | settled b i hc hs hr hi ho hin => omega
  | answered b buf infos hc hs hr hrest hi ho hin => omega
  | asked hc hs hrest ho hw =>
    refine .asked hc (Or.inr ⟨?_, hserver⟩) hrest ho hw
    rcases hs with ⟨hr, -⟩ | ⟨hr, -⟩ <;> omega

/-- Once the start is acknowledged there is no request to answer. -/
theorem Phase.no_request (h : Phase pb client server requests held wire rest)
    (hst : server.started = true) :
    ¬ (0 < requests ∨ server = .refusing ∨ server = .accepting) := by
  have hserver : server ≠ .refusing ∧ server ≠ .accepting := by
    constructor <;>
    · rintro rfl
      cases hst
  have hr : requests = 0 := by
    cases h with
    | settled accepted i hc hs hr => exact hr
    | answered accepted buf infos hc hs hr => exact hr
    | asked hc hs =>
      rcases hs with ⟨-, rfl⟩ | ⟨hr, -⟩
      · cases hst
      · exact hr
  rintro (h | h | h)
  · omega
  · exact hserver.1 h
  · exact hserver.2 h

/-- The players move into the game. -/
theorem Phase.move (h : Phase pb client server requests held wire rest)
    (hst : server.started = true) (hst' : server'.started = true) :
    Phase pb client server' requests held wire rest := by
  have hserver : ∀ accepted, Answered accepted server → Answered accepted server' :=
    fun _ => .started hst hst'
  cases h with
  | settled accepted i hc hs hr hi ho hin =>
    exact .settled accepted i hc (hserver _ hs) hr hi ho hin
  | answered accepted buf infos hc hs hr hrest hi ho hin =>
    exact .answered accepted buf infos hc (hserver _ hs) hr hrest hi ho hin
  | asked hc hs hrest ho hw =>
    rcases hs with ⟨-, rfl⟩ | ⟨-, rfl | rfl⟩ <;> cases hst

/-- The leader enters `/start`, with nothing left to read. -/
theorem Phase.start (h : Phase pb .startCommand server requests held wire rest)
    (hw : wire = []) (hidle : ∀ b ∈ held, b = []) {held' : List Bytes} (hidle' : ∀ b ∈ held', b = []) :
    Phase pb (.readBytes []) server (requests + 1) held' wire rest := by
  cases h with
  | asked hc => cases hc
  | answered accepted buf infos hc => cases hc
  | settled accepted i hc hs hr hi ho hin =>
    rw [getD_of_idle hidle, hw] at hin
    have hrest : rest = [] := List.map_eq_nil_iff.mp hin.none_left
    cases accepted with
    | true => cases hc
    | false => exact .asked rfl (Or.inl ⟨by rw [hr], hs⟩) hrest hidle' hw

section Reading
variable {i : ℕ} {b : UInt8} {p buf : Bytes}

/-- A subscription takes a byte. -/
theorem Phase.infoByte (h : Phase pb client server requests held (b :: wire) rest)
    (hclient : client = .startCommand ∨ client = .inGame) (ho : OnlyAt held i) (hi : i < held.length)
    (hpart : complete (held.getD i []) = none) :
    Phase pb client server requests (held.set i (held.getD i [] ++ [b])) wire rest := by
  cases h with
  | asked hc => rcases hclient with rfl | rfl <;> cases hc
  | answered accepted buf infos hc => rcases hclient with rfl | rfl <;> cases hc
  | settled accepted k hc hs hr hinfo hk hin =>
    refine .settled accepted i hc hs hr hinfo (ho.set _) ?_
    rw [getD_set hi]
    rw [hk.getD_eq ho] at hin
    exact hin.take hpart

/-- A subscription has read a frame: it is the first in flight, and an `InfoMessage`. -/
theorem Phase.infoMessage (h : Phase pb client server requests held wire rest) (hi : i < held.length)
    (hfull : complete (held.getD i []) = some p) : ∃ rest', rest = (.info, p) :: rest' ∧
      Phase pb client server requests (held.set i []) wire rest' := by
  have hbytes : held.getD i [] ≠ [] := by
    intro hnil
    rw [hnil] at hfull
    cases hfull
  cases h with
  | asked hc hs hrest ho => exact absurd (getD_of_idle ho i) hbytes
  | answered accepted buf infos hc hs hr hrest hinfo ho => exact absurd (getD_of_idle ho i) hbytes
  | settled accepted k hc hs hr hinfo hk hin =>
    have hik : i = k := by
      by_contra hne
      exact hbytes (hk.getD_ne hne)
    subst hik
    obtain ⟨ps, hps, -, hin'⟩ := hin.read hfull
    cases rest with
    | nil => cases hps
    | cons e rest =>
      obtain ⟨rfl, rfl⟩ := List.cons.inj hps
      have he : e.1 = .info := hinfo e List.mem_cons_self
      refine ⟨rest, by rw [← he], .settled accepted i hc hs hr ?_ (hk.set _) ?_⟩
      · exact fun e he => hinfo e (List.mem_cons_of_mem _ he)
      · rw [getD_set hi]
        exact hin'

/-- `readBytes` takes a byte. -/
theorem Phase.ackByte (h : Phase pb (.readBytes buf) server requests held (b :: wire) rest)
    (hpart : complete buf = none) :
    Phase pb (.readBytes (buf ++ [b])) server requests held wire rest := by
  cases h with
  | asked hc hs hrest ho hw => cases hw
  | settled accepted i hc => cases accepted <;> cases hc
  | answered accepted buf' infos hc hs hr hrest hi ho hin =>
    cases hc
    exact .answered accepted _ infos rfl hs hr hrest hi ho (hin.take hpart)

/-- `readBytes` has read a frame: it is the first in flight, and the answer. -/
theorem Phase.ack (h : Phase pb (.readBytes buf) server requests held wire rest)
    (hfull : complete buf = some p) : ∃ accepted rest', rest = (.startAck, p) :: rest' ∧
      p = (pb.serialize accepted).bytes ∧
        Phase pb (settledPc accepted) server requests (held ++ [[]]) wire rest' := by
  cases h with
  | settled accepted i hc => cases accepted <;> cases hc
  | asked hc hs hrest ho hw =>
    cases hc
    cases hfull
  | answered accepted buf' infos hc hs hr hrest hi ho hin =>
    cases hc
    subst hrest
    obtain ⟨ps, hps, -, hin'⟩ := hin.read hfull
    obtain ⟨rfl, rfl⟩ := List.cons.inj hps
    have hidle : ∀ b ∈ held ++ [[]], b = [] := by
      intro b hb
      rcases List.mem_append.mp hb with hb | hb
      · exact ho b hb
      · exact List.mem_singleton.mp hb
    refine ⟨accepted, infos, rfl, rfl, .settled accepted 0 rfl hs hr hi (onlyAt_of_idle hidle 0) ?_⟩
    rw [getD_of_idle hidle]
    exact hin'

end Reading

end Steps

end HanabiBot.TgClient.Flight
