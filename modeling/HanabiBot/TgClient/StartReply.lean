import HanabiBot.Lib.Runs
import HanabiBot.TgClient.Flight

/-! # The reply to a start

`leaderTask` takes the next frame of the stream for the answer to its request. It is, if `/start`
finds the client with nothing left to read and no join notice gets in before the answer
(`Orderly`): then all frames are read in order and by the right reader, and the two ends agree on
whether the game has started (`agrees_of_orderly`).

The invariant is that the frames written are those read and those in flight (`Synced`). -/

namespace HanabiBot.TgClient.StartReply

open HanabiBot.Lib.Runs HanabiBot.Lib.Framing HanabiBot.Lib.Lists HanabiBot.Common.Messages
open HanabiBot.TgClient.LeaderLink HanabiBot.TgClient.Flight

/-! ### What should hold, and when -/

/-- The frames that are written and not read, as far as they are not lost: what the readers hold of
them, and the stream. -/
def unread (s : Link) : Bytes := s.readers.flatMap Reader.bytes ++ s.client.bytes ++ s.wire

/-- The frames are read once and in order, each by the reader it is for, and what is not read is
still there; the two ends agree on the start when no request is under way. -/
structure Agrees (s : Link) : Prop where
  frames : ∃ rest, s.sent = s.consumed ++ rest ∧ unread s = rest.flatMap fun e => frame e.2
  started : (∀ buf, s.client ≠ .readBytes buf) → (s.client = .inGame ↔ s.server.started = true)

/-- A request is not answered. -/
def Unanswered (s : Link) : Prop :=
  0 < s.requests ∨ s.server = .refusing ∨ s.server = .accepting

instance (s : Link) : Decidable (Unanswered s) :=
  inferInstanceAs (Decidable (0 < s.requests ∨ s.server = .refusing ∨ s.server = .accepting))

/-- What the subscriptions hold. -/
def held (s : Link) : List Bytes := s.readers.map Reader.bytes

/-- `/start` finds everything read that was written; no notice is written before a request is
answered; and a subscription takes a byte only if `readBytes` does not wait for the answer, and no
other subscription is in the middle of a frame. -/
def Orderly (s : Link) : Label → Prop
  | .start => s.wire = [] ∧ ∀ b ∈ held s, b = []
  | .notify _ => ¬ Unanswered s
  | .infoByte i => (s.client = .startCommand ∨ s.client = .inGame) ∧ OnlyAt (held s) i
  | _ => True

instance (s : Link) : ∀ l, Decidable (Orderly s l)
  | .start => inferInstanceAs (Decidable (s.wire = [] ∧ ∀ b ∈ held s, b = []))
  | .notify _ => inferInstanceAs (Decidable (¬ Unanswered s))
  | .infoByte i => inferInstanceAs
      (Decidable ((s.client = .startCommand ∨ s.client = .inGame) ∧ OnlyAt (held s) i))
  | .join | .request | .answer | .broadcast _ | .move | .play _ | .infoMessage _ | .subscribe _
  | .ackByte | .ack => isTrue trivial

/-! ### The invariant -/

variable {sessionId : ℤ} (pb : Protobuf sessionId)

/-- The invariant. -/
def Synced (s : Link) : Prop :=
  ∃ rest, s.sent = s.consumed ++ rest ∧
    Phase pb s.client s.server s.requests (held s) s.wire rest

theorem synced_init : Synced pb init := by
  refine ⟨[], rfl, .settled false 0 rfl rfl rfl (fun e he => (by cases he)) ?_ (incoming_start ?_)⟩
  · exact onlyAt_of_idle (fun b hb => by simpa [held, init, Reader.bytes] using hb) 0
  · intro p hp
    cases hp

section Run
variable {pb} {s s' : Link} {l : Label} {rest : List (Kind × Bytes)}

theorem held_setReader (s : Link) (i : ℕ) (r : Reader) :
    held (s.setReader i r) = (held s).set i r.bytes := List.map_set

theorem held_reader {i : ℕ} {r : Reader} (h : s.readers[i]? = some r) :
    i < (held s).length ∧ (held s).getD i [] = r.bytes := by
  obtain ⟨hi, hr⟩ := List.getElem?_eq_some_iff.mp h
  refine ⟨by simpa [held] using hi, ?_⟩
  rw [List.getD_eq_getElem?_getD, held, List.getElem?_map, h]
  rfl

theorem idle_cancel (h : ∀ b ∈ held s, b = []) :
    ∀ b ∈ (s.readers.map Reader.cancel).map Reader.bytes, b = [] := by
  intro b hb
  rw [List.map_map] at hb
  obtain ⟨r, hr, rfl⟩ := List.mem_map.mp hb
  have hbytes := h r.bytes (List.mem_map_of_mem hr)
  cases r with
  | reading buf =>
    have hbuf : buf = [] := hbytes
    subst hbuf
    rfl
  | handling => rfl
  | ended => rfl

/-- The frames behind a write. -/
theorem sent_write (h : s.sent = s.consumed ++ rest) (e : Kind × Bytes) :
    s.sent ++ [e] = s.consumed ++ (rest ++ [e]) := by rw [h, List.append_assoc]

/-- The frames behind a read. -/
theorem sent_read {e : Kind × Bytes} (h : s.sent = s.consumed ++ e :: rest) :
    s.sent = (s.consumed ++ [e]) ++ rest := by rw [h, List.append_assoc]; rfl

theorem parse_status (accepted : Bool) :
    ((pb.parseAck (pb.serialize accepted).bytes).status = some .succeed) ↔ accepted = true := by
  rw [pb.parse_serialize]
  cases accepted <;> simp [startAck]

/-! ### The reads of the client -/

/-- A subscription takes a byte. -/
theorem synced_infoByte {i : ℕ} (hI : Synced pb s) (hC : Orderly s (.infoByte i))
    (hs : step pb s (.infoByte i) = some s') : Synced pb s' := by
  obtain ⟨rest, hsent, hph⟩ := hI
  simp only [step] at hs
  split at hs
  · next buf b wire hreader hwire =>
    split_ifs at hs with hpart
    cases hs
    obtain ⟨hi, hbytes⟩ := held_reader hreader
    have hbuf : (held s).getD i [] = buf := hbytes
    rw [hwire] at hph
    have hph' := hph.infoByte hC.1 hC.2 hi (by rw [hbuf]; exact hpart)
    rw [hbuf] at hph'
    have hheld := held_setReader s i (.reading (buf ++ [b]))
    exact ⟨rest, hsent, hheld ▸ hph'⟩
  · cases hs

/-- A subscription has read a frame: it is the next one, and an `InfoMessage`. -/
theorem synced_infoMessage {i : ℕ} (hI : Synced pb s) (hs : step pb s (.infoMessage i) = some s') :
    Synced pb s' := by
  obtain ⟨rest, hsent, hph⟩ := hI
  simp only [step] at hs
  split at hs
  · next buf hreader =>
    split at hs
    · next p hfull =>
      cases hs
      obtain ⟨hi, hbytes⟩ := held_reader hreader
      have hbuf : (held s).getD i [] = buf := hbytes
      obtain ⟨rest', rfl, hph'⟩ := hph.infoMessage hi (by rw [hbuf]; exact hfull)
      have hr : ∀ c : Prop, [Decidable c] → (if c then Reader.ended else .handling).bytes = [] := by
        intro c _
        split_ifs <;> rfl
      have hheld := held_setReader (s.consume .info p) i
        (if (pb.parseInfo p).signal = some InfoSignal.break then .ended else .handling)
      rw [hr] at hheld
      exact ⟨rest', sent_read hsent, hheld ▸ hph'⟩
    · cases hs
  · cases hs

/-- A handler subscribes again. -/
theorem synced_subscribe {i : ℕ} (hI : Synced pb s) (hs : step pb s (.subscribe i) = some s') :
    Synced pb s' := by
  obtain ⟨rest, hsent, hph⟩ := hI
  simp only [step] at hs
  split at hs
  · next hreader =>
    cases hs
    obtain ⟨hi, hbytes⟩ := held_reader hreader
    have hnone : (held s)[i] = [] := by
      rw [← List.getD_eq_getElem _ [] hi]
      exact hbytes
    have hheld : held (s.setReader i (.reading [])) = held s := by
      rw [held_setReader, Reader.bytes, ← hnone, List.set_getElem_self]
    exact ⟨rest, hsent, hheld.symm ▸ hph⟩
  · cases hs

/-- `readBytes` takes a byte. -/
theorem synced_ackByte (hI : Synced pb s) (hs : step pb s .ackByte = some s') : Synced pb s' := by
  obtain ⟨rest, hsent, hph⟩ := hI
  simp only [step] at hs
  split at hs
  · next buf b wire hclient hwire =>
    split_ifs at hs with hpart
    cases hs
    rw [hclient, hwire] at hph
    exact ⟨rest, hsent, hph.ackByte hpart⟩
  · cases hs

/-- `readBytes` has read a frame: it is the answer. -/
theorem synced_ack (hI : Synced pb s) (hs : step pb s .ack = some s') : Synced pb s' := by
  obtain ⟨rest, hsent, hph⟩ := hI
  simp only [step] at hs
  split at hs
  · next buf hclient =>
    split at hs
    · next p hfull =>
      cases hs
      rw [hclient] at hph
      obtain ⟨accepted, rest', rfl, rfl, hph'⟩ := hph.ack hfull
      have hclient' : (if (pb.parseAck (pb.serialize accepted).bytes).status =
          some AckStatus.succeed then ClientPc.inGame else .startCommand) = settledPc accepted := by
        simp only [parse_status, settledPc]
      have hheld : (s.readers ++ [Reader.reading []]).map Reader.bytes = held s ++ [[]] :=
        List.map_append
      refine ⟨rest', sent_read hsent, ?_⟩
      rw [← hclient', ← hheld] at hph'
      exact hph'
    · cases hs
  · cases hs

/-- **An orderly step keeps the two ends in step.** -/
theorem synced_step (hI : Synced pb s) (hC : Orderly s l) (hs : step pb s l = some s') :
    Synced pb s' := by
  have hI' := hI
  obtain ⟨rest, hsent, hph⟩ := hI'
  cases l with
  | join =>
    simp only [step] at hs
    split_ifs at hs
    cases hs
    exact ⟨rest, hsent, hph⟩
  | notify p =>
    simp only [step] at hs
    split_ifs at hs
    cases hs
    exact ⟨_, sent_write hsent _, hph.write hC p fun _ h => h⟩
  | request =>
    simp only [step] at hs
    split_ifs at hs with h h1
    · cases hs
      rw [h.2] at hph
      exact ⟨rest, hsent, hph.request h.1 (Or.inl rfl)⟩
    · cases hs
      rw [h.2] at hph
      exact ⟨rest, hsent, hph.request h.1 (Or.inr rfl)⟩
  | answer =>
    simp only [step] at hs
    split at hs
    · next hserver =>
      cases hs
      exact ⟨_, sent_write hsent _, hph.answer false hserver rfl⟩
    · next hserver =>
      cases hs
      exact ⟨_, sent_write hsent _, hph.answer true hserver rfl⟩
    · cases hs
  | broadcast p =>
    simp only [step] at hs
    split_ifs at hs with hserver
    cases hs
    have hst : s.server.started = true := by rw [hserver]; rfl
    exact ⟨_, sent_write hsent _, hph.write (hph.no_request hst) p fun _ => .started hst rfl⟩
  | move =>
    simp only [step] at hs
    split_ifs at hs with hserver
    cases hs
    exact ⟨rest, hsent, hph.move (by rw [hserver]; rfl) rfl⟩
  | play p =>
    simp only [step] at hs
    split_ifs at hs with hserver
    cases hs
    have hst : s.server.started = true := by rw [hserver]; rfl
    exact ⟨_, sent_write hsent _, hph.write (hph.no_request hst) p fun _ h => h⟩
  | start =>
    simp only [step] at hs
    split_ifs at hs with hclient
    cases hs
    rw [hclient] at hph
    exact ⟨rest, hsent, hph.start hC.1 hC.2 (idle_cancel hC.2)⟩
  | infoByte i => exact synced_infoByte hI hC hs
  | infoMessage i => exact synced_infoMessage hI hs
  | subscribe i => exact synced_subscribe hI hs
  | ackByte => exact synced_ackByte hI hs
  | ack => exact synced_ack hI hs

/-! ### The two ends -/

/-- What the invariant says at the two ends. -/
theorem agrees_of_synced (hI : Synced pb s) : Agrees s := by
  obtain ⟨rest, hsent, hph⟩ := hI
  have hreaders : s.readers.flatMap Reader.bytes = (held s).flatten := List.flatMap_def
  have hframes : (payloads rest).flatMap frame = rest.flatMap fun e => frame e.2 :=
    List.flatMap_map _ _ _
  cases hph with
  | settled accepted i hc hs hr hi ho hin =>
    have hclient : s.client.bytes = [] := by
      rw [hc]
      cases accepted <;> rfl
    refine ⟨⟨rest, hsent, ?_⟩, fun _ => ?_⟩
    · rw [unread, hreaders, hclient, List.append_nil, ho.flatten, hin.bytes, hframes]
    · rw [hc]
      cases accepted with
      | true => exact iff_of_true rfl hs
      | false =>
        have hw : s.server = .waiting := hs
        rw [hw]
        exact iff_of_false (fun h => by cases h) (fun h => by cases h)
  | asked hc hs hrest ho hw =>
    refine ⟨⟨rest, hsent, ?_⟩, fun h => absurd hc (h _)⟩
    rw [unread, hreaders, flatten_of_idle ho, hc, hw, hrest]
    rfl
  | answered accepted buf infos hc hs hr hrest hi ho hin =>
    refine ⟨⟨rest, hsent, ?_⟩, fun h => absurd hc (h _)⟩
    rw [unread, hreaders, flatten_of_idle ho, hc, ← hframes, ← hin.bytes]
    rfl

end Run

/-- **When the leader reads its own reply**: in a run in which `/start` finds everything read, no
notice gets in before the answer and no two readers share a frame, all frames are read in order by
the reader they are for, and the two ends agree on the start. -/
theorem agrees_of_orderly (run : List Label) (h : Along (step pb) Orderly init run) :
    States (step pb) Agrees init run :=
  states_of_inv (fun _ _ _ hI hC hs => synced_step hI hC hs) (fun _ => agrees_of_synced)
    (synced_init pb) h

/-! ### Fixed inputs -/

/-- Protobuf as far as the two answers go. -/
def plainProtobuf : Protobuf 0 where
  serialize accepted :=
    if accepted then ⟨[8, 1, 18, 26] ++ bytesOf "You have started the game!" ++ [24, 0], by decide⟩
    else ⟨[8, 2, 18, 37] ++ bytesOf "Not enough players to start the game!" ++ [24, 0], by decide⟩
  parseAck b :=
    if b = [8, 1, 18, 26] ++ bytesOf "You have started the game!" ++ [24, 0] then
      ⟨some .succeed, some "You have started the game!"⟩
    else if b = [8, 2, 18, 37] ++ bytesOf "Not enough players to start the game!" ++ [24, 0] then
      ⟨some .failed, some "Not enough players to start the game!"⟩
    else ⟨none, none⟩
  parseInfo _ := ⟨none, none⟩
  parse_serialize accepted := by cases accepted <;> decide

/-- The notice of a join. -/
def notice : Payload := ⟨[10, 26] ++ bytesOf "Al has joined the session!", by decide⟩

/-- The notice is written and read. -/
def noticed : List Label :=
  .notify notice :: List.replicate 32 (.infoByte 0) ++ [.infoMessage 0, .subscribe 0]

/-- The leader has the notices of a join, and starts the game. -/
def startAfterNotices : List Label :=
  [.join] ++ noticed ++ noticed ++ [.start, .request, .answer] ++ List.replicate 36 .ackByte ++ [.ack]

theorem agrees_startAfterNotices :
    (reach (step plainProtobuf) init startAfterNotices).map Link.client = some .inGame ∧
      States (step plainProtobuf) Agrees init startAfterNotices :=
  ⟨by decide +kernel, agrees_of_orderly plainProtobuf startAfterNotices (by decide +kernel)⟩

/-- The leader starts the game while the notice of a join is in flight. -/
def startBeforeNotice : List Label :=
  [.join, .notify notice, .start] ++ List.replicate 32 .ackByte ++ [.ack]

/-- `readBytes` then returns the notice. -/
theorem start_reads_notice : ¬ States (step plainProtobuf) Agrees init startBeforeNotice := by
  intro h
  obtain ⟨rest, hsent, -⟩ := h.last.frames
  have hkinds := congrArg (List.map Prod.fst) hsent
  rw [List.map_append] at hkinds
  have hview : (last (step plainProtobuf) init startBeforeNotice).sent.map Prod.fst = [.info] ∧
      (last (step plainProtobuf) init startBeforeNotice).consumed.map Prod.fst = [.startAck] := by
    decide +kernel
  rw [hview.1, hview.2] at hkinds
  cases hkinds

end HanabiBot.TgClient.StartReply
