import HanabiBot.Lib.Calls
import HanabiBot.Common.Messages

/-! # The frames of `sockets.cpp`

`sendBytes` and the two readers of its frames, `readBytes` and the one in `subscribeToInfo`, byte
by byte. The size of a message is narrowed to 32 bits and brought into network order; how a host
keeps a number in memory is its `Endian`, and the two ends of a connection may differ in it.

On the wire it makes no difference (`sendBytes_eq`, `readBytes_eq`): what one end writes is a
`Framing.frame`, and what the other reads is `Framing.unframe`. -/

namespace HanabiBot.Common.Sockets

open HanabiBot.Lib.Calls HanabiBot.Lib.Framing HanabiBot.Common.Messages

/-! ### Numbers in memory -/

/-- The byte order of a host. -/
inductive Endian where
  | little | big

/-- The bytes of a `uint32_t`, by their addresses. -/
def Endian.store : Endian → UInt32 → Bytes
  | .little, x => (be32 x.toNat).reverse
  | .big, x => be32 x.toNat

/-- The `uint32_t` in four bytes of memory. -/
def Endian.load : Endian → Bytes → UInt32
  | .little, [a, b, c, d] => UInt32.ofNat (ofBe32 d c b a)
  | .big, [a, b, c, d] => UInt32.ofNat (ofBe32 a b c d)
  | _, _ => 0

/-- The number with its bytes in the opposite order. -/
def swapBytes (x : UInt32) : UInt32 := Endian.load .little (Endian.store .big x)

def htonl : Endian → UInt32 → UInt32
  | .little, x => swapBytes x
  | .big, x => x

def ntohl : Endian → UInt32 → UInt32
  | .little, x => swapBytes x
  | .big, x => x

theorem toNat_ofBe32 (a b c d : UInt8) : (UInt32.ofNat (ofBe32 a b c d)).toNat = ofBe32 a b c d := by
  rw [UInt32.toNat_ofNat']
  exact Nat.mod_eq_of_lt (ofBe32_lt a b c d)

/-- A number in network order lies in memory with the most significant byte first. -/
theorem store_htonl (host : Endian) (x : UInt32) : host.store (htonl host x) = be32 x.toNat := by
  cases host with
  | little =>
    show (be32 (UInt32.ofNat (ofBe32 _ _ _ _)).toNat).reverse = _
    rw [toNat_ofBe32, be32_ofBe32]
    rfl
  | big => rfl

theorem ntohl_load (host : Endian) (a b c d : UInt8) :
    (ntohl host (host.load [a, b, c, d])).toNat = ofBe32 a b c d := by
  cases host with
  | little =>
    show (Endian.load .little (be32 (UInt32.ofNat (ofBe32 d c b a)).toNat)).toNat = _
    rw [toNat_ofBe32, be32_ofBe32]
    exact toNat_ofBe32 a b c d
  | big => exact toNat_ofBe32 a b c d

/-! ### Writing and reading -/

/-- The bytes `sendBytes` writes. -/
def sendBytes (host : Endian) (message : Bytes) : Bytes :=
  let length := htonl host (UInt32.ofNat message.length)
  host.store length ++ message

/-- The stream ended before the bytes of a read were there. -/
inductive ReadError where
  | eof

/-- A call that reads a stream: the bytes that will still arrive before its end. -/
abbrev Reader := EStateM ReadError Bytes

/-- `boost::asio::read` into a buffer of `n` bytes. -/
def read (n : ℕ) : Reader Bytes := fun s =>
  if n ≤ s.length then .ok (s.take n) (s.drop n) else .error .eof []

/-- `readBytes`. -/
def readBytes (host : Endian) : Reader Bytes := do
  let memory ← read 4
  let length := ntohl host (host.load memory)
  read length.toNat

/-- `readBytesCatch`. -/
def readBytesCatch (host : Endian) : Reader (Option Bytes) := fun s =>
  match readBytes host s with
  | .ok message s' => .ok (some message) s'
  | .error _ s' => .ok none s'

/-- `async_read` into a buffer of `n` bytes: its handler is given the error, if there is one. -/
def asyncRead (n : ℕ) : Reader (Except ReadError Bytes) := fun s =>
  match read n s with
  | .ok memory s' => .ok (.ok memory) s'
  | .error e s' => .ok (.error e) s'

/-- What `subscribeToInfo` reads: the bytes it parses, or nothing if the header does not arrive. -/
def subscribeToInfo (host : Endian) : Reader (Option Bytes) := do
  match ← asyncRead 4 with
  | .error _ => return none
  | .ok memory =>
    let length := ntohl host (host.load memory)
    let buffer ← read length.toNat
    return some buffer

/-- `n` reads in a row. -/
def repeatRead {α : Type} (reader : Reader α) : ℕ → Reader (List α)
  | 0 => pure []
  | n + 1 => do
    let message ← reader
    let messages ← repeatRead reader n
    return message :: messages

section Frames
variable (host : Endian)

/-- **What `sendBytes` writes is a frame.** -/
theorem sendBytes_eq {message : Bytes} (h : message.length < 2 ^ 32) :
    sendBytes host message = frame message := by
  unfold sendBytes frame
  simp only
  rw [store_htonl, UInt32.toNat_ofNat', Nat.mod_eq_of_lt h]

theorem run_read_ok {n : ℕ} {s : Bytes} (h : n ≤ s.length) :
    (read n).run s = .ok (s.take n) (s.drop n) := if_pos h

theorem run_read_eof {n : ℕ} {s : Bytes} (h : ¬ n ≤ s.length) :
    (read n).run s = .error .eof [] := if_neg h

theorem run_asyncRead (n : ℕ) (s : Bytes) : (asyncRead n).run s =
    match (read n).run s with
    | .ok memory s' => .ok (.ok memory) s'
    | .error e s' => .ok (.error e) s' := rfl

/-- **What `readBytes` reads is the first frame of the stream.** -/
theorem readBytes_eq (s : Bytes) : (readBytes host).run s =
    match unframe s with
    | some (message, rest) => .ok message rest
    | none => .error .eof [] := by
  unfold readBytes
  match s with
  | [] | [_] | [_, _] | [_, _, _] => rfl
  | a :: b :: c :: d :: s =>
    have hheader : (read 4).run (a :: b :: c :: d :: s) = .ok [a, b, c, d] s :=
      run_read_ok (by simp)
    rw [bind_ok hheader]
    simp only
    rw [ntohl_load, unframe_cons]
    by_cases h : ofBe32 a b c d ≤ s.length
    · rw [run_read_ok h, if_pos h]
    · rw [run_read_eof h, if_neg h]

/-- **The reader of `subscribeToInfo` reads the same**, and has no payload where `readBytes`
throws. -/
theorem subscribeToInfo_eq (s : Bytes) : (subscribeToInfo host).run s =
    match unframe s with
    | some (message, rest) => .ok (some message) rest
    | none => if s.length < 4 then .ok none [] else .error .eof [] := by
  unfold subscribeToInfo
  match s with
  | [] | [_] | [_, _] | [_, _, _] => rfl
  | a :: b :: c :: d :: s =>
    have hheader : (asyncRead 4).run (a :: b :: c :: d :: s) = .ok (.ok [a, b, c, d]) s := by
      rw [run_asyncRead, run_read_ok (by simp)]
      rfl
    rw [bind_ok hheader]
    simp only
    rw [ntohl_load, unframe_cons]
    by_cases h : ofBe32 a b c d ≤ s.length
    · rw [bind_ok (run_read_ok h), if_pos h]
      rfl
    · rw [bind_error (run_read_eof h), if_neg h]
      simp

theorem run_readBytesCatch (s : Bytes) : (readBytesCatch host).run s =
    match unframe s with
    | some (message, rest) => .ok (some message) rest
    | none => .ok none [] := by
  show (match (readBytes host).run s with
    | .ok message s' => EStateM.Result.ok (some message) s'
    | .error _ s' => .ok none s') = _
  rw [readBytes_eq]
  cases unframe s <;> rfl

end Frames

/-! ### Streams of messages -/

/-- A string protobuf can serialise a message to. -/
abbrev Serialised := { message : Bytes // message.length < 2 ^ 31 }

/-- What `sendBytes` writes for one message after the other. -/
def sentAll (host : Endian) (messages : List Serialised) : Bytes :=
  messages.flatMap fun message => sendBytes host message.val

section Streams
variable (writer host : Endian)

theorem sent_eq (message : Serialised) : sendBytes writer message.val = frame message.val :=
  sendBytes_eq writer (Nat.lt_trans message.property (by decide))

theorem unframe_sent (message : Serialised) (s : Bytes) :
    unframe (sendBytes writer message.val ++ s) = some (message.val, s) := by
  rw [sent_eq]
  exact unframe_frame (Nat.lt_trans message.property (by decide)) s

/-- A reader that reads every message as it was sent reads them all, and no more. -/
theorem repeatRead_sent {α : Type} {reader : Reader α} {f : Bytes → α}
    (h : ∀ (message : Serialised) s,
      reader.run (sendBytes writer message.val ++ s) = .ok (f message.val) s) (suffix : Bytes) :
    ∀ messages : List Serialised,
      (repeatRead reader messages.length).run (sentAll writer messages ++ suffix) =
        .ok (messages.map fun message => f message.val) suffix
  | [] => rfl
  | message :: messages => by
    have hfirst := h message (sentAll writer messages ++ suffix)
    have hrest := repeatRead_sent h suffix messages
    have hsplit : sentAll writer (message :: messages) ++ suffix =
        sendBytes writer message.val ++ (sentAll writer messages ++ suffix) := by
      rw [sentAll, List.flatMap_cons, List.append_assoc]
      rfl
    rw [hsplit, List.length_cons, repeatRead, bind_ok hfirst, bind_ok hrest]
    rfl

theorem readBytes_sent (message : Serialised) (s : Bytes) :
    (readBytes host).run (sendBytes writer message.val ++ s) = .ok message.val s := by
  rw [readBytes_eq, unframe_sent]

theorem subscribeToInfo_sent (message : Serialised) (s : Bytes) :
    (subscribeToInfo host).run (sendBytes writer message.val ++ s) = .ok (some message.val) s := by
  rw [subscribeToInfo_eq, unframe_sent]

/-- A stream that ends inside a frame. -/
theorem readBytesCatch_cut (message : Serialised) {k : ℕ}
    (hk : k < (sendBytes writer message.val).length) :
    (readBytesCatch host).run ((sendBytes writer message.val).take k) = .ok none [] := by
  have hcut : unframe ((sendBytes writer message.val).take k) = none := by
    refine unframe_part (p := message.val) (t := (sendBytes writer message.val).drop k)
      (Nat.lt_trans message.property (by decide)) ?_ ?_
    · rw [List.take_append_drop]
      exact sent_eq writer message
    · exact List.ne_nil_of_length_pos (by rw [List.length_drop]; omega)
  rw [run_readBytesCatch, hcut]

end Streams

/-- The two readers of a host recover what a writer has sent. -/
structure Recovers (writer host : Endian) (messages : List Serialised) (suffix : Bytes) : Prop where
  read : (repeatRead (readBytes host) messages.length).run (sentAll writer messages ++ suffix) =
    .ok (messages.map Subtype.val) suffix
  subscribed : (repeatRead (subscribeToInfo host) messages.length).run
    (sentAll writer messages ++ suffix) = .ok (messages.map fun message => some message.val) suffix
  agree : ∀ stream payload rest, (readBytes host).run stream = .ok payload rest ↔
    (subscribeToInfo host).run stream = .ok (some payload) rest
  cut : ∀ message : Serialised, ∀ k < (sendBytes writer message.val).length,
    (do let before ← repeatRead (readBytes host) messages.length
        let last ← readBytesCatch host
        return (before, last)).run (sentAll writer messages ++ (sendBytes writer message.val).take k) =
      .ok (messages.map Subtype.val, none) []

/-- **The frames are read back**, in order and no byte further, by either reader; a stream that ends
inside a frame yields no payload for it. -/
theorem recovers (writer host : Endian) (messages : List Serialised) (suffix : Bytes) :
    Recovers writer host messages suffix where
  read := repeatRead_sent writer (f := id) (readBytes_sent writer host) suffix messages
  subscribed := repeatRead_sent writer (f := some) (subscribeToInfo_sent writer host) suffix messages
  agree stream payload rest := by
    rw [readBytes_eq, subscribeToInfo_eq]
    cases unframe stream with
    | some first => simp
    | none => split_ifs <;> simp
  cut message k hk := by
    have hbefore := repeatRead_sent writer (f := id) (readBytes_sent writer host)
      ((sendBytes writer message.val).take k) messages
    rw [bind_ok hbefore, bind_ok (readBytesCatch_cut writer host message hk)]
    rfl

end HanabiBot.Common.Sockets
