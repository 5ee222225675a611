import Mathlib.Data.List.Basic
import Mathlib.Algebra.Group.Nat.Defs

/-! # Length-prefixed frames

A frame is the length of its payload, four bytes with the most significant first, and then the
payload. `unframe` reads one frame off a stream of bytes, `unframes` reads a stream to its end.

* `unframe_frame`: reading back a frame gives the payload and leaves the bytes behind it, as long as
  the length fits in the header;
* `unframes_frames`: a stream made of frames is read back as the payloads it was made of. -/

namespace HanabiBot.Lib.Framing

/-- The low 32 bits of `n`, most significant byte first. -/
def be32 (n : ℕ) : List UInt8 :=
  [UInt8.ofNat (n / 2 ^ 24), UInt8.ofNat (n / 2 ^ 16), UInt8.ofNat (n / 2 ^ 8), UInt8.ofNat n]

/-- The number four such bytes stand for. -/
def ofBe32 (a b c d : UInt8) : ℕ :=
  a.toNat * 2 ^ 24 + b.toNat * 2 ^ 16 + c.toNat * 2 ^ 8 + d.toNat

/-- One frame. -/
def frame (p : List UInt8) : List UInt8 := be32 p.length ++ p

/-- The first frame of a stream, and what follows it; `none` if the stream ends inside it. -/
def unframe : List UInt8 → Option (List UInt8 × List UInt8)
  | a :: b :: c :: d :: s =>
    let n := ofBe32 a b c d
    if n ≤ s.length then some (s.take n, s.drop n) else none
  | _ => none

theorem unframe_cons (a b c d : UInt8) (s : List UInt8) : unframe (a :: b :: c :: d :: s) =
    if ofBe32 a b c d ≤ s.length then some (s.take (ofBe32 a b c d), s.drop (ofBe32 a b c d))
    else none := rfl

/-- The frames of a stream that ends with a frame, at most `n` of them. -/
def unframesUpTo : ℕ → List UInt8 → Option (List (List UInt8))
  | _, [] => some []
  | 0, _ :: _ => none
  | n + 1, b :: s =>
    match unframe (b :: s) with
    | some (p, rest) => (unframesUpTo n rest).map (p :: ·)
    | none => none

/-- The frames of a stream that ends with a frame. -/
def unframes (s : List UInt8) : Option (List (List UInt8)) := unframesUpTo s.length s

@[simp] theorem length_be32 (n : ℕ) : (be32 n).length = 4 := rfl

@[simp] theorem length_frame (p : List UInt8) : (frame p).length = p.length + 4 := by
  simp [frame, Nat.add_comm]

theorem ofBe32_be32 {n : ℕ} (h : n < 2 ^ 32) :
    ofBe32 (UInt8.ofNat (n / 2 ^ 24)) (UInt8.ofNat (n / 2 ^ 16)) (UInt8.ofNat (n / 2 ^ 8))
      (UInt8.ofNat n) = n := by
  unfold ofBe32
  simp only [UInt8.toNat_ofNat']
  omega

theorem ofBe32_lt (a b c d : UInt8) : ofBe32 a b c d < 2 ^ 32 := by
  have ha := a.toNat_lt
  have hb := b.toNat_lt
  have hc := c.toNat_lt
  have hd := d.toNat_lt
  unfold ofBe32
  omega

/-- Any four bytes are those of a number. -/
theorem be32_ofBe32 (a b c d : UInt8) : be32 (ofBe32 a b c d) = [a, b, c, d] := by
  have ha := a.toNat_lt
  have hb := b.toNat_lt
  have hc := c.toNat_lt
  have hd := d.toNat_lt
  have hbyte {n : ℕ} {x : UInt8} (h : n % 256 = x.toNat) : UInt8.ofNat n = x := by
    apply UInt8.toNat_inj.mp
    rw [UInt8.toNat_ofNat']
    exact h
  unfold be32 ofBe32
  rw [hbyte (x := a) (by omega), hbyte (x := b) (by omega), hbyte (x := c) (by omega),
    hbyte (x := d) (by omega)]

/-- **A frame is read back.** -/
theorem unframe_frame {p : List UInt8} (h : p.length < 2 ^ 32) (s : List UInt8) :
    unframe (frame p ++ s) = some (p, s) := by
  simp only [frame, be32, List.cons_append, List.nil_append, unframe]
  rw [ofBe32_be32 h, if_pos (by simp)]
  simp

theorem unframesUpTo_frames : ∀ (ps : List (List UInt8)) (n : ℕ),
    (∀ p ∈ ps, p.length < 2 ^ 32) → ps.length ≤ n →
      unframesUpTo n (ps.flatMap frame) = some ps
  | [], n, _, _ => by cases n <;> rfl
  | p :: ps, 0, _, hn => by simp at hn
  | p :: ps, n + 1, h, hn => by
    obtain ⟨b, s, hb⟩ : ∃ b s, (p :: ps).flatMap frame = b :: s := ⟨_, _, rfl⟩
    have hu := unframe_frame (h p (by simp)) (ps.flatMap frame)
    have ih := unframesUpTo_frames ps n (fun q hq => h q (by simp [hq])) (by simpa using hn)
    rw [List.flatMap_cons] at hb
    rw [hb] at hu
    rw [List.flatMap_cons, hb, unframesUpTo, hu]
    simp [ih]

theorem length_le_length_frames (ps : List (List UInt8)) :
    ps.length ≤ (ps.flatMap frame).length := by
  induction ps with
  | nil => simp
  | cons p ps ih => simp only [List.flatMap_cons, List.length_append, length_frame,
      List.length_cons]; omega

/-- **A stream of frames is read back.** -/
theorem unframes_frames {ps : List (List UInt8)} (h : ∀ p ∈ ps, p.length < 2 ^ 32) :
    unframes (ps.flatMap frame) = some ps :=
  unframesUpTo_frames ps _ h (length_le_length_frames ps)

/-! ### Reading byte by byte -/

/-- The payload, if the bytes are those of one frame. -/
def complete (buf : List UInt8) : Option (List UInt8) :=
  match unframe buf with
  | some (p, []) => some p
  | _ => none

theorem complete_of_some {buf p : List UInt8} (h : unframe buf = some (p, [])) :
    complete buf = some p := by
  unfold complete
  rw [h]

theorem complete_of_none {buf : List UInt8} (h : unframe buf = none) : complete buf = none := by
  unfold complete
  rw [h]

theorem complete_frame {p : List UInt8} (h : p.length < 2 ^ 32) : complete (frame p) = some p := by
  have hu := unframe_frame h []
  rw [List.append_nil] at hu
  exact complete_of_some hu

/-- A stream that ends inside a frame has no first frame. -/
theorem unframe_part {p buf t : List UInt8} (h : p.length < 2 ^ 32) (hb : buf ++ t = frame p)
    (ht : t ≠ []) : unframe buf = none := by
  match buf with
  | [] | [_] | [_, _] | [_, _, _] => rfl
  | a :: b :: c :: d :: s =>
    simp only [frame, be32, List.cons_append, List.nil_append, List.cons.injEq] at hb
    obtain ⟨rfl, rfl, rfl, rfl, rfl⟩ := hb
    have hlt : ¬ (s ++ t).length ≤ s.length := by
      have := List.length_pos_of_ne_nil ht
      rw [List.length_append]
      omega
    unfold unframe
    simp only
    rw [ofBe32_be32 h, if_neg hlt]

/-- The bytes of a part of a frame are not a frame. -/
theorem complete_part {p buf t : List UInt8} (h : p.length < 2 ^ 32) (hb : buf ++ t = frame p)
    (ht : t ≠ []) : complete buf = none := complete_of_none (unframe_part h hb ht)

/-- A reader has `buf` of the first frame, and `wire` is still to come: the frames of `ps`. -/
structure Incoming (ps : List (List UInt8)) (buf wire : List UInt8) : Prop where
  short : ∀ p ∈ ps, p.length < 2 ^ 32
  split : match ps with
    | [] => buf = [] ∧ wire = []
    | p :: ps => ∃ t, buf ++ t = frame p ∧ wire = t ++ ps.flatMap frame

section Incoming
variable {ps : List (List UInt8)} {buf wire p : List UInt8}

theorem incoming_start (hs : ∀ p ∈ ps, p.length < 2 ^ 32) : Incoming ps [] (ps.flatMap frame) := by
  refine ⟨hs, ?_⟩
  cases ps with
  | nil => exact ⟨rfl, rfl⟩
  | cons p ps => exact ⟨frame p, rfl, rfl⟩

theorem Incoming.bytes (h : Incoming ps buf wire) : buf ++ wire = ps.flatMap frame := by
  have hsplit := h.split
  cases ps with
  | nil =>
    obtain ⟨rfl, rfl⟩ := hsplit
    rfl
  | cons p ps =>
    obtain ⟨t, hb, rfl⟩ := hsplit
    rw [List.flatMap_cons, ← hb, List.append_assoc]

/-- The writer adds a frame. -/
theorem Incoming.write (h : Incoming ps buf wire) (hp : p.length < 2 ^ 32) :
    Incoming (ps ++ [p]) buf (wire ++ frame p) := by
  have hsplit := h.split
  refine ⟨?_, ?_⟩
  · intro q hq
    rcases List.mem_append.mp hq with hq | hq
    · exact h.short q hq
    · rw [List.mem_singleton.mp hq]
      exact hp
  · cases ps with
    | nil =>
      obtain ⟨rfl, rfl⟩ := hsplit
      exact ⟨frame p, rfl, by simp⟩
    | cons q ps =>
      obtain ⟨t, hb, rfl⟩ := hsplit
      exact ⟨t, hb, by simp⟩

/-- The reader, whose frame is not complete, takes a byte. -/
theorem Incoming.take {b : UInt8} (h : Incoming ps buf (b :: wire)) (hc : complete buf = none) :
    Incoming ps (buf ++ [b]) wire := by
  have hsplit := h.split
  refine ⟨h.short, ?_⟩
  cases ps with
  | nil => cases hsplit.2
  | cons p ps =>
    obtain ⟨t, hb, hw⟩ := hsplit
    cases t with
    | nil =>
      rw [List.append_nil] at hb
      rw [hb, complete_frame (h.short p List.mem_cons_self)] at hc
      cases hc
    | cons b' t =>
      obtain ⟨rfl, rfl⟩ := List.cons.inj hw
      exact ⟨t, by rw [List.append_assoc]; exact hb, rfl⟩

/-- The reader's frame is complete: it is the first. -/
theorem Incoming.read (h : Incoming ps buf wire) (hc : complete buf = some p) :
    ∃ rest, ps = p :: rest ∧ wire = rest.flatMap frame ∧ Incoming rest [] wire := by
  have hsplit := h.split
  cases ps with
  | nil =>
    obtain ⟨rfl, rfl⟩ := hsplit
    cases hc
  | cons q ps =>
    obtain ⟨t, hb, rfl⟩ := hsplit
    have hq := h.short q List.mem_cons_self
    have hrest : ∀ r ∈ ps, r.length < 2 ^ 32 := fun r hr => h.short r (List.mem_cons_of_mem _ hr)
    by_cases ht : t = []
    · subst ht
      rw [List.append_nil] at hb
      rw [hb, complete_frame hq] at hc
      cases hc
      exact ⟨ps, rfl, rfl, incoming_start hrest⟩
    · rw [complete_part hq hb ht] at hc
      cases hc

/-- Nothing is held and nothing to come: there is no frame. -/
theorem Incoming.none_left (h : Incoming ps [] []) : ps = [] := by
  have hsplit := h.split
  cases ps with
  | nil => rfl
  | cons p ps =>
    obtain ⟨t, hb, hw⟩ := hsplit
    have hlen := congrArg List.length hb
    rw [(List.append_eq_nil_iff.mp hw.symm).1] at hlen
    simp at hlen

end Incoming

end HanabiBot.Lib.Framing
