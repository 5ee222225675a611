import HanabiBot.HanabiGame.Dialogue

/-! # What counts as a choice

`requestInt` does not look at the result of `ParseFromString`, and reads an absent option as `0`.
`Explicit` is a frame that decodes, with an option within the bounds, and `ExplicitOnly` says that
a call returns the option of the first such frame, if it returns at all, and asks again for every
frame before it. That is so exactly if the first frame that is *read* within the bounds has its
option present (`explicitOnly_iff`). -/

namespace HanabiBot.HanabiGame.Choice

open HanabiBot.Lib.Calls HanabiBot.Common.Messages
open HanabiBot.HanabiGame.Cards HanabiBot.HanabiGame.State HanabiBot.HanabiGame.Play
open HanabiBot.HanabiGame.Dialogue

/-- `ParseFromString` into a fresh message: what it decodes, if it succeeds, and what the message
holds after the call, whether it succeeds or not. -/
structure Parser (M : Type) where
  decode : Bytes → Option M
  left : Bytes → M
  left_decode : ∀ b m, decode b = some m → left b = m

/-- A frame that chooses `v`. -/
def Explicit (parser : Parser ClientResponse) (lower higher : ℤ) (b : Bytes) (v : ℤ) : Prop :=
  ∃ r, parser.decode b = some r ∧ r.optionSelected = some v ∧ lower ≤ v ∧ v ≤ higher

/-- A frame that decodes and has its option. -/
def Present (parser : Parser ClientResponse) (b : Bytes) : Prop :=
  ∃ r v, parser.decode b = some r ∧ r.optionSelected = some v

/-- The frame is read as an option within the bounds. -/
def InBounds (parser : Parser ClientResponse) (lower higher : ℤ) (b : Bytes) : Prop :=
  lower ≤ optionOf parser.left b ∧ optionOf parser.left b ≤ higher

section Request
variable (parser : Parser ClientResponse) (writeOk : ℕ → Conn → Bool) (lower higher : ℤ)
  (msg : String) (player : Player)

/-- The query, and what is written for a frame that is not taken. -/
def query : Sent := .frame player.socket ⟨some "QUERY", some .break⟩

def refusal : Sent := .frame player.socket ⟨some msg, some .continue⟩

/-- How a call fails that has read the frames `before`: in the read, behind one query more, where
there is no frame left; in the write of a query; or in the write of the refusal of the last frame. -/
inductive FailsAfter (w w' : World) : List Bytes → Stop → Prop
  | noFrame (before : List Bytes) (hnil : w'.inbox = []) (hout : w'.out = w.out ++
        before.flatMap (fun _ => [query player, refusal msg player]) ++ [query player]) :
      FailsAfter w w' before (.exn .read)
  | noQuery (before : List Bytes)
      (hout : w'.out = w.out ++ before.flatMap fun _ => [query player, refusal msg player]) :
      FailsAfter w w' before (.exn (.write player.socket))
  | noRefusal (before : List Bytes) (b : Bytes) (hout : w'.out = w.out ++
        before.flatMap (fun _ => [query player, refusal msg player]) ++ [query player]) :
      FailsAfter w w' (before ++ [b]) (.exn (.write player.socket))

/-- `requestInt` returns `v` for the first explicit frame only, after one query more for every frame
before it; it fails with the error of a write or, after the last frame, of the read, if it has read
no explicit frame, and each frame it has read has caused one query more. -/
def ExplicitOnly (w : World) : Prop :=
  match (requestInt ⟨parser.left, writeOk⟩ lower higher msg player).run w with
  | .ok v w' => ∃ before b, w.inbox = before ++ b :: w'.inbox ∧ Explicit parser lower higher b v ∧
      (∀ x ∈ before, ∀ u, ¬ Explicit parser lower higher x u) ∧
      w'.out = w.out ++ before.flatMap (fun _ => [query player, refusal msg player]) ++ [query player]
  | .error e w' => ∃ before, w.inbox = before ++ w'.inbox ∧
      (∀ x ∈ before, ∀ u, ¬ Explicit parser lower higher x u) ∧
      FailsAfter msg player w w' before e

/-- The first frame that is read within the bounds has its option present, if the writes up to its
query go out. -/
def FirstPresent (w : World) : Prop :=
  ∀ before b rest, w.inbox = before ++ b :: rest →
    (∀ x ∈ before, ¬ InBounds parser lower higher x) → InBounds parser lower higher b →
    (∀ k ≤ 2 * before.length, writeOk (w.writes + k) player.socket = true) → Present parser b

end Request

section Reads
variable {parser : Parser ClientResponse} {lower higher : ℤ} {b : Bytes}

theorem Explicit.inBounds {v : ℤ} (h : Explicit parser lower higher b v) :
    InBounds parser lower higher b := by
  obtain ⟨r, hr, hv, hl, hh⟩ := h
  have hread : optionOf parser.left b = v := by
    rw [optionOf, parser.left_decode b r hr, ClientResponse.optionselected, hv]
    rfl
  exact ⟨hread ▸ hl, hread ▸ hh⟩

theorem Explicit.present {v : ℤ} (h : Explicit parser lower higher b v) : Present parser b := by
  obtain ⟨r, hr, hv, -⟩ := h
  exact ⟨r, v, hr, hv⟩

/-- A frame within the bounds that has its option is explicit. -/
theorem Present.explicit (h : Present parser b) (hb : InBounds parser lower higher b) :
    Explicit parser lower higher b (optionOf parser.left b) := by
  obtain ⟨r, v, hr, hv⟩ := h
  have hread : optionOf parser.left b = v := by
    rw [optionOf, parser.left_decode b r hr, ClientResponse.optionselected, hv]
    rfl
  exact ⟨r, hr, hread ▸ hv, hb.1, hb.2⟩

end Reads

/-! ### The rounds of `requestInt` -/

section Rounds
variable {parser : Parser ClientResponse} {writeOk : ℕ → Conn → Bool} {lower higher : ℤ}
  (msg : String) {player : Player}

/-- A frame read within the bounds is taken. -/
theorem requestInt_in {w : World} {b : Bytes} {rest : List Bytes} (hb : w.inbox = b :: rest)
    (hq : writeOk w.writes player.socket = true) (hin : InBounds parser lower higher b) :
    (requestInt ⟨parser.left, writeOk⟩ lower higher msg player).run w =
      .ok (optionOf parser.left b) ((w.sent [query player]).reading rest) := by
  refine requestInt_taken msg hb hq ?_
  have h1 := hin.1
  have h2 := hin.2
  simp only
  omega

/-- Any other is refused, and asked for again. -/
theorem requestInt_out {w : World} {b : Bytes} {rest : List Bytes} (hb : w.inbox = b :: rest)
    (hq : writeOk w.writes player.socket = true) (hout : ¬ InBounds parser lower higher b) :
    (requestInt ⟨parser.left, writeOk⟩ lower higher msg player).run w =
      if writeOk (w.writes + 1) player.socket then
        (requestInt ⟨parser.left, writeOk⟩ lower higher msg player).run
          ((w.sent [query player, refusal msg player]).reading rest)
      else .error (.exn (.write player.socket))
        { (w.sent [query player]).reading rest with writes := w.writes + 2 } := by
  refine requestInt_refused msg hb hq ?_
  unfold InBounds at hout
  simp only
  omega

/-- The frame of `requestInt` that is read within the bounds first is taken. -/
theorem requestInt_reaches : ∀ (before : List Bytes) {w : World} {b : Bytes} {rest : List Bytes},
    w.inbox = before ++ b :: rest → (∀ x ∈ before, ¬ InBounds parser lower higher x) →
      InBounds parser lower higher b →
        (∀ k ≤ 2 * before.length, writeOk (w.writes + k) player.socket = true) →
          ∃ w', (requestInt ⟨parser.left, writeOk⟩ lower higher msg player).run w =
            .ok (optionOf parser.left b) w' ∧ w'.inbox = rest
  | [], w, b, rest, hi, _, hin, hw => ⟨_, requestInt_in msg hi (hw 0 (Nat.zero_le _)) hin, rfl⟩
  | x :: before, w, b, rest, hi, hout, hin, hw => by
    have hlen : (x :: before).length = before.length + 1 := rfl
    rw [hlen] at hw
    rw [requestInt_out msg hi (hw 0 (Nat.zero_le _)) (hout x List.mem_cons_self),
      if_pos (hw 1 (by omega))]
    refine requestInt_reaches before rfl (fun y hy => hout y (List.mem_cons_of_mem _ hy)) hin ?_
    intro k hk
    have hk2 := hw (2 + k) (by omega)
    rwa [← Nat.add_assoc] at hk2

end Rounds

/-! ### Exactly when -/

section Exact
variable {parser : Parser ClientResponse} {writeOk : ℕ → Conn → Bool} {lower higher : ℤ}
  {msg : String} {player : Player}

/-- A frame that is refused, before a call that fails. -/
theorem FailsAfter.cons {w w1 w' : World} {before : List Bytes} {e : Stop}
    (h : FailsAfter msg player w1 w' before e)
    (hout : w1.out = w.out ++ [query player, refusal msg player]) (b : Bytes) :
    FailsAfter msg player w w' (b :: before) e := by
  have hshift (rest : List Sent) : w1.out ++ rest =
      w.out ++ ([query player, refusal msg player] ++ rest) := by
    rw [hout, List.append_assoc]
  cases h with
  | noFrame before hnil hout' =>
    refine .noFrame (b :: before) hnil (hout'.trans ?_)
    rw [List.append_assoc, hshift, List.flatMap_cons, List.append_assoc, List.append_assoc]
  | noQuery before hout' =>
    exact .noQuery (b :: before) (hout'.trans (hshift _))
  | noRefusal before b' hout' =>
    refine .noRefusal (b :: before) b' (hout'.trans ?_)
    rw [List.append_assoc, hshift, List.flatMap_cons, List.append_assoc, List.append_assoc]

/-- A frame that is refused, before a call in order. -/
theorem ExplicitOnly.cons {w w1 : World} {b : Bytes} (hi : w.inbox = b :: w1.inbox)
    (hout : w1.out = w.out ++ [query player, refusal msg player])
    (hb : ¬ InBounds parser lower higher b)
    (hrun : (requestInt ⟨parser.left, writeOk⟩ lower higher msg player).run w =
      (requestInt ⟨parser.left, writeOk⟩ lower higher msg player).run w1)
    (h : ExplicitOnly parser writeOk lower higher msg player w1) :
    ExplicitOnly parser writeOk lower higher msg player w := by
  have hfirst : ∀ u, ¬ Explicit parser lower higher b u := fun u hu => hb hu.inBounds
  unfold ExplicitOnly at h ⊢
  rw [hrun]
  split at h
  · next v w' hr =>
    obtain ⟨before, b1, hbefore, hexp, hnone, hwritten⟩ := h
    refine ⟨b :: before, b1, by rw [hi, hbefore]; rfl, hexp,
      List.forall_mem_cons.mpr ⟨hfirst, hnone⟩, ?_⟩
    rw [hwritten, hout, List.flatMap_cons]
    simp only [List.append_assoc]
  · next e w' hr =>
    obtain ⟨before, hbefore, hnone, hfail⟩ := h
    exact ⟨b :: before, by rw [hi, hbefore]; rfl, List.forall_mem_cons.mpr ⟨hfirst, hnone⟩,
      hfail.cons hout b⟩

/-- A call that gets no frame at all. -/
theorem explicitOnly_of_failed {w : World}
    (h : w.inbox = [] ∨ ¬ writeOk w.writes player.socket = true) :
    ExplicitOnly parser writeOk lower higher msg player w := by
  obtain ⟨e, w', hr, hkept, he⟩ : ∃ e w',
      (requestInt ⟨parser.left, writeOk⟩ lower higher msg player).run w = .error e w' ∧
        w'.inbox = w.inbox ∧ (e = .exn (.write player.socket) ∧ w'.out = w.out ∨
          e = .exn .read ∧ w'.inbox = [] ∧ w'.out = w.out ++ [query player]) :=
    requestInt_failed msg h
  unfold ExplicitOnly
  rw [hr]
  refine ⟨[], hkept.symm, by simp, ?_⟩
  rcases he with ⟨rfl, hout⟩ | ⟨rfl, hnil, hout⟩
  · exact .noQuery [] (hout.trans (List.append_nil _).symm)
  · exact .noFrame [] hnil (by rw [hout, List.flatMap_nil, List.append_nil])

theorem explicitOnly_of_first : ∀ (inbox : List Bytes) {w : World}, w.inbox = inbox →
    FirstPresent parser writeOk lower higher player w →
      ExplicitOnly parser writeOk lower higher msg player w := by
  intro inbox
  induction inbox with
  | nil =>
    intro w hi _
    exact explicitOnly_of_failed (Or.inl hi)
  | cons b rest ih =>
    intro w hi hfirst
    by_cases hq : writeOk w.writes player.socket = true
    · by_cases hin : InBounds parser lower higher b
      · -- the first frame is taken, and has its option
        have hpresent : Present parser b := by
          refine hfirst [] b rest hi (by simp) hin fun k hk => ?_
          obtain rfl : k = 0 := by simpa using hk
          exact hq
        unfold ExplicitOnly
        rw [requestInt_in msg hi hq hin]
        refine ⟨[], b, hi, hpresent.explicit hin, by simp, ?_⟩
        rw [List.flatMap_nil, List.append_nil]
        rfl
      · have hrun := requestInt_out msg hi hq hin
        by_cases hr : writeOk (w.writes + 1) player.socket = true
        · rw [if_pos hr] at hrun
          suffices hnext : FirstPresent parser writeOk lower higher player
              ((w.sent [query player, refusal msg player]).reading rest) from
            ExplicitOnly.cons hi rfl hin hrun (ih rfl hnext)
          intro before b1 rest1 hi1 hout hin1 hw
          refine hfirst (b :: before) b1 rest1 (by rw [hi, List.cons_append, ← hi1]; rfl)
            (List.forall_mem_cons.mpr ⟨hin, hout⟩) hin1 fun k hk => ?_
          match k with
          | 0 => exact hq
          | 1 => exact hr
          | k + 2 =>
            have hk2 : k ≤ 2 * before.length := by
              rw [List.length_cons] at hk
              omega
            have hwk := hw k hk2
            have hshift : w.writes + (k + 2) = w.writes + 2 + k := by omega
            rw [hshift]
            exact hwk
        · rw [if_neg hr] at hrun
          unfold ExplicitOnly
          rw [hrun]
          refine ⟨[b], hi, fun x hx u hu => ?_, .noRefusal [] b (by simp; rfl)⟩
          rw [List.mem_singleton.mp hx] at hu
          exact hin hu.inBounds
    · exact explicitOnly_of_failed (Or.inr hq)

/-- **Only an explicit choice counts** exactly if the first frame that is read within the bounds has
its option present. -/
theorem explicitOnly_iff (parser : Parser ClientResponse) (writeOk : ℕ → Conn → Bool)
    (lower higher : ℤ) (msg : String) (player : Player) (w : World) :
    ExplicitOnly parser writeOk lower higher msg player w ↔
      FirstPresent parser writeOk lower higher player w := by
  refine ⟨fun h before b rest hi hout hin hw => ?_, explicitOnly_of_first w.inbox rfl⟩
  obtain ⟨w', hr, hrest⟩ := requestInt_reaches msg before hi hout hin hw
  unfold ExplicitOnly at h
  rw [hr] at h
  obtain ⟨before1, b1, hi1, hexp, -, -⟩ := h
  rw [hi, hrest] at hi1
  have hlen : before.length = before1.length := by
    have hlen := congrArg List.length hi1
    simp only [List.length_append, List.length_cons] at hlen
    omega
  obtain ⟨rfl, htail⟩ := List.append_inj hi1 hlen
  cases htail
  exact hexp.present

end Exact

/-- A parser of the frames of two bytes: the tag of the option, and a value below `128`. A message
without an option is empty; anything else is malformed, and leaves the message as it was. -/
def plainParser : Parser ClientResponse where
  decode
    | [] => some ⟨none⟩
    | [8, v] => if v < 128 then some ⟨some v.toNat⟩ else none
    | _ => none
  left
    | [8, v] => if v < 128 then ⟨some v.toNat⟩ else ⟨none⟩
    | _ => ⟨none⟩
  left_decode b m h := by
    split at h
    · cases h
      rfl
    · split_ifs at h with hv
      cases h
      simp only [hv, if_true]
    · cases h

/-- In the menu of `selectAction`, a frame that is cut off behind its tag is taken for option `0`.
-/
theorem cut_frame_plays : ¬ ExplicitOnly plainParser (fun _ _ => true) 0 2
    "Invalid action. Please try again.\n" ⟨"Guest 0", 0⟩
    ⟨Game.ofSession [⟨"Guest 0", 0⟩] 0 Shuffle.unshuffled, [[8]], 0, []⟩ := by
  intro h
  have hin : InBounds plainParser 0 2 [8] := ⟨by decide, by decide⟩
  have hr : (requestInt ⟨plainParser.left, fun _ _ => true⟩ 0 2
      "Invalid action. Please try again.\n" ⟨"Guest 0", 0⟩).run
      ⟨Game.ofSession [⟨"Guest 0", 0⟩] 0 Shuffle.unshuffled, [[8]], 0, []⟩ = _ :=
    requestInt_in _ rfl rfl hin
  unfold ExplicitOnly at h
  rw [hr] at h
  obtain ⟨before, b, hi, ⟨r, hdecode, -⟩, -⟩ := h
  have hall : [[8]] = before ++ b :: [] := hi
  have hb : b ∈ [[8]] := by
    rw [hall]
    exact List.mem_append_right _ List.mem_cons_self
  rw [List.mem_singleton.mp hb] at hdecode
  cases hdecode

end HanabiBot.HanabiGame.Choice
