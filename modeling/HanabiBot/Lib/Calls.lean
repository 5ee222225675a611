import Mathlib.Data.List.Basic

/-! # Calls with a state, exceptions and loops that read input

Imperative code is written in core's `EStateM ε σ`: a call takes the state, ends with a value or
with an error, and what it did to the state before the error stays done.

* `after p s` is the state `p` leaves, however it ends. A `Frame` is a reflexive and transitive
  relation on states; `Keeps F p` says that `p` moves the state within `F`. The rules `Keeps.bind`,
  `Keeps.forM`, `Keeps.untilSome` carry it through a program.
* `Within I E p` says that `p` keeps the invariant `I`, and that where it fails, `E` holds of the
  error and the state it leaves. `Within I (fun _ _ => False) p` says that it does not fail.
* `untilSome size body` is the loop that runs `body` until it yields a value. It spends one unit of
  fuel a round, `size s + 1` in all; a body that shrinks `size` on every round without a value
  (`Shrinks`, as a body that reads an input does) never runs out of it (`untilSome_eq`), and
  `untilSome_rule` is the induction over its rounds. -/

namespace HanabiBot.Lib.Calls

variable {ε σ α β : Type}

/-! ### Sequencing -/

theorem bind_ok {p : EStateM ε σ α} {f : α → EStateM ε σ β} {s s' : σ} {a : α}
    (h : p.run s = .ok a s') : (p >>= f).run s = (f a).run s' := by
  rw [EStateM.run_bind, h]

theorem bind_error {p : EStateM ε σ α} {f : α → EStateM ε σ β} {s s' : σ} {e : ε}
    (h : p.run s = .error e s') : (p >>= f).run s = .error e s' := by
  rw [EStateM.run_bind, h]

/-- A call is either finished with a value, and the rest runs, or stops the whole. -/
theorem bind_cases (p : EStateM ε σ α) (f : α → EStateM ε σ β) (s : σ) :
    (∃ a s', p.run s = .ok a s' ∧ (p >>= f).run s = (f a).run s') ∨
      ∃ e s', p.run s = .error e s' ∧ (p >>= f).run s = .error e s' := by
  cases h : p.run s with
  | ok a s' => exact Or.inl ⟨a, s', rfl, bind_ok h⟩
  | error e s' => exact Or.inr ⟨e, s', rfl, bind_error h⟩

/-- What a sequence that ends with a value went through. -/
theorem bind_eq_ok {p : EStateM ε σ α} {f : α → EStateM ε σ β} {s s'' : σ} {b : β}
    (h : (p >>= f).run s = .ok b s'') :
    ∃ a s', p.run s = .ok a s' ∧ (f a).run s' = .ok b s'' := by
  rcases bind_cases p f s with ⟨a, s', hp, hb⟩ | ⟨e, s', hp, hb⟩
  · exact ⟨a, s', hp, hb ▸ h⟩
  · rw [hb] at h; cases h

theorem run_map (f : α → β) (p : EStateM ε σ α) (s : σ) :
    (f <$> p).run s =
      match p.run s with
      | .ok a s' => .ok (f a) s'
      | .error e s' => .error e s' := rfl

/-! ### The state a call leaves -/

/-- The state `p` leaves, however it ends. -/
def after (p : EStateM ε σ α) (s : σ) : σ :=
  match p.run s with
  | .ok _ s' => s'
  | .error _ s' => s'

theorem after_of_ok {p : EStateM ε σ α} {s s' : σ} {a : α} (h : p.run s = .ok a s') :
    after p s = s' := by unfold after; rw [h]

theorem after_of_error {p : EStateM ε σ α} {s s' : σ} {e : ε} (h : p.run s = .error e s') :
    after p s = s' := by unfold after; rw [h]

theorem after_bind_ok {p : EStateM ε σ α} {f : α → EStateM ε σ β} {s s' : σ} {a : α}
    (h : p.run s = .ok a s') : after (p >>= f) s = after (f a) s' := by
  unfold after
  rw [bind_ok h]

/-- A reflexive and transitive relation between the state before and the state after. -/
structure Frame (σ : Type) where
  rel : σ → σ → Prop
  refl : ∀ s, rel s s
  trans : ∀ {s t u}, rel s t → rel t u → rel s u

/-- The states that agree on what `f` shows. -/
def Frame.same {γ : Type} (f : σ → γ) : Frame σ where
  rel s t := f t = f s
  refl _ := rfl
  trans h h' := h'.trans h

/-- `p` moves the state within `F`. -/
def Keeps (F : Frame σ) (p : EStateM ε σ α) : Prop := ∀ s, F.rel s (after p s)

section Keeps
variable {F : Frame σ}

theorem Keeps.of_ok {p : EStateM ε σ α} (h : Keeps F p) {s s' : σ} {a : α}
    (hp : p.run s = .ok a s') : F.rel s s' := after_of_ok hp ▸ h s

theorem Keeps.of_error {p : EStateM ε σ α} (h : Keeps F p) {s s' : σ} {e : ε}
    (hp : p.run s = .error e s') : F.rel s s' := after_of_error hp ▸ h s

theorem Keeps.mono {G : Frame σ} {p : EStateM ε σ α} (h : Keeps F p)
    (hFG : ∀ s t, F.rel s t → G.rel s t) : Keeps G p := fun s => hFG _ _ (h s)

theorem Keeps.pure (a : α) : Keeps F (Pure.pure a : EStateM ε σ α) := fun s => F.refl s

theorem Keeps.throw (e : ε) : Keeps F (throw e : EStateM ε σ α) := fun s => F.refl s

theorem Keeps.bind {p : EStateM ε σ α} {f : α → EStateM ε σ β} (hp : Keeps F p)
    (hf : ∀ a, Keeps F (f a)) : Keeps F (p >>= f) := by
  intro s
  rcases bind_cases p f s with ⟨a, s', h, hb⟩ | ⟨e, s', h, hb⟩
  · have h2 := hf a s'
    unfold after at h2 ⊢
    rw [hb]
    exact F.trans (hp.of_ok h) h2
  · rw [after_of_error hb]
    exact hp.of_error h

/-- What follows a call moves on within `F` from where the call ended. -/
theorem Keeps.after_bind {p : EStateM ε σ α} {f : α → EStateM ε σ β} (hf : ∀ a, Keeps F (f a))
    (s : σ) : F.rel (after p s) (after (p >>= f) s) := by
  rcases bind_cases p f s with ⟨a, s', h, hb⟩ | ⟨e, s', h, hb⟩
  · have h2 := hf a s'
    unfold after at h2 ⊢
    rw [hb, h]
    exact h2
  · rw [after_of_error h, after_of_error hb]
    exact F.refl s'

theorem Keeps.ite {c : Prop} [Decidable c] {p q : EStateM ε σ α} (hp : Keeps F p)
    (hq : Keeps F q) : Keeps F (if c then p else q) := by split <;> assumption

theorem Keeps.forM {l : List β} {f : β → EStateM ε σ PUnit} (h : ∀ b ∈ l, Keeps F (f b)) :
    Keeps F (l.forM f) := by
  induction l with
  | nil => exact Keeps.pure _
  | cons b l ih =>
    exact Keeps.bind (h b (by simp)) fun _ => ih fun b' hb' => h b' (by simp [hb'])

end Keeps

/-! ### Invariants, and how a call fails -/

/-- `p` keeps `I`; where it fails, `E` holds. -/
def Within (I : σ → Prop) (E : ε → σ → Prop) (p : EStateM ε σ α) : Prop :=
  ∀ s, I s →
    match p.run s with
    | .ok _ s' => I s'
    | .error e s' => E e s'

section Within
variable {I : σ → Prop} {E : ε → σ → Prop}

theorem Within.of_ok {p : EStateM ε σ α} (h : Within I E p) {s s' : σ} {a : α} (hI : I s)
    (hp : p.run s = .ok a s') : I s' := by
  have := h s hI
  rw [hp] at this
  exact this

theorem Within.of_error {p : EStateM ε σ α} (h : Within I E p) {s s' : σ} {e : ε} (hI : I s)
    (hp : p.run s = .error e s') : E e s' := by
  have := h s hI
  rw [hp] at this
  exact this

theorem Within.run_ok {p : EStateM ε σ α} (h : Within I (fun _ _ => False) p) {s : σ} (hI : I s) :
    ∃ a s', p.run s = .ok a s' ∧ I s' := by
  cases hp : p.run s with
  | ok a s' => exact ⟨a, s', rfl, h.of_ok hI hp⟩
  | error e s' => exact (h.of_error hI hp).elim

theorem Within.pure (a : α) : Within I E (Pure.pure a : EStateM ε σ α) := fun _ hI => hI

theorem Within.throw {e : ε} (h : ∀ s, I s → E e s) : Within I E (throw e : EStateM ε σ α) := h

theorem Within.bind {p : EStateM ε σ α} {f : α → EStateM ε σ β} (hp : Within I E p)
    (hf : ∀ a, Within I E (f a)) : Within I E (p >>= f) := by
  intro s hI
  rcases bind_cases p f s with ⟨a, s', h, hb⟩ | ⟨e, s', h, hb⟩
  · rw [hb]
    exact hf a s' (hp.of_ok hI h)
  · rw [hb]
    exact hp.of_error hI h

/-- A sequence that never gets beyond its first call. -/
theorem Within.bind_error {p : EStateM ε σ α} {f : α → EStateM ε σ β} (hp : Within I E p)
    (hstop : ∀ s, I s → ∃ e s', p.run s = .error e s') : Within I E (p >>= f) := by
  intro s hI
  obtain ⟨e, s', h⟩ := hstop s hI
  rw [Calls.bind_error h]
  exact hp.of_error hI h

theorem Within.ite {c : Prop} [Decidable c] {p q : EStateM ε σ α} (hp : Within I E p)
    (hq : Within I E q) : Within I E (if c then p else q) := by split <;> assumption

theorem Within.forM {l : List β} {f : β → EStateM ε σ PUnit} (h : ∀ b ∈ l, Within I E (f b)) :
    Within I E (l.forM f) := by
  induction l with
  | nil => exact Within.pure _
  | cons b l ih =>
    exact Within.bind (h b (by simp)) fun _ => ih fun b' hb' => h b' (by simp [hb'])

/-- A loop over a list fails if it comes to an element on which its body fails. -/
theorem forM_error {l : List β} {f : β → EStateM ε σ PUnit} {b : β} (hb : b ∈ l)
    (hstop : ∀ s, I s → ∃ e s', (f b).run s = .error e s')
    (h : ∀ c ∈ l, ∀ s s', I s → (f c).run s = .ok ⟨⟩ s' → I s') {s : σ} (hI : I s) :
    ∃ e s', (l.forM f).run s = .error e s' := by
  induction l generalizing s with
  | nil => cases hb
  | cons c l ih =>
    rcases bind_cases (f c) (fun _ => l.forM f) s with ⟨_, s', hc, hrun⟩ | ⟨e, s', hc, hrun⟩
    · rw [List.forM, hrun]
      rcases List.mem_cons.mp hb with rfl | hb
      · obtain ⟨e, s'', he⟩ := hstop s hI
        cases hc.symm.trans he
      · exact ih hb (fun d hd => h d (List.mem_cons_of_mem _ hd))
          (h c List.mem_cons_self s s' hI hc)
    · exact ⟨e, s', hrun⟩

end Within

/-! ### Loops -/

/-- `body` until it yields a value, `n` rounds at most; `stuck` is the error of an empty tank. -/
def loop (stuck : ε) (body : EStateM ε σ (Option α)) : ℕ → EStateM ε σ α
  | 0 => throw stuck
  | n + 1 => body >>= fun o =>
    match o with
    | some a => pure a
    | none => loop stuck body n

/-- `body` until it yields a value, with fuel for the `size` of the state it starts in. -/
def untilSome (stuck : ε) (size : σ → ℕ) (body : EStateM ε σ (Option α)) : EStateM ε σ α :=
  fun s => (loop stuck body (size s + 1)).run s

/-- A round without a value leaves a smaller state. -/
def Shrinks (size : σ → ℕ) (body : EStateM ε σ (Option α)) : Prop :=
  ∀ s s', body.run s = .ok none s' → size s' < size s

section Loops
variable {stuck : ε} {size : σ → ℕ} {body : EStateM ε σ (Option α)}

theorem loop_some {s s' : σ} {a : α} (n : ℕ) (h : body.run s = .ok (some a) s') :
    (loop stuck body (n + 1)).run s = .ok a s' := by
  unfold loop
  rw [bind_ok h]
  rfl

theorem loop_none {s s' : σ} (n : ℕ) (h : body.run s = .ok none s') :
    (loop stuck body (n + 1)).run s = (loop stuck body n).run s' := by
  conv_lhs => unfold loop
  rw [bind_ok h]

theorem loop_error {s s' : σ} {e : ε} (n : ℕ) (h : body.run s = .error e s') :
    (loop stuck body (n + 1)).run s = .error e s' := by
  unfold loop
  rw [bind_error h]

/-- Fuel above the size of the state makes no difference. -/
theorem loop_fuel (hs : Shrinks size body) : ∀ (n m : ℕ) (s : σ), size s < n → size s < m →
    (loop stuck body n).run s = (loop stuck body m).run s
  | 0, _, _, h, _ => absurd h (Nat.not_lt_zero _)
  | _ + 1, 0, _, _, h => absurd h (Nat.not_lt_zero _)
  | n + 1, m + 1, s, hn, hm => by
    cases h : body.run s with
    | error e s' => rw [loop_error n h, loop_error m h]
    | ok o s' =>
      cases o with
      | some a => rw [loop_some n h, loop_some m h]
      | none =>
        have hlt := hs s s' h
        rw [loop_none n h, loop_none m h]
        exact loop_fuel hs n m s' (by omega) (by omega)

theorem untilSome_some {s s' : σ} {a : α} (h : body.run s = .ok (some a) s') :
    (untilSome stuck size body).run s = .ok a s' := loop_some _ h

theorem untilSome_error {s s' : σ} {e : ε} (h : body.run s = .error e s') :
    (untilSome stuck size body).run s = .error e s' := loop_error _ h

/-- **The fuel suffices**: after a round without a value the loop goes on as from a fresh start. -/
theorem untilSome_eq (hs : Shrinks size body) {s s' : σ} (h : body.run s = .ok none s') :
    (untilSome stuck size body).run s = (untilSome stuck size body).run s' := by
  have hlt := hs s s' h
  have hloop : (loop stuck body (size s + 1)).run s = (loop stuck body (size s)).run s' :=
    loop_none (size s) h
  exact hloop.trans (loop_fuel hs _ _ s' (by omega) (by omega))

/-- **The loop rule**: what holds of a last round, and carries over from the rest of the loop to a
round without a value, holds of the loop. -/
theorem untilSome_rule (stuck : ε) (hs : Shrinks size body) {P : σ → EStateM.Result ε σ α → Prop}
    (hsome : ∀ s a s', body.run s = .ok (some a) s' → P s (.ok a s'))
    (hnone : ∀ s s' r, body.run s = .ok none s' → P s' r → P s r)
    (herr : ∀ s e s', body.run s = .error e s' → P s (.error e s')) (s : σ) :
    P s ((untilSome stuck size body).run s) := by
  induction hn : size s using Nat.strongRecOn generalizing s with
  | _ n ih =>
    cases h : body.run s with
    | error e s' => rw [untilSome_error h]; exact herr s e s' h
    | ok o s' =>
      cases o with
      | some a => rw [untilSome_some h]; exact hsome s a s' h
      | none =>
        rw [untilSome_eq hs h]
        exact hnone s s' _ h (ih _ (hn ▸ hs s s' h) s' rfl)

/-- What is made of the value of the last round can be made of the value of the loop. -/
theorem untilSome_map (stuck : ε) (size : σ → ℕ) (f : α → β) (body : EStateM ε σ (Option α)) :
    untilSome stuck size (Option.map f <$> body) = f <$> untilSome stuck size body := by
  have hloop : ∀ n, loop stuck (Option.map f <$> body) n = f <$> loop stuck body n := by
    intro n
    induction n with
    | zero => rfl
    | succ n ih =>
      unfold loop
      rw [bind_map_left, map_bind]
      refine bind_congr fun o => ?_
      cases o with
      | some a => rfl
      | none => exact ih
  funext s
  exact congrFun (hloop (size s + 1)) s

theorem Within.untilSome {I : σ → Prop} {E : ε → σ → Prop} (hs : Shrinks size body)
    (h : Within I E body) : Within I E (Calls.untilSome stuck size body) := by
  intro s
  refine untilSome_rule stuck hs
    (P := fun s r => I s → match r with | .ok _ s' => I s' | .error e s' => E e s') ?_ ?_ ?_ s
  · intro s a s' hr hI
    exact h.of_ok hI hr
  · intro s s' r hr ih hI
    exact ih (h.of_ok hI hr)
  · intro s e s' hr hI
    exact h.of_error hI hr

theorem Keeps.loop {F : Frame σ} (h : Keeps F body) (n : ℕ) :
    Keeps F (Calls.loop stuck body n) := by
  induction n with
  | zero => exact Keeps.throw stuck
  | succ n ih =>
    refine Keeps.bind h fun o => ?_
    cases o with
    | some a => exact Keeps.pure a
    | none => exact ih

theorem Keeps.untilSome {F : Frame σ} (h : Keeps F body) :
    Keeps F (Calls.untilSome stuck size body) := fun s => h.loop (size s + 1) s

/-- The rounds of a loop move on within `F` from where the first round ended. -/
theorem Keeps.after_untilSome (stuck : ε) {F : Frame σ} (h : Keeps F body)
    (hs : Shrinks size body) (s : σ) :
    F.rel (after body s) (after (Calls.untilSome stuck size body) s) := by
  cases hr : body.run s with
  | error e s' =>
    rw [after_of_error hr, after_of_error (untilSome_error hr)]
    exact F.refl s'
  | ok o s' =>
    rw [after_of_ok hr]
    cases o with
    | some a =>
      rw [after_of_ok (untilSome_some hr)]
      exact F.refl s'
    | none =>
      have hrest : F.rel s' (after (Calls.untilSome stuck size body) s') := h.untilSome s'
      unfold after at hrest ⊢
      rw [untilSome_eq hs hr]
      exact hrest

end Loops

/-! ### Lists of checks -/

/-- A check is not affected by what is made of its value. -/
theorem ok_map_iff {x : Except ε α} {f : α → β} :
    (∃ b, (x >>= fun a => Except.ok (f a)) = .ok b) ↔ ∃ a, x = .ok a := by
  cases x with
  | error e => exact iff_of_false (by rintro ⟨_, h⟩; cases h) (by rintro ⟨_, h⟩; cases h)
  | ok a => exact iff_of_true ⟨_, rfl⟩ ⟨_, rfl⟩

/-- A list of checks succeeds if each of them does. -/
theorem mapM_ok_iff {f : α → Except ε β} {l : List α} :
    (∃ bs, l.mapM f = .ok bs) ↔ ∀ a ∈ l, ∃ b, f a = .ok b := by
  induction l with
  | nil => exact iff_of_true ⟨[], rfl⟩ (by simp)
  | cons a l ih =>
    rw [List.forall_mem_cons, ← ih, List.mapM_cons]
    cases f a with
    | error e => exact iff_of_false (by rintro ⟨bs, h⟩; cases h) (by rintro ⟨⟨b, h⟩, -⟩; cases h)
    | ok b =>
      rw [and_iff_right ⟨b, rfl⟩]
      cases l.mapM f with
      | error e => exact iff_of_false (by rintro ⟨bs, h⟩; cases h) (by rintro ⟨bs, h⟩; cases h)
      | ok bs => exact iff_of_true ⟨b :: bs, rfl⟩ ⟨bs, rfl⟩

end HanabiBot.Lib.Calls
