import HanabiBot.Lib.Calls

/-! # Two runs in step

A statement about two runs of `EStateM` calls: `InStep R V p q` says that from states related by `R`
the calls `p` and `q` either both return, with values related by `V`, or both stop, with the same
error, and leave related states again. The rules go along the structure of the two calls; where the
same call is made of states that differ, `V` says what of its value may depend on the difference.

`Relates R Q E p q` is the same with a precondition `R`, a postcondition `Q` on the values and the
states where both return, and `E` on the states where both stop: it carries what is known of the two
states through calls that change them.

`stop` is the error of a check, if it has one. Two lists of checks fail alike if the checks do, one
by one (`stop_mapM`). -/

namespace HanabiBot.Lib.Pairs

open HanabiBot.Lib.Calls

variable {ε σ α β γ δ : Type}

/-! ### Checks that fail alike -/

/-- The error of a check. -/
def stop : Except ε α → Option ε
  | .ok _ => none
  | .error e => some e

theorem stop_bind {x : Except ε α} {y : Except ε β} {f : α → Except ε γ} {f' : β → Except ε δ}
    (h : stop x = stop y) (hf : ∀ a b, stop (f a) = stop (f' b)) :
    stop (x >>= f) = stop (y >>= f') := by
  cases x with
  | ok a =>
    cases y with
    | ok b => exact hf a b
    | error e => cases h
  | error e =>
    cases y with
    | ok b => cases h
    | error e' => exact h

theorem stop_mapM {f : α → Except ε β} {f' : α → Except ε γ} {l : List α}
    (h : ∀ a ∈ l, stop (f a) = stop (f' a)) : stop (l.mapM f) = stop (l.mapM f') := by
  induction l with
  | nil => rfl
  | cons a l ih =>
    rw [List.mapM_cons, List.mapM_cons]
    refine stop_bind (h a List.mem_cons_self) fun _ _ => ?_
    exact stop_bind (ih fun b hb => h b (List.mem_cons_of_mem _ hb)) fun _ _ => rfl

/-! ### Calls -/

/-- Two results that agree on how the call ended, with values in `V` and states in `R`. -/
def Alike (R : σ → σ → Prop) (V : α → β → Prop) :
    EStateM.Result ε σ α → EStateM.Result ε σ β → Prop
  | .ok a s, .ok b t => V a b ∧ R s t
  | .error e s, .error e' t => e = e' ∧ R s t
  | _, _ => False

/-- `p` and `q` run in step. -/
def InStep (R : σ → σ → Prop) (V : α → β → Prop) (p : EStateM ε σ α) (q : EStateM ε σ β) : Prop :=
  ∀ s t, R s t → Alike R V (p.run s) (q.run t)

section Rules
variable {R : σ → σ → Prop} {V : α → β → Prop} {U : γ → δ → Prop}

theorem Alike.cases {r : EStateM.Result ε σ α} {r' : EStateM.Result ε σ β} (h : Alike R V r r') :
    (∃ a b s t, r = .ok a s ∧ r' = .ok b t ∧ V a b ∧ R s t) ∨
      ∃ e s t, r = .error e s ∧ r' = .error e t ∧ R s t := by
  cases r with
  | ok a s =>
    cases r' with
    | ok b t => exact Or.inl ⟨a, b, s, t, rfl, rfl, h⟩
    | error e t => exact h.elim
  | error e s =>
    cases r' with
    | ok b t => exact h.elim
    | error e' t =>
      obtain ⟨rfl, hR⟩ := h
      exact Or.inr ⟨e, s, t, rfl, rfl, hR⟩

theorem InStep.pure {a : α} {b : β} (h : V a b) :
    InStep R V (Pure.pure a : EStateM ε σ α) (Pure.pure b) := fun _ _ hR => ⟨h, hR⟩

theorem InStep.bind {p : EStateM ε σ α} {q : EStateM ε σ β} {f : α → EStateM ε σ γ}
    {f' : β → EStateM ε σ δ} (h : InStep R V p q) (hf : ∀ a b, V a b → InStep R U (f a) (f' b)) :
    InStep R U (p >>= f) (q >>= f') := by
  intro s t hR
  rcases (h s t hR).cases with ⟨a, b, s', t', hp, hq, hV, hR'⟩ | ⟨e, s', t', hp, hq, hR'⟩
  · rw [bind_ok hp, bind_ok hq]
    exact hf a b hV s' t' hR'
  · rw [bind_error hp, bind_error hq]
    exact ⟨rfl, hR'⟩

/-- Two loops over lists that go together. -/
theorem InStep.forM {T : α → β → Prop} {l : List α} {l' : List β} (hl : List.Forall₂ T l l')
    {f : α → EStateM ε σ PUnit} {f' : β → EStateM ε σ PUnit}
    (h : ∀ a b, T a b → InStep R (fun _ _ => True) (f a) (f' b)) :
    InStep R (fun _ _ => True) (l.forM f) (l'.forM f') := by
  induction hl with
  | nil => exact InStep.pure trivial
  | cons hab _ ih => exact InStep.bind (h _ _ hab) fun _ _ _ => ih

/-- How two runs in step end. -/
theorem InStep.after {p : EStateM ε σ α} {q : EStateM ε σ β} (h : InStep R V p q) {s t : σ}
    (hR : R s t) : R (after p s) (after q t) ∧
      ∀ e, (∃ s', p.run s = .error e s') ↔ ∃ t', q.run t = .error e t' := by
  rcases (h s t hR).cases with ⟨a, b, s', t', hp, hq, -, hR'⟩ | ⟨e, s', t', hp, hq, hR'⟩
  · rw [after_of_ok hp, after_of_ok hq, hp, hq]
    exact ⟨hR', fun e => iff_of_false (by rintro ⟨_, h⟩; cases h) (by rintro ⟨_, h⟩; cases h)⟩
  · rw [after_of_error hp, after_of_error hq, hp, hq]
    exact ⟨hR', fun e' => by simp⟩

end Rules

/-! ### Pre- and postconditions -/

/-- Two results that agree on how the call ended, with `Q` where it returned and `E` where it
stopped. -/
def Both (Q : α → β → σ → σ → Prop) (E : σ → σ → Prop) :
    EStateM.Result ε σ α → EStateM.Result ε σ β → Prop
  | .ok a s, .ok b t => Q a b s t
  | .error e s, .error e' t => e = e' ∧ E s t
  | _, _ => False

/-- From states in `R`, `p` and `q` end with `Q`, or stop alike with `E`. -/
def Relates (R : σ → σ → Prop) (Q : α → β → σ → σ → Prop) (E : σ → σ → Prop) (p : EStateM ε σ α)
    (q : EStateM ε σ β) : Prop := ∀ s t, R s t → Both Q E (p.run s) (q.run t)

section Triples
variable {R R' E E' : σ → σ → Prop} {Q Q' : α → β → σ → σ → Prop} {U : γ → δ → σ → σ → Prop}
  {p : EStateM ε σ α} {q : EStateM ε σ β}

theorem Both.mono {r : EStateM.Result ε σ α} {r' : EStateM.Result ε σ β} (h : Both Q E r r')
    (hQ : ∀ a b s t, Q a b s t → Q' a b s t) (hE : ∀ s t, E s t → E' s t) : Both Q' E' r r' := by
  cases r with
  | ok a s =>
    cases r' with
    | ok b t => exact hQ a b s t h
    | error e t => exact h.elim
  | error e s =>
    cases r' with
    | ok b t => exact h.elim
    | error e' t => exact ⟨h.1, hE s t h.2⟩

theorem Relates.mono (h : Relates R Q E p q) (hR : ∀ s t, R' s t → R s t)
    (hQ : ∀ a b s t, Q a b s t → Q' a b s t) : Relates R' Q' E p q :=
  fun s t h' => Both.mono (h s t (hR s t h')) hQ fun _ _ hE => hE

theorem Relates.pure {a : α} {b : β} (h : ∀ s t, R s t → Q a b s t) :
    Relates R Q E (Pure.pure a : EStateM ε σ α) (Pure.pure b) := h

theorem Relates.throw {e : ε} (h : ∀ s t, R s t → E s t) :
    Relates R Q E (throw e : EStateM ε σ α) (throw e : EStateM ε σ β) :=
  fun s t hR => ⟨rfl, h s t hR⟩

/-- What is known of the two states may depend on a value, and say more than of states. -/
theorem Relates.of_exists {ι : Type} {P : ι → σ → σ → Prop} (h : ∀ x, Relates (P x) Q E p q) :
    Relates (fun s t => ∃ x, P x s t) Q E p q := fun s t hR => h hR.choose s t hR.choose_spec

theorem Relates.of_and {P : Prop} (h : P → Relates R Q E p q) :
    Relates (fun s t => P ∧ R s t) Q E p q := fun s t hR => h hR.1 s t hR.2

/-- Calls that run in step are related. -/
theorem InStep.relates {V : α → β → Prop} (h : InStep R V p q) : Relates R (fun _ _ => R) R p q := by
  intro s t hR
  rcases (h s t hR).cases with ⟨a, b, s', t', hp, hq, -, hR'⟩ | ⟨e, s', t', hp, hq, hR'⟩
  · rw [hp, hq]
    exact hR'
  · rw [hp, hq]
    exact ⟨rfl, hR'⟩

/-- The states two calls leave, if it is no matter how they end. -/
theorem Both.after {s t : σ} (h : Both (fun _ _ => E) E (p.run s) (q.run t)) :
    E (after p s) (after q t) := by
  cases hp : p.run s with
  | ok a s' =>
    cases hq : q.run t with
    | ok b t' =>
      rw [hp, hq] at h
      rw [after_of_ok hp, after_of_ok hq]
      exact h
    | error e t' =>
      rw [hp, hq] at h
      exact h.elim
  | error e s' =>
    cases hq : q.run t with
    | ok b t' =>
      rw [hp, hq] at h
      exact h.elim
    | error e' t' =>
      rw [hp, hq] at h
      rw [after_of_error hp, after_of_error hq]
      exact h.2

/-- What follows two calls, knowing how the first of them has ended. -/
theorem Both.bind {s t : σ} (h : Both Q E (p.run s) (q.run t)) {f : α → EStateM ε σ γ}
    {f' : β → EStateM ε σ δ} (hf : ∀ a b s' t', p.run s = .ok a s' → Q a b s' t' →
      Both U E ((f a).run s') ((f' b).run t')) : Both U E ((p >>= f).run s) ((q >>= f').run t) := by
  cases hp : p.run s with
  | ok a s' =>
    cases hq : q.run t with
    | ok b t' =>
      rw [hp, hq] at h
      rw [bind_ok hp, bind_ok hq]
      exact hf a b s' t' hp h
    | error e t' =>
      rw [hp, hq] at h
      exact h.elim
  | error e s' =>
    cases hq : q.run t with
    | ok b t' =>
      rw [hp, hq] at h
      exact h.elim
    | error e' t' =>
      rw [hp, hq] at h
      rw [bind_error hp, bind_error hq]
      exact h

theorem Relates.bind (h : Relates R Q E p q) {f : α → EStateM ε σ γ} {f' : β → EStateM ε σ δ}
    (hf : ∀ a b, Relates (Q a b) U E (f a) (f' b)) : Relates R U E (p >>= f) (q >>= f') :=
  fun s t hR => Both.bind (h s t hR) fun a b s' t' _ hQ => hf a b s' t' hQ

theorem Relates.forM {T : α → β → Prop} {l : List α} {l' : List β} (hl : List.Forall₂ T l l')
    {f : α → EStateM ε σ PUnit} {f' : β → EStateM ε σ PUnit}
    (h : ∀ a b, T a b → Relates R (fun _ _ => R) E (f a) (f' b)) :
    Relates R (fun _ _ => R) E (l.forM f) (l'.forM f') := by
  induction hl with
  | nil => exact Relates.pure fun _ _ hR => hR
  | cons hab _ ih => exact Relates.bind (h _ _ hab) fun _ _ => ih

/-- Two rounds that both go on, in `R`, or both end, with `Q`. -/
def Rounds (R : σ → σ → Prop) (Q : α → β → σ → σ → Prop) :
    Option α → Option β → σ → σ → Prop
  | some a, some b => Q a b
  | none, none => R
  | _, _ => fun _ _ => False

/-- **The loop rule for two loops**: a round keeps `R`, or ends both loops with `Q`. -/
theorem Relates.untilSome {stuck : ε} {size : σ → ℕ} {body : EStateM ε σ (Option α)}
    {body' : EStateM ε σ (Option β)} (hsize : ∀ s t, R s t → size t = size s)
    (hE : ∀ s t, R s t → E s t)
    (hbody : Relates R (Rounds R Q) E body body') :
    Relates R Q E (untilSome stuck size body) (untilSome stuck size body') := by
  have hloop : ∀ n, Relates R Q E (loop stuck body n) (loop stuck body' n) := by
    intro n
    induction n with
    | zero => exact fun s t hR => ⟨rfl, hE s t hR⟩
    | succ n ih =>
      refine hbody.bind fun o o' => ?_
      cases o with
      | some a =>
        cases o' with
        | some b => exact Relates.pure fun _ _ hQ => hQ
        | none => exact fun _ _ h => h.elim
      | none =>
        cases o' with
        | some b => exact fun _ _ h => h.elim
        | none => exact ih
  intro s t hR
  have h := hloop (size s + 1) s t hR
  unfold Calls.untilSome
  show Both Q E ((loop stuck body (size s + 1)).run s) ((loop stuck body' (size t + 1)).run t)
  rw [hsize s t hR]
  exact h

end Triples

end HanabiBot.Lib.Pairs
