import Mathlib.Data.Int.Notation
import Mathlib.Data.List.Basic
import Mathlib.Data.List.Induction
import Mathlib.Tactic.Tauto
import Mathlib.Tactic.TypeStar

/-! # Runs of a step function

A system is a step function `step : S → L → Option S`: from the state `s` the label `l` leads to
`step s l`, or is not enabled. A run is written as its list of labels; a label that is not enabled
ends it. `Along step E s ls` says that `E` holds of every label of the run in the state it meets,
`States step P s ls` that `P` holds of every state the run passes through, its start included.

`trace step out s ls` is what the labels of the run give out. Two runs of the same labels are a run
of `both step`, and `trace_eq` is the rule that compares what they give out.

`Since step A B s ls` is the history of a run: `A` held of a label, and `B` of none after it.
`Sometime step E s ls` says that `E` held at some moment of it.

The two rules are `along_of_inv` (a condition on the steps under which an invariant is kept gives
what the invariant implies, step by step) and `states_iff` (if a step outside the condition leaves
`P`, the condition is exact). -/

namespace HanabiBot.Lib.Runs

variable {S L : Type*} {step : S → L → Option S}

/-- `E` holds of every label of the run, in the state that label meets. -/
def Along (step : S → L → Option S) (E : S → L → Prop) : S → List L → Prop
  | _, [] => True
  | s, l :: ls => E s l ∧ ∀ s', step s l = some s' → Along step E s' ls

/-- `P` holds of every state the run passes through. -/
def States (step : S → L → Option S) (P : S → Prop) (s : S) (ls : List L) : Prop :=
  P s ∧ Along step (fun s l => ∀ s', step s l = some s' → P s') s ls

/-- The state in which the run ends. -/
def last (step : S → L → Option S) : S → List L → S
  | s, [] => s
  | s, l :: ls =>
    match step s l with
    | some s' => last step s' ls
    | none => s

@[simp] theorem along_nil (E : S → L → Prop) (s : S) : Along step E s [] := trivial

theorem along_cons {E : S → L → Prop} {s : S} {l : L} {ls : List L} :
    Along step E s (l :: ls) ↔ E s l ∧ ∀ s', step s l = some s' → Along step E s' ls := Iff.rfl

theorem along_cons_some {E : S → L → Prop} {s s' : S} {l : L} {ls : List L}
    (h : step s l = some s') : Along step E s (l :: ls) ↔ E s l ∧ Along step E s' ls := by
  rw [along_cons, h]
  simp

theorem along_cons_none {E : S → L → Prop} {s : S} {l : L} {ls : List L}
    (h : step s l = none) : Along step E s (l :: ls) ↔ E s l := by
  rw [along_cons, h]
  simp

/-- Whether a given run satisfies a decidable condition can be computed. -/
instance decidableAlong {E : S → L → Prop} [∀ s l, Decidable (E s l)] :
    ∀ (s : S) (ls : List L), Decidable (Along step E s ls)
  | _, [] => isTrue trivial
  | s, l :: ls =>
    match h : step s l with
    | none => decidable_of_iff (E s l) (along_cons_none h).symm
    | some s' =>
      have : Decidable (Along step E s' ls) := decidableAlong s' ls
      decidable_of_iff (E s l ∧ Along step E s' ls) (along_cons_some h).symm

theorem along_of_forall {E : S → L → Prop} (h : ∀ s l, E s l) :
    ∀ (s : S) (ls : List L), Along step E s ls
  | _, [] => trivial
  | s, l :: ls => ⟨h s l, fun s' _ => along_of_forall h s' ls⟩

/-- **The invariant rule.** If the steps that satisfy `C` keep `I`, and `I` and `C` give `Q`, then
a run that satisfies `C` throughout satisfies `Q` throughout. -/
theorem along_of_inv {C Q : S → L → Prop} {I : S → Prop}
    (hstep : ∀ s l s', I s → C s l → step s l = some s' → I s')
    (hQ : ∀ s l, I s → C s l → Q s l) :
    ∀ {s : S} {ls : List L}, I s → Along step C s ls → Along step Q s ls
  | _, [], _, _ => trivial
  | s, l :: _, hI, ⟨hC, hrest⟩ =>
    ⟨hQ s l hI hC, fun s' hs' => along_of_inv hstep hQ (hstep s l s' hI hC hs') (hrest s' hs')⟩

/-- **The exactness rule.** Where `Q` and `C` agree in the states of the invariant, and the steps
of `C` keep it, they agree along whole runs. -/
theorem along_iff {C Q : S → L → Prop} {I : S → Prop}
    (hstep : ∀ s l s', I s → C s l → step s l = some s' → I s')
    (hQ : ∀ s l, I s → (Q s l ↔ C s l)) {s : S} (hI : I s) (ls : List L) :
    Along step Q s ls ↔ Along step C s ls := by
  induction ls generalizing s with
  | nil => exact Iff.rfl
  | cons l ls ih =>
    rw [along_cons, along_cons, hQ s l hI]
    constructor
    · rintro ⟨hC, hrest⟩
      exact ⟨hC, fun s' hs' => (ih (hstep s l s' hI hC hs')).mp (hrest s' hs')⟩
    · rintro ⟨hC, hrest⟩
      exact ⟨hC, fun s' hs' => (ih (hstep s l s' hI hC hs')).mpr (hrest s' hs')⟩

/-- An invariant kept by the steps that satisfy `C` holds in every state of a run of `C`. -/
theorem states_of_inv {C : S → L → Prop} {I P : S → Prop}
    (hstep : ∀ s l s', I s → C s l → step s l = some s' → I s') (hP : ∀ s, I s → P s)
    {s : S} {ls : List L} (hI : I s) (hC : Along step C s ls) : States step P s ls :=
  ⟨hP s hI, along_of_inv hstep (fun s l hI hC s' hs' => hP s' (hstep s l s' hI hC hs')) hI hC⟩

/-- **The exactness rule for states.** If moreover a step outside `C`, taken in a state of the
invariant, leads to a state without `P`, then `P` holds throughout a run exactly when `C` does. -/
theorem states_iff {C : S → L → Prop} {I P : S → Prop}
    (hstep : ∀ s l s', I s → C s l → step s l = some s' → I s') (hP : ∀ s, I s → P s)
    (hbad : ∀ s l, I s → ¬ C s l → ∃ s', step s l = some s' ∧ ¬ P s') {s : S} (hI : I s)
    (ls : List L) : States step P s ls ↔ Along step C s ls := by
  refine ⟨fun h => ?_, states_of_inv hstep hP hI⟩
  refine (along_iff hstep (fun s l hI => ⟨fun hQ => ?_, fun hC s' hs' => ?_⟩) hI ls).mp h.2
  · by_contra hC
    obtain ⟨s', hs', hn⟩ := hbad s l hI hC
    exact hn (hQ s' hs')
  · exact hP s' (hstep s l s' hI hC hs')

/-- The state a run reaches, if all its labels are enabled. -/
def reach (step : S → L → Option S) : S → List L → Option S
  | s, [] => some s
  | s, l :: ls =>
    match step s l with
    | some s' => reach step s' ls
    | none => none

/-- What holds along a run holds of a label behind it, in the state the run reaches. -/
theorem Along.at_reach {E : S → L → Prop} {l : L} : ∀ {s s' : S} {ls : List L},
    reach step s ls = some s' → Along step E s (ls ++ [l]) → E s' l
  | s, s', [], hr, h => by
    cases hr
    exact h.1
  | s, s', k :: ls, hr, h => by
    unfold reach at hr
    cases hk : step s k with
    | none => rw [hk] at hr; cases hr
    | some s'' =>
      rw [hk] at hr
      exact Along.at_reach hr (h.2 s'' hk)

/-- An invariant of all steps holds in the states that are reached. -/
theorem inv_reach {I : S → Prop} (hstep : ∀ s l s', I s → step s l = some s' → I s') :
    ∀ {s s' : S} {ls : List L}, I s → reach step s ls = some s' → I s'
  | s, s', [], hI, hr => by
    cases hr
    exact hI
  | s, s', k :: ls, hI, hr => by
    unfold reach at hr
    cases hk : step s k with
    | none => rw [hk] at hr; cases hr
    | some s'' =>
      rw [hk] at hr
      exact inv_reach hstep (hstep s k s'' hI hk) hr

/-- So does an invariant of the steps of `C`, in runs of `C`. -/
theorem inv_reach_along {C : S → L → Prop} {I : S → Prop}
    (hstep : ∀ s l s', I s → C s l → step s l = some s' → I s') :
    ∀ {s s' : S} {ls : List L}, I s → Along step C s ls → reach step s ls = some s' → I s'
  | s, s', [], hI, _, hr => by
    cases hr
    exact hI
  | s, s', l :: ls, hI, ⟨hC, hrest⟩, hr => by
    unfold reach at hr
    cases hl : step s l with
    | none => rw [hl] at hr; cases hr
    | some s1 =>
      rw [hl] at hr
      exact inv_reach_along hstep (hstep s l s1 hI hC hl) (hrest s1 hl) hr

theorem rel_mono {A B : Type*} {R R' : A → B → Prop} {o : Option A} {o' : Option B}
    (h : Option.Rel R o o') (hR : ∀ a b, o = some a → R a b → R' a b) : Option.Rel R' o o' := by
  cases h with
  | none => exact .none
  | some hab => exact .some (hR _ _ rfl hab)

/-- **Lockstep.** If related states go to related states, or both nowhere, then so do the runs from
them. -/
theorem reach_rel {step' : S → L → Option S} {R : S → S → Prop} {C : L → Prop}
    (hstep : ∀ s t l, R s t → C l → Option.Rel R (step s l) (step' t l)) :
    ∀ {s t : S} {ls : List L}, R s t → (∀ l ∈ ls, C l) →
      Option.Rel R (reach step s ls) (reach step' t ls)
  | _, _, [], h, _ => .some h
  | s, t, l :: ls, h, hC => by
    have hl := hstep s t l h (hC l List.mem_cons_self)
    unfold reach
    generalize step s l = o, step' t l = o' at hl
    cases hl with
    | none => exact .none
    | some h' => exact reach_rel hstep h' fun l hl => hC l (List.mem_cons_of_mem _ hl)

/-! ### What a run gives out -/

variable {O : Type*}

/-- What the labels of a run give out, each in the state it meets. -/
def trace (step : S → L → Option S) (out : S → L → List O) : S → List L → List O
  | _, [] => []
  | s, l :: ls => out s l ++
    match step s l with
    | some s' => trace step out s' ls
    | none => []

/-- The same label in two states. -/
def both (step : S → L → Option S) (p : S × S) (l : L) : Option (S × S) :=
  (step p.1 l).bind fun s => (step p.2 l).map fun t => (s, t)

/-- **The unwinding rule.** If from related states a label that satisfies `C` there gives out the
same and leads to related states, or nowhere from both, then so do runs that satisfy `C` in the
pairs of states they pass through. -/
theorem trace_eq {R : S → S → Prop} {C : S × S → L → Prop} {out : S → L → List O}
    (hstep : ∀ s t l, R s t → C (s, t) l →
      out t l = out s l ∧ Option.Rel R (step s l) (step t l)) :
    ∀ {s t : S} {ls : List L}, R s t → Along (both step) C (s, t) ls →
      trace step out t ls = trace step out s ls ∧ Option.Rel R (reach step s ls) (reach step t ls)
  | _, _, [], hR, _ => ⟨rfl, .some hR⟩
  | s, t, l :: ls, hR, ⟨hC, hrest⟩ => by
    obtain ⟨hout, hrel⟩ := hstep s t l hR hC
    unfold both at hrest
    unfold trace reach
    rw [hout]
    cases hs : step s l with
    | none =>
      cases ht : step t l with
      | none => exact ⟨rfl, .none⟩
      | some t' =>
        rw [hs, ht] at hrel
        cases hrel
    | some s' =>
      cases ht : step t l with
      | none =>
        rw [hs, ht] at hrel
        cases hrel
      | some t' =>
        rw [hs, ht] at hrel
        cases hrel with
        | some hR' =>
          have hnext : Along (both step) C (s', t') ls := hrest (s', t') (by rw [hs, ht]; rfl)
          obtain ⟨htrace, hreach⟩ := trace_eq hstep hR' hnext
          exact ⟨congrArg (out s l ++ ·) htrace, hreach⟩

/-! ### The length of a run -/

/-- The sum of `f` over the labels of the run, each in the state it meets. -/
def sumAlong (step : S → L → Option S) (f : S → L → ℕ) : S → List L → ℕ
  | _, [] => 0
  | s, l :: ls => f s l +
    match step s l with
    | some s' => sumAlong step f s' ls
    | none => 0

theorem sumAlong_cons_some {f : S → L → ℕ} {s s' : S} {l : L} {ls : List L} (h : step s l = some s') :
    sumAlong step f s (l :: ls) = f s l + sumAlong step f s' ls := by
  rw [sumAlong, h]

/-- **The potential rule.** If what every step costs is taken from the potential, which is credited
with `k` units as often as `credit` says, then a run costs no more than the potential and the
credits. -/
theorem cost_le_of_potential {I : S → Prop} {potential : S → ℤ} {k : ℕ} {cost credit : S → L → ℕ}
    (hstep : ∀ s l s', I s → step s l = some s' →
      I s' ∧ potential s' + cost s l ≤ potential s + k * credit s l) :
    ∀ {s s' : S} {ls : List L}, I s → reach step s ls = some s' →
      I s' ∧ sumAlong step cost s ls + potential s' ≤ potential s + k * sumAlong step credit s ls
  | s, s', [], hI, hr => by
    cases hr
    exact ⟨hI, by simp [sumAlong]⟩
  | s, s', l :: ls, hI, hr => by
    unfold reach at hr
    cases hl : step s l with
    | none => rw [hl] at hr; cases hr
    | some s'' =>
      rw [hl] at hr
      obtain ⟨hI'', hle⟩ := hstep s l s'' hI hl
      obtain ⟨hI', hrest⟩ := cost_le_of_potential hstep hI'' hr
      have hcredit : (k : ℤ) * sumAlong step credit s (l :: ls) =
          k * credit s l + k * sumAlong step credit s'' ls := by
        rw [sumAlong_cons_some hl, Int.natCast_add, Int.mul_add]
      rw [hcredit, sumAlong_cons_some hl, Int.natCast_add]
      exact ⟨hI', by omega⟩

/-- A sum of ones for the labels that satisfy `p`. -/
theorem sumAlong_count (p : L → Bool) : ∀ {s s' : S} {ls : List L}, reach step s ls = some s' →
    sumAlong step (fun _ l => (p l).toNat) s ls = ls.countP p
  | _, _, [], _ => rfl
  | s, s', l :: ls, hr => by
    unfold reach at hr
    cases hl : step s l with
    | none => rw [hl] at hr; cases hr
    | some s1 =>
      rw [hl] at hr
      rw [sumAlong_cons_some hl, sumAlong_count p hr, List.countP_cons, Nat.add_comm]
      cases p l <;> rfl

/-- ... and where every step costs one unit, the run is no longer than that. -/
theorem length_le_of_potential {I : S → Prop} {potential : S → ℤ} {k : ℕ} {credit : S → L → ℕ}
    (hstep : ∀ s l s', I s → step s l = some s' →
      I s' ∧ potential s' + 1 ≤ potential s + k * credit s l)
    {s s' : S} {ls : List L} (hI : I s) (hr : reach step s ls = some s') :
      I s' ∧ ls.length + potential s' ≤ potential s + k * sumAlong step credit s ls := by
  have hone := sumAlong_count (fun _ => true) hr
  rw [List.countP_true] at hone
  rw [← hone]
  exact cost_le_of_potential hstep hI hr

/-- **The variant rule.** If the label `l` leads from every state of the invariant, unless it is at
rest, to one with a smaller variant, then repeating it comes to rest. -/
theorem exists_reach_rest {I Rest : S → Prop} {variant : S → ℕ} {l : L}
    (hstep : ∀ s, I s → Rest s ∨ ∃ s', step s l = some s' ∧ I s' ∧ variant s' < variant s)
    {s : S} (hI : I s) :
    ∃ n s', reach step s (List.replicate n l) = some s' ∧ I s' ∧ Rest s' := by
  induction hv : variant s using Nat.strongRecOn generalizing s with
  | ind v ih =>
    rcases hstep s hI with hrest | ⟨s1, hs1, hI1, hlt⟩
    · exact ⟨0, s, rfl, hI, hrest⟩
    · obtain ⟨n, s', hreach, hI', hrest⟩ := ih (variant s1) (hv ▸ hlt) hI1 rfl
      refine ⟨n + 1, s', ?_, hI', hrest⟩
      rw [List.replicate_succ, reach, hs1]
      exact hreach

/-- A run on the way to rest gets there. -/
theorem reach_rest {l : L} : ∀ {n k : ℕ} {s t u : S}, reach step s (List.replicate n l) = some t →
    step t l = none → reach step s (List.replicate k l) = some u →
      ∃ j, reach step u (List.replicate j l) = some t
  | n, 0, s, t, u, h, _, hu => by
    cases hu
    exact ⟨n, h⟩
  | 0, k + 1, s, t, u, h, ht, hu => by
    cases h
    rw [List.replicate_succ, reach, ht] at hu
    cases hu
  | n + 1, k + 1, s, t, u, h, ht, hu => by
    rw [List.replicate_succ, reach] at h hu
    cases hs : step s l with
    | none =>
      rw [hs] at h
      cases h
    | some s1 =>
      rw [hs] at h hu
      exact reach_rest h ht hu

/-- A sum of numbers up to one is no larger than the run is long. -/
theorem sumAlong_le_length {f : S → L → ℕ} (hf : ∀ s l, f s l ≤ 1) :
    ∀ (s : S) (ls : List L), sumAlong step f s ls ≤ ls.length
  | _, [] => Nat.le_refl _
  | s, l :: ls => by
    have hl := hf s l
    unfold sumAlong
    rw [List.length_cons]
    cases step s l with
    | none => simp only; omega
    | some s' =>
      have ih := sumAlong_le_length hf s' ls
      simp only
      omega

/-! ### One label more -/

theorem reach_one {s s' : S} {l : L} : reach step s [l] = some s' ↔ step s l = some s' := by
  unfold reach
  cases step s l <;> exact Iff.rfl

theorem reach_concat (s : S) (ls : List L) (l : L) :
    reach step s (ls ++ [l]) = (reach step s ls).bind fun s' => step s' l := by
  induction ls generalizing s with
  | nil =>
    show (match step s l with | some s' => some s' | none => none) = step s l
    cases step s l <;> rfl
  | cons k ls ih =>
    rw [List.cons_append, reach, reach]
    cases step s k with
    | none => rfl
    | some s' => exact ih s'

/-- One run after another. -/
theorem reach_append (s : S) (ls ls' : List L) :
    reach step s (ls ++ ls') = (reach step s ls).bind fun s' => reach step s' ls' := by
  induction ls generalizing s with
  | nil => rfl
  | cons k ls ih =>
    rw [List.cons_append, reach, reach]
    cases step s k with
    | none => rfl
    | some s' => exact ih s'

/-- A run, seen through a map that commutes with its steps. -/
theorem reach_map {S' : Type*} {step' : S' → L → Option S'} {f : S → S'}
    (hstep : ∀ s l s', step s l = some s' → step' (f s) l = some (f s')) :
    ∀ {s s' : S} {ls : List L}, reach step s ls = some s' → reach step' (f s) ls = some (f s')
  | s, s', [], hr => by
    cases hr
    rfl
  | s, s', l :: ls, hr => by
    unfold reach at hr ⊢
    cases hl : step s l with
    | none => rw [hl] at hr; cases hr
    | some s1 =>
      rw [hl] at hr
      rw [hstep s l s1 hl]
      exact reach_map hstep hr

theorem along_concat {E : S → L → Prop} {s s' : S} {ls : List L} (hr : reach step s ls = some s')
    (l : L) : Along step E s (ls ++ [l]) ↔ Along step E s ls ∧ E s' l := by
  induction ls generalizing s with
  | nil =>
    cases hr
    exact ⟨fun h => ⟨trivial, h.1⟩, fun h => ⟨h.2, fun _ _ => trivial⟩⟩
  | cons k ls ih =>
    unfold reach at hr
    cases hk : step s k with
    | none => rw [hk] at hr; cases hr
    | some s1 =>
      rw [hk] at hr
      rw [List.cons_append, along_cons_some hk, along_cons_some hk, ih hr, and_assoc]

/-- `A` held of a label of the run, and `B` of no label after it. -/
def Since (step : S → L → Option S) (A B : S → L → Prop) : S → List L → Prop
  | _, [] => False
  | s, l :: ls => ∃ s', step s l = some s' ∧
      (A s l ∧ Along step (fun s l => ¬ B s l) s' ls ∨ Since step A B s' ls)

/-- **What a label does to `Since`**: `A` makes it true, else `B` makes it false. -/
theorem since_concat {A B : S → L → Prop} {s s' s'' : S} {ls : List L} {l : L}
    (hr : reach step s ls = some s') (hl : step s' l = some s'') :
    Since step A B s (ls ++ [l]) ↔ A s' l ∨ Since step A B s ls ∧ ¬ B s' l := by
  induction ls generalizing s with
  | nil =>
    cases hr
    simp only [List.nil_append, Since, hl, Option.some.injEq, exists_eq_left', along_nil, and_true,
      or_false, false_and]
  | cons k ls ih =>
    unfold reach at hr
    cases hk : step s k with
    | none => rw [hk] at hr; cases hr
    | some s1 =>
      rw [hk] at hr
      simp only [List.cons_append, Since, hk, Option.some.injEq, exists_eq_left', along_concat hr,
        ih hr]
      tauto

/-- `E` held at some moment of the run: of the labels before it, the state and the label. -/
def Sometime (step : S → L → Option S) (E : List L → S → L → Prop) (s : S) (ls : List L) : Prop :=
  ∃ before l after s', ls = before ++ l :: after ∧ reach step s before = some s' ∧ E before s' l

theorem Sometime.append {E : List L → S → L → Prop} {s : S} {ls : List L}
    (h : Sometime step E s ls) (more : List L) : Sometime step E s (ls ++ more) := by
  obtain ⟨before, l, after, s', rfl, hr, hE⟩ := h
  exact ⟨before, l, after ++ more, s', by rw [List.append_assoc, List.cons_append], hr, hE⟩

/-- **The rule of what is acquired**: what holds at the end of a run and not at its start has been
acquired at some moment. -/
theorem sometime_of_acquired {P : S → Prop} {E : List L → S → L → Prop} {s : S} (hstart : ¬ P s)
    (hstep : ∀ before s1 l s2, reach step s before = some s1 → step s1 l = some s2 → P s2 →
      P s1 ∨ E before s1 l) {ls : List L} {s' : S} (hr : reach step s ls = some s') (hP : P s') :
    Sometime step E s ls := by
  induction ls using List.reverseRecOn generalizing s' with
  | nil =>
    cases hr
    exact absurd hP hstart
  | append_singleton ls l ih =>
    rw [reach_concat] at hr
    obtain ⟨s1, hr1, hl⟩ := Option.bind_eq_some_iff.mp hr
    rcases hstep ls s1 l s' hr1 hl hP with hP1 | hE
    · exact (ih hr1 hP1).append [l]
    · exact ⟨ls, l, [], s1, rfl, hr1, hE⟩

theorem States.last {P : S → Prop} : ∀ {s : S} {ls : List L}, States step P s ls →
    P (last step s ls)
  | _, [], h => h.1
  | s, l :: ls, h => by
    unfold Runs.last
    split
    · next s' hs' => exact States.last ⟨h.2.1 s' hs', h.2.2 s' hs'⟩
    · exact h.1

/-- A run goes as far as it can: to the end of its labels, or to one that is not enabled. -/
theorem reach_last : ∀ (s : S) (ls : List L), ∃ ls' rest, ls = ls' ++ rest ∧
    reach step s ls' = some (last step s ls) ∧ ∀ l ∈ rest.head?, step (last step s ls) l = none
  | s, [] => ⟨[], [], rfl, rfl, nofun⟩
  | s, l :: ls => by
    cases hl : step s l with
    | none =>
      refine ⟨[], l :: ls, rfl, ?_, fun l' h => ?_⟩
      · simp only [last, hl]
        rfl
      · cases h
        simp only [last, hl]
    | some s' =>
      obtain ⟨ls', rest, hls, hr, hrest⟩ := reach_last s' ls
      refine ⟨l :: ls', rest, congrArg (l :: ·) hls, ?_, ?_⟩
      · simpa only [reach, last, hl] using hr
      · simpa only [last, hl] using hrest

end HanabiBot.Lib.Runs
