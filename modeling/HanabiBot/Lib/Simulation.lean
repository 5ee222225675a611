import HanabiBot.Lib.Runs

/-! # Simulation

A concrete step function `step : S → L → Option S`, an abstract one `move : A → M → Option A`, and
what is seen of the concrete system: `abs s` of a state, and `seen s l` of a label that is taken in
`s`, which is nothing if the label is silent. `trace` is what is seen of a run.

`Explains` says that what is seen of one step is a step: a silent one leaves the abstract state as
it is. From it a run is simulated by its trace (`reach_trace`); if moreover every move of the abstract
system is what is seen of some label (`Realises`), then every abstract run is the trace of a
concrete one (`exists_trace`). Both rules are about the labels of a condition `C`, which the run is
assumed, respectively shown, to satisfy throughout. -/

namespace HanabiBot.Lib.Simulation

open HanabiBot.Lib.Runs

variable {S L A M : Type*} {step : S → L → Option S} {move : A → M → Option A} {abs : S → A}
  {seen : S → L → Option M}

/-- What is seen of a run. -/
def trace (step : S → L → Option S) (seen : S → L → Option M) : S → List L → List M
  | _, [] => []
  | s, l :: ls => (seen s l).toList ++
    match step s l with
    | some s' => trace step seen s' ls
    | none => []

/-- What is seen of the step from `s` to `s'` is a step. -/
def Explains (move : A → M → Option A) (abs : S → A) (m : Option M) (s s' : S) : Prop :=
  match m with
  | none => abs s' = abs s
  | some m => move (abs s) m = some (abs s')

/-- The move leads where a label of `C` leads that is seen as it. -/
def Realises (step : S → L → Option S) (seen : S → L → Option M) (C : S → L → Prop) (s : S) (m : M) :
    Prop :=
  ∃ l s', C s l ∧ seen s l = some m ∧ step s l = some s'

theorem trace_cons_some {s s' : S} {l : L} {ls : List L} (h : step s l = some s') :
    trace step seen s (l :: ls) = (seen s l).toList ++ trace step seen s' ls := by
  rw [trace, h]

/-- A step that is explained, before an abstract run. -/
theorem Explains.reach {m : Option M} {s s' : S} (h : Explains move abs m s s') (ms : List M) :
    reach move (abs s) (m.toList ++ ms) = reach move (abs s') ms := by
  cases m with
  | none => exact congrArg (Runs.reach move · ms) (Eq.symm h)
  | some m =>
    rw [Option.toList_some, List.singleton_append, Runs.reach, show move (abs s) m = _ from h]

section Rules
variable {C : S → L → Prop} {I : S → Prop}
  (hstep : ∀ s l s', I s → C s l → step s l = some s' → I s' ∧ Explains move abs (seen s l) s s')
include hstep

/-- **The simulation rule.** A run is explained by what is seen of it. -/
theorem reach_trace : ∀ {s s' : S} {ls : List L}, I s → Along step C s ls →
    reach step s ls = some s' →
      I s' ∧ reach move (abs s) (trace step seen s ls) = some (abs s')
  | s, s', [], hI, _, hr => by
    cases hr
    exact ⟨hI, rfl⟩
  | s, s', l :: ls, hI, ⟨hC, hrest⟩, hr => by
    unfold reach at hr
    cases hl : step s l with
    | none => rw [hl] at hr; cases hr
    | some s1 =>
      rw [hl] at hr
      obtain ⟨hI1, hexp⟩ := hstep s l s1 hI hC hl
      rw [trace_cons_some hl, hexp.reach]
      exact reach_trace hI1 (hrest s1 hl) hr

/-- **The realisation rule.** Every abstract run of moves with `D` is seen of a run of `C`. -/
theorem exists_trace {D : A → M → Prop}
    (hmove : ∀ s m a, I s → D (abs s) m → move (abs s) m = some a → Realises step seen C s m) :
    ∀ {s : S} {a : A} {ms : List M}, I s → Along move D (abs s) ms → reach move (abs s) ms = some a →
      ∃ ls s', Along step C s ls ∧ trace step seen s ls = ms ∧ reach step s ls = some s' ∧ abs s' = a
  | s, a, [], _, _, hr => by
    cases hr
    exact ⟨[], s, trivial, rfl, rfl, rfl⟩
  | s, a, m :: ms, hI, ⟨hD, hrest⟩, hr => by
    unfold reach at hr
    cases hm : move (abs s) m with
    | none => rw [hm] at hr; cases hr
    | some a1 =>
      rw [hm] at hr
      obtain ⟨l, s1, hC, hseen, hl⟩ := hmove s m a1 hI hD hm
      obtain ⟨hI1, hexp⟩ := hstep s l s1 hI hC hl
      rw [hseen] at hexp
      obtain rfl : a1 = abs s1 := Option.some.inj (hm.symm.trans hexp)
      obtain ⟨ls, s', hCs, htrace, hreach, habs⟩ := exists_trace hmove hI1 (hrest _ hm) hr
      refine ⟨l :: ls, s', (along_cons_some hl).mpr ⟨hC, hCs⟩, ?_, ?_, habs⟩
      · rw [trace_cons_some hl, hseen, htrace]
        rfl
      · rw [reach, hl]
        exact hreach

end Rules

end HanabiBot.Lib.Simulation
