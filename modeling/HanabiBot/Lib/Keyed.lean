import HanabiBot.Lib.Calls
import Mathlib.Logic.Function.Basic

/-! # A table of machines

One machine for each key: a label addresses one of them and moves that one only. What a machine has
come to after a run is what it comes to on its own labels (`run_own`): the machines of a table are
isolated from each other.

A program that keeps such a table, but may fail, is shown to be one by `view_run`: where the calls
for the labels of `C` succeed and do to the `view` what the table does, every run of such labels
succeeds and has the view of the table. Where the other calls fail, no other run does (`view_stop`).
-/

namespace HanabiBot.Lib.Keyed

open HanabiBot.Lib.Calls

variable {K L V : Type} [DecidableEq K] (key : L → K) (move : K → V → L → V)

/-- The machine of the label's key moves. -/
def step (t : K → V) (l : L) : K → V := Function.update t (key l) (move (key l) (t (key l)) l)

def run (t : K → V) (ls : List L) : K → V := ls.foldl (step key move) t

/-- The labels of a key. -/
def own (k : K) (ls : List L) : List L := ls.filter fun l => key l = k

theorem step_own (t : K → V) (l : L) : step key move t l (key l) = move (key l) (t (key l)) l :=
  Function.update_self ..

theorem step_other (t : K → V) {l : L} {k : K} (h : key l ≠ k) : step key move t l k = t k :=
  Function.update_of_ne (Ne.symm h) ..

/-- The run of one machine. -/
theorem run_apply (k : K) : ∀ (ls : List L) (t : K → V),
    run key move t ls k = (own key k ls).foldl (move k) (t k)
  | [], _ => rfl
  | l :: ls, t => by
    have ih := run_apply k ls (step key move t l)
    by_cases h : key l = k
    · subst h
      rw [step_own] at ih
      rw [own, List.filter_cons_of_pos (by simp)]
      exact ih
    · rw [step_other key move t h] at ih
      rw [own, List.filter_cons_of_neg (by simpa using h)]
      exact ih

theorem own_own (k : K) (ls : List L) : own key k (own key k ls) = own key k ls := by
  unfold own
  rw [List.filter_filter]
  simp

/-- **The machines are isolated.** -/
theorem run_own (k : K) (ls : List L) (t : K → V) :
    run key move t ls k = run key move t (own key k ls) k := by
  rw [run_apply, run_apply, own_own]

section View
variable {ε σ : Type} {C : L → Prop} {I : σ → Prop} {view : σ → K → V} {call : L → EStateM ε σ PUnit}
  (h : ∀ s l, I s → C l → ∃ s', (call l).run s = .ok ⟨⟩ s' ∧ I s' ∧
    view s' = step key move (view s) l)
include h

/-- **A program with the view of a table.** -/
theorem view_run : ∀ (ls : List L) (s : σ), I s → (∀ l ∈ ls, C l) →
    ∃ s', (ls.forM call).run s = .ok ⟨⟩ s' ∧ I s' ∧ view s' = run key move (view s) ls
  | [], s, hI, _ => ⟨s, rfl, hI, rfl⟩
  | l :: ls, s, hI, hC => by
    obtain ⟨hl, hls⟩ := List.forall_mem_cons.mp hC
    obtain ⟨s1, h1, hI1, hv1⟩ := h s l hI hl
    obtain ⟨s2, h2, hI2, hv2⟩ := view_run ls s1 hI1 hls
    refine ⟨s2, ?_, hI2, ?_⟩
    · rw [List.forM, bind_ok h1]
      exact h2
    · rw [hv2, hv1]
      rfl

/-- The first of the other labels ends the run. -/
theorem view_stop {e : ε} (hstop : ∀ s l, I s → ¬ C l → ∃ s', (call l).run s = .error e s') :
    ∀ (ls : List L) (s : σ), I s → ¬ (∀ l ∈ ls, C l) → ∃ s', (ls.forM call).run s = .error e s'
  | [], _, _, hC => absurd (fun _ hl => absurd hl List.not_mem_nil) hC
  | l :: ls, s, hI, hC => by
    rw [List.forM]
    by_cases hl : C l
    · obtain ⟨s1, h1, hI1, -⟩ := h s l hI hl
      rw [bind_ok h1]
      exact view_stop hstop ls s1 hI1 fun hls => hC (List.forall_mem_cons.mpr ⟨hl, hls⟩)
    · obtain ⟨s1, h1⟩ := hstop s l hI hl
      exact ⟨s1, bind_error h1⟩

end View

end HanabiBot.Lib.Keyed
