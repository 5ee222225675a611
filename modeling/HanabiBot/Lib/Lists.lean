import Mathlib.Algebra.BigOperators.Group.List.Basic
import Mathlib.Data.List.GetD
import Mathlib.Data.List.TakeWhile
import Mathlib.Tactic.Abel

/-! # Replacing an element of a list

What `List.set` and `List.modify` do to a property of all elements, and to a sum over them: the sum
loses the old summand and gains the new one. The sums are in a commutative monoid, so that the law
is stated without subtraction.

Of a list of buffers, `OnlyAt` says that at most one is not empty, and which: all that they hold
together is in that one (`OnlyAt.flatten`). -/

namespace HanabiBot.Lib.Lists

variable {α : Type*}

theorem forall_mem_set {P : α → Prop} {l : List α} {i : ℕ} {a : α} (h : ∀ b ∈ l, P b) (ha : P a) :
    ∀ b ∈ l.set i a, P b := by
  intro b hb
  rcases List.mem_or_eq_of_mem_set hb with hb | rfl
  · exact h b hb
  · exact ha

theorem forall_mem_modify {P : α → Prop} {f : α → α} {l : List α} {i : ℕ} (h : ∀ b ∈ l, P b)
    (hf : ∀ b, P b → P (f b)) : ∀ b ∈ l.modify i f, P b := by
  intro b hb
  obtain ⟨j, hj, rfl⟩ := List.mem_iff_getElem.mp hb
  rw [List.getElem_modify]
  split_ifs
  · exact hf _ (h _ (List.getElem_mem _))
  · exact h _ (List.getElem_mem _)

/-- The elements with `p` are the first ones of the list exactly if none stands behind one without
`p`. -/
theorem map_takeWhile_eq_iff {β : Type*} (f : α → β) (p : α → Bool) : ∀ {l : List α},
    (l.takeWhile p).map f = (l.filter p).map f ↔ l.Pairwise fun a b => p b = true → p a = true
  | [] => iff_of_true rfl List.Pairwise.nil
  | a :: l => by
    have ih := map_takeWhile_eq_iff f p (l := l)
    rw [List.pairwise_cons]
    by_cases ha : p a = true
    · rw [List.takeWhile_cons_of_pos ha, List.filter_cons_of_pos ha, List.map_cons, List.map_cons,
        List.cons_eq_cons, ← ih]
      simp [ha]
    · rw [List.takeWhile_cons_of_neg ha, List.filter_cons_of_neg ha, List.map_nil, eq_comm,
        List.map_eq_nil_iff, List.filter_eq_nil_iff]
      refine ⟨fun h => ⟨fun b hb hpb => absurd hpb (h b hb), ?_⟩, fun h b hb hpb => ha (h.1 b hb hpb)⟩
      exact List.pairwise_of_forall_mem_list fun b _ c hc hpc => absurd hpc (h c hc)

theorem length_takeWhile_le_filter (p : α → Bool) (l : List α) :
    (l.takeWhile p).length ≤ (l.filter p).length := by
  have hself : (l.takeWhile p).filter p = l.takeWhile p :=
    List.filter_eq_self.mpr fun _ h => List.mem_takeWhile_imp h
  rw [← hself]
  exact ((List.takeWhile_sublist p).filter p).length_le

/-- The first element of an initial segment of the images. -/
theorem cons_prefix_map {β : Type*} {f : α → β} {b : β} {bs : List β} {as : List α}
    (h : b :: bs <+: as.map f) : ∃ a as', as = a :: as' ∧ f a = b ∧ bs <+: as'.map f := by
  cases as with
  | nil => cases List.prefix_nil.mp h
  | cons a as' =>
    obtain ⟨hb, hbs⟩ := List.cons_prefix_cons.mp h
    exact ⟨a, as', rfl, hb.symm, hbs⟩

section Sums
variable {M : Type*} [AddCommMonoid M]

/-- **The sum after a replacement.** -/
theorem sum_set {l : List M} {i : ℕ} {a b : M} (h : l[i]? = some a) :
    (l.set i b).sum + a = l.sum + b := by
  obtain ⟨hi, rfl⟩ := List.getElem?_eq_some_iff.mp h
  conv_rhs => rw [← List.take_append_drop i l, List.drop_eq_getElem_cons hi]
  rw [List.sum_set, if_pos hi, List.sum_append, List.sum_cons]
  abel

theorem sum_map_set {f : α → M} {l : List α} {i : ℕ} {a b : α} (h : l[i]? = some a) :
    ((l.set i b).map f).sum + f a = (l.map f).sum + f b := by
  rw [List.map_set]
  exact sum_set (by rw [List.getElem?_map, h]; rfl)

theorem sum_map_modify {f : α → M} {g : α → α} {l : List α} {i : ℕ} {a : α} (h : l[i]? = some a) :
    ((l.modify i g).map f).sum + f a = (l.map f).sum + f (g a) := by
  obtain ⟨hi, rfl⟩ := List.getElem?_eq_some_iff.mp h
  have hset : l.modify i g = l.set i (g l[i]) := by
    rw [List.modify_eq_take_cons_drop hi, List.set_eq_take_append_cons_drop, if_pos hi]
  rw [hset]
  exact sum_map_set h

end Sums

section Buffers
variable {held : List (List α)} {i k : ℕ}

/-- Only the `i`-th buffer holds anything. -/
def OnlyAt (held : List (List α)) (i : ℕ) : Prop :=
  ∀ j < held.length, j ≠ i → held.getD j [] = []

instance [DecidableEq α] (held : List (List α)) (i : ℕ) : Decidable (OnlyAt held i) :=
  inferInstanceAs (Decidable (∀ j < held.length, j ≠ i → held.getD j [] = []))

theorem OnlyAt.set (h : OnlyAt held i) (b : List α) : OnlyAt (held.set i b) i := by
  intro j hj hne
  rw [List.length_set] at hj
  rw [List.getD_eq_getElem?_getD, List.getElem?_set_ne (fun he => hne he.symm),
    ← List.getD_eq_getElem?_getD]
  exact h j hj hne

theorem getD_set (hi : i < held.length) (b : List α) : (held.set i b).getD i [] = b := by
  rw [List.getD_eq_getElem?_getD, List.getElem?_set_self hi]
  rfl

theorem OnlyAt.getD_ne (h : OnlyAt held i) (hk : k ≠ i) : held.getD k [] = [] := by
  rcases Nat.lt_or_ge k held.length with hlt | hge
  · exact h k hlt hk
  · rw [List.getD_eq_getElem?_getD, List.getElem?_eq_none hge]
    rfl

/-- What is held is the same wherever one looks for it. -/
theorem OnlyAt.getD_eq (hi : OnlyAt held i) (hk : OnlyAt held k) :
    held.getD i [] = held.getD k [] := by
  by_cases h : i = k
  · rw [h]
  · rw [hk.getD_ne h, hi.getD_ne (fun he => h he.symm)]

theorem onlyAt_of_idle (h : ∀ b ∈ held, b = []) (i : ℕ) : OnlyAt held i := by
  intro j hj _
  rw [List.getD_eq_getElem _ _ hj]
  exact h _ (List.getElem_mem hj)

theorem getD_of_idle (h : ∀ b ∈ held, b = []) (i : ℕ) : held.getD i [] = [] := by
  by_cases hi : i < held.length
  · rw [List.getD_eq_getElem _ _ hi]
    exact h _ (List.getElem_mem hi)
  · rw [List.getD_eq_getElem?_getD, List.getElem?_eq_none (by omega)]
    rfl

theorem flatten_of_idle : ∀ {held : List (List α)}, (∀ b ∈ held, b = []) → held.flatten = []
  | [], _ => rfl
  | b :: held, h => by
    rw [List.flatten_cons, h b List.mem_cons_self,
      flatten_of_idle fun b hb => h b (List.mem_cons_of_mem _ hb), List.nil_append]

theorem OnlyAt.flatten : ∀ {held : List (List α)} {i : ℕ}, OnlyAt held i →
    held.flatten = held.getD i []
  | [], _, _ => rfl
  | b :: held, 0, h => by
    have hidle : ∀ c ∈ held, c = [] := by
      intro c hc
      obtain ⟨j, hj, rfl⟩ := List.getElem_of_mem hc
      have := h (j + 1) (by simpa using hj) (Nat.succ_ne_zero j)
      rwa [List.getD_cons_succ, List.getD_eq_getElem _ _ hj] at this
    rw [List.flatten_cons, flatten_of_idle hidle, List.append_nil]
    rfl
  | b :: held, i + 1, h => by
    have hb : b = [] := h 0 (by simp) (Nat.succ_ne_zero i).symm
    have hrest : OnlyAt held i := by
      intro j hj hne
      have := h (j + 1) (by simpa using hj) (by omega)
      rwa [List.getD_cons_succ] at this
    rw [List.flatten_cons, hb, List.nil_append, hrest.flatten, List.getD_cons_succ]

end Buffers

end HanabiBot.Lib.Lists
