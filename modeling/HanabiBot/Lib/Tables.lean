import Mathlib.Data.List.AList
import Mathlib.Data.List.Flatten

/-! # What the entries of a table hold

`gather f t` lists what the values of the table `t` hold, entry by entry. That something is held in
one place only is then `Nodup` of this list, and an operation on the table changes it up to a
permutation: the entry of a key stands at the front (`gather_lookup`), and there it is replaced
(`gather_insert`) or removed.

`Distinct tag t` says that no two entries of `t` have the same tag. -/

namespace HanabiBot.Lib.Tables

open List

variable {α β γ : Type*} [DecidableEq α] {t : AList fun _ : α => β} {a : α} {b b' : β}

section Gather
variable (f : β → List γ)

/-- What the values of a table hold. -/
def gather (t : AList fun _ : α => β) : List γ := t.entries.flatMap fun e => f e.2

theorem mem_gather {c : γ} : c ∈ gather f t ↔ ∃ a b, t.lookup a = some b ∧ c ∈ f b := by
  unfold gather
  rw [mem_flatMap]
  constructor
  · rintro ⟨⟨a, b⟩, he, hc⟩
    exact ⟨a, b, AList.mem_lookup_iff.mpr he, hc⟩
  · rintro ⟨a, b, hl, hc⟩
    exact ⟨⟨a, b⟩, AList.mem_lookup_iff.mp hl, hc⟩

/-- The entries of a table, one of them at the front. -/
theorem entries_perm (h : t.lookup a = some b) : t.entries ~ ⟨a, b⟩ :: (t.erase a).entries := by
  have hmem : a ∈ t := by
    rw [← AList.lookup_isSome, h]
    rfl
  obtain ⟨b', l₁, l₂, -, hl, herase⟩ := exists_of_kerase hmem
  have hb : b' = b := by
    have he : (⟨a, b'⟩ : Sigma fun _ : α => β) ∈ t.entries := by
      rw [hl]
      exact mem_append_right _ mem_cons_self
    exact Option.some.inj ((AList.mem_lookup_iff.mpr he).symm.trans h)
  have herased : (t.erase a).entries = l₁ ++ l₂ := herase
  rw [herased, hl, hb]
  exact perm_middle

theorem gather_lookup (h : t.lookup a = some b) : gather f t ~ f b ++ gather f (t.erase a) :=
  (entries_perm h).flatMap_right _

/-- What is held in one place only is held under one key. -/
theorem key_unique {a' : α} {c : γ} (h : (gather f t).Nodup) (hl : t.lookup a = some b)
    (hl' : t.lookup a' = some b') (hc : c ∈ f b) (hc' : c ∈ f b') : a' = a := by
  by_contra hne
  have herase : c ∈ gather f (t.erase a) :=
    (mem_gather f).mpr ⟨a', b', by rw [AList.lookup_erase_ne hne, hl'], hc'⟩
  have hnodup := (gather_lookup f hl).nodup_iff.mp h
  exact (nodup_append'.mp hnodup).2.2 hc herase

theorem gather_insert : gather f (t.insert a b) = f b ++ gather f (t.erase a) := rfl

theorem gather_insert_new (h : t.lookup a = none) :
    gather f (t.insert a b) = f b ++ gather f t := by
  have herase : (t.erase a).entries = t.entries :=
    kerase_of_notMem_keys (AList.lookup_eq_none.mp h)
  rw [gather_insert, gather, herase]
  rfl

theorem gather_erase_sublist : gather f (t.erase a) <+ gather f t :=
  (kerase_sublist a t.entries).flatMap _

end Gather

section Distinct
variable (tag : β → γ)

/-- No two entries have the same tag. -/
def Distinct (t : AList fun _ : α => β) : Prop :=
  ∀ a a' b b', t.lookup a = some b → t.lookup a' = some b' → tag b = tag b' → a = a'

variable {tag}

theorem Distinct.erase (h : Distinct tag t) (a : α) : Distinct tag (t.erase a) := by
  have hold (c : α) (b : β) (hc : (t.erase a).lookup c = some b) : t.lookup c = some b := by
    by_cases hca : c = a
    · rw [hca, AList.lookup_erase] at hc
      cases hc
    · rwa [AList.lookup_erase_ne hca] at hc
  exact fun c c' b b' hc hc' => h c c' b b' (hold c b hc) (hold c' b' hc')

/-- A new entry with a new tag. -/
theorem Distinct.insert_new (h : Distinct tag t) (a : α)
    (hb : ∀ c b', t.lookup c = some b' → tag b' ≠ tag b) : Distinct tag (t.insert a b) := by
  intro c c' d d' hc hc' htag
  by_cases hca : c = a <;> by_cases hca' : c' = a
  · rw [hca, hca']
  · rw [hca, AList.lookup_insert] at hc
    rw [AList.lookup_insert_ne hca'] at hc'
    cases hc
    exact absurd htag.symm (hb c' d' hc')
  · rw [AList.lookup_insert_ne hca] at hc
    rw [hca', AList.lookup_insert] at hc'
    cases hc'
    exact absurd htag (hb c d hc)
  · rw [AList.lookup_insert_ne hca] at hc
    rw [AList.lookup_insert_ne hca'] at hc'
    exact h c c' d d' hc hc' htag

/-- A new value with the old tag. -/
theorem Distinct.insert_same (h : Distinct tag t) (hl : t.lookup a = some b)
    (hb : tag b' = tag b) : Distinct tag (t.insert a b') := by
  have hold (c : α) (d : β) (hc : (t.insert a b').lookup c = some d) :
      ∃ d', t.lookup c = some d' ∧ tag d' = tag d := by
    by_cases hca : c = a
    · rw [hca, AList.lookup_insert] at hc
      cases hc
      exact ⟨b, hca ▸ hl, hb.symm⟩
    · rw [AList.lookup_insert_ne hca] at hc
      exact ⟨d, hc, rfl⟩
  intro c c' d d' hc hc' htag
  obtain ⟨e, he, hetag⟩ := hold c d hc
  obtain ⟨e', he', hetag'⟩ := hold c' d' hc'
  exact h c c' e e' he he' (hetag.trans (htag.trans hetag'.symm))

end Distinct

end HanabiBot.Lib.Tables
