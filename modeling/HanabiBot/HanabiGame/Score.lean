import HanabiBot.HanabiGame.Conservation

/-! # Fireworks and score

The table changes only by a play of the next card of a colour (`table_step`). The plays of a run
that fit are its `fireworks`, each a face. No face is played twice, `totalPts` is their number, and
as the cards are real no column rises above five: the `25` of the game-over test is the score of a
full table (`scored_reached`). -/

namespace HanabiBot.HanabiGame.Score

open HanabiBot.Lib.Lists HanabiBot.Lib.Runs HanabiBot.Common.Messages
open HanabiBot.HanabiGame.Cards HanabiBot.HanabiGame.State HanabiBot.HanabiGame.Play
open HanabiBot.HanabiGame.Actions HanabiBot.HanabiGame.Steps HanabiBot.HanabiGame.Conservation

/-! ### The sum of the table -/

/-- The loop of `totalPts` over the first `n` colours. -/
theorem foldlM_table (g : Game) : ∀ n ≤ g.table.length,
    (List.range n).foldlM (fun totalPts i =>
      match g.table[i]? with
      | some top => Except.ok (ε := Fault) (totalPts + top)
      | none => .error .outOfRange) (0 : ℤ) = .ok (g.table.take n).sum
  | 0, _ => rfl
  | n + 1, h => by
    have hn : n < g.table.length := h
    rw [List.range_succ, List.foldlM_append, foldlM_table g n (Nat.le_of_lt hn),
      List.take_succ_eq_append_getElem hn, List.sum_append, List.sum_singleton]
    simp only [List.foldlM_cons, List.foldlM_nil, List.getElem?_eq_getElem hn]
    rfl

theorem totalPts_eq {g : Game} (h : g.table.length = colourCount) :
    totalPts g = .ok g.table.sum := by
  have hsum := foldlM_table g colourCount (by omega)
  rw [List.take_of_length_le (by omega)] at hsum
  exact hsum

/-- A sum of numbers up to `m` is largest if all are `m`. -/
theorem sum_le_of_le {m : ℤ} : ∀ {l : List ℤ}, (∀ t ∈ l, t ≤ m) →
    l.sum ≤ l.length * m ∧ (l.sum = l.length * m ↔ ∀ t ∈ l, t = m)
  | [], _ => by simp
  | t :: l, h => by
    obtain ⟨ht, hl⟩ := List.forall_mem_cons.mp h
    obtain ⟨h1, h2⟩ := sum_le_of_le hl
    have hmul : ((l.length + 1 : ℕ) : ℤ) * m = l.length * m + m := by
      push_cast
      rw [add_mul, one_mul]
    rw [List.sum_cons, List.length_cons, List.forall_mem_cons, ← h2, hmul]
    refine ⟨by omega, ?_, ?_⟩
    · intro he
      exact ⟨by omega, by omega⟩
    · rintro ⟨rfl, he⟩
      omega

/-! ### What a call does to the table -/

/-- The face a call plays onto the table. -/
def success {n : ℕ} (parse : Bytes → ClientResponse) (g : Game) (c : Call n) : Option Face :=
  match c.action, c.taken parse g with
  | .play, some (_, card) => if Fits g card then some (face card) else none
  | _, _ => none

/-- The faces the calls of a run play onto the table. -/
def fireworks {n : ℕ} (parse : Bytes → ClientResponse) : Game → List (Call n) → List Face
  | _, [] => []
  | g, c :: calls =>
    match gameStep parse g c with
    | some g' => (success parse g c).toList ++ fireworks parse g' calls
    | none => []

/-- A call that raises colour `card.colour` by one, to the number of the card it plays. -/
structure Raises {n : ℕ} (parse : Bytes → ClientResponse) (g : Game) (c : Call n) (g' : Game)
    (card : Card) : Prop where
  play : c.action = .play
  taken : ∃ k, c.taken parse g = some (k, card)
  real : card.Real
  next : g.table[card.colour.code]? = some (card.number - 1)
  table : g'.table = g.table.set card.colour.code card.number

section Step
variable {parse : Bytes → ClientResponse} {n : ℕ} {g g' : Game} {c : Call n}

theorem played_table (g : Game) (i k : ℕ) (card : Card) :
    (played g i k card).table = g.table.set card.colour.code card.number := by
  unfold played rewarded
  split_ifs <;> rfl

/-- **What a call does to the table**: nothing, or it raises one colour by one. -/
theorem table_step (hg : Shape n g) (hs : gameStep parse g c = some g') :
    success parse g c = none ∧ g'.table = g.table ∨
      ∃ card, success parse g c = some (face card) ∧ Raises parse g c g' card := by
  rcases gameStep_cases hg.players hg.hands hg.coloured c with ⟨hn, he⟩ | ⟨k, card, ha, ht, hc, he⟩ |
    ⟨k, card, ha, -, -, he⟩ | ⟨j, hint, hn, -, he⟩
  · cases hs.symm.trans he
    exact Or.inl ⟨by simp [success, hn], rfl⟩
  · rw [he, playMove] at hs
    have hsuccess : success parse g c = if Fits g card then some (face card) else none := by
      simp only [success, ha, ht]
    split at hs
    · cases hs
    · next top htop =>
      have hreal := (hg.table_some (hg.held_cardAt hc)).mp ⟨top, htop⟩
      cases hs
      rw [hsuccess]
      by_cases hnum : top + 1 = card.number
      · have hfits : Fits g card := ⟨top, htop, hnum⟩
        have hprev : top = card.number - 1 := by omega
        rw [if_pos hfits, if_pos hnum]
        exact Or.inr ⟨card, rfl, ha, ⟨k, ht⟩, hreal, hprev ▸ htop, played_table g _ k card⟩
      · have hfits : ¬ Fits g card := by
          rintro ⟨top', htop', hnum'⟩
          cases htop.symm.trans htop'
          exact hnum hnum'
        rw [if_neg hfits, if_neg hnum]
        exact Or.inl ⟨rfl, rfl⟩
  · cases hs.symm.trans he
    exact Or.inl ⟨by simp [success, ha], rfl⟩
  · cases hs.symm.trans he
    exact Or.inl ⟨by simp [success, hn], rfl⟩

end Step

/-! ### Along a run -/

/-- The game after a run that has played `faces` onto the table. -/
structure Scored (parse : Bytes → ClientResponse) (n : ℕ) (g : Game) (played : List Face) : Prop where
  colours : g.table.length = colourCount
  bounds : ∀ top ∈ g.table, 0 ≤ top ∧ top ≤ 5
  step : ∀ (c : Call n) g', gameStep parse g c = some g' →
    g'.table = g.table ∨ ∃ card, Raises parse g c g' card
  grows : ∀ (c : Call n) g', gameStep parse g c = some g' → List.Forall₂ (· ≤ ·) g.table g'.table
  once : played.Nodup
  score : totalPts g = .ok (played.length : ℤ)
  score_le : played.length ≤ 25
  complete : played.length = 25 ↔ ∀ top ∈ g.table, top = 5

/-- No column falls where one is raised. -/
theorem Raises.grows {n : ℕ} {parse : Bytes → ClientResponse} {g g' : Game} {c : Call n} {card : Card}
    (h : Raises parse g c g' card) : List.Forall₂ (· ≤ ·) g.table g'.table := by
  rw [h.table, List.forall₂_iff_get]
  refine ⟨List.length_set.symm, fun i hi hi' => ?_⟩
  rw [List.get_eq_getElem, List.get_eq_getElem, List.getElem_set]
  split_ifs with hcode
  · subst hcode
    have hnext := h.next
    rw [List.getElem?_eq_getElem hi] at hnext
    have htop : g.table[card.colour.code] = card.number - 1 := Option.some.inj hnext
    simp only [htop]
    omega
  · exact Int.le_refl _

/-- What carries a run: the columns are as high as the number of faces played, and every face played
lies in its column. -/
structure Columns (g : Game) (played : List Face) : Prop where
  le_five : ∀ top ∈ g.table, top ≤ 5
  sum : g.table.sum = played.length
  below : ∀ f ∈ played, ∃ top, g.table[f.1.code]? = some top ∧ f.2 ≤ top
  once : played.Nodup

section Run
variable {parse : Bytes → ClientResponse} {n : ℕ} {g g' : Game} {c : Call n} {played : List Face}

theorem Columns.congr (h : Columns g played) (ht : g'.table = g.table) : Columns g' played :=
  ⟨ht ▸ h.le_five, ht ▸ h.sum, ht ▸ h.below, h.once⟩

/-- **A raise is a face more.** -/
theorem Columns.raise {card : Card} (h : Columns g played) (hr : Raises parse g c g' card) :
    Columns g' (played ++ [face card]) := by
  have hlt : card.colour.code < g.table.length := (List.getElem?_eq_some_iff.mp hr.next).1
  have hnew : g'.table[card.colour.code]? = some card.number := by
    rw [hr.table, List.getElem?_set_self hlt]
  refine ⟨?_, ?_, ?_, ?_⟩
  · rw [hr.table]
    exact forall_mem_set h.le_five hr.real.2.1
  · have hset := sum_set (b := card.number) hr.next
    have hsum := h.sum
    rw [hr.table, List.length_append, List.length_singleton]
    push_cast
    omega
  · intro f hf
    rcases List.mem_append.mp hf with hf | hf
    · obtain ⟨top, htop, hle⟩ := h.below f hf
      by_cases hcode : f.1.code = card.colour.code
      · refine ⟨card.number, hcode ▸ hnew, ?_⟩
        rw [hcode, hr.next] at htop
        cases htop
        omega
      · refine ⟨top, ?_, hle⟩
        rw [hr.table, List.getElem?_set_ne (Ne.symm hcode)]
        exact htop
    · rw [List.mem_singleton.mp hf]
      exact ⟨card.number, hnew, Int.le_refl _⟩
  · refine List.nodup_append.mpr ⟨h.once, List.nodup_singleton _, ?_⟩
    rintro f hf f' hf' rfl
    rw [List.mem_singleton] at hf'
    obtain ⟨top, htop, hle⟩ := h.below f hf
    rw [hf'] at htop hle
    cases htop.symm.trans hr.next
    simp only [face] at hle
    omega

theorem columns_step (hg : Shape n g) (h : Columns g played) (hs : gameStep parse g c = some g') :
    Columns g' (played ++ (success parse g c).toList) := by
  rcases table_step hg hs with ⟨hn, ht⟩ | ⟨card, hf, hr⟩
  · rw [hn, Option.toList_none, List.append_nil]
    exact h.congr ht
  · rw [hf]
    exact h.raise hr

theorem columns_reach : ∀ {g : Game} {played : List Face} {calls : List (Call n)} {g' : Game},
    Shape n g → Columns g played → reach (gameStep parse) g calls = some g' →
      Shape n g' ∧ Columns g' (played ++ fireworks parse g calls)
  | g, played, [], g', hg, h, hr => by
    cases hr
    rw [fireworks, List.append_nil]
    exact ⟨hg, h⟩
  | g, played, c :: calls, g', hg, h, hr => by
    unfold reach at hr
    cases hs : gameStep parse g c with
    | none => rw [hs] at hr; cases hr
    | some g1 =>
      rw [hs] at hr
      have ih := columns_reach (shape_step hg hs) (columns_step hg h hs) hr
      rw [fireworks, hs]
      rwa [List.append_assoc] at ih

theorem columns_dealt (players : List Player) (sessionId : ℤ) (s : Shuffle) :
    Columns (dealt players sessionId s) [] where
  le_five top ht := by
    rw [List.eq_of_mem_replicate ht]
    decide
  sum := rfl
  below f hf := by cases hf
  once := List.nodup_nil

theorem scored_of_columns (hg : Shape n g) (h : Columns g played) : Scored parse n g played := by
  have hmax := sum_le_of_le h.le_five
  have hlen : (g.table.length : ℤ) * 5 = 25 := by rw [hg.table]; rfl
  rw [hlen, h.sum] at hmax
  refine ⟨hg.table, fun top ht => ⟨hg.tops top ht, h.le_five top ht⟩, ?_, ?_, h.once, ?_, ?_, ?_⟩
  · intro c g' hs
    rcases table_step hg hs with ⟨-, ht⟩ | ⟨card, -, hr⟩
    · exact Or.inl ht
    · exact Or.inr ⟨card, hr⟩
  · intro c g' hs
    rcases table_step hg hs with ⟨-, ht⟩ | ⟨card, -, hr⟩
    · rw [ht]
      exact List.forall₂_refl _
    · exact hr.grows
  · rw [totalPts_eq hg.table, h.sum]
  · omega
  · rw [← hmax.2]
    omega

/-- **The score counts the fireworks.** In every state a game reaches, the columns stand between `0`
and `5`, a call leaves the table alone or raises one colour to the next number, no face has been
played twice, and `totalPts` is the number of faces played, `25` exactly for a full table. -/
theorem scored_reached (parse : Bytes → ClientResponse) (players : List Player) (sessionId : ℤ)
    (s : Shuffle) (calls : List (Call players.length)) {g : Game}
    (h : reach (gameStep parse) (dealt players sessionId s) calls = some g) :
    Scored parse players.length g (fireworks parse (dealt players sessionId s) calls) := by
  obtain ⟨hg, hc⟩ :=
    columns_reach (shape_dealt players sessionId s) (columns_dealt players sessionId s) h
  exact scored_of_columns hg hc

/-- A red one, played first, is the first point. -/
theorem scored_first_play : ∃ g, reach (gameStep parseOption)
      (dealt (guests 2) 0 Shuffle.unshuffled) [(.selecting .play 0 0 : Call 2)] = some g ∧
    Scored parseOption 2 g (fireworks parseOption (dealt (guests 2) 0 Shuffle.unshuffled)
      [(.selecting .play 0 0 : Call 2)]) := by
  have hreach : (reach (gameStep parseOption) (dealt (guests 2) 0 Shuffle.unshuffled)
      [(.selecting .play 0 0 : Call 2)]).isSome = true := by decide +kernel
  obtain ⟨g, hg⟩ := Option.isSome_iff_exists.mp hreach
  exact ⟨g, hg, scored_reached parseOption (guests 2) 0 Shuffle.unshuffled _ hg⟩

end Run

end HanabiBot.HanabiGame.Score
