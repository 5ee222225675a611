import HanabiBot.HanabiGame.Refinement

/-! # Every move can be made

The converse of `Refinement`: what the rules allow, a player can have the server do. On a healthy
network the responses for it are the options the prompts ask for, one frame each: the index of the
card, or the hintee, the kind of the hint and its value (`namedHint_answered`). The one exception is
a play that does not fit, which the server does not carry out as the rules have it. So the games of
Hanabi without such a play are exactly what is seen of the lawful games (`exists_lawful_game`). -/

namespace HanabiBot.HanabiGame.Realisation

open HanabiBot.Lib.Calls HanabiBot.Lib.Runs HanabiBot.Lib.Simulation HanabiBot.Common.Messages
open HanabiBot.HanabiGame.Cards HanabiBot.HanabiGame.State HanabiBot.HanabiGame.Play
open HanabiBot.HanabiGame.Dialogue HanabiBot.HanabiGame.Actions HanabiBot.HanabiGame.Hints
open HanabiBot.HanabiGame.Steps HanabiBot.HanabiGame.Rules HanabiBot.HanabiGame.Positions
open HanabiBot.HanabiGame.Refinement

/-- For every option that a prompt may ask for in a game of `n` players there is a frame. -/
def Expressive (parse : Bytes → ClientResponse) (n : ℕ) : Prop :=
  ∀ v : ℕ, v ≤ 5 ∨ v < n → ∃ b, optionOf parse b = v

/-- A call that is answered by the given frames, on a healthy network. -/
def answering {n : ℕ} (action : Action) (player : Fin n) (responses : List Bytes) : Call n where
  action := action
  player := player
  responses := responses
  writeOk _ _ := true

/-! ### A healthy network -/

/-- The call returns `a`, and has read the input down to `rest`; the game is as it was. -/
def Reads {α : Type} (p : GameM α) (a : α) (rest : List Bytes) (w : World) : Prop :=
  ∃ w', p.run w = .ok a w' ∧ w'.game = w.game ∧ w'.inbox = rest

section Healthy
variable {parse : Bytes → ClientResponse} {α β : Type} {w : World} {player : Player}

/-- A call that reads, before one of which `P` holds from there on. -/
theorem Reads.bind {p : GameM α} {a : α} {rest : List Bytes} (h : Reads p a rest w)
    {f : α → GameM β} {P : EStateM.Result Stop World β → Prop}
    (hf : ∀ w', w'.game = w.game → w'.inbox = rest → P ((f a).run w')) : P ((p >>= f).run w) := by
  obtain ⟨w', hr, hg, hi⟩ := h
  rw [bind_ok hr]
  exact hf w' hg hi

theorem reads_send_ (env : Env) (c : Conn) (s : String) : Reads (send_ env c s) ⟨⟩ w.inbox w :=
  ⟨_, rfl, rfl, rfl⟩

theorem reads_forM (env : Env) {l : List β} (c : Conn) (s : β → String) :
    Reads (l.forM fun b => send_ env c (s b)) ⟨⟩ w.inbox w := by
  induction l generalizing w with
  | nil => exact ⟨w, rfl, rfl, rfl⟩
  | cons b l ih =>
    obtain ⟨w1, hr, hg, hi⟩ := reads_send_ (w := w) env c (s b)
    obtain ⟨w2, hr2, hg2, hi2⟩ := ih (w := w1)
    exact ⟨w2, (bind_ok hr).trans hr2, hg2.trans hg, hi2.trans hi⟩

variable (parse player) in
theorem reads_requestInt (lower higher : ℤ) (msg : String) {b : Bytes} {rest : List Bytes}
    (hb : w.inbox = b :: rest) (h1 : lower ≤ optionOf parse b) (h2 : optionOf parse b ≤ higher) :
    Reads (requestInt (Env.healthy parse) lower higher msg player) (optionOf parse b) rest w := by
  have hr : ¬ (higher < optionOf (Env.healthy parse).parseResponse b ∨
      optionOf (Env.healthy parse).parseResponse b < lower) := by
    simp only [Env.healthy_parseResponse]
    omega
  exact ⟨_, requestInt_taken msg hb rfl hr, rfl, rfl⟩

/-! ### The card that is taken -/

theorem selected_play {n : ℕ} {g : Game} {c : Call n} (ha : c.action = .play) {k m : ℕ}
    (hp : pick (c.env parse) g c.player 0 c.responses = some (k, m)) : c.selected parse g = some k := by
  simp only [Call.selected, ha, hp]

theorem selected_discard {n : ℕ} {g : Game} {c : Call n} (ha : c.action = .discard) {k m : ℕ}
    (hp : pick (c.env parse) g c.player 0 c.responses = some (k, m))
    (hheard : heard (c.env parse) m g.players = true) : c.selected parse g = some k := by
  simp only [Call.selected, ha, hp, hheard, if_true]

variable (parse) in
/-- A call that is answered with the index of a card takes it. -/
theorem taken_answering {n : ℕ} {g : Game} (h : Shape n g) {a : Action} (ha : a ≠ .hint) {i : Fin n}
    {k : ℕ} {card : Card} (hc : cardAt g i k = .ok card) {b : Bytes} (hb : optionOf parse b = k) :
    (answering a i [b]).taken parse g = some (k, card) := by
  obtain ⟨hand, hh, hk⟩ := cardAt_ok hc
  have hlt : k < hand.length := (List.getElem?_eq_some_iff.mp hk).1
  have hseat : (i : ℕ) < g.players.length := h.players.symm ▸ i.isLt
  have hplayer : g.players[(i : ℕ)]? = some g.players[(i : ℕ)] := List.getElem?_eq_getElem hseat
  refine taken_eq ?_ hc
  have hpick : pick (Env.healthy parse) g i 0 [b] = some (k, 2) := by
    simp only [pick, hplayer, hh, answer, Env.healthy_writeOk, Env.healthy_parseResponse, hb, if_true]
    rw [if_neg (by omega)]
    simp only
    rw [if_neg (by omega), Int.toNat_natCast]
  cases a with
  | play => exact selected_play rfl hpick
  | discard => exact selected_discard rfl hpick (heard_healthy parse 2 g.players)
  | hint => exact absurd rfl ha

/-! ### The hint that is given -/

/-- The options `giveHint` asks for: the kind of the hint, and its value. -/
def kindOf : Hint → ℤ
  | .colour _ => 0
  | .number _ => 1

def valueOf : Hint → ℤ
  | .colour c => c.code
  | .number v => v

theorem named_hint {n : ℕ} {g : Game} {c : Call n} (ha : c.action = .hint) {given : Option Given}
    {w' : World} (hr : (namedHint (c.env parse) c.player).run (c.opening g) = .ok given w') :
    c.named parse g = given := by
  simp only [Call.named, ha, hr]

variable (parse player) in
theorem namedHintTo_answered {i j : ℕ} {hint : Hint} (hallowed : HintAllowed w.game i j hint) :
    ∃ w', (namedHintTo (Env.healthy parse) player i j hint).run w =
      .ok (some (some (j, hint))) w' := by
  obtain ⟨hand, hh, card, hcard, ht⟩ := hallowed.named
  have hne : (hand.filter hint.targets).isEmpty = false := by
    rw [List.isEmpty_eq_false_iff]
    exact List.ne_nil_of_mem (List.mem_filter.mpr ⟨hcard, ht⟩)
  have hb := broadcast_heard (Env.healthy parse) ("Player " ++ toString i ++ " gave a hint to Player " ++
      toString j ++ " about the " ++ hint.words ++ "\n") w
  rw [if_pos (heard_healthy parse _ _)] at hb
  obtain ⟨w1, hb, -⟩ := hb
  unfold namedHintTo giveHintTo
  rw [bind_assoc, bind_ok (run_element hh)]
  simp only [hne, Bool.false_eq_true, if_false, bind_assoc]
  rw [bind_ok hb, bind_ok (run_modifyGame _ _), bind_ok (run_modifyGame _ _)]
  exact ⟨_, rfl⟩

theorem reads_hintee {i j : ℕ} {b : Bytes} {rest : List Bytes} (hb : w.inbox = b :: rest)
    (hj : optionOf parse b = j) (hn : j < w.game.numPlayers) (hne : j ≠ i) :
    Reads (untilSome .outOfFuel World.pending (hinteeRound (Env.healthy parse) player i)) (j : ℤ) rest
      w := by
  obtain ⟨w', hr, hg, hi⟩ := reads_requestInt parse player (-1)
    (w.game.numPlayers - 1) "Invalid player selected!\n" hb (by omega) (by omega)
  refine ⟨w', untilSome_some ?_, hg, hi⟩
  unfold hinteeRound
  rw [bind_ok (run_readGame w _), bind_ok hr, hj, if_neg (by omega)]
  rfl

/-- The round of the colour or the number hint. -/
theorem colourRound_answered {i j : ℕ} {c : Colours} (hallowed : HintAllowed w.game i j (.colour c))
    (hc : c.code < colourCount) {b : Bytes} (hin : w.inbox = [b]) (hb : optionOf parse b = c.code) :
    ∃ w', (untilSome .outOfFuel World.pending
      (namedColourRound (Env.healthy parse) player i j)).run w = .ok (some (j, .colour c)) w' := by
  have h5 : colourCount = 5 := rfl
  obtain ⟨w1, hr, hg, -⟩ := reads_requestInt parse player (-1)
    (colourCount - 1) "Invalid colour selected!\n" hin (by omega) (by omega)
  obtain ⟨w2, h2⟩ := namedHintTo_answered parse player (w := w1) (hg ▸ hallowed)
  refine ⟨w2, untilSome_some ?_⟩
  unfold namedColourRound
  rw [bind_ok hr, hb, if_neg (by omega), Int.toNat_natCast, Colours.ofCode_code]
  exact h2

theorem numberRound_answered {i j : ℕ} {v : ℤ} (hallowed : HintAllowed w.game i j (.number v))
    (hv : 1 ≤ v ∧ v ≤ 5) {b : Bytes} (hin : w.inbox = [b]) (hb : optionOf parse b = v) :
    ∃ w', (untilSome .outOfFuel World.pending
      (namedNumberRound (Env.healthy parse) player i j)).run w = .ok (some (j, .number v)) w' := by
  obtain ⟨w1, hr, hg, -⟩ := reads_requestInt parse player (-1)
    5 "Invalid number selected!\n" hin (by omega) (by omega)
  obtain ⟨w2, h2⟩ := namedHintTo_answered parse player (w := w1) (hg ▸ hallowed)
  refine ⟨w2, untilSome_some ?_⟩
  unfold namedNumberRound
  rw [bind_ok hr, hb, if_neg (by omega), if_neg (by omega)]
  exact h2

variable (parse) in
/-- **A hint that is allowed is given** to whoever answers the prompts for it. -/
theorem namedHint_answered {i j : ℕ} {hint : Hint} (hp : w.game.players[i]? = some player)
    (hallowed : HintAllowed w.game i j hint) (hranged : Ranged hint) {hintee kind value : Bytes}
    (hin : w.inbox = [hintee, kind, value]) (hhintee : optionOf parse hintee = j)
    (hkind : optionOf parse kind = kindOf hint) (hvalue : optionOf parse value = valueOf hint) :
    ∃ w', (namedHint (Env.healthy parse) i).run w = .ok (some (j, hint)) w' := by
  have hk : 0 ≤ kindOf hint ∧ kindOf hint ≤ 1 := by
    cases hint with
    | colour _ => exact ⟨le_refl 0, Int.one_nonneg⟩
    | number _ => exact ⟨Int.one_nonneg, le_refl 1⟩
  unfold namedHint
  rw [bind_ok (run_element hp), bind_ok (run_readGame w _), if_neg hallowed.tokens]
  refine (reads_send_ _ _ _).bind (P := fun r => ∃ w', r = .ok _ w') fun w1 hg1 hi1 => ?_
  refine (reads_hintee (hi1.trans hin) hhintee (hg1.symm ▸ hallowed.seated) hallowed.other).bind
    (P := fun r => ∃ w', r = .ok _ w') fun w2 hg2 hi2 => ?_
  rw [if_neg (by omega)]
  refine (reads_send_ _ _ _).bind (P := fun r => ∃ w', r = .ok _ w') fun w3 hg3 hi3 => ?_
  refine (reads_send_ _ _ _).bind (P := fun r => ∃ w', r = .ok _ w') fun w4 hg4 hi4 => ?_
  refine (reads_send_ _ _ _).bind (P := fun r => ∃ w', r = .ok _ w') fun w5 hg5 hi5 => ?_
  refine (reads_requestInt parse _ _ _ _ (hi5.trans (hi4.trans (hi3.trans hi2)))
    (by omega) (by omega)).bind (P := fun r => ∃ w', r = .ok _ w') fun w6 hg6 hi6 => ?_
  have hg : w6.game = w.game := hg6.trans (hg5.trans (hg4.trans (hg3.trans (hg2.trans hg1))))
  rw [hkind, if_neg (by omega), Int.toNat_natCast]
  cases hint with
  | colour c =>
    rw [if_pos (show kindOf (.colour c) = 0 from rfl)]
    refine (reads_send_ _ _ _).bind (P := fun r => ∃ w', r = .ok _ w') fun w7 hg7 hi7 => ?_
    refine (reads_forM _ _ _).bind (P := fun r => ∃ w', r = .ok _ w') fun w8 hg8 hi8 => ?_
    exact colourRound_answered (by rw [hg8, hg7, hg]; exact hallowed) hranged
      (hi8.trans (hi7.trans hi6)) hvalue
  | number v =>
    rw [if_neg (show ¬ kindOf (.number v) = 0 from by rw [kindOf]; decide)]
    refine (reads_send_ _ _ _).bind (P := fun r => ∃ w', r = .ok _ w') fun w7 hg7 hi7 => ?_
    refine (reads_forM _ _ _).bind (P := fun r => ∃ w', r = .ok _ w') fun w8 hg8 hi8 => ?_
    exact numberRound_answered (by rw [hg8, hg7, hg]; exact hallowed) hranged
      (hi8.trans (hi7.trans hi6)) hvalue

end Healthy

/-! ### The moves -/

section Moves
variable {parse : Bytes → ClientResponse} {n : ℕ} {g : Game}

/-- The card of a face in a hand. -/
theorem exists_card {i : Fin n} {f : Suit × ℕ} (hf : f ∈ (position n g).hands i) :
    ∃ (k : ℕ) (card : Card), cardAt g i k = .ok card ∧ suited card = some f ∧ card.Real := by
  simp only [position, Multiset.mem_coe] at hf
  obtain ⟨card, hcard, hs⟩ := List.mem_filterMap.mp hf
  obtain ⟨k, hk⟩ := List.mem_iff_getElem?.mp hcard
  have hreal : card.Real := by
    by_contra hr
    rw [suited, dif_neg hr] at hs
    cases hs
  cases hh : g.hands[(i : ℕ)]? with
  | none =>
    rw [List.getD_eq_getElem?_getD, hh] at hcard
    cases hcard
  | some hand =>
    rw [List.getD_eq_getElem?_getD, hh] at hk
    exact ⟨k, card, cardAt_of hh hk, hs, hreal⟩

/-- A hand is not larger than the options reach. -/
theorem index_le (h : Shape n g) {i : Fin n} {k : ℕ} {card : Card} (hc : cardAt g i k = .ok card) :
    k ≤ 5 := by
  obtain ⟨hand, hh, hk⟩ := cardAt_ok hc
  have hlt := (List.getElem?_eq_some_iff.mp hk).1
  rw [h.sizes hand (List.mem_of_getElem? hh)] at hlt
  unfold Game.cardsPerHand at hlt
  split_ifs at hlt <;> omega

/-- The hint of a clue. -/
def hintOf : About Suit → Hint
  | .colour c => .colour c.1
  | .rank r => .number r

/-- A clue that names a card of a hand is one of the hints of the dialogue. -/
theorem hintOf_named {j : Fin n} {a : About Suit} (h : (position n g).Named j a) :
    Ranged (hintOf a) ∧ about (hintOf a) = some a ∧ ∃ hand, g.hands[(j : ℕ)]? = some hand ∧
      ∃ card ∈ hand, (hintOf a).targets card = true := by
  obtain ⟨f, hf, hname⟩ := h
  obtain ⟨k, card, hc, hs, hr⟩ := exists_card hf
  obtain ⟨hand, hh, hk⟩ := cardAt_ok hc
  cases (suited_real hr).symm.trans hs
  have hcard := List.mem_of_getElem? hk
  have h1 := hr.1
  have h5 := hr.2.1
  cases a with
  | colour c =>
    refine ⟨c.2, dif_pos c.2, hand, hh, card, hcard, ?_⟩
    exact decide_eq_true (congrArg Subtype.val hname)
  | rank r =>
    have hnum : card.number.toNat = r := hname
    refine ⟨⟨by omega, by omega⟩, congrArg (some ∘ About.rank) (Int.toNat_natCast r), hand, hh, card,
      hcard, decide_eq_true (by omega)⟩

/-- **Every move can be made**, but for a play that does not fit. -/
theorem move_realised (hparse : Expressive parse n) (h : Lively n g) {m : Move Suit n}
    {p : Position Suit n} (hD : Fitting (position n g) m) (hm : move limits (position n g) m = some p) :
    Realises (gameStep parse) (seen parse) (Lawful parse) g m := by
  have h8 : Game.totalBlueTokens = 8 := rfl
  rcases move_cases limits hm with ⟨i, f, rfl, hmem, hnext, -⟩ | ⟨i, f, rfl, -, hnot, -⟩ |
    ⟨i, f, rfl, hmem, hlt, -⟩ | ⟨i, j, a, rfl, ⟨hclues, hother, hnamed⟩, -⟩
  · obtain ⟨k, card, hc, hs, hr⟩ := exists_card hmem
    obtain ⟨b, hb⟩ := hparse k (Or.inl (index_le h.shape hc))
    have ht := taken_answering parse h.shape (a := .play) (by decide) hc hb
    have hC : Lawful parse g (answering .play i [b]) := fun k' card' ht' => by
      cases ht.symm.trans ht'
      exact ⟨hr, fun _ => (fits_iff h.shape hr hs).mpr hnext, fun he => by cases he⟩
    obtain ⟨g', hstep⟩ := lawful_defined h hC
    exact ⟨_, g', hC, (seen_take ht hs).trans (congrArg some (if_pos rfl)), hstep⟩
  · exact absurd hD hnot
  · obtain ⟨k, card, hc, hs, hr⟩ := exists_card hmem
    obtain ⟨b, hb⟩ := hparse k (Or.inl (index_le h.shape hc))
    have ht := taken_answering parse h.shape (a := .discard) (by decide) hc hb
    have hbelow : g.numBlueTokens < Game.totalBlueTokens := by
      simp only [position, limits] at hlt
      omega
    have hC : Lawful parse g (answering .discard i [b]) := fun k' card' ht' => by
      cases ht.symm.trans ht'
      exact ⟨hr, fun he => (by cases he), fun _ => hbelow⟩
    obtain ⟨g', hstep⟩ := lawful_defined h hC
    exact ⟨_, g', hC, (seen_take ht hs).trans (congrArg some (if_neg (by
      show ¬ Action.discard = Action.play
      decide))), hstep⟩
  · obtain ⟨hranged, hab, hand, hh, hcards⟩ := hintOf_named hnamed
    have hseat : (j : ℕ) < g.numPlayers := by
      rw [Game.numPlayers, h.shape.players]
      exact j.isLt
    have htokens : g.numBlueTokens ≠ 0 := by
      simp only [position] at hclues
      omega
    have hallowed : HintAllowed g i j (hintOf a) :=
      ⟨htokens, fun he => hother (Fin.ext he), hseat, hand, hh, hcards⟩
    obtain ⟨bj, hbj⟩ := hparse j (Or.inr j.isLt)
    obtain ⟨bt, hbt⟩ : ∃ b, optionOf parse b = kindOf (hintOf a) := by
      cases a with
      | colour c => exact hparse 0 (Or.inl (Nat.zero_le _))
      | rank r => exact hparse 1 (Or.inl (by decide))
    obtain ⟨bv, hbv⟩ : ∃ b, optionOf parse b = valueOf (hintOf a) := by
      cases a with
      | colour c =>
        have hlt : c.1.code < 5 := c.2
        exact hparse c.1.code (Or.inl (by omega))
      | rank r =>
        have hle : (r : ℤ) ≤ 5 := hranged.2
        exact hparse r (Or.inl (by omega))
    have hi : (i : ℕ) < g.players.length := h.shape.players.symm ▸ i.isLt
    have hplayer : g.players[(i : ℕ)]? = some g.players[(i : ℕ)] := List.getElem?_eq_getElem hi
    obtain ⟨w', hr⟩ := namedHint_answered parse
      (w := (answering .hint i [bj, bt, bv]).opening g) hplayer hallowed hranged rfl hbj hbt hbv
    have hn : (answering .hint i [bj, bt, bv]).named parse g = some ((j : ℕ), hintOf a) :=
      named_hint rfl hr
    have htaken : (answering .hint i [bj, bt, bv]).taken parse g = none := taken_hint rfl
    have hC : Lawful parse g (answering .hint i [bj, bt, bv]) := fun k card ht => by
      cases htaken.symm.trans ht
    obtain ⟨g', hstep⟩ := lawful_defined h hC
    refine ⟨_, g', hC, ?_, hstep⟩
    simp only [seen, htaken, hn, dif_pos j.isLt, hab, Option.map_some]
    rfl

end Moves

/-- **Every game of Hanabi can be played**: a game by the rules, without a play that does not fit, is
what is seen of a lawful game. -/
theorem exists_lawful_game {parse : Bytes → ClientResponse} (players : List Player) (sessionId : ℤ)
    (s : Shuffle) (hparse : Expressive parse players.length)
    {ms : List (Move Suit players.length)} {p : Position Suit players.length}
    (hD : Along (move limits) Fitting (position players.length (dealt players sessionId s)) ms)
    (hr : reach (move limits) (position players.length (dealt players sessionId s)) ms = some p) :
    ∃ calls g, Along (gameStep parse) (Lawful parse) (dealt players sessionId s) calls ∧
      trace (gameStep parse) (seen parse) (dealt players sessionId s) calls = ms ∧
        reach (gameStep parse) (dealt players sessionId s) calls = some g ∧
          position players.length g = p :=
  exists_trace (I := Lively players.length) (fun _ _ _ h hC hs => lawful_step h hC hs)
    (fun _ _ _ h hD hm => move_realised hparse h hD hm) (lively_dealt players sessionId s) hD hr

theorem expressive_parseOption : Expressive parseOption 2 := by
  intro v hv
  refine ⟨[8, UInt8.ofNat v], ?_⟩
  have hlt : v < 256 := by omega
  show (((UInt8.ofNat v).toNat : ℕ) : ℤ) = v
  rw [UInt8.toNat_ofNat', Nat.mod_eq_of_lt hlt]

theorem red_code : Colours.red.code < colourCount := by decide

def redSuit : Suit := ⟨.red, red_code⟩

/-- The second player is told of the fives, discards the red one, and the first plays a red one. -/
def threeMoves : List (Move Suit 2) :=
  [.clue firstSeat secondSeat (.rank 5), .discard secondSeat (redSuit, 5), .play firstSeat (redSuit, 1)]

theorem exists_three_moves : ∃ calls g,
    Along (gameStep parseOption) (Lawful parseOption) (dealt (guests 2) 0 Shuffle.unshuffled) calls ∧
      trace (gameStep parseOption) (seen parseOption) (dealt (guests 2) 0 Shuffle.unshuffled) calls =
        threeMoves ∧
        reach (gameStep parseOption) (dealt (guests 2) 0 Shuffle.unshuffled) calls = some g ∧
          ((position 2 g).clues, (position 2 g).deck.length) = (8, 38) := by
  have hsome : (reach (move limits) (position 2 (dealt (guests 2) 0 Shuffle.unshuffled))
      threeMoves).map (fun p => (p.clues, p.deck.length)) = some (8, 38) := by decide +kernel
  have hD : Along (move limits) Fitting (position 2 (dealt (guests 2) 0 Shuffle.unshuffled))
      threeMoves := by decide +kernel
  obtain ⟨p, hr, hp⟩ := Option.map_eq_some_iff.mp hsome
  obtain ⟨calls, g, hC, htrace, hreach, hg⟩ := exists_lawful_game (guests 2) 0 Shuffle.unshuffled
    expressive_parseOption hD hr
  exact ⟨calls, g, hC, htrace, hreach,
    (congrArg (fun p : Position Suit 2 => (p.clues, p.deck.length)) hg).trans hp⟩

end HanabiBot.HanabiGame.Realisation
