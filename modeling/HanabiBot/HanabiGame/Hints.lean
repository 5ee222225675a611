import HanabiBot.HanabiGame.Actions

/-! # Giving a hint

The functions below `giveHint` once more, each returning the hint it has given instead of whether it
has given one: `giveHint` is `namedHint` without the name (`giveHint_eq`). A hint that is given is
allowed, and leaves the game `hinted`; however else the call ends, the game is as it was
(`namedHint_gives`). -/

namespace HanabiBot.HanabiGame.Hints

open HanabiBot.Lib.Calls HanabiBot.Common.Messages
open HanabiBot.HanabiGame.Cards HanabiBot.HanabiGame.State HanabiBot.HanabiGame.Play
open HanabiBot.HanabiGame.Dialogue HanabiBot.HanabiGame.Actions HanabiBot.HanabiGame.Walks

/-- A hint that was given, and the player it was given to. -/
abbrev Given := ℕ × Hint

section Named
variable (env : Env) (player : Player) (i : ℕ)

/-- `giveHintTo`, with the hint. -/
def namedHintTo (j : ℕ) (hint : Hint) : GameM (Option (Option Given)) := do
  let o ← giveHintTo env player i j hint
  return o.map fun given => if given then some (j, hint) else none

/-- `colourRound`, with the hint. -/
def namedColourRound (j : ℕ) : GameM (Option (Option Given)) := do
  let colourIndex ← requestInt env (-1) (colourCount - 1) "Invalid colour selected!\n" player
  if colourIndex = -1 then return some none
  else namedHintTo env player i j (.colour (Colours.ofCode colourIndex.toNat))

/-- `numberRound`, with the hint. -/
def namedNumberRound (j : ℕ) : GameM (Option (Option Given)) := do
  let number ← requestInt env (-1) 5 "Invalid number selected!\n" player
  if number = 0 then
    send_ env player.socket "Number cannot be 0!\n"
    return none
  else if number = -1 then return some none
  else namedHintTo env player i j (.number number)

/-- `hintDialogue`, with the hint. -/
def namedDialogue : GameM (Option Given) := do
  let hinteeIndex ← untilSome .outOfFuel World.pending (hinteeRound env player i)
  if hinteeIndex = -1 then return none
  else
    send_ env player.socket "Select which information to give, or -1 to pick another action:\n"
    send_ env player.socket "0. Colour\n"
    send_ env player.socket "1. Number\n"
    let hintType ← requestInt env (-1) 1 "Invalid hint type selected!\n" player
    if hintType = -1 then return none
    else if hintType = 0 then
      send_ env player.socket "Select a colour to hint or -1 to pick another action: \n"
      (List.range colourCount).forM fun i =>
        send_ env player.socket
          (toString i ++ ". " ++ Card.getColourString (Colours.ofCode i) ++ "\n")
      untilSome .outOfFuel World.pending (namedColourRound env player i hinteeIndex.toNat)
    else
      send_ env player.socket "Select a number to hint or -1 to pick another action: \n"
      [1, 2, 3, 4, 5].forM fun i : ℕ => send_ env player.socket (toString i ++ "\n")
      untilSome .outOfFuel World.pending (namedNumberRound env player i hinteeIndex.toNat)

/-- `giveHint`, with the hint. -/
def namedHint : GameM (Option Given) := do
  let player ← element Game.players i
  let numBlueTokens ← readGame Game.numBlueTokens
  if numBlueTokens = 0 then
    send_ env player.socket "No blue tokens left to give hints!\n"
    return none
  else
    send_ env player.socket "Select a player to give hint to, or -1 to go back: \n"
    namedDialogue env player i

/-- What a round returns, without the name. -/
abbrev unnamed : Option (Option Given) → Option Bool := Option.map Option.isSome

theorem giveHintTo_eq (j : ℕ) (hint : Hint) :
    giveHintTo env player i j hint = unnamed <$> namedHintTo env player i j hint := by
  have hback : ∀ o : Option Bool,
      unnamed (o.map fun given => if given then some (j, hint) else none) = o := by
    rintro (_ | _ | _) <;> rfl
  simp only [namedHintTo, map_bind, map_pure, hback, bind_pure]

theorem colourRound_eq (j : ℕ) :
    colourRound env player i j = unnamed <$> namedColourRound env player i j := by
  unfold colourRound namedColourRound
  rw [map_bind]
  refine bind_congr fun colourIndex => ?_
  split_ifs
  · rfl
  · exact giveHintTo_eq env player i j _

theorem numberRound_eq (j : ℕ) :
    numberRound env player i j = unnamed <$> namedNumberRound env player i j := by
  unfold numberRound namedNumberRound
  rw [map_bind]
  refine bind_congr fun number => ?_
  split_ifs
  · rfl
  · rfl
  · exact giveHintTo_eq env player i j _

theorem hintDialogue_eq :
    hintDialogue env player i = Option.isSome <$> namedDialogue env player i := by
  unfold hintDialogue namedDialogue
  rw [map_bind]
  refine bind_congr fun hinteeIndex => ?_
  split_ifs
  · rfl
  · simp only [map_bind]
    refine bind_congr fun _ => bind_congr fun _ => bind_congr fun _ => bind_congr fun hintType => ?_
    split_ifs
    · rfl
    · simp only [map_bind, colourRound_eq, unnamed, untilSome_map]
    · simp only [map_bind, numberRound_eq, unnamed, untilSome_map]

/-- **`giveHint` is `namedHint`, without the name.** -/
theorem giveHint_eq : giveHint env i = Option.isSome <$> namedHint env i := by
  unfold giveHint namedHint
  rw [map_bind]
  refine bind_congr fun player => ?_
  rw [map_bind]
  refine bind_congr fun numBlueTokens => ?_
  split_ifs
  · rfl
  · rw [map_bind]
    exact bind_congr fun _ => hintDialogue_eq env player i

end Named

/-! ### What the loops read -/

/-- The worlds with the same input. -/
def unread : Frame World := Frame.same World.inbox

section Reads
variable (env : Env) {i : ℕ}

theorem unread_send_ (c : Conn) (s : String) : Keeps unread (send_ env c s) := fun _ => rfl

theorem unread_broadcast (msg : String) : Keeps unread (broadcast env msg) :=
  Keeps.bind (fun _ => rfl) fun _ => Keeps.forM fun _ _ =>
    (quiet_sendInfo env _ _).mono fun _ _ h => congrArg Prod.snd h

theorem unread_namedHintTo (player : Player) (j : ℕ) (hint : Hint) :
    Keeps unread (namedHintTo env player i j hint) := by
  refine Keeps.bind (Keeps.bind (keeps_element _ _) fun hand => Keeps.ite ?_ ?_) fun _ =>
    Keeps.pure _
  · exact Keeps.bind (unread_send_ env _ _) fun _ => Keeps.pure _
  · refine Keeps.bind (unread_broadcast env _) fun _ => ?_
    exact Keeps.bind (fun _ => rfl) fun _ => Keeps.bind (fun _ => rfl) fun _ => Keeps.pure _

/-- A round that asks for a number first shrinks the input. -/
theorem shrinks_requestInt_bind {β : Type} (lower higher : ℤ) (msg : String) (player : Player)
    {f : ℤ → GameM (Option β)} (hf : ∀ v, Keeps unread (f v)) :
    Shrinks World.pending (requestInt env lower higher msg player >>= f) := by
  intro w w' h
  obtain ⟨v, w1, h1, h2⟩ := bind_eq_ok h
  have hi : w'.inbox = w1.inbox := (hf v).of_ok h2
  rw [World.pending, hi]
  exact (requestInt_ok h1).1

theorem shrinks_hinteeRound (player : Player) :
    Shrinks World.pending (hinteeRound env player i) := by
  intro w w' h
  unfold hinteeRound at h
  rw [bind_ok (run_readGame w _)] at h
  refine shrinks_requestInt_bind env _ _ _ _ (fun v => ?_) w w' h
  exact Keeps.ite (Keeps.bind (unread_send_ env _ _) fun _ => Keeps.pure _) (Keeps.pure _)

theorem shrinks_namedColourRound (player : Player) (j : ℕ) :
    Shrinks World.pending (namedColourRound env player i j) :=
  shrinks_requestInt_bind env _ _ _ _ fun _ =>
    Keeps.ite (Keeps.pure _) (unread_namedHintTo env _ _ _)

theorem shrinks_namedNumberRound (player : Player) (j : ℕ) :
    Shrinks World.pending (namedNumberRound env player i j) :=
  shrinks_requestInt_bind env _ _ _ _ fun _ =>
    Keeps.ite (Keeps.bind (unread_send_ env _ _) fun _ => Keeps.pure _)
      (Keeps.ite (Keeps.pure _) (unread_namedHintTo env _ _ _))

theorem talks_hinteeRound (player : Player) : Talks (hinteeRound env player i) :=
  Talks.bind (talks_readGame _) fun _ => Talks.bind (talks_requestInt env _ _ _ _) fun _ =>
    Talks.ite (Talks.bind (talks_send_ env _ _) fun _ => Talks.pure _) (Talks.pure _)

/-- The hintee is another player, if there is one. -/
theorem hintee_ok {env : Env} {player : Player} {w w' : World} {v : ℤ}
    (h : (untilSome .outOfFuel World.pending (hinteeRound env player i)).run w = .ok v w') :
    -1 ≤ v ∧ v < w.game.numPlayers ∧ v ≠ i := by
  refine untilSome_rule Stop.outOfFuel (shrinks_hinteeRound env player)
    (P := fun w r => ∀ v w', r = .ok v w' → -1 ≤ v ∧ v < w.game.numPlayers ∧ v ≠ i)
    ?_ ?_ ?_ w v w' h
  · intro w a w' hr v _ hv
    cases hv
    unfold hinteeRound at hr
    rw [bind_ok (run_readGame w _)] at hr
    obtain ⟨u, w1, h1, h2⟩ := bind_eq_ok hr
    have hrange := (requestInt_ok h1).2
    split_ifs at h2 with hu
    · cases h2
    · cases h2
      omega
  · intro w w' r hr ih v w2 hv
    rw [← (talks_hinteeRound env player).of_ok hr]
    exact ih v w2 hv
  · intro w e w' _ v w2 hv
    cases hv

end Reads

/-! ### How a hint ends -/

/-- A call that gives a hint, or leaves the game `g` as it is. -/
def Gives (g : Game) (i : ℕ) : EStateM.Result Stop World (Option Given) → Prop
  | .ok (some (j, hint)) w => HintAllowed g i j hint ∧ w.game = hinted g j hint
  | .ok none w => w.game = g
  | .error e w => Fails g e w

/-- The same for a round of a loop; one that goes on leaves the game as it is. -/
def RoundGives (g : Game) (i : ℕ) : EStateM.Result Stop World (Option (Option Given)) → Prop
  | .ok (some o) w => Gives g i (.ok o w)
  | .ok none w => w.game = g
  | .error e w => Fails g e w

section Gives
variable (env : Env) {g : Game} {i : ℕ}

/-- What follows a dialogue gives what the whole gives. -/
theorem gives_bind {α : Type} {p : GameM α} (hp : Talks p) {f : α → GameM (Option Given)} {w : World}
    (hw : w.game = g)
    (h : ∀ a w', p.run w = .ok a w' → w'.game = g → Gives g i ((f a).run w')) :
    Gives g i ((p >>= f).run w) :=
  hp.bind_rule (fun a w' hr hg => h a w' hr (hg.trans hw)) fun x _ hg => ⟨⟨x, rfl⟩, hg.trans hw⟩

theorem roundGives_bind {α : Type} {p : GameM α} (hp : Talks p)
    {f : α → GameM (Option (Option Given))} {w : World} (hw : w.game = g)
    (h : ∀ a w', w'.game = g → RoundGives g i ((f a).run w')) : RoundGives g i ((p >>= f).run w) :=
  hp.bind_rule (fun a w' _ hg => h a w' (hg.trans hw)) fun x _ hg => ⟨⟨x, rfl⟩, hg.trans hw⟩

/-- A loop of such rounds ends like one of them. -/
theorem untilSome_gives {body : GameM (Option (Option Given))} (hs : Shrinks World.pending body)
    (h : ∀ w, w.game = g → RoundGives g i (body.run w)) {w : World} (hw : w.game = g) :
    Gives g i ((untilSome .outOfFuel World.pending body).run w) := by
  refine untilSome_rule Stop.outOfFuel hs (P := fun w r => w.game = g → Gives g i r) ?_ ?_ ?_ w hw
  · intro w o w' hr hw
    have := h w hw
    rwa [hr] at this
  · intro w w' r hr ih hw
    have := h w hw
    rw [hr] at this
    exact ih this
  · intro w e w' hr hw
    have := h w hw
    rwa [hr] at this

section Round
variable (player : Player) {j : ℕ} (ht : g.numBlueTokens ≠ 0) (hj : j ≠ i) (hn : j < g.numPlayers)
  (hl : g.hands.length = g.numPlayers)
include ht hj hn hl

theorem namedHintTo_gives (hint : Hint) {w : World} (hw : w.game = g) :
    RoundGives g i ((namedHintTo env player i j hint).run w) := by
  subst hw
  have hlt : j < w.game.hands.length := hl ▸ hn
  have hh : w.game.hands[j]? = some w.game.hands[j] := List.getElem?_eq_getElem hlt
  unfold namedHintTo giveHintTo
  rw [bind_assoc, bind_ok (run_element hh)]
  simp only
  split_ifs with he
  · rw [bind_assoc, bind_ok (run_send_ env w _ _)]
    rfl
  · have hcard : ∃ card ∈ w.game.hands[j], hint.targets card = true := by
      by_contra hc
      push Not at hc
      exact he (List.isEmpty_iff.mpr (List.filter_eq_nil_iff.mpr hc))
    have hallowed : HintAllowed w.game i j hint := ⟨ht, hj, hn, _, hh, hcard⟩
    rw [bind_assoc]
    refine (talks_broadcast env _).bind_rule (P := RoundGives w.game i) ?_ ?_
    · intro _ w1 _ hg
      rw [bind_assoc, bind_ok (run_modifyGame _ _), bind_assoc, bind_ok (run_modifyGame _ _), ← hg]
      exact ⟨hg ▸ hallowed, rfl⟩
    · intro x w1 hg
      exact ⟨⟨x, rfl⟩, hg⟩

theorem namedColourRound_gives {w : World} (hw : w.game = g) :
    RoundGives g i ((namedColourRound env player i j).run w) := by
  refine roundGives_bind (talks_requestInt env _ _ _ _) hw fun v w1 hg => ?_
  split_ifs
  · exact hg
  · exact namedHintTo_gives env player ht hj hn hl _ hg

theorem namedNumberRound_gives {w : World} (hw : w.game = g) :
    RoundGives g i ((namedNumberRound env player i j).run w) := by
  refine roundGives_bind (talks_requestInt env _ _ _ _) hw fun v w1 hg => ?_
  split_ifs
  · rw [bind_ok (run_send_ env w1 _ _)]
    exact hg
  · exact hg
  · exact namedHintTo_gives env player ht hj hn hl _ hg

end Round

/-- **How `giveHint` ends**, on any network. -/
theorem namedHint_gives {w : World} {player : Player} (hp : w.game.players[i]? = some player)
    (hl : w.game.hands.length = w.game.numPlayers) :
    Gives w.game i ((namedHint env i).run w) := by
  unfold namedHint
  rw [bind_ok (run_element hp), bind_ok (run_readGame w _)]
  split_ifs with ht
  · exact gives_bind (talks_send_ env _ _) rfl fun _ _ _ hg => hg
  refine gives_bind (talks_send_ env _ _) rfl fun _ w1 _ h1 => ?_
  unfold namedDialogue
  refine gives_bind (Talks.untilSome (shrinks_hinteeRound env player)
    (talks_hinteeRound env player)) h1 fun v w2 hv h2 => ?_
  have hr := hintee_ok hv
  rw [h1] at hr
  split_ifs with hback
  · exact h2
  obtain ⟨j, rfl⟩ : ∃ j : ℕ, v = j := ⟨v.toNat, by omega⟩
  have hj : j ≠ i := by omega
  have hn : j < w.game.numPlayers := by omega
  rw [Int.toNat_natCast]
  refine gives_bind (talks_send_ env _ _) h2 fun _ w3 _ h3 => ?_
  refine gives_bind (talks_send_ env _ _) h3 fun _ w4 _ h4 => ?_
  refine gives_bind (talks_send_ env _ _) h4 fun _ w5 _ h5 => ?_
  refine gives_bind (talks_requestInt env _ _ _ _) h5 fun hintType w6 _ h6 => ?_
  split_ifs
  · exact h6
  · refine gives_bind (talks_send_ env _ _) h6 fun _ w7 _ h7 => ?_
    refine gives_bind (Talks.forM fun _ => talks_send_ env _ _) h7 fun _ w8 _ h8 => ?_
    exact untilSome_gives (shrinks_namedColourRound env player j)
      (fun _ => namedColourRound_gives env player ht hj hn hl) h8
  · refine gives_bind (talks_send_ env _ _) h6 fun _ w7 _ h7 => ?_
    refine gives_bind (Talks.forM fun _ => talks_send_ env _ _) h7 fun _ w8 _ h8 => ?_
    exact untilSome_gives (shrinks_namedNumberRound env player j)
      (fun _ => namedNumberRound_gives env player ht hj hn hl) h8

end Gives

end HanabiBot.HanabiGame.Hints
