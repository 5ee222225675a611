import HanabiBot.HanabiGame.Told

/-! # Two games, call by call

The calls of an action, made in two games that are the same for player `i`, with the same responses.
They go on in step, and write the same to the connection of player `i`, as long as what is told to
player `i` is the same: `relates_giveHint`, `playCard_alike` and `discardCard_alike`.

A card that is taken is known by `pick`, so for the two actions that take one the rules start from
the two worlds of the call; all others are rules of `Relates`. -/

namespace HanabiBot.HanabiGame.Knowledge

open HanabiBot.Lib.Calls HanabiBot.Lib.Pairs HanabiBot.Common.Messages
open HanabiBot.HanabiGame.Cards HanabiBot.HanabiGame.State HanabiBot.HanabiGame.Play
open HanabiBot.HanabiGame.Dialogue HanabiBot.HanabiGame.Actions HanabiBot.HanabiGame.Secrecy
open HanabiBot.HanabiGame.Told

/-! ### Calls in the two games -/

/-- Two worlds in the games `g` and `g'`, with the same responses to be read. -/
structure At (c : Conn) (g g' : Game) (inbox : List Bytes) (w w' : World) : Prop
    extends SameFrom c g g' w w' where
  leftInbox : w.inbox = inbox
  rightInbox : w'.inbox = inbox

/-- Two worlds in which a call may end. -/
structure Ended (i : ℕ) (c : Conn) (w w' : World) : Prop where
  games : SameFor i w.game w'.game
  sent : sentTo c w'.out = sentTo c w.out

theorem At.ended {i : ℕ} {c : Conn} {g g' : Game} {inbox : List Bytes} {w w' : World}
    (h : SameFor i g g') (hw : At c g g' inbox w w') : Ended i c w w' :=
  ⟨hw.right.symm ▸ hw.left.symm ▸ h, hw.sent⟩

theorem isEmpty_targeted (hint : Hint) (hand : List Card) :
    (hand.filter hint.targets).isEmpty = !hand.any hint.targets := by
  rw [Bool.eq_iff_iff]
  simp

theorem element_ok {α : Type} {l : Game → List α} {k : ℕ} {a : α} {w w' : World}
    (h : (element l k).run w = .ok a w') : (l w.game)[k]? = some a ∧ w = w' := by
  cases hk : (l w.game)[k]? with
  | none =>
    rw [run_element_none hk] at h
    cases h
  | some b =>
    rw [run_element hk] at h
    cases h
    exact ⟨rfl, rfl⟩

section Calls
variable {env : Env} {i : ℕ} {c : Conn} {g g' : Game} {inbox : List Bytes} {α : Type}

theorem At.sends {w w' : World} (hw : At c g g' inbox w w') (ms : List Sent) :
    At c g g' inbox (w.sent ms) (w'.sent ms) where
  left := hw.left
  right := hw.right
  writes := congrArg (· + ms.length) hw.writes
  sent := by
    simp only [World.sent, sentTo, List.filter_append]
    exact congrArg (· ++ ms.filter _) hw.sent
  leftInbox := hw.leftInbox
  rightInbox := hw.rightInbox

theorem At.tried {w w' : World} (hw : At c g g' inbox w w') :
    At c g g' inbox { w with writes := w.writes + 1 } { w' with writes := w'.writes + 1 } :=
  { hw with writes := congrArg (· + 1) hw.writes }

theorem At.reading {w w' : World} (hw : At c g g' inbox w w') (rest : List Bytes) :
    At c g g' rest (w.reading rest) (w'.reading rest) :=
  { hw with
    leftInbox := rfl
    rightInbox := rfl }

/-- A look at the two games. -/
theorem relates_readGame {E : World → World → Prop} (f : Game → α) :
    Relates (At c g g' inbox) (fun a a' w w' => (a = f g ∧ a' = f g') ∧ At c g g' inbox w w') E
      (readGame f) (readGame f) :=
  fun _ _ hw => ⟨⟨congrArg f hw.left, congrArg f hw.right⟩, hw⟩

theorem relates_modifyGame {E : World → World → Prop} (f f' : Game → Game) :
    Relates (At c g g' inbox) (fun _ _ => At c (f g) (f' g') inbox) E (modifyGame f)
      (modifyGame f') := fun _ _ hw =>
  { hw with
    left := congrArg f hw.left
    right := congrArg f' hw.right }

theorem relates_send_ {E : World → World → Prop} (socket : Conn) (msg : String) :
    Relates (At c g g' inbox) (fun _ _ => At c g g' inbox) E (send_ env socket msg)
      (send_ env socket msg) := by
  intro w w' hw
  rw [run_send_, run_send_, hw.writes]
  by_cases hok : env.writeOk w.writes socket = true
  · simp only [hok, if_true]
    have hsends := hw.sends [.text socket msg]
    rw [World.sent, World.sent, hw.writes] at hsends
    exact hsends
  · simp only [hok]
    have htried := hw.tried
    rw [hw.writes] at htried
    exact htried

theorem relates_draw {E : World → World → Prop} :
    Relates (At c g g' inbox) (fun card card' w w' =>
      (card = g.deck.draw.1 ∧ card' = g'.deck.draw.1) ∧ At c { g with deck := g.deck.draw.2 }
        { g' with deck := g'.deck.draw.2 } inbox w w') E draw draw := by
  intro w w' hw
  rw [run_draw, run_draw, hw.left, hw.right]
  exact ⟨⟨rfl, rfl⟩, { hw with left := rfl, right := rfl }⟩

theorem relates_sendAll {β : Type} {E : World → World → Prop} (l : List β) (socket : Conn) (msg : β → String) :
    Relates (At c g g' inbox) (fun _ _ => At c g g' inbox) E
      (l.forM fun b => send_ env socket (msg b)) (l.forM fun b => send_ env socket (msg b)) := by
  refine Relates.forM (List.forall₂_same.mpr fun b _ => rfl) (T := Eq) ?_
  rintro b _ rfl
  exact relates_send_ socket (msg b)

section Steps
variable (h : SameFor i g g')
include h

theorem relates_sendBytes (socket : Conn) (m : InfoMessage) :
    Relates (At c g g' inbox) (fun _ _ => At c g g' inbox) (Ended i c) (sendBytes env socket m)
      (sendBytes env socket m) := by
  intro w w' hw
  rw [run_sendBytes, run_sendBytes, hw.writes]
  split_ifs
  · exact hw.sends _
  · have htried := hw.tried.ended h
    exact ⟨rfl, htried.games, htried.sent⟩

theorem relates_broadcast (msg : String) :
    Relates (At c g g' inbox) (fun _ _ => At c g g' inbox) (Ended i c) (broadcast env msg)
      (broadcast env msg) := by
  have hsockets : List.Forall₂ Eq (g'.players.map Player.socket) (g.players.map Player.socket) := by
    rw [h.sockets]
    exact List.forall₂_refl _
  refine (relates_readGame Game.players).bind fun players players' => Relates.of_and ?_
  rintro ⟨rfl, rfl⟩
  refine Relates.forM
    (List.forall₂_map_right_iff.mp (List.forall₂_map_left_iff.mp hsockets)).flip ?_
  intro player player' hsocket
  unfold sendInfo
  rw [← hsocket]
  exact relates_sendBytes h _ _

theorem relates_element {l : Game → List α} {k : ℕ} {T : α → α → Prop}
    (hl : Option.Rel T (l g)[k]? (l g')[k]?) :
    Relates (At c g g' inbox) (fun a a' w w' => ((l g)[k]? = some a ∧ (l g')[k]? = some a' ∧ T a a') ∧
      At c g g' inbox w w') (Ended i c) (element l k) (element l k) := by
  intro w w' hw
  have hended := hw.ended h
  obtain rfl := hw.left
  obtain rfl := hw.right
  cases hk : (l w.game)[k]? with
  | none =>
    cases hk' : (l w'.game)[k]? with
    | none =>
      rw [run_element_none hk, run_element_none hk']
      exact ⟨rfl, hended⟩
    | some a' =>
      rw [hk, hk'] at hl
      cases hl
  | some a =>
    cases hk' : (l w'.game)[k]? with
    | none =>
      rw [hk, hk'] at hl
      cases hl
    | some a' =>
      rw [hk, hk'] at hl
      cases hl with
      | some hT =>
        rw [run_element hk, run_element hk']
        exact ⟨⟨rfl, rfl, hT⟩, hw⟩

theorem relates_checked {f : Game → Except Fault α} (hf : f g' = f g) :
    Relates (At c g g' inbox) (fun a a' w w' => (f g = .ok a ∧ a' = a) ∧ At c g g' inbox w w')
      (Ended i c) (checked f) (checked f) := by
  intro w w' hw
  have hended := hw.ended h
  obtain rfl := hw.left
  obtain rfl := hw.right
  cases ha : f w.game with
  | ok a =>
    rw [run_checked_ok ha, run_checked_ok (hf.trans ha)]
    exact ⟨⟨rfl, rfl⟩, hw⟩
  | error e =>
    rw [run_checked_error ha, run_checked_error (hf.trans ha)]
    exact ⟨rfl, hended⟩

/-! ### Requests -/

theorem relates_requestQuery (player : Player) :
    Relates (At c g g' inbox)
      (fun r r' w w' => ∃ b rest, (inbox = b :: rest ∧ r = env.parseResponse b ∧ r' = r) ∧
        At c g g' rest w w') (Ended i c) (requestQuery env player) (requestQuery env player) := by
  have hread : Relates (At c g g' inbox) (fun o o' w w' => (o = inbox.head? ∧ o' = inbox.head?) ∧
      At c g g' inbox.tail w w') (Ended i c) readBytesCatch readBytesCatch := by
    intro w w' hw
    rw [run_readBytesCatch, run_readBytesCatch, hw.leftInbox, hw.rightInbox]
    cases inbox with
    | nil => exact ⟨⟨rfl, rfl⟩, hw⟩
    | cons b rest => exact ⟨⟨rfl, rfl⟩, hw.reading rest⟩
  refine (relates_sendBytes h player.socket _).bind fun _ _ => hread.bind fun o o' => Relates.of_and ?_
  rintro ⟨rfl, rfl⟩
  cases inbox with
  | nil => exact Relates.throw fun w w' hw => hw.ended h
  | cons b rest => exact Relates.pure fun w w' hw => ⟨b, rest, ⟨rfl, rfl, rfl⟩, hw⟩

/-- **A request**: the same option in both games, the first within the bounds. -/
theorem relates_requestInt (lower higher : ℤ) (msg : String) (player : Player) :
    Relates (At c g g' inbox)
      (fun v v' w w' => ∃ rest, (firstOption env.parseResponse lower higher inbox = some (v, rest) ∧
        v' = v) ∧ At c g g' rest w w') (Ended i c) (requestInt env lower higher msg player)
      (requestInt env lower higher msg player) := by
  refine Relates.mono (R := fun w w' => ∃ inbox', firstOption env.parseResponse lower higher inbox' =
      firstOption env.parseResponse lower higher inbox ∧ At c g g' inbox' w w')
    (Relates.untilSome ?_ ?_ ?_) (fun w w' hw => ⟨inbox, rfl, hw⟩) fun _ _ _ _ hQ => hQ
  · rintro w w' ⟨inbox', -, hw⟩
    rw [World.pending, World.pending, hw.leftInbox, hw.rightInbox]
  · rintro w w' ⟨inbox', -, hw⟩
    exact hw.ended h
  · refine Relates.of_exists fun inbox' => Relates.of_and fun hfirst => ?_
    refine (relates_requestQuery h player).bind fun r r' => Relates.of_exists fun b =>
      Relates.of_exists fun rest => Relates.of_and ?_
    rintro ⟨rfl, rfl, rfl⟩
    rw [← hfirst, firstOption, optionOf]
    by_cases hr : higher < (env.parseResponse b).optionselected ∨
        (env.parseResponse b).optionselected < lower
    · simp only [if_pos hr]
      exact (relates_sendBytes h player.socket _).bind fun _ _ =>
        Relates.pure fun w w' hw => ⟨rest, rfl, hw⟩
    · simp only [if_neg hr]
      exact Relates.pure fun w w' hw => ⟨rest, ⟨rfl, rfl⟩, hw⟩

/-! ### Hints -/

/-- The choice of the hintee: the same in both games. -/
theorem relates_hintee (player : Player) (r : ℕ) :
    Relates (At c g g' inbox)
      (fun v v' w w' => ∃ rest, (hinteeOf env.parseResponse g.numPlayers r inbox = some (v, rest) ∧
        v' = v) ∧ At c g g' rest w w') (Ended i c)
      (untilSome .outOfFuel World.pending (hinteeRound env player r))
      (untilSome .outOfFuel World.pending (hinteeRound env player r)) := by
  refine Relates.mono (R := fun w w' => ∃ inbox',
      hinteeOf env.parseResponse g.numPlayers r inbox' =
        hinteeOf env.parseResponse g.numPlayers r inbox ∧ At c g g' inbox' w w')
    (Relates.untilSome ?_ ?_ ?_) (fun w w' hw => ⟨inbox, rfl, hw⟩) fun _ _ _ _ hQ => hQ
  · rintro w w' ⟨inbox', -, hw⟩
    rw [World.pending, World.pending, hw.leftInbox, hw.rightInbox]
  · rintro w w' ⟨inbox', -, hw⟩
    exact hw.ended h
  · refine Relates.of_exists fun inbox' => Relates.of_and fun hsame => ?_
    refine (relates_readGame Game.numPlayers).bind fun n n' => Relates.of_and ?_
    rintro ⟨rfl, rfl⟩
    rw [h.numPlayers]
    refine (relates_requestInt h (-1) (g.numPlayers - 1) _ player).bind fun _ v =>
      Relates.of_exists fun rest => Relates.of_and ?_
    rintro ⟨hfirst, rfl⟩
    rw [hinteeOf_first hfirst] at hsame
    by_cases hv : v = (r : ℤ)
    · rw [if_pos hv] at hsame ⊢
      exact (relates_send_ player.socket _).bind fun _ _ =>
        Relates.pure fun w w' hw => ⟨rest, hsame, hw⟩
    · rw [if_neg hv] at hsame ⊢
      exact Relates.pure fun w w' hw => ⟨rest, ⟨hsame.symm, rfl⟩, hw⟩

/-- In the two games a hint that touches the same places of the hand of player `i` touches a card
of player `j`, or does not. -/
theorem found_same {j : ℕ} {hint : Hint} (ht : j = i → Touches i g g' hint) :
    found g' j hint = found g j hint := by
  unfold found
  by_cases hj : j = i
  · have hplaces := congrArg (List.any · id) (ht hj)
    simp only [List.any_map, Function.id_comp] at hplaces
    rw [hj]
    exact hplaces
  · rw [h.others j hj]

theorem hands_alike (j : ℕ) : Option.Rel (fun hand hand' : List Card => hand'.length = hand.length)
    g.hands[j]? g'.hands[j]? := by
  by_cases hj : j = i
  · rw [hj]
    rcases h.own_cases with ⟨hh, hh'⟩ | ⟨hand, hand', hh, hh', hseen⟩
    · rw [hh, hh']
      exact .none
    · rw [hh, hh']
      exact .some hseen.length_eq.symm
  · rw [h.others j hj]
    cases g.hands[j]? with
    | none => exact .none
    | some hand => exact .some rfl

/-- What a round of hints to player `j` meets: the hints that are still asked for touch the same. -/
def Asking (c : Conn) (i j : ℕ) (g g' : Game) (hints : List Bytes → List Hint) (w w' : World) : Prop :=
  ∃ inbox, (j = i → ∀ hint ∈ hints inbox, Touches i g g' hint) ∧ At c g g' inbox w w'

/-- A call ends, with the same result. -/
def Done (i : ℕ) (c : Conn) (b b' : Bool) (w w' : World) : Prop := b' = b ∧ Ended i c w w'

theorem relates_giveHintTo {hints : List Bytes → List Hint} (player : Player) (r j : ℕ) {hint : Hint}
    (ht : j = i → Touches i g g' hint)
    (hrest : found g j hint = false → j = i → ∀ hint ∈ hints inbox, Touches i g g' hint) :
    Relates (At c g g' inbox) (Rounds (Asking c i j g g' hints) (Done i c)) (Ended i c)
      (giveHintTo env player r j hint) (giveHintTo env player r j hint) := by
  refine (relates_element h (hands_alike h j)).bind fun hand hand' => Relates.of_and ?_
  rintro ⟨hh, hh', -⟩
  have hfound : found g j hint = hand.any hint.targets := by
    unfold found
    rw [hh, Option.getD_some]
  have hfound' : found g' j hint = hand'.any hint.targets := by
    unfold found
    rw [hh', Option.getD_some]
  have hsame : hand'.any hint.targets = hand.any hint.targets :=
    hfound'.symm.trans ((found_same h ht).trans hfound)
  simp only [isEmpty_targeted, hsame]
  cases hany : hand.any hint.targets with
  | false =>
    exact (relates_send_ player.socket _).bind fun _ _ =>
      Relates.pure fun w w' hw => ⟨inbox, hrest (hfound.trans hany), hw⟩
  | true =>
    refine (relates_broadcast h _).bind fun _ _ => (relates_modifyGame _ _).bind fun _ _ =>
      (relates_modifyGame _ _).bind fun _ _ => Relates.pure fun w w' hw => ⟨rfl, ?_⟩
    exact hw.ended (same_hinted h ht)

/-- A loop of hints whose rounds are alike. -/
theorem relates_hintLoop {hints : List Bytes → List Hint} {j : ℕ} {body : GameM (Option Bool)}
    (hbody : ∀ inbox, (j = i → ∀ hint ∈ hints inbox, Touches i g g' hint) →
      Relates (At c g g' inbox) (Rounds (Asking c i j g g' hints) (Done i c)) (Ended i c) body body)
    (hasked : j = i → ∀ hint ∈ hints inbox, Touches i g g' hint) :
    Relates (At c g g' inbox) (Done i c) (Ended i c) (untilSome .outOfFuel World.pending body)
      (untilSome .outOfFuel World.pending body) := by
  refine Relates.mono (R := Asking c i j g g' hints) (Relates.untilSome ?_ ?_ ?_)
    (fun w w' hw => ⟨inbox, hasked, hw⟩) fun _ _ _ _ hQ => hQ
  · rintro w w' ⟨inbox', -, hw⟩
    rw [World.pending, World.pending, hw.leftInbox, hw.rightInbox]
  · rintro w w' ⟨inbox', -, hw⟩
    exact hw.ended h
  · exact Relates.of_exists fun inbox' => Relates.of_and (hbody inbox')

theorem relates_colourLoop (player : Player) (r j : ℕ)
    (hasked : j = i → ∀ hint ∈ hintsOf env.parseResponse (colourCount - 1) colourAt (found g j) inbox,
      Touches i g g' hint) :
    Relates (At c g g' inbox) (Done i c) (Ended i c)
      (untilSome .outOfFuel World.pending (colourRound env player r j))
      (untilSome .outOfFuel World.pending (colourRound env player r j)) := by
  refine relates_hintLoop h (fun inbox' hasked' => ?_) hasked
  refine (relates_requestInt h _ _ _ player).bind fun _ v => Relates.of_exists fun rest =>
    Relates.of_and ?_
  rintro ⟨hfirst, rfl⟩
  rw [hintsOf_first hfirst] at hasked'
  by_cases hv : v = -1
  · simp only [if_pos hv]
    exact Relates.pure fun w w' hw => ⟨rfl, hw.ended h⟩
  · simp only [if_neg hv] at hasked' ⊢
    refine relates_giveHintTo h player r j (fun hj => hasked' hj _ List.mem_cons_self) ?_
    intro hnone hj hint hmem
    refine hasked' hj hint (List.mem_cons_of_mem _ ?_)
    rwa [if_neg (Bool.not_eq_true _ ▸ hnone)]

theorem relates_numberLoop (player : Player) (r j : ℕ)
    (hasked : j = i → ∀ hint ∈ hintsOf env.parseResponse 5 numberAt (found g j) inbox,
      Touches i g g' hint) :
    Relates (At c g g' inbox) (Done i c) (Ended i c)
      (untilSome .outOfFuel World.pending (numberRound env player r j))
      (untilSome .outOfFuel World.pending (numberRound env player r j)) := by
  refine relates_hintLoop h (fun inbox' hasked' => ?_) hasked
  refine (relates_requestInt h _ _ _ player).bind fun _ v => Relates.of_exists fun rest =>
    Relates.of_and ?_
  rintro ⟨hfirst, rfl⟩
  rw [hintsOf_first hfirst] at hasked'
  by_cases h0 : v = 0
  · subst h0
    exact (relates_send_ player.socket _).bind fun _ _ =>
      Relates.pure fun w w' hw => ⟨rest, hasked', hw⟩
  · by_cases hv : v = -1
    · simp only [if_neg h0, if_pos hv]
      exact Relates.pure fun w w' hw => ⟨rfl, hw.ended h⟩
    · simp only [if_neg h0, if_neg hv, numberAt] at hasked' ⊢
      refine relates_giveHintTo h player r j (fun hj => hasked' hj _ List.mem_cons_self) ?_
      intro hnone hj hint hmem
      refine hasked' hj hint (List.mem_cons_of_mem _ ?_)
      rwa [if_neg (Bool.not_eq_true _ ▸ hnone)]

theorem players_alike (r : ℕ) : Option.Rel (fun player player' => player'.socket = player.socket)
    g.players[r]? g'.players[r]? := by
  have hr : (g'.players[r]?).map Player.socket = (g.players[r]?).map Player.socket := by
    rw [← List.getElem?_map, ← List.getElem?_map, h.sockets]
  cases hp : g.players[r]? with
  | none =>
    rw [hp, Option.map_none, Option.map_eq_none_iff] at hr
    rw [hr]
    exact .none
  | some player =>
    rw [hp, Option.map_some] at hr
    obtain ⟨player', hp', hsocket⟩ := Option.map_eq_some_iff.mp hr
    rw [hp']
    exact .some hsocket

theorem relates_hintDialogue (player : Player) (r : ℕ) (hblue : g.numBlueTokens ≠ 0)
    (hasked : ∀ hint, (i, hint) ∈ asked env.parseResponse g r inbox → Touches i g g' hint) :
    Relates (At c g g' inbox) (Done i c) (Ended i c) (hintDialogue env player r)
      (hintDialogue env player r) := by
  have hreturn {inbox : List Bytes} : Relates (At c g g' inbox) (Done i c) (Ended i c)
      (pure false : GameM Bool) (pure false) := Relates.pure fun w w' hw => ⟨rfl, hw.ended h⟩
  have hsend {inbox : List Bytes} (msg : String) : Relates (At c g g' inbox)
      (fun _ _ => At c g g' inbox) (Ended i c) (send_ env player.socket msg)
      (send_ env player.socket msg) := relates_send_ player.socket msg
  unfold asked at hasked
  rw [if_neg hblue] at hasked
  refine (relates_hintee h player r).bind fun _ j => Relates.of_exists fun rest => Relates.of_and ?_
  rintro ⟨hj, rfl⟩
  simp only [hj] at hasked
  by_cases hback : j = -1
  · simp only [if_pos hback]
    exact hreturn
  · simp only [if_neg hback] at hasked ⊢
    refine (hsend _).bind fun _ _ => (hsend _).bind fun _ _ => (hsend _).bind fun _ _ =>
      (relates_requestInt h (-1) 1 _ player).bind fun _ kind => Relates.of_exists fun rest' =>
        Relates.of_and ?_
    rintro ⟨hkind, rfl⟩
    simp only [hkind] at hasked
    by_cases hback' : kind = -1
    · simp only [if_pos hback']
      exact hreturn
    · simp only [if_neg hback'] at hasked ⊢
      by_cases hcolour : kind = 0
      · simp only [if_pos hcolour] at hasked ⊢
        refine (hsend _).bind fun _ _ => (relates_sendAll _ player.socket _).bind fun _ _ =>
          relates_colourLoop h player r j.toNat fun hi hint hmem => hasked hint ?_
        exact List.mem_map.mpr ⟨hint, hmem, congrArg (·, hint) hi⟩
      · simp only [if_neg hcolour] at hasked ⊢
        refine (hsend _).bind fun _ _ => (relates_sendAll _ player.socket _).bind fun _ _ =>
          relates_numberLoop h player r j.toNat fun hi hint hmem => hasked hint ?_
        exact List.mem_map.mpr ⟨hint, hmem, congrArg (·, hint) hi⟩

/-- **A hint** in the two games. -/
theorem relates_giveHint (r : ℕ)
    (hasked : ∀ hint, (i, hint) ∈ asked env.parseResponse g r inbox → Touches i g g' hint) :
    Relates (At c g g' inbox) (Done i c) (Ended i c) (giveHint env r) (giveHint env r) := by
  refine (relates_element h (players_alike h r)).bind fun player player' => Relates.of_and ?_
  rintro ⟨-, -, hsocket⟩
  refine (relates_readGame Game.numBlueTokens).bind fun n n' => Relates.of_and ?_
  rintro ⟨rfl, rfl⟩
  -- of the player only the connection is used
  obtain ⟨name, _⟩ := player
  obtain ⟨name', socket⟩ := player'
  obtain rfl := hsocket
  rw [h.numBlueTokens]
  by_cases hblue : g.numBlueTokens = 0
  · simp only [if_pos hblue]
    exact (relates_send_ socket _).bind fun _ _ => Relates.pure fun w w' hw => ⟨rfl, hw.ended h⟩
  · simp only [if_neg hblue]
    exact (relates_send_ socket _).bind fun _ _ =>
      relates_hintDialogue h ⟨name, socket⟩ r hblue hasked

/-! ### Cards that are taken -/

theorem relates_chooseCard (r : ℕ) (prompt : String) :
    Relates (At c g g' inbox) (fun v v' w w' => ∃ rest, v' = v ∧ At c g g' rest w w') (Ended i c)
      (chooseCard env r prompt) (chooseCard env r prompt) := by
  refine (relates_element h (players_alike h r)).bind fun player player' => Relates.of_and ?_
  rintro ⟨-, -, hsocket⟩
  obtain ⟨name, _⟩ := player
  obtain ⟨name', socket⟩ := player'
  obtain rfl := hsocket
  refine (relates_send_ socket _).bind fun _ _ =>
    (relates_element h (hands_alike h r)).bind fun hand hand' => Relates.of_and ?_
  rintro ⟨-, -, hlen⟩
  rw [hlen]
  refine (relates_requestInt h _ _ _ ⟨name, socket⟩).mono (fun _ _ hw => hw) ?_
  rintro v v' w w' ⟨rest, ⟨-, hv⟩, hw⟩
  exact ⟨rest, hv, hw⟩

omit h in
/-- The card that is chosen is the one that `pick` tells. -/
theorem chooseCard_pick {r : ℕ} {prompt : String} {w w' : World} {v : ℤ} (hv : v ≠ -1)
    (hr : (chooseCard env r prompt).run w = .ok v w') :
    ∃ m card, pick env w.game r w.writes w.inbox = some (v.toNat, m) ∧
      cardAt w.game r v.toNat = .ok card := by
  obtain ⟨player, w1, hplayer, hr1⟩ := bind_eq_ok hr
  obtain ⟨hp, rfl⟩ := element_ok hplayer
  rw [bind_ok (run_send_ env w _ _)] at hr1
  obtain ⟨hand, w2, hhand, -⟩ := bind_eq_ok hr1
  obtain ⟨hh, -⟩ := element_ok hhand
  rcases chooseCard_cases env hp hh prompt with ⟨-, w1, -, ⟨x, hx⟩ | hx⟩ |
    ⟨k, m, card, w1, hk, hc, hx, -, -⟩
  · cases hr.symm.trans hx
  · cases hr.symm.trans hx
    exact absurd rfl hv
  · cases hr.symm.trans hx
    exact ⟨m, card, hk, hc⟩

/-- **A play** in the two games. -/
theorem playCard_alike (r : ℕ) {w w' : World} (hw : At c g g' inbox w w')
    (htaken : ∀ k m card, pick env g r w.writes inbox = some (k, m) → cardAt g r k = .ok card →
      cardAt g' r k = .ok card ∧ (Fits g card → DrawnAlike i r g g')) :
    Both (Done i c) (Ended i c) ((playCard env r).run w) ((playCard env r).run w') := by
  unfold playCard
  refine Both.bind (relates_chooseCard h r _ w w' hw) fun v v' w1 w1' hrun => ?_
  rintro ⟨rest, rfl, hw1⟩
  by_cases hv : v' = -1
  · simp only [if_pos hv]
    exact ⟨rfl, hw1.ended h⟩
  simp only [if_neg hv]
  obtain ⟨m, card, hpick, hc⟩ := chooseCard_pick hv hrun
  rw [hw.left, hw.leftInbox] at hpick
  rw [hw.left] at hc
  obtain ⟨hc', hdrawn⟩ := htaken _ m card hpick hc
  refine Relates.bind (relates_checked h (hc'.trans hc.symm)) (fun card₁ card₂ => ?_) w1 w1' hw1
  refine Relates.of_and ?_
  rintro ⟨hcard, rfl⟩
  cases hcard.symm.trans hc
  refine (relates_element h (T := Eq) ?_).bind fun top _ => Relates.of_and ?_
  · rw [h.table]
    cases g.table[card.colour.code]? with
    | none => exact .none
    | some top => exact .some rfl
  rintro ⟨htop, -, rfl⟩
  by_cases hfits : top + 1 = card.number
  · simp only [if_pos hfits]
    have hend := same_played h v'.toNat card (hdrawn ⟨top, htop, hfits⟩)
    refine (relates_modifyGame _ _).bind fun _ _ => relates_draw.bind fun drawn drawn' =>
      Relates.of_and ?_
    rintro ⟨rfl, rfl⟩
    exact (relates_modifyGame _ _).bind fun _ _ => (relates_modifyGame _ _).bind fun _ _ =>
      (relates_broadcast hend _).bind fun _ _ => Relates.pure fun w w' hw => ⟨rfl, hw.ended hend⟩
  · simp only [if_neg hfits]
    have hend := same_misplayed h card
    refine (relates_modifyGame _ _).bind fun _ _ => (relates_modifyGame _ _).bind fun _ _ =>
      (relates_broadcast hend _).bind fun _ _ =>
        (relates_readGame Game.numBlackFuseTokens).bind fun n n' => Relates.of_and ?_
    rintro ⟨rfl, rfl⟩
    rw [hend.numBlackFuseTokens]
    exact (relates_broadcast hend _).bind fun _ _ =>
      Relates.pure fun w w' hw => ⟨rfl, hw.ended hend⟩

/-- **A discard** in the two games. -/
theorem discardCard_alike (r : ℕ) {w w' : World} (hw : At c g g' inbox w w')
    (htaken : ∀ k m card, pick env g r w.writes inbox = some (k, m) → cardAt g r k = .ok card →
      cardAt g' r k = .ok card ∧ DrawnAlike i r g g') :
    Both (Done i c) (Ended i c) ((discardCard env r).run w) ((discardCard env r).run w') := by
  unfold discardCard
  refine Both.bind (relates_chooseCard h r _ w w' hw) fun v v' w1 w1' hrun => ?_
  rintro ⟨rest, rfl, hw1⟩
  by_cases hv : v' = -1
  · simp only [if_pos hv]
    exact ⟨rfl, hw1.ended h⟩
  simp only [if_neg hv]
  obtain ⟨m, card, hpick, hc⟩ := chooseCard_pick hv hrun
  rw [hw.left, hw.leftInbox] at hpick
  rw [hw.left] at hc
  obtain ⟨hc', hdrawn⟩ := htaken _ m card hpick hc
  have hend := same_discarded h v'.toNat card hdrawn
  refine Relates.bind (relates_checked h (hc'.trans hc.symm)) (fun card₁ card₂ => ?_) w1 w1' hw1
  refine Relates.of_and ?_
  rintro ⟨hcard, rfl⟩
  cases hcard.symm.trans hc
  refine (relates_checked h rfl).bind fun str str' => Relates.of_and ?_
  rintro ⟨-, rfl⟩
  refine (relates_broadcast h _).bind fun _ _ => (relates_modifyGame _ _).bind fun _ _ =>
    (relates_modifyGame _ _).bind fun _ _ => relates_draw.bind fun drawn drawn' => Relates.of_and ?_
  rintro ⟨rfl, rfl⟩
  exact (relates_modifyGame _ _).bind fun _ _ => Relates.pure fun w w' hw => ⟨rfl, hw.ended hend⟩

end Steps

end Calls

end HanabiBot.HanabiGame.Knowledge
