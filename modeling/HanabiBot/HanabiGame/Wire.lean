import HanabiBot.HanabiGame.Display
import HanabiBot.HanabiGame.Walks

/-! # What a turn writes

The stream of a connection is the bytes of its writes, one after the other; a client cuts it into
frames again (`clientReads`). If a turn writes frames only, every client recovers the messages sent
to it (`onWire_of_framed`). A prompt is written by `send_`, without a header: once it is in the
stream, the stream is longer than the frames of its messages (`framesTo_lt`).

All three actions begin with a prompt, so a turn is in order exactly if it gets to none of them
(`turn_wire_iff`). -/

namespace HanabiBot.HanabiGame.Wire

open HanabiBot.Lib.Calls HanabiBot.Lib.Framing HanabiBot.Common.Messages
open HanabiBot.HanabiGame.Cards HanabiBot.HanabiGame.State HanabiBot.HanabiGame.Play
open HanabiBot.HanabiGame.Dialogue HanabiBot.HanabiGame.Steps HanabiBot.HanabiGame.Display
open HanabiBot.HanabiGame.Walks

/-! ### The stream of a connection -/

/-- All the writes are frames. -/
def Framed (out : List Sent) : Prop := ∀ s ∈ out, ∃ c m, s = .frame c m

section Stream
variable (codec : Codec InfoMessage) (c : Conn)

/-- The bytes a write adds to the stream of `c`. -/
def bytesTo (s : Sent) : Bytes := if s.socket = c then s.bytes codec else []

/-- The bytes written to a connection. -/
def streamTo (out : List Sent) : Bytes := out.flatMap (bytesTo codec c)

/-- The message of a write, if it is a frame for `c`. -/
def messageFor : Sent → Option InfoMessage
  | .frame c' m => if c' = c then some m else none
  | .text _ _ => none

/-- The messages sent to a connection. -/
def messagesTo (out : List Sent) : List InfoMessage := out.filterMap (messageFor c)

/-- Their frames. -/
def framesTo (out : List Sent) : Bytes :=
  (messagesTo c out).flatMap fun m => frame (codec.serialize m)

/-- What a client makes of a stream that it reads frame by frame, as `subscribeToInfo` does. -/
def clientReads (stream : Bytes) : Option (List InfoMessage) :=
  (unframes stream).bind (·.mapM codec.parse)

/-- The stream is made of the frames of the messages sent, and the client recovers the messages,
as long as they are within the limit of protobuf. -/
structure OnWire (out : List Sent) : Prop where
  framed : streamTo codec c out = framesTo codec c out
  recovered : (∀ m ∈ messagesTo c out, (codec.serialize m).length < 2 ^ 31) →
    clientReads codec (streamTo codec c out) = some (messagesTo c out)

variable {codec c}

theorem clientReads_frames {ms : List InfoMessage}
    (h : ∀ m ∈ ms, (codec.serialize m).length < 2 ^ 31) :
    clientReads codec (ms.flatMap fun m => frame (codec.serialize m)) = some ms := by
  have hsplit : (ms.flatMap fun m => frame (codec.serialize m)) =
      (ms.map codec.serialize).flatMap frame := by rw [List.flatMap_map]
  have hsize : ∀ p ∈ ms.map codec.serialize, p.length < 2 ^ 32 := by
    intro p hp
    obtain ⟨m, hm, rfl⟩ := List.mem_map.mp hp
    exact Nat.lt_trans (h m hm) (by decide)
  rw [clientReads, hsplit, unframes_frames hsize, Option.bind_some]
  clear hsplit hsize
  induction ms with
  | nil => rfl
  | cons m ms ih =>
    rw [List.map_cons, List.mapM_cons, codec.parse_serialize m (h m List.mem_cons_self),
      ih fun m hm => h m (List.mem_cons_of_mem _ hm)]
    rfl

theorem streamTo_cons (s : Sent) (out : List Sent) :
    streamTo codec c (s :: out) = bytesTo codec c s ++ streamTo codec c out := List.flatMap_cons

theorem framesTo_cons (s : Sent) (out : List Sent) :
    framesTo codec c (s :: out) = framesTo codec c [s] ++ framesTo codec c out := by
  unfold framesTo messagesTo
  rw [← List.flatMap_append, ← List.filterMap_append]
  rfl

theorem framesTo_frame (c' : Conn) (m : InfoMessage) :
    framesTo codec c [.frame c' m] = bytesTo codec c (.frame c' m) := by
  unfold bytesTo framesTo messagesTo
  by_cases h : c' = c
  · have hm : messageFor c (.frame c' m) = some m := if_pos h
    rw [List.filterMap_cons_some hm]
    exact (List.append_nil _).trans (if_pos h).symm
  · have hm : messageFor c (.frame c' m) = none := if_neg h
    rw [List.filterMap_cons_none hm]
    exact (if_neg h).symm

/-- **A stream of frames is recovered.** -/
theorem onWire_of_framed {out : List Sent} (h : Framed out) : OnWire codec c out := by
  have hframed : streamTo codec c out = framesTo codec c out := by
    induction out with
    | nil => rfl
    | cons s out ih =>
      obtain ⟨c', m, rfl⟩ := h s List.mem_cons_self
      rw [streamTo_cons, framesTo_cons, framesTo_frame,
        ih fun s hs => h s (List.mem_cons_of_mem _ hs)]
  exact ⟨hframed, fun hsize => hframed ▸ clientReads_frames hsize⟩

theorem framesTo_le (codec : Codec InfoMessage) (c : Conn) (out : List Sent) :
    (framesTo codec c out).length ≤ (streamTo codec c out).length := by
  induction out with
  | nil => exact Nat.le_refl _
  | cons s out ih =>
    rw [streamTo_cons, framesTo_cons, List.length_append, List.length_append]
    cases s with
    | frame c' m => rw [framesTo_frame]; omega
    | text c' message => exact Nat.add_le_add (Nat.zero_le _) ih

/-- **A stream with a text in it is longer than its frames.** -/
theorem framesTo_lt (codec : Codec InfoMessage) {out : List Sent} {message : String}
    (hs : .text c message ∈ out) (hne : message ≠ "") : (framesTo codec c out).length < (streamTo codec c out).length := by
  induction out with
  | nil => cases hs
  | cons s out ih =>
    rw [streamTo_cons, framesTo_cons, List.length_append, List.length_append]
    rcases List.mem_cons.mp hs with rfl | hs
    · have hpos : 0 < (bytesOf message).length := List.length_pos_iff.mpr (bytesOf_ne_nil hne)
      have hle := framesTo_le codec c out
      have hbytes : bytesTo codec c (.text c message) = bytesOf message := if_pos rfl
      have hframes : framesTo codec c [.text c message] = [] := rfl
      rw [hbytes, hframes, List.length_nil]
      omega
    · have hle := framesTo_le codec c [s]
      rw [streamTo_cons, List.length_append] at hle
      have hnil : (streamTo codec c []).length = 0 := rfl
      have ih := ih hs
      omega

end Stream

/-! ### Calls that only send frames -/

/-- Only frames were written, and `Q` holds of every frame still to be read. -/
def FramedSoFar (Q : Bytes → Prop) (w : World) : Prop := Framed w.out ∧ ∀ b ∈ w.inbox, Q b

/-- A call that sends frames only, up to a failure too. -/
def SendsFrames {α : Type} (Q : Bytes → Prop) (p : GameM α) : Prop :=
  Within (FramedSoFar Q) (fun _ w => Framed w.out) p

section SendsFrames
variable (env : Env) {Q : Bytes → Prop}

theorem sendsFrames_sendBytes (c : Conn) (m : InfoMessage) : SendsFrames Q (sendBytes env c m) := by
  intro w ⟨hf, hq⟩
  rw [run_sendBytes]
  split_ifs
  · refine ⟨fun s hs => ?_, hq⟩
    rcases List.mem_append.mp hs with hs | hs
    · exact hf s hs
    · exact ⟨c, m, List.mem_singleton.mp hs⟩
  · exact hf

theorem sendsFrames_sendInfo (c : Conn) (s : String) : SendsFrames Q (sendInfo env c s) :=
  sendsFrames_sendBytes env c _

theorem sendsFrames_broadcast (msg : String) : SendsFrames Q (broadcast env msg) :=
  broadcast_within (fun _ _ => sendsFrames_sendInfo env _ _) msg

theorem sendsFrames_element {α : Type} (l : Game → List α) (i : ℕ) :
    SendsFrames Q (element l i) := by
  intro w hw
  cases h : (l w.game)[i]? with
  | none => rw [run_element_none h]; exact hw.1
  | some a => rw [run_element h]; exact hw

theorem sendsFrames_checked {α : Type} (f : Game → Except Fault α) : SendsFrames Q (checked f) := by
  intro w hw
  cases h : f w.game with
  | error e => rw [run_checked_error h]; exact hw.1
  | ok a => rw [run_checked_ok h]; exact hw

theorem sendsFrames_readGame {α : Type} (f : Game → α) : SendsFrames Q (readGame f) :=
  fun _ hw => hw

theorem sendsFrames_display : SendsFrames Q (display env) := by
  refine Within.bind (Within.bind (sendsFrames_readGame _) fun _ => sendsFrames_broadcast env _)
    fun _ => ?_
  refine Within.bind (Within.bind (sendsFrames_checked _) fun _ => sendsFrames_broadcast env _)
    fun _ => ?_
  refine Within.bind (sendsFrames_readGame _) fun _ => Within.forM fun i _ => ?_
  refine Within.bind (sendsFrames_checked _) fun _ => ?_
  exact Within.bind (sendsFrames_element _ _) fun _ => sendsFrames_sendInfo env _ _

theorem sendsFrames_requestQuery (player : Player) : SendsFrames Q (requestQuery env player) := by
  refine Within.bind (sendsFrames_sendBytes env _ _) fun _ => ?_
  have hread : SendsFrames Q readBytesCatch := by
    intro w ⟨hf, hq⟩
    rw [run_readBytesCatch]
    cases h : w.inbox with
    | nil => exact ⟨hf, hq⟩
    | cons b rest =>
      rw [h] at hq
      exact ⟨hf, fun b hb => hq b (List.mem_cons_of_mem _ hb)⟩
  refine Within.bind hread fun o => ?_
  cases o with
  | none => exact Within.throw fun _ hw => hw.1
  | some b => exact Within.pure _

theorem sendsFrames_requestInt (lower higher : ℤ) (msg : String) (player : Player) :
    SendsFrames Q (requestInt env lower higher msg player) := by
  refine Within.untilSome (requestIntRound_shrinks env lower higher msg player) ?_
  refine Within.bind (sendsFrames_requestQuery env player) fun _ => Within.ite ?_ (Within.pure _)
  exact Within.bind (sendsFrames_sendInfo env _ _) fun _ => Within.pure _

end SendsFrames

/-! ### What is written stays written -/

/-- Writes are only added, and inputs only read. -/
def onward : Frame World where
  rel w w' := w.out <+: w'.out ∧ w'.pending ≤ w.pending
  refl _ := ⟨List.prefix_refl _, Nat.le_refl _⟩
  trans h h' := ⟨h.1.trans h'.1, Nat.le_trans h'.2 h.2⟩

section Onward
variable (env : Env) {i : ℕ}

theorem onward_walk : Walk env onward fun _ => True where
  player h := Keeps.bind (keeps_element _ _) fun player => h player trivial
  players h := Keeps.bind (keeps_readGame _) fun players => h players fun _ _ => trivial
  modifyGame _ w := onward.refl w
  sendBytes _ m w := by
    unfold after
    rw [run_sendBytes]
    split_ifs
    · exact ⟨List.prefix_append _ _, Nat.le_refl _⟩
    · exact onward.refl w
  send_ {player} _ s w := by
    rw [after_of_ok (run_send_ env w player.socket s)]
    refine ⟨?_, Nat.le_refl _⟩
    simp only
    split_ifs
    · exact List.prefix_append _ _
    · exact List.prefix_refl _
  readBytesCatch w := by
    unfold after
    rw [run_readBytesCatch]
    cases h : w.inbox with
    | nil => exact onward.refl w
    | cons b rest =>
      refine ⟨List.prefix_refl _, ?_⟩
      simp only [World.pending, World.reading_inbox, h, List.length_cons]
      omega

/-- A call for player `i` that begins with a prompt. -/
structure Prompted {α : Type} (i : ℕ) (p : GameM α) : Prop where
  onward : Keeps onward p
  prompt : ∀ w player, w.game.players[i]? = some player → ∃ s, s ≠ "" ∧
    Wire.onward.rel (after (send_ env player.socket s) w) (after p w)

variable {env}

theorem Prompted.bind {α β : Type} {p : GameM α} {f : α → GameM β} (hp : Prompted env i p)
    (hf : ∀ a, Keeps Wire.onward (f a)) : Prompted env i (p >>= f) where
  onward := hp.onward.bind hf
  prompt w player hplayer := by
    obtain ⟨s, hs, h⟩ := hp.prompt w player hplayer
    exact ⟨s, hs, Wire.onward.trans h (Keeps.after_bind hf w)⟩

/-- What begins with a look at the player and goes on with a prompt. -/
theorem prompted_send {α : Type} {prompt : String} (hs : prompt ≠ "") {f : Player → GameM α}
    (hf : ∀ player, Keeps Wire.onward (f player)) : Prompted env i (do
      let player ← element Game.players i
      send_ env player.socket prompt
      f player) where
  onward := (onward_walk env).player fun _ _ =>
    Keeps.bind ((onward_walk env).send_ trivial _) fun _ => hf _
  prompt w player hplayer := by
    refine ⟨prompt, hs, ?_⟩
    rw [after_bind_ok (run_element hplayer)]
    exact Keeps.after_bind (fun _ => hf player) w

theorem prompted_chooseCard {prompt : String} (hs : prompt ≠ "") :
    Prompted env i (chooseCard env i prompt) :=
  prompted_send hs fun _ => Keeps.bind (keeps_element _ _) fun _ =>
    (onward_walk env).requestInt _ _ _ trivial

theorem prompted_playCard : Prompted env i (playCard env i) := by
  obtain ⟨rest, h, hrest⟩ := (onward_walk env).playCard_split (i := i)
  rw [h]
  exact (prompted_chooseCard (by decide)).bind hrest

theorem prompted_discardCard : Prompted env i (discardCard env i) := by
  obtain ⟨rest, h, hrest⟩ := (onward_walk env).discardCard_split (i := i)
  rw [h]
  exact (prompted_chooseCard (by decide)).bind hrest

theorem prompted_giveHint : Prompted env i (giveHint env i) where
  onward := (onward_walk env).giveHint
  prompt w player hplayer := by
    rw [giveHint, after_bind_ok (run_element hplayer), after_bind_ok (run_readGame w _)]
    split_ifs
    · exact ⟨_, by decide, Keeps.after_bind (fun _ => Keeps.pure _) w⟩
    · exact ⟨_, by decide, Keeps.after_bind (fun _ => (onward_walk env).hintDialogue trivial) w⟩

end Onward

/-! ### A turn -/

section Turn
variable {parse : Bytes → ClientResponse}

/-- Everything a turn writes, on a healthy network. -/
def turnOutput (parse : Bytes → ClientResponse) (g : Game) (i : ℕ) (responses : List Bytes) :
    List Sent :=
  (after (turn (Env.healthy parse) i) ⟨g, responses, 0, []⟩).out

/-- The response selects none of the three actions. -/
def NoAction (parse : Bytes → ClientResponse) (b : Bytes) : Prop :=
  optionOf parse b < 0 ∨ 2 < optionOf parse b

theorem framed_of_sendsFrames {α : Type} {Q : Bytes → Prop} {p : GameM α} (h : SendsFrames Q p)
    {w : World} (hw : FramedSoFar Q w) : Framed (after p w).out := by
  cases hr : p.run w with
  | ok a w' => rw [after_of_ok hr]; exact (h.of_ok hw hr).1
  | error e w' => rw [after_of_error hr]; exact h.of_error hw hr

/-- A round of `turn` that goes on has read an input. -/
theorem shrinks_turnRound (env : Env) (i : ℕ) : Shrinks World.pending (turnRound env i) := by
  intro w w' h
  obtain ⟨done, w1, h1, h⟩ := bind_eq_ok h
  obtain ⟨player, w2, h2, h1⟩ := bind_eq_ok h1
  obtain ⟨action, w3, h3, h1⟩ := bind_eq_ok h1
  have hw2 : w2.pending ≤ w.pending := ((keeps_element (F := onward) _ _).of_ok h2).2
  have hw3 : w3.pending < w2.pending := (requestInt_ok h3).1
  have hw1 : w1.pending ≤ w3.pending := by
    split_ifs at h1
    · exact ((onward_walk env).playCard.of_ok h1).2
    · exact ((onward_walk env).discardCard.of_ok h1).2
    · exact ((onward_walk env).giveHint.of_ok h1).2
    · cases h1
  have hw' : w1 = w' := (EStateM.Result.ok.inj h).2
  rw [← hw']
  omega

/-- A turn that gets to no action sends frames only. -/
theorem sendsFrames_turn (i : ℕ) :
    SendsFrames (NoAction parse) (turn (Env.healthy parse) i) := by
  refine Within.bind (sendsFrames_display _) fun _ => Within.bind (sendsFrames_element _ _)
    fun player => ?_
  refine Within.bind (sendsFrames_sendInfo _ _ _) fun _ => Within.bind (sendsFrames_readGame _)
    fun players => ?_
  refine Within.bind (Within.forM fun p _ => Within.ite (sendsFrames_sendInfo _ _ _) (Within.pure _))
    fun _ => Within.untilSome (shrinks_turnRound _ _) ?_
  refine Within.bind (Within.bind (sendsFrames_element _ _) fun player => ?_) fun _ => Within.pure _
  refine Within.bind_error (sendsFrames_requestInt _ _ _ _ _) fun w hw => ?_
  exact requestInt_none _ rfl (answer_healthy_eq_none.mpr fun b hb => (hw.2 b hb).symm)

/-- A turn whose display faults sends frames only. -/
theorem framed_of_not_displayable {g : Game} (hd : ¬ Displayable g) (i : ℕ)
    (responses : List Bytes) : Framed (turnOutput parse g i responses) := by
  obtain ⟨e, w', hrun⟩ :=
    display_fault (Env.healthy parse) (w := ⟨g, responses, 0, []⟩) hd rfl
  have hturn : after (turn (Env.healthy parse) i) ⟨g, responses, 0, []⟩ = w' :=
    after_of_error (bind_error hrun)
  rw [turnOutput, hturn]
  exact (sendsFrames_display (Q := fun _ => True) _).of_error
    ⟨fun _ h => absurd h List.not_mem_nil, fun _ _ => trivial⟩ hrun

/-- An action that is reached sends its prompt. -/
theorem selectAction_prompt {i : ℕ} {w : World} {player : Player}
    (hplayer : w.game.players[i]? = some player) (hb : ∃ b ∈ w.inbox, ¬ NoAction parse b) :
    ∃ s, s ≠ "" ∧ .text player.socket s ∈ (after (selectAction (Env.healthy parse) i) w).out := by
  have hsome : answer (Env.healthy parse) player.socket 0 2 w.writes w.inbox ≠ none := by
    intro hnone
    obtain ⟨b, hb, hin⟩ := hb
    exact hin (answer_healthy_eq_none.mp hnone b hb).symm
  obtain ⟨⟨v, m⟩, ha⟩ := Option.ne_none_iff_exists'.mp hsome
  obtain ⟨w', hr, -⟩ := requestInt_some "Invalid action. Please try again.\n" rfl ha
  have hrange := answer_range ha
  have hplayer' : w'.game.players[i]? = some player := by
    rw [(talks_requestInt _ _ _ _ _).of_ok hr]
    exact hplayer
  rw [selectAction, after_bind_ok (run_element hplayer), after_bind_ok hr]
  have hprompt : ∀ {p : GameM Bool}, Prompted (Env.healthy parse) i p →
      ∃ s, s ≠ "" ∧ .text player.socket s ∈ (after p w').out := by
    intro p hp
    obtain ⟨s, hs, hrel⟩ := hp.prompt w' player hplayer'
    exact ⟨s, hs, hrel.1.subset (List.mem_append_right _ (List.mem_singleton_self _))⟩
  split_ifs with h0 h1 h2
  · exact hprompt prompted_playCard
  · exact hprompt prompted_discardCard
  · exact hprompt prompted_giveHint
  · omega

/-- A turn that is displayed and gets to an action writes a prompt. -/
theorem turn_prompt {g : Game} (hd : Displayable g) {i : ℕ} {player : Player}
    (hplayer : g.players[i]? = some player) {responses : List Bytes}
    (hb : ∃ b ∈ responses, ¬ NoAction parse b) :
    ∃ s, s ≠ "" ∧ .text player.socket s ∈ turnOutput parse g i responses := by
  have hs : ∀ c s, Within (fun w => w.game = g ∧ w.inbox = responses) (fun _ _ => False)
      (sendInfo (Env.healthy parse) c s) := fun c s w hw => hw
  obtain ⟨_, w1, h1, hw1⟩ := (display_within (fun _ hw => hw.1) hs hd).run_ok
    (s := ⟨g, responses, 0, []⟩) ⟨rfl, rfl⟩
  rw [turnOutput, turn, after_bind_ok h1, after_bind_ok (run_element (hw1.1 ▸ hplayer))]
  obtain ⟨_, w2, h2, hw2⟩ := (hs player.socket "It's your turn!\n").run_ok hw1
  rw [after_bind_ok h2, after_bind_ok (run_readGame w2 _)]
  have hothers : Within (fun w => w.game = g ∧ w.inbox = responses) (fun _ _ => False)
      (w2.game.players.zipIdx.forM fun p =>
        if p.2 ≠ i then
          sendInfo (Env.healthy parse) p.1.socket
            ("It's player " ++ toString i ++ "'s turn! (" ++ player.name ++ ")\n")
        else return ⟨⟩) :=
    Within.forM fun p _ => Within.ite (hs _ _) (Within.pure _)
  obtain ⟨_, w3, h3, hw3⟩ := hothers.run_ok hw2
  rw [after_bind_ok h3]
  obtain ⟨s, hne, htext⟩ := selectAction_prompt (w := w3) (hw3.1 ▸ hplayer) (hw3.2 ▸ hb)
  have hround : onward.rel (after (selectAction (Env.healthy parse) i) w3)
      (after (turnRound (Env.healthy parse) i) w3) := Keeps.after_bind (fun _ => Keeps.pure _) w3
  have hkeeps : Keeps onward (turnRound (Env.healthy parse) i) := (onward_walk _).turnRound
  have hloop := hkeeps.after_untilSome Stop.outOfFuel (shrinks_turnRound _ i) w3
  exact ⟨s, hne, hloop.1.subset (hround.1.subset htext)⟩

/-- **When a turn keeps to the wire format**: exactly if its display faults before anything is
asked, or no response selects an action. -/
theorem turn_wire_iff (codec : Codec InfoMessage) (parse : Bytes → ClientResponse) (g : Game)
    (i : Fin g.numPlayers) (responses : List Bytes) :
    (∀ c, OnWire codec c (turnOutput parse g i responses)) ↔
      ¬ Displayable g ∨ ∀ b ∈ responses, NoAction parse b := by
  constructor
  · intro hwire
    by_contra hcond
    push Not at hcond
    obtain ⟨s, hne, htext⟩ := turn_prompt hcond.1 (List.getElem?_eq_getElem i.isLt) hcond.2
    have hlt := framesTo_lt codec htext hne
    rw [(hwire _).framed] at hlt
    exact Nat.lt_irrefl _ hlt
  · rintro (hd | hno) c
    · exact onWire_of_framed (framed_of_not_displayable hd i responses)
    · exact onWire_of_framed (framed_of_sendsFrames (sendsFrames_turn i)
        ⟨fun _ h => absurd h List.not_mem_nil, hno⟩)

/-- The prompt of a first play is no frame, whatever the codec. -/
theorem turn_play_unframed : ¬ ∃ codec : Codec InfoMessage, ∀ c, OnWire codec c
    (turnOutput parseOption (dealt (guests 2) 0 Shuffle.unshuffled) 0 [[8, 0]]) := by
  rintro ⟨codec, hwire⟩
  have hd : Displayable (dealt (guests 2) 0 Shuffle.unshuffled) :=
    (displayable_iff (shape_dealt (guests 2) 0 Shuffle.unshuffled)).mpr (by decide)
  have hplayer : (dealt (guests 2) 0 Shuffle.unshuffled).players[0]? = some ⟨"Guest 0", 0⟩ := rfl
  have hplay : ∃ b ∈ ([[8, 0]] : List Bytes), ¬ NoAction parseOption b :=
    ⟨[8, 0], List.mem_singleton_self _, by unfold NoAction; decide⟩
  obtain ⟨s, hne, htext⟩ := turn_prompt hd hplayer hplay
  have hlt := framesTo_lt codec htext hne
  rw [(hwire _).framed] at hlt
  exact Nat.lt_irrefl _ hlt

end Turn

end HanabiBot.HanabiGame.Wire
