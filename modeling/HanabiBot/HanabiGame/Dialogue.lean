import HanabiBot.HanabiGame.Audience

/-! # The dialogues

What the socket calls of a game do, once per call.

* Whatever the network does, they leave the game alone and fail with exceptions only (`Talks`), and
  a number they return is in range and has cost an input (`requestInt_ok`).
* Which response counts is decided by the responses and the writes that go out: `requestInt` returns
  the `answer` (`requestInt_some`), or fails for want of one (`requestInt_none`); a `broadcast`
  succeeds if it is `heard` (`broadcast_heard`). -/

namespace HanabiBot.HanabiGame.Dialogue

open HanabiBot.Lib.Calls HanabiBot.Common.Messages
open HanabiBot.HanabiGame.Cards HanabiBot.HanabiGame.State HanabiBot.HanabiGame.Play
open HanabiBot.HanabiGame.Audience

/-! ### On any network -/

/-- The worlds with the same game and the same input: what a write leaves alone. -/
def quiet : Frame World := Frame.same fun w => (w.game, w.inbox)

/-- A failure that is an exception and leaves the game `g`. -/
def Fails (g : Game) (e : Stop) (w : World) : Prop := (∃ x, e = .exn x) ∧ w.game = g

/-- A call that leaves the game `g` alone and fails, if it does, with an exception. -/
def TalksIn {α : Type} (g : Game) (p : GameM α) : Prop :=
  Within (fun w => w.game = g) (Fails g) p

/-- The same for any game. -/
def Talks {α : Type} (p : GameM α) : Prop := ∀ g, TalksIn g p

section Talks
variable {α β : Type}

theorem Talks.of_ok {p : GameM α} (h : Talks p) {w w' : World} {a : α} (hp : p.run w = .ok a w') :
    w'.game = w.game := (h w.game).of_ok rfl hp

theorem Talks.of_error {p : GameM α} (h : Talks p) {w w' : World} {e : Stop}
    (hp : p.run w = .error e w') : (∃ x, e = .exn x) ∧ w'.game = w.game :=
  (h w.game).of_error rfl hp

/-- What holds after talking holds of the whole, if it holds of a failure on the way. -/
theorem TalksIn.bind_rule {g : Game} {p : GameM α} (h : TalksIn g p) {f : α → GameM β} {w : World}
    (hw : w.game = g) {P : EStateM.Result Stop World β → Prop}
    (hok : ∀ a w', p.run w = .ok a w' → w'.game = g → P ((f a).run w'))
    (herr : ∀ x w', w'.game = g → P (.error (.exn x) w')) : P ((p >>= f).run w) := by
  rcases bind_cases p f w with ⟨a, w', hp, hb⟩ | ⟨e, w', hp, hb⟩
  · rw [hb]
    exact hok a w' hp (Within.of_ok h hw hp)
  · obtain ⟨⟨x, rfl⟩, hg⟩ := Within.of_error h hw hp
    rw [hb]
    exact herr x w' hg

theorem Talks.bind_rule {p : GameM α} (h : Talks p) {f : α → GameM β} {w : World}
    {P : EStateM.Result Stop World β → Prop}
    (hok : ∀ a w', p.run w = .ok a w' → w'.game = w.game → P ((f a).run w'))
    (herr : ∀ x w', w'.game = w.game → P (.error (.exn x) w')) : P ((p >>= f).run w) :=
  (h w.game).bind_rule rfl hok herr

theorem Talks.pure (a : α) : Talks (Pure.pure a : GameM α) := fun _ => Within.pure a

theorem Talks.throw (x : Exn) : Talks (throw (Stop.exn x) : GameM α) :=
  fun _ => Within.throw fun _ hw => ⟨⟨x, rfl⟩, hw⟩

theorem Talks.bind {p : GameM α} (hp : Talks p) {f : α → GameM β} (hf : ∀ a, Talks (f a)) :
    Talks (p >>= f) := fun g => Within.bind (hp g) fun a => hf a g

theorem Talks.ite {c : Prop} [Decidable c] {p q : GameM α} (hp : Talks p) (hq : Talks q) :
    Talks (if c then p else q) := fun g => Within.ite (hp g) (hq g)

theorem Talks.forM {l : List β} {f : β → GameM PUnit} (h : ∀ b, Talks (f b)) :
    Talks (l.forM f) := fun g => Within.forM fun b _ => h b g

theorem Talks.untilSome {size : World → ℕ} {body : GameM (Option α)} (hs : Shrinks size body)
    (h : Talks body) : Talks (Lib.Calls.untilSome .outOfFuel size body) :=
  fun g => Within.untilSome hs (h g)

theorem talks_readGame (f : Game → α) : Talks (readGame f) := fun _ _ hw => hw

end Talks

section AnyNetwork
variable (env : Env)

theorem quiet_sendBytes (c : Conn) (m : InfoMessage) : Keeps quiet (sendBytes env c m) := by
  intro w
  unfold after
  rw [run_sendBytes]
  split_ifs <;> rfl

theorem quiet_sendInfo (c : Conn) (s : String) : Keeps quiet (sendInfo env c s) :=
  quiet_sendBytes env c _

theorem talks_sendBytes (c : Conn) (m : InfoMessage) : Talks (sendBytes env c m) := by
  intro g w hw
  rw [run_sendBytes]
  split_ifs
  · exact hw
  · exact ⟨⟨_, rfl⟩, hw⟩

theorem talks_sendInfo (c : Conn) (s : String) : Talks (sendInfo env c s) := talks_sendBytes env c _

theorem talks_send_ (c : Conn) (s : String) : Talks (send_ env c s) := fun _ _ hw => hw

theorem talks_broadcast (msg : String) : Talks (broadcast env msg) :=
  Talks.bind (talks_readGame _) fun _ => Talks.forM fun _ => talks_sendInfo env _ _

theorem talks_readBytesCatch : Talks readBytesCatch := by
  intro g w hw
  rw [run_readBytesCatch]
  cases w.inbox <;> exact hw

theorem talks_requestQuery (player : Player) : Talks (requestQuery env player) := by
  refine Talks.bind (talks_sendBytes env _ _) fun _ => Talks.bind talks_readBytesCatch fun o => ?_
  cases o with
  | none => exact Talks.throw _
  | some b => exact Talks.pure _

theorem talks_requestIntRound (lower higher : ℤ) (msg : String) (player : Player) :
    Talks (requestIntRound env lower higher msg player) :=
  Talks.bind (talks_requestQuery env player) fun _ =>
    Talks.ite (Talks.bind (talks_sendInfo env _ _) fun _ => Talks.pure _) (Talks.pure _)

theorem requestQuery_ok {env : Env} {player : Player} {w w' : World} {r : ClientResponse}
    (h : (requestQuery env player).run w = .ok r w') :
    ∃ b, w.inbox = b :: w'.inbox ∧ r = env.parseResponse b := by
  obtain ⟨_, w1, h1, h⟩ := bind_eq_ok h
  obtain ⟨o, w2, h2, h⟩ := bind_eq_ok h
  have hi : w1.inbox = w.inbox := congrArg Prod.snd ((quiet_sendBytes env _ _).of_ok h1)
  rw [run_readBytesCatch] at h2
  cases hb : w1.inbox with
  | nil => rw [hb] at h2; cases h2; cases h
  | cons b rest =>
    rw [hb] at h2
    cases h2
    cases h
    exact ⟨b, hi.symm.trans hb, rfl⟩

/-- A round of `requestInt` reads an input; what it returns is in range. -/
theorem requestIntRound_ok {env : Env} {lower higher : ℤ} {msg : String} {player : Player}
    {w w' : World} {o : Option ℤ} (h : (requestIntRound env lower higher msg player).run w = .ok o w') :
    w'.pending < w.pending ∧ ∀ v, o = some v → lower ≤ v ∧ v ≤ higher := by
  obtain ⟨r, w1, h1, h⟩ := bind_eq_ok h
  obtain ⟨b, hb, -⟩ := requestQuery_ok h1
  have hlt : w1.pending < w.pending := by simp [World.pending, hb]
  simp only at h
  split_ifs at h with hr
  · obtain ⟨_, w2, h2, h⟩ := bind_eq_ok h
    have hi : w2.inbox = w1.inbox := congrArg Prod.snd ((quiet_sendInfo env _ _).of_ok h2)
    cases h
    refine ⟨?_, by simp⟩
    rw [World.pending, hi]; exact hlt
  · cases h
    refine ⟨hlt, fun v hv => ?_⟩
    cases hv
    omega

theorem requestIntRound_shrinks (lower higher : ℤ) (msg : String) (player : Player) :
    Shrinks World.pending (requestIntRound env lower higher msg player) :=
  fun _ _ h => (requestIntRound_ok h).1

theorem talks_requestInt (lower higher : ℤ) (msg : String) (player : Player) :
    Talks (requestInt env lower higher msg player) :=
  Talks.untilSome (requestIntRound_shrinks env lower higher msg player)
    (talks_requestIntRound env lower higher msg player)

/-- **What `requestInt` returns** is in range, and has cost an input. -/
theorem requestInt_ok {env : Env} {lower higher : ℤ} {msg : String} {player : Player}
    {w w' : World} {v : ℤ} (h : (requestInt env lower higher msg player).run w = .ok v w') :
    w'.pending < w.pending ∧ lower ≤ v ∧ v ≤ higher := by
  have key := untilSome_rule Stop.outOfFuel
    (requestIntRound_shrinks env lower higher msg player)
    (P := fun w r => ∀ v w', r = .ok v w' → w'.pending < w.pending ∧ lower ≤ v ∧ v ≤ higher)
    (fun s a s' hs v w' hr => by
      cases hr
      exact ⟨(requestIntRound_ok hs).1, (requestIntRound_ok hs).2 a rfl⟩)
    (fun s s' r hs ih v w' hr => by
      obtain ⟨h1, h2⟩ := ih v w' hr
      exact ⟨Nat.lt_trans h1 (requestIntRound_ok hs).1, h2⟩)
    (fun s e s' _ v w' hr => by cases hr) w
  exact key v w' h

end AnyNetwork

/-! ### Which answer counts -/

/-- The option a received frame selects, as `requestInt` reads it. -/
def optionOf (parse : Bytes → ClientResponse) (b : Bytes) : ℤ := (parse b).optionselected

/-- The first response within the bounds, and the writes made by then, for a `requestInt` that
starts after `n` writes; `none` if a write fails first, or the responses run out. -/
def answer (env : Env) (socket : Conn) (lower higher : ℤ) : ℕ → List Bytes → Option (ℤ × ℕ)
  | _, [] => none
  | n, b :: rest =>
    if env.writeOk n socket then
      if higher < optionOf env.parseResponse b ∨ optionOf env.parseResponse b < lower then
        if env.writeOk (n + 1) socket then answer env socket lower higher (n + 2) rest else none
      else some (optionOf env.parseResponse b, n + 1)
    else none

/-- Every write of a `broadcast` that starts after `n` writes goes out. -/
def heard (env : Env) : ℕ → List Player → Bool
  | _, [] => true
  | n, player :: players => env.writeOk n player.socket && heard env (n + 1) players

theorem answer_range {env : Env} {socket : Conn} {lower higher v : ℤ} {m : ℕ} :
    ∀ {inbox : List Bytes} {n : ℕ}, answer env socket lower higher n inbox = some (v, m) →
      lower ≤ v ∧ v ≤ higher
  | [], _, h => by cases h
  | b :: inbox, n, h => by
    unfold answer at h
    split_ifs at h with _ hr
    · exact answer_range h
    · cases h
      omega

/-- On a healthy network any response in range is reached. -/
theorem answer_healthy_eq_none {parse : Bytes → ClientResponse} {socket : Conn} {lower higher : ℤ} :
    ∀ {inbox : List Bytes} {n : ℕ},
      answer (Env.healthy parse) socket lower higher n inbox = none ↔
        ∀ b ∈ inbox, higher < optionOf parse b ∨ optionOf parse b < lower
  | [], n => by simp [answer]
  | b :: inbox, n => by
    have ih : answer (Env.healthy parse) socket lower higher (n + 2) inbox = none ↔ _ :=
      answer_healthy_eq_none
    rw [List.forall_mem_cons, ← ih]
    simp only [answer, Env.healthy_writeOk, Env.healthy_parseResponse, if_true]
    split_ifs with hr
    · exact (and_iff_right hr).symm
    · exact iff_of_false id fun h => hr h.1

theorem heard_healthy (parse : Bytes → ClientResponse) :
    ∀ (n : ℕ) (players : List Player), heard (Env.healthy parse) n players = true
  | _, [] => rfl
  | n, _ :: players => heard_healthy parse (n + 1) players

section Answers
variable {env : Env}

theorem sendBytes_ok (m : InfoMessage) {c : Conn} {w : World} (h : env.writeOk w.writes c = true) :
    (sendBytes env c m).run w = .ok ⟨⟩ (w.sent [.frame c m]) := by
  rw [run_sendBytes, if_pos h]

theorem requestQuery_cons {player : Player} {w : World} {b : Bytes} {rest : List Bytes}
    (hb : w.inbox = b :: rest) (h : env.writeOk w.writes player.socket = true) :
    (requestQuery env player).run w = .ok (env.parseResponse b)
      ((w.sent [.frame player.socket ⟨some "QUERY", some .break⟩]).reading rest) := by
  unfold requestQuery
  rw [bind_ok (sendBytes_ok _ h)]
  have hr : readBytesCatch.run (w.sent [.frame player.socket ⟨some "QUERY", some .break⟩]) =
      .ok (some b) ((w.sent [.frame player.socket ⟨some "QUERY", some .break⟩]).reading rest) := by
    rw [run_readBytesCatch, World.sent_inbox, hb]
  rw [bind_ok hr]
  rfl

/-- Without a write, or without a frame, a query fails. -/
theorem requestQuery_failed (env : Env) (player : Player) {w : World}
    (h : w.inbox = [] ∨ ¬ env.writeOk w.writes player.socket = true) :
    ∃ e w', (requestQuery env player).run w = .error e w' ∧ w'.inbox = w.inbox ∧
      (e = .exn (.write player.socket) ∧ w'.out = w.out ∨
        e = .exn .read ∧ w'.inbox = [] ∧
          w'.out = w.out ++ [.frame player.socket ⟨some "QUERY", some .break⟩]) := by
  unfold requestQuery
  by_cases hw : env.writeOk w.writes player.socket = true
  · have hnil : w.inbox = [] := h.resolve_right (not_not.mpr hw)
    have hr : readBytesCatch.run (w.sent [.frame player.socket ⟨some "QUERY", some .break⟩]) =
        .ok none (w.sent [.frame player.socket ⟨some "QUERY", some .break⟩]) := by
      rw [run_readBytesCatch, World.sent_inbox, hnil]
    rw [bind_ok (sendBytes_ok _ hw), bind_ok hr]
    exact ⟨_, _, rfl, rfl, Or.inr ⟨rfl, hnil, rfl⟩⟩
  · rw [bind_error ((run_sendBytes _ _ _ _).trans (if_neg hw))]
    exact ⟨_, _, rfl, rfl, Or.inl ⟨rfl, rfl⟩⟩

section RequestInt
variable {lower higher : ℤ} (msg : String) {player : Player} {w : World} {b : Bytes}
  {rest : List Bytes}

/-- An option within the bounds is taken. -/
theorem requestInt_taken (hb : w.inbox = b :: rest) (hw : env.writeOk w.writes player.socket = true)
    (hr : ¬ (higher < optionOf env.parseResponse b ∨ optionOf env.parseResponse b < lower)) :
    (requestInt env lower higher msg player).run w = .ok (optionOf env.parseResponse b)
      ((w.sent [.frame player.socket ⟨some "QUERY", some .break⟩]).reading rest) := by
  refine untilSome_some ?_
  unfold optionOf at hr
  unfold requestIntRound
  rw [bind_ok (requestQuery_cons hb hw)]
  simp only
  rw [if_neg hr]
  rfl

/-- Any other is refused, and asked for again. -/
theorem requestInt_refused (hb : w.inbox = b :: rest)
    (hw : env.writeOk w.writes player.socket = true)
    (hr : higher < optionOf env.parseResponse b ∨ optionOf env.parseResponse b < lower) :
    (requestInt env lower higher msg player).run w =
      if env.writeOk (w.writes + 1) player.socket then
        (requestInt env lower higher msg player).run
          ((w.sent [.frame player.socket ⟨some "QUERY", some .break⟩,
            .frame player.socket ⟨some msg, some .continue⟩]).reading rest)
      else .error (.exn (.write player.socket))
        { (w.sent [.frame player.socket ⟨some "QUERY", some .break⟩]).reading rest with
          writes := w.writes + 2 } := by
  unfold optionOf at hr
  have hround : (requestIntRound env lower higher msg player).run w =
      if env.writeOk (w.writes + 1) player.socket then
        .ok none ((w.sent [.frame player.socket ⟨some "QUERY", some .break⟩,
          .frame player.socket ⟨some msg, some .continue⟩]).reading rest)
      else .error (.exn (.write player.socket))
        { (w.sent [.frame player.socket ⟨some "QUERY", some .break⟩]).reading rest with
          writes := w.writes + 2 } := by
    unfold requestIntRound
    rw [bind_ok (requestQuery_cons hb hw)]
    simp only
    rw [if_pos hr]
    split_ifs with hm
    · rw [sendInfo, bind_ok (sendBytes_ok _ hm)]
      simp only [World.sent, World.reading, List.append_assoc]
      rfl
    · exact bind_error ((run_sendBytes _ _ _ _).trans (if_neg hm))
  split_ifs at hround ⊢ with hm
  · rw [requestInt, untilSome_eq (requestIntRound_shrinks _ _ _ _ _) hround]
  · exact untilSome_error hround

/-- Without a query, or without a frame, it fails. -/
theorem requestInt_failed (h : w.inbox = [] ∨ ¬ env.writeOk w.writes player.socket = true) :
    ∃ e w', (requestInt env lower higher msg player).run w = .error e w' ∧ w'.inbox = w.inbox ∧
      (e = .exn (.write player.socket) ∧ w'.out = w.out ∨
        e = .exn .read ∧ w'.inbox = [] ∧
          w'.out = w.out ++ [.frame player.socket ⟨some "QUERY", some .break⟩]) := by
  obtain ⟨e, w', hr, hi, he⟩ := requestQuery_failed env player h
  exact ⟨e, w', untilSome_error (bind_error hr), hi, he⟩

/-- **`requestInt` returns the answer that counts.** -/
theorem requestInt_some {v : ℤ} {m : ℕ} : ∀ {inbox : List Bytes} {w : World}, w.inbox = inbox →
    answer env player.socket lower higher w.writes inbox = some (v, m) →
      ∃ w', (requestInt env lower higher msg player).run w = .ok v w' ∧ w'.writes = m
  | [], _, _, h => by cases h
  | b :: inbox, w, hb, h => by
    unfold answer at h
    split_ifs at h with hw hr hm
    · rw [requestInt_refused msg hb hw hr, if_pos hm]
      exact requestInt_some rfl h
    · cases h
      exact ⟨_, requestInt_taken msg hb hw hr, rfl⟩

/-- Without one, it fails. -/
theorem requestInt_none : ∀ {inbox : List Bytes} {w : World}, w.inbox = inbox →
    answer env player.socket lower higher w.writes inbox = none →
      ∃ e w', (requestInt env lower higher msg player).run w = .error e w'
  | [], w, hb, _ => by
    obtain ⟨e, w', hr, -⟩ := requestInt_failed msg (Or.inl hb)
    exact ⟨e, w', hr⟩
  | b :: inbox, w, hb, h => by
    unfold answer at h
    split_ifs at h with hw hr hm
    · rw [requestInt_refused msg hb hw hr, if_pos hm]
      exact requestInt_none rfl h
    · rw [requestInt_refused msg hb hw hr, if_neg hm]
      exact ⟨_, _, rfl⟩
    · obtain ⟨e, w', hr, -⟩ := requestInt_failed msg (Or.inr hw)
      exact ⟨e, w', hr⟩

end RequestInt

/-- Everyone hears a `broadcast` that gets to all. -/
theorem heard_iff_wentOut : ∀ {n : ℕ} {players : List Player}, heard env n players = true ↔
    wentOut env.writeOk n (players.map Player.socket) = players.map Player.socket
  | _, [] => iff_of_true rfl rfl
  | n, player :: players => by
    rw [heard, Bool.and_eq_true, heard_iff_wentOut, List.map_cons, wentOut]
    split_ifs with hw
    · simp [hw]
    · simp [hw]

/-- **A `broadcast` succeeds if it is heard by everyone.** -/
theorem broadcast_heard (env : Env) (msg : String) (w : World) :
    if heard env w.writes w.game.players then
      ∃ w', (broadcast env msg).run w = .ok ⟨⟩ w' ∧
        w'.writes = w.writes + w.game.players.length
    else ∃ e w', (broadcast env msg).run w = .error e w' := by
  obtain ⟨w', -, ⟨hr, -, hwrites, hall⟩ | ⟨⟨e, hr⟩, hcut⟩⟩ := broadcast_to env msg w
  · rw [if_pos (heard_iff_wentOut.mpr hall)]
    exact ⟨w', hr, hwrites⟩
  · rw [if_neg fun h => hcut (heard_iff_wentOut.mp h)]
    exact ⟨e, w', hr⟩

/-- The handler of `Game::start` succeeds if both its broadcasts are heard by everyone. -/
theorem endGame_heard (env : Env) (w : World) :
    if heard env w.writes w.game.players ∧
        heard env (w.writes + w.game.players.length) w.game.players then
      ∃ w', (endGame env).run w = .ok ⟨⟩ w'
    else ∃ e w', (endGame env).run w = .error (.exn e) w' := by
  unfold endGame
  have hfirst := broadcast_heard env
    "An error occurred in the game loop! likely that someone left :(\n" w
  by_cases h1 : heard env w.writes w.game.players = true
  · rw [if_pos h1] at hfirst
    obtain ⟨w1, hb, hwrites⟩ := hfirst
    have hgame := (talks_broadcast env _).of_ok hb
    have hsecond := broadcast_heard env "Ending Game...\n" w1
    rw [bind_ok hb, ← hwrites, h1]
    by_cases h2 : heard env w1.writes w.game.players = true
    · rw [hgame, if_pos h2] at hsecond
      obtain ⟨w2, hb2, -⟩ := hsecond
      rw [if_pos ⟨rfl, h2⟩]
      exact ⟨w2, hb2⟩
    · rw [hgame, if_neg h2] at hsecond
      obtain ⟨e, w2, hb2⟩ := hsecond
      obtain ⟨⟨x, rfl⟩, -⟩ := (talks_broadcast env _).of_error hb2
      rw [if_neg fun h => h2 h.2]
      exact ⟨x, w2, hb2⟩
  · rw [if_neg h1] at hfirst
    obtain ⟨e, w1, hb⟩ := hfirst
    obtain ⟨⟨x, rfl⟩, -⟩ := (talks_broadcast env _).of_error hb
    rw [if_neg fun h => h1 h.1]
    exact ⟨x, w1, bind_error hb⟩

end Answers

end HanabiBot.HanabiGame.Dialogue
