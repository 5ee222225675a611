import HanabiBot.TgClient.Conversation

/-! # A client comes to rest

`weight` is the most steps that are before a coroutine until control is outside again, if no call
throws and no message is taken. A step lessens it by one. A message that is taken, or a call that
throws, may raise it again, but never beyond `most`; so the steps up to the loop of the game, where
`Entry` ends, are bounded by the messages and the calls that throw (`bounded_work`).

A call that throws has to be paid for: where the reminder of `waitUntilStartCommand` cannot be sent
and the server refuses to start, `leaderTask` asks again and again without a message of the user. -/

namespace HanabiBot.TgClient.Progress

open HanabiBot.Lib.Runs HanabiBot.Common.Messages
open HanabiBot.TgClient.Tasks HanabiBot.TgClient.Direct HanabiBot.TgClient.Entry
open HanabiBot.TgClient.Conversation
open HanabiBot.TgClient.Coroutines (joinRandomSession createSession)

def weight : Point → ℕ
  | .startingMessage | .idMessage | .startCommand | .finished | .throwing .clientEntry => 1
  | .greeted _ | .askId | .askStart | .gameLoop => 2
  | .greeting | .joinedSubscribe | .leaderWait | .started | .throwing .leaderTask => 3
  | .connect | .joinedId _ | .leaderSubscribe | .lastSubscribe => 4
  | .specificMessage _ | .startMessage _ | .leader => 5
  | .specificAck | .startAnswer _ | .createdId _ => 6
  | .startAck | .createLeader _ => 7
  | .startGame | .createMessage _ => 8
  | .cancel | .createAck => 9
  | .randomMessage _ | .startTest _ | .throwing .waitUntilStartCommand => 10
  | .randomAck => 11
  | .response => 12
  | .connecting => 13
  | .newConnection _ => 14
  | .operation | .throwing .getSpecificSessionTask => 15
  | .yourName | .idTest _ => 16
  | .welcomed | .throwing .welcomeTask => 17
  | .welcomeMessage => 18
  | .welcome => 19

/-- What a message, or a call that throws, is worth. -/
def most : ℕ := 20

theorem weight_lt (point : Point) : weight point < most := by
  unfold weight most
  split <;> omega

/-- The weight of where a coroutine returns to. -/
def returned : Coroutine → ℕ
  | .clientEntry => 0
  | .welcomeTask => 16
  | .getSpecificSessionTask => 14
  | .leaderTask => 2
  | .waitUntilStartCommand => 9

theorem weight_behind {coroutine : Coroutine} {next : ℤ → Point} {rest : List (ℤ → Point)}
    (h : behind coroutine = next :: rest) (result : ℤ) :
    weight (next result) ≤ returned coroutine := by
  cases coroutine with
  | clientEntry => cases h
  | welcomeTask | getSpecificSessionTask | leaderTask | waitUntilStartCommand =>
    obtain ⟨rfl, -⟩ := List.cons.inj h
    exact Nat.le_refl _

/-- The weight of where an action leads, if it takes no message. -/
def landing (coroutine : Coroutine) : Action Point String ℤ Out → ℕ
  | .goOn _ point | .coAwaitTask point _ _ => weight point
  | .coAwaitQueue _ => 0
  | .coReturn _ | .throws => returned coroutine

theorem landing_call {coroutine caller : Coroutine} (outside : Option Bytes) {out : Bytes → Out}
    {next : Bytes → Point} {n : ℕ} (hn : ∀ frame, weight (next frame) + 1 ≤ n) :
    landing coroutine (call caller outside out next) + 1 ≤ n + most * outside.isNone.toNat := by
  cases outside with
  | none =>
    have hlt := weight_lt (.throwing caller)
    show weight (.throwing caller) + 1 ≤ n + most * 1
    omega
  | some frame =>
    have hle := hn frame
    show weight (next frame) + 1 ≤ n + most * 0
    omega

section Steps
variable {p : Parsers} {operation : ClientOperation} {garbage : ℤ}

/-- **An action leads to less**, unless a call throws. -/
theorem landing_next (outside : Option Bytes) (point : Point) :
    landing (coroutineOf point) (next p operation garbage outside point) + 1 ≤
      weight point + most * outside.isNone.toNat := by
  cases point with
  | connect | greeting | yourName | newConnection _ | connecting | randomAck | specificAck | joinedId _
  | createAck | createLeader _ | createdId _ | welcomeMessage | askId | cancel | startGame | startAck
  | startMessage _ | askStart => exact landing_call outside fun _ => Nat.le_refl _
  | startingMessage | welcome | leader | gameLoop | finished | joinedSubscribe | welcomed | idMessage
  | leaderSubscribe | leaderWait | lastSubscribe | started | startCommand =>
    exact Nat.le_add_right _ _
  | greeted ack =>
    simp only [next]
    split_ifs
    · exact Nat.le_add_right_of_le (Nat.le_succ _)
    · exact Nat.le_add_right _ _
  | operation =>
    simp only [next]
    split_ifs
    · exact Nat.le_add_right_of_le (show 2 + 1 ≤ 15 by decide)
    · exact Nat.le_add_right _ _
  | response =>
    cases operation with
    | joinRandomSession => exact Nat.le_add_right _ _
    | joinSpecificSession => exact Nat.le_add_right_of_le (show 6 + 1 ≤ 12 by decide)
    | createSession => exact Nat.le_add_right_of_le (show 9 + 1 ≤ 12 by decide)
    | unspecified => exact Nat.le_add_right_of_le (show 2 + 1 ≤ 12 by decide)
  | randomMessage ack =>
    refine landing_call outside fun _ => ?_
    cases joinRandomSession ack <;> simp [weight]
  | specificMessage ack =>
    refine landing_call outside fun _ => ?_
    cases joinSpecificSession ack <;> simp [weight]
  | createMessage ack =>
    refine landing_call outside fun _ => ?_
    cases createSession ack <;> simp [weight]
  | idTest text =>
    simp only [next]
    split_ifs
    · split
      · exact Nat.le_add_right_of_le (show 14 + 1 ≤ 16 by decide)
      · exact Nat.le_add_right _ _
    · exact landing_call outside fun _ => show 1 + 1 ≤ 16 by decide
  | startAnswer ack =>
    simp only [next]
    split_ifs
    · exact Nat.le_add_right_of_le (show 4 + 1 ≤ 6 by decide)
    · exact landing_call outside fun _ => Nat.le_refl _
  | startTest text =>
    simp only [next]
    split
    · exact Nat.le_add_right _ _
    · exact landing_call outside fun _ => show 1 + 1 ≤ 10 by decide
  | throwing coroutine =>
    cases coroutine <;> exact Nat.le_add_right _ _

/-- The steps that are before a client, if no call throws. -/
def potential (c : Config (program p operation garbage)) : ℕ :=
  match c.mode with
  | .running point => most * c.input.length + weight point
  | _ => 0

variable {c c' : Config (program p operation garbage)} {phase : Phase} {point : Point}

theorem potential_running (h : c.mode = .running point) :
    potential c = most * c.input.length + weight point := by
  rw [potential, h]

theorem potential_ret (hcallers : c.callers.map Prod.snd = behind (coroutineOf point)) (result : ℤ) :
    potential (c.ret result) ≤ most * c.input.length + returned (coroutineOf point) := by
  unfold Config.ret
  cases hc : c.callers with
  | nil => exact Nat.zero_le _
  | cons caller callers =>
    obtain ⟨held, next⟩ := caller
    rw [hc, List.map_cons] at hcallers
    exact Nat.add_le_add_left (weight_behind hcallers.symm result) _

/-- A message that is taken pays for what it starts. -/
theorem potential_coAwaitQueue (next : String → Point) :
    potential (c.act (.coAwaitQueue next)) ≤ most * c.input.length := by
  unfold Config.act
  cases hinput : c.input with
  | nil => exact Nat.zero_le _
  | cons message input =>
    have hlt := weight_lt (next message)
    show most * input.length + weight (next message) ≤ most * (input.length + 1)
    rw [Nat.mul_succ]
    omega

theorem potential_act (hcallers : c.callers.map Prod.snd = behind (coroutineOf point))
    (action : Action Point String ℤ Out) :
    potential (c.act action) ≤ most * c.input.length + landing (coroutineOf point) action := by
  cases action with
  | goOn out point' => exact Nat.le_refl _
  | coAwaitTask point' result next => exact Nat.le_refl _
  | coAwaitQueue next => exact potential_coAwaitQueue next
  | coReturn result => exact potential_ret hcallers result
  | throws => exact potential_ret hcallers c.result

/-- **A step uses up one unit**, unless a call throws. -/
theorem potential_step (hc : Stands c phase) {outside : Option Bytes}
    (hs : plainStep c outside = some c') :
    potential c' + 1 ≤ potential c + most * outside.isNone.toNat := by
  unfold plainStep at hs
  split at hs
  · next point hmode =>
    cases hs
    have hact := potential_act (hc.running point hmode).1 (next p operation garbage outside point)
    have hnext := @landing_next p operation garbage outside point
    rw [potential_running hmode]
    show potential (c.act (next p operation garbage outside point)) + 1 ≤ _
    omega
  · cases hs

/-- The steps of a plain run. -/
theorem length_plain (hop : operation ≠ .unspecified) {outs : List (Option Bytes)}
    (hc : ∃ phase, Stands c phase) (hr : reach plainStep c outs = some c') :
    outs.length + potential c' ≤ potential c + most * outs.countP Option.isNone := by
  have hstep (c : Config (program p operation garbage)) (outside : Option Bytes)
      (c' : Config (program p operation garbage)) (hc : ∃ phase, Stands c phase)
      (hs : plainStep c outside = some c') : (∃ phase, Stands c' phase) ∧
        (potential c' : ℤ) + 1 ≤ potential c + most * outside.isNone.toNat := by
    obtain ⟨phase, hc⟩ := hc
    exact ⟨stands_step hop hc hs, by exact_mod_cast potential_step hc hs⟩
  have hlength := (length_le_of_potential hstep hc hr).2
  rw [sumAlong_count Option.isNone hr] at hlength
  exact_mod_cast hlength

end Steps

/-! ### Whole runs -/

section Runs
variable {p : Parsers} {operation : ClientOperation} {garbage : ℤ}
  {ls : List (Label (program p operation garbage))} {s : State (program p operation garbage)}

/-- **The work of a client up to the game is bounded** by the messages of its user and the calls that
throw, whenever messages are pushed. -/
theorem bounded_work (hop : operation ≠ .unspecified)
    (hr : reach step (start p operation garbage) ls = some s) :
    (answers ls).length ≤
      4 + most * ((messages ls).length + (answers ls).countP Option.isNone) := by
  have hpushed : s.pushed = messages ls := pushed_eq_messages hr
  obtain ⟨c, hreach, -⟩ := plainly_reach hr
  have hlength := length_plain hop ⟨_, stands_plain s.pushed⟩ hreach
  have hstart : potential (plain (M := program p operation garbage) Point.connect (0 : ℤ) s.pushed) =
      most * s.pushed.length + 4 := rfl
  rw [← hpushed, Nat.mul_add]
  omega

theorem bounded_work_broken : ∃ s,
    reach step (start plainParsers .joinRandomSession 0) brokenStart = some s ∧
      (answers brokenStart).length ≤
        4 + most * ((messages brokenStart).length +
          (answers brokenStart).countP Option.isNone) := by
  obtain ⟨s, hr⟩ := Option.isSome_iff_exists.mp (show (reach step
    (start plainParsers .joinRandomSession 0) brokenStart).isSome = true by decide +kernel)
  exact ⟨s, hr, bounded_work (by decide) hr⟩

end Runs

end HanabiBot.TgClient.Progress
