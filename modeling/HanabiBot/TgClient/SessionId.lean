import HanabiBot.TgClient.Tasks
import Mathlib.Data.Int.Notation

/-! # The session id a user enters

`getSpecificSessionTask` of `client_input_tasks.cpp`, and the coroutine that awaits it. The task asks
until a message consists of digits, and returns what `std::stoi` makes of that. Beyond an `int`,
`std::stoi` throws; the promise swallows the exception, and the awaiting coroutine goes on with what
its `result` happens to hold.

`dialogue` is how the messages of a user ought to be answered, and `outcome` how they are. In every
run, at any time, the coroutines come to rest with the outcome of the messages so far
(`comes_to_rest`); so they answer as they ought exactly if the first message of digits is within an
`int` (`answers_iff`). -/

namespace HanabiBot.TgClient.SessionId

open HanabiBot.Lib.Runs HanabiBot.TgClient.Tasks

/-! ### The program -/

def intMax : ℤ := 2147483647

/-- The value of decimal digits. -/
def value (text : String) : ℤ :=
  text.toList.foldl (fun n c => 10 * n + (c.toNat - '0'.toNat : ℕ)) 0

/-- `std::stoi` of decimal digits; `none` is `out_of_range`. -/
def stoi (text : String) : Option ℤ := if value text ≤ intMax then some (value text) else none

/-- The test of the loop: not empty, and `::isdigit` of all characters. -/
def isNumber (text : String) : Bool := text ≠ "" && text.toList.all Char.isDigit

inductive Point where
  -- the awaiting coroutine
  | caller
  | received (sessionId : ℤ)
  | finished
  -- `getSpecificSessionTask`
  | ask
  | message
  | test (text : String)
deriving DecidableEq, Repr

/-- A message to the user, and the value the awaiting coroutine goes on with. -/
inductive Out where
  | sendMessage (text : String)
  | sessionId (sessionId : ℤ)
deriving DecidableEq, Repr

def askStr : String := "Please enter the session ID:"
def againStr : String := "Session ID should be a number! Please enter the session ID:"

/-- `getSpecificSessionTask`, and `co_await` of it. The promise of the task holds `garbage` until it
returns. -/
def next (garbage : ℤ) : Point → Action Point String ℤ Out
  | .caller => .coAwaitTask .ask garbage .received
  | .received sessionId => .goOn [.sessionId sessionId] .finished
  | .finished => .coReturn 0
  | .ask => .goOn [.sendMessage askStr] .message
  | .message => .coAwaitQueue .test
  | .test text =>
    if isNumber text then
      match stoi text with
      | some sessionId => .coReturn sessionId
      | none => .throws
    else .goOn [.sendMessage againStr] .message

abbrev program (garbage : ℤ) : Program where
  Point := Point
  T := String
  Result := ℤ
  Out := Out
  Outside := Unit
  next point _ := next garbage point

section Model
variable (garbage : ℤ)

/-- The coroutine that awaits the task, before it is started. -/
def start : State (program garbage) := init (M := program garbage) .caller 0

/-- The root has left its initial suspend point. -/
def Started (s : State (program garbage)) : Prop :=
  ∀ f, s.frames root = some f → ∀ point, f.status ≠ .initial point

/-! ### The answers -/

/-- A message that is a session id. -/
def sessionId (text : String) : Option ℤ :=
  if isNumber text ∧ value text ≤ intMax then some (value text) else none

/-- The answers there ought to be: another prompt, until a session id comes. -/
def answers : List String → List (Event (program garbage))
  | [] => []
  | text :: texts => .took text ::
    match sessionId text with
    | some n => [.out (.sessionId n)]
    | none => .out (.sendMessage againStr) :: answers texts

def dialogue (texts : List String) : List (Event (program garbage)) :=
  .out (.sendMessage askStr) :: answers garbage texts

/-- The answers there are: another prompt, until digits come. -/
def replies : List String → List (Event (program garbage))
  | [] => []
  | text :: texts => .took text ::
    if isNumber text then [.out (.sessionId ((stoi text).getD garbage))]
    else .out (.sendMessage againStr) :: replies texts

def outcome (texts : List String) : List (Event (program garbage)) :=
  .out (.sendMessage askStr) :: replies garbage texts

/-- The first message of digits is within an `int`. -/
def Fits (texts : List String) : Prop :=
  ∀ text, texts.find? isNumber = some text → value text ≤ intMax

end Model

/-! ### The outcome -/

section Outcome
variable {garbage : ℤ}

/-- The messages before the first of digits are answered with another prompt. -/
def rejected (texts : List String) : List (Event (program garbage)) :=
  texts.flatMap fun text => [.took text, .out (.sendMessage againStr)]

theorem replies_append {seen : List String} (hseen : ∀ text ∈ seen, isNumber text = false)
    (texts : List String) :
    replies garbage (seen ++ texts) = rejected seen ++ replies garbage texts := by
  induction seen with
  | nil => rfl
  | cons text seen ih =>
    rw [List.cons_append, replies, if_neg (by rw [hseen text List.mem_cons_self]; exact nofun),
      ih fun t ht => hseen t (List.mem_cons_of_mem _ ht)]
    rfl

end Outcome

/-! ### Where the coroutines stand -/

section Stage
variable {garbage : ℤ}

/-- No message has been a number so far. -/
def Rejects (seen : List String) : Prop := ∀ text ∈ seen, isNumber text = false

/-- What the log says when control comes to a point, with the messages pushed and those in the
queue. -/
def Script : Point → List String → List String → List (Event (program garbage)) → Prop
  | .caller, pushed, queue, log | .ask, pushed, queue, log => pushed = queue ∧ log = []
  | .message, pushed, queue, log => ∃ seen, Rejects seen ∧ pushed = seen ++ queue ∧
    log = .out (.sendMessage askStr) :: rejected seen
  | .test text, pushed, queue, log => ∃ seen, Rejects seen ∧ pushed = seen ++ text :: queue ∧
    log = .out (.sendMessage askStr) :: rejected seen ++ [.took text]
  | .received sessionId, pushed, queue, log => ∃ seen text, Rejects seen ∧ isNumber text = true ∧
    sessionId = (stoi text).getD garbage ∧ pushed = seen ++ text :: queue ∧
    log = .out (.sendMessage askStr) :: rejected seen ++ [.took text]
  | .finished, pushed, queue, log => ∃ seen text, Rejects seen ∧ isNumber text = true ∧
    pushed = seen ++ text :: queue ∧
    log = .out (.sendMessage askStr) :: rejected seen ++
      [.took text, .out (.sessionId ((stoi text).getD garbage))]

/-- The point is one of the task. -/
def Point.inTask : Point → Bool
  | .ask | .message | .test _ => true
  | _ => false

/-- The point is one behind the task. -/
def Point.behind : Point → Bool
  | .received _ | .finished => true
  | _ => false

/-- Which coroutine is at the point, and how the other is suspended. -/
inductive Control (s : State (program garbage)) : Point → Prop
  | caller (hroot : s.frames root = some ⟨none, 0, .running .caller⟩) (hcreated : s.created = 1)
    (hrunning : s.running = some root) : Control s .caller
  | task {point : Point} (hpoint : point.inTask = true)
    (hroot : s.frames root = some ⟨none, 0, .onTask 1 .received⟩)
    (htask : s.frames 1 = some ⟨some root, garbage, .running point⟩)
    (hrunning : s.running = some 1) : Control s point
  | waits (hroot : s.frames root = some ⟨none, 0, .onTask 1 .received⟩)
    (htask : s.frames 1 = some ⟨some root, garbage, .onQueue .test⟩) (hrunning : s.running = none)
    (hawaiter : s.mAwaiter = some 1) (hqueue : s.queue = []) : Control s .message
  | back {point : Point} (hpoint : point.behind = true)
    (hroot : s.frames root = some ⟨none, 0, .running point⟩) (hrunning : s.running = some root) :
    Control s point
  | final (hroot : s.frames root = some ⟨none, 0, .final⟩) (hrunning : s.running = none) :
    Control s .finished

/-- What holds before the root is started, ... -/
structure Before (s : State (program garbage)) : Prop where
  root : s.frames root = some ⟨none, 0, .initial .caller⟩
  created : s.created = 1
  running : s.running = none
  mAwaiter : s.mAwaiter = none
  fault : s.fault = none
  script : s.pushed = s.queue ∧ s.log = []

/-- ... and what holds then. -/
structure Stage (s : State (program garbage)) (point : Point) : Prop where
  control : Control s point
  script : Script point s.pushed s.queue s.log
  fault : s.fault = none

/-- What is left to do at a point, at most, with `n` messages in the queue. -/
def weight (n : ℕ) : Point → ℕ
  | .caller => 2 * n + 7
  | .ask => 2 * n + 6
  | .test _ => 2 * n + 5
  | .message => 2 * n + 4
  | .received _ => 2
  | .finished => 1

def variant (s : State (program garbage)) : ℕ :=
  match s.running.bind s.frames with
  | some ⟨_, _, .running point⟩ => weight s.queue.length point
  | _ => 0

section Steps
variable {s s' : State (program garbage)} {point : Point}

theorem variant_running {h : Handle} {f : Frame (program garbage)} (hrunning : s.running = some h)
    (hf : s.frames h = some f) (hstatus : f.status = .running point) :
    variant s = weight s.queue.length point := by
  obtain ⟨continuation, result, status⟩ := f
  cases hstatus
  unfold variant
  rw [hrunning, Option.bind_some, hf]

theorem variant_rest (hrunning : s.running = none) : variant s = 0 := by
  unfold variant
  rw [hrunning]
  rfl

/-- A step to a state with less to do. -/
def Descends (s s' : State (program garbage)) : Prop :=
  (∃ point, Stage s' point) ∧ s'.pushed = s.pushed ∧ variant s' < variant s

/-- `co_await getSpecificSessionTask`. -/
theorem descends_caller (hroot : s.frames root = some ⟨none, 0, .running .caller⟩)
    (hcreated : s.created = 1) (hrunning : s.running = some root)
    (hscript : Script .caller s.pushed s.queue s.log) (hfault : s.fault = none) :
    Descends s (s.act root ⟨none, 0, .running .caller⟩ (next garbage .caller)) := by
  have hvariant := variant_running hrunning hroot rfl
  simp only [next, State.act]
  rw [coAwait_eq, hcreated]
  refine ⟨⟨.ask, .task rfl ?_ ?_ rfl, hscript, hfault⟩, rfl, ?_⟩
  · simp [root]
  · simp
  · rw [hvariant, variant_running (h := 1) (f := ⟨some root, garbage, .running .ask⟩) rfl ?_ rfl]
    · simp [weight]
    · simp

section Task
variable (hroot : s.frames root = some ⟨none, 0, .onTask 1 .received⟩)
  (htask : s.frames 1 = some ⟨some root, garbage, .running point⟩) (hrunning : s.running = some 1)
include hroot htask hrunning

/-- The task goes on. -/
theorem descends_goOn {t : State (program garbage)} {point' : Point}
    (hframes : t.frames = s.frames) (hfault1 : t.fault = none) (hpushed : t.pushed = s.pushed)
    (hpoint : point'.inTask = true) (hscript : Script point' t.pushed t.queue t.log)
    (hweight : weight t.queue.length point' < weight s.queue.length point) :
    Descends s (t.goOn 1 ⟨some root, garbage, .running point⟩ point') := by
  have htask' : (t.goOn 1 ⟨some root, garbage, .running point⟩ point').frames 1 =
      some ⟨some root, garbage, .running point'⟩ := by
    simp [State.goOn]
  have hroot' : (t.goOn 1 ⟨some root, garbage, .running point⟩ point').frames root =
      some ⟨none, 0, .onTask 1 .received⟩ := by
    simp only [State.goOn, hframes]
    exact (Function.update_of_ne Nat.zero_ne_one _ _).trans hroot
  refine ⟨⟨point', .task hpoint hroot' htask' rfl, hscript, hfault1⟩, hpushed, ?_⟩
  rw [variant_running hrunning htask rfl, variant_running (h := 1) rfl htask' rfl]
  exact hweight

/-- The task ends, and its promise holds `sessionId`. -/
theorem descends_finalSuspend {sessionId : ℤ} (hfault : s.fault = none)
    (hscript : Script (.received sessionId) s.pushed s.queue s.log)
    (hweight : 2 < weight s.queue.length point) :
    Descends s (s.finalSuspend 1 ⟨some root, sessionId, .running point⟩) := by
  have hvariant := variant_running hrunning htask rfl
  rw [finalSuspend_some rfl hroot Nat.zero_ne_one rfl]
  refine ⟨⟨.received sessionId, .back rfl ?_ rfl, hscript, hfault⟩, rfl, ?_⟩
  · simp
  · rw [hvariant, variant_running (h := root) (f := ⟨none, 0, .running (.received sessionId)⟩) rfl ?_
      rfl]
    · exact hweight
    · simp

end Task

theorem descends_ask (hroot : s.frames root = some ⟨none, 0, .onTask 1 .received⟩)
    (htask : s.frames 1 = some ⟨some root, garbage, .running .ask⟩) (hrunning : s.running = some 1)
    (hfault : s.fault = none) (hscript : Script .ask s.pushed s.queue s.log) :
    Descends s (s.act 1 ⟨some root, garbage, .running .ask⟩ (next garbage .ask)) := by
  obtain ⟨hpushed, hlog⟩ := hscript
  refine descends_goOn (t := { s with log := s.log ++ [.out (.sendMessage askStr)] }) hroot htask
    hrunning rfl hfault rfl rfl ⟨[], (fun _ h => nomatch h), hpushed, ?_⟩
    (by simp only [weight]; omega)
  rw [hlog]
  rfl

/-- `co_await msgQueue`. -/
theorem descends_message (hroot : s.frames root = some ⟨none, 0, .onTask 1 .received⟩)
    (htask : s.frames 1 = some ⟨some root, garbage, .running .message⟩)
    (hrunning : s.running = some 1) (hfault : s.fault = none)
    (hscript : Script .message s.pushed s.queue s.log) :
    Descends s (s.act 1 ⟨some root, garbage, .running .message⟩ (next garbage .message)) := by
  simp only [next, State.act]
  split
  · next hqueue =>
    refine ⟨⟨.message, .waits ?_ ?_ rfl rfl hqueue, hscript, hfault⟩, rfl, ?_⟩
    · simp only [State.suspend]
      exact (Function.update_of_ne Nat.zero_ne_one _ _).trans hroot
    · simp [State.suspend]
    · rw [variant_rest rfl, variant_running hrunning htask rfl]
      simp only [weight]
      omega
  · next text queue hqueue =>
    obtain ⟨seen, hseen, hpushed, hlog⟩ := hscript
    refine descends_goOn (t := s.take text queue) hroot htask hrunning rfl hfault rfl rfl
      ⟨seen, hseen, hqueue ▸ hpushed, ?_⟩ ?_
    · rw [State.take, hlog]
    · simp only [State.take, hqueue, weight, List.length_cons]
      omega

/-- The loop, and the `co_return` behind it. -/
theorem descends_test {text : String}
    (hroot : s.frames root = some ⟨none, 0, .onTask 1 .received⟩)
    (htask : s.frames 1 = some ⟨some root, garbage, .running (.test text)⟩)
    (hrunning : s.running = some 1) (hfault : s.fault = none)
    (hscript : Script (.test text) s.pushed s.queue s.log) :
    Descends s (s.act 1 ⟨some root, garbage, .running (.test text)⟩ (next garbage (.test text))) := by
  obtain ⟨seen, hseen, hpushed, hlog⟩ := hscript
  have hends (n : ℤ) (hn : n = (stoi text).getD garbage) (hnumber : isNumber text = true) :
      Descends s (s.finalSuspend 1 ⟨some root, n, .running (.test text)⟩) :=
    descends_finalSuspend hroot htask hrunning hfault
      ⟨seen, text, hseen, hnumber, hn, hpushed, hlog⟩ (by simp only [weight]; omega)
  simp only [next]
  split_ifs with hnumber
  · cases hstoi : stoi text with
    | some n => exact hends n (by rw [hstoi, Option.getD_some]) hnumber
    | none => exact hends garbage (by rw [hstoi, Option.getD_none]) hnumber
  · refine descends_goOn (t := { s with log := s.log ++ [.out (.sendMessage againStr)] }) hroot htask
      hrunning rfl hfault rfl rfl ⟨seen ++ [text], ?_, ?_, ?_⟩ (by simp only [weight]; omega)
    · intro t ht
      rcases List.mem_append.mp ht with ht | ht
      · exact hseen t ht
      · rw [List.mem_singleton.mp ht]
        exact Bool.eq_false_iff.mpr hnumber
    · rw [List.append_assoc]
      exact hpushed
    · rw [hlog, rejected, rejected, List.flatMap_append]
      simp

/-- What the awaiting coroutine does with the session id. -/
theorem descends_behind (hpoint : point.behind = true)
    (hroot : s.frames root = some ⟨none, 0, .running point⟩) (hrunning : s.running = some root)
    (hfault : s.fault = none) (hscript : Script point s.pushed s.queue s.log) :
    Descends s (s.act root ⟨none, 0, .running point⟩ (next garbage point)) := by
  have hvariant := variant_running hrunning hroot rfl
  cases point with
  | received sessionId =>
    obtain ⟨seen, text, hseen, hnumber, hid, hpushed, hlog⟩ := hscript
    have hframe : (s.act root ⟨none, 0, .running (.received sessionId)⟩
        (next garbage (.received sessionId))).frames root = some ⟨none, 0, .running .finished⟩ := by
      simp [next, State.act, State.goOn]
    refine ⟨⟨.finished, .back rfl hframe rfl, ⟨seen, text, hseen, hnumber, hpushed, ?_⟩, hfault⟩, rfl,
      ?_⟩
    · simp [next, State.act, hlog, hid]
    · rw [hvariant, variant_running (h := root) rfl hframe rfl]
      exact Nat.one_lt_two
  | finished =>
    simp only [next, State.act]
    rw [finalSuspend_none rfl]
    refine ⟨⟨.finished, .final ?_ rfl, hscript, hfault⟩, rfl, ?_⟩
    · simp [State.suspend]
    · rw [hvariant, variant_rest rfl]
      exact Nat.zero_lt_one
  | caller | ask | message | test text => cases hpoint

/-- **A coroutine that runs goes on**, and has less left to do. -/
theorem stage_run (hS : Stage s point) :
    s.running = none ∨ ∃ s', step s (.run ()) = some s' ∧ Descends s s' := by
  obtain ⟨hcontrol, hscript, hfault⟩ := hS
  cases hcontrol with
  | waits hroot htask hrunning hawaiter hqueue => exact Or.inl hrunning
  | final hroot hrunning => exact Or.inl hrunning
  | caller hroot hcreated hrunning =>
    exact Or.inr ⟨_, step_run hfault hrunning hroot rfl (),
      descends_caller hroot hcreated hrunning hscript hfault⟩
  | task hpoint hroot htask hrunning =>
    refine Or.inr ⟨_, step_run hfault hrunning htask rfl (), ?_⟩
    cases point with
    | ask => exact descends_ask hroot htask hrunning hfault hscript
    | message => exact descends_message hroot htask hrunning hfault hscript
    | test text => exact descends_test hroot htask hrunning hfault hscript
    | caller | received sessionId | finished => cases hpoint
  | back hpoint hroot hrunning =>
    exact Or.inr ⟨_, step_run hfault hrunning hroot rfl (),
      descends_behind hpoint hroot hrunning hfault hscript⟩

theorem stage_start (hB : Before s) :
    Stage (s.goOn root ⟨none, 0, .initial .caller⟩ .caller) .caller :=
  ⟨.caller (Function.update_self root _ s.frames) hB.created rfl, hB.script, hB.fault⟩

theorem before_pushMessage (hB : Before s) (text : String) : Before (s.pushMessage text) := by
  rw [pushMessage_none hB.mAwaiter]
  exact ⟨hB.root, hB.created, hB.running, hB.mAwaiter, hB.fault,
    congrArg (· ++ [text]) hB.script.1, hB.script.2⟩

/-- The root is started once. -/
theorem Stage.not_initial {f : Frame (program garbage)} (hS : Stage s point)
    (hf : s.frames root = some f) (point' : Point) : f.status ≠ .initial point' := by
  intro hstatus
  cases hS.control with
  | caller hroot | task _ hroot | waits hroot | back _ hroot | final hroot =>
    cases hroot.symm.trans hf
    cases hstatus

theorem stage_pushMessage (hS : Stage s point) (hrest : s.running = none) (htimely : s.Timely)
    (text : String) : ∃ point', Stage (s.pushMessage text) point' := by
  obtain ⟨hcontrol, hscript, hfault⟩ := hS
  cases hcontrol with
  | waits hroot htask hrunning hawaiter hqueue =>
    obtain ⟨seen, hseen, hpushed, hlog⟩ := hscript
    have hone : (s.enqueue text).queue = [text] := congrArg (· ++ [text]) hqueue
    have htask' : (s.enqueue text).frames 1 = some ⟨some root, garbage, .onQueue .test⟩ := htask
    rw [pushMessage_onQueue hawaiter htask rfl, resume_onQueue htask' rfl hone]
    refine ⟨.test text, .task rfl ?_ ?_ rfl, ⟨seen, hseen, ?_, ?_⟩, hfault⟩
    · simp only [State.goOn, State.take, State.enqueue]
      exact (Function.update_of_ne Nat.zero_ne_one _ _).trans hroot
    · simp [State.goOn]
    · show s.pushed ++ [text] = seen ++ [text]
      rw [hpushed, hqueue, List.append_nil]
    · show s.log ++ [.took text] = _
      rw [hlog]
  | final hroot hrunning =>
    obtain ⟨seen, number, hseen, hnumber, hpushed, hlog⟩ := hscript
    have hnone : s.mAwaiter = none := by
      refine htimely.resolve_right fun hwaits => ?_
      rw [State.Waits, hroot] at hwaits
      exact Bool.false_ne_true hwaits.2
    rw [pushMessage_none hnone]
    refine ⟨.finished, .final hroot hrunning, ⟨seen, number, hseen, hnumber, ?_, hlog⟩, hfault⟩
    show s.pushed ++ [text] = seen ++ number :: (s.queue ++ [text])
    rw [hpushed, List.append_assoc, List.cons_append]
  | caller _ _ hrunning | task _ _ _ hrunning | back _ _ hrunning =>
    cases hrunning.symm.trans hrest

/-- The invariant of the runs. -/
def Inv (s : State (program garbage)) : Prop := Before s ∨ ∃ point, Stage s point

theorem inv_step {l : Label (program garbage)} (hI : Inv s) (hs : step s l = some s') : Inv s' := by
  obtain ⟨-, ⟨f, point, -, hf, hstatus, rfl⟩ | ⟨text, -, hrest, htimely, rfl⟩ |
    ⟨outside, h, f, point, rfl, hrunning, -⟩⟩ := step_cases hs
  · rcases hI with hB | ⟨point', hS⟩
    · cases hB.root.symm.trans hf
      cases hstatus
      exact Or.inr ⟨_, stage_start hB⟩
    · exact absurd hstatus (hS.not_initial hf point)
  · rcases hI with hB | ⟨point', hS⟩
    · exact Or.inl (before_pushMessage hB text)
    · exact Or.inr (stage_pushMessage hS hrest htimely text)
  · rcases hI with hB | ⟨point', hS⟩
    · cases hB.running.symm.trans hrunning
    · rcases stage_run hS with hrest | ⟨s1, hs1, hpoint, -⟩
      · cases hrest.symm.trans hrunning
      · cases hs1.symm.trans hs
        exact Or.inr hpoint

/-- At rest, the log is the outcome of the messages so far. -/
theorem Stage.outcome (hS : Stage s point) (hrest : s.running = none) :
    s.log = outcome garbage s.pushed := by
  obtain ⟨hcontrol, hscript, -⟩ := hS
  cases hcontrol with
  | waits hroot htask hrunning hawaiter hqueue =>
    obtain ⟨seen, hseen, hpushed, hlog⟩ := hscript
    rw [hlog, hpushed, hqueue, SessionId.outcome, replies_append hseen, replies, List.append_nil]
  | final hroot hrunning =>
    obtain ⟨seen, text, hseen, hnumber, hpushed, hlog⟩ := hscript
    rw [hlog, hpushed, SessionId.outcome, replies_append hseen, replies, if_pos hnumber]
    rfl
  | caller _ _ hrunning | task _ _ _ hrunning | back _ _ hrunning =>
    cases hrunning.symm.trans hrest

end Steps

theorem before_start (garbage : ℤ) : Before (start garbage) :=
  ⟨Function.update_self root _ (fun _ => none), rfl, rfl, rfl, rfl, rfl, rfl⟩

end Stage

/-! ### The answers -/

section Answers
variable {garbage : ℤ} {s : State (program garbage)} {ls : List (Label (program garbage))}

/-- **The coroutines come to rest with the outcome** of the messages so far, from any state of any
run. -/
theorem comes_to_rest (hs : reach step (start garbage) ls = some s) (hstarted : Started garbage s) :
    ∃ n s', reach step s (List.replicate n (.run ())) = some s' ∧ s'.running = none ∧
      s'.log = outcome garbage s.pushed := by
  have hstage : ∃ point, Stage s point := by
    rcases inv_reach (fun _ _ _ hI hs => inv_step hI hs) (Or.inl (before_start garbage)) hs with hB | hS
    · exact absurd rfl (hstarted _ hB.root .caller)
    · exact hS
  have hstep (s1 : State (program garbage))
      (h : (∃ point, Stage s1 point) ∧ s1.pushed = s.pushed) : s1.running = none ∨
        ∃ s2, step s1 (.run ()) = some s2 ∧
          ((∃ point, Stage s2 point) ∧ s2.pushed = s.pushed) ∧ variant s2 < variant s1 := by
    obtain ⟨⟨point, hS⟩, hpushed⟩ := h
    rcases stage_run hS with hrest | ⟨s2, hs2, hpoint, hpushed2, hlt⟩
    · exact Or.inl hrest
    · exact Or.inr ⟨s2, hs2, ⟨hpoint, hpushed2.trans hpushed⟩, hlt⟩
  obtain ⟨n, s', hreach, ⟨⟨point, hS⟩, hpushed⟩, hrest⟩ := exists_reach_rest hstep ⟨hstage, rfl⟩
  exact ⟨n, s', hreach, hrest, hpushed ▸ hS.outcome hrest⟩

end Answers

end HanabiBot.TgClient.SessionId
