import HanabiBot.Lib.Runs
import Mathlib.Data.List.Nodup
import Mathlib.Logic.Function.Basic

/-! # Tasks on a message queue

`Task` and `MessageQueue` of `telegram_client_coroutine.hpp`, for any coroutines. A `Program` says
what a coroutine does next at a `Point`, which is the place it stands at with its locals: it goes on,
awaits the queue or a task that it calls there, returns, or throws. What the header does then is the
machine: frames with their promise, `continuation` and `m_awaiter` as handles, and who resumes whom.

Control is in one coroutine (`running`) or outside. A step of the outside starts the first coroutine,
the root, or pushes a message; this model has no pushes but those before the root has waited, and
those while it waits (`Timely`). A frame that cannot be resumed, and the front of an empty queue, are
faults. -/

namespace HanabiBot.TgClient.Tasks

open HanabiBot.Lib.Runs

/-- What a coroutine does next. The `result` of a new promise is not initialised: `coAwaitTask` says
what it holds. -/
inductive Action (Point T Result Out : Type) where
  | goOn (out : List Out) (next : Point)
  | coAwaitQueue (next : T → Point)
  | coAwaitTask (task : Point) (result : Result) (next : Result → Point)
  | coReturn (result : Result)
  | throws

/-- Coroutines over one queue. `Outside` is what the outside answers in a step, `Out` what a
coroutine does to it. -/
structure Program where
  Point : Type
  T : Type
  Result : Type
  Out : Type
  Outside : Type
  next : Point → Outside → Action Point T Result Out

abbrev Handle := ℕ

/-- The root. -/
def root : Handle := 0

inductive Fault where
  | destroyedFrame
  | notSuspended
  | emptyQueue
deriving DecidableEq, Repr

section Model
variable (M : Program)

inductive Status where
  /-- at the initial suspend point -/
  | initial (point : M.Point)
  | running (point : M.Point)
  | onQueue (next : M.T → M.Point)
  | onTask (task : Handle) (next : M.Result → M.Point)
  /-- at the final suspend point -/
  | final

/-- A frame, with its promise. -/
structure Frame where
  continuation : Option Handle
  result : M.Result
  status : Status M

/-- What the coroutines do, in order. -/
inductive Event where
  | took (message : M.T)
  | out (out : M.Out)

structure State where
  frames : Handle → Option (Frame M)
  created : ℕ
  running : Option Handle
  queue : List M.T
  mAwaiter : Option Handle
  /-- the messages pushed so far -/
  pushed : List M.T
  log : List (Event M)
  fault : Option Fault

variable {M}

/-- `done`. -/
def Frame.done (f : Frame M) : Bool :=
  match f.status with
  | .final => true
  | _ => false

/-- It is suspended, on the queue or behind a task. -/
def Frame.waits (f : Frame M) : Bool :=
  match f.status with
  | .onQueue _ | .onTask _ _ => true
  | _ => false

/-- The root before it is started. -/
def init (point : M.Point) (result : M.Result) : State M where
  frames := Function.update (fun _ => none) root (some ⟨none, result, .initial point⟩)
  created := 1
  running := none
  queue := []
  mAwaiter := none
  pushed := []
  log := []
  fault := none

namespace State
variable (s : State M) (h : Handle) (f : Frame M)

def fail (fault : Fault) : State M := { s with fault := some fault }

/-- Control is in the coroutine, at the point. -/
def goOn (point : M.Point) : State M :=
  { s with
    frames := Function.update s.frames h (some { f with status := .running point })
    running := some h }

/-- The coroutine is suspended, and control outside. -/
def suspend (status : Status M) : State M :=
  { s with
    frames := Function.update s.frames h (some { f with status := status })
    running := none }

/-- `destroy`. -/
def destroy : State M := { s with frames := Function.update s.frames h none }

/-- `AwaiterForMessage::await_resume`, with the rest of the queue. -/
def take (message : M.T) (queue : List M.T) : State M :=
  { s with queue := queue, log := s.log ++ [.took message] }

/-- `resume`, with the `await_resume` of what the coroutine is suspended on. The `Task` that it
awaited is destroyed behind it. -/
def resume : State M :=
  match s.frames h with
  | none => s.fail .destroyedFrame
  | some f =>
    match f.status with
    | .initial point => s.goOn h f point
    | .onQueue next =>
      match s.queue with
      | [] => s.fail .emptyQueue
      | message :: queue => (s.take message queue).goOn h f (next message)
    | .onTask task next =>
      match s.frames task with
      | none => s.fail .destroyedFrame
      | some child => (s.destroy task).goOn h f (next child.result)
    | .running _ | .final => s.fail .notSuspended

/-- `FinalAwaiter::await_suspend`. -/
def finalSuspend : State M :=
  match f.continuation with
  | some continuation => (s.suspend h f .final).resume continuation
  | none => s.suspend h f .final

/-- A coroutine is called, and its `Task` awaited: `Awaiter::await_suspend`. -/
def coAwait (task : M.Point) (result : M.Result) (next : M.Result → M.Point) : State M :=
  let parent := s.suspend h f (.onTask s.created next)
  resume { parent with
    frames := Function.update parent.frames s.created (some ⟨some h, result, .initial task⟩)
    created := s.created + 1 } s.created

/-- What the coroutine that runs does next. -/
def act : Action M.Point M.T M.Result M.Out → State M
  | .goOn out next => { s.goOn h f next with log := s.log ++ out.map .out }
  | .coAwaitQueue next =>
    match s.queue with
    | [] => { s.suspend h f (.onQueue next) with mAwaiter := some h }
    | message :: queue => (s.take message queue).goOn h f (next message)
  | .coAwaitTask task result next => s.coAwait h f task result next
  | .coReturn result => s.finalSuspend h { f with result := result }
  | .throws => s.finalSuspend h f

def enqueue (message : M.T) : State M :=
  { s with queue := s.queue ++ [message], pushed := s.pushed ++ [message] }

/-- `MessageQueue::pushMessage`. -/
def pushMessage (message : M.T) : State M :=
  match s.mAwaiter with
  | none => s.enqueue message
  | some awaiter =>
    match s.frames awaiter with
    | none => (s.enqueue message).fail .destroyedFrame
    | some f => if f.done then s.enqueue message else (s.enqueue message).resume awaiter

/-- The consumer waits: control is outside, and the root suspended, but not at its initial or final
suspend point. -/
def Waits : Prop := s.running = none ∧ (s.frames root).any Frame.waits = true

instance : Decidable s.Waits := by unfold Waits; infer_instance

/-- A push comes before the consumer has waited, or while it waits. -/
def Timely : Prop := s.mAwaiter = none ∨ s.Waits

instance : Decidable s.Timely := by unfold Timely; infer_instance

end State

inductive Label (M : Program) where
  | start
  | pushMessage (message : M.T)
  | run (outside : M.Outside)

/-- One step. The root is started once. -/
def step (s : State M) (l : Label M) : Option (State M) :=
  if s.fault.isSome then none
  else
    match l with
    | .start =>
      match s.frames root with
      | some ⟨_, _, .initial _⟩ => some (s.resume root)
      | _ => none
    | .pushMessage message =>
      if s.running = none ∧ s.Timely then some (s.pushMessage message) else none
    | .run outside =>
      match s.running with
      | none => none
      | some h =>
        match s.frames h with
        | some f =>
          match f.status with
          | .running point => some (s.act h f (M.next point outside))
          | _ => none
        | none => none

def Label.message : Label M → Option M.T
  | .pushMessage message => some message
  | _ => none

/-- The messages that the labels of a run push. -/
def messages (ls : List (Label M)) : List M.T := ls.filterMap Label.message

def Event.message : Event M → Option M.T
  | .took message => some message
  | .out _ => none

/-- The messages that have been delivered: the values of `co_await` on the queue. -/
def State.delivered (s : State M) : List M.T := s.log.filterMap Event.message

/-! ### Resuming -/

section Resume
variable {s : State M} {h k : Handle} {f parent child : Frame M}

theorem resume_initial {point : M.Point} (hf : s.frames h = some f)
    (hstatus : f.status = .initial point) : s.resume h = s.goOn h f point := by
  unfold State.resume
  rw [hf]
  simp only [hstatus]

theorem resume_onQueue {next : M.T → M.Point} {message : M.T} {queue : List M.T}
    (hf : s.frames h = some f) (hstatus : f.status = .onQueue next)
    (hqueue : s.queue = message :: queue) :
    s.resume h = (s.take message queue).goOn h f (next message) := by
  unfold State.resume
  rw [hf]
  simp only [hstatus, hqueue]

theorem resume_onTask {next : M.Result → M.Point} (hf : s.frames h = some f)
    (hstatus : f.status = .onTask k next) (hchild : s.frames k = some child) :
    s.resume h = (s.destroy k).goOn h f (next child.result) := by
  unfold State.resume
  rw [hf]
  simp only [hstatus, hchild]

theorem pushMessage_none (hnone : s.mAwaiter = none) (message : M.T) :
    s.pushMessage message = s.enqueue message := by
  unfold State.pushMessage
  rw [hnone]

theorem pushMessage_onQueue {next : M.T → M.Point} (hawaiter : s.mAwaiter = some h)
    (hf : s.frames h = some f) (hstatus : f.status = .onQueue next) (message : M.T) :
    s.pushMessage message = (s.enqueue message).resume h := by
  unfold State.pushMessage
  rw [hawaiter]
  simp only [hf, Frame.done, hstatus, Bool.false_eq_true, if_false]

theorem coAwait_eq (s : State M) (h : Handle) (f : Frame M) (task : M.Point) (result : M.Result)
    (next : M.Result → M.Point) : s.coAwait h f task result next = { s with
      frames := Function.update
        (Function.update s.frames h (some { f with status := .onTask s.created next })) s.created
        (some ⟨some h, result, .running task⟩)
      created := s.created + 1
      running := some s.created } := by
  unfold State.coAwait
  simp only
  rw [resume_initial (f := ⟨some h, result, .initial task⟩) (Function.update_self ..) rfl]
  simp only [State.goOn, State.suspend, Function.update_idem]

/-- **A coroutine that ends resumes the one that awaits it**, which takes the result and destroys
it, ... -/
theorem finalSuspend_some {next : M.Result → M.Point} (hc : f.continuation = some k)
    (hparent : s.frames k = some parent) (hne : k ≠ h) (hstatus : parent.status = .onTask h next) :
    s.finalSuspend h f = { s with
      frames := Function.update (Function.update s.frames h none) k
        (some { parent with status := .running (next f.result) })
      running := some k } := by
  unfold State.finalSuspend
  rw [hc]
  simp only
  have hchild : (s.suspend h f .final).frames h = some { f with status := .final } :=
    Function.update_self h _ s.frames
  rw [resume_onTask ((Function.update_of_ne hne _ _).trans hparent) hstatus hchild]
  simp only [State.goOn, State.destroy, State.suspend, Function.update_idem]

/-- ... and if nobody does, it stays suspended. -/
theorem finalSuspend_none (hc : f.continuation = none) :
    s.finalSuspend h f = s.suspend h f .final := by
  unfold State.finalSuspend
  rw [hc]

end Resume

/-! ### Steps -/

section Steps
variable {s s' : State M}

/-- **All that a step can do.** -/
theorem step_cases {l : Label M} (hs : step s l = some s') : s.fault = none ∧
    ((∃ f point, l = .start ∧ s.frames root = some f ∧ f.status = .initial point ∧
        s' = s.goOn root f point) ∨
      (∃ message, l = .pushMessage message ∧ s.running = none ∧ s.Timely ∧
        s' = s.pushMessage message) ∨
      ∃ outside h f point, l = .run outside ∧ s.running = some h ∧ s.frames h = some f ∧
        f.status = .running point ∧ s' = s.act h f (M.next point outside)) := by
  unfold step at hs
  by_cases hfault : s.fault.isSome = true
  · rw [if_pos hfault] at hs
    cases hs
  rw [if_neg hfault] at hs
  refine ⟨Option.not_isSome_iff_eq_none.mp hfault, ?_⟩
  cases l with
  | start =>
    simp only at hs
    split at hs
    · next continuation result point hf =>
      cases hs
      exact Or.inl ⟨_, point, rfl, hf, rfl, resume_initial hf rfl⟩
    · cases hs
  | pushMessage message =>
    simp only at hs
    split_ifs at hs with hpush
    cases hs
    exact Or.inr (Or.inl ⟨message, rfl, hpush.1, hpush.2, rfl⟩)
  | run outside =>
    simp only at hs
    split at hs
    · cases hs
    · next h hrunning =>
      split at hs
      · next f hf =>
        split at hs
        · next point hstatus =>
          cases hs
          exact Or.inr (Or.inr ⟨outside, h, f, point, rfl, hrunning, hf, hstatus, rfl⟩)
        · cases hs
      · cases hs

theorem step_start {f : Frame M} {point : M.Point} (hfault : s.fault = none)
    (hf : s.frames root = some f) (hstatus : f.status = .initial point) :
    step s .start = some (s.goOn root f point) := by
  obtain ⟨continuation, result, status⟩ := f
  cases hstatus
  unfold step
  rw [hfault, hf]
  exact congrArg some (resume_initial hf rfl)

theorem step_pushMessage (hfault : s.fault = none) (hrest : s.running = none) (htimely : s.Timely)
    (message : M.T) : step s (.pushMessage message) = some (s.pushMessage message) := by
  unfold step
  rw [hfault]
  simp only [Option.isSome_none, Bool.false_eq_true, if_false]
  rw [if_pos ⟨hrest, htimely⟩]

/-- The step of a coroutine that runs. -/
theorem step_run {h : Handle} {f : Frame M} {point : M.Point} (hfault : s.fault = none)
    (hrunning : s.running = some h) (hf : s.frames h = some f) (hstatus : f.status = .running point)
    (outside : M.Outside) : step s (.run outside) = some (s.act h f (M.next point outside)) := by
  unfold step
  rw [hfault]
  simp only [Option.isSome_none, Bool.false_eq_true, if_false, hrunning, hf, hstatus]

theorem step_rest (hrest : s.running = none) (outside : M.Outside) :
    step s (.run outside) = none := by
  unfold step
  rw [hrest]
  exact ite_self none

end Steps

/-! ### What is pushed -/

section Pushed
variable {s s' : State M}

theorem resume_pushed (s : State M) (h : Handle) : (s.resume h).pushed = s.pushed := by
  unfold State.resume
  split
  · rfl
  · split
    · rfl
    · split <;> rfl
    · split <;> rfl
    · rfl
    · rfl

theorem pushMessage_pushed (s : State M) (message : M.T) :
    (s.pushMessage message).pushed = s.pushed ++ [message] := by
  unfold State.pushMessage
  split
  · rfl
  · split
    · rfl
    · split
      · rfl
      · exact resume_pushed _ _

theorem finalSuspend_pushed (s : State M) (h : Handle) (f : Frame M) :
    (s.finalSuspend h f).pushed = s.pushed := by
  unfold State.finalSuspend
  split
  · exact resume_pushed _ _
  · rfl

theorem act_pushed (s : State M) (h : Handle) (f : Frame M)
    (action : Action M.Point M.T M.Result M.Out) : (s.act h f action).pushed = s.pushed := by
  cases action with
  | goOn out next => rfl
  | coAwaitQueue next =>
    unfold State.act
    simp only
    split <;> rfl
  | coAwaitTask task result next => exact resume_pushed _ _
  | coReturn result => exact finalSuspend_pushed _ _ _
  | throws => exact finalSuspend_pushed _ _ _

/-- **What has been pushed** are the messages of the calls of `pushMessage`. -/
theorem pushed_eq_messages {ls : List (Label M)} (hr : reach step s ls = some s') :
    s'.pushed = s.pushed ++ messages ls := by
  induction ls generalizing s with
  | nil =>
    cases hr
    exact (List.append_nil _).symm
  | cons l ls ih =>
    unfold reach at hr
    cases hs : step s l with
    | none => rw [hs] at hr; cases hr
    | some s1 =>
      rw [hs] at hr
      rw [ih hr]
      obtain ⟨-, ⟨f, point, rfl, -, -, rfl⟩ | ⟨message, rfl, -, -, rfl⟩ |
        ⟨outside, h, f, point, rfl, -, -, -, rfl⟩⟩ := step_cases hs
      · rfl
      · rw [pushMessage_pushed, List.append_assoc]
        rfl
      · rw [act_pushed]
        rfl

end Pushed

end Model

end HanabiBot.TgClient.Tasks
