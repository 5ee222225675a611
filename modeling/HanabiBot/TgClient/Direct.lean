import HanabiBot.TgClient.Delivery
import HanabiBot.TgClient.SessionId
import Mathlib.Data.List.Induction

/-! # The coroutines as a plain program

What the coroutines of a `Program` come to when nobody knows of handles: a call is a call, a return a
return, and the messages are an input that is read from the front. `Config` is such a program under
way, with the calls that are not over yet, and `plainStep` goes on in it; `Config.feed` is one more
message at the end of the input, which a program that waits for one takes at once.

The frames, the `continuation`s and `m_awaiter` amount to this, however the pushes fall between the
steps: a run has done exactly what the plain program does on the messages pushed so far, with the
same answers of the outside (`runs_plainly`). So the timing of the pushes does not matter, and more
messages and answers only make the log longer (`log_prefix`). -/

namespace HanabiBot.TgClient.Direct

open HanabiBot.Lib.Runs HanabiBot.TgClient.Tasks HanabiBot.TgClient.Delivery

section Plain
variable (M : Program)

inductive Mode where
  | running (point : M.Point)
  /-- the input is empty -/
  | waiting (next : M.T → M.Point)
  | finished

/-- A call under way: what the caller's own result holds, and how the caller goes on. -/
abbrev Caller := M.Result × (M.Result → M.Point)

structure Config where
  mode : Mode M
  result : M.Result
  callers : List (Caller M)
  input : List M.T
  log : List (Event M)

variable {M}

/-- The program before its first step. -/
def plain (point : M.Point) (result : M.Result) (input : List M.T) : Config M :=
  ⟨.running point, result, [], input, []⟩

namespace Config
variable (c : Config M)

/-- A return. -/
def ret (result : M.Result) : Config M :=
  match c.callers with
  | [] => { c with mode := .finished, result := result }
  | (held, next) :: callers =>
    { c with mode := .running (next result), result := held, callers := callers }

def act : Action M.Point M.T M.Result M.Out → Config M
  | .goOn out next => { c with mode := .running next, log := c.log ++ out.map .out }
  | .coAwaitQueue next =>
    match c.input with
    | [] => { c with mode := .waiting next }
    | message :: input =>
      { c with mode := .running (next message), input := input, log := c.log ++ [.took message] }
  | .coAwaitTask task result next =>
    { c with mode := .running task, result := result, callers := (c.result, next) :: c.callers }
  | .coReturn result => c.ret result
  | .throws => c.ret c.result

/-- One more message. -/
def feed (message : M.T) : Config M :=
  match c.mode with
  | .waiting next => { c with mode := .running (next message), log := c.log ++ [.took message] }
  | _ => { c with input := c.input ++ [message] }

end Config

/-- One step. -/
def plainStep (c : Config M) (outside : M.Outside) : Option (Config M) :=
  match c.mode with
  | .running point => some (c.act (M.next point outside))
  | _ => none

/-- What the outside answers in a run. -/
def answers : List (Label M) → List M.Outside
  | [] => []
  | .run outside :: ls => outside :: answers ls
  | _ :: ls => answers ls

/-! ### More input -/

section Feed
variable {c c' : Config M} {point : M.Point}

theorem feed_running (h : c.mode = .running point) (message : M.T) :
    c.feed message = { c with input := c.input ++ [message] } := by
  unfold Config.feed
  rw [h]

/-- A step on more input is a step, and then more input. -/
theorem feed_act (h : c.mode = .running point) (message : M.T)
    (action : Action M.Point M.T M.Result M.Out) :
    (c.feed message).act action = (c.act action).feed message := by
  have hret (result : M.Result) : (c.feed message).ret result = (c.ret result).feed message := by
    rw [feed_running h]
    unfold Config.ret
    cases c.callers with
    | nil => rfl
    | cons caller callers => rfl
  cases action with
  | goOn out next => rw [feed_running h]; rfl
  | coAwaitQueue next =>
    rw [feed_running h]
    unfold Config.act
    cases c.input with
    | nil => rfl
    | cons first input => rfl
  | coAwaitTask task result next => rw [feed_running h]; rfl
  | coReturn result => exact hret result
  | throws =>
    have hres : (c.feed message).result = c.result := by rw [feed_running h]
    show (c.feed message).ret (c.feed message).result = _
    rw [hres]
    exact hret c.result

theorem plainStep_feed {outside : M.Outside} (hs : plainStep c outside = some c') (message : M.T) :
    plainStep (c.feed message) outside = some (c'.feed message) := by
  unfold plainStep at hs
  split at hs
  · next point h =>
    cases hs
    rw [← feed_act h]
    unfold plainStep
    rw [feed_running h]
    simp only [h]
  · cases hs

theorem reach_feed {outs : List M.Outside} (hr : reach plainStep c outs = some c') (message : M.T) :
    reach plainStep (c.feed message) outs = some (c'.feed message) := by
  induction outs generalizing c with
  | nil => cases hr; rfl
  | cons outside outs ih =>
    unfold reach at hr ⊢
    cases hs : plainStep c outside with
    | none => rw [hs] at hr; cases hr
    | some c1 =>
      rw [hs] at hr
      rw [plainStep_feed hs]
      exact ih hr

/-- Several messages. -/
def Config.feeds (c : Config M) (messages : List M.T) : Config M := messages.foldl Config.feed c

theorem feeds_plain (point : M.Point) (result : M.Result) (messages : List M.T) :
    ∀ input, (plain point result input).feeds messages = plain point result (input ++ messages) := by
  induction messages with
  | nil => exact fun input => by rw [List.append_nil]; rfl
  | cons message messages ih =>
    intro input
    refine (ih (input ++ [message])).trans ?_
    rw [List.append_assoc, List.singleton_append]

theorem reach_feeds {point : M.Point} {result : M.Result} {input : List M.T} {outs : List M.Outside}
    (hr : reach plainStep (plain point result input) outs = some c) (messages : List M.T) :
    reach plainStep (plain point result (input ++ messages)) outs = some (c.feeds messages) := by
  rw [← feeds_plain]
  generalize plain point result input = c0 at hr
  induction messages generalizing c c0 with
  | nil => exact hr
  | cons message messages ih => exact ih _ (reach_feed hr message)

/-! ### The log grows -/

theorem ret_log (c : Config M) (result : M.Result) : (c.ret result).log = c.log := by
  unfold Config.ret
  split <;> rfl

theorem act_log (c : Config M) (action : Action M.Point M.T M.Result M.Out) :
    c.log <+: (c.act action).log := by
  cases action with
  | goOn out next => exact List.prefix_append _ _
  | coAwaitQueue next =>
    unfold Config.act
    simp only
    split
    · exact List.prefix_rfl
    · exact List.prefix_append _ _
  | coAwaitTask task result next => exact List.prefix_rfl
  | coReturn result => exact (ret_log c result).symm ▸ List.prefix_rfl
  | throws => exact (ret_log c c.result).symm ▸ List.prefix_rfl

theorem reach_log {outs : List M.Outside} (hr : reach plainStep c outs = some c') :
    c.log <+: c'.log := by
  refine inv_reach (I := fun c' => c.log <+: c'.log) (fun c1 outside c2 h hs => ?_) List.prefix_rfl hr
  unfold plainStep at hs
  split at hs
  · cases hs
    exact h.trans (act_log _ _)
  · cases hs

theorem feeds_log (c : Config M) (messages : List M.T) : c.log <+: (c.feeds messages).log := by
  induction messages generalizing c with
  | nil => exact List.prefix_rfl
  | cons message messages ih =>
    refine List.IsPrefix.trans ?_ (ih (c.feed message))
    unfold Config.feed
    split
    · exact List.prefix_append _ _
    · exact List.prefix_rfl

end Feed

/-! ### Handles forgotten -/

/-- The mode a coroutine is in, by its status; a coroutine that is to be started is about to run. -/
def modeOf : Status M → Mode M
  | .initial point | .running point => .running point
  | .onQueue next => .waiting next
  | .onTask _ _ | .final => .finished

/-- The call that the coroutine of a frame awaits. -/
def callOf (f : Frame M) : Option (Caller M) :=
  match f.status with
  | .onTask _ next => some (f.result, next)
  | _ => none

/-- The calls under way, with the handles of those who await them. -/
def callsOf (frames : Handle → Option (Frame M)) (hs : List Handle) : List (Caller M) :=
  hs.filterMap fun h => (frames h).bind callOf

/-- What a state is as a plain program, with the innermost frame `f` on the stack `hs`. -/
def configOf (s : State M) (hs : List Handle) (f : Frame M) : Config M :=
  ⟨modeOf f.status, f.result, callsOf s.frames hs, s.queue, s.log⟩

/-- The state is the plain program `c`. -/
def Plainly (s : State M) (c : Config M) : Prop :=
  ∃ h hs f, Stack s h hs f ∧ Innermost s h hs f.status ∧ c = configOf s hs f

/-- Moreover, the root has left its initial suspend point. -/
def Awake (s : State M) (c : Config M) : Prop :=
  ∃ h hs f, Stack s h hs f ∧ Innermost s h hs f.status ∧ c = configOf s hs f ∧
    ∀ point, f.status ≠ .initial point

section Steps
variable {s s' : State M} {h : Handle} {hs : List Handle} {f g : Frame M} {c : Config M}

theorem callsOf_congr {frames frames' : Handle → Option (Frame M)}
    (h : ∀ n ∈ hs, frames' n = frames n) : callsOf frames' hs = callsOf frames hs :=
  List.filterMap_congr fun n hn => by rw [h n hn]

/-- A change of the innermost frame does not concern the calls. -/
theorem callsOf_update (hS : Stack s h hs f) (o : Option (Frame M)) :
    callsOf (Function.update s.frames h o) hs = callsOf s.frames hs := by
  refine callsOf_congr fun n hn => Function.update_of_ne ?_ _ _
  rintro rfl
  exact (List.nodup_cons.mp hS.nodup).1 hn

theorem Awake.plainly (hc : Awake s c) : Plainly s c := by
  obtain ⟨h, hs, f, hS, hinner, he, -⟩ := hc
  exact ⟨h, hs, f, hS, hinner, he⟩

/-- The coroutine goes on, in a state that has the frames of `s`. -/
theorem awake_goOn (hS : Stack s h hs f) (hg : g.continuation = f.continuation)
    (hres : g.result = f.result) (point : M.Point) : Awake (s.goOn h g point)
      ⟨.running point, f.result, callsOf s.frames hs, s.queue, s.log⟩ := by
  refine ⟨h, hs, { g with status := .running point }, hS.update hg rfl rfl, rfl, ?_, nofun⟩
  rw [configOf, State.goOn, callsOf_update hS, ← hres]
  rfl

theorem awake_finalSuspend (hS : Stack s h hs f) (hg : g.continuation = f.continuation) :
    Awake (s.finalSuspend h g)
      (({ configOf s hs f with result := g.result } : Config M).ret g.result) := by
  cases hs with
  | nil =>
    obtain ⟨rfl, hc⟩ := hS.continuation_root
    rw [finalSuspend_none (hg.trans hc)]
    exact ⟨root, [], { g with status := .final }, hS.update hg rfl rfl, ⟨rfl, rfl⟩, rfl, nofun⟩
  | cons k ks =>
    cases hS.chain with
    | @task _ _ _ _ parent next hf hc hparent hstatus rest =>
      cases hf.symm.trans hS.innermost
      have hkh : k ≠ h := fun hkh => (List.nodup_cons.mp hS.nodup).1 (hkh ▸ List.mem_cons_self)
      have heq := finalSuspend_some (hg.trans hc) hparent hkh hstatus
      obtain ⟨parent', next', hS', -⟩ := hS.finalSuspend hg
      have hinner : (s.finalSuspend h g).frames k =
          some { parent with status := .running (next g.result) } := by
        rw [heq]
        exact Function.update_self ..
      rw [hS'.innermost] at hinner
      rw [Option.some.inj hinner] at hS'
      refine ⟨k, ks, _, hS', by rw [heq]; rfl, ?_, nofun⟩
      have hcalls : callsOf (s.finalSuspend h g).frames ks = callsOf s.frames ks := by
        rw [heq]
        refine callsOf_congr fun n hn => ?_
        have hnodup := hS.nodup
        simp only [List.nodup_cons, List.mem_cons, not_or] at hnodup
        have hnk : n ≠ k := fun he => hnodup.2.1 (he ▸ hn)
        have hnh : n ≠ h := fun he => hnodup.1.2 (he ▸ hn)
        exact (Function.update_of_ne hnk _ _).trans (Function.update_of_ne hnh _ _)
      have hcons : callsOf s.frames (k :: ks) = (parent.result, next) :: callsOf s.frames ks := by
        refine List.filterMap_cons_some ?_
        rw [hparent, Option.bind_some, callOf, hstatus]
      unfold configOf Config.ret
      rw [hcalls, hcons, heq]
      rfl

/-- **A step of a coroutine is one of the plain program.** -/
theorem awake_act (hS : Stack s h hs f) (action : Action M.Point M.T M.Result M.Out) :
    Awake (s.act h f action) ((configOf s hs f).act action) := by
  cases action with
  | goOn out next =>
    exact awake_goOn (s := { s with log := s.log ++ out.map .out }) (hS.congr rfl rfl) rfl rfl next
  | coAwaitQueue next =>
    unfold State.act Config.act configOf
    cases hqueue : s.queue with
    | nil =>
      refine ⟨h, hs, { f with status := .onQueue next }, hS.update rfl rfl rfl, ⟨rfl, rfl, hqueue⟩, ?_,
        fun _ he => by cases he⟩
      rw [configOf]
      simp only [State.suspend]
      rw [callsOf_update hS, hqueue]
      rfl
    | cons message queue =>
      exact awake_goOn (s := s.take message queue) (hS.congr rfl rfl) rfl rfl (next message)
  | coAwaitTask task result next =>
    have hS' := hS.coAwait task result next
    show Awake (s.coAwait h f task result next)
      ⟨.running task, result, (f.result, next) :: callsOf s.frames hs, s.queue, s.log⟩
    have hfresh : ∀ n ∈ h :: hs, n ≠ s.created := by
      rintro n hn rfl
      exact hS.chain.alive _ hn (hS.fresh _ (Nat.le_refl _))
    have hcalls : callsOf (s.coAwait h f task result next).frames (h :: hs) =
        (f.result, next) :: callsOf s.frames hs := by
      rw [coAwait_eq]
      refine (callsOf_congr fun n hn => Function.update_of_ne (hfresh n hn) _ _).trans ?_
      refine (List.filterMap_cons_some ?_).trans (congrArg _ (callsOf_update hS _))
      rw [Function.update_self]
      rfl
    refine ⟨s.created, h :: hs, _, hS', by rw [coAwait_eq]; rfl, ?_, fun _ he => by cases he⟩
    rw [configOf, hcalls, coAwait_eq]
    rfl
  | coReturn result => exact awake_finalSuspend (g := { f with result := result }) hS rfl
  | throws => exact awake_finalSuspend hS rfl

/-- Where nobody waits, a message joins the queue. -/
theorem nobody_waits (hS : Stack s h hs f) (htimely : s.Timely) (hbottom : hs = [])
    (hf : f.waits = false) : s.mAwaiter = none := by
  subst hbottom
  obtain ⟨rfl, -⟩ := hS.continuation_root
  refine htimely.resolve_right fun hwaits => ?_
  rw [State.Waits, hS.innermost, Option.any_some, hf] at hwaits
  exact Bool.false_ne_true hwaits.2

/-- A message that is pushed is one more message, ... -/
theorem awake_pushMessage (hc : Awake s c) (hrest : s.running = none) (htimely : s.Timely)
    (message : M.T) : Awake (s.pushMessage message) (c.feed message) := by
  obtain ⟨h, hs, f, hS, hinner, rfl, hnot⟩ := hc
  cases hstatus : f.status with
  | initial point => exact absurd hstatus (hnot point)
  | running point =>
    rw [hstatus] at hinner
    cases hinner.symm.trans hrest
  | onQueue next =>
    rw [hstatus] at hinner
    obtain ⟨-, hawaiter, hqueue⟩ := hinner
    have hone : (s.enqueue message).queue = [message] := congrArg (· ++ [message]) hqueue
    have hS' : Stack (s.enqueue message) h hs f := hS.congr rfl rfl
    rw [pushMessage_onQueue hawaiter hS.innermost hstatus, resume_onQueue hS'.innermost hstatus hone]
    have hgo := awake_goOn (s := (s.enqueue message).take message []) (hS'.congr rfl rfl) rfl rfl
      (next message)
    have hfeed : (configOf s hs f).feed message =
        ⟨.running (next message), f.result, callsOf s.frames hs, [], s.log ++ [.took message]⟩ := by
      unfold Config.feed configOf
      simp only [hstatus, modeOf, hqueue]
    rw [hfeed]
    exact hgo
  | onTask task next =>
    rw [hstatus] at hinner
    exact hinner.elim
  | final =>
    have hnone := nobody_waits hS htimely (by rw [hstatus] at hinner; exact hinner.2)
      (by rw [Frame.waits, hstatus])
    have hfeed : (configOf s hs f).feed message =
        { configOf s hs f with input := s.queue ++ [message] } := by
      unfold Config.feed configOf
      simp only [hstatus, modeOf]
    rw [pushMessage_none hnone, hfeed]
    refine ⟨h, hs, f, hS.congr rfl rfl, ?_, rfl, hnot⟩
    rw [hstatus] at hinner ⊢
    exact hinner

/-- ... also before the root is started. -/
theorem plainly_pushMessage (hc : Plainly s c) (hrest : s.running = none) (htimely : s.Timely)
    (message : M.T) : Plainly (s.pushMessage message) (c.feed message) := by
  obtain ⟨h, hs, f, hS, hinner, rfl⟩ := hc
  by_cases hinitial : ∃ point, f.status = .initial point
  · obtain ⟨point, hstatus⟩ := hinitial
    have hmode : (configOf s hs f).mode = .running point := by rw [configOf, hstatus]; rfl
    have hnone : s.mAwaiter = none := by
      rw [hstatus] at hinner
      exact hinner.2.2
    rw [pushMessage_none hnone, feed_running hmode]
    refine ⟨h, hs, f, hS.congr rfl rfl, ?_, rfl⟩
    rw [hstatus] at hinner ⊢
    exact hinner
  · have hnot : ∀ point, f.status ≠ .initial point := fun point hp => hinitial ⟨point, hp⟩
    exact (awake_pushMessage ⟨h, hs, f, hS, hinner, rfl, hnot⟩ hrest htimely message).plainly

/-- The root is started where it stands. -/
theorem awake_start (hc : Plainly s c) {point : M.Point} (hf : s.frames root = some f)
    (hstatus : f.status = .initial point) : Awake (s.goOn root f point) c := by
  obtain ⟨h, hs, g, hS, -, rfl⟩ := hc
  rcases hS.chain.root_cases with ⟨rfl, rfl⟩ | ⟨g', task, next, hg', htask⟩
  · cases hS.innermost.symm.trans hf
    have hgo := awake_goOn hS rfl rfl point
    rw [configOf, hstatus]
    exact hgo
  · cases hg'.symm.trans hf
    cases htask.symm.trans hstatus

theorem awake_run {k : Handle} {point : M.Point} (hc : Plainly s c) (hrunning : s.running = some k)
    (hf : s.frames k = some f) (hstatus : f.status = .running point) (outside : M.Outside) :
    ∃ c', plainStep c outside = some c' ∧ Awake (s.act k f (M.next point outside)) c' := by
  obtain ⟨h, hs, g, hS, hinner, rfl⟩ := hc
  have hk : h = k := by
    cases hg : g.status with
    | running point' =>
      rw [hg] at hinner
      exact Option.some.inj (hinner.symm.trans hrunning)
    | onTask task next =>
      rw [hg] at hinner
      exact hinner.elim
    | initial point' | onQueue next | final =>
      rw [hg] at hinner
      cases hinner.1.symm.trans hrunning
  subst hk
  cases hS.innermost.symm.trans hf
  refine ⟨(configOf s hs f).act (M.next point outside), ?_, awake_act hS _⟩
  unfold plainStep configOf
  simp only [hstatus, modeOf]

end Steps

/-! ### Whole runs -/

theorem plainly_init (point : M.Point) (result : M.Result) :
    Plainly (init point result) (plain point result []) := by
  obtain ⟨-, -, h, hs, f, hS, hinner⟩ := inv_init point result
  have hroot : (init point result).frames root = some ⟨none, result, .initial point⟩ :=
    Function.update_self root _ (fun _ => none)
  rcases hS.chain.root_cases with ⟨rfl, rfl⟩ | ⟨g, task, next, hg, htask⟩
  · cases hS.innermost.symm.trans hroot
    exact ⟨root, [], _, hS, hinner, rfl⟩
  · cases hg.symm.trans hroot
    cases htask

theorem answers_concat (ls : List (Label M)) (l : Label M) :
    answers (ls ++ [l]) = answers ls ++ answers [l] := by
  induction ls with
  | nil => rfl
  | cons k ls ih => cases k <;> simp only [List.cons_append, answers, ih]

section Runs
variable {point : M.Point} {result : M.Result} {ls ls' : List (Label M)} {s s' : State M}

theorem plainly_reach (hr : reach step (init point result) ls = some s) :
    ∃ c, reach plainStep (plain point result s.pushed) (answers ls) = some c ∧ Plainly s c := by
  induction ls using List.reverseRecOn generalizing s with
  | nil =>
    cases hr
    exact ⟨_, rfl, plainly_init point result⟩
  | append_singleton ls l ih =>
    rw [reach_concat] at hr
    obtain ⟨s1, hr1, hs⟩ := Option.bind_eq_some_iff.mp hr
    obtain ⟨c, hreach, hc⟩ := ih hr1
    rw [answers_concat]
    obtain ⟨-, ⟨f, point', rfl, hf, hstatus, rfl⟩ | ⟨message, rfl, hrest, htimely, rfl⟩ |
      ⟨outside, h, f, point', rfl, hrunning, hf, hstatus, rfl⟩⟩ := step_cases hs
    · refine ⟨c, ?_, (awake_start hc hf hstatus).plainly⟩
      simp only [answers, List.append_nil]
      exact hreach
    · refine ⟨c.feed message, ?_, plainly_pushMessage hc hrest htimely message⟩
      simp only [answers, List.append_nil, pushMessage_pushed]
      exact reach_feed hreach message
    · obtain ⟨c', hs', hc'⟩ := awake_run hc hrunning hf hstatus outside
      refine ⟨c', ?_, hc'.plainly⟩
      simp only [answers, act_pushed]
      rw [reach_concat, hreach]
      exact hs'

/-- What one sees of a state, as of a plain program. -/
structure Shows (s : State M) (c : Config M) : Prop where
  log : c.log = s.log
  input : c.input = s.queue
  waits : s.Waits ↔ ∃ next, c.mode = .waiting next
  finished : (s.frames root).any Frame.done = true ↔ c.mode = .finished

theorem shows_of_plainly {c : Config M} (hc : Plainly s c) : Shows s c := by
  obtain ⟨h, hs, f, hS, hinner, rfl⟩ := hc
  have hbottom (hs' : hs = []) : s.frames root = some f := by
    subst hs'
    rw [← hS.continuation_root.1]
    exact hS.innermost
  have hroot : s.frames root = some f ∨ ∃ (g : Frame M) (task : Handle) (next : M.Result → M.Point),
      s.frames root = some g ∧ g.status = .onTask task next := by
    rcases hS.chain.root_cases with ⟨-, hs'⟩ | h
    · exact Or.inl (hbottom hs')
    · exact Or.inr h
  refine ⟨rfl, rfl, ?_, ?_⟩
  · show s.Waits ↔ ∃ next, modeOf f.status = .waiting next
    cases hstatus : f.status with
    | onQueue next =>
      rw [hstatus] at hinner
      refine iff_of_true ⟨hinner.1, ?_⟩ ⟨next, rfl⟩
      rcases hroot with hr | ⟨g, task, next', hr, htask⟩
      · rw [hr, Option.any_some, Frame.waits, hstatus]
      · rw [hr, Option.any_some, Frame.waits, htask]
    | onTask task next =>
      rw [hstatus] at hinner
      exact hinner.elim
    | running point =>
      rw [hstatus] at hinner
      exact iff_of_false (fun hw => by cases hinner.symm.trans hw.1)
        fun h => by cases h.choose_spec
    | initial point =>
      rw [hstatus] at hinner
      refine iff_of_false (fun hw => ?_) fun h => by cases h.choose_spec
      have hany := hw.2
      rw [hbottom hinner.2.1, Option.any_some, Frame.waits, hstatus] at hany
      cases hany
    | final =>
      rw [hstatus] at hinner
      refine iff_of_false (fun hw => ?_) fun h => by cases h.choose_spec
      have hany := hw.2
      rw [hbottom hinner.2, Option.any_some, Frame.waits, hstatus] at hany
      cases hany
  · show (s.frames root).any Frame.done = true ↔ modeOf f.status = .finished
    cases hstatus : f.status with
    | final =>
      rw [hstatus] at hinner
      rw [hbottom hinner.2, Option.any_some, Frame.done, hstatus]
      exact iff_of_true rfl rfl
    | onTask task next =>
      rw [hstatus] at hinner
      exact hinner.elim
    | initial point | running point | onQueue next =>
      refine iff_of_false ?_ fun h => by cases h
      rcases hroot with hr | ⟨g, task, next', hr, htask⟩
      · rw [hr, Option.any_some, Frame.done, hstatus]
        exact Bool.false_ne_true
      · rw [hr, Option.any_some, Frame.done, htask]
        exact Bool.false_ne_true

/-- **The coroutines run like the plain program** on the messages pushed so far, whenever these were
pushed. -/
theorem runs_plainly (hr : reach step (init point result) ls = some s) :
    ∃ c, reach plainStep (plain point result s.pushed) (answers ls) = some c ∧ Shows s c := by
  obtain ⟨c, hreach, hc⟩ := plainly_reach hr
  exact ⟨c, hreach, shows_of_plainly hc⟩

/-- The task that asks for the session id has an id pushed while it waits. -/
theorem runs_plainly_session_id : ∃ (s : State (SessionId.program 0)) (c : Config (SessionId.program 0)),
    reach step (SessionId.start 0) [.start, .run (), .run (), .run (), .pushMessage "7"] = some s ∧
    s.pushed = ["7"] ∧ reach plainStep (plain (M := SessionId.program 0) SessionId.Point.caller (0 : ℤ) ["7"])
      [(), (), ()] = some c ∧ Shows s c := by
  obtain ⟨s, hr⟩ := Option.isSome_iff_exists.mp (show (reach step (SessionId.start 0)
    [.start, .run (), .run (), .run (), .pushMessage "7"]).isSome = true by decide +kernel)
  have hpushed : s.pushed = ["7"] := by cases hr; rfl
  obtain ⟨c, hreach, hc⟩ := runs_plainly hr
  exact ⟨s, c, hr, hpushed, hpushed ▸ hreach, hc⟩

/-- **More messages and answers only make the log longer**, however the pushes are timed. -/
theorem log_prefix (hr : reach step (init point result) ls = some s)
    (hr' : reach step (init point result) ls' = some s') (hpushed : s.pushed <+: s'.pushed)
    (hanswers : answers ls <+: answers ls') : s.log <+: s'.log := by
  obtain ⟨c, hreach, hc⟩ := plainly_reach hr
  obtain ⟨c', hreach', hc'⟩ := plainly_reach hr'
  obtain ⟨messages, hmessages⟩ := hpushed
  obtain ⟨outs, houts⟩ := hanswers
  rw [← hmessages, ← houts, reach_append, reach_feeds hreach messages, Option.bind_some] at hreach'
  rw [← (shows_of_plainly hc).log, ← (shows_of_plainly hc').log]
  exact (feeds_log c messages).trans (reach_log hreach')

/-- A message that is there from the start, and one that comes late and is followed by another. -/
theorem log_prefix_session_id : ∃ s s' : State (SessionId.program 0),
    reach step (SessionId.start 0) [.pushMessage "x", .start, .run (), .run (), .run ()] = some s ∧
    reach step (SessionId.start 0) [.start, .run (), .run (), .run (), .pushMessage "x", .run (),
      .run (), .pushMessage "7", .run ()] = some s' ∧ s.log <+: s'.log := by
  obtain ⟨s, hr⟩ := Option.isSome_iff_exists.mp (show (reach step (SessionId.start 0)
    [.pushMessage "x", .start, .run (), .run (), .run ()]).isSome = true by decide +kernel)
  obtain ⟨s', hr'⟩ := Option.isSome_iff_exists.mp (show (reach step (SessionId.start 0)
    [.start, .run (), .run (), .run (), .pushMessage "x", .run (), .run (), .pushMessage "7",
      .run ()]).isSome = true by decide +kernel)
  have hpushed : s.pushed <+: s'.pushed := by cases hr; cases hr'; exact ⟨["7"], rfl⟩
  exact ⟨s, s', hr, hr', log_prefix hr hr' hpushed ⟨[(), (), ()], rfl⟩⟩

/-- The root has left its initial suspend point. -/
def Started (s : State M) : Prop := ∀ f, s.frames root = some f → ∀ point, f.status ≠ .initial point

theorem Plainly.awake {c : Config M} (hc : Plainly s c) (hstarted : Started s) : Awake s c := by
  obtain ⟨h, hs, f, hS, hinner, he⟩ := hc
  refine ⟨h, hs, f, hS, hinner, he, fun point hstatus => ?_⟩
  rw [hstatus] at hinner
  obtain ⟨-, rfl, -⟩ := hinner
  obtain ⟨rfl, -⟩ := hS.continuation_root
  exact hstarted f hS.innermost point hstatus

/-- **What the plain program goes on to do, the coroutines do.** -/
theorem reach_of_plain {c c' : Config M} {outs : List M.Outside} (hI : Inv s) (hc : Awake s c)
    (hr : reach plainStep c outs = some c') :
    ∃ s', reach step s (outs.map .run) = some s' ∧ Awake s' c' ∧ s'.pushed = s.pushed := by
  induction outs generalizing s c with
  | nil =>
    cases hr
    exact ⟨s, rfl, hc, rfl⟩
  | cons outside outs ih =>
    unfold reach at hr
    cases hs : plainStep c outside with
    | none => rw [hs] at hr; cases hr
    | some c1 =>
      rw [hs] at hr
      obtain ⟨h, hs', f, hS, hinner, rfl, hnot⟩ := hc
      unfold plainStep configOf at hs
      cases hstatus : f.status with
      | running point =>
        rw [hstatus] at hinner
        have hstep := step_run hI.fault hinner hS.innermost hstatus outside
        obtain ⟨c2, hs2, hc2⟩ := awake_run ⟨h, hs', f, hS, hstatus ▸ hinner, rfl⟩ hinner hS.innermost
          hstatus outside
        have heq : c2 = c1 := Option.some.inj (hs2.symm.trans hs)
        obtain ⟨s', hreach, hc', hpushed⟩ := ih (inv_step hI hstep) (heq ▸ hc2) hr
        refine ⟨s', ?_, hc', hpushed.trans (act_pushed _ _ _ _)⟩
        rw [List.map_cons, reach, hstep]
        exact hreach
      | initial point => exact absurd hstatus (hnot point)
      | onQueue next | onTask task next | final =>
        simp only [hstatus, modeOf] at hs
        cases hs

theorem plainStep_eq_none {c : Config M} {outside : M.Outside} :
    plainStep c outside = none ↔ ∀ point, c.mode ≠ .running point := by
  unfold plainStep
  cases c.mode with
  | running point => exact iff_of_false (fun h => by cases h) fun h => h point rfl
  | waiting next => exact iff_of_true rfl fun point h => by cases h
  | finished => exact iff_of_true rfl fun point h => by cases h

/-- Control is outside where the plain program has no step. -/
theorem Awake.rests {c : Config M} (hc : Awake s c) (hrest : ∀ point, c.mode ≠ .running point) :
    s.running = none := by
  obtain ⟨h, hs, f, hS, hinner, rfl, hnot⟩ := hc
  cases hstatus : f.status with
  | initial point => exact absurd hstatus (hnot point)
  | running point => exact absurd (congrArg modeOf hstatus) (hrest point)
  | onTask task next =>
    rw [hstatus] at hinner
    exact hinner.elim
  | onQueue next | final =>
    rw [hstatus] at hinner
    exact hinner.1

/-- **Where the plain program comes to rest, the coroutines do**, from any state of any run in which
the outside has always answered the same. -/
theorem comes_to_rest {c : Config M} {outside : M.Outside} {n k : ℕ}
    (hr : reach step (init point result) ls = some s) (hstarted : Started s)
    (hanswers : answers ls = List.replicate k outside)
    (hplain : reach plainStep (plain point result s.pushed) (List.replicate n outside) = some c)
    (hrest : plainStep c outside = none) :
    ∃ j s', reach step s (List.replicate j (.run outside)) = some s' ∧ s'.running = none ∧
      s'.pushed = s.pushed ∧ Shows s' c := by
  obtain ⟨c0, hreach, hc⟩ := plainly_reach hr
  rw [hanswers] at hreach
  obtain ⟨j, hj⟩ := reach_rest hplain hrest hreach
  have hI : Inv s := inv_reach (fun _ _ _ hI hs => inv_step hI hs) (inv_init point result) hr
  obtain ⟨s', hs', hc', hpushed⟩ := reach_of_plain hI (hc.awake hstarted) hj
  refine ⟨j, s', ?_, hc'.rests (plainStep_eq_none.mp hrest), hpushed, shows_of_plainly hc'.plainly⟩
  rwa [List.map_replicate] at hs'

end Runs

end Plain

end HanabiBot.TgClient.Direct
