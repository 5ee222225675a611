import HanabiBot.TgClient.Tasks

/-! # What a consumer gets

The coroutines that are alive form a stack: each is suspended behind the task it awaits, up to the
innermost one, which runs, or waits on the queue (`Innermost`). The handles are the links of this
stack (`Chain`): the `continuation` of a frame is the frame below it, and `m_awaiter`, while the
consumer waits, is the innermost one.

So no handle is ever resumed in vain, and the values of the successive `co_await` on the queue are
the messages of the calls of `pushMessage`, in order (`delivers`). -/

namespace HanabiBot.TgClient.Delivery

open HanabiBot.Lib.Runs HanabiBot.TgClient.Tasks

section Delivery
variable {M : Program}

/-- The coroutine awaits `hs` in turn: the first has the handle of the second as `continuation`, and
the second is suspended behind it, and so on down to the root. -/
inductive Chain (frames : Handle → Option (Frame M)) : Handle → List Handle → Prop
  | bottom {f : Frame M} (hf : frames root = some f) (hc : f.continuation = none) :
    Chain frames root []
  | task {h k : Handle} {hs : List Handle} {f parent : Frame M} {next : M.Result → M.Point}
    (hf : frames h = some f) (hc : f.continuation = some k) (hparent : frames k = some parent)
    (hstatus : parent.status = .onTask h next) (rest : Chain frames k hs) : Chain frames h (k :: hs)

/-- Where the innermost coroutine stands, with `hs` below it. -/
def Innermost (s : State M) (h : Handle) (hs : List Handle) : Status M → Prop
  | .initial _ => s.running = none ∧ hs = [] ∧ s.mAwaiter = none
  | .running _ => s.running = some h
  | .onQueue _ => s.running = none ∧ s.mAwaiter = some h ∧ s.queue = []
  | .onTask _ _ => False
  | .final => s.running = none ∧ hs = []

/-- The stack of the coroutines. -/
structure Stack (s : State M) (h : Handle) (hs : List Handle) (f : Frame M) : Prop where
  chain : Chain s.frames h hs
  nodup : (h :: hs).Nodup
  fresh : ∀ n, s.created ≤ n → s.frames n = none
  whole : ∀ n, s.frames n ≠ none → n ∈ h :: hs
  innermost : s.frames h = some f

structure Inv (s : State M) : Prop where
  messages : s.delivered ++ s.queue = s.pushed
  fault : s.fault = none
  stack : ∃ h hs f, Stack s h hs f ∧ Innermost s h hs f.status

/-! ### Chains -/

section Chains
variable {frames frames' : Handle → Option (Frame M)} {h : Handle} {hs : List Handle}

theorem Chain.congr (hc : Chain frames h hs) (heq : ∀ n ∈ h :: hs, frames' n = frames n) :
    Chain frames' h hs := by
  induction hc with
  | bottom hf hc => exact .bottom ((heq _ List.mem_cons_self).trans hf) hc
  | task hf hc hparent hstatus rest ih =>
    exact .task ((heq _ List.mem_cons_self).trans hf) hc
      ((heq _ (List.mem_cons_of_mem _ List.mem_cons_self)).trans hparent) hstatus
      (ih fun n hn => heq n (List.mem_cons_of_mem _ hn))

/-- The innermost coroutine may go on. -/
theorem Chain.update (hc : Chain frames h hs) (hnodup : (h :: hs).Nodup) {f g : Frame M}
    (hf : frames h = some f) (hg : g.continuation = f.continuation) :
    Chain (Function.update frames h (some g)) h hs := by
  have hself : Function.update frames h (some g) h = some g := Function.update_self ..
  have hother (n : Handle) (hn : n ∈ hs) : Function.update frames h (some g) n = frames n := by
    refine Function.update_of_ne ?_ _ _
    rintro rfl
    exact (List.nodup_cons.mp hnodup).1 hn
  cases hc with
  | bottom hf' hc' =>
    cases hf.symm.trans hf'
    exact .bottom hself (hg.trans hc')
  | task hf' hc' hparent hstatus rest =>
    cases hf.symm.trans hf'
    exact .task hself (hg.trans hc') ((hother _ List.mem_cons_self).trans hparent) hstatus
      (rest.congr hother)

theorem Chain.alive (hc : Chain frames h hs) : ∀ n ∈ h :: hs, frames n ≠ none := by
  induction hc with
  | bottom hf hc =>
    intro n hn
    rw [List.mem_singleton.mp hn, hf]
    exact Option.some_ne_none _
  | task hf hc hparent hstatus rest ih =>
    intro n hn
    rcases List.mem_cons.mp hn with rfl | hn
    · rw [hf]
      exact Option.some_ne_none _
    · exact ih n hn

end Chains

/-! ### Stacks -/

section Stacks
variable {s s' : State M} {h : Handle} {hs : List Handle} {f g : Frame M}

theorem Stack.congr (hS : Stack s h hs f) (hframes : s'.frames = s.frames)
    (hcreated : s'.created = s.created) : Stack s' h hs f where
  chain := hframes ▸ hS.chain
  nodup := hS.nodup
  fresh := by rw [hframes, hcreated]; exact hS.fresh
  whole := hframes ▸ hS.whole
  innermost := hframes ▸ hS.innermost

/-- The innermost frame changes, but not its `continuation`. -/
theorem Stack.update (hS : Stack s h hs f) (hg : g.continuation = f.continuation)
    (hframes : s'.frames = Function.update s.frames h (some g)) (hcreated : s'.created = s.created) :
    Stack s' h hs g where
  chain := hframes ▸ hS.chain.update hS.nodup hS.innermost hg
  nodup := hS.nodup
  fresh n hn := by
    rw [hcreated] at hn
    rw [hframes, Function.update_of_ne]
    · exact hS.fresh n hn
    · rintro rfl
      exact Option.some_ne_none _ (hS.innermost.symm.trans (hS.fresh _ hn))
  whole n hn := by
    by_cases hnh : n = h
    · rw [hnh]
      exact List.mem_cons_self
    · rw [hframes, Function.update_of_ne hnh] at hn
      exact hS.whole n hn
  innermost := by rw [hframes, Function.update_self]

/-- **A call**: the new coroutine is the innermost. -/
theorem Stack.coAwait (hS : Stack s h hs f) (task : M.Point) (result : M.Result)
    (next : M.Result → M.Point) :
    Stack (s.coAwait h f task result next) s.created (h :: hs)
      ⟨some h, result, .running task⟩ := by
  have hnew (n : Handle) (hn : n ∈ h :: hs) : n ≠ s.created := by
    rintro rfl
    exact hS.chain.alive _ hn (hS.fresh _ (Nat.le_refl _))
  have hh : h ≠ s.created := hnew h List.mem_cons_self
  rw [coAwait_eq]
  refine ⟨.task (Function.update_self ..) rfl
    ((Function.update_of_ne hh _ _).trans (Function.update_self ..)) rfl ?_, ?_, ?_, ?_,
    Function.update_self ..⟩
  · refine (hS.chain.update (g := { f with status := .onTask s.created next }) hS.nodup
      hS.innermost rfl).congr fun n hn => ?_
    exact Function.update_of_ne (hnew n hn) _ _
  · exact List.nodup_cons.mpr ⟨fun hn => hnew _ hn rfl, hS.nodup⟩
  · intro n hnext
    have hn : s.created + 1 ≤ n := hnext
    clear hnext
    have hnh : n ≠ h := by
      rintro rfl
      exact Option.some_ne_none _ (hS.innermost.symm.trans (hS.fresh n (by omega)))
    have hnc : n ≠ s.created := by omega
    exact (Function.update_of_ne hnc _ _).trans
      ((Function.update_of_ne hnh _ _).trans (hS.fresh n (by omega)))
  · intro n hn
    by_cases hnc : n = s.created
    · rw [hnc]
      exact List.mem_cons_self
    · by_cases hnh : n = h
      · rw [hnh]
        exact List.mem_cons_of_mem _ List.mem_cons_self
      · refine List.mem_cons_of_mem _ (hS.whole n fun hnone => hn ?_)
        exact (Function.update_of_ne hnc _ _).trans ((Function.update_of_ne hnh _ _).trans hnone)

/-- **A return** to the coroutine below, which goes on with the result. -/
theorem Stack.finalSuspend {k : Handle} (hS : Stack s h (k :: hs) f)
    (hg : g.continuation = f.continuation) : ∃ (parent : Frame M) (next : M.Result → M.Point),
      Stack (s.finalSuspend h g) k hs { parent with status := .running (next g.result) } ∧
        s.finalSuspend h g = { s with
          frames := (s.finalSuspend h g).frames
          running := some k } := by
  cases hS.chain with
  | @task _ _ _ _ parent next hf hc hparent hstatus rest =>
    cases hf.symm.trans hS.innermost
    obtain ⟨hmem, hnodup⟩ := List.nodup_cons.mp hS.nodup
    have hkh : k ≠ h := fun hkh => hmem (hkh ▸ List.mem_cons_self)
    have hframes := finalSuspend_some (hg.trans hc) hparent hkh hstatus
    refine ⟨parent, next, ?_, by rw [hframes]⟩
    rw [hframes]
    have hrest : Chain (Function.update s.frames h none) k hs := by
      refine rest.congr fun n hn => Function.update_of_ne ?_ _ _
      rintro rfl
      exact hmem hn
    refine ⟨hrest.update hnodup ((Function.update_of_ne hkh _ _).trans hparent) rfl, hnodup, ?_, ?_,
      Function.update_self ..⟩
    · intro n hn
      have hfresh := hS.fresh n hn
      have hnk : n ≠ k := by
        rintro rfl
        exact Option.some_ne_none _ (hparent.symm.trans hfresh)
      refine (Function.update_of_ne hnk _ _).trans ?_
      rcases eq_or_ne n h with rfl | hnh
      · exact Function.update_self ..
      · exact (Function.update_of_ne hnh _ _).trans hfresh
    · intro n hn
      by_cases hnk : n = k
      · rw [hnk]
        exact List.mem_cons_self
      · replace hn : Function.update s.frames h none n ≠ none := fun hnone =>
          hn ((Function.update_of_ne hnk _ _).trans hnone)
        have hnh : n ≠ h := by
          rintro rfl
          exact hn (Function.update_self ..)
        rw [Function.update_of_ne hnh] at hn
        exact (List.mem_cons.mp (hS.whole n hn)).resolve_left hnh

theorem Stack.continuation_root (hS : Stack s h [] f) : h = root ∧ f.continuation = none := by
  cases hS.chain with
  | bottom hf hc =>
    cases hf.symm.trans hS.innermost
    exact ⟨rfl, hc⟩

end Stacks

/-! ### The invariant -/

theorem delivered_took (s : State M) (message : M.T) (queue : List M.T) :
    (s.take message queue).delivered = s.delivered ++ [message] := by
  unfold State.delivered State.take
  rw [List.filterMap_append]
  rfl

theorem delivered_out (s s' : State M) (out : List M.Out) (h : s'.log = s.log ++ out.map .out) :
    s'.delivered = s.delivered := by
  unfold State.delivered
  rw [h, List.filterMap_append, List.filterMap_map]
  have hnone : out.filterMap (Event.message (M := M) ∘ .out) = [] :=
    List.filterMap_eq_nil_iff.mpr fun _ _ => rfl
  rw [hnone, List.append_nil]

section Steps
variable {s s' : State M} {h : Handle} {hs : List Handle} {f g : Frame M}

/-- The innermost coroutine goes on. -/
theorem inv_goOn (hS : Stack s h hs f) (hg : g.continuation = f.continuation)
    (hmessages : s.delivered ++ s.queue = s.pushed) (hfault : s.fault = none) (point : M.Point) :
    Inv (s.goOn h g point) :=
  ⟨hmessages, hfault, h, hs, { g with status := .running point }, hS.update hg rfl rfl, rfl⟩

/-- It goes on with a message from the queue. -/
theorem inv_take (hS : Stack s h hs f) (hg : g.continuation = f.continuation) {message : M.T}
    {queue : List M.T} (hqueue : s.queue = message :: queue)
    (hmessages : s.delivered ++ s.queue = s.pushed) (hfault : s.fault = none) (point : M.Point) :
    Inv ((s.take message queue).goOn h g point) := by
  have hS' : Stack (s.take message queue) h hs f := hS.congr rfl rfl
  refine inv_goOn hS' hg ?_ hfault point
  show (s.take message queue).delivered ++ queue = s.pushed
  rw [delivered_took, List.append_assoc, ← hmessages, hqueue]
  rfl

theorem inv_finalSuspend (hS : Stack s h hs f) (hg : g.continuation = f.continuation)
    (hmessages : s.delivered ++ s.queue = s.pushed) (hfault : s.fault = none) :
    Inv (s.finalSuspend h g) := by
  cases hs with
  | nil =>
    obtain ⟨rfl, hc⟩ := hS.continuation_root
    rw [finalSuspend_none (hg.trans hc)]
    exact ⟨hmessages, hfault, root, [], { g with status := .final }, hS.update hg rfl rfl, rfl, rfl⟩
  | cons k ks =>
    obtain ⟨parent, next, hS', heq⟩ := hS.finalSuspend hg
    rw [heq] at hS' ⊢
    exact ⟨hmessages, hfault, k, ks, _, hS', rfl⟩

theorem inv_act (hI : Inv s) (hS : Stack s h hs f)
    (action : Action M.Point M.T M.Result M.Out) : Inv (s.act h f action) := by
  obtain ⟨hmessages, hfault, -⟩ := hI
  cases action with
  | goOn out next =>
    refine ⟨?_, hfault, h, hs, { f with status := .running next }, hS.update rfl rfl rfl, rfl⟩
    rw [delivered_out s (State.act s h f (.goOn out next)) out rfl]
    exact hmessages
  | coAwaitQueue next =>
    simp only [State.act]
    split
    · next hqueue =>
      exact ⟨hmessages, hfault, h, hs, { f with status := .onQueue next }, hS.update rfl rfl rfl,
        rfl, rfl, hqueue⟩
    · next message queue hqueue => exact inv_take hS rfl hqueue hmessages hfault _
  | coAwaitTask task result next =>
    have hS' := hS.coAwait task result next
    simp only [State.act]
    rw [coAwait_eq] at hS' ⊢
    exact ⟨hmessages, hfault, s.created, h :: hs, _, hS', rfl⟩
  | coReturn result =>
    exact inv_finalSuspend (g := { f with result := result }) hS rfl hmessages hfault
  | throws => exact inv_finalSuspend hS rfl hmessages hfault

/-- **While the consumer waits**, `m_awaiter` is the innermost coroutine, and the queue is empty. -/
theorem Inv.waits (hI : Inv s) (hwaits : s.Waits) : s.queue = [] ∧ ∃ h hs f next,
    s.mAwaiter = some h ∧ Stack s h hs f ∧ f.status = .onQueue next := by
  obtain ⟨-, -, h, hs, f, hS, hinner⟩ := hI
  obtain ⟨hrunning, hany⟩ := hwaits
  have hroot (hs' : hs = []) : f.waits = true := by
    subst hs'
    obtain ⟨rfl, -⟩ := hS.continuation_root
    rwa [hS.innermost] at hany
  cases hstatus : f.status with
  | initial point =>
    rw [hstatus] at hinner
    exact absurd (hroot hinner.2.1) (by simp [Frame.waits, hstatus])
  | running point =>
    rw [hstatus] at hinner
    exact absurd (hinner.symm.trans hrunning) (Option.some_ne_none h)
  | onQueue next =>
    rw [hstatus] at hinner
    exact ⟨hinner.2.2, h, hs, f, next, hinner.2.1, hS, hstatus⟩
  | onTask task next =>
    rw [hstatus] at hinner
    exact hinner.elim
  | final =>
    rw [hstatus] at hinner
    exact absurd (hroot hinner.2) (by simp [Frame.waits, hstatus])

/-- Before the consumer has waited, a message only joins the queue. -/
theorem inv_push_early (hI : Inv s) (hnone : s.mAwaiter = none) (message : M.T) :
    Inv (s.pushMessage message) := by
  obtain ⟨hmessages, hfault, h, hs, f, hS, hinner⟩ := hI
  rw [pushMessage_none hnone]
  refine ⟨?_, hfault, h, hs, f, hS.congr rfl rfl, ?_⟩
  · show s.delivered ++ (s.queue ++ [message]) = s.pushed ++ [message]
    rw [← List.append_assoc, hmessages]
  · cases hstatus : f.status with
    | onQueue next =>
      rw [hstatus] at hinner
      exact absurd (hinner.2.1.symm.trans hnone) (Option.some_ne_none h)
    | initial point | running point | onTask task next | final =>
      rw [hstatus] at hinner
      exact hinner

/-- A push resumes the coroutine that waits on the empty queue, with the message. -/
theorem pushMessage_resumes {next : M.T → M.Point} (hqueue : s.queue = [])
    (hawaiter : s.mAwaiter = some h) (hf : s.frames h = some f) (hstatus : f.status = .onQueue next)
    (message : M.T) : s.pushMessage message =
      ((s.enqueue message).take message []).goOn h f (next message) := by
  have hone : (s.enqueue message).queue = [message] := by
    show s.queue ++ [message] = [message]
    rw [hqueue, List.nil_append]
  rw [pushMessage_onQueue hawaiter hf hstatus]
  exact resume_onQueue (s := s.enqueue message) hf hstatus hone

/-- While it waits, it is resumed with the message. -/
theorem inv_push_waits (hI : Inv s) (hwaits : s.Waits) (message : M.T) :
    Inv (s.pushMessage message) := by
  obtain ⟨hqueue, h, hs, f, next, hawaiter, hS, hstatus⟩ := hI.waits hwaits
  have hmessages := hI.messages
  have hone : (s.enqueue message).queue = [message] := congrArg (· ++ [message]) hqueue
  have hS' : Stack (s.enqueue message) h hs f := hS.congr rfl rfl
  rw [pushMessage_resumes hqueue hawaiter hS.innermost hstatus]
  refine inv_take hS' rfl hone ?_ hI.fault _
  show s.delivered ++ (s.queue ++ [message]) = s.pushed ++ [message]
  rw [← hmessages, List.append_assoc]

/-- The root is the innermost coroutine, or it is suspended behind a task. -/
theorem Chain.root_cases {frames : Handle → Option (Frame M)} (hc : Chain frames h hs) :
    h = root ∧ hs = [] ∨
      ∃ (f : Frame M) (task : Handle) (next : M.Result → M.Point),
        frames root = some f ∧ f.status = .onTask task next := by
  induction hc with
  | bottom hf hc => exact Or.inl ⟨rfl, rfl⟩
  | task hf hc hparent hstatus rest ih =>
    rcases ih with ⟨rfl, -⟩ | ih
    · exact Or.inr ⟨_, _, _, hparent, hstatus⟩
    · exact Or.inr ih

theorem inv_start (hI : Inv s) {point : M.Point} (hf : s.frames root = some f)
    (hstatus : f.status = .initial point) : Inv (s.goOn root f point) := by
  obtain ⟨hmessages, hfault, h, hs, g, hS, -⟩ := hI
  rcases hS.chain.root_cases with ⟨rfl, rfl⟩ | ⟨g, task, next, hg, htask⟩
  · cases hS.innermost.symm.trans hf
    exact inv_goOn hS rfl hmessages hfault point
  · cases hg.symm.trans hf
    cases htask.symm.trans hstatus

/-- The coroutine that runs is the innermost. -/
theorem Inv.running {k : Handle} (hI : Inv s) (hrunning : s.running = some k) :
    ∃ hs f, Stack s k hs f := by
  obtain ⟨-, -, h, hs, f, hS, hinner⟩ := hI
  cases hstatus : f.status with
  | running point =>
    rw [hstatus] at hinner
    cases hinner.symm.trans hrunning
    exact ⟨hs, f, hS⟩
  | onTask task next =>
    rw [hstatus] at hinner
    exact hinner.elim
  | initial point | onQueue next | final =>
    rw [hstatus] at hinner
    cases hinner.1.symm.trans hrunning

theorem inv_step (hI : Inv s) {l : Label M} (hs : step s l = some s') : Inv s' := by
  obtain ⟨-, ⟨f, point, -, hf, hstatus, rfl⟩ | ⟨message, -, -, hpush, rfl⟩ |
    ⟨outside, h, f, point, -, hrunning, hf, -, rfl⟩⟩ := step_cases hs
  · exact inv_start hI hf hstatus
  · rcases hpush with hnone | hwaits
    · exact inv_push_early hI hnone message
    · exact inv_push_waits hI hwaits message
  · obtain ⟨hs', g, hS⟩ := hI.running hrunning
    cases hS.innermost.symm.trans hf
    exact inv_act hI hS _

end Steps

theorem inv_init (point : M.Point) (result : M.Result) : Inv (init point result) := by
  have hroot : (init point result).frames root = some ⟨none, result, .initial point⟩ :=
    Function.update_self root _ (fun _ => none)
  have hother (n : Handle) (hn : n ≠ root) : (init point result).frames n = none :=
    Function.update_of_ne hn _ (fun _ => none)
  refine ⟨rfl, rfl, root, [], _, ⟨.bottom hroot rfl, List.nodup_singleton root, fun n hn => ?_,
    fun n hn => ?_, hroot⟩, rfl, rfl, rfl⟩
  · refine hother n ?_
    rintro rfl
    exact absurd hn (Nat.not_le_of_lt Nat.zero_lt_one)
  · by_contra hne
    exact hn (hother n fun hroot => hne (List.mem_singleton.mpr hroot))

end Delivery

end HanabiBot.TgClient.Delivery
