import HanabiBot.Lib.Runs
import Mathlib.Data.List.Nodup
import Mathlib.Logic.Function.Basic

/-! # Who owns a coroutine frame

The move operations and the destructor of `Task`. A `Task` object holds the handle of a frame, or
none; the frames are numbered as they are created. Moving a `Task` takes the handle along, and its
destructor destroys the frame. The move assignment does not: the frame that the assigned `Task` held
is owned by nobody from then on.

Every frame is owned once and destroyed once, with its owner (`Keeps`), exactly in the runs in which
no `Task` that holds a frame is assigned another (`keeps_iff`). `insert_or_assign` does that in
`ChatSessions::createNewSession`, for a chat whose coroutine has ended (`createNewSession_keeps`). -/

namespace HanabiBot.TgClient.Ownership

open HanabiBot.Lib.Runs

/-- The `Task` objects there are, with what `handle_` refers to, the number of frames created and the
frames destroyed, in order. -/
structure Tasks (Id : Type) where
  handle : Id → Option (Option ℕ)
  created : ℕ
  destroyed : List ℕ

/-- The operations on `Task` objects. -/
inductive Op (Id : Type) where
  /-- a coroutine is called and returns its `Task` -/
  | create (task : Id)
  /-- `Task(Task&&)` -/
  | moveConstruct (task other : Id)
  /-- `operator=(Task&&)` -/
  | moveAssign (task other : Id)
  /-- `~Task()` -/
  | destroy (task : Id)
deriving DecidableEq, Repr

section Model
variable {Id : Type} [DecidableEq Id]

/-- Before the first `Task`. -/
def noTasks : Tasks Id := ⟨fun _ => none, 0, []⟩

namespace Tasks

def setHandle (s : Tasks Id) (task : Id) (handle : Option (Option ℕ)) : Tasks Id :=
  { s with handle := Function.update s.handle task handle }

/-- `~Task()`. -/
def destroy (s : Tasks Id) (task : Id) (handle : Option ℕ) : Tasks Id :=
  { s.setHandle task none with destroyed := s.destroyed ++ handle.toList }

/-- The object `task` holds the frame. -/
def Owns (s : Tasks Id) (task : Id) (frame : ℕ) : Prop := s.handle task = some (some frame)

end Tasks

/-- An object is constructed where there is none, and used where there is one. -/
def step (s : Tasks Id) : Op Id → Option (Tasks Id)
  | .create task =>
    match s.handle task with
    | none => some { s.setHandle task (some (some s.created)) with created := s.created + 1 }
    | some _ => none
  | .moveConstruct task other =>
    match s.handle task, s.handle other with
    | none, some handle => some ((s.setHandle task (some handle)).setHandle other (some none))
    | _, _ => none
  | .moveAssign task other =>
    match s.handle task, s.handle other with
    | some _, some handle =>
      if task ≠ other then
        some ((s.setHandle task (some handle)).setHandle other (some none))
      else some s
    | _, _ => none
  | .destroy task =>
    match s.handle task with
    | some handle => some (s.destroy task handle)
    | none => none

/-! ### What the class is for -/

/-- The operation destroys the object, or overwrites what it holds. -/
def Op.Ends (op : Op Id) (task : Id) : Prop :=
  op = .destroy task ∨ ∃ other, other ≠ task ∧ op = .moveAssign task other

/-- Every frame has one owner until it is destroyed, once, and none then. -/
structure Owned (s : Tasks Id) : Prop where
  unique : ∀ task task' frame, s.Owns task frame → s.Owns task' frame → task = task'
  owner : ∀ frame < s.created, frame ∉ s.destroyed → ∃ task, s.Owns task frame
  live : ∀ task frame, s.Owns task frame → frame < s.created ∧ frame ∉ s.destroyed
  once : s.destroyed.Nodup
  created : ∀ frame ∈ s.destroyed, frame < s.created

/-- The operation leads to a state in which the frames are owned, and the frames it destroys are
those whose owner it destroys or overwrites. -/
def Keeps (s : Tasks Id) (op : Op Id) : Prop :=
  ∀ s', step s op = some s' → Owned s' ∧
    ∀ frame, frame ∈ s'.destroyed ↔ frame ∈ s.destroyed ∨ ∃ task, s.Owns task frame ∧ op.Ends task

/-- No object that holds a frame is assigned another. -/
def Spares (s : Tasks Id) (op : Op Id) : Prop :=
  ∀ task other frame, op = .moveAssign task other → s.handle other ≠ none → s.Owns task frame →
    task = other

/-! ### One operation -/

section Ends
variable {task task' other : Id}

omit [DecidableEq Id]

@[simp] theorem ends_create : ¬ (Op.create task).Ends task' := by
  rintro (h | ⟨other, -, h⟩) <;> cases h

@[simp] theorem ends_moveConstruct : ¬ (Op.moveConstruct task other).Ends task' := by
  rintro (h | ⟨other', -, h⟩) <;> cases h

@[simp] theorem ends_moveAssign :
    (Op.moveAssign task other).Ends task' ↔ task = task' ∧ other ≠ task' := by
  constructor
  · rintro (h | ⟨other', hne, h⟩)
    · cases h
    · cases h
      exact ⟨rfl, hne⟩
  · rintro ⟨rfl, hne⟩
    exact Or.inr ⟨other, hne, rfl⟩

@[simp] theorem ends_destroy : (Op.destroy task).Ends task' ↔ task = task' := by
  constructor
  · rintro (h | ⟨other', -, h⟩)
    · cases h
      rfl
    · cases h
  · rintro rfl
    exact Or.inl rfl

end Ends

section Step
variable {s s' : Tasks Id} {task other : Id} {handle : Option ℕ}

theorem step_create (h : step s (.create task) = some s') : s.handle task = none ∧
    s' = { s.setHandle task (some (some s.created)) with created := s.created + 1 } := by
  simp only [step] at h
  split at h
  · next habsent => exact ⟨habsent, (Option.some.inj h).symm⟩
  · cases h

/-- What both move operations do with the handle. -/
def moved (s : Tasks Id) (task other : Id) (handle : Option ℕ) : Tasks Id :=
  (s.setHandle task (some handle)).setHandle other (some none)

theorem step_moveConstruct (h : step s (.moveConstruct task other) = some s') :
    ∃ handle, s.handle task = none ∧ s.handle other = some handle ∧
      s' = moved s task other handle := by
  simp only [step] at h
  split at h
  · next handle htask hother => exact ⟨handle, htask, hother, (Option.some.inj h).symm⟩
  · cases h

theorem step_moveAssign (h : step s (.moveAssign task other) = some s') :
    ∃ handle, s.handle task ≠ none ∧ s.handle other = some handle ∧
      (task = other ∧ s' = s ∨ task ≠ other ∧ s' = moved s task other handle) := by
  simp only [step] at h
  split at h
  · next old handle htask hother =>
    refine ⟨handle, by rw [htask]; exact Option.some_ne_none old, hother, ?_⟩
    split_ifs at h with hne
    · exact Or.inr ⟨hne, (Option.some.inj h).symm⟩
    · exact Or.inl ⟨not_not.mp hne, (Option.some.inj h).symm⟩
  · cases h

theorem step_destroy (h : step s (.destroy task) = some s') :
    ∃ handle, s.handle task = some handle ∧ s' = s.destroy task handle := by
  simp only [step] at h
  split at h
  · next handle htask => exact ⟨handle, htask, (Option.some.inj h).symm⟩
  · cases h

theorem owns_setHandle (s : Tasks Id) (task : Id) (handle : Option (Option ℕ)) (task' : Id)
    (frame : ℕ) : (s.setHandle task handle).Owns task' frame ↔
      if task' = task then handle = some (some frame) else s.Owns task' frame := by
  unfold Tasks.Owns Tasks.setHandle
  simp only [Function.update_apply]
  split_ifs <;> rfl

theorem keeps_create (hI : Owned s) (task : Id) : Keeps s (.create task) := by
  intro s' hs'
  obtain ⟨habsent, rfl⟩ := step_create hs'
  have howns (t : Id) (f : ℕ) :
      Tasks.Owns { s.setHandle task (some (some s.created)) with created := s.created + 1 } t f ↔
        if t = task then s.created = f else s.Owns t f := by
    have h := owns_setHandle s task (some (some s.created)) t f
    rw [Option.some.injEq, Option.some.injEq] at h
    exact h
  refine ⟨⟨fun t t' f h h' => ?_, fun f hf hd => ?_, fun t f h => ?_, hI.once, fun f hd => ?_⟩,
    fun f => ?_⟩
  · rw [howns] at h h'
    split_ifs at h h' with ht ht' ht'
    · rw [ht, ht']
    · exact absurd (hI.live t' f h').1 (by omega)
    · exact absurd (hI.live t f h).1 (by omega)
    · exact hI.unique t t' f h h'
  · rcases Nat.lt_succ_iff_lt_or_eq.mp hf with hf | rfl
    · obtain ⟨t, ht⟩ := hI.owner f hf hd
      refine ⟨t, (howns t f).mpr ?_⟩
      rw [if_neg]
      · exact ht
      · rintro rfl
        exact Option.some_ne_none _ (ht.symm.trans habsent)
    · exact ⟨task, (howns task _).mpr (if_pos rfl ▸ rfl)⟩
  · rw [howns] at h
    split_ifs at h with ht
    · subst h
      exact ⟨Nat.lt_succ_self _, fun hd => Nat.lt_irrefl _ (hI.created _ hd)⟩
    · exact ⟨Nat.lt_succ_of_lt (hI.live t f h).1, (hI.live t f h).2⟩
  · exact Nat.lt_succ_of_lt (hI.created f hd)
  · simp only [ends_create, and_false, exists_false, or_false]
    rfl

section Moved
variable (hother : s.handle other = some handle) (hne : task ≠ other)
  (hfree : ∀ frame, ¬ s.Owns task frame)
include hother hne hfree

/-- A frame that is moved has its new owner, any other its old one. -/
theorem owns_moved (t : Id) (f : ℕ) : (moved s task other handle).Owns t f ↔
    t = task ∧ s.Owns other f ∨ t ≠ other ∧ s.Owns t f := by
  have hhandle : s.Owns other f ↔ handle = some f := by
    rw [Tasks.Owns, hother, Option.some.injEq]
  rw [moved, owns_setHandle, owns_setHandle, Option.some.injEq, Option.some.injEq, ← hhandle]
  by_cases hto : t = other
  · subst hto
    simp [hne.symm]
  · by_cases ht : t = task
    · subst ht
      simp [hne, hfree f]
    · simp [hto, ht]

theorem owned_moved (hI : Owned s) : Owned (moved s task other handle) := by
  have howns := owns_moved hother hne hfree
  refine ⟨fun t t' f h h' => ?_, fun f hf hd => ?_, fun t f h => ?_, hI.once, hI.created⟩
  · rw [howns] at h h'
    rcases h with ⟨rfl, h⟩ | ⟨hto, h⟩ <;> rcases h' with ⟨rfl, h'⟩ | ⟨hto', h'⟩
    · rfl
    · exact absurd (hI.unique _ _ f h' h) hto'
    · exact absurd (hI.unique _ _ f h h') hto
    · exact hI.unique _ _ f h h'
  · obtain ⟨t, ht⟩ := hI.owner f hf hd
    by_cases hto : t = other
    · exact ⟨task, (howns _ f).mpr (Or.inl ⟨rfl, hto ▸ ht⟩)⟩
    · exact ⟨t, (howns t f).mpr (Or.inr ⟨hto, ht⟩)⟩
  · rcases (howns t f).mp h with ⟨-, h⟩ | ⟨-, h⟩
    · exact hI.live _ f h
    · exact hI.live _ f h

end Moved

theorem keeps_moveConstruct (hI : Owned s) (task other : Id) :
    Keeps s (.moveConstruct task other) := by
  intro s' hs'
  obtain ⟨handle, hfree, hother, rfl⟩ := step_moveConstruct hs'
  have hne : task ≠ other := by
    rintro rfl
    exact Option.some_ne_none _ (hother.symm.trans hfree)
  refine ⟨owned_moved hother hne (fun f h => Option.some_ne_none _ (h.symm.trans hfree)) hI, ?_⟩
  intro f
  simp only [ends_moveConstruct, and_false, exists_false, or_false]
  rfl

theorem keeps_moveAssign (hI : Owned s) (hspares : Spares s (.moveAssign task other)) :
    Keeps s (.moveAssign task other) := by
  intro s' hs'
  obtain ⟨handle, -, hother, hcase⟩ := step_moveAssign hs'
  have hothers : s.handle other ≠ none := by
    rw [hother]
    exact Option.some_ne_none handle
  have hnone (f : ℕ) : ¬ ∃ t, s.Owns t f ∧ (Op.moveAssign task other).Ends t := by
    rintro ⟨t, ht, hends⟩
    obtain ⟨rfl, hne⟩ := ends_moveAssign.mp hends
    exact hne (hspares _ _ f rfl hothers ht).symm
  have hdestroyed : s'.destroyed = s.destroyed := by
    rcases hcase with ⟨-, rfl⟩ | ⟨-, rfl⟩ <;> rfl
  refine ⟨?_, fun f => by rw [hdestroyed, or_iff_left (hnone f)]⟩
  rcases hcase with ⟨-, rfl⟩ | ⟨hne, rfl⟩
  · exact hI
  · exact owned_moved hother hne (fun f h => hne (hspares _ _ f rfl hothers h)) hI

/-- **The frame that the assigned object held is lost.** -/
theorem moveAssign_loses (hI : Owned s) (hother : s.handle other = some handle) (hne : task ≠ other)
    {frame : ℕ} (hframe : s.Owns task frame) : ¬ Keeps s (.moveAssign task other) := by
  intro hkeeps
  have hstep : step s (.moveAssign task other) = some (moved s task other handle) := by
    simp only [step]
    rw [show s.handle task = some (some frame) from hframe, hother]
    exact if_pos hne
  have hdestroyed : frame ∈ s.destroyed :=
    ((hkeeps _ hstep).2 frame).mpr (Or.inr ⟨task, hframe, ends_moveAssign.mpr ⟨rfl, hne.symm⟩⟩)
  exact (hI.live task frame hframe).2 hdestroyed

theorem keeps_destroy (hI : Owned s) (task : Id) : Keeps s (.destroy task) := by
  intro s' hs'
  obtain ⟨handle, htask, rfl⟩ := step_destroy hs'
  have hhandle (f : ℕ) : s.Owns task f ↔ f ∈ handle.toList := by
    rw [Tasks.Owns, htask, Option.some.injEq, Option.mem_toList]
  have howns (t : Id) (f : ℕ) : (s.destroy task handle).Owns t f ↔ t ≠ task ∧ s.Owns t f := by
    refine (owns_setHandle s task none t f).trans ?_
    by_cases ht : t = task <;> simp [ht]
  have hmem (f : ℕ) : f ∈ (s.destroy task handle).destroyed ↔ f ∈ s.destroyed ∨ s.Owns task f := by
    rw [hhandle]
    exact List.mem_append
  refine ⟨⟨fun t t' f h h' => ?_, fun f hf hd => ?_, fun t f h => ?_, ?_, fun f hd => ?_⟩,
    fun f => ?_⟩
  · exact hI.unique t t' f ((howns t f).mp h).2 ((howns t' f).mp h').2
  · rw [hmem, not_or] at hd
    obtain ⟨t, ht⟩ := hI.owner f hf hd.1
    refine ⟨t, (howns t f).mpr ⟨?_, ht⟩⟩
    rintro rfl
    exact hd.2 ht
  · obtain ⟨hne, h⟩ := (howns t f).mp h
    rw [hmem, not_or]
    exact ⟨(hI.live t f h).1, (hI.live t f h).2, fun h' => hne (hI.unique t task f h h')⟩
  · refine List.nodup_append.mpr ⟨hI.once, ?_, ?_⟩
    · cases handle with
      | none => exact List.nodup_nil
      | some f => exact List.nodup_singleton f
    · rintro f hf _ h rfl
      exact (hI.live task f ((hhandle f).mpr h)).2 hf
  · rcases (hmem f).mp hd with hd | h
    · exact hI.created f hd
    · exact (hI.live task f h).1
  · rw [hmem]
    simp

theorem keeps_of_spares (hI : Owned s) (op : Op Id) (h : Spares s op) : Keeps s op := by
  cases op with
  | create task => exact keeps_create hI task
  | moveConstruct task other => exact keeps_moveConstruct hI task other
  | moveAssign task other => exact keeps_moveAssign hI h
  | destroy task => exact keeps_destroy hI task

theorem keeps_iff_spares (hI : Owned s) (op : Op Id) : Keeps s op ↔ Spares s op := by
  refine ⟨fun hkeeps => ?_, keeps_of_spares hI op⟩
  rintro task other frame rfl hother hframe
  by_contra hne
  obtain ⟨handle, hhandle⟩ := Option.ne_none_iff_exists'.mp hother
  exact moveAssign_loses hI hhandle hne hframe hkeeps

end Step

/-! ### Runs -/

omit [DecidableEq Id] in
theorem owned_noTasks : Owned (noTasks : Tasks Id) where
  unique _ _ _ h := nomatch h
  owner frame h := absurd h (Nat.not_lt_zero frame)
  live _ _ h := nomatch h
  once := List.nodup_nil
  created _ h := nomatch h

theorem owned_step {s s' : Tasks Id} {op : Op Id} (hI : Owned s) (hspares : Spares s op)
    (hs : step s op = some s') : Owned s' :=
  (keeps_of_spares hI op hspares s' hs).1

/-- **A run keeps its frames owned**, and destroys each once, with its owner, exactly if in it no
object that holds a frame is assigned another. -/
theorem keeps_iff (ops : List (Op Id)) :
    Along step Keeps noTasks ops ↔ Along step Spares noTasks ops :=
  along_iff (fun _ _ _ hI hC hs => owned_step hI hC hs) (fun _ op hI => keeps_iff_spares hI op)
    owned_noTasks ops

end Model

/-! ### `createNewSession` -/

/-- The `Task` objects of `ChatSessions`: the entry of a chat in `chatCoroutines`, and the one that
`clientEntry` returns. -/
inductive Place where
  | entry (chatId : ℤ)
  | temporary
deriving DecidableEq, Repr

/-- The line with `insert_or_assign` in `ChatSessions::createNewSession`: an entry that is there is
assigned, a new one is constructed. -/
def createNewSession (s : Tasks Place) (chatId : ℤ) : List (Op Place) :=
  [.create .temporary,
    if s.handle (.entry chatId) = none then .moveConstruct (.entry chatId) .temporary
    else .moveAssign (.entry chatId) .temporary,
    .destroy .temporary]

/-- **A new session loses no frame** unless the chat has a coroutine, which must have ended then. -/
theorem createNewSession_keeps {s : Tasks Place} (hI : Owned s) (htemp : s.handle .temporary = none)
    (chatId : ℤ) : Along step Keeps s (createNewSession s chatId) ↔
      ∀ frame, ¬ s.Owns (.entry chatId) frame := by
  have hcreate : ∃ s1, step s (.create .temporary) = some s1 ∧ s1.handle .temporary ≠ none ∧
      s1.handle (.entry chatId) = s.handle (.entry chatId) := by
    refine ⟨{ s.setHandle .temporary (some (some s.created)) with created := s.created + 1 },
      by simp only [step, htemp], ?_, ?_⟩ <;> simp [Tasks.setHandle]
  obtain ⟨s1, hs1, htemp1, hentry⟩ := hcreate
  have hspares (s' : Tasks Place) (op : Op Place)
      (hop : ∀ task other, op ≠ .moveAssign task other) : Spares s' op :=
    fun task other _ h => absurd h (hop task other)
  have hlast (s' : Tasks Place) : Along step Spares s' [.destroy .temporary] :=
    along_cons.mpr ⟨hspares s' _ nofun, fun _ _ => trivial⟩
  rw [along_iff (fun _ _ _ hI hC hs => owned_step hI hC hs) (fun _ op hI => keeps_iff_spares hI op)
    hI, createNewSession, along_cons_some hs1, along_cons,
    and_iff_right (hspares s (.create _) nofun), and_iff_left fun s' _ => hlast s']
  split_ifs with hnone
  · refine iff_of_true (hspares s1 _ fun _ _ h => nomatch h) fun f h => ?_
    exact Option.some_ne_none _ (h.symm.trans hnone)
  · constructor
    · intro h f hf
      exact Place.noConfusion (h _ _ f rfl htemp1 (hentry.trans hf))
    · intro h task other f hop _ hf
      cases hop
      exact absurd (hentry.symm.trans hf) (h f)

/-- A chat whose coroutine has ended gets a new one. -/
def restart : List (Op Place) :=
  createNewSession noTasks 7 ++
    createNewSession (last step noTasks (createNewSession noTasks 7)) 7

/-- The frame of the first coroutine is never destroyed. -/
theorem restart_loses : ¬ Along step Keeps noTasks restart := by
  intro h
  have hassign : Keeps _ (.moveAssign (Place.entry 7) .temporary) :=
    ((((h.2 _ rfl).2 _ rfl).2 _ rfl).2 _ rfl).1
  have hdestroyed := ((hassign _ rfl).2 0).mpr
    (Or.inr ⟨Place.entry 7, rfl, ends_moveAssign.mpr ⟨rfl, nofun⟩⟩)
  exact absurd hdestroyed (by decide)

end HanabiBot.TgClient.Ownership
