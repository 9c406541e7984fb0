import GameSdk.FrameDuration
import GameSdk.Runs
import Mathlib.Logic.Function.Basic

/-!
# The OpenGL instance (`SwappyGL.cpp`)

There is one `SwappyGL` in the process, which owns the EGL object that its swaps use.
`getEgl` keeps the object it found in a variable of the thread. The variable outlives
the instance: a swap is right as long as what its thread has kept is nothing, or is
what the present instance owns.

`init`, `destroyInstance` and `swap` are called by any threads, one after the other:
a swap during which its instance is destroyed is not in the model. Pointers are of any
type; an address may be used again once its object is destroyed.

`UsesOwnEgl` is what a swap should do. `SwapOk` is the condition, on the state before each swap:
the variable of the thread is null, or it has the object of the present instance.

What a swap does with EGL is a list of uses, each with the pointer it was made with. The list is
what the property is about; the results of the calls are arguments of the swap.
-/

namespace GameSdk

universe u v

/-! ## The state

The instance, and the variable that each thread keeps.
-/

/-- `mEnableSwappy` and `mEgl`. -/
structure SwappyGL (Ptr : Type u) where
  enableSwappy : Bool
  egl : Option Ptr
  deriving DecidableEq, Repr

/-- The methods that a swap calls on the EGL object. -/
inductive EglCall where
  | lastFrameIsComplete | getFencePendingTime | setPresentationTime | resetSyncFence
  deriving DecidableEq, Repr

namespace SwappyGL

variable {T : Type v} {Ptr : Type u}

/-- What the constructor finds. -/
structure InitEnv (Ptr : Type u) where
  /-- `SwappyCommon` could be initialized -/
  commonValid : Bool
  /-- the system property `swappy.disable` -/
  disabled : Bool
  /-- the result of `EGL::create` -/
  createEgl : Option Ptr
  deriving DecidableEq, Repr

/-- The constructor, with what its parts answer. -/
def new (env : InitEnv Ptr) : SwappyGL Ptr :=
  if env.commonValid = false then ⟨false, none⟩
  else if env.disabled then ⟨false, none⟩
  else
    match env.createEgl with
    | none => ⟨false, none⟩
    | some egl => ⟨true, some egl⟩

/-- `SwappyCommon::waitForNextFrame`: whether the app is fast enough to be made to wait, and
how many frames it then waits for the last one. -/
structure WaitEnv where
  belowThreshold : Bool
  lateFrames : ℕ
  deriving DecidableEq, Repr

/-- What a swap finds. The pipeline mode may change while it runs. -/
structure SwapEnv where
  pipelineModePre : PipelineMode
  pipelineModePost : PipelineMode
  waitPre : WaitEnv
  waitPost : WaitEnv
  closeToVsync : Bool
  /-- the result of `eglSwapBuffers` -/
  swapBuffersResult : Bool
  deriving DecidableEq, Repr

/-- The static variables: `sInstance`, and `egl` of each thread in `getEgl`. -/
structure Process (T : Type v) (Ptr : Type u) where
  sInstance : Option (SwappyGL Ptr)
  threadEgl : T → Option Ptr

namespace Process

/-- Before the first `init`. -/
def start : Process T Ptr := ⟨none, fun _ => none⟩

variable (s : Process T Ptr)

/-- `SwappyGL::init` -/
def init (env : InitEnv Ptr) : Process T Ptr :=
  -- attempted to initialize twice
  if s.sInstance.isSome then s
  else if (new env).enableSwappy then { s with sInstance := some (new env) }
  else { s with sInstance := none }

/-- `SwappyGL::destroyInstance` -/
def destroyInstance : Process T Ptr := { s with sInstance := none }

end Process

/-- A swap that is running, with the calls it has made and the objects it has made them on. -/
structure Swapping (T : Type v) (Ptr : Type u) where
  process : Process T Ptr
  uses : List (EglCall × Option Ptr)

variable [DecidableEq T] (swappy : SwappyGL Ptr) (t : T)

/-- `getEgl`: the variable of the thread is set when it is null. -/
def getEgl (s : Process T Ptr) : Option Ptr × Process T Ptr :=
  -- `mEgl` is read only while the variable of the thread is null
  let s := if (s.threadEgl t).isNone then
      { s with threadEgl := Function.update s.threadEgl t swappy.egl }
    else s
  (s.threadEgl t, s)

/-! ## The calls of a swap

Each function of the source as the calls of EGL that it makes, in order.
-/

/-- A call on the EGL object of the thread. -/
def callEgl (call : EglCall) (x : Swapping T Ptr) : Swapping T Ptr :=
  let (egl, process) := swappy.getEgl t x.process
  ⟨process, x.uses ++ [(call, egl)]⟩

/-- The calls of `waitForNextFrame`: one for each frame that the GPU is late, the one that finds it
done, and one for its time. -/
def waitForNextFrame (w : WaitEnv) (x : Swapping T Ptr) : Swapping T Ptr :=
  let x := if w.belowThreshold then
      (swappy.callEgl t .lastFrameIsComplete)^[w.lateFrames + 1] x
    else x
  swappy.callEgl t .getFencePendingTime x

/-- With pipelining the wait is before the swap. -/
def onPreSwap (env : SwapEnv) (x : Swapping T Ptr) : Swapping T Ptr :=
  match env.pipelineModePre with
  | .on => swappy.waitForNextFrame t env.waitPre x
  | .off => x

/-- `mPresentationTimeNeeded`, set before the swap. -/
def needToSetPresentationTime (env : SwapEnv) : Bool := env.waitPre.belowThreshold

/-- `setPresentationTime`, unless the next refresh is near. -/
def setPresentationTime (env : SwapEnv) (x : Swapping T Ptr) : Bool × Swapping T Ptr :=
  if env.closeToVsync then (true, x)
  else (true, swappy.callEgl t .setPresentationTime x)

/-- `resetSyncFence` -/
def resetSyncFence (x : Swapping T Ptr) : Swapping T Ptr := swappy.callEgl t .resetSyncFence x

/-- Without pipelining the wait is after the swap. -/
def onPostSwap (env : SwapEnv) (x : Swapping T Ptr) : Swapping T Ptr :=
  match env.pipelineModePost with
  | .on => x
  | .off => swappy.waitForNextFrame t env.waitPost x

/-- `swapInternal`: the calls of one swap, in order. -/
def swapInternal (env : SwapEnv) (x : Swapping T Ptr) : Bool × Swapping T Ptr :=
  let x := swappy.onPreSwap t env x
  let (setPresentationTimeResult, x) :=
    if needToSetPresentationTime env then swappy.setPresentationTime t env x else (true, x)
  if setPresentationTimeResult = false then (setPresentationTimeResult, x)
  else (env.swapBuffersResult, swappy.onPostSwap t env (swappy.resetSyncFence t x))

namespace Process

/-- The result, the state, and the calls on EGL objects. -/
def swap (s : Process T Ptr) (env : SwapEnv) : Bool × Swapping T Ptr :=
  match s.sInstance with
  | none => (false, ⟨s, []⟩)
  | some swappy =>
    if swappy.enableSwappy then swappy.swapInternal t env ⟨s, []⟩
    else (env.swapBuffersResult, ⟨s, []⟩)

end Process

/-- One thing that happens. -/
inductive Event (T : Type v) (Ptr : Type u) where
  | init (env : InitEnv Ptr)
  | destroyInstance
  | swap (t : T) (env : SwapEnv)
  deriving DecidableEq, Repr

/-- One event, on the state in which it happens. -/
def step (s : Process T Ptr) : Event T Ptr → Process T Ptr
  | .init env => s.init env
  | .destroyInstance => s.destroyInstance
  | .swap t env => (s.swap t env).2.process

/-! ## What a swap should use

The object of the instance that is there when the swap begins, for all of its calls.
-/

/-- A swap with an enabled instance calls the EGL object of that instance, and no other. -/
def UsesOwnEgl (s : Process T Ptr) : Event T Ptr → Prop
  | .swap t env => ∀ swappy, s.sInstance = some swappy → swappy.enableSwappy →
      ∃ egl, swappy.egl = some egl ∧ ∀ use ∈ (s.swap t env).2.uses, use.2 = some egl
  | _ => True

/-- A thread that swaps has kept no EGL object, or the one that the instance owns. -/
def SwapOk (s : Process T Ptr) : Event T Ptr → Prop
  | .swap t _ => ∀ swappy, s.sInstance = some swappy →
      s.threadEgl t = none ∨ s.threadEgl t = swappy.egl
  | _ => True

/-! ## The EGL objects of one swap

All calls of a swap use one object, the one that the first call has found.
-/

variable {swappy : SwappyGL Ptr} {t : T} {e : Option Ptr} {x : Swapping T Ptr}

theorem getEgl_fst (s : Process T Ptr) :
    (swappy.getEgl t s).1 = (s.threadEgl t).or swappy.egl := by
  cases h : s.threadEgl t <;> simp [getEgl, h]

theorem threadEgl_getEgl (s : Process T Ptr) :
    (swappy.getEgl t s).2.threadEgl t = (swappy.getEgl t s).1 := rfl

/-- Everything so far was called on `e`, which is what `getEgl` will return. -/
structure Uses (swappy : SwappyGL Ptr) (t : T) (e : Option Ptr) (x : Swapping T Ptr) : Prop where
  next : (x.process.threadEgl t).or swappy.egl = e
  uses : ∀ use ∈ x.uses, use.2 = e

theorem Uses.callEgl (h : Uses swappy t e x) (call : EglCall) :
    Uses swappy t e (swappy.callEgl t call x) := by
  have hegl : (swappy.getEgl t x.process).1 = e := (getEgl_fst _).trans h.next
  refine ⟨?_, fun use huse => ?_⟩
  · change ((swappy.getEgl t x.process).2.threadEgl t).or swappy.egl = e
    rw [threadEgl_getEgl, getEgl_fst, Option.or_assoc, Option.or_self, h.next]
  · rcases List.mem_append.mp huse with hold | hnew
    · exact h.uses use hold
    · obtain rfl := List.mem_singleton.mp hnew
      exact hegl

section

variable {P : Swapping T Ptr → Prop} (hcall : ∀ call x, P x → P (swappy.callEgl t call x))
include hcall

theorem waitForNextFrame_of_callEgl (w : WaitEnv) (hx : P x) :
    P (swappy.waitForNextFrame t w x) := by
  refine hcall .getFencePendingTime _ ?_
  split
  · exact Function.Iterate.rec P hx (hcall .lastFrameIsComplete) _
  · exact hx

theorem onPreSwap_of_callEgl (env : SwapEnv) (hx : P x) : P (swappy.onPreSwap t env x) := by
  rw [onPreSwap]
  split
  · exact waitForNextFrame_of_callEgl hcall env.waitPre hx
  · exact hx

theorem onPostSwap_of_callEgl (env : SwapEnv) (hx : P x) : P (swappy.onPostSwap t env x) := by
  rw [onPostSwap]
  split
  · exact hx
  · exact waitForNextFrame_of_callEgl hcall env.waitPost hx

theorem setPresentationTime_of_callEgl (env : SwapEnv) (hx : P x) :
    (swappy.setPresentationTime t env x).1 = true ∧
      P (swappy.setPresentationTime t env x).2 := by
  rw [setPresentationTime]
  split
  · exact ⟨rfl, hx⟩
  · exact ⟨rfl, hcall .setPresentationTime x hx⟩

/-- What the calls on EGL objects keep, a swap keeps; and it makes one at least. -/
theorem swapInternal_of_callEgl (env : SwapEnv) (hx : P x) :
    ∃ y, P y ∧ (swappy.swapInternal t env x).2 =
      swappy.onPostSwap t env (swappy.resetSyncFence t y) := by
  have hpre := onPreSwap_of_callEgl hcall env hx
  rw [swapInternal]
  by_cases hneed : needToSetPresentationTime env
  · obtain ⟨hres, hset⟩ := setPresentationTime_of_callEgl hcall env hpre
    simp only [if_pos hneed, hres]
    exact ⟨_, hset, rfl⟩
  · simp only [if_neg hneed]
    exact ⟨_, hpre, rfl⟩

end

theorem callEgl_uses_ne_nil (call : EglCall) : (swappy.callEgl t call x).uses ≠ [] :=
  List.append_ne_nil_of_right_ne_nil _ (List.cons_ne_nil _ _)

omit [DecidableEq T] in
theorem uses_nil (s : Process T Ptr) :
    Uses swappy t ((s.threadEgl t).or swappy.egl) ⟨s, []⟩ :=
  ⟨rfl, fun _ h => absurd h List.not_mem_nil⟩

theorem swapInternal_uses (env : SwapEnv) (h : Uses swappy t e x) :
    Uses swappy t e (swappy.swapInternal t env x).2 ∧
      (swappy.swapInternal t env x).2.uses ≠ [] := by
  obtain ⟨y, hy, heq⟩ := swapInternal_of_callEgl (fun call _ h => h.callEgl call) env h
  rw [heq]
  exact ⟨onPostSwap_of_callEgl (fun call _ h => h.callEgl call) env (hy.callEgl .resetSyncFence),
    onPostSwap_of_callEgl (P := fun x => x.uses ≠ []) (fun call _ _ => callEgl_uses_ne_nil call)
      env (callEgl_uses_ne_nil .resetSyncFence)⟩

/-! ## The instance

`init` makes an instance if there is none, and `destroyInstance` takes it away.
-/

/-- An instance that others can see is enabled and owns an EGL object. -/
def Process.Valid (s : Process T Ptr) : Prop :=
  ∀ swappy, s.sInstance = some swappy → swappy.enableSwappy = true ∧ swappy.egl ≠ none

omit [DecidableEq T] in
theorem egl_new {env : InitEnv Ptr} (h : (new env).enableSwappy = true) :
    (new env).egl ≠ none := by
  unfold new at h ⊢
  split_ifs at h ⊢
  cases henv : env.createEgl with
  | none => simp [henv] at h
  | some egl => exact Option.some_ne_none egl

omit [DecidableEq T] in
theorem valid_start : (Process.start : Process T Ptr).Valid := by
  intro swappy heq
  cases heq

omit [DecidableEq T] in
theorem Process.Valid.init {s : Process T Ptr} (h : s.Valid) (env : InitEnv Ptr) :
    (s.init env).Valid := by
  rw [Process.init]
  split_ifs with hsome hnew
  · exact h
  · rintro swappy heq
    obtain rfl := Option.some.inj heq
    exact ⟨hnew, egl_new hnew⟩
  · rintro swappy heq
    cases heq

theorem sInstance_swap (s : Process T Ptr) (env : SwapEnv) :
    (s.swap t env).2.process.sInstance = s.sInstance := by
  rcases hs : s.sInstance with _ | swappy
  · simp [Process.swap, hs]
  · have hcall : ∀ call (x : Swapping T Ptr), x.process.sInstance = some swappy →
        (swappy.callEgl t call x).process.sInstance = some swappy := by
      intro call x hx
      change (swappy.getEgl t x.process).2.sInstance = _
      rw [getEgl]
      split <;> exact hx
    simp only [Process.swap, hs]
    split
    · obtain ⟨y, hy, heq⟩ := swapInternal_of_callEgl (x := ⟨s, []⟩) hcall env hs
      rw [heq]
      exact onPostSwap_of_callEgl (P := fun x => x.process.sInstance = some swappy) hcall env
        (hcall .resetSyncFence y hy)
    · exact hs

theorem step_valid (s : Process T Ptr) (event : Event T Ptr) (h : s.Valid) :
    (step s event).Valid := by
  cases event with
  | init env => exact h.init env
  | destroyInstance =>
    intro swappy heq
    cases heq
  | swap t env =>
    intro swappy heq
    rw [step, sInstance_swap] at heq
    exact h swappy heq

theorem threadEgl_getEgl_of_some {s : Process T Ptr} {t' : T} {egl : Ptr}
    (h : s.threadEgl t = some egl) : (swappy.getEgl t' s).2.threadEgl t = some egl := by
  rw [getEgl]
  split
  · next hnone =>
    have hne : t ≠ t' := by
      rintro rfl
      simp [h] at hnone
    exact (Function.update_of_ne hne _ _).trans h
  · exact h

theorem threadEgl_step {s : Process T Ptr} {egl : Ptr} (event : Event T Ptr)
    (h : s.threadEgl t = some egl) : (step s event).threadEgl t = some egl := by
  cases event with
  | init env =>
    rw [step, Process.init]
    split_ifs <;> exact h
  | destroyInstance => exact h
  | swap t' env =>
    rw [step, Process.swap]
    rcases s.sInstance with _ | swappy
    · exact h
    · -- a swap of another thread sets another variable, one of this thread finds it set
      have hcall : ∀ call (x : Swapping T Ptr), x.process.threadEgl t = some egl →
          (swappy.callEgl t' call x).process.threadEgl t = some egl :=
        fun _ _ hx => threadEgl_getEgl_of_some hx
      simp only
      split
      · obtain ⟨y, hy, heq⟩ := swapInternal_of_callEgl (x := ⟨s, []⟩) hcall env h
        rw [heq]
        exact onPostSwap_of_callEgl (P := fun x => x.process.threadEgl t = some egl) hcall env
          (hcall .resetSyncFence y hy)
      · exact h

/-- What a thread has kept it keeps for good, whichever instances come and go. -/
theorem threadEgl_states {s : Process T Ptr} {egl : Ptr} (h : s.threadEgl t = some egl)
    (events : List (Event T Ptr)) :
    ∀ s' ∈ Runs.states step s events, s'.threadEgl t = some egl := by
  have hstep : ∀ (s : Process T Ptr) event, s.threadEgl t = some egl →
      (step s event).threadEgl t = some egl := fun _ event h => threadEgl_step event h
  exact Runs.forall_mem_states hstep h events

/-- **Step lemma.** A swap is right exactly when the thread has not kept the EGL object of
another instance. -/
theorem usesOwnEgl_iff (s : Process T Ptr) (event : Event T Ptr) (h : s.Valid) :
    UsesOwnEgl s event ↔ SwapOk s event := by
  cases event with
  | init env => exact Iff.rfl
  | destroyInstance => exact Iff.rfl
  | swap t env =>
    refine forall_congr' fun swappy => forall_congr' fun hs => ?_
    obtain ⟨henabled, hegl⟩ := h swappy hs
    obtain ⟨egl, hegl⟩ := Option.ne_none_iff_exists'.mp hegl
    have hnil : Uses swappy t ((s.threadEgl t).or swappy.egl) ⟨s, []⟩ := uses_nil s
    obtain ⟨huses, hne⟩ := swapInternal_uses env hnil
    have hswap : s.swap t env = swappy.swapInternal t env ⟨s, []⟩ := by
      simp only [Process.swap, hs, if_pos henabled]
    rw [hswap, hegl]
    constructor
    · -- the swap has made a call, on what the thread had kept
      intro hown
      obtain ⟨egl', hegl', hall⟩ := hown henabled
      obtain ⟨use, huse⟩ := List.exists_mem_of_ne_nil _ hne
      have hkept : (s.threadEgl t).or swappy.egl = some egl' :=
        (huses.uses use huse).symm.trans (hall use huse)
      obtain rfl := Option.some.inj hegl'
      rcases hthread : s.threadEgl t with _ | kept
      · exact Or.inl rfl
      · rw [hthread, Option.some_or] at hkept
        exact Or.inr hkept
    · intro hok _
      refine ⟨egl, rfl, fun use huse => (huses.uses use huse).trans ?_⟩
      rcases hok with hnone | hsome
      · rw [hnone, Option.none_or, hegl]
      · rw [hsome, Option.some_or]

/-- **Every run.** The swaps of a run use the EGL object of their instance exactly when no
thread swaps while it has kept another one. -/
theorem swaps_useOwnEgl (events : List (Event T Ptr)) :
    Runs.StepsOk step UsesOwnEgl Process.start events ↔
      Runs.StepsOk step SwapOk Process.start events :=
  Runs.stepsOk_congr step_valid usesOwnEgl_iff valid_start events

/-- A frame in which nothing waits. -/
def fastFrame : SwapEnv := ⟨.on, .on, ⟨false, 0⟩, ⟨false, 0⟩, false, true⟩

/-- A thread that swaps with two instances in turn, whose EGL objects are apart. -/
theorem not_swaps_useOwnEgl :
    ¬ Runs.StepsOk step UsesOwnEgl (Process.start : Process ℕ ℕ)
      [.init ⟨true, false, some 1⟩, .swap 0 fastFrame, .destroyInstance,
        .init ⟨true, false, some 2⟩, .swap 0 fastFrame] := by
  rintro ⟨-, -, -, -, hlast, -⟩
  obtain ⟨egl, hegl, hall⟩ := hlast ⟨true, some 2⟩ rfl rfl
  have huse := hall (.getFencePendingTime, some 1) (by decide)
  cases huse.trans hegl.symm

end SwappyGL

end GameSdk
