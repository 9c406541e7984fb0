import GameSdk.Runs
import Mathlib.Data.List.Nodup
import Mathlib.Logic.Function.Basic

/-!
# The crash handler (`crash_handler.cpp`)

The objects of `CrashHandler` share one stack of handlers, the handlers of six signals, and an
alternate stack for these, all under one mutex. The first object that is initialized installs the
signal handler and the alternate stack; the last one that is destroyed puts back what was there
before. A signal that arrives waits for the mutex, so that objects may be initialized and destroyed
before it is handled.

Handlers are known by their address, and threads by their name, of any type. `sigaction`,
`sigaltstack` and `calloc` do not fail, and every allocation has a number of its own.

What the standard leaves undefined, and what cannot happen in a state, ends a run with a `Failure`.
So a run that is given has only steps that the program can take.
-/

namespace GameSdk

universe u v

/-- `signals`. -/
inductive CrashSignal where
  | sigill | sigtrap | sigabrt | sigbus | sigfpe | sigsegv
  deriving DecidableEq, Repr

/-- What a signal does. -/
inductive SignalAction where
  | default
  /-- `CrashHandler::SignalHandler` -/
  | signalHandler
  /-- a handler of somebody else -/
  | other (address : ℕ)
  deriving DecidableEq, Repr

/-- What is used of `struct sigaction`. -/
structure Sigaction where
  handler : SignalAction
  /-- `SA_SIGINFO` -/
  siginfo : Bool
  deriving DecidableEq, Repr

/-! ## The handlers of the signals

`sigaction` returns the old handler of a signal when it sets a new one. The old handlers of all six
are kept until the last object is destroyed.
-/

/-- The actions of the process, and those that are to be put back. -/
structure SignalActions where
  handlersInstalled : Bool
  oldHandlers : CrashSignal → Sigaction
  actions : CrashSignal → Sigaction

namespace SignalActions

variable (a : SignalActions)

/-- `sigaction` on one signal. -/
def set (sig : CrashSignal) (action : Sigaction) : SignalActions :=
  { a with actions := Function.update a.actions sig action }

/-- The handlers of all six signals, unless they are installed already. -/
def installHandlerLocked : SignalActions :=
  if a.handlersInstalled then a
  else
    { oldHandlers := a.actions
      actions := fun _ => ⟨.signalHandler, true⟩
      handlersInstalled := true }

/-- The old handlers of all six signals, if there are any. -/
def restoreHandlerLocked : SignalActions :=
  if a.handlersInstalled = false then a
  else { a with actions := a.oldHandlers, handlersInstalled := false }

/-- The default handler, so that the signal that is sent again ends the process. -/
def installDefaultHandler (sig : CrashSignal) : SignalActions := a.set sig ⟨.default, false⟩

end SignalActions

/-! ## The alternate stack

A thread that has no alternate stack, or too small a one, gets one that `calloc` allocates. It is
set for the thread that initializes the first object, and freed by the thread that destroys the
last.
-/

/-- Memory for an alternate stack: an allocation of the crash handler, or other memory. -/
inductive StackBase where
  | allocated (n : ℕ)
  | other (address : ℕ)
  deriving DecidableEq, Repr

/-- An alternate stack, as `stack_t` describes it. -/
structure AltStack where
  base : StackBase
  size : ℕ
  deriving DecidableEq, Repr

/-- The stacks of the threads, and what is kept to put them back. -/
structure AlternateStacks (T : Type v) where
  stackInstalled : Bool
  oldStack : Option AltStack
  newStack : Option AltStack
  /-- the alternate stack of each thread -/
  altStack : T → Option AltStack
  /-- how many stacks have been allocated -/
  allocations : ℕ
  /-- ghost: the allocations that have been freed -/
  freed : List StackBase

namespace AlternateStacks

variable {T : Type v} [DecidableEq T] (k : AlternateStacks T)

/-- `kSigStackSize`. -/
def sigStackSize : ℕ := 16384

/-- Another stack for a thread. -/
def sigaltstack (t : T) (stack : Option AltStack) : AlternateStacks T :=
  { k with altStack := Function.update k.altStack t stack }

/-- A new stack for the thread, unless its own is large enough. -/
def installAlternateStackLocked (t : T) : AlternateStacks T :=
  if k.stackInstalled then k
  else
    let k := { k with oldStack := k.altStack t, newStack := none }
    if k.oldStack.all fun stack => stack.size < sigStackSize then
      let newStack : AltStack := ⟨.allocated k.allocations, sigStackSize⟩
      { k.sigaltstack t (some newStack) with
        newStack := some newStack
        allocations := k.allocations + 1
        stackInstalled := true }
    else k

/-- `current_stack.ss_sp == new_stack.ss_sp` -/
def OnNewStack (t : T) : Prop :=
  (k.altStack t).map AltStack.base = k.newStack.map AltStack.base

omit [DecidableEq T] in
instance decidableOnNewStack (t : T) : Decidable (k.OnNewStack t) :=
  inferInstanceAs (Decidable (_ = _))

/-- A thread on the new stack gets the old one back, and the new one is freed. -/
def restoreAlternateStackLocked (t : T) : AlternateStacks T :=
  if k.stackInstalled = false then k
  else
    { if k.OnNewStack t then k.sigaltstack t k.oldStack else k with
      freed := (k.newStack.map AltStack.base).toList ++ k.freed
      stackInstalled := false }

end AlternateStacks

/-! ## The objects

The handlers are called from the newest on, and the first one that handles the signal ends the
search.
-/

/-- The static data of `crash_handler.cpp`, and what the kernel knows of the process. -/
structure CrashHandlers (H : Type u) (T : Type v) where
  handlerInited : H → Bool
  /-- `g_handler_stack_`, the last one initialized at the end -/
  handlerStack : Option (List H)
  signals : SignalActions
  altStacks : AlternateStacks T
  /-- the signals that wait for the mutex in the signal handler -/
  pending : List CrashSignal
  /-- ghost: the handlers whose callbacks have been called, the last one first -/
  called : List H

namespace CrashHandlers

variable {H : Type u} {T : Type v} [DecidableEq H] [DecidableEq T]

/-- A process before its first handler. -/
def new : CrashHandlers H T where
  handlerInited := fun _ => false
  handlerStack := none
  signals := ⟨false, fun _ => ⟨.default, false⟩, fun _ => ⟨.default, false⟩⟩
  altStacks := ⟨false, none, none, fun _ => none, 0, []⟩
  pending := []
  called := []

variable (s : CrashHandlers H T)

/-- `Init` of the object whose handler is `h`, by the thread `t`. -/
def init (t : T) (h : H) : CrashHandlers H T :=
  if s.handlerInited h then s
  else
    { s with
      altStacks := s.altStacks.installAlternateStackLocked t
      signals := s.signals.installHandlerLocked
      handlerStack := some (s.handlerStack.getD [] ++ [h])
      handlerInited := Function.update s.handlerInited h true }

/-- What the language leaves undefined. -/
inductive Undefined where
  /-- the end of the handler stack is erased -/
  | eraseEnd
  /-- the signal handler reads the handler stack, and there is none -/
  | noHandlerStack
  deriving DecidableEq, Repr

/-- The destructor. -/
def destroy (t : T) (h : H) : Except Undefined (CrashHandlers H T) :=
  if s.handlerInited h = false then .ok s
  else
    let handlers := s.handlerStack.getD []
    if h ∉ handlers then .error .eraseEnd
    else
      let s := { s with
        handlerStack := some (handlers.erase h)
        handlerInited := Function.update s.handlerInited h false }
      if handlers.erase h = [] then
        .ok { s with
          handlerStack := none
          altStacks := s.altStacks.restoreAlternateStackLocked t
          signals := s.signals.restoreHandlerLocked }
      else .ok s

/-- `HandlerSignal`, which always says that the signal is handled. -/
def handlerSignal (h : H) : Bool × CrashHandlers H T := (true, { s with called := h :: s.called })

/-- The loop over the handlers, until one has handled the signal. -/
def callHandlers : List H → CrashHandlers H T → Bool × CrashHandlers H T
  | [], s => (false, s)
  | h :: handlers, s =>
    let (handled, s) := s.handlerSignal h
    if handled then (true, s) else callHandlers handlers s

/-- `SignalHandler`, once it has the mutex. -/
def signalHandler (sig : CrashSignal) : Except Undefined (CrashHandlers H T) :=
  if (s.signals.actions sig).siginfo = false then
    .ok { s with signals := s.signals.set sig ⟨.signalHandler, true⟩ }
  else
    match s.handlerStack with
    | none => .error .noHandlerStack
    | some handlers =>
      let (handled, s) := callHandlers handlers.reverse s
      .ok { s with
        signals := if handled then s.signals.installDefaultHandler sig
          else s.signals.restoreHandlerLocked }

/-! ## Runs

A signal arrives and is handled later, when the handler has the mutex. In between other events may
happen.
-/

/-- One thing that happens. -/
inductive Event (H : Type u) (T : Type v) where
  | init (t : T) (h : H)
  | destroy (t : T) (h : H)
  /-- a signal arrives -/
  | raise (sig : CrashSignal)
  /-- the signal handler gets the mutex -/
  | handle (sig : CrashSignal)
  /-- somebody else sets the action of a signal -/
  | sigaction (sig : CrashSignal) (action : Sigaction)
  /-- a thread sets its alternate stack -/
  | sigaltstack (t : T) (address size : ℕ)
  /-- a new thread has none -/
  | newThread (t : T)

/-- What is not a step of the program. -/
inductive Failure where
  | undefined (u : Undefined)
  /-- there is no such signal -/
  | blocked
  deriving DecidableEq, Repr

/-- What is undefined ends a run. -/
def ofUndefined : Except Undefined (CrashHandlers H T) → Except Failure (CrashHandlers H T)
  | .ok s => .ok s
  | .error u => .error (.undefined u)

/-- One event, on the state in which it happens. -/
def step : Event H T → Except Failure (CrashHandlers H T)
  | .init t h => .ok (s.init t h)
  | .destroy t h => ofUndefined (s.destroy t h)
  | .raise sig =>
    .ok (if (s.signals.actions sig).handler = .signalHandler then
      { s with pending := sig :: s.pending } else s)
  | .handle sig =>
    if sig ∈ s.pending then
      ofUndefined ({ s with pending := s.pending.erase sig }.signalHandler sig)
    else .error .blocked
  | .sigaction sig action => .ok { s with signals := s.signals.set sig action }
  | .sigaltstack t address size =>
    .ok { s with altStacks := s.altStacks.sigaltstack t (some ⟨.other address, size⟩) }
  | .newThread t => .ok { s with altStacks := s.altStacks.sigaltstack t none }

end CrashHandlers

end GameSdk
