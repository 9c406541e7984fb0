import GameSdk.CrashHandler

/-!
# What the crash handler leaves behind

Whatever the order of initializations, destructions and signals, a signal is handled by the newest
of the handlers that are alive. The last destructor puts back what was there before if no signal is
still waiting, and leaves no thread with a stack that has been freed if no other thread runs on it.

`Follows` connects the state with the list of handlers that are alive, which is computed from the
events alone. Each event has a lemma for what it does to this list. What is put back and what is
freed are further properties, which not every run has; there is a condition on the events for each
of them, and it is exact.
-/

namespace GameSdk

universe u v

/-! ## The actions

An action is foreign if it does not lead to the signal handler of this library.
-/

namespace SignalActions

/-- No action leads to the crash handler. -/
def Foreign (actions : CrashSignal → Sigaction) : Prop :=
  ∀ sig, (actions sig).handler ≠ .signalHandler

/-- Another action that is foreign. -/
theorem Foreign.update {actions : CrashSignal → Sigaction} (h : Foreign actions)
    {action : Sigaction} (ha : action.handler ≠ .signalHandler) (sig : CrashSignal) :
    Foreign (Function.update actions sig action) := by
  intro sig'
  rw [Function.update_apply]
  split_ifs
  · exact ha
  · exact h sig'

end SignalActions

/-! ## The alternate stacks

The stacks that were allocated have numbers of their own, so that a freed one is never allocated
again.
-/

namespace AlternateStacks

variable {T : Type v} [DecidableEq T]

/-- While a stack is installed it is an allocation of its own; those before it are all there are. -/
structure Ok (k : AlternateStacks T) : Prop where
  altStack_lt : ∀ t stack n, k.altStack t = some stack → stack.base = .allocated n →
    n < k.allocations
  freed : ∀ base ∈ k.freed, ∃ n < k.allocations, base = .allocated n
  installed : k.stackInstalled = true → ∃ n < k.allocations,
    k.newStack = some ⟨.allocated n, sigStackSize⟩ ∧ .allocated n ∉ k.freed ∧
      ∀ stack ∈ k.oldStack, ∀ m, stack.base = .allocated m → m < n

/-- No thread has a stack that has been freed, and none is to be put back. -/
def Live (k : AlternateStacks T) : Prop :=
  (∀ t, ∀ stack ∈ k.altStack t, stack.base ∉ k.freed) ∧
    (k.stackInstalled = true → ∀ stack ∈ k.oldStack, stack.base ∉ k.freed)

variable {k : AlternateStacks T} {t : T} {stack : Option AltStack}

/-- Only the stack of this thread is another one. -/
@[simp] theorem altStack_sigaltstack (k : AlternateStacks T) (t t' : T) (stack : Option AltStack) :
    (k.sigaltstack t stack).altStack t' = if t' = t then stack else k.altStack t' :=
  Function.update_apply ..

omit [DecidableEq T] in
/-- What is freed was allocated. -/
theorem Ok.freed_lt (h : k.Ok) {n : ℕ} (hn : .allocated n ∈ k.freed) : n < k.allocations := by
  obtain ⟨m, hm, heq⟩ := h.freed _ hn
  exact StackBase.allocated.inj heq ▸ hm

/-- A thread may be given any stack that there is. -/
theorem Ok.sigaltstack (h : k.Ok)
    (hstack : ∀ new ∈ stack, ∀ n, new.base = .allocated n → n < k.allocations) :
    (k.sigaltstack t stack).Ok := by
  refine ⟨fun t' old n hold hn => ?_, h.freed, h.installed⟩
  rw [altStack_sigaltstack] at hold
  split_ifs at hold
  · exact hstack old hold n hn
  · exact h.altStack_lt t' old n hold hn

/-- If it is not freed, no thread has a freed one. -/
theorem Live.sigaltstack (h : k.Live) (hstack : ∀ new ∈ stack, new.base ∉ k.freed) :
    (k.sigaltstack t stack).Live := by
  refine ⟨fun t' old hold => ?_, h.2⟩
  rw [altStack_sigaltstack] at hold
  split_ifs at hold
  · exact hstack old hold
  · exact h.1 t' old hold

/-! ### Installing and putting back

By cases: nothing is done, the old stack is large enough, or there is a new one.
-/

/-- A new stack is an allocation that no thread has and that has not been freed. -/
theorem install_cases (k : AlternateStacks T) (t : T) :
    k.installAlternateStackLocked t = k ∨
      k.stackInstalled = false ∧
        k.installAlternateStackLocked t = { k with oldStack := k.altStack t, newStack := none } ∨
      k.installAlternateStackLocked t =
        { k.sigaltstack t (some ⟨.allocated k.allocations, sigStackSize⟩) with
          oldStack := k.altStack t
          newStack := some ⟨.allocated k.allocations, sigStackSize⟩
          allocations := k.allocations + 1
          stackInstalled := true } := by
  rw [installAlternateStackLocked]
  dsimp only
  split_ifs with hinstalled hsmall
  · exact .inl rfl
  · exact .inr (.inr rfl)
  · exact .inr (.inl ⟨Bool.eq_false_iff.mpr hinstalled, rfl⟩)

/-- Installing a stack keeps count of the allocations. -/
theorem Ok.install (h : k.Ok) (t : T) : (k.installAlternateStackLocked t).Ok := by
  obtain heq | ⟨hno, heq⟩ | heq := install_cases k t <;> rw [heq]
  · exact h
  · exact ⟨h.altStack_lt, h.freed, fun hyes => nomatch hno.symm.trans hyes⟩
  · constructor
    · intro t' stack n hstack hn
      dsimp only at hstack
      rw [altStack_sigaltstack] at hstack
      split_ifs at hstack
      · obtain rfl := Option.some.inj hstack
        obtain rfl := StackBase.allocated.inj hn
        exact Nat.lt_succ_self _
      · exact Nat.lt_succ_of_lt (h.altStack_lt t' stack n hstack hn)
    · intro base hbase
      obtain ⟨n, hn, heq⟩ := h.freed base hbase
      exact ⟨n, Nat.lt_succ_of_lt hn, heq⟩
    · refine fun _ => ⟨k.allocations, Nat.lt_succ_self _, rfl, fun hfreed => ?_, ?_⟩
      · exact Nat.lt_irrefl _ (h.freed_lt hfreed)
      · exact fun old hold m hm => h.altStack_lt t old m hold hm

/-- A new stack is not a freed one. -/
theorem Live.install (h : k.Live) (hk : k.Ok) (t : T) :
    (k.installAlternateStackLocked t).Live := by
  obtain heq | ⟨hno, heq⟩ | heq := install_cases k t <;> rw [heq]
  · exact h
  · exact ⟨h.1, fun hyes => nomatch hno.symm.trans hyes⟩
  · refine ⟨(h.sigaltstack ?_).1, fun _ old hold => h.1 t old hold⟩
    rintro new hnew hfreed
    obtain rfl := Option.some.inj hnew
    exact Nat.lt_irrefl _ (hk.freed_lt hfreed)

/-- Where a stack is installed it is freed, and the calling thread gets its own back if it has not
set another. -/
theorem restore_eq {n : ℕ} (hinstalled : k.stackInstalled = true)
    (hnew : k.newStack = some ⟨.allocated n, sigStackSize⟩) (t : T) :
    k.restoreAlternateStackLocked t =
      { k with
        altStack := fun t' => if t' = t ∧ k.OnNewStack t then k.oldStack else k.altStack t'
        freed := .allocated n :: k.freed
        stackInstalled := false } := by
  rw [restoreAlternateStackLocked, if_neg (Bool.eq_false_iff.not.mpr (not_not.mpr hinstalled)),
    hnew]
  split_ifs with hon
  · simp [hon, hnew, AlternateStacks.sigaltstack, funext_iff, Function.update_apply]
  · simp [hon, hnew]

/-- Without a stack there is nothing to put back. -/
theorem restore_of_not_installed (hno : k.stackInstalled = false) (t : T) :
    k.restoreAlternateStackLocked t = k :=
  if_pos hno

/-- Freeing a stack keeps count of the allocations. -/
theorem Ok.restore (h : k.Ok) (t : T) : (k.restoreAlternateStackLocked t).Ok := by
  cases hinstalled : k.stackInstalled with
  | false => exact (restore_of_not_installed hinstalled t).symm ▸ h
  | true =>
    obtain ⟨n, hn, hnew, -, hold⟩ := h.installed hinstalled
    rw [restore_eq hinstalled hnew]
    refine ⟨fun t' stack m hstack hm => ?_, fun base hbase => ?_, fun hyes => nomatch hyes⟩
    · dsimp only at hstack
      split_ifs at hstack
      · exact Nat.lt_trans (hold stack hstack m hm) hn
      · exact h.altStack_lt t' stack m hstack hm
    · obtain hnow | hbefore := List.mem_cons.mp hbase
      · exact ⟨n, hn, hnow⟩
      · exact h.freed base hbefore

/-- The stack may be freed if no other thread than the calling one has it. -/
theorem live_restore_iff (hk : k.Ok) (h : k.Live) (t : T) :
    (k.restoreAlternateStackLocked t).Live ↔
      (k.stackInstalled = true → ∀ t', k.OnNewStack t' → t' = t) := by
  cases hinstalled : k.stackInstalled with
  | false =>
    rw [restore_of_not_installed hinstalled]
    exact iff_of_true h fun hyes => nomatch hyes
  | true =>
    obtain ⟨n, hn, hnew, -, hold⟩ := hk.installed hinstalled
    have hon_iff (t' : T) :
        k.OnNewStack t' ↔ ∃ stack ∈ k.altStack t', stack.base = .allocated n := by
      rw [OnNewStack, hnew]
      exact Option.map_eq_some_iff
    rw [restore_eq hinstalled hnew]
    constructor
    · rintro ⟨hlive, -⟩ - t' hon
      obtain ⟨stack, hstack, hbase⟩ := (hon_iff t').mp hon
      by_contra hne
      refine hlive t' stack ?_ (hbase ▸ List.mem_cons_self ..)
      dsimp only
      rwa [if_neg fun heq => hne heq.1]
    · refine fun hsole => ⟨fun t' stack hstack => ?_, fun hyes => nomatch hyes⟩
      dsimp only at hstack
      rw [List.mem_cons, not_or]
      split_ifs at hstack with hcalling
      · refine ⟨fun hbase => ?_, h.2 hinstalled stack hstack⟩
        exact Nat.lt_irrefl n (hold stack hstack n hbase)
      · refine ⟨fun hbase => hcalling ?_, h.1 t' stack hstack⟩
        have hon : k.OnNewStack t' := (hon_iff t').mpr ⟨stack, hstack, hbase⟩
        obtain rfl : t' = t := hsole rfl t' hon
        exact ⟨rfl, hon⟩

end AlternateStacks

/-! ## The handlers that are alive

`alive` follows the events, and `Follows` says that the vector of handlers does too. While it is not
empty, the signal handler is installed.
-/

namespace CrashHandlers

variable {H : Type u} {T : Type v} [DecidableEq H] [DecidableEq T] {s s' : CrashHandlers H T}
  {hs : List H} {e : Event H T}

/-- The handlers that have been initialized and not destroyed, the newest one at the end. -/
def alive (hs : List H) : Event H T → List H
  | .init _ h => if h ∈ hs then hs else hs ++ [h]
  | .destroy _ h => hs.erase h
  | _ => hs

/-- There is no empty stack of handlers. -/
def stackOf (hs : List H) : Option (List H) := if hs = [] then none else some hs

/-- What the static data say of the handlers that are alive. -/
structure Follows (s : CrashHandlers H T) (hs : List H) : Prop where
  nodup : hs.Nodup
  handlerStack : s.handlerStack = stackOf hs
  handlerInited : ∀ h, s.handlerInited h = true ↔ h ∈ hs
  handlersInstalled : s.signals.handlersInstalled = true ↔ hs ≠ []

omit [DecidableEq H] in
/-- The handlers of a list of handlers. -/
@[simp] theorem getD_stackOf (hs : List H) : (stackOf hs).getD [] = hs := by
  rw [stackOf]
  split_ifs with h
  · exact h.symm
  · rfl

omit [DecidableEq H] [DecidableEq T] in
/-- At first no handler is alive. -/
theorem follows_new : (new : CrashHandlers H T).Follows [] where
  nodup := List.nodup_nil
  handlerStack := rfl
  handlerInited _ := iff_of_false Bool.false_ne_true List.not_mem_nil
  handlersInstalled := iff_of_false Bool.false_ne_true fun h => h rfl

/-! ### Initialization

An object whose handler is already there is not added a second time.
-/

/-- A handler that is alive is not initialized again. -/
theorem Follows.init_of_mem (h : s.Follows hs) {x : H} (hx : x ∈ hs) (t : T) : s.init t x = s :=
  if_pos ((h.handlerInited x).mpr hx)

/-- What becomes of a new handler. -/
theorem Follows.init_of_not_mem (h : s.Follows hs) {x : H} (hx : x ∉ hs) (t : T) :
    s.init t x =
      { s with
        altStacks := s.altStacks.installAlternateStackLocked t
        signals := s.signals.installHandlerLocked
        handlerStack := some (hs ++ [x])
        handlerInited := Function.update s.handlerInited x true } := by
  rw [init, if_neg fun hi => hx ((h.handlerInited x).mp hi), h.handlerStack, getD_stackOf]

/-- **Initialization** adds the handler, if it is not there. -/
theorem Follows.init (h : s.Follows hs) (t : T) (x : H) :
    (s.init t x).Follows (alive hs (.init t x : Event H T)) := by
  rw [alive]
  split_ifs with hx
  · exact (h.init_of_mem hx t).symm ▸ h
  · rw [h.init_of_not_mem hx t]
    refine ⟨?_, ?_, fun y => ?_, ?_⟩
    · exact List.nodup_append_comm.mp (List.nodup_cons.mpr ⟨hx, h.nodup⟩)
    · exact (if_neg (List.append_ne_nil_of_right_ne_nil hs (List.cons_ne_nil x []))).symm
    · simp only [Function.update_apply, List.mem_append, List.mem_singleton]
      split_ifs with hy
      · exact iff_of_true rfl (.inr hy)
      · exact (h.handlerInited y).trans (or_iff_left hy).symm
    · refine iff_of_true ?_ (List.append_ne_nil_of_right_ne_nil hs (List.cons_ne_nil x []))
      dsimp only
      rw [SignalActions.installHandlerLocked]
      split_ifs with hinstalled
      · exact hinstalled
      · rfl

/-! ### Destruction

The handler is erased; the last one takes the signal handler with it.
-/

/-- What a destructor does: the last one puts everything back. -/
theorem Follows.destroy_cases (h : s.Follows hs) (t : T) (x : H) :
    x ∉ hs ∧ s.destroy t x = .ok s ∨
      hs = [x] ∧ s.destroy t x = .ok { s with
        handlerStack := none
        handlerInited := Function.update s.handlerInited x false
        altStacks := s.altStacks.restoreAlternateStackLocked t
        signals := s.signals.restoreHandlerLocked } ∨
      x ∈ hs ∧ hs.erase x ≠ [] ∧ s.destroy t x = .ok { s with
        handlerStack := some (hs.erase x)
        handlerInited := Function.update s.handlerInited x false } := by
  rw [destroy, h.handlerStack, getD_stackOf]
  by_cases hx : x ∈ hs
  · rw [if_neg (Bool.eq_false_iff.not.mpr (not_not.mpr ((h.handlerInited x).mpr hx)))]
    dsimp only
    rw [if_neg (not_not.mpr hx)]
    by_cases hlast : hs.erase x = []
    · have hsingle : hs = [x] :=
        (List.erase_eq_nil_iff.mp hlast).resolve_left (List.ne_nil_of_mem hx)
      exact .inr (.inl ⟨hsingle, if_pos hlast⟩)
    · exact .inr (.inr ⟨hx, hlast, if_neg hlast⟩)
  · exact .inl ⟨hx, if_pos (Bool.eq_false_iff.mpr fun hi => hx ((h.handlerInited x).mp hi))⟩

/-- **Destruction** takes the handler away. -/
theorem Follows.destroy (h : s.Follows hs) {t : T} {x : H} (hd : s.destroy t x = .ok s') :
    s'.Follows (alive hs (.destroy t x : Event H T)) := by
  rw [alive]
  obtain ⟨hx, heq⟩ | ⟨rfl, heq⟩ | ⟨hx, hrest, heq⟩ := h.destroy_cases t x <;>
    obtain rfl := Except.ok.inj (heq.symm.trans hd)
  · rwa [List.erase_of_not_mem hx]
  · rw [List.erase_cons_head]
    refine ⟨List.nodup_nil, rfl, fun y => iff_of_false ?_ List.not_mem_nil, ?_⟩
    · simp only [Function.update_apply]
      split_ifs with hy
      · exact not_false
      · exact fun hi => hy (List.mem_singleton.mp ((h.handlerInited y).mp hi))
    · refine iff_of_false ?_ fun hne => hne rfl
      dsimp only
      rw [SignalActions.restoreHandlerLocked]
      split_ifs with hinstalled
      · exact Bool.eq_false_iff.mp hinstalled
      · exact not_false
  · refine ⟨h.nodup.erase x, (if_neg hrest).symm, fun y => ?_, ?_⟩
    · simp only [Function.update_apply]
      rw [h.nodup.mem_erase_iff]
      split_ifs with hy
      · exact iff_of_false not_false fun hmem => hmem.1 hy
      · exact (h.handlerInited y).trans (and_iff_right hy).symm
    · exact iff_of_true (h.handlersInstalled.mpr (List.ne_nil_of_mem hx)) hrest

/-! ### Signals

The signal handler calls the newest handler, and the default handler follows.
-/

omit [DecidableEq H] [DecidableEq T] in
/-- The newest handler is called, and says that the signal is handled. -/
theorem callHandlers_reverse (s : CrashHandlers H T) (hs : List H) (x : H) :
    callHandlers (hs ++ [x]).reverse s = (true, { s with called := x :: s.called }) := by
  rw [List.reverse_concat]
  rfl

omit [DecidableEq H] [DecidableEq T] in
/-- The newest handler is called first. -/
theorem signalHandler_of_concat {older : List H} {x : H} {sig : CrashSignal}
    (hinfo : (s.signals.actions sig).siginfo = true)
    (hstack : s.handlerStack = some (older ++ [x])) :
    s.signalHandler sig = .ok { s with
      called := x :: s.called
      signals := s.signals.set sig ⟨.default, false⟩ } := by
  obtain ⟨inited, stack, signals, altStacks, pending, called⟩ := s
  obtain rfl : stack = some (older ++ [x]) := hstack
  rw [signalHandler, if_neg (Bool.eq_false_iff.not.mpr (not_not.mpr hinfo))]
  dsimp only
  rw [callHandlers_reverse]
  rfl

omit [DecidableEq H] [DecidableEq T] in
/-- What the signal handler does: it installs itself again, or calls the newest handler. -/
theorem Follows.signalHandler_cases (h : s.Follows hs) (sig : CrashSignal) :
    (s.signals.actions sig).siginfo = false ∧
        s.signalHandler sig = .ok { s with signals := s.signals.set sig ⟨.signalHandler, true⟩ } ∨
      (s.signals.actions sig).siginfo = true ∧ hs = [] ∧
        s.signalHandler sig = .error .noHandlerStack ∨
      (s.signals.actions sig).siginfo = true ∧ ∃ x, hs.getLast? = some x ∧
        s.signalHandler sig = .ok { s with
          called := x :: s.called
          signals := s.signals.set sig ⟨.default, false⟩ } := by
  cases hinfo : (s.signals.actions sig).siginfo with
  | false => exact .inl ⟨rfl, if_pos hinfo⟩
  | true =>
    obtain hempty | ⟨older, x, hconcat⟩ := List.eq_nil_or_concat hs
    · refine .inr (.inl ⟨rfl, hempty, ?_⟩)
      have hstack : s.handlerStack = none := h.handlerStack.trans (if_pos hempty)
      rw [signalHandler, if_neg (Bool.eq_false_iff.not.mpr (not_not.mpr hinfo)), hstack]
    · rw [List.concat_eq_append] at hconcat
      have hne : older ++ [x] ≠ [] := List.append_ne_nil_of_right_ne_nil _ (List.cons_ne_nil x [])
      refine .inr (.inr ⟨rfl, x, hconcat ▸ List.getLast?_concat, ?_⟩)
      apply signalHandler_of_concat hinfo
      rw [h.handlerStack, hconcat, stackOf, if_neg hne]

/-! ### Every step

The cases together, for a run from the beginning.
-/

omit [DecidableEq H] [DecidableEq T] in
/-- A signal that waits makes no difference. -/
theorem Follows.withPending (h : s.Follows hs) (pending : List CrashSignal) :
    { s with pending := pending }.Follows hs :=
  ⟨h.nodup, h.handlerStack, h.handlerInited, h.handlersInstalled⟩

/-- What `handle` does, if there is such a signal. -/
theorem Follows.handle_cases (h : s.Follows hs) (sig : CrashSignal)
    (hpending : sig ∈ s.pending) :
    (s.signals.actions sig).siginfo = false ∧
        s.step (.handle sig) = .ok { s with
          pending := s.pending.erase sig
          signals := s.signals.set sig ⟨.signalHandler, true⟩ } ∨
      (s.signals.actions sig).siginfo = true ∧ hs = [] ∧
        s.step (.handle sig) = .error (.undefined .noHandlerStack) ∨
      (s.signals.actions sig).siginfo = true ∧ ∃ x, hs.getLast? = some x ∧
        s.step (.handle sig) = .ok { s with
          pending := s.pending.erase sig
          called := x :: s.called
          signals := s.signals.set sig ⟨.default, false⟩ } := by
  have hstep : s.step (.handle sig) =
      ofUndefined ({ s with pending := s.pending.erase sig }.signalHandler sig) :=
    if_pos hpending
  rw [hstep]
  obtain ⟨hinfo, heq⟩ | ⟨hinfo, hempty, heq⟩ | ⟨hinfo, x, hx, heq⟩ :=
    (h.withPending (s.pending.erase sig)).signalHandler_cases sig
  · exact .inl ⟨hinfo, heq ▸ rfl⟩
  · exact .inr (.inl ⟨hinfo, hempty, heq ▸ rfl⟩)
  · exact .inr (.inr ⟨hinfo, x, hx, heq ▸ rfl⟩)

omit [DecidableEq H] [DecidableEq T] in
/-- What ends well was defined. -/
theorem ofUndefined_eq_ok {r : Except Undefined (CrashHandlers H T)} (h : ofUndefined r = .ok s) :
    r = .ok s := by
  cases r with
  | ok => exact congrArg Except.ok (Except.ok.inj h)
  | error => exact nomatch h

/-- A signal is handled that has arrived. -/
theorem mem_pending_of_handle {sig : CrashSignal} (he : s.step (.handle sig) = .ok s') :
    sig ∈ s.pending := by
  by_contra hno
  exact nomatch (show s.step (.handle sig) = .error .blocked from if_neg hno).symm.trans he

/-- **Every event** follows the list of handlers. -/
theorem Follows.step (h : s.Follows hs) (he : s.step e = .ok s') : s'.Follows (alive hs e) := by
  cases e with
  | init t x => exact Except.ok.inj he ▸ h.init t x
  | destroy t x => exact h.destroy (ofUndefined_eq_ok he)
  | handle sig =>
    obtain ⟨-, heq⟩ | ⟨-, -, heq⟩ | ⟨-, x, -, heq⟩ :=
      h.handle_cases sig (mem_pending_of_handle he)
    · obtain rfl := Except.ok.inj (heq.symm.trans he)
      exact ⟨h.nodup, h.handlerStack, h.handlerInited, h.handlersInstalled⟩
    · exact nomatch heq.symm.trans he
    · obtain rfl := Except.ok.inj (heq.symm.trans he)
      exact ⟨h.nodup, h.handlerStack, h.handlerInited, h.handlersInstalled⟩
  | raise sig =>
    rw [CrashHandlers.step] at he
    split_ifs at he <;> obtain rfl := Except.ok.inj he
    · exact h.withPending _
    · exact h
  | sigaction | sigaltstack | newThread =>
    obtain rfl := Except.ok.inj he
    exact ⟨h.nodup, h.handlerStack, h.handlerInited, h.handlersInstalled⟩

/-- Every handler that is destroyed is found in the stack. -/
theorem Follows.not_eraseEnd (h : s.Follows hs) (e : Event H T) :
    s.step e ≠ .error (.undefined .eraseEnd) := by
  intro he
  cases e with
  | destroy t x =>
    rw [CrashHandlers.step] at he
    obtain ⟨-, heq⟩ | ⟨-, heq⟩ | ⟨-, -, heq⟩ := h.destroy_cases t x <;>
      exact nomatch (congrArg ofUndefined heq).symm.trans he
  | handle sig =>
    by_cases hpending : sig ∈ s.pending
    · obtain ⟨-, heq⟩ | ⟨-, -, heq⟩ | ⟨-, x, -, heq⟩ := h.handle_cases sig hpending <;>
        exact nomatch heq.symm.trans he
    · exact nomatch (show s.step (.handle sig) = .error .blocked from if_neg hpending).symm.trans he
  | init | raise | sigaction | sigaltstack | newThread => exact nomatch he

/-- Some list of handlers is followed. -/
theorem exists_follows_step (s : CrashHandlers H T) (e : Event H T) (s' : CrashHandlers H T)
    (h : ∃ hs, s.Follows hs) (he : s.step e = .ok s') : ∃ hs, s'.Follows hs := by
  obtain ⟨hs, h⟩ := h
  exact ⟨alive hs e, h.step he⟩

/-- **After every run** the handlers are those that are alive. -/
theorem follows_run {es : List (Event H T)} (h : Runs.runChecked step new es = .ok s) :
    s.Follows (es.foldl alive []) := by
  refine Runs.follows_runChecked ?_ follows_new h
  exact fun s hs e s' hfollows he => hfollows.step he

/-- **The newest handler is called.** Whatever the order of the calls and the signals, no
destructor erases the end of the stack, which holds the handlers that are alive from the oldest to
the newest. The signal handler calls the newest of them and puts the default action in its place;
if the action is no longer its own, as after a signal of the same kind, it only installs itself
again. -/
theorem newest_called (es : List (Event H T)) :
    Runs.runChecked step new es ≠ .error (.undefined .eraseEnd) ∧
      ∀ s : CrashHandlers H T, Runs.runChecked step new es = .ok s →
        s.handlerStack.getD [] = es.foldl alive [] ∧
        ∀ sig s', s.step (.handle sig) = .ok s' →
          if (s.signals.actions sig).siginfo = true then
            ∃ x, (es.foldl alive []).getLast? = some x ∧ s' = { s with
              pending := s.pending.erase sig
              called := x :: s.called
              signals := s.signals.set sig ⟨.default, false⟩ }
          else s' = { s with
            pending := s.pending.erase sig
            signals := s.signals.set sig ⟨.signalHandler, true⟩ } := by
  constructor
  · intro hfail
    have hsafe (s : CrashHandlers H T) (e : Event H T) (f : Failure) (h : ∃ hs, s.Follows hs)
        (_ : True) (he : s.step e = .error f) : ¬ f = .undefined .eraseEnd := by
      rintro rfl
      obtain ⟨hs, h⟩ := h
      exact h.not_eraseEnd e he
    have hok : Runs.ChecksOk step (fun _ _ => True) (new : CrashHandlers H T) es :=
      Runs.checksOk_of_forall (fun _ _ => trivial) new es
    exact Runs.not_bad_of_checksOk exists_follows_step hsafe ⟨[], follows_new⟩ hok _ hfail rfl
  · intro s hrun
    have h : s.Follows (es.foldl alive []) := follows_run hrun
    refine ⟨by rw [h.handlerStack, getD_stackOf], fun sig s' he => ?_⟩
    obtain ⟨hinfo, heq⟩ | ⟨-, -, heq⟩ | ⟨hinfo, x, hx, heq⟩ :=
      h.handle_cases sig (mem_pending_of_handle he)
    · rw [if_neg (Bool.eq_false_iff.mp hinfo)]
      exact Except.ok.inj (he.symm.trans heq)
    · exact nomatch heq.symm.trans he
    · rw [if_pos hinfo]
      exact ⟨x, hx, Except.ok.inj (he.symm.trans heq)⟩

/-- The older of two handlers is destroyed while a signal waits. -/
def olderDestroyed : List (Event ℕ Bool) :=
  [.init true 0, .init false 1, .raise .sigsegv, .destroy true 0]

/-- Two handlers, of which the older is destroyed before the signal is handled. -/
theorem newest_called_sample : ∃ s s' : CrashHandlers ℕ Bool,
    Runs.runChecked step new olderDestroyed = .ok s ∧ s.step (.handle .sigsegv) = .ok s' ∧
      ∃ x, (olderDestroyed.foldl alive []).getLast? = some x ∧ s' = { s with
        pending := s.pending.erase .sigsegv
        called := x :: s.called
        signals := s.signals.set .sigsegv ⟨.default, false⟩ } :=
  have h : Runs.runChecked step new olderDestroyed = .ok _ := rfl
  ⟨_, _, h, rfl, (newest_called olderDestroyed).2 _ h |>.2 .sigsegv _ rfl⟩

/-! ### What is put back

With the last object the old handlers return, but a signal that waits at this moment is handled
after them.
-/

/-- With no handler alive, nothing leads to the signal handler; with one, what is to be put back
does not. -/
def Restored (s : CrashHandlers H T) : Prop :=
  (s.handlerStack = none → s.pending = [] ∧ SignalActions.Foreign s.signals.actions) ∧
    (s.handlerStack ≠ none → SignalActions.Foreign s.signals.oldHandlers)

/-- A signal is handled that has arrived. -/
def Arrived (s : CrashHandlers H T) : Event H T → Prop
  | .handle sig => sig ∈ s.pending
  | _ => True

/-- The last handler is not destroyed while a signal waits for the mutex, and nobody installs the
signal handler in its absence. -/
def LastOk (s : CrashHandlers H T) : Event H T → Prop
  | .destroy _ h => s.handlerStack = some [h] → s.pending = []
  | .sigaction _ action => s.handlerStack = none → action.handler ≠ .signalHandler
  | _ => True

instance decidableArrived (s : CrashHandlers H T) (e : Event H T) : Decidable (s.Arrived e) :=
  match e with
  | .handle sig => inferInstanceAs (Decidable (sig ∈ s.pending))
  | .init .. | .destroy .. | .raise _ | .sigaction .. | .sigaltstack .. | .newThread _ =>
    .isTrue trivial

instance decidableLastOk (s : CrashHandlers H T) (e : Event H T) : Decidable (s.LastOk e) :=
  match e with
  | .destroy _ h => inferInstanceAs (Decidable (s.handlerStack = some [h] → s.pending = []))
  | .sigaction _ action =>
    inferInstanceAs (Decidable (s.handlerStack = none → action.handler ≠ .signalHandler))
  | .init .. | .raise _ | .handle _ | .sigaltstack .. | .newThread _ => .isTrue trivial

omit [DecidableEq H] [DecidableEq T] in
/-- There is no vector exactly if nothing is alive. -/
theorem Follows.handlerStack_eq_none (h : s.Follows hs) : s.handlerStack = none ↔ hs = [] := by
  rw [h.handlerStack, stackOf]
  split_ifs with hempty
  · exact iff_of_true rfl hempty
  · exact iff_of_false (fun hno => nomatch hno) hempty

omit [DecidableEq H] [DecidableEq T] in
/-- The vector has one element exactly if one handler is alive. -/
theorem Follows.handlerStack_eq_some (h : s.Follows hs) {x : H} :
    s.handlerStack = some [x] ↔ hs = [x] := by
  constructor
  · intro hlast
    rw [← getD_stackOf hs, ← h.handlerStack, hlast]
    rfl
  · rintro rfl
    exact h.handlerStack

/-! #### The steps

An initialization sets the old handlers aside. The destructor of the last object puts them back, and
this is where a signal that waits matters.
-/

/-- Initialization keeps what is to be put back. -/
theorem Restored.init (hp : s.Restored) (h : s.Follows hs) (t : T) (x : H) :
    (s.init t x).Restored := by
  by_cases hx : x ∈ hs
  · exact (h.init_of_mem hx t).symm ▸ hp
  · rw [h.init_of_not_mem hx]
    refine ⟨fun hno => (nomatch hno), fun _ => ?_⟩
    dsimp only
    rw [SignalActions.installHandlerLocked]
    split_ifs with hinstalled
    · exact hp.2 (h.handlerStack_eq_none.not.mpr (h.handlersInstalled.mp hinstalled))
    · refine (hp.1 (h.handlerStack_eq_none.mpr ?_)).2
      by_contra hne
      exact hinstalled (h.handlersInstalled.mpr hne)

/-- What the destructor of the last handler needs. -/
theorem Restored.destroy (hp : s.Restored) (h : s.Follows hs) {t : T} {x : H}
    (hd : s.destroy t x = .ok s') :
    s'.Restored ↔ s.LastOk (.destroy t x) := by
  obtain ⟨hx, heq⟩ | ⟨rfl, heq⟩ | ⟨hx, hrest, heq⟩ := h.destroy_cases t x <;>
    obtain rfl := Except.ok.inj (heq.symm.trans hd)
  · refine iff_of_true hp fun hlast => ?_
    obtain rfl := h.handlerStack_eq_some.mp hlast
    exact absurd (List.mem_singleton_self x) hx
  · have hinstalled : s.signals.handlersInstalled = true :=
      h.handlersInstalled.mpr (List.cons_ne_nil x [])
    have hrestored : s.signals.restoreHandlerLocked.actions = s.signals.oldHandlers := by
      rw [SignalActions.restoreHandlerLocked, if_neg (by simp [hinstalled])]
    have hsome : s.handlerStack ≠ none :=
      h.handlerStack_eq_none.not.mpr (List.cons_ne_nil x [])
    constructor
    · exact fun hp' _ => (hp'.1 rfl).1
    · refine fun hlast => ⟨fun _ => ⟨hlast h.handlerStack, ?_⟩, fun hno => (hno rfl).elim⟩
      exact hrestored.symm ▸ hp.2 hsome
  · refine iff_of_true ⟨fun hno => (nomatch hno), fun _ => hp.2 ?_⟩ fun hlast => ?_
    · exact h.handlerStack_eq_none.not.mpr (List.ne_nil_of_mem hx)
    · obtain rfl := h.handlerStack_eq_some.mp hlast
      exact absurd (List.erase_cons_head x []) hrest

/-- Exactly the steps that meet the condition keep it so that everything is put back. -/
theorem restored_step_iff (h : s.Follows hs) (hp : s.Restored) (he : s.step e = .ok s') :
    s'.Restored ↔ s.LastOk e := by
  cases e with
  | init t x =>
    obtain rfl := Except.ok.inj he
    exact iff_of_true (hp.init h t x) trivial
  | destroy t x => exact hp.destroy h (ofUndefined_eq_ok he)
  | raise sig =>
    refine iff_of_true ?_ trivial
    rw [step] at he
    split_ifs at he with hours <;> obtain rfl := Except.ok.inj he
    · exact ⟨fun hno => absurd hours ((hp.1 hno).2 sig), hp.2⟩
    · exact hp
  | handle sig =>
    refine iff_of_true ?_ trivial
    have hpending := mem_pending_of_handle he
    have hsome : s.handlerStack ≠ none := fun hno => by
      rw [(hp.1 hno).1] at hpending
      exact List.not_mem_nil hpending
    obtain ⟨-, heq⟩ | ⟨-, -, heq⟩ | ⟨-, x, -, heq⟩ := h.handle_cases sig hpending
    · obtain rfl := Except.ok.inj (heq.symm.trans he)
      exact ⟨fun hno => (hsome hno).elim, hp.2⟩
    · exact nomatch heq.symm.trans he
    · obtain rfl := Except.ok.inj (heq.symm.trans he)
      exact ⟨fun hno => (hsome hno).elim, hp.2⟩
  | sigaction sig action =>
    obtain rfl := Except.ok.inj he
    constructor
    · intro hp' hno
      have haction := (hp'.1 hno).2 sig
      dsimp only [SignalActions.set] at haction
      rwa [Function.update_self] at haction
    · intro hok
      exact ⟨fun hno => ⟨(hp.1 hno).1, (hp.1 hno).2.update (hok hno) sig⟩, hp.2⟩
  | sigaltstack | newThread =>
    obtain rfl := Except.ok.inj he
    exact iff_of_true hp trivial

/-- While that is so, the signal handler finds the stack of handlers. -/
theorem exists_step (h : s.Follows hs) (hp : s.Restored) (ha : s.Arrived e) :
    ∃ s', s.step e = .ok s' := by
  cases e with
  | destroy t x =>
    obtain ⟨-, heq⟩ | ⟨-, heq⟩ | ⟨-, -, heq⟩ := h.destroy_cases t x <;>
      exact ⟨_, congrArg ofUndefined heq⟩
  | handle sig =>
    obtain ⟨-, heq⟩ | ⟨-, hempty, -⟩ | ⟨-, x, -, heq⟩ := h.handle_cases sig ha
    · exact ⟨_, heq⟩
    · rw [Arrived, (hp.1 (h.handlerStack_eq_none.mpr hempty)).1] at ha
      exact absurd ha List.not_mem_nil
    · exact ⟨_, heq⟩
  | init | raise | sigaction | sigaltstack | newThread => exact ⟨_, rfl⟩

/-- **When everything is put back.** A run never leads the signal handler to a stack of handlers
that is gone, and leaves no signal to it when no handler is alive, if and only if no last handler is
destroyed while a signal is waiting and nobody installs the signal handler while no handler is
alive. -/
theorem restored_iff (es : List (Event H T))
    (ha : Runs.ChecksOk step Arrived new es) :
    Runs.Stays step Restored new es ↔ Runs.ChecksOk step LastOk new es := by
  refine Runs.stays_iff_checksOk (I := fun s : CrashHandlers H T => ∃ hs, s.Follows hs)
    exists_follows_step ?_ ?_ ⟨[], follows_new⟩ ?_ ha
  · rintro s e ⟨hs, h⟩ hp ha hok
    obtain ⟨s', he⟩ := exists_step h hp ha
    exact ⟨s', he, (restored_step_iff h hp he).mpr hok⟩
  · rintro s e s' ⟨hs, h⟩ hp - he hp'
    exact (restored_step_iff h hp he).mp hp'
  · refine ⟨fun _ => ⟨rfl, fun sig hsig => ?_⟩, fun hno => (hno rfl).elim⟩
    exact nomatch hsig

/-- A signal is handled before the last of two handlers is destroyed. -/
def handledFirst : List (Event ℕ Bool) :=
  olderDestroyed ++ [.handle .sigsegv, .destroy true 1]

/-- A run in which the signal is handled before the last object goes. -/
theorem restored_iff_sample : Runs.Stays step Restored new handledFirst :=
  (restored_iff handledFirst (by decide)).mpr (by decide)

/-! ### The alternate stack that is freed

The destructor puts back the stack of its own thread only. A thread that has the new stack from
somewhere else keeps it.
-/

/-- The thread that destroys the last handler is the only one that may still have the alternate
stack. -/
def RestoreOk (s : CrashHandlers H T) : Event H T → Prop
  | .destroy t h => s.handlerStack = some [h] → s.altStacks.stackInstalled = true →
      ∀ t', s.altStacks.OnNewStack t' → t' = t
  | _ => True

/-- What a step does to the alternate stacks. -/
theorem stacks_cases (h : s.Follows hs) (he : s.step e = .ok s') :
    s'.altStacks = s.altStacks ∧ s.RestoreOk e ∨
      (∃ t, s'.altStacks = s.altStacks.installAlternateStackLocked t) ∧ s.RestoreOk e ∨
      (∃ t stack, (∀ new ∈ stack, ∃ address, new.base = .other address) ∧
        s'.altStacks = s.altStacks.sigaltstack t stack) ∧ s.RestoreOk e ∨
      ∃ t x, e = .destroy t x ∧ s.handlerStack = some [x] ∧
        s'.altStacks = s.altStacks.restoreAlternateStackLocked t := by
  cases e with
  | init t x =>
    obtain rfl := Except.ok.inj he
    by_cases hx : x ∈ hs
    · exact .inl ⟨by rw [h.init_of_mem hx], trivial⟩
    · exact .inr (.inl ⟨⟨t, by rw [h.init_of_not_mem hx]⟩, trivial⟩)
  | destroy t x =>
    have hd := ofUndefined_eq_ok he
    obtain ⟨hx, heq⟩ | ⟨rfl, heq⟩ | ⟨-, hrest, heq⟩ := h.destroy_cases t x <;>
      obtain rfl := Except.ok.inj (heq.symm.trans hd)
    · refine .inl ⟨rfl, fun hlast => ?_⟩
      obtain rfl := h.handlerStack_eq_some.mp hlast
      exact absurd (List.mem_singleton_self x) hx
    · exact .inr (.inr (.inr ⟨t, x, rfl, h.handlerStack, rfl⟩))
    · refine .inl ⟨rfl, fun hlast => ?_⟩
      obtain rfl := h.handlerStack_eq_some.mp hlast
      exact absurd (List.erase_cons_head x []) hrest
  | raise sig =>
    rw [step] at he
    split_ifs at he <;> obtain rfl := Except.ok.inj he <;> exact .inl ⟨rfl, trivial⟩
  | handle sig =>
    obtain ⟨-, heq⟩ | ⟨-, -, heq⟩ | ⟨-, x, -, heq⟩ :=
      h.handle_cases sig (mem_pending_of_handle he)
    · obtain rfl := Except.ok.inj (heq.symm.trans he)
      exact .inl ⟨rfl, trivial⟩
    · exact nomatch heq.symm.trans he
    · obtain rfl := Except.ok.inj (heq.symm.trans he)
      exact .inl ⟨rfl, trivial⟩
  | sigaction sig action =>
    obtain rfl := Except.ok.inj he
    exact .inl ⟨rfl, trivial⟩
  | sigaltstack t address size =>
    obtain rfl := Except.ok.inj he
    refine .inr (.inr (.inl ⟨⟨t, some ⟨.other address, size⟩, ?_, rfl⟩, trivial⟩))
    rintro new hnew
    obtain rfl := Option.some.inj hnew
    exact ⟨address, rfl⟩
  | newThread t =>
    obtain rfl := Except.ok.inj he
    exact .inr (.inr (.inl ⟨⟨t, none, fun new hnew => (nomatch hnew), rfl⟩, trivial⟩))

/-- Every event keeps count of the allocations. -/
theorem stacksOk_step (h : s.Follows hs) (hk : s.altStacks.Ok) (he : s.step e = .ok s') :
    s'.altStacks.Ok := by
  obtain ⟨heq, -⟩ | ⟨⟨t, heq⟩, -⟩ | ⟨⟨t, stack, hstack, heq⟩, -⟩ | ⟨t, x, -, -, heq⟩ :=
    stacks_cases h he <;> rw [heq]
  · exact hk
  · exact hk.install t
  · refine hk.sigaltstack fun new hnew n hn => ?_
    obtain ⟨address, hother⟩ := hstack new hnew
    exact nomatch hother.symm.trans hn
  · exact hk.restore t

/-- Exactly the steps that meet the condition leave no thread with memory that is freed. -/
theorem live_step_iff (h : s.Follows hs) (hk : s.altStacks.Ok) (hp : s.altStacks.Live)
    (he : s.step e = .ok s') : s'.altStacks.Live ↔ s.RestoreOk e := by
  obtain ⟨heq, hok⟩ | ⟨⟨t, heq⟩, hok⟩ | ⟨⟨t, stack, hstack, heq⟩, hok⟩ |
      ⟨t, x, rfl, hlast, heq⟩ := stacks_cases h he <;> rw [heq]
  · exact iff_of_true hp hok
  · exact iff_of_true (hp.install hk t) hok
  · refine iff_of_true (hp.sigaltstack fun new hnew hfreed => ?_) hok
    obtain ⟨address, hother⟩ := hstack new hnew
    obtain ⟨n, -, hallocated⟩ := hk.freed _ hfreed
    exact nomatch hother.symm.trans hallocated
  · exact (AlternateStacks.live_restore_iff hk hp t).trans (imp_iff_right hlast).symm

/-- **No thread runs on memory that has been freed.** The alternate stacks of the threads are never
freed under them if and only if, whenever the last handler is destroyed, no other thread than the
destroying one still has the stack that the first handler has installed. -/
theorem live_iff (es : List (Event H T))
    (ha : Runs.ChecksOk step (fun s e => (s.step e).isOk = true) new es) :
    Runs.Stays step (fun s => s.altStacks.Live) new es ↔ Runs.ChecksOk step RestoreOk new es := by
  refine Runs.stays_iff_checksOk (P := fun s : CrashHandlers H T => s.altStacks.Live)
    (I := fun s : CrashHandlers H T => (∃ hs, s.Follows hs) ∧ s.altStacks.Ok) ?_ ?_ ?_
    ⟨⟨[], follows_new⟩, ?_⟩ ?_ ha
  · rintro s e s' ⟨⟨hs, h⟩, hk⟩ he
    exact ⟨⟨alive hs e, h.step he⟩, stacksOk_step h hk he⟩
  · rintro s e ⟨⟨hs, h⟩, hk⟩ hp ha hok
    cases he : s.step e with
    | ok s' => exact ⟨s', rfl, (live_step_iff h hk hp he).mpr hok⟩
    | error f => exact nomatch he ▸ ha
  · rintro s e s' ⟨⟨hs, h⟩, hk⟩ hp - he hp'
    exact (live_step_iff h hk hp he).mp hp'
  · exact ⟨fun t stack n hstack _ => (nomatch hstack), fun base hbase => (nomatch hbase),
      fun hyes => (nomatch hyes)⟩
  · exact ⟨fun t stack hstack => (nomatch hstack), fun hyes => (nomatch hyes)⟩

/-- Of two threads. -/
instance decidableRestoreOk (s : CrashHandlers H Bool) (e : Event H Bool) :
    Decidable (s.RestoreOk e) :=
  match e with
  | .destroy t h =>
    inferInstanceAs (Decidable (s.handlerStack = some [h] → s.altStacks.stackInstalled = true →
      ∀ t', s.altStacks.OnNewStack t' → t' = t))
  | .init .. | .raise _ | .handle _ | .sigaction .. | .sigaltstack .. | .newThread _ =>
    .isTrue trivial

/-- In the same run no freed stack is left. -/
theorem live_iff_sample : Runs.Stays step (fun s => s.altStacks.Live) new handledFirst :=
  (live_iff handledFirst (by decide)).mpr (by decide)

end CrashHandlers

end GameSdk
