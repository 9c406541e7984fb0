import GameSdk.Runs
import GameSdk.SwappySettings

/-!
# The listeners of the settings (`Settings.cpp`, `SwappyCommon.cpp`, `ChoreographerFilter.cpp`)

`Settings` is one object for the process, made when somebody asks for it. An instance of
`SwappyCommon` adds two listeners while it is constructed, that of its filter and its own;
a setter calls all the listeners there are. The destructor of an instance does not remove
its own listeners: it throws the `Settings` object away.

Instances are constructed and destroyed, and setters called, one after the other. An instance is
known by its address, of any type, which may be used again.

There are two properties: a setter calls the listeners of the instances that are alive and no
others, and the destructor of one instance leaves the listeners and the values of the others.
`DestroyOk` is the condition on the destructor for both.

The events are whole calls, and each returns whom it has notified. The state after them is the
`Settings` object, if there is one, and the list of instances in the order of their construction.
-/

namespace GameSdk

universe u

/-! ## The objects

The `Settings` object with its listeners and values, and what an instance of `SwappyCommon` adds to
it.
-/

/-- `onSettingsChanged` of an instance, and of its choreographer filter. -/
inductive Listener (I : Type u) where
  | filter (address : I)
  | common (address : I)
  deriving DecidableEq, Repr

/-- The instance that the listener belongs to. -/
def Listener.owner {I : Type u} : Listener I → I
  | .filter address | .common address => address

/-- `Settings`: the fields that the setters write, and `mListeners`. -/
structure SettingsObject (I : Type u) where
  listeners : List (Listener I)
  values : SwappySettings
  deriving DecidableEq, Repr

namespace SettingsObject

variable {I : Type u}

/-- The values before anything is set. -/
def defaultValues : SwappySettings := ⟨⟨0, 0, 0⟩, 16666667, true⟩

/-- An object without listeners. -/
def new : SettingsObject I := ⟨[], defaultValues⟩

variable (s : SettingsObject I)

/-- `addListener`: behind those that there are. -/
def addListener (listener : Listener I) : SettingsObject I :=
  { s with listeners := s.listeners ++ [listener] }

/-- A setter, with the listeners that it calls. -/
def set (write : SwappySettings.Write) : List (Listener I) × SettingsObject I :=
  (s.listeners, { s with values := s.values.write write })

end SettingsObject

/-- What the constructor of `SwappyCommon` finds. -/
structure CommonEnv where
  /-- none if a method of the display is missing -/
  display : Option DisplayTimings
  choreographerThreadInitialized : Bool
  /-- also where no display manager is used -/
  displayManagerInitialized : Bool
  deriving DecidableEq, Repr

/-- An instance that is alive. -/
structure CommonInstance (I : Type u) where
  address : I
  env : CommonEnv
  deriving DecidableEq, Repr

/-- The listeners that its constructor has added, which returns where something fails. -/
def CommonInstance.listeners {I : Type u} (c : CommonInstance I) : List (Listener I) :=
  match c.env.display with
  | none => []
  | some _ =>
    if c.env.choreographerThreadInitialized && c.env.displayManagerInitialized then
      [.filter c.address, .common c.address]
    else [.filter c.address]

/-- The one `Settings` object, and the instances that are alive. -/
structure SettingsProcess (I : Type u) where
  /-- `Settings::instance` -/
  settings : Option (SettingsObject I)
  alive : List (CommonInstance I)
  deriving DecidableEq, Repr

namespace SettingsProcess

/-- One thing that happens. -/
inductive Event (I : Type u) where
  | construct (address : I) (env : CommonEnv)
  | destroy (address : I)
  | set (write : SwappySettings.Write)
  deriving DecidableEq, Repr

variable {I : Type u}

/-- Before anybody has asked for settings. -/
def start : SettingsProcess I := ⟨none, []⟩

section

variable (s : SettingsProcess I)

/-- `Settings::getInstance`. -/
def getInstance : SettingsObject I := s.settings.getD .new

/-- `addListener` of the object of the process, which is made if there is none. -/
def addListener (listener : Listener I) : SettingsProcess I :=
  { s with settings := some (s.getInstance.addListener listener) }

/-- `Settings::getInstance()->set…`, with the listeners that it calls. -/
def set (write : SwappySettings.Write) : List (Listener I) × SettingsProcess I :=
  let (notified, settings) := s.getInstance.set write
  (notified, { s with settings := some settings })

/-- `SwappyCommon::SwappyCommon`, with the listeners that it calls if it calls a setter. -/
def construct (address : I) (env : CommonEnv) : Option (List (Listener I)) × SettingsProcess I :=
  let s := { s with alive := s.alive ++ [⟨address, env⟩] }
  match env.display with
  | none => (none, s)
  | some displayTimings =>
    -- the constructor of the filter adds its own
    let s := s.addListener (.filter address)
    if env.choreographerThreadInitialized = false then (none, s)
    else if env.displayManagerInitialized = false then (none, s)
    else
      let s := s.addListener (.common address)
      let (notified, s) := s.set (.displayTimings displayTimings)
      (some notified, s)

end

variable [DecidableEq I] (s : SettingsProcess I)

/-- The instances that are alive, apart from the one at an address. -/
def others (address : I) : List (CommonInstance I) :=
  s.alive.filter fun c => c.address ≠ address

/-- `SwappyCommon::~SwappyCommon`, which calls `Settings::reset`. -/
def destroy (address : I) : SettingsProcess I := ⟨none, s.others address⟩

/-- The addresses of the instances that are alive. -/
def addresses : List I := s.alive.map CommonInstance.address

/-- Nothing is constructed over an instance that is alive, or destroyed that is not. -/
def step : Event I → Option (List (Listener I)) × SettingsProcess I
  | .construct address env =>
    if address ∈ s.addresses then (none, s) else s.construct address env
  | .destroy address =>
    if address ∈ s.addresses then (none, s.destroy address) else (none, s)
  | .set write =>
    let (notified, s) := s.set write
    (some notified, s)

/-- The process after an event. -/
def next (e : Event I) : SettingsProcess I := (s.step e).2

/-- The listeners of the instances that are alive. -/
def aliveListeners : List (Listener I) := s.alive.flatMap CommonInstance.listeners

/-! ## What the calls should do

A setter is for all instances that are alive. A destructor is for its own instance.
-/

/-- A setter calls the listeners of the instances that are alive and no others. -/
def NotifiesAlive (e : Event I) : Prop :=
  ∀ notified, (s.step e).1 = some notified → notified = (s.next e).aliveListeners

/-- While other instances are alive, the values and the listeners of the others stay. -/
def LeavesOthers : Event I → Prop
  | .destroy address => address ∈ s.addresses → s.others address ≠ [] →
      (s.next (.destroy address)).getInstance.values = s.getInstance.values ∧
        ((s.next (.destroy address)).getInstance.listeners.filter fun l => l.owner ≠ address) =
          s.getInstance.listeners.filter fun l => l.owner ≠ address
  | _ => True

/-- An instance is destroyed last of all, or when there is nothing to be lost: the others have
added no listeners and the settings have their default values. -/
def DestroyOk : Event I → Prop
  | .destroy address => address ∈ s.addresses → s.others address = [] ∨
      ((∀ c ∈ s.others address, c.listeners = []) ∧
        s.getInstance.values = SettingsObject.defaultValues)
  | _ => True

/-! ## What each call does to the listeners

One lemma for the constructor, the destructor and the setters.
-/

variable {s}

/-- The listeners are those of the instances that are alive, in the order of their
construction. -/
def Inv (s : SettingsProcess I) : Prop := s.getInstance.listeners = s.aliveListeners

omit [DecidableEq I] in
theorem inv_set (h : s.Inv) (write : SwappySettings.Write) : (s.set write).2.Inv := h

omit [DecidableEq I] in
theorem aliveListeners_construct (address : I) (env : CommonEnv) :
    (s.construct address env).2.aliveListeners =
      s.aliveListeners ++ (CommonInstance.mk address env).listeners := by
  have halive : (s.construct address env).2.alive = s.alive ++ [⟨address, env⟩] := by
    rw [construct]
    split
    · rfl
    · split_ifs <;> rfl
  rw [aliveListeners, halive, List.flatMap_append, List.flatMap_singleton, aliveListeners]

omit [DecidableEq I] in
/-- The constructor adds the listeners of its instance, and calls all of them if it gets as
far as its setter. -/
theorem listeners_construct (address : I) (env : CommonEnv) :
    (s.construct address env).2.getInstance.listeners =
        s.getInstance.listeners ++ (CommonInstance.mk address env).listeners ∧
      ∀ notified, (s.construct address env).1 = some notified →
        notified = (s.construct address env).2.getInstance.listeners := by
  obtain ⟨display, thread, manager⟩ := env
  cases display with
  | none => exact ⟨(List.append_nil _).symm, by simp [construct]⟩
  | some displayTimings =>
    cases thread with
    | false => exact ⟨rfl, by simp [construct]⟩
    | true =>
      cases manager with
      | false => exact ⟨rfl, by simp [construct]⟩
      | true =>
        refine ⟨List.append_assoc _ [_] [_], fun notified hnotified => ?_⟩
        exact (Option.some.inj hnotified).symm

omit [DecidableEq I] in
theorem inv_construct (h : s.Inv) (address : I) (env : CommonEnv) :
    (s.construct address env).2.Inv := by
  rw [Inv, (listeners_construct address env).1, aliveListeners_construct, h]

omit [DecidableEq I] in
theorem owner_of_mem_listeners {c : CommonInstance I} {l : Listener I} (h : l ∈ c.listeners) :
    l.owner = c.address := by
  rw [CommonInstance.listeners] at h
  split at h
  · cases h
  · split at h
    · rcases List.mem_cons.mp h with rfl | h
      · rfl
      · obtain rfl := List.mem_singleton.mp h
        rfl
    · obtain rfl := List.mem_singleton.mp h
      rfl

/-- The listeners of the others are those that the others own. -/
theorem filter_aliveListeners (address : I) :
    (s.aliveListeners.filter fun l => l.owner ≠ address) =
      (s.others address).flatMap CommonInstance.listeners := by
  rw [aliveListeners, others]
  -- each instance owns all of its listeners, so the filter takes them together
  induction s.alive with
  | nil => rfl
  | cons c alive ih =>
    rw [List.flatMap_cons, List.filter_append, ih]
    by_cases hc : c.address = address
    · have hnone : (c.listeners.filter fun l => l.owner ≠ address) = [] :=
        List.filter_eq_nil_iff.mpr fun l hl => by simp [owner_of_mem_listeners hl, hc]
      rw [hnone, List.filter_cons_of_neg (by simpa using hc), List.nil_append]
    · have hall : (c.listeners.filter fun l => l.owner ≠ address) = c.listeners :=
        List.filter_eq_self.mpr fun l hl => by simpa [owner_of_mem_listeners hl] using hc
      rw [hall, List.filter_cons_of_pos (by simpa using hc), List.flatMap_cons]

/-- Destroying an instance keeps the others as they are exactly when there is nothing to lose. -/
theorem leavesOthers_destroy_iff (h : s.Inv) (address : I) :
    s.LeavesOthers (.destroy address) ↔ s.DestroyOk (.destroy address) := by
  refine forall_congr' fun hmem => ?_
  have hnext : s.next (.destroy address) = s.destroy address := by
    rw [next, step, if_pos hmem]
  rw [hnext, h, filter_aliveListeners]
  -- what `getInstance` makes after that has default values and no listeners
  change (_ → SettingsObject.defaultValues = _ ∧ [] = _) ↔ _
  rw [← List.flatMap_eq_nil_iff, eq_comm (a := SettingsObject.defaultValues), eq_comm (a := []),
    and_comm, or_iff_not_imp_left, ne_eq]

omit [DecidableEq I] in
theorem inv_start : (start : SettingsProcess I).Inv := rfl

theorem inv_next (h : s.Inv) (e : Event I) (hok : s.DestroyOk e) : (s.next e).Inv := by
  cases e with
  | construct address env =>
    rw [next, step]
    split
    · exact h
    · exact inv_construct h address env
  | destroy address =>
    rw [next, step]
    split
    · next hmem =>
      -- the listeners are gone, and those that are left had none
      have hnone : (s.others address).flatMap CommonInstance.listeners = [] := by
        rcases hok hmem with hothers | ⟨hothers, -⟩
        · rw [hothers, List.flatMap_nil]
        · exact List.flatMap_eq_nil_iff.mpr hothers
      exact hnone.symm
    · exact h
  | set write => exact inv_set h write

theorem notifiesAlive (h : s.Inv) (e : Event I) : s.NotifiesAlive e := by
  intro notified hnotified
  cases e with
  | construct address env =>
    rw [step] at hnotified
    rw [next, step]
    split at hnotified
    · cases hnotified
    · next hfresh =>
      rw [if_neg hfresh]
      exact ((listeners_construct address env).2 notified hnotified).trans
        (inv_construct h address env)
  | destroy address =>
    rw [step] at hnotified
    split at hnotified <;> cases hnotified
  | set write =>
    obtain rfl := Option.some.inj hnotified
    exact h

/-- **Step lemma.** -/
theorem keepsListeners_iff (e : Event I) (h : s.Inv) :
    s.NotifiesAlive e ∧ s.LeavesOthers e ↔ s.DestroyOk e := by
  rw [and_iff_right (notifiesAlive h e)]
  cases e with
  | construct address env => exact Iff.rfl
  | destroy address => exact leavesOthers_destroy_iff h address
  | set write => exact Iff.rfl

/-- **Every run.** Setters notify the instances that are alive, and an instance leaves the
others as they are, exactly in the runs that destroy no instance while others have something
to lose. -/
theorem keepsListeners (events : List (Event I)) :
    Runs.StepsOk next (fun s e => s.NotifiesAlive e ∧ s.LeavesOthers e) start events ↔
      Runs.StepsOk next DestroyOk start events := by
  have hinv : ∀ (s : SettingsProcess I) e, s.Inv → s.DestroyOk e → (s.next e).Inv :=
    fun _ e h hok => inv_next h e hok
  exact Runs.stepsOk_congr_of_ok hinv (fun _ e h => keepsListeners_iff e h) inv_start events

/-- A display of 60 Hz, and a filter. -/
def sixtyHertzDisplay : CommonEnv := ⟨some ⟨16666667, 0, 0⟩, true, true⟩

/-- Two instances, of which the first is destroyed: the setter after that calls nobody. -/
theorem not_keepsListeners :
    ¬ Runs.StepsOk next (fun s e => s.NotifiesAlive e ∧ s.LeavesOthers e)
      (start : SettingsProcess ℕ)
      [.construct 1 sixtyHertzDisplay, .construct 2 sixtyHertzDisplay, .destroy 1,
        .set (.swapIntervalNS 33333333)] := by
  rintro ⟨-, -, -, ⟨hset, -⟩, -⟩
  have hnobody := hset [] rfl
  exact absurd hnobody (by decide)

end SettingsProcess

end GameSdk
