import GameSdk.Checked
import GameSdk.FrameDuration
import GameSdk.Runs
import Mathlib.Logic.Function.Basic
import Mathlib.Tactic.Common

/-!
# Devices and swapchains (`SwappyVk.cpp`)

`SwappyVk` finds the implementation for a device or a swapchain in a map. Looking up a
handle that the map does not have enters it with a null pointer, and destroying a
swapchain leaves null pointers behind. The calls for one handle look at the pointer
before they use it; those for all handles do not.

The handles alone tell where this goes wrong: `Registry` follows which of them have been
seen, and which have an implementation.

A null pointer that is used ends a run with `BadPointer`. `Registry` is the abstract model, with
what is known of each handle, and `CallOk` is the condition on a call in its terms. The maps follow
the registry step by step.

The maps are trees with the order of the handles, as `std::map` has it, since the calls for all
handles stop at the first null pointer. Whether a call of the driver or of the system loader
succeeds is an argument of the call here.
-/

namespace GameSdk

/-- A physical device. -/
abbrev VkPhysicalDevice : Type := UInt64

/-- A device. -/
abbrev VkDevice : Type := UInt64

/-- A swapchain. -/
abbrev VkSwapchainKHR : Type := UInt64

/-- A queue. -/
abbrev VkQueue : Type := UInt64

/-- What the calls here use of a `SwappyVkBase` and its `SwappyCommon`. -/
structure VkImplementation where
  /-- a `SwappyVkGoogleDisplayTiming`, else a `SwappyVkFallback` -/
  googleDisplayTiming : Bool
  enabled : Bool
  autoSwapIntervalEnabled : Bool
  pipelineModeAutoMode : Bool
  pipelineMode : PipelineMode
  autoSwapIntervalThresholdNS : ℤ
  fenceTimeout : ℤ
  tracers : List UInt64
  deriving DecidableEq, Repr

namespace VkImplementation

/-- Both times are 50 ms. -/
def new (googleDisplayTiming enabled : Bool) : VkImplementation where
  googleDisplayTiming := googleDisplayTiming
  enabled := enabled
  autoSwapIntervalEnabled := true
  pipelineModeAutoMode := true
  pipelineMode := .off
  autoSwapIntervalThresholdNS := 50000000
  fenceTimeout := 50000000
  tracers := []

variable (i : VkImplementation)

/-- Non pipeline mode is not supported when auto mode is disabled. -/
def setAutoSwapInterval (enabled : Bool) : VkImplementation :=
  { i with
    autoSwapIntervalEnabled := enabled
    pipelineMode := if enabled then i.pipelineMode else .on }

/-- `setAutoPipelineMode` of one implementation. -/
def setAutoPipelineMode (enabled : Bool) : VkImplementation :=
  { i with
    pipelineModeAutoMode := enabled
    pipelineMode := if enabled then i.pipelineMode else .on }

/-- `setMaxAutoSwapIntervalNS` of one implementation. -/
def setMaxAutoSwapIntervalNS (maxSwapNS : ℤ) : VkImplementation :=
  { i with autoSwapIntervalThresholdNS := maxSwapNS }

/-- `setFenceTimeout` of one implementation. -/
def setFenceTimeout (t : ℤ) : VkImplementation := { i with fenceTimeout := t }

/-- `addTracer` of one implementation. -/
def addTracer (t : UInt64) : VkImplementation := { i with tracers := i.tracers ++ [t] }

/-- Of both derived classes; the driver is asked for the duration by one of them only. -/
def doGetRefreshCycleDuration (driverOk : Bool) : Bool × VkImplementation :=
  if i.enabled = false then (false, i)
  else if i.googleDisplayTiming then (driverOk, i)
  else (true, i.setAutoPipelineMode false)

end VkImplementation

/-- A `std::shared_ptr`, by the number of its implementation. -/
abbrev ImplPointer : Type := Option ℕ

/-- A pointer that must not be used. -/
inductive BadPointer where
  | null
  /-- to an implementation that is not there -/
  | dangling
  deriving DecidableEq, Repr

/-- The device of a queue and its family. -/
structure QueueFamilyIndex where
  device : VkDevice
  queueFamilyIndex : UInt32
  deriving DecidableEq, Repr

/-- The maps of the class, and the implementations they point to. -/
structure SwappyVk where
  doesPhysicalDeviceHaveGoogleDisplayTiming : Std.TreeMap VkPhysicalDevice Bool
  perDeviceImplementation : Std.TreeMap VkDevice ImplPointer
  perSwapchainImplementation : Std.TreeMap VkSwapchainKHR ImplPointer
  perQueueFamilyIndex : Std.TreeMap VkQueue QueueFamilyIndex
  /-- whether `mLibVulkan` is not null -/
  libVulkan : Bool
  /-- every implementation made so far -/
  implementations : List VkImplementation

namespace SwappyVk

/-- The calls, with what they find out from the system: whether `dlopen` succeeds,
whether a new implementation is enabled, and what the driver returns. -/
inductive Call where
  | determineDeviceExtensions (physicalDevice : VkPhysicalDevice) (googleDisplayTiming : Bool)
  | setQueueFamilyIndex (device : VkDevice) (queue : VkQueue) (queueFamilyIndex : UInt32)
  | getRefreshCycleDuration (physicalDevice : VkPhysicalDevice) (device : VkDevice)
      (swapchain : VkSwapchainKHR) (dlopen enabled driverOk : Bool)
  | setSwapIntervalNS (device : VkDevice) (swapchain : VkSwapchainKHR)
  | queuePresent (queue : VkQueue) (swapchains : List VkSwapchainKHR) (result : Int32)
  | destroySwapchain (device : VkDevice) (swapchain : VkSwapchainKHR)
  | setAutoSwapInterval (enabled : Bool)
  | setAutoPipelineMode (enabled : Bool)
  | setMaxAutoSwapIntervalNS (maxSwapNS : ℤ)
  | setFenceTimeout (t : ℤ)
  | getFenceTimeout
  | addTracer (t : UInt64)
  deriving DecidableEq, Repr

/-- Nothing is known. -/
def new : SwappyVk := ⟨∅, ∅, ∅, ∅, false, []⟩

variable (s : SwappyVk)

/-- `*p`, for a pointer `p`. -/
def deref : ImplPointer → Except BadPointer (ℕ × VkImplementation)
  | none => .error .null
  | some i =>
    match s.implementations[i]? with
    | none => .error .dangling
    | some impl => .ok (i, impl)

/-- A call through a pointer that changes the implementation. -/
def modify (p : ImplPointer) (f : VkImplementation → VkImplementation) :
    Except BadPointer SwappyVk := do
  let (i, impl) ← s.deref p
  .ok { s with implementations := s.implementations.set i (f impl) }

/-- `swappyVkDetermineDeviceExtensions`, when it fills in the required extensions. -/
def determineDeviceExtensions (physicalDevice : VkPhysicalDevice) (googleDisplayTiming : Bool) :
    SwappyVk :=
  { s with
    doesPhysicalDeviceHaveGoogleDisplayTiming :=
      s.doesPhysicalDeviceHaveGoogleDisplayTiming.insert physicalDevice googleDisplayTiming }

/-- `SetQueueFamilyIndex` -/
def setQueueFamilyIndex (device : VkDevice) (queue : VkQueue) (queueFamilyIndex : UInt32) :
    SwappyVk :=
  { s with perQueueFamilyIndex := s.perQueueFamilyIndex.insert queue ⟨device, queueFamilyIndex⟩ }

/-- `perDeviceImplementation[device]`, for reading. -/
def deviceImplementation (device : VkDevice) : ImplPointer × SwappyVk :=
  (s.perDeviceImplementation.getD device none,
    { s with perDeviceImplementation := s.perDeviceImplementation.insertIfNew device none })

/-- `perSwapchainImplementation[swapchain]`, for reading. -/
def swapchainImplementation (swapchain : VkSwapchainKHR) : ImplPointer × SwappyVk :=
  (s.perSwapchainImplementation.getD swapchain none,
    { s with
      perSwapchainImplementation := s.perSwapchainImplementation.insertIfNew swapchain none })

/-- `make_shared` of the class for the physical device, assigned to the entry. -/
def makeImplementation (physicalDevice : VkPhysicalDevice) (device : VkDevice) (enabled : Bool) :
    SwappyVk :=
  let has := s.doesPhysicalDeviceHaveGoogleDisplayTiming
  { s with
    doesPhysicalDeviceHaveGoogleDisplayTiming := has.insertIfNew physicalDevice false
    perDeviceImplementation :=
      s.perDeviceImplementation.insert device (some s.implementations.length)
    implementations :=
      s.implementations ++ [VkImplementation.new (has.getD physicalDevice false) enabled] }

/-- The end of `GetRefreshCycleDuration`: cache the pointer, and call through it. -/
def cacheSwapchain (device : VkDevice) (swapchain : VkSwapchainKHR) (driverOk : Bool) :
    Except BadPointer (Bool × SwappyVk) := do
  let p := s.perDeviceImplementation.getD device none
  let s := { s with
    perSwapchainImplementation := s.perSwapchainImplementation.insert swapchain p }
  let (i, impl) ← s.deref p
  let (result, impl) := impl.doGetRefreshCycleDuration driverOk
  .ok (result, { s with implementations := s.implementations.set i impl })

/-- `GetRefreshCycleDuration`: a device that was not seen gets an implementation. -/
def getRefreshCycleDuration (physicalDevice : VkPhysicalDevice) (device : VkDevice)
    (swapchain : VkSwapchainKHR) (dlopen enabled driverOk : Bool) :
    Except BadPointer (Bool × SwappyVk) :=
  match s.deviceImplementation device with
  | (some _, s) => s.cacheSwapchain device swapchain driverOk
  | (none, s) =>
    -- We have not seen this device yet.
    let s := { s with libVulkan := s.libVulkan || dlopen }
    if s.libVulkan = false then .ok (false, s)
    else (s.makeImplementation physicalDevice device enabled).cacheSwapchain device swapchain
      driverOk

/-- `doSetSwapInterval` writes the settings, and nothing of the implementation. -/
def setSwapIntervalNS (device : VkDevice) : Except BadPointer SwappyVk :=
  match s.deviceImplementation device with
  | (none, s) => .ok s
  | (p, s) => do
    let _ ← s.deref p
    .ok s

/-- The result of a query that has more to return. -/
def vkIncomplete : Int32 := 5

/-- What is returned without an implementation. -/
def vkErrorDeviceLost : Int32 := -4

/-- `result` is what the implementation returns. -/
def queuePresent (queue : VkQueue) (swapchains : List VkSwapchainKHR) (result : Int32) :
    Except BadPointer (Int32 × SwappyVk) :=
  if s.perQueueFamilyIndex.contains queue = false then .ok (vkIncomplete, s)
  else
    match swapchains with
    | [] => .ok (vkErrorDeviceLost, s)
    | swapchain :: _ =>
      match s.swapchainImplementation swapchain with
      | (none, s) => .ok (vkErrorDeviceLost, s)
      | (p, s) => do
        let _ ← s.deref p
        .ok (result, s)

/-- `DestroySwapchain`: the entries of the device and of the swapchain are null. -/
def destroySwapchain (device : VkDevice) (swapchain : VkSwapchainKHR) : SwappyVk :=
  { s with
    perQueueFamilyIndex := s.perQueueFamilyIndex.filter fun _ index => index.device ≠ device
    perDeviceImplementation := s.perDeviceImplementation.insert device none
    perSwapchainImplementation := s.perSwapchainImplementation.insert swapchain none }

/-- A loop over the entries of a map, with a call through each pointer. -/
def forEach (entries : List (UInt64 × ImplPointer)) (f : VkImplementation → VkImplementation) :
    Except BadPointer SwappyVk :=
  entries.foldlM (fun s entry => s.modify entry.2 f) s

/-- `SetAutoSwapInterval`, for all swapchains. -/
def setAutoSwapInterval (enabled : Bool) :=
  s.forEach s.perSwapchainImplementation.toList (·.setAutoSwapInterval enabled)

/-- `SetAutoPipelineMode`, for all swapchains. -/
def setAutoPipelineMode (enabled : Bool) :=
  s.forEach s.perSwapchainImplementation.toList (·.setAutoPipelineMode enabled)

/-- `SetMaxAutoSwapIntervalNS`, for all swapchains. -/
def setMaxAutoSwapIntervalNS (maxSwapNS : ℤ) :=
  s.forEach s.perSwapchainImplementation.toList (·.setMaxAutoSwapIntervalNS maxSwapNS)

/-- `SetFenceTimeout`, for all devices. -/
def setFenceTimeout (t : ℤ) :=
  s.forEach s.perDeviceImplementation.toList (·.setFenceTimeout t)

/-- `addTracer`, for all swapchains. -/
def addTracer (t : UInt64) :=
  s.forEach s.perSwapchainImplementation.toList (·.addTracer t)

/-- Of the first device. -/
def getFenceTimeout : Except BadPointer ℤ :=
  match s.perDeviceImplementation.toList with
  | [] => .ok 0
  | (_, p) :: _ => do
    let (_, impl) ← s.deref p
    .ok impl.fenceTimeout

/-- One call. -/
def step : Call → Except BadPointer SwappyVk
  | .determineDeviceExtensions physicalDevice googleDisplayTiming =>
    .ok (s.determineDeviceExtensions physicalDevice googleDisplayTiming)
  | .setQueueFamilyIndex device queue queueFamilyIndex =>
    .ok (s.setQueueFamilyIndex device queue queueFamilyIndex)
  | .getRefreshCycleDuration physicalDevice device swapchain dlopen enabled driverOk =>
    (s.getRefreshCycleDuration physicalDevice device swapchain dlopen enabled driverOk).map (·.2)
  | .setSwapIntervalNS device _ => s.setSwapIntervalNS device
  | .queuePresent queue swapchains result => (s.queuePresent queue swapchains result).map (·.2)
  | .destroySwapchain device swapchain => .ok (s.destroySwapchain device swapchain)
  | .setAutoSwapInterval enabled => s.setAutoSwapInterval enabled
  | .setAutoPipelineMode enabled => s.setAutoPipelineMode enabled
  | .setMaxAutoSwapIntervalNS maxSwapNS => s.setMaxAutoSwapIntervalNS maxSwapNS
  | .setFenceTimeout t => s.setFenceTimeout t
  | .getFenceTimeout => s.getFenceTimeout.map fun _ => s
  | .addTracer t => s.addTracer t

end SwappyVk

/-! ## Handles

What is known of a device or a swapchain, and how the calls change it.
-/

/-- What has become of a handle. -/
inductive HandleStatus where
  | unseen
  /-- it has no implementation, or none any more -/
  | bare
  | implemented
  deriving DecidableEq, Repr

namespace HandleStatus

/-- A handle that is looked up. -/
def see : HandleStatus → HandleStatus
  | unseen => bare
  | st => st

/-- What an entry of a map says of its handle. -/
def ofEntry : Option ImplPointer → HandleStatus
  | none => unseen
  | some none => bare
  | some (some _) => implemented

end HandleStatus

/-- The handles after some calls. -/
@[ext]
structure Registry where
  /-- `dlopen` has succeeded -/
  libVulkan : Bool
  /-- the device that a queue was set for, and that has not been destroyed since -/
  queueDevice : VkQueue → Option VkDevice
  device : VkDevice → HandleStatus
  swapchain : VkSwapchainKHR → HandleStatus

namespace Registry

/-- No handle has been seen. -/
def new : Registry := ⟨false, fun _ => none, fun _ => .unseen, fun _ => .unseen⟩

variable (r : Registry)

open SwappyVk (Call)

/-- What a call does to the handles. -/
def after : Call → Registry
  | .setQueueFamilyIndex device queue _ =>
    { r with queueDevice := Function.update r.queueDevice queue (some device) }
  | .getRefreshCycleDuration _ device swapchain dlopen _ _ =>
    if r.device device = .implemented ∨ (r.libVulkan || dlopen) = true then
      { r with
        libVulkan := r.libVulkan || dlopen
        device := Function.update r.device device .implemented
        swapchain := Function.update r.swapchain swapchain .implemented }
    else { r with device := Function.update r.device device .bare }
  | .setSwapIntervalNS device _ =>
    { r with device := Function.update r.device device (r.device device).see }
  | .queuePresent queue swapchains _ =>
    match r.queueDevice queue, swapchains with
    | some _, swapchain :: _ =>
      { r with
        swapchain := Function.update r.swapchain swapchain (r.swapchain swapchain).see }
    | _, _ => r
  | .destroySwapchain device swapchain =>
    { r with
      queueDevice := fun queue => (r.queueDevice queue).filter (· ≠ device)
      device := Function.update r.device device .bare
      swapchain := Function.update r.swapchain swapchain .bare }
  | _ => r

/-- The condition on a call for all handles: each that has been seen is implemented. Only
the first device is asked for the fence timeout. -/
def CallOk : Call → Prop
  | .setAutoSwapInterval _ | .setAutoPipelineMode _ | .setMaxAutoSwapIntervalNS _ | .addTracer _ =>
    ∀ swapchain, r.swapchain swapchain ≠ .bare
  | .setFenceTimeout _ => ∀ device, r.device device ≠ .bare
  | .getFenceTimeout =>
    ∀ device, (∀ device' < device, r.device device' = .unseen) → r.device device ≠ .bare
  | _ => True

end Registry

/-! ## Entries of a map

What the operations of `std::map` do to one entry.
-/

namespace HandleStatus

theorem ofEntry_eq_unseen {entry : Option ImplPointer} :
    ofEntry entry = .unseen ↔ entry = none := by
  rcases entry with _ | _ | i <;> simp [ofEntry]

theorem ofEntry_eq_bare {entry : Option ImplPointer} :
    ofEntry entry = .bare ↔ entry = some none := by
  rcases entry with _ | _ | i <;> simp [ofEntry]

theorem see_of_ne_implemented {st : HandleStatus} (h : st ≠ .implemented) : st.see = .bare := by
  cases st with
  | unseen => rfl
  | bare => rfl
  | implemented => exact absurd rfl h

theorem ofEntry_insert (m : Std.TreeMap UInt64 ImplPointer) (k : UInt64) (p : ImplPointer) :
    (fun k' => ofEntry (m.insert k p)[k']?) =
      Function.update (fun k' => ofEntry m[k']?) k (ofEntry (some p)) := by
  funext k'
  rw [Std.TreeMap.getElem?_insert, Function.update_apply]
  by_cases hk : k' = k
  · simp [hk]
  · simp [hk, Ne.symm hk]

theorem ofEntry_insertIfNew (m : Std.TreeMap UInt64 ImplPointer) (k : UInt64) :
    (fun k' => ofEntry (m.insertIfNew k none)[k']?) =
      Function.update (fun k' => ofEntry m[k']?) k (ofEntry m[k]?).see := by
  funext k'
  rw [Std.TreeMap.getElem?_insertIfNew, Function.update_apply]
  by_cases hk : k' = k
  · subst hk
    rcases hget : m[k']? with _ | _ | i <;>
      simp [Std.TreeMap.mem_iff_isSome_getElem?, hget, ofEntry, see]
  · simp [hk, Ne.symm hk]

end HandleStatus

namespace SwappyVk

/-! ### Maps and registry

The registry says of each handle whether it was seen and whether it has an implementation; an entry
of the map with a null pointer is a handle that was seen only.
-/

/-- The entries of the maps say what the registry says, and their pointers are to
implementations that are there. -/
structure Represents (s : SwappyVk) (r : Registry) : Prop where
  libVulkan : s.libVulkan = r.libVulkan
  queue : ∀ queue, s.perQueueFamilyIndex[queue]?.map (·.device) = r.queueDevice queue
  device : (fun device => HandleStatus.ofEntry s.perDeviceImplementation[device]?) = r.device
  swapchain :
    (fun swapchain => HandleStatus.ofEntry s.perSwapchainImplementation[swapchain]?) = r.swapchain
  deviceLive : ∀ (device : VkDevice) i, s.perDeviceImplementation[device]? = some (some i) →
    i < s.implementations.length
  swapchainLive : ∀ (swapchain : VkSwapchainKHR) i,
    s.perSwapchainImplementation[swapchain]? = some (some i) → i < s.implementations.length
  /-- libvulkan was loaded for the first implementation -/
  loaded : ∀ device, r.device device = .implemented → r.libVulkan = true

theorem represents_new : Represents new Registry.new := by
  refine ⟨rfl, fun queue => ?_, ?_, ?_, fun device i h => ?_, fun swapchain i h => ?_,
    fun device h => ?_⟩
  · simp [new, Registry.new]
  · simp [new, Registry.new, HandleStatus.ofEntry]
  · simp [new, Registry.new, HandleStatus.ofEntry]
  · simp [new] at h
  · simp [new] at h
  · simp [Registry.new] at h

variable {s s' : SwappyVk} {r : Registry}

/-- A pointer can be used if its implementation is there. -/
theorem deref_of_lt {i : ℕ} (hi : i < s.implementations.length) :
    s.deref (some i) = .ok (i, s.implementations[i]) := by
  simp only [deref, List.getElem?_eq_getElem hi]

theorem modify_eq_ok {p : ImplPointer} {f : VkImplementation → VkImplementation}
    (h : s.modify p f = .ok s') : p ≠ none := by
  rintro rfl
  cases h

theorem modify_of_lt {i : ℕ} (hi : i < s.implementations.length)
    (f : VkImplementation → VkImplementation) :
    s.modify (some i) f =
      .ok { s with implementations := s.implementations.set i (f s.implementations[i]) } := by
  rw [modify, deref_of_lt hi]
  rfl

/-- A loop comes to its end if all pointers can be used, and changes implementations. -/
theorem forEach_of_live {entries : List (UInt64 × ImplPointer)}
    {f : VkImplementation → VkImplementation}
    (h : ∀ entry ∈ entries, ∃ i < s.implementations.length, entry.2 = some i) :
    ∃ implementations, implementations.length = s.implementations.length ∧
      s.forEach entries f = .ok { s with implementations } := by
  induction entries generalizing s with
  | nil => exact ⟨s.implementations, rfl, rfl⟩
  | cons entry entries ih =>
    obtain ⟨⟨i, hi, hp⟩, htail⟩ := List.forall_mem_cons.mp h
    obtain ⟨implementations, hlen, hok⟩ := ih
      (s := { s with implementations := s.implementations.set i (f s.implementations[i]) })
      (by simpa using htail)
    refine ⟨implementations, hlen.trans (List.length_set ..), ?_⟩
    rw [forEach, List.foldlM_cons, hp, modify_of_lt hi]
    exact hok

/-- It does not if one of them is null. -/
theorem ne_none_of_forEach {entries : List (UInt64 × ImplPointer)}
    {f : VkImplementation → VkImplementation} (h : s.forEach entries f = .ok s') :
    ∀ entry ∈ entries, entry.2 ≠ none := by
  induction entries generalizing s with
  | nil => simp
  | cons entry entries ih =>
    rw [forEach, List.foldlM_cons] at h
    rcases hmod : s.modify entry.2 f with e | s₁
    · rw [hmod] at h
      cases h
    · rw [hmod] at h
      exact List.forall_mem_cons.mpr ⟨modify_eq_ok hmod, ih h⟩

/-- Other implementations, as many as before or more. -/
theorem Represents.setImplementations (h : Represents s r) {implementations : List VkImplementation}
    (hlen : s.implementations.length ≤ implementations.length) :
    Represents { s with implementations } r where
  libVulkan := h.libVulkan
  queue := h.queue
  device := h.device
  swapchain := h.swapchain
  deviceLive device i hi := Nat.lt_of_lt_of_le (h.deviceLive device i hi) hlen
  swapchainLive swapchain i hi := Nat.lt_of_lt_of_le (h.swapchainLive swapchain i hi) hlen
  loaded := h.loaded

/-- A map whose pointers are to implementations that are there, without a null pointer. -/
theorem live_of_ne_bare {m : Std.TreeMap UInt64 ImplPointer} {n : ℕ}
    (hlive : ∀ (k : UInt64) i, m[k]? = some (some i) → i < n)
    (hbare : ∀ k : UInt64, HandleStatus.ofEntry m[k]? ≠ .bare) :
    ∀ entry ∈ m.toList, ∃ i < n, entry.2 = some i := by
  rintro ⟨k, p⟩ hmem
  rw [Std.TreeMap.mem_toList_iff_getElem?_eq_some] at hmem
  cases p with
  | none => exact absurd (congrArg HandleStatus.ofEntry hmem) (hbare k)
  | some i => exact ⟨i, hlive k i hmem, rfl⟩

theorem ne_bare_of_ne_none {m : Std.TreeMap UInt64 ImplPointer}
    (h : ∀ entry ∈ m.toList, entry.2 ≠ none) (k : UInt64) :
    HandleStatus.ofEntry m[k]? ≠ .bare := by
  intro hbare
  have hget := HandleStatus.ofEntry_eq_bare.mp hbare
  exact h (k, none) (Std.TreeMap.mem_toList_iff_getElem?_eq_some.mpr hget) rfl

/-- The list of a map starts with its least key. -/
theorem least_of_toList {m : Std.TreeMap UInt64 ImplPointer} {k : UInt64} {p : ImplPointer}
    {rest : List (UInt64 × ImplPointer)} (hlist : m.toList = (k, p) :: rest) :
    m[k]? = some p ∧ ∀ (k' : UInt64) p', m[k']? = some p' → k' = k ∨ k < k' := by
  have hordered := Std.TreeMap.ordered_keys_toList (t := m)
  rw [hlist, List.pairwise_cons] at hordered
  obtain ⟨hfirst, -⟩ := hordered
  constructor
  · rw [← Std.TreeMap.mem_toList_iff_getElem?_eq_some, hlist]
    exact List.mem_cons_self ..
  · intro k' p' hget
    rw [← Std.TreeMap.mem_toList_iff_getElem?_eq_some, hlist, List.mem_cons] at hget
    exact hget.imp (congrArg Prod.fst)
      fun hrest => compareOfLessAndEq_eq_lt.mp (hfirst _ hrest)

/-- A loop over the swapchains, in terms of their handles. -/
theorem Represents.forEach_swapchain (h : Represents s r)
    (f : VkImplementation → VkImplementation) (hok : ∀ swapchain, r.swapchain swapchain ≠ .bare) :
    ∃ s', s.forEach s.perSwapchainImplementation.toList f = .ok s' ∧ Represents s' r := by
  rw [← h.swapchain] at hok
  obtain ⟨implementations, hlen, heq⟩ := forEach_of_live (f := f)
    (live_of_ne_bare h.swapchainLive hok)
  exact ⟨_, heq, h.setImplementations hlen.ge⟩

theorem Represents.forEach_device (h : Represents s r)
    (f : VkImplementation → VkImplementation) (hok : ∀ device, r.device device ≠ .bare) :
    ∃ s', s.forEach s.perDeviceImplementation.toList f = .ok s' ∧ Represents s' r := by
  rw [← h.device] at hok
  obtain ⟨implementations, hlen, heq⟩ := forEach_of_live (f := f)
    (live_of_ne_bare h.deviceLive hok)
  exact ⟨_, heq, h.setImplementations hlen.ge⟩

/-! ## One handle

One lemma for each call: the maps follow the registry, unless the call uses a null pointer.
-/

/-! ### Looking up

`operator[]` enters a null pointer for what it does not find, which is `insertIfNew` here.
-/

theorem getElem?_insertIfNew_eq_some {m : Std.TreeMap UInt64 ImplPointer} {k k' : UInt64} {i : ℕ} :
    (m.insertIfNew k none)[k']? = some (some i) ↔ m[k']? = some (some i) := by
  rw [Std.TreeMap.getElem?_insertIfNew]
  split
  · next h =>
    obtain ⟨hk, hmem⟩ := h
    obtain rfl := Std.LawfulEqCmp.compare_eq_iff_eq.mp hk
    rw [Std.TreeMap.mem_iff_isSome_getElem?] at hmem
    simpa using fun h => hmem (by simp [h])
  · rfl

theorem getD_eq_some {m : Std.TreeMap UInt64 ImplPointer} {k : UInt64} {i : ℕ} :
    m.getD k none = some i ↔ m[k]? = some (some i) := by
  rw [Std.TreeMap.getD_eq_getD_getElem?]
  rcases m[k]? with _ | p <;> simp

theorem deviceImplementation_eq {device : VkDevice} {p : ImplPointer}
    (hp : s.perDeviceImplementation.getD device none = p) :
    s.deviceImplementation device = (p, (s.deviceImplementation device).2) := Prod.ext hp rfl

theorem swapchainImplementation_eq {swapchain : VkSwapchainKHR} {p : ImplPointer}
    (hp : s.perSwapchainImplementation.getD swapchain none = p) :
    s.swapchainImplementation swapchain = (p, (s.swapchainImplementation swapchain).2) :=
  Prod.ext hp rfl

theorem getD_eq_none {m : Std.TreeMap UInt64 ImplPointer} {k : UInt64} :
    m.getD k none = none ↔ HandleStatus.ofEntry m[k]? ≠ .implemented := by
  rw [Std.TreeMap.getD_eq_getD_getElem?]
  rcases m[k]? with _ | _ | i <;> simp [HandleStatus.ofEntry]

/-! ### The calls

A call looks up, makes an implementation, or goes through all of them. Each lemma is about the maps
after the call and the registry after it.
-/

theorem Represents.seeDevice (h : Represents s r) (device : VkDevice) :
    Represents (s.deviceImplementation device).2
      { r with device := Function.update r.device device (r.device device).see } := by
  refine ⟨h.libVulkan, h.queue, ?_, h.swapchain, fun d i hi => ?_, h.swapchainLive, fun d hd => ?_⟩
  · rw [deviceImplementation, HandleStatus.ofEntry_insertIfNew, h.device, ← h.device]
  · exact h.deviceLive d i (getElem?_insertIfNew_eq_some.mp hi)
  · simp only [Function.update_apply] at hd
    split at hd
    · refine h.loaded device ?_
      rcases hdev : r.device device <;> simp [hdev, HandleStatus.see] at hd ⊢
    · exact h.loaded d hd

theorem Represents.seeSwapchain (h : Represents s r) (swapchain : VkSwapchainKHR) :
    Represents (s.swapchainImplementation swapchain).2
      { r with
        swapchain := Function.update r.swapchain swapchain (r.swapchain swapchain).see } := by
  refine ⟨h.libVulkan, h.queue, h.device, ?_, h.deviceLive, fun sc i hi => ?_, h.loaded⟩
  · rw [swapchainImplementation, HandleStatus.ofEntry_insertIfNew, h.swapchain, ← h.swapchain]
  · exact h.swapchainLive sc i (getElem?_insertIfNew_eq_some.mp hi)

/-- The end of `GetRefreshCycleDuration` implements the swapchain. -/
theorem Represents.cacheSwapchain (h : Represents s r) {device : VkDevice} {i : ℕ}
    (hdevice : s.perDeviceImplementation[device]? = some (some i)) (swapchain : VkSwapchainKHR)
    (driverOk : Bool) :
    ∃ s', (s.cacheSwapchain device swapchain driverOk).map (·.2) = .ok s' ∧
      Represents s' { r with swapchain := Function.update r.swapchain swapchain .implemented } := by
  have hi := h.deviceLive device i hdevice
  have hp : s.perDeviceImplementation.getD device none = some i := getD_eq_some.mpr hdevice
  have hcached : Represents { s with
      perSwapchainImplementation := s.perSwapchainImplementation.insert swapchain (some i) }
      { r with swapchain := Function.update r.swapchain swapchain .implemented } := by
    refine ⟨h.libVulkan, h.queue, h.device, ?_, h.deviceLive, fun sc j hj => ?_, h.loaded⟩
    · rw [HandleStatus.ofEntry_insert, h.swapchain]
      rfl
    · simp only [Std.TreeMap.getElem?_insert] at hj
      split at hj
      · cases hj
        exact hi
      · exact h.swapchainLive sc j hj
  refine ⟨_, ?_, hcached.setImplementations (List.length_set (i := i)
    (a := (s.implementations[i].doGetRefreshCycleDuration driverOk).2)).ge⟩
  have hderef : deref { s with
      perSwapchainImplementation := s.perSwapchainImplementation.insert swapchain (some i) }
      (some i) = .ok (i, s.implementations[i]) := deref_of_lt hi
  rw [SwappyVk.cacheSwapchain, hp]
  simp only [hderef]
  rfl

theorem Represents.makeImplementation (h : Represents s r) (hlib : r.libVulkan = true)
    (physicalDevice : VkPhysicalDevice) (device : VkDevice) (enabled : Bool) :
    Represents (s.makeImplementation physicalDevice device enabled)
      { r with device := Function.update r.device device .implemented } := by
  refine ⟨h.libVulkan, h.queue, ?_, h.swapchain, fun d i hi => ?_, fun sc i hi => ?_,
    fun _ _ => hlib⟩
  · simp only [SwappyVk.makeImplementation]
    rw [HandleStatus.ofEntry_insert, h.device]
    rfl
  · simp only [SwappyVk.makeImplementation, Std.TreeMap.getElem?_insert] at hi ⊢
    rw [List.length_append, List.length_singleton]
    split at hi
    · cases hi
      exact Nat.lt_succ_self _
    · exact Nat.lt_succ_of_lt (h.deviceLive d i hi)
  · simp only [SwappyVk.makeImplementation, List.length_append, List.length_singleton]
    exact Nat.lt_succ_of_lt (h.swapchainLive sc i hi)

theorem Represents.load (h : Represents s r) (dlopen : Bool) :
    Represents { s with libVulkan := s.libVulkan || dlopen }
      { r with libVulkan := r.libVulkan || dlopen } where
  libVulkan := by rw [h.libVulkan]
  queue := h.queue
  device := h.device
  swapchain := h.swapchain
  deviceLive := h.deviceLive
  swapchainLive := h.swapchainLive
  loaded device hdevice := by simp [h.loaded device hdevice]

/-- An implementation is made and cached, once libvulkan is loaded. -/
theorem Represents.implement (h : Represents s r) (hlib : r.libVulkan = true)
    (physicalDevice : VkPhysicalDevice) (device : VkDevice) (swapchain : VkSwapchainKHR)
    (enabled driverOk : Bool) :
    ∃ s', ((s.makeImplementation physicalDevice device enabled).cacheSwapchain device swapchain
        driverOk).map (·.2) = .ok s' ∧
      Represents s' { r with
        device := Function.update r.device device .implemented
        swapchain := Function.update r.swapchain swapchain .implemented } := by
  have hmade :
      (s.makeImplementation physicalDevice device enabled).perDeviceImplementation[device]? =
        some (some s.implementations.length) := Std.TreeMap.getElem?_insert_self
  exact (h.makeImplementation hlib physicalDevice device enabled).cacheSwapchain hmade swapchain
    driverOk

theorem Represents.getRefreshCycleDuration (h : Represents s r) (physicalDevice : VkPhysicalDevice)
    (device : VkDevice) (swapchain : VkSwapchainKHR) (dlopen enabled driverOk : Bool) :
    ∃ s', s.step
          (.getRefreshCycleDuration physicalDevice device swapchain dlopen enabled driverOk) =
        .ok s' ∧
      Represents s' (r.after
        (.getRefreshCycleDuration physicalDevice device swapchain dlopen enabled driverOk)) := by
  have hsee := h.seeDevice device
  rw [step, SwappyVk.getRefreshCycleDuration, Registry.after]
  rcases hp : s.perDeviceImplementation.getD device none with _ | i
  · -- there is none for the device
    have hnot : r.device device ≠ .implemented := by
      rw [← h.device]
      exact getD_eq_none.mp hp
    rw [deviceImplementation_eq hp]
    generalize (s.deviceImplementation device).2 = s₁ at hsee ⊢
    rw [HandleStatus.see_of_ne_implemented hnot] at hsee
    have hload := hsee.load dlopen
    have hlib : (s₁.libVulkan || dlopen) = (r.libVulkan || dlopen) := hload.libVulkan
    simp only [hlib]
    by_cases hloaded : (r.libVulkan || dlopen) = true
    · have himpl := hload.implement hloaded physicalDevice device swapchain enabled driverOk
      simp only [Function.update_idem, hlib] at himpl
      rw [if_neg (by simp [hloaded]), if_pos (Or.inr hloaded)]
      exact himpl
    · -- the device and its null pointer stay behind
      have hfalse := Bool.eq_false_iff.mpr hloaded
      simp only [hlib, hfalse] at hload
      rw [if_pos hfalse, if_neg (by simp [hnot, hfalse])]
      obtain ⟨hold, hdlopen⟩ := Bool.or_eq_false_iff.mp hfalse
      exact ⟨_, rfl, by simpa [hold, hdlopen] using hload⟩
  · have himpl : r.device device = .implemented := by
      rw [← h.device]
      simp only [getD_eq_some.mp hp, HandleStatus.ofEntry]
    have hget : (s.deviceImplementation device).2.perDeviceImplementation[device]? =
        some (some i) := getElem?_insertIfNew_eq_some.mpr (getD_eq_some.mp hp)
    have hcached := hsee.cacheSwapchain hget swapchain driverOk
    rw [himpl, h.loaded device himpl] at hcached
    rw [deviceImplementation_eq hp, if_pos (Or.inl himpl), h.loaded device himpl, Bool.true_or]
    exact hcached

theorem Represents.setQueueFamilyIndex (h : Represents s r) (device : VkDevice) (queue : VkQueue)
    (queueFamilyIndex : UInt32) :
    Represents (s.setQueueFamilyIndex device queue queueFamilyIndex)
      { r with queueDevice := Function.update r.queueDevice queue (some device) } := by
  refine ⟨h.libVulkan, fun q => ?_, h.device, h.swapchain, h.deviceLive, h.swapchainLive, h.loaded⟩
  simp only [SwappyVk.setQueueFamilyIndex, Std.TreeMap.getElem?_insert, Function.update_apply]
  by_cases hq : q = queue
  · simp [hq]
  · simp only [if_neg hq, Std.LawfulEqCmp.compare_eq_iff_eq, if_neg (Ne.symm hq)]
    exact h.queue q

theorem Represents.setSwapIntervalNS (h : Represents s r) (device : VkDevice) :
    ∃ s', s.setSwapIntervalNS device = .ok s' ∧ Represents s'
      { r with device := Function.update r.device device (r.device device).see } := by
  refine ⟨_, ?_, h.seeDevice device⟩
  rw [SwappyVk.setSwapIntervalNS]
  rcases hp : s.perDeviceImplementation.getD device none with _ | i
  · rw [deviceImplementation_eq hp]
  · have hi := h.deviceLive device i (getD_eq_some.mp hp)
    have hderef : deref (s.deviceImplementation device).2 (some i) =
      .ok (i, s.implementations[i]) := deref_of_lt hi
    rw [deviceImplementation_eq hp]
    simp only [hderef]
    rfl

theorem Represents.queuePresent (h : Represents s r) (queue : VkQueue)
    (swapchains : List VkSwapchainKHR) (result : Int32) :
    ∃ s', s.step (.queuePresent queue swapchains result) = .ok s' ∧
      Represents s' (r.after (.queuePresent queue swapchains result)) := by
  unfold step SwappyVk.queuePresent Registry.after
  simp only [← h.queue queue]
  rcases hq : s.perQueueFamilyIndex[queue]? with _ | index
  · have hnot : s.perQueueFamilyIndex.contains queue = false := by
      simp [Std.TreeMap.contains_eq_isSome_getElem?, hq]
    rw [if_pos hnot]
    exact ⟨s, rfl, h⟩
  · have hmem : s.perQueueFamilyIndex.contains queue = true := by
      simp [Std.TreeMap.contains_eq_isSome_getElem?, hq]
    rw [hmem, if_neg (by simp)]
    cases swapchains with
    | nil => exact ⟨s, rfl, h⟩
    | cons swapchain swapchains =>
      refine ⟨_, ?_, h.seeSwapchain swapchain⟩
      rcases hp : s.perSwapchainImplementation.getD swapchain none with _ | i
      · simp only
        rw [swapchainImplementation_eq hp]
        rfl
      · have hi := h.swapchainLive swapchain i (getD_eq_some.mp hp)
        have hderef : deref (s.swapchainImplementation swapchain).2 (some i) =
          .ok (i, s.implementations[i]) := deref_of_lt hi
        simp only
        rw [swapchainImplementation_eq hp]
        simp only [hderef]
        rfl

theorem Represents.destroySwapchain (h : Represents s r) (device : VkDevice)
    (swapchain : VkSwapchainKHR) :
    Represents (s.destroySwapchain device swapchain)
      (r.after (.destroySwapchain device swapchain)) := by
  refine ⟨h.libVulkan, fun q => ?_, ?_, ?_, fun d i hi => ?_, fun sc i hi => ?_, fun d hd => ?_⟩
  · simp only [SwappyVk.destroySwapchain, Registry.after, ← h.queue q]
    rw [Std.TreeMap.getElem?_filter']
    rcases s.perQueueFamilyIndex[q]? with _ | index
    · rfl
    · by_cases hd : index.device = device <;> simp [Option.filter, hd]
  · simp only [SwappyVk.destroySwapchain, Registry.after]
    rw [HandleStatus.ofEntry_insert, h.device]
    rfl
  · simp only [SwappyVk.destroySwapchain, Registry.after]
    rw [HandleStatus.ofEntry_insert, h.swapchain]
    rfl
  · simp only [SwappyVk.destroySwapchain, Std.TreeMap.getElem?_insert] at hi
    split at hi
    · cases hi
    · exact h.deviceLive d i hi
  · simp only [SwappyVk.destroySwapchain, Std.TreeMap.getElem?_insert] at hi
    split at hi
    · cases hi
    · exact h.swapchainLive sc i hi
  · simp only [Registry.after, Function.update_apply] at hd
    split at hd
    · cases hd
    · exact h.loaded d hd

/-- The first entry is that of the least handle. -/
theorem getFenceTimeout_iff (h : Represents s r) :
    (∃ t, s.getFenceTimeout = .ok t) ↔ r.CallOk .getFenceTimeout := by
  change _ ↔ ∀ device, (∀ device' < device, r.device device' = .unseen) → r.device device ≠ .bare
  rw [SwappyVk.getFenceTimeout, ← h.device]
  simp only [HandleStatus.ofEntry_eq_unseen, ne_eq, HandleStatus.ofEntry_eq_bare]
  rcases hlist : s.perDeviceImplementation.toList with _ | ⟨⟨d, p⟩, rest⟩
  · refine iff_of_true ⟨0, rfl⟩ fun d' _ hbare => ?_
    rw [← Std.TreeMap.mem_toList_iff_getElem?_eq_some, hlist] at hbare
    cases hbare
  obtain ⟨hget, hleast⟩ := least_of_toList hlist
  constructor
  · -- a null pointer without a smaller handle is the first entry
    rintro ⟨t, ht⟩ d' hbelow hbare
    rcases hleast d' none hbare with rfl | hlt
    · obtain rfl : p = none := Option.some.inj (hget.symm.trans hbare)
      cases ht
    · rw [hbelow d hlt] at hget
      cases hget
  · intro hok
    have hbelow : ∀ d' < d, s.perDeviceImplementation[d']? = none := by
      intro d' hlt
      by_contra hne
      obtain ⟨p', hget'⟩ := Option.ne_none_iff_exists'.mp hne
      rcases hleast d' p' hget' with rfl | hlt'
      · exact UInt64.lt_irrefl _ hlt
      · exact UInt64.lt_asymm hlt hlt'
    cases p with
    | none => exact absurd hget (hok d hbelow)
    | some i =>
      have hi := h.deviceLive d i hget
      refine ⟨s.implementations[i].fenceTimeout, ?_⟩
      simp only [deref_of_lt hi]
      rfl

/-! ## Runs

A run has no bad pointer as long as each call meets the condition.
-/

/-- A call that the handles allow succeeds, and the registry follows it. -/
theorem Represents.step (h : Represents s r) (c : Call) (hok : r.CallOk c) :
    ∃ s', s.step c = .ok s' ∧ Represents s' (r.after c) := by
  cases c with
  | determineDeviceExtensions physicalDevice googleDisplayTiming =>
    exact ⟨_, rfl, h.libVulkan, h.queue, h.device, h.swapchain, h.deviceLive, h.swapchainLive,
      h.loaded⟩
  | setQueueFamilyIndex device queue queueFamilyIndex =>
    exact ⟨_, rfl, h.setQueueFamilyIndex device queue queueFamilyIndex⟩
  | getRefreshCycleDuration physicalDevice device swapchain dlopen enabled driverOk =>
    exact h.getRefreshCycleDuration physicalDevice device swapchain dlopen enabled driverOk
  | setSwapIntervalNS device swapchain => exact h.setSwapIntervalNS device
  | queuePresent queue swapchains result => exact h.queuePresent queue swapchains result
  | destroySwapchain device swapchain => exact ⟨_, rfl, h.destroySwapchain device swapchain⟩
  | setAutoSwapInterval enabled => exact h.forEach_swapchain _ hok
  | setAutoPipelineMode enabled => exact h.forEach_swapchain _ hok
  | setMaxAutoSwapIntervalNS maxSwapNS => exact h.forEach_swapchain _ hok
  | setFenceTimeout t => exact h.forEach_device _ hok
  | getFenceTimeout =>
    obtain ⟨t, ht⟩ := (getFenceTimeout_iff h).mpr hok
    exact ⟨s, Checked.map_eq_ok.mpr ⟨t, ht, rfl⟩, h⟩
  | addTracer t => exact h.forEach_swapchain _ hok

theorem Represents.callOk (h : Represents s r) {c : Call} (hstep : s.step c = .ok s') :
    r.CallOk c := by
  have hswapchain {f : VkImplementation → VkImplementation}
      (hloop : s.forEach s.perSwapchainImplementation.toList f = .ok s') :
      ∀ swapchain, r.swapchain swapchain ≠ .bare := by
    rw [← h.swapchain]
    exact ne_bare_of_ne_none (ne_none_of_forEach hloop)
  cases c with
  | setAutoSwapInterval enabled => exact hswapchain hstep
  | setAutoPipelineMode enabled => exact hswapchain hstep
  | setMaxAutoSwapIntervalNS maxSwapNS => exact hswapchain hstep
  | addTracer t => exact hswapchain hstep
  | setFenceTimeout t =>
    change ∀ device, r.device device ≠ .bare
    rw [← h.device]
    exact ne_bare_of_ne_none (ne_none_of_forEach hstep)
  | getFenceTimeout =>
    obtain ⟨t, ht, -⟩ := Checked.map_eq_ok.mp hstep
    exact (getFenceTimeout_iff h).mp ⟨t, ht⟩
  | determineDeviceExtensions => trivial
  | setQueueFamilyIndex => trivial
  | getRefreshCycleDuration => trivial
  | setSwapIntervalNS => trivial
  | queuePresent => trivial
  | destroySwapchain => trivial

/-- **No call uses a null pointer exactly when the calls for all handles find every handle
that has been seen implemented.** -/
theorem succeeds_iff_callOk (calls : List Call) :
    (∃ s, Runs.runChecked SwappyVk.step new calls = .ok s) ↔
      Runs.StepsOk Registry.after Registry.CallOk Registry.new calls :=
  Runs.exists_runChecked_iff (fun _ _ c h hok => h.step c hok) (fun _ _ _ _ h => h.callOk)
    represents_new calls

/-- A swapchain is destroyed, and the swap interval set for all of them. -/
theorem not_succeeds_destroyed : Runs.runChecked SwappyVk.step new
    [.setQueueFamilyIndex 1 2 0, .getRefreshCycleDuration 7 1 3 true true true,
      .destroySwapchain 1 3, .setAutoSwapInterval true] = .error .null := by
  have hrun : (Runs.runChecked SwappyVk.step new
      [.setQueueFamilyIndex 1 2 0, .getRefreshCycleDuration 7 1 3 true true true,
        .destroySwapchain 1 3, .setAutoSwapInterval true]).map (fun s => s.implementations) =
      .error .null := by
    decide +kernel
  rcases h : Runs.runChecked SwappyVk.step new
      [.setQueueFamilyIndex 1 2 0, .getRefreshCycleDuration 7 1 3 true true true,
        .destroySwapchain 1 3, .setAutoSwapInterval true] with e | s
  · rw [h] at hrun
    exact congrArg _ (Except.error.inj hrun)
  · rw [h] at hrun
    cases hrun

end SwappyVk

end GameSdk
