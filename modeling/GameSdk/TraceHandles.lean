import GameSdk.SwappyTraces

/-!
# The handles of traces (`tuningfork.cpp`)

The handle of a trace is the number of the prong for its key, under the annotation that is set
when it starts. While the trace is live, another key or another annotation leads to another
number. The same key under the same annotation leads to the same one, and the trace that is
started then takes the place of the first.

The ghost `live` lists the traces that were started and not ended. A start is right if it does not
take the place of a live trace, and the invariant says that a live trace is where its handle says.

The condition is on a start: there is no live trace of the same key under the same annotation. Ends
need none. The slots of `live_traces_` are compared with the list of live traces, where a slot
without one has the smallest time there is.
-/

namespace GameSdk

/-- A trace of the game: what it is for, and when it started. -/
structure LiveTrace where
  handle : TraceHandle
  origin : Origin
  startNs : TimePoint
  deriving DecidableEq, Repr

/-- The tuning fork, and the traces that are live. -/
structure TraceHandles where
  impl : TuningForkImpl
  /-- ghost: the traces that were started and not ended, the last one for each handle -/
  live : List LiveTrace

namespace TraceHandles

/-- No trace is live. -/
def start (s : TuningForkImpl) : TraceHandles := ⟨s, []⟩

variable (sqrt : ℚ → ℚ) (t : TraceHandles)

/-- A start, which may take the place of another trace. -/
def startTrace (key : InstrumentationKey) (now : TimePoint) :
    Except (Fault Vec) TraceHandles := do
  match ← t.impl.startTrace key now with
  | (_, none, impl) => .ok { t with impl }
  | (_, some handle, impl) =>
    .ok ⟨impl, ⟨handle, ⟨key, t.impl.currentAnnotationId⟩, now⟩ ::
      t.live.filter fun l => l.handle ≠ handle⟩

/-- An end, after which the handle is free. -/
def endTrace (h : TraceHandle) (now : TimePoint) : Except (Fault Vec) TraceHandles := do
  let (_, impl) ← t.impl.endTrace sqrt h now
  .ok ⟨impl, t.live.filter fun l => l.handle ≠ h⟩

/-- The steps of the tuning fork, with the traces. -/
def step : Event → Except (Fault Vec) TraceHandles
  | .call (.startTrace key now) => t.startTrace key now
  | .call (.endTrace h now) => t.endTrace sqrt h now
  | e => (t.impl.step sqrt e).map fun impl => { t with impl }

/-! ### What a trace should do

A start should get a slot for itself, and an end should add the duration since the start to the
prong of the trace.
-/

/-- No live trace has the handle. -/
def Dead (h : TraceHandle) : Prop := ∀ l ∈ t.live, l.handle ≠ h

/-- **What handles are for**: a trace that starts gets one that no live trace has. At its end
its sample, the time since the start, is added for its key under its annotation. A handle that
is not live is refused, and nothing happens. -/
structure Serves (e : Event) (t' : TraceHandles) : Prop where
  start : ∀ key now handle s', e = .call (.startTrace key now) →
    t.impl.startTrace key now = .ok (.ok, some handle, s') → t.Dead handle
  finish : ∀ h now l, e = .call (.endTrace h now) → l ∈ t.live → l.handle = h →
    t.impl.endTrace sqrt h now = .ok (.ok, t'.impl) ∧ t.impl.AddsSample t'.impl l.origin ∧
      ∃ d, t'.impl.added = t.impl.added ++ [(h.toNat, d)] ∧
        d.ms = ((now - l.startNs : ℤ) : ℚ) / 1000000
  refuse : ∀ h now, e = .call (.endTrace h now) → t.Dead h →
    t.impl.endTrace sqrt h now = .ok (.invalidTraceHandle, t.impl)

/-- The clock does not read the time that stands for none, and annotations are valid: their
ids do not wrap, unless they are refused. -/
def Allowed : Event → Prop
  | .call (.startTrace _ now) => now ≠ TimePoint.min
  | .call <| Call.setCurrentAnnotation ann =>
    let id := decodeAnnotationSerialization ann t.impl.annotationRadixMult
    id = kAnnotationError ∨
      (id.toNat + 1) * t.impl.settings.maxInstrumentationKeys.toNat ≤ 2 ^ 64
  | _ => True

/-- The condition on a trace that starts: no live one is for its key under the annotation that
is set. -/
def StartOk : Event → Prop
  | .call (.startTrace key _) => ∀ l ∈ t.live, l.origin ≠ ⟨key, t.impl.currentAnnotationId⟩
  | _ => True

instance (t : TraceHandles) : (e : Event) → Decidable (t.Allowed e)
  | .call (.startTrace _ _) => inferInstanceAs (Decidable (_ ≠ _))
  | .call <| Call.setCurrentAnnotation _ => inferInstanceAs (Decidable (_ ∨ _))
  | .call (.endTrace _ _) | .call (.frameTick _ _) | .call (.frameDeltaTimeNanos _ _ _)
  | .call (.flush _) | .upload _ => inferInstanceAs (Decidable True)

instance (t : TraceHandles) : (e : Event) → Decidable (t.StartOk e)
  | .call (.startTrace _ _) => inferInstanceAs (Decidable (∀ _ ∈ _, _))
  | .call <| Call.setCurrentAnnotation _ | .call (.endTrace _ _) | .call (.frameTick _ _)
  | .call (.frameDeltaTimeNanos _ _ _) | .call (.flush _) | .upload _ =>
    inferInstanceAs (Decidable True)

variable {sqrt} {t} {t' : TraceHandles}

/-- The steps are those of the tuning fork. -/
theorem implStep {e : Event} (h : t.step sqrt e = .ok t') : t.impl.step sqrt e = .ok t'.impl := by
  have hother (h : (t.impl.step sqrt e).map (fun impl => { t with impl }) = .ok t') :
      t.impl.step sqrt e = .ok t'.impl := by
    obtain ⟨s, hs, rfl⟩ := Checked.map_eq_ok.mp h
    exact hs
  cases e with
  | call c =>
    cases c with
    | startTrace key now =>
      obtain ⟨⟨err, r, s⟩, hs, h⟩ := Checked.bind_eq_ok.mp h
      refine Checked.map_eq_ok.mpr ⟨_, hs, ?_⟩
      cases r <;> cases h <;> rfl
    | endTrace handle now =>
      obtain ⟨⟨err, s⟩, hs, h⟩ := Checked.bind_eq_ok.mp h
      cases h
      exact Checked.map_eq_ok.mpr ⟨_, hs, rfl⟩
    | _ => exact hother h
  | upload v => exact hother h

end TraceHandles

/-! ## Starting and ending

What the two calls do to `live_traces_`.
-/

namespace TuningForkImpl

variable {sqrt : ℚ → ℚ} {s s' : TuningForkImpl}

/-- A trace for a key with an index gets the number of the prong, whatever is there. -/
theorem startTrace_of_keyIndex (hwf : s.keys.Wf) {key : InstrumentationKey} {j : ℕ}
    (hj : s.keys.keyIndex key = some j)
    (hlt : (UInt64.ofNat j + s.currentAnnotationId).toNat < s.liveTraces.length)
    (now : TimePoint) :
    ∃ s', s.startTrace key now = .ok (.ok, some (UInt64.ofNat j + s.currentAnnotationId), s') := by
  have hused := (InstrumentKeys.keyIndex_eq_some_iff hwf).mp hj
  have hkeys : s.keys.getOrCreateInstrumentKeyIndex key = .ok (some j, s.keys) := by
    rcases InstrumentKeys.getOrCreate_cases hwf key with
      ⟨i, hi, hget, heq⟩ | ⟨hnew, -, -⟩ | ⟨hnew, -, -⟩
    · rwa [hwf.inj j hused.1 i hi (hused.2.trans hget.symm)]
    · exact absurd hused.2 (hnew j hused.1)
    · exact absurd hused.2 (hnew j hused.1)
  have hid : s.makeCompoundId key s.currentAnnotationId =
      .ok (some (UInt64.ofNat j + s.currentAnnotationId), s) := by
    rw [makeCompoundId, hkeys, Checked.ok_bind]
  refine ⟨{ s with
    liveTraces := s.liveTraces.set (UInt64.ofNat j + s.currentAnnotationId).toNat now }, ?_⟩
  rw [startTrace, hid, Checked.ok_bind]
  simp only [Checked.write_of_lt hlt, Checked.ok_bind]

/-- Where no trace is live there is nothing to end. -/
theorem endTrace_of_dead {h : TraceHandle}
    (hdead : ∀ x, s.liveTraces[h.toNat]? = some x → x = TimePoint.min) (now : TimePoint) :
    s.endTrace sqrt h now = .ok (.invalidTraceHandle, s) := by
  rw [endTrace]
  split
  · rfl
  · next hlt =>
    have hget := List.getElem?_eq_getElem (not_le.mp hlt)
    rw [Checked.read_eq_ok_iff.mpr hget, Checked.ok_bind, hdead _ hget]
    exact if_neg (not_not.mpr rfl)

/-- What a flush leaves of the keys and the annotation. -/
theorem sameId_checkForSubmit {due : Option TimePoint} {err : TFErrorCode}
    (h : s.checkForSubmit due = .ok (err, s')) :
    s'.currentAnnotationId = s.currentAnnotationId ∧ s'.settings = s.settings := by
  refine flush_preserves (P := fun t => t.currentAnnotationId = s.currentAnnotationId ∧
    t.settings = s.settings) (fun s₁ s₂ h hprepare => ?_) (fun _ _ h _ => h) (fun _ _ h _ => h)
    ⟨rfl, rfl⟩ h
  obtain ⟨cache, -, rfl⟩ := prepareFlush_eq_ok hprepare
  exact h

/-- A call sets a good annotation id, or none. -/
theorem goodId_of_call (hwf : s.keys.Wf) {k : ℕ}
    (hk : k = s.settings.maxInstrumentationKeys.toNat) (hgood : GoodId k s.currentAnnotationId)
    {c : Call} (hok : ∀ ann, c = Call.setCurrentAnnotation ann →
      GameSdk.decodeAnnotationSerialization ann s.annotationRadixMult = kAnnotationError ∨
        ((GameSdk.decodeAnnotationSerialization ann s.annotationRadixMult).toNat + 1) *
          s.settings.maxInstrumentationKeys.toNat ≤ 2 ^ 64) (h : s.call sqrt c = .ok s') :
    GoodId k s'.currentAnnotationId := by
  obtain ⟨due, s₁, err, hbody, hflush⟩ := call_eq_ok h
  rw [(sameId_checkForSubmit hflush).1]
  subst hk
  exact goodId_of_callBody hwf rfl hgood hok hbody

end TuningForkImpl

/-- Good annotation ids keep the numbers of prongs apart. -/
theorem Origin.LandsIn.inj_of_goodId {t : InstrumentKeys} (hwf : t.Wf) {i : ℕ} (hi : i < 2 ^ 32)
    {o o' : Origin} (h : o.LandsIn t i) (hgood : GoodId t.ikeys.length o.annotationId)
    (h' : o'.LandsIn t i) (hgood' : GoodId t.ikeys.length o'.annotationId) : o = o' := by
  obtain ⟨j, hj, hsum⟩ := h
  obtain ⟨j', hj', hsum'⟩ := h'
  have hindex {key : InstrumentationKey} {j : ℕ} (hj : t.keyIndex key = some j) :
      j < t.ikeys.length :=
    Nat.lt_of_lt_of_le ((InstrumentKeys.keyIndex_eq_some_iff hwf).mp hj).1 hwf.nextIkey_le
  obtain ⟨rfl, hid⟩ := goodId_inj hgood hgood' (hindex hj) (hindex hj')
    (UInt64.toNat_inj.mp (hsum.trans hsum'.symm)) (hsum.symm ▸ hi)
  exact Origin.ext (InstrumentKeys.keyIndex_inj hwf hj hj') hid

namespace TraceHandles

variable {sqrt : ℚ → ℚ} {t t' : TraceHandles}

/-! ## The invariant

A live trace holds its slot, and all other slots are free.
-/

/-- A live trace is at the number of its prong. -/
structure Held (s : TuningForkImpl) (l : LiveTrace) : Prop where
  landsIn : l.origin.LandsIn s.keys l.handle.toNat
  goodId : GoodId s.keys.ikeys.length l.origin.annotationId
  live : s.liveTraces[l.handle.toNat]? = some l.startNs
  startNs_ne : l.startNs ≠ TimePoint.min

/-- What holds of the live traces. -/
structure Inv (t : TraceHandles) : Prop where
  laidOut : t.impl.LaidOut
  small : t.impl.liveTraces.length < 2 ^ 32
  goodId : GoodId t.impl.keys.ikeys.length t.impl.currentAnnotationId
  held : ∀ l ∈ t.live, Held t.impl l
  dead : ∀ h, t.Dead h → ∀ x, t.impl.liveTraces[h.toNat]? = some x → x = TimePoint.min

/-! ### What keeps it

Calls that start and end no trace leave the slots alone; a start takes one, and an end gives it
back.
-/

/-- What leaves the traces alone leaves a live one where it is. -/
theorem Held.sameTraces {s s' : TuningForkImpl} {l : LiveTrace} (h : Held s l) (hs : s.LaidOut)
    (hs' : s'.LaidOut) (hsame : TuningForkImpl.SameTraces s s') : Held s' l where
  landsIn := h.landsIn.extends hs.keys hs'.keys hsame.keys
  goodId := hsame.keys.length_eq.symm ▸ h.goodId
  live := hsame.liveTraces.symm ▸ h.live
  startNs_ne := h.startNs_ne

/-- Setting the time of another handle. -/
theorem Held.setLiveTraces {s : TuningForkImpl} {l : LiveTrace} (h : Held s l) {id : TraceHandle}
    (hne : l.handle ≠ id) (x : TimePoint) :
    Held { s with liveTraces := s.liveTraces.set id.toNat x } l where
  landsIn := h.landsIn
  goodId := h.goodId
  live := by
    have hne' : id.toNat ≠ l.handle.toNat := fun heq => hne (UInt64.toNat_inj.mp heq).symm
    exact (List.getElem?_set_ne hne').trans h.live
  startNs_ne := h.startNs_ne

theorem mem_filter_handle {live : List LiveTrace} {l : LiveTrace} {h : TraceHandle} :
    l ∈ live.filter (fun l => l.handle ≠ h) ↔ l ∈ live ∧ l.handle ≠ h := by
  rw [List.mem_filter, decide_eq_true_iff]

theorem inv_startTrace (hinv : t.Inv) {key : InstrumentationKey} {now : TimePoint}
    (hnow : now ≠ TimePoint.min) (h : t.startTrace key now = .ok t') : t'.Inv := by
  have hlaid := hinv.laidOut
  obtain ⟨⟨err, r, s⟩, hstart, h⟩ := Checked.bind_eq_ok.mp h
  obtain ⟨r, keys, hkeys, hr, ⟨rfl, rfl⟩ | ⟨handle, rfl, rfl⟩⟩ :=
    TuningForkImpl.startTrace_eq_ok hstart
  · cases h
    obtain ⟨-, hext, -⟩ := InstrumentKeys.getOrCreate_eq_ok hlaid.keys hkeys
    have hkeyed := hlaid.setKeys hkeys
    refine ⟨hkeyed, hinv.small, hext.length_eq.symm ▸ hinv.goodId, fun l hl => ?_, hinv.dead⟩
    exact (hinv.held l hl).sameTraces hlaid hkeyed ⟨hext, rfl⟩
  · cases h
    obtain ⟨i, rfl, rfl⟩ := Option.map_eq_some_iff.mp hr.symm
    obtain ⟨-, hext, -⟩ := InstrumentKeys.getOrCreate_eq_ok hlaid.keys hkeys
    have hkeyed := hlaid.setKeys hkeys
    have hlt := TuningForkImpl.handleOk_step t.impl (.call (.startTrace key now)) t.impl key now
      err _ _ rfl hstart
    have hgood : GoodId keys.ikeys.length t.impl.currentAnnotationId :=
      hext.length_eq.symm ▸ hinv.goodId
    refine ⟨hkeyed.setLiveTraces _ now, (List.length_set ..).trans_lt hinv.small, hgood,
      fun l hl => ?_, fun h hdead x hx => ?_⟩
    · rcases List.mem_cons.mp hl with rfl | hl
      · refine ⟨⟨i, ?_, rfl⟩, hgood, List.getElem?_set_self hlt, hnow⟩
        exact (InstrumentKeys.keyIndex_getOrCreate hlaid.keys hkeys).1
      · obtain ⟨hl, hne⟩ := mem_filter_handle.mp hl
        exact ((hinv.held l hl).sameTraces hlaid hkeyed ⟨hext, rfl⟩).setLiveTraces hne now
    · -- the other handles are dead that were dead
      have hne := hdead _ (List.mem_cons_self ..)
      have hne' := fun heq => hne (UInt64.toNat_inj.mp heq)
      rw [List.getElem?_set_ne hne'] at hx
      refine hinv.dead h (fun l hl heq => ?_) x hx
      refine hdead l (List.mem_cons_of_mem _ (mem_filter_handle.mpr ⟨hl, ?_⟩)) heq
      exact fun hsame => hne (hsame.symm.trans heq)

/-- The end of a live trace. -/
theorem Inv.endTrace_of_live (hinv : t.Inv) {l : LiveTrace} (hl : l ∈ t.live) {now : TimePoint}
    (h : t.endTrace sqrt l.handle now = .ok t') :
    ∃ p p', t.impl.current.prongs[l.handle.toNat]? = some p ∧
      p'.histogram.recorded = p.histogram.recorded ++
        [Prong.sample (now - l.startNs) t.impl.added.length] ∧ p'.histogram.Wf ∧
      t.impl.endTrace sqrt l.handle now = .ok (.ok, t'.impl) ∧
      t'.impl = { t.impl.putProng l.handle p'
          [Prong.sample (now - l.startNs) t.impl.added.length] with
        liveTraces := t.impl.liveTraces.set l.handle.toNat TimePoint.min } := by
  obtain ⟨-, -, hlive, hmin⟩ := hinv.held l hl
  obtain ⟨r, hend, h⟩ := Checked.bind_eq_ok.mp h
  cases h
  obtain ⟨p, p', hp, hwf, hrecorded, rfl⟩ := hinv.laidOut.endTrace_eq_ok hlive hmin hend
  exact ⟨p, p', hp, hrecorded, hwf, hend, rfl⟩

theorem Inv.endTrace_of_dead (hinv : t.Inv) {h : TraceHandle} (hdead : t.Dead h)
    (now : TimePoint) : t.impl.endTrace sqrt h now = .ok (.invalidTraceHandle, t.impl) :=
  TuningForkImpl.endTrace_of_dead (hinv.dead h hdead) now

theorem inv_endTrace (hinv : t.Inv) {h : TraceHandle} {now : TimePoint}
    (hend : t.endTrace sqrt h now = .ok t') : t'.Inv := by
  by_cases hdead : t.Dead h
  · have hsame : t' = t := by
      rw [endTrace, hinv.endTrace_of_dead hdead, Checked.ok_bind, Except.ok.injEq] at hend
      have hlive : (t.live.filter fun l => l.handle ≠ h) = t.live :=
        List.filter_eq_self.mpr fun l hl => decide_eq_true (hdead l hl)
      rw [← hend, hlive]
    rw [hsame]
    exact hinv
  · obtain ⟨l, hl, rfl⟩ : ∃ l ∈ t.live, l.handle = h := by
      simpa [Dead] using hdead
    obtain ⟨p, p', hp, -, hwf, -, himpl⟩ := hinv.endTrace_of_live hl hend
    obtain ⟨r, -, heq⟩ := Checked.bind_eq_ok.mp hend
    have hlive : t'.live = t.live.filter fun l' => l'.handle ≠ l.handle := by
      cases heq
      rfl
    have hlen : t'.impl.liveTraces.length = t.impl.liveTraces.length := by
      rw [himpl]
      exact List.length_set ..
    have hlaid : t'.impl.LaidOut := by
      rw [himpl]
      exact (hinv.laidOut.putProng l.handle hwf _).setLiveTraces _ _
    refine ⟨hlaid, hlen.trans_lt hinv.small, ?_, fun l' hl' => ?_, fun h hdead' x hx => ?_⟩
    · rw [himpl]
      exact hinv.goodId
    · rw [hlive] at hl'
      obtain ⟨hl', hne⟩ := mem_filter_handle.mp hl'
      have hheld := (hinv.held l' hl').setLiveTraces hne TimePoint.min
      rw [himpl]
      exact ⟨hheld.landsIn, hheld.goodId, hheld.live, hheld.startNs_ne⟩
    · rw [himpl] at hx
      simp only [List.getElem?_set] at hx
      split at hx
      · obtain ⟨-, hx⟩ := Option.ite_none_right_eq_some.mp hx
        exact (Option.some.inj hx).symm
      · next hne =>
        refine hinv.dead h (fun l' hl' heq => ?_) x hx
        subst heq
        refine hdead' l' (hlive ▸ mem_filter_handle.mpr ⟨hl', fun hsame => hne ?_⟩) rfl
        rw [hsame]

/-- The steps that are not about traces. -/
theorem Inv.sameTraces (hinv : t.Inv) {s : TuningForkImpl} (hs : s.LaidOut)
    (hsame : TuningForkImpl.SameTraces t.impl s)
    (hgood : GoodId t.impl.keys.ikeys.length s.currentAnnotationId) : Inv { t with impl := s } where
  laidOut := hs
  small := by
    simp only [hsame.liveTraces]
    exact hinv.small
  goodId := hsame.keys.length_eq.symm ▸ hgood
  held l hl := (hinv.held l hl).sameTraces hinv.laidOut hs hsame
  dead h hdead := by
    simp only [hsame.liveTraces]
    exact hinv.dead h hdead

theorem inv_call (sqrt : ℚ → ℚ) (hinv : t.Inv) {c : Call} (hc : c.traces = false)
    (hallowed : t.Allowed (.call c))
    (h : (t.impl.step sqrt (.call c)).map (fun impl => { t with impl }) = .ok t') : t'.Inv := by
  obtain ⟨s, hs, rfl⟩ := Checked.map_eq_ok.mp h
  refine hinv.sameTraces (TuningForkImpl.laidOut_step hinv.laidOut hs)
    (hinv.laidOut.sameTraces hc hs) ?_
  refine TuningForkImpl.goodId_of_call hinv.laidOut.keys hinv.laidOut.length_ikeys hinv.goodId ?_ hs
  rintro ann rfl
  exact hallowed

theorem inv_step {e : Event} (hinv : t.Inv) (hallowed : t.Allowed e)
    (h : t.step sqrt e = .ok t') : t'.Inv := by
  cases e with
  | call c =>
    cases c with
    | startTrace key now => exact inv_startTrace hinv hallowed h
    | endTrace handle now => exact inv_endTrace hinv h
    | frameTick key now => exact inv_call sqrt hinv rfl hallowed h
    | frameDeltaTimeNanos key dt now => exact inv_call sqrt hinv rfl hallowed h
    | setCurrentAnnotation ann => exact inv_call sqrt hinv rfl hallowed h
    | flush now => exact inv_call sqrt hinv rfl hallowed h
  | upload v =>
    cases h
    have hupload : t.impl.step sqrt (.upload v) = .ok (t.impl.upload v) := rfl
    exact hinv.sameTraces (TuningForkImpl.laidOut_step hinv.laidOut hupload) ⟨.refl _, rfl⟩
      hinv.goodId

/-! ## One step

Each call keeps the invariant, and a start is right under the condition.
-/

/-- A handle is new unless a live trace is for the same key and annotation. -/
theorem dead_of_startOk (hinv : t.Inv) {key : InstrumentationKey} {now : TimePoint}
    (hok : t.StartOk (.call (.startTrace key now))) {err : TFErrorCode} {handle : TraceHandle}
    {s' : TuningForkImpl} (h : t.impl.startTrace key now = .ok (err, some handle, s')) :
    t.Dead handle := by
  have hlaid := hinv.laidOut
  rintro l hl rfl
  obtain ⟨r, keys, hkeys, hr, -⟩ := TuningForkImpl.startTrace_eq_ok h
  obtain ⟨i, rfl, hi⟩ := Option.map_eq_some_iff.mp hr.symm
  obtain ⟨hwf, hext, -⟩ := InstrumentKeys.getOrCreate_eq_ok hlaid.keys hkeys
  have hheld := (hinv.held l hl).sameTraces hlaid (hlaid.setKeys hkeys) ⟨hext, rfl⟩
  have hlands : Origin.LandsIn keys l.handle.toNat ⟨key, t.impl.currentAnnotationId⟩ :=
    ⟨i, (InstrumentKeys.keyIndex_getOrCreate hlaid.keys hkeys).1, congrArg UInt64.toNat hi⟩
  have hlt := (List.getElem?_eq_some_iff.mp hheld.live).1
  exact hok l hl (hheld.landsIn.inj_of_goodId hwf (hlt.trans hinv.small) hheld.goodId hlands
    (hext.length_eq.symm ▸ hinv.goodId))

/-- The same key under the same annotation gets the handle of the trace that is live. -/
theorem startTrace_of_live (hinv : t.Inv) {l : LiveTrace} (hl : l ∈ t.live)
    (hid : l.origin.annotationId = t.impl.currentAnnotationId) (now : TimePoint) :
    ∃ s', t.impl.startTrace l.origin.key now = .ok (.ok, some l.handle, s') := by
  have hheld := hinv.held l hl
  obtain ⟨j, hj, hsum⟩ := hheld.landsIn
  have hhandle : UInt64.ofNat j + t.impl.currentAnnotationId = l.handle :=
    UInt64.toNat_inj.mp (hid ▸ hsum)
  have hlt := (List.getElem?_eq_some_iff.mp hheld.live).1
  rw [← hhandle] at hlt ⊢
  exact TuningForkImpl.startTrace_of_keyIndex hinv.laidOut.keys hj hlt now

theorem serves_startTrace_iff (hinv : t.Inv) (key : InstrumentationKey) (now : TimePoint) :
    (∀ t', t.step sqrt (.call (.startTrace key now)) = .ok t' →
      t.Serves sqrt (.call (.startTrace key now)) t') ↔
        t.StartOk (.call (.startTrace key now)) := by
  constructor
  · rintro hserves l hl heq
    obtain ⟨s', hstart⟩ := startTrace_of_live hinv hl (congrArg Origin.annotationId heq) now
    rw [congrArg Origin.key heq] at hstart
    have hstep : ∃ t', t.step sqrt (.call (.startTrace key now)) = .ok t' := by
      refine ⟨⟨s', ⟨l.handle, ⟨key, t.impl.currentAnnotationId⟩, now⟩ ::
        t.live.filter fun l' => l'.handle ≠ l.handle⟩, ?_⟩
      rw [step, startTrace, hstart, Checked.ok_bind]
    obtain ⟨t', ht'⟩ := hstep
    exact (hserves t' ht').start key now l.handle s' rfl hstart l hl rfl
  · intro hok t' _
    refine ⟨fun key' now' handle s' heq hstart => ?_, ?_, ?_⟩
    · cases heq
      exact dead_of_startOk hinv hok hstart
    · intro h now' l heq
      cases heq
    · intro h now' heq
      cases heq

theorem serves_endTrace (hinv : t.Inv) {h : TraceHandle} {now : TimePoint}
    (hend : t.endTrace sqrt h now = .ok t') : t.Serves sqrt (.call (.endTrace h now)) t' := by
  refine ⟨fun key now' handle s' heq => ?_, fun h' now' l heq hl hhandle => ?_,
    fun h' now' heq hdead => ?_⟩
  · cases heq
  · cases heq
    subst hhandle
    have hheld := hinv.held l hl
    obtain ⟨p, p', hp, hrecorded, -, hok, himpl⟩ := hinv.endTrace_of_live hl hend
    have hlt := (List.getElem?_eq_some_iff.mp hheld.live).1
    refine ⟨hok, ?_, Prong.sample (now - l.startNs) t.impl.added.length, ?_, rfl⟩
    · rw [himpl]
      exact TuningForkImpl.addsSample_putProng hheld.landsIn hp hrecorded hlt
    · rw [himpl]
      rfl
  · cases heq
    exact hinv.endTrace_of_dead hdead now

theorem serves_iff {e : Event} (hinv : t.Inv) :
    (∀ t', t.step sqrt e = .ok t' → t.Serves sqrt e t') ↔ t.StartOk e := by
  by_cases hstart : ∃ key now, e = .call (.startTrace key now)
  · obtain ⟨key, now, rfl⟩ := hstart
    exact serves_startTrace_iff hinv key now
  · rw [not_exists] at hstart
    have hok : t.StartOk e := by
      unfold StartOk
      split
      · next key now => exact absurd ⟨now, rfl⟩ (hstart key)
      · trivial
    refine iff_of_true (fun t' h => ?_) hok
    by_cases hend : ∃ handle now, e = .call (.endTrace handle now)
    · obtain ⟨handle, now, rfl⟩ := hend
      exact serves_endTrace hinv h
    · rw [not_exists] at hend
      exact ⟨fun key now _ _ heq => absurd ⟨now, heq⟩ (hstart key),
        fun handle now _ heq => absurd ⟨now, heq⟩ (hend handle),
        fun handle now heq => absurd ⟨now, heq⟩ (hend handle)⟩

/-! ## Every run

The condition and the property are the same in every state that a run reaches.
-/

theorem inv_start {st : Settings} {info : ExtraUploadInfo} {now : TimePoint} {s : TuningForkImpl}
    (hnew : TuningForkImpl.new st info now = .ok s) : (start s).Inv := by
  have hlaid := TuningForkImpl.laidOut_new hnew
  have hgood : GoodId s.keys.ikeys.length 0 := by
    rw [hlaid.length_ikeys]
    exact goodId_zero _
  obtain ⟨histograms, keys, ps, -, -, rfl⟩ := TuningForkImpl.new_eq_ok hnew
  refine ⟨hlaid, ?_, hgood, fun l hl => absurd hl List.not_mem_nil, fun h _ x hx => ?_⟩
  · simp only [start, List.length_replicate]
    exact TuningForkImpl.maxNumProngs_lt _ _
  · exact List.eq_of_mem_replicate (List.mem_of_getElem? hx)

theorem safe_step {e : Event} (hinv : t.impl.Inv) (hok : t.impl.StepOk e) :
    Checked.Safe Bad (t.step sqrt e) := by
  have hother : Checked.Safe Bad
      ((t.impl.step sqrt e).map fun impl => ({ t with impl } : TraceHandles)) :=
    Checked.safe_map.mpr (TuningForkImpl.safe_step hinv hok)
  cases e with
  | call c =>
    cases c with
    | startTrace key now =>
      rw [step, startTrace, Checked.safe_bind]
      refine ⟨TuningForkImpl.safe_startTrace hinv hok now, ?_⟩
      rintro ⟨err, _ | handle, s⟩ -
      · exact Checked.safe_ok _
      · exact Checked.safe_ok _
    | endTrace handle now =>
      rw [step, endTrace, Checked.safe_bind]
      exact ⟨TuningForkImpl.safe_endTrace hinv _ now, fun _ _ => Checked.safe_ok _⟩
    | _ => exact hother
  | upload v => exact hother

/-- **Handles serve the game throughout a run** exactly when no trace starts that is for the
same key and annotation as a live one; and with settings that the tuning fork can work with, and
annotations in their range, the run has no faults. -/
theorem serves_iff_startOk (sqrt : ℚ → ℚ) {st : Settings} {info : ExtraUploadInfo}
    {now : TimePoint} {s : TuningForkImpl} (hnew : TuningForkImpl.new st info now = .ok s)
    {es : List Event} (ha : Runs.ChecksOk (step sqrt) Allowed (start s) es) :
    (Runs.EachStep (step sqrt) (fun t e t' => t.Serves sqrt e t') (start s) es ↔
      Runs.ChecksOk (step sqrt) StartOk (start s) es) ∧
    (st.Ok → Runs.ChecksOk (step sqrt) (fun t e => t.impl.StepOk e) (start s) es →
      Checked.Safe Bad (Runs.runChecked (step sqrt) (start s) es)) := by
  constructor
  · exact Runs.eachStep_iff_checksOk (I := Inv) (fun _ _ _ hinv ha h => inv_step hinv ha h)
      (fun _ _ hinv _ => serves_iff hinv) (inv_start hnew) ha
  · intro hst hok
    have hinv : ∀ (t : TraceHandles) e t', t.impl.Inv → t.step sqrt e = .ok t' → t'.impl.Inv :=
      fun t e t' hinv h => TuningForkImpl.inv_step hinv (implStep h)
    exact Runs.not_bad_of_checksOk hinv (fun t e f hinv hok => safe_step hinv hok f)
      ((TuningForkImpl.new_spec hst info now).2 s hnew) hok

/-- Two traces at a time, and one of them ended twice. -/
def nested : List Event :=
  [.call (.startTrace 7 1000000000), .call (.startTrace 8 1001000000),
    .call (.endTrace 0 1004000000), .call (.endTrace 0 1005000000),
    .call (.endTrace 1 1006000000), .call (.startTrace 7 1010000000)]

theorem serves_nested : ∃ s, TuningForkImpl.new fourKeys noExtraInfo 0 = .ok s ∧
    Runs.EachStep (step fun x => x) (fun t e t' => t.Serves (fun x => x) e t') (start s) nested ∧
      Checked.Safe Bad (Runs.runChecked (step fun x => x) (start s) nested) := by
  have hok : (TuningForkImpl.new fourKeys noExtraInfo 0).map (fun s =>
      decide (Runs.ChecksOk (step fun x => x) Allowed (start s) nested ∧
        Runs.ChecksOk (step fun x => x) StartOk (start s) nested ∧
        Runs.ChecksOk (step fun x => x) (fun t e => t.impl.StepOk e) (start s) nested)) =
      .ok true := by
    decide +kernel
  obtain ⟨s, hs, hok⟩ := Checked.map_eq_ok.mp hok
  obtain ⟨ha, hstart, hstep⟩ := of_decide_eq_true hok
  have hst : fourKeys.Ok := ⟨by decide, fun hs hmem => (nomatch hmem)⟩
  obtain ⟨hserves, hsafe⟩ := serves_iff_startOk (fun x => x) hs ha
  exact ⟨s, hs, hserves.mpr hstart, hsafe hst hstep⟩

/-- Two traces for the same key: both have the handle 0. -/
theorem not_serves_twice : ∃ s, TuningForkImpl.new fourKeys noExtraInfo 0 = .ok s ∧
    Runs.ChecksOk (step fun x => x) Allowed (start s)
      [.call (.startTrace 7 1000000000), .call (.startTrace 7 1001000000)] ∧
    ¬ Runs.EachStep (step fun x => x) (fun t e t' => t.Serves (fun x => x) e t') (start s)
      [.call (.startTrace 7 1000000000), .call (.startTrace 7 1001000000)] := by
  have hok : (do
      let s ← TuningForkImpl.new fourKeys noExtraInfo 0
      let t ← (start s).step (fun x => x) (.call (.startTrace 7 1000000000))
      let t' ← t.step (fun x => x) (.call (.startTrace 7 1001000000))
      let (err, handle, _) ← t.impl.startTrace 7 1001000000
      .ok (err, handle, t.live, t'.live.length, decide (Runs.ChecksOk (step fun x => x) Allowed
        (start s) [.call (.startTrace 7 1000000000), .call (.startTrace 7 1001000000)])) :
      Except (Fault Vec) (TFErrorCode × Option TraceHandle × List LiveTrace × ℕ × Bool)) =
      .ok (.ok, some 0, [⟨0, ⟨7, 0⟩, 1000000000⟩], 1, true) := by
    decide +kernel
  obtain ⟨s, hs, hok⟩ := Checked.bind_eq_ok.mp hok
  obtain ⟨t, ht, hok⟩ := Checked.bind_eq_ok.mp hok
  obtain ⟨t', ht', hok⟩ := Checked.bind_eq_ok.mp hok
  obtain ⟨⟨err, handle, s'⟩, hstart, hok⟩ := Checked.bind_eq_ok.mp hok
  simp only [Except.ok.injEq, Prod.mk.injEq, decide_eq_true_eq] at hok
  obtain ⟨rfl, rfl, hlive, -, ha⟩ := hok
  refine ⟨s, hs, ha, fun hserves => ?_⟩
  have hdead := ((hserves t ht).2 t' ht').1.start 7 1001000000 0 s' rfl hstart
  exact hdead ⟨0, ⟨7, 0⟩, 1000000000⟩ (hlive ▸ List.mem_singleton_self _) rfl

end TraceHandles

end GameSdk
