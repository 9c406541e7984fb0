import GameSdk.Runs
import GameSdk.SetAnnotation
import GameSdk.TuningForkSteps
import Mathlib.Data.List.Nodup

/-!
# Where the samples go

The game thread and the upload thread as one system. A call of the game runs up to
its flush; a flush writes the keys, looks at `ready_`, sets it, and swaps the
caches; the upload thread may take a step between any two of these. At every moment
each recorded sample is in exactly one place: in an event that was handed on, in a
cache that is or will be uploaded, or waiting for its histogram to get a range.

The invariant, `Accounted`, is an equation for each prong and sample: it was recorded as often as it
is in events that were handed on, in caches that are uploaded next, and in histograms without range.
-/

namespace GameSdk

/-! ## Samples of a cache and of an event

An event is made of the prongs with samples only, but a prong without samples holds none.
-/

namespace ProngCache

/-- The counted samples of prong `i`. -/
def held (c : ProngCache) (i : ℕ) : List Sample :=
  (c.prongs[i]?.map fun p => p.histogram.held).getD []

/-- The samples of prong `i` that wait for a range. -/
def unranged (c : ProngCache) (i : ℕ) : List Sample :=
  (c.prongs[i]?.map fun p => p.histogram.unranged).getD []

/-- Every histogram counts what it holds. -/
def Wf (c : ProngCache) : Prop := ∀ p ∈ c.prongs, p.histogram.Wf

/-- What is read off prong `i` after prong `id` was written. -/
theorem getD_put {c : ProngCache} {id : UInt64} {p q : Prong}
    (hp : c.prongs[id.toNat]? = some p) (f : Prong → List Sample) (i : ℕ) :
    ((c.put id q).prongs[i]?.map f).getD [] =
      if id.toNat = i then f q else (c.prongs[i]?.map f).getD [] := by
  obtain ⟨hlt, -⟩ := List.getElem?_eq_some_iff.mp hp
  rw [put, List.getElem?_set]
  by_cases hi : id.toNat = i
  · rw [if_pos hi, if_pos hi, if_pos hlt]
    rfl
  · rw [if_neg hi, if_neg hi]

/-- What is held after one prong has changed. -/
theorem held_put {c : ProngCache} {id : UInt64} {p q : Prong}
    (hp : c.prongs[id.toNat]? = some p) (i : ℕ) :
    (c.put id q).held i = if id.toNat = i then q.histogram.held else c.held i :=
  getD_put hp (fun p => p.histogram.held) i

/-- What waits for a range after one prong has changed. -/
theorem unranged_put {c : ProngCache} {id : UInt64} {p q : Prong}
    (hp : c.prongs[id.toNat]? = some p) (i : ℕ) :
    (c.put id q).unranged i = if id.toNat = i then q.histogram.unranged else c.unranged i :=
  getD_put hp (fun p => p.histogram.unranged) i

/-- Changing a prong keeps the cache in order. -/
theorem wf_put {c : ProngCache} (hc : c.Wf) {id : UInt64} {p : Prong} (hp : p.histogram.Wf) :
    (c.put id p).Wf := by
  intro q hq
  rcases List.mem_or_eq_of_mem_set hq with hq | rfl
  · exact hc q hq
  · exact hp

/-- `Clear` drops what was counted, and only that. -/
theorem held_clear {c : ProngCache} (hc : c.Wf) (i : ℕ) : c.clear.held i = [] := by
  rw [held, clear, List.getElem?_map]
  rcases hp : c.prongs[i]? with _ | p
  · rfl
  · have hwf := hc p (List.mem_of_getElem? hp)
    by_cases hcount : p.histogram.count > 0
    · simp [hcount]
    · simp [hcount, hwf.held_eq_nil_of_count hcount]

/-- `Clear` leaves what waits for a range, since these histograms count nothing. -/
theorem unranged_clear {c : ProngCache} (hc : c.Wf) (i : ℕ) :
    c.clear.unranged i = c.unranged i := by
  unfold unranged clear
  rw [List.getElem?_map]
  rcases hp : c.prongs[i]? with _ | p
  · rfl
  · have hwf := hc p (List.mem_of_getElem? hp)
    by_cases hcount : p.histogram.count > 0
    · simp only [Option.map_some, if_pos hcount, Option.getD_some, Histogram.unranged_clear]
      rw [Histogram.unranged, hwf.autoRange_eq_false hcount]
      rfl
    · simp [hcount]

/-- `Clear` keeps the cache in order. -/
theorem wf_clear {c : ProngCache} (hc : c.Wf) : c.clear.Wf := by
  intro q hq
  obtain ⟨p, hp, rfl⟩ := List.mem_map.mp hq
  split
  · exact Histogram.wf_clear
  · exact hc p hp

/-- Keys do not matter to samples. -/
theorem samples_eq_of_withoutKeys {c c' : ProngCache}
    (h : withoutKeys c'.prongs = withoutKeys c.prongs) :
    (∀ i, c'.held i = c.held i) ∧ (∀ i, c'.unranged i = c.unranged i) ∧ (c.Wf → c'.Wf) := by
  have hhist : c'.prongs.map (fun p => p.histogram) = c.prongs.map fun p => p.histogram :=
    map_eq_of_withoutKeys (fun _ => rfl) h
  have hget (i : ℕ) : c'.prongs[i]?.map (fun p => p.histogram) =
      c.prongs[i]?.map fun p => p.histogram := by
    rw [← List.getElem?_map, hhist, List.getElem?_map]
  refine ⟨fun i => ?_, fun i => ?_, fun hc p hp => ?_⟩
  · have := congrArg (fun o => (o.map Histogram.held).getD []) (hget i)
    simpa [held, Function.comp_def] using this
  · have := congrArg (fun o => (o.map Histogram.unranged).getD []) (hget i)
    simpa [unranged, Function.comp_def] using this
  · obtain ⟨q, hq, heq⟩ := exists_mem_of_withoutKeys h hp
    exact heq ▸ hc q hq

end ProngCache

/-- The samples of prong `i` in an event. -/
def TuningForkLogEvent.samples (e : TuningForkLogEvent) (i : ℕ) : List Sample :=
  e.histograms.flatMap fun h => if h.prong = i then h.held else []

namespace ClearcutSerializer

/-- The samples of a prong in the histograms that are written. -/
theorem samples_writeHistograms {ps : List Prong} (hwf : ∀ p ∈ ps, p.histogram.Wf) (k i : ℕ) :
    ((ps.zipIdx k).filterMap fun (p, j) => if p.count > 0 then some (fill p j) else none).flatMap
        (fun h => if h.prong = i then h.held else []) =
      if k ≤ i then (ps[i - k]?.map fun p => p.histogram.held).getD [] else [] := by
  induction ps generalizing k with
  | nil => simp
  | cons p ps ih =>
    obtain ⟨hp, htail⟩ := List.forall_mem_cons.mp hwf
    have hhead : (if p.count > 0 then [fill p k] else []).flatMap
        (fun h => if h.prong = i then h.held else []) =
          if k = i then p.histogram.held else [] := by
      by_cases hcount : p.count > 0
      · simp [hcount, fill]
      · have hnil : p.histogram.held = [] := hp.held_eq_nil_of_count hcount
        simp [hcount, hnil]
    have hsplit : ((p :: ps).zipIdx k).filterMap
          (fun (p, j) => if p.count > 0 then some (fill p j) else none) =
        (if p.count > 0 then [fill p k] else []) ++ (ps.zipIdx (k + 1)).filterMap
          (fun (p, j) => if p.count > 0 then some (fill p j) else none) := by
      rw [List.zipIdx_cons, List.filterMap_cons]
      by_cases hcount : p.count > 0 <;> simp [hcount]
    rw [hsplit, List.flatMap_append, hhead, ih htail]
    rcases Nat.lt_trichotomy k i with hlt | rfl | hlt
    · rw [if_neg (by omega), if_pos (by omega), if_pos (by omega), List.nil_append,
        show i - k = i - (k + 1) + 1 by omega, List.getElem?_cons_succ]
    · simp
    · rw [if_neg (by omega), if_neg (by omega), if_neg (by omega), List.nil_append]

/-- An event carries what the cache has counted. -/
theorem samples_serializeEvent {c : ProngCache} (hc : c.Wf) (fp : List UInt8)
    (info : ExtraUploadInfo) (i : ℕ) : (serializeEvent c fp info).samples i = c.held i := by
  have := samples_writeHistograms hc 0 i
  simpa [TuningForkLogEvent.samples, serializeEvent, writeHistograms, ProngCache.held] using this

end ClearcutSerializer

/-! ## The two threads

A flush is several steps of the game thread, since the upload thread may run in between. `Phase` is
where the game thread is.
-/

/-- Where the game thread is in a flush for the time `tNs`. -/
inductive Phase where
  /-- between two calls -/
  | between
  /-- about to write the keys -/
  | flushing (tNs : TimePoint)
  /-- about to look at `ready_` -/
  | submitting (tNs : TimePoint)
  /-- has seen null -/
  | checked (tNs : TimePoint)
  /-- has set `ready_`, under the mutex -/
  | submitted (tNs : TimePoint)
  deriving DecidableEq, Repr

/-- A call goes on to a flush if one is due. -/
def Phase.ofDue : Option TimePoint → Phase
  | none => .between
  | some tNs => .flushing tNs

/-- The instance and where the game thread is. -/
structure System where
  impl : TuningForkImpl
  phase : Phase

namespace System

/-! ### The steps

A call up to its flush is one step, as the upload thread does not look at what it changes. The flush
is cut where that thread may run.
-/

/-- One step of one of the threads. -/
inductive Step (sqrt : ℚ → ℚ) : System → System → Prop
  | body {s s' c due} (h : s.callBody sqrt c = .ok (due, s')) :
      Step sqrt ⟨s, .between⟩ ⟨s', Phase.ofDue due⟩
  | prepare {s s' tNs} (h : s.prepareFlush = .ok s') :
      Step sqrt ⟨s, .flushing tNs⟩ ⟨s', .submitting tNs⟩
  | pending {s tNs} (h : s.uploadThread.ready ≠ none) :
      Step sqrt ⟨s, .submitting tNs⟩ ⟨s.refuseSubmit tNs, .between⟩
  | check {s tNs} (h : s.uploadThread.ready = none) :
      Step sqrt ⟨s, .submitting tNs⟩ ⟨s, .checked tNs⟩
  | setReady {s tNs} : Step sqrt ⟨s, .checked tNs⟩ ⟨s.setReady, .submitted tNs⟩
  | swap {s tNs} : Step sqrt ⟨s, .submitted tNs⟩ ⟨s.swapCaches tNs, .between⟩
  | upload {s phase} (glEsVersion : UInt32) :
      Step sqrt ⟨s, phase⟩ ⟨s.upload glEsVersion, phase⟩

/-- A part of a flush leaves the settings, the keys, the annotation and the traces, and adds no
samples. -/
theorem frame_of_flush {sqrt : ℚ → ℚ} {σ σ' : System} (hphase : σ.phase ≠ .between)
    (h : System.Step sqrt σ σ') :
    σ'.impl.settings = σ.impl.settings ∧ σ'.impl.keys = σ.impl.keys ∧
      σ'.impl.currentAnnotationId = σ.impl.currentAnnotationId ∧
      σ'.impl.added = σ.impl.added ∧ σ'.impl.liveTraces = σ.impl.liveTraces := by
  cases h with
  | body hbody => exact absurd rfl hphase
  | prepare hprepare =>
    obtain ⟨cache, -, rfl⟩ := TuningForkImpl.prepareFlush_eq_ok hprepare
    exact ⟨rfl, rfl, rfl, rfl, rfl⟩
  | pending _ => exact ⟨rfl, rfl, rfl, rfl, rfl⟩
  | check _ => exact ⟨rfl, rfl, rfl, rfl, rfl⟩
  | setReady => exact ⟨rfl, rfl, rfl, rfl, rfl⟩
  | swap => exact ⟨rfl, rfl, rfl, rfl, rfl⟩
  | upload _ => exact ⟨rfl, rfl, rfl, rfl, rfl⟩

/-- A call adds samples, and leaves the upload thread alone up to its flush. -/
theorem body_keeps {sqrt : ℚ → ℚ} {s s' : TuningForkImpl} {c : Call} {due : Option TimePoint}
    (h : s.callBody sqrt c = .ok (due, s')) :
    s.added <+: s'.added ∧ s'.uploadThread = s.uploadThread := by
  refine TuningForkImpl.callBody_preserves
    (P := fun t => s.added <+: t.added ∧ t.uploadThread = s.uploadThread) (fun _ _ _ _ ht _ => ht)
    ?_ (fun _ _ ht => ht) (fun _ _ _ ht => ht) ⟨List.prefix_rfl, rfl⟩ h
  rintro t id p ds ⟨hadded, hupload⟩
  exact ⟨hadded.trans (List.prefix_append _ _), hupload⟩

/-- The upload thread hands on the event of the cache that is ready; no other step makes one. -/
theorem processed_of_step {sqrt : ℚ → ℚ} {σ σ' : System} (h : Step sqrt σ σ') :
    σ'.impl.uploadThread.processed = σ.impl.uploadThread.processed ∨
      ∃ c info, σ.impl.uploadThread.ready = some c ∧
        σ'.impl.uploadThread.processed = σ.impl.uploadThread.processed ++
          [ClearcutSerializer.serializeEvent (σ.impl.prongCaches c)
            σ.impl.uploadThread.currentFidelityParams info] := by
  cases h with
  | body hbody => exact Or.inl (congrArg UploadThread.processed (body_keeps hbody).2)
  | prepare hprepare =>
    obtain ⟨cache, -, rfl⟩ := TuningForkImpl.prepareFlush_eq_ok hprepare
    exact Or.inl rfl
  | pending => exact Or.inl rfl
  | check => exact Or.inl rfl
  | setReady => exact Or.inl rfl
  | swap => exact Or.inl rfl
  | @upload s phase v =>
    cases hready : s.uploadThread.ready with
    | none =>
      rw [TuningForkImpl.upload_of_none hready]
      exact Or.inl rfl
    | some c =>
      rw [TuningForkImpl.uploadThread_upload hready]
      exact Or.inr ⟨c, _, rfl, rfl⟩

/-- A step of the sequential machine is a sequence of these, with the upload thread
standing still during calls. -/
theorem steps_of_step {sqrt : ℚ → ℚ} {s s' : TuningForkImpl} {e : Event}
    (h : s.step sqrt e = .ok s') :
    Relation.ReflTransGen (Step sqrt) ⟨s, .between⟩ ⟨s', .between⟩ := by
  cases e with
  | call c =>
    obtain ⟨due, s₁, err, hbody, hflush⟩ := TuningForkImpl.call_eq_ok h
    have hstart := Relation.ReflTransGen.single (Step.body hbody)
    rcases due with _ | tNs
    · cases hflush
      exact hstart
    · rw [TuningForkImpl.checkForSubmit, TuningForkImpl.flushAt_eq] at hflush
      obtain ⟨s₃, hprepare, hflush⟩ := Checked.bind_eq_ok.mp hflush
      have hprepared := hstart.tail (Step.prepare hprepare)
      split at hflush
      · next hready =>
        cases hflush
        exact ((hprepared.tail (.check hready)).tail .setReady).tail .swap
      · next hready =>
        cases hflush
        exact hprepared.tail (.pending hready)
  | upload v =>
    cases h
    exact .single (.upload v)

/-- A run in which no flush is interrupted is one of these. -/
theorem steps_of_runChecked {sqrt : ℚ → ℚ} {s s' : TuningForkImpl} {es : List Event}
    (h : Runs.runChecked (TuningForkImpl.step sqrt) s es = .ok s') :
    Relation.ReflTransGen (Step sqrt) ⟨s, .between⟩ ⟨s', .between⟩ :=
  Runs.runChecked_induction
    (Q := fun s _ => Relation.ReflTransGen (Step sqrt) ⟨s, .between⟩ ⟨s', .between⟩) .refl
    (fun _ _ _ _ hstep _ ih => (steps_of_step hstep).trans ih) h

end System

/-! ## What all histograms keep

A property of histograms that holds of a new one, and that `Add` and `Clear` keep, holds of every
histogram of both caches throughout a run: nothing else is done to them. -/

/-- All histograms of both caches have the property. -/
def TuningForkImpl.Each (P : Histogram → Prop) (s : TuningForkImpl) : Prop :=
  ∀ c, ∀ p ∈ (s.prongCaches c).prongs, P p.histogram

namespace TuningForkImpl

variable {sqrt : ℚ → ℚ} {P : Histogram → Prop} {s s' : TuningForkImpl}

/-- A property of all histograms, after one prong has changed. -/
theorem each_putProng (hs : s.Each P) {p : Prong} (hp : P p.histogram) (id : UInt64)
    (ds : List Sample) : (s.putProng id p ds).Each P := by
  refine forall_update (P := fun c => ∀ p ∈ c.prongs, P p.histogram) hs fun q hq => ?_
  rcases List.mem_or_eq_of_mem_set hq with hq | rfl
  · exact hs s.currentProngCache q hq
  · exact hp

/-- A property that `Add` keeps is kept by the changes. -/
theorem each_change (hadd : ∀ h d h', P h → h.add sqrt d = .ok h' → P h') (hs : s.Each P)
    (h : Change sqrt s s') : s'.Each P := by
  have hprong {i : ℕ} {p : Prong} (hp : s.current.prongs[i]? = some p) : P p.histogram :=
    hs s.currentProngCache p (List.mem_of_getElem? hp)
  cases h with
  | quiet hquiet =>
    cases hquiet with
    | keys => exact hs
    | trace hp htrace =>
      obtain ⟨histogram, heq, rfl⟩ := Prong.trace_eq_ok htrace
      exact each_putProng hs (hadd _ _ _ (hprong hp) heq) _ _
    | liveTraces => exact hs
  | tick hp htick =>
    have hold := hprong hp
    rcases Prong.tick_eq_ok htick with ⟨-, rfl⟩ | ⟨-, histogram, heq, rfl⟩
    · refine each_putProng hs ?_ _ _
      exact hold
    · refine each_putProng hs ?_ _ _
      exact hadd _ _ _ hold heq
  | annotate ann =>
    rw [annotated_eq]
    exact hs

/-- The keys are no part of the histograms. -/
theorem each_prepareFlush (hs : s.Each P) (h : s.prepareFlush = .ok s') : s'.Each P := by
  obtain ⟨cache, hcache, rfl⟩ := prepareFlush_eq_ok h
  have hprongs := (ProngCache.withoutKeys_setInstrumentKeys hcache).1
  refine forall_update (P := fun c => ∀ p ∈ c.prongs, P p.histogram) hs fun p hp => ?_
  obtain ⟨q, hq, heq⟩ := ProngCache.exists_mem_of_withoutKeys hprongs hp
  exact heq ▸ hs s.currentProngCache q hq

/-- A property that `Clear` keeps is kept when the caches are swapped. -/
theorem each_swapCaches (hclear : ∀ h, P h → P h.clear) (hs : s.Each P) (tNs : TimePoint) :
    (s.swapCaches tNs).Each P := by
  refine forall_update (P := fun c => ∀ p ∈ c.prongs, P p.histogram) hs fun p hp => ?_
  obtain ⟨q, hq, rfl⟩ := List.mem_map.mp hp
  have hold := hs _ q hq
  split
  · exact hclear _ hold
  · exact hold

/-- A property of new histograms holds of a new instance. -/
theorem each_new (hof : ∀ hs h, Histogram.ofSettings hs = .ok h → P h) {st : Settings}
    {info : ExtraUploadInfo} {now : TimePoint} (h : new st info now = .ok s) : s.Each P := by
  obtain ⟨histograms, keys, ps, -, hps, rfl⟩ := new_eq_ok h
  intro c p hp
  obtain ⟨-, hs, hhist⟩ := (ProngCache.allocate_eq_ok hps).2 p hp
  exact hof hs _ hhist

end TuningForkImpl

namespace System

/-- **A property of all histograms** is kept by every step if `Add` and `Clear` keep it. -/
theorem each_step {sqrt : ℚ → ℚ} {P : Histogram → Prop}
    (hadd : ∀ h d h', P h → h.add sqrt d = .ok h' → P h') (hclear : ∀ h, P h → P h.clear)
    {σ σ' : System} (hs : σ.impl.Each P) (h : Step sqrt σ σ') : σ'.impl.Each P := by
  cases h with
  | body hbody =>
    exact Runs.invariant_of_reachable (P := TuningForkImpl.Each P)
      (fun _ _ hs h => TuningForkImpl.each_change hadd hs h) hs
      (TuningForkImpl.callBody_changes hbody)
  | prepare hprepare => exact TuningForkImpl.each_prepareFlush hs hprepare
  | pending => exact hs
  | check => exact hs
  | setReady => exact hs
  | swap => exact TuningForkImpl.each_swapCaches hclear hs _
  | upload v => exact hs

/-! ## The invariant

Which caches are still to be uploaded depends on the phase and on `ready_`. In the middle of a flush
the current cache may already be handed on.
-/

/-- The caches whose counted samples have not been handed on. Once `ready_` is set
the current cache is there through `ready_` only. -/
def holding (σ : System) : List Bool :=
  match σ.phase with
  | .submitted _ => σ.impl.uploadThread.ready.toList
  | _ => σ.impl.uploadThread.ready.toList ++ [σ.impl.currentProngCache]

/-- What `ready_` can be. -/
def ReadyOk (σ : System) : Prop :=
  match σ.phase with
  | .checked _ => σ.impl.uploadThread.ready = none
  | .submitted _ => ∀ c ∈ σ.impl.uploadThread.ready, c = σ.impl.currentProngCache
  | _ => σ.impl.uploadThread.ready ≠ some σ.impl.currentProngCache

end System

namespace TuningForkImpl

/-- The samples added to prong `i` so far. -/
def addedTo (s : TuningForkImpl) (i : ℕ) : List Sample :=
  (s.added.filter fun a => a.1 = i).map fun a => a.2

/-- The samples of prong `i` in events handed to `Backend::Process`. -/
def processedOf (s : TuningForkImpl) (i : ℕ) : List Sample :=
  s.uploadThread.processed.flatMap fun e => e.samples i

/-- The counted samples of prong `i` in the caches `cs`. -/
def heldIn (s : TuningForkImpl) (cs : List Bool) (i : ℕ) : List Sample :=
  cs.flatMap fun c => (s.prongCaches c).held i

/-- Samples waiting for a range, in the current cache and in the other one. -/
def unrangedOf (s : TuningForkImpl) (i : ℕ) : List Sample :=
  s.current.unranged i ++ (s.prongCaches !s.currentProngCache).unranged i

end TuningForkImpl

/-- Every sample added is in one place. -/
structure System.Accounted (σ : System) : Prop where
  wf : ∀ c, (σ.impl.prongCaches c).Wf
  /-- the serial numbers count the samples -/
  serials : σ.impl.added.map (fun a => a.2.serial) = List.range σ.impl.added.length
  ready : σ.ReadyOk
  count_eq : ∀ i d, (σ.impl.addedTo i).count d =
    (σ.impl.processedOf i).count d + (σ.impl.heldIn σ.holding i).count d +
      (σ.impl.unrangedOf i).count d

/-! ## Every step keeps it

Recording adds to both sides of the equation. A flush moves a cache from one place to another,
and an upload moves its samples into the event.
-/

namespace TuningForkImpl

/-- The samples of several caches. -/
theorem heldIn_append (s : TuningForkImpl) (cs cs' : List Bool) (i : ℕ) :
    s.heldIn (cs ++ cs') i = s.heldIn cs i ++ s.heldIn cs' i := List.flatMap_append

/-- The samples of one cache. -/
theorem heldIn_singleton (s : TuningForkImpl) (c : Bool) (i : ℕ) :
    s.heldIn [c] i = (s.prongCaches c).held i := by
  simp [heldIn]

/-- They depend on these caches only. -/
theorem heldIn_congr {s s' : TuningForkImpl} {cs : List Bool} {i : ℕ}
    (h : ∀ c ∈ cs, (s'.prongCaches c).held i = (s.prongCaches c).held i) :
    s'.heldIn cs i = s.heldIn cs i := List.flatMap_congr h

variable {sqrt : ℚ → ℚ} {s s' : TuningForkImpl}

/-- The samples that were recorded for a prong. -/
theorem mem_addedTo {s : TuningForkImpl} {i : ℕ} {x : Sample} :
    x ∈ s.addedTo i ↔ (i, x) ∈ s.added := by
  simp [addedTo]

/-! ### Recording

A sample that is recorded is held, or waits for a range, and no other list changes. When the range
comes, all that has waited is held.
-/

/-- Samples are numbered from 0 on. -/
theorem serial_getElem {s : TuningForkImpl}
    (hserials : s.added.map (fun a => a.2.serial) = List.range s.added.length) {j : ℕ}
    (hj : j < s.added.length) : (s.added[j]).2.serial = j := by
  have hget := congrArg (fun l => l[j]?) hserials
  simpa [hj] using hget

/-- What is recorded for one prong is not recorded for another. -/
theorem addedTo_putProng (s : TuningForkImpl) (id : UInt64) (p : Prong) (ds : List Sample) (i : ℕ) :
    (s.putProng id p ds).addedTo i = s.addedTo i ++ if id.toNat = i then ds else [] := by
  unfold addedTo putProng
  rw [List.filter_append, List.map_append]
  by_cases hi : id.toNat = i
  · rw [if_pos hi]
    simp [List.filter_map, Function.comp_def, hi]
  · rw [if_neg hi]
    simp [List.filter_map, Function.comp_def, hi]

/-- A prong of the current cache has been given the samples `ds`. -/
theorem accounted_putProng (h : System.Accounted ⟨s, .between⟩) {id : UInt64} {p p' : Prong}
    {ds : List Sample} (hp : s.current.prongs[id.toNat]? = some p) (hwf : p'.histogram.Wf)
    (hrec : p'.histogram.recorded = p.histogram.recorded ++ ds)
    (hds : ds.map (fun d => d.serial) = List.range' s.added.length ds.length) :
    System.Accounted ⟨s.putProng id p' ds, .between⟩ := by
  have hother : (!s.currentProngCache) ≠ s.currentProngCache := by simp
  refine ⟨fun c => ?_, ?_, h.ready, fun i d => ?_⟩
  · by_cases hc : c = s.currentProngCache
    · have hput : (s.current.put id p').Wf := ProngCache.wf_put (h.wf s.currentProngCache) hwf
      rw [← current_putProng s id p' ds] at hput
      exact hc ▸ hput
    · have hold := h.wf c
      rw [← prongCaches_putProng hc id p' ds] at hold
      exact hold
  · have hserials := h.serials
    simp only [putProng, List.map_append, List.map_map, List.length_append, List.length_map]
    simp only [List.range_eq_range'] at hserials ⊢
    rw [hserials, ← List.range'_append_1, Nat.zero_add, ← hds]
    rfl
  · -- in the current cache the samples are new, everywhere else nothing changed
    have hcount := h.count_eq i d
    have hready : s.uploadThread.ready ≠ some s.currentProngCache := h.ready
    have hrest : (s.putProng id p' ds).heldIn s.uploadThread.ready.toList i =
        s.heldIn s.uploadThread.ready.toList i := by
      refine heldIn_congr fun c hc => ?_
      have hne : c ≠ s.currentProngCache := fun heq => hready (heq ▸ Option.mem_toList.mp hc)
      rw [prongCaches_putProng hne]
    have hheld := ProngCache.held_put (q := p') hp i
    have hunranged := ProngCache.unranged_put (q := p') hp i
    have hold : s.current.held id.toNat = p.histogram.held ∧
        s.current.unranged id.toNat = p.histogram.unranged := by
      simp [ProngCache.held, ProngCache.unranged, hp]
    simp only [System.holding, heldIn_append, heldIn_singleton, List.count_append] at hcount ⊢
    change _ = _ + (((s.putProng id p' ds).heldIn s.uploadThread.ready.toList i).count d +
      ((s.putProng id p' ds).current.held i).count d) +
      ((s.putProng id p' ds).unrangedOf i).count d
    change _ = _ + (_ + (s.current.held i).count d) + _ at hcount
    unfold unrangedOf at hcount ⊢
    rw [addedTo_putProng, hrest, current_putProng, hheld, hunranged,
      show (s.putProng id p' ds).prongCaches (!(s.putProng id p' ds).currentProngCache) =
        s.prongCaches (!s.currentProngCache) from prongCaches_putProng hother id p' ds]
    have hprocessed : (s.putProng id p' ds).processedOf i = s.processedOf i := rfl
    rw [hprocessed]
    by_cases hi : id.toNat = i
    · subst hi
      have hrec' := congrArg (List.count d) hrec
      simp only [Histogram.recorded, List.count_append] at hrec'
      simp only [if_true, List.count_append, hold.1, hold.2] at hcount ⊢
      omega
    · simp only [if_neg hi, List.count_append, List.append_nil] at hcount ⊢
      exact hcount

/-- Recording keeps the account. -/
theorem accounted_change (h : System.Accounted ⟨s, .between⟩) (hc : Change sqrt s s') :
    System.Accounted ⟨s', .between⟩ := by
  have hprong {i : ℕ} {p : Prong} (hp : s.current.prongs[i]? = some p) : p.histogram.Wf :=
    h.wf s.currentProngCache p (List.mem_of_getElem? hp)
  cases hc with
  | quiet hquiet =>
    cases hquiet with
    | keys => exact ⟨h.wf, h.serials, h.ready, h.count_eq⟩
    | trace hp htrace =>
      obtain ⟨histogram, hadd, rfl⟩ := Prong.trace_eq_ok htrace
      obtain ⟨hwf, hrec⟩ := Histogram.recorded_add (hprong hp) hadd
      exact accounted_putProng h hp hwf hrec rfl
    | liveTraces => exact ⟨h.wf, h.serials, h.ready, h.count_eq⟩
  | tick hp htick =>
    have hold := hprong hp
    rcases Prong.tick_eq_ok htick with ⟨hmin, rfl⟩ | ⟨hmin, histogram, hadd, rfl⟩
    · refine accounted_putProng h hp hold ?_ ?_ <;> rw [tickSamples, if_neg (not_not.mpr hmin)]
      · rw [List.append_nil]
      · rfl
    · obtain ⟨hwf, hrec⟩ := Histogram.recorded_add hold hadd
      refine accounted_putProng h hp hwf ?_ ?_ <;> rw [tickSamples, if_pos hmin]
      · exact hrec
      · rfl
  | annotate ann =>
    rw [annotated_eq]
    exact ⟨h.wf, h.serials, h.ready, h.count_eq⟩

/-! ### The parts of a flush

Writing the keys changes no sample. Handing the cache over takes it from the current one to the
waiting one, and the upload empties it into an event.
-/

/-- The keys are written: no sample moves. -/
theorem accounted_prepareFlush {tNs : TimePoint} (h : System.Accounted ⟨s, .flushing tNs⟩)
    (hprepare : s.prepareFlush = .ok s') : System.Accounted ⟨s', .submitting tNs⟩ := by
  obtain ⟨cache, hcache, rfl⟩ := prepareFlush_eq_ok hprepare
  obtain ⟨hheld, hunranged, hwf⟩ := ProngCache.samples_eq_of_withoutKeys
    (ProngCache.withoutKeys_setInstrumentKeys hcache).1
  have hcaches (c : Bool) (i : ℕ) :
      (Function.update s.prongCaches s.currentProngCache cache c).held i =
          (s.prongCaches c).held i ∧
        (Function.update s.prongCaches s.currentProngCache cache c).unranged i =
          (s.prongCaches c).unranged i := by
    by_cases hc : c = s.currentProngCache
    · subst hc
      rw [Function.update_self]
      exact ⟨hheld i, hunranged i⟩
    · rw [Function.update_of_ne hc]
      exact ⟨rfl, rfl⟩
  refine ⟨fun c => ?_, h.serials, h.ready, fun i d => ?_⟩
  · by_cases hc : c = s.currentProngCache
    · subst hc
      simp only [Function.update_self]
      exact hwf (h.wf s.currentProngCache)
    · simp only [Function.update_of_ne hc]
      exact h.wf c
  · -- the counts are the same, one by one
    have hcount := h.count_eq i d
    have hin (cs : List Bool) : heldIn { s with
        prongCaches := Function.update s.prongCaches s.currentProngCache cache } cs i =
          s.heldIn cs i := heldIn_congr fun c _ => (hcaches c i).1
    simp only [System.holding, unrangedOf, current] at hcount ⊢
    rw [hin, (hcaches _ i).2, (hcaches _ i).2]
    exact hcount

/-- The caches swap roles: what was in the other one has been handed on. -/
theorem accounted_swapCaches {tNs : TimePoint} (h : System.Accounted ⟨s, .submitted tNs⟩) :
    System.Accounted ⟨s.swapCaches tNs, .between⟩ := by
  have hother : s.currentProngCache ≠ !s.currentProngCache := by simp
  have hready : ∀ c ∈ s.uploadThread.ready, c = s.currentProngCache := h.ready
  have hcleared : (s.swapCaches tNs).prongCaches (!s.currentProngCache) =
      (s.prongCaches !s.currentProngCache).clear := Function.update_self ..
  have hkept : (s.swapCaches tNs).prongCaches s.currentProngCache =
      s.prongCaches s.currentProngCache := Function.update_of_ne hother ..
  refine ⟨fun c => ?_, h.serials, ?_, fun i d => ?_⟩
  · by_cases hc : c = s.currentProngCache
    · subst hc
      exact hkept.symm ▸ h.wf s.currentProngCache
    · obtain rfl : c = !s.currentProngCache := Bool.eq_not_of_ne hc
      exact hcleared.symm ▸ ProngCache.wf_clear (h.wf _)
  · change s.uploadThread.ready ≠ some (!s.currentProngCache)
    exact fun heq => hother (hready _ heq).symm
  · -- what is now the current cache holds only samples that wait for a range
    have hcount := h.count_eq i d
    have hin : (s.swapCaches tNs).heldIn s.uploadThread.ready.toList i =
        s.heldIn s.uploadThread.ready.toList i := by
      refine heldIn_congr fun c hc => ?_
      rw [hready c (Option.mem_toList.mp hc), hkept]
    have hnew : ((s.swapCaches tNs).prongCaches (!s.currentProngCache)).held i = [] := by
      rw [hcleared, ProngCache.held_clear (h.wf _)]
    have hwait : (s.swapCaches tNs).unrangedOf i =
        (s.prongCaches !s.currentProngCache).unranged i ++ s.current.unranged i := by
      rw [unrangedOf]
      change ((s.swapCaches tNs).prongCaches (!s.currentProngCache)).unranged i ++
        ((s.swapCaches tNs).prongCaches (!!s.currentProngCache)).unranged i = _
      rw [Bool.not_not, hcleared, hkept, ProngCache.unranged_clear (h.wf _)]
      rfl
    change (s.addedTo i).count d = (s.processedOf i).count d +
      ((s.swapCaches tNs).heldIn (s.uploadThread.ready.toList ++ [!s.currentProngCache])
        i).count d +
      ((s.swapCaches tNs).unrangedOf i).count d
    simp only [System.holding, unrangedOf, List.count_append] at hcount
    rw [heldIn_append, heldIn_singleton, hin, hnew, hwait, List.append_nil, List.count_append]
    omega

/-- The upload thread hands on what the ready cache has counted. -/
theorem accounted_upload {phase : Phase} (h : System.Accounted ⟨s, phase⟩) (v : UInt32) :
    System.Accounted ⟨s.upload v, phase⟩ := by
  rcases hready : s.uploadThread.ready with _ | c
  · rw [upload_of_none hready]
    exact h
  · have hrun := uploadThread_upload hready v
    have hnone : (s.upload v).uploadThread.ready = none := by
      rw [hrun]
    have hprocessed (i : ℕ) : (s.upload v).processedOf i =
        s.processedOf i ++ (s.prongCaches c).held i := by
      simp only [processedOf, hrun, List.flatMap_append, List.flatMap_singleton,
        ClearcutSerializer.samples_serializeEvent (h.wf c)]
    have hholding : System.holding ⟨s, phase⟩ = c :: System.holding ⟨s.upload v, phase⟩ := by
      have hcurrent : (s.upload v).currentProngCache = s.currentProngCache := rfl
      rcases phase <;> simp [System.holding, hready, hnone, hcurrent]
    refine ⟨h.wf, h.serials, ?_, fun i d => ?_⟩
    · rcases phase <;> simp [System.ReadyOk, hnone]
    · -- what was held in the ready cache is processed
      have hcount := h.count_eq i d
      rw [hholding, ← List.singleton_append, heldIn_append, heldIn_singleton,
        List.count_append] at hcount
      have hin : (s.upload v).heldIn (System.holding ⟨s.upload v, phase⟩) i =
          s.heldIn (System.holding ⟨s.upload v, phase⟩) i := rfl
      have hwait : (s.upload v).unrangedOf i = s.unrangedOf i := rfl
      have hadded : (s.upload v).addedTo i = s.addedTo i := rfl
      simp only at hcount ⊢
      rw [hprocessed, hin, hwait, hadded, List.count_append]
      omega

end TuningForkImpl

/-! ## Samples that wait

A sample that is not uploaded can still be found in one of the caches.
-/

namespace System

variable {σ : System}

/-- The samples of prong `i` that wait. -/
def waitingOf (σ : System) (i : ℕ) : List Sample :=
  σ.impl.heldIn σ.holding i ++ σ.impl.unrangedOf i

/-- Each sample is uploaded or waits, and as often as it was recorded. -/
theorem Accounted.count_waitingOf (h : σ.Accounted) (i : ℕ) (x : Sample) :
    (σ.impl.addedTo i).count x = (σ.impl.processedOf i).count x + (σ.waitingOf i).count x := by
  rw [h.count_eq, waitingOf, List.count_append, Nat.add_assoc]

/-- Only what was recorded waits. -/
theorem Accounted.mem_added_of_waiting (h : σ.Accounted) {i : ℕ} {x : Sample}
    (hx : x ∈ σ.waitingOf i) : (i, x) ∈ σ.impl.added := by
  have hpos := List.count_pos_iff.mpr hx
  rw [← TuningForkImpl.mem_addedTo, ← List.count_pos_iff, h.count_waitingOf]
  omega

/-- Only what was recorded is uploaded. -/
theorem Accounted.mem_added_of_processed (h : σ.Accounted) {e : TuningForkLogEvent}
    (he : e ∈ σ.impl.uploadThread.processed) {i : ℕ} {x : Sample} (hx : x ∈ e.samples i) :
    (i, x) ∈ σ.impl.added := by
  have hmem : x ∈ σ.impl.processedOf i := List.mem_flatMap.mpr ⟨e, he, hx⟩
  have hpos := List.count_pos_iff.mpr hmem
  rw [← TuningForkImpl.mem_addedTo, ← List.count_pos_iff, h.count_waitingOf]
  omega

end System

/-! ## Runs

The invariant holds after every run of the two threads.
-/

/-- **Every step keeps the account.** -/
theorem System.accounted_step {sqrt : ℚ → ℚ} {σ σ' : System} (h : σ.Accounted)
    (hstep : Step sqrt σ σ') : σ'.Accounted := by
  cases hstep with
  | @body s s' c due hbody =>
    have hbetween := Runs.invariant_of_reachable
      (P := fun s => System.Accounted ⟨s, .between⟩)
      (fun _ _ h hc => TuningForkImpl.accounted_change h hc) h
      (TuningForkImpl.callBody_changes hbody)
    cases due with
    | none => exact hbetween
    | some tNs => exact ⟨hbetween.wf, hbetween.serials, hbetween.ready, hbetween.count_eq⟩
  | prepare hprepare => exact TuningForkImpl.accounted_prepareFlush h hprepare
  | pending => exact ⟨h.wf, h.serials, h.ready, h.count_eq⟩
  | check hready => exact ⟨h.wf, h.serials, hready, h.count_eq⟩
  | @setReady s tNs =>
    -- the current cache is reached through `ready_` now
    have hnone : s.uploadThread.ready = none := h.ready
    refine ⟨h.wf, h.serials, fun c hc => (Option.some.inj hc).symm, fun i d => ?_⟩
    have hcount := h.count_eq i d
    simp only [holding, hnone] at hcount
    exact hcount
  | swap => exact TuningForkImpl.accounted_swapCaches h
  | upload v => exact TuningForkImpl.accounted_upload h v

/-- A new cache has no samples. -/
theorem ProngCache.recorded_allocate {maxKeys : Int32} {histogramSettings : List TFHistogram}
    {serializeId : ℕ → Except (Fault Vec) SerializedAnnotation} {n i : ℕ}
    {ikey : InstrumentationKey} {ps : List Prong}
    (h : allocate maxKeys histogramSettings serializeId n i ikey = .ok ps) :
    ∀ p ∈ ps, p.histogram.Wf ∧ p.histogram.recorded = [] := by
  intro p hp
  obtain ⟨-, hs, hhist⟩ := (allocate_eq_ok h).2 p hp
  exact ⟨Histogram.wf_new hhist, Histogram.recorded_new hhist⟩

namespace TuningForkImpl

variable {sqrt : ℚ → ℚ}

/-- At first there are no samples anywhere. -/
theorem accounted_new {st : Settings} {info : ExtraUploadInfo} {now : TimePoint}
    {s : TuningForkImpl} (h : new st info now = .ok s) : System.Accounted ⟨s, .between⟩ := by
  obtain ⟨histograms, keys, ps, -, hps, rfl⟩ := new_eq_ok h
  have hall := ProngCache.recorded_allocate hps
  have hempty (i : ℕ) : (ps[i]?.map fun p => p.histogram.held).getD [] = [] ∧
      (ps[i]?.map fun p => p.histogram.unranged).getD [] = [] := by
    rcases hp : ps[i]? with _ | p
    · exact ⟨rfl, rfl⟩
    · exact List.append_eq_nil_iff.mp (hall p (List.mem_of_getElem? hp)).2
  refine ⟨fun _ p hp => (hall p hp).1, rfl, fun h => (nomatch h), fun i d => ?_⟩
  simp [addedTo, processedOf, heldIn, unrangedOf, current, System.holding, ProngCache.held,
    ProngCache.unranged, UploadThread.new, hempty i]

/-- **The account holds** after every run. -/
theorem accounted_of_run {st : Settings} {info : ExtraUploadInfo} {now : TimePoint}
    {s₀ : TuningForkImpl} (hnew : new st info now = .ok s₀) {σ : System}
    (hrun : Relation.ReflTransGen (System.Step sqrt) ⟨s₀, .between⟩ σ) : σ.Accounted :=
  Runs.invariant_of_reachable (P := System.Accounted) (fun _ _ => System.accounted_step)
    (accounted_new hnew) hrun

/-- The serial numbers differ, so no sample is in a list twice. -/
theorem nodup_addedTo {s : TuningForkImpl}
    (h : s.added.map (fun a => a.2.serial) = List.range s.added.length) (i : ℕ) :
    (s.addedTo i).Nodup := by
  have hsub : ((s.addedTo i).map fun d => d.serial).Sublist (List.range s.added.length) := by
    rw [← h, addedTo, List.map_map]
    exact List.filter_sublist.map _
  exact (hsub.nodup List.nodup_range).of_map

end TuningForkImpl

end GameSdk
