import GameSdk.SampleAccounting

/-!
# Fidelity parameters

`GetFidelityParameters` stores what it has downloaded in the upload thread at once. An event
takes the parameters that are stored when it is made, whenever its samples were recorded.
Here the downloads run beside the two threads, and each of them is remembered with the
number of samples that were recorded before it returned.

`paramsAt` is the ghost of the model: for each serial number the parameters under which the sample
with this number was recorded. An event is right if all of its samples were recorded under the
parameters it carries.
-/

namespace GameSdk

/-- Parameters, and the experiment they belong to. -/
structure FidelityParams where
  params : List UInt8
  experimentId : ByteString
  deriving DecidableEq, Repr

namespace UploadThread

/-- What the next event will carry. -/
def fidelityParams (u : UploadThread) : FidelityParams :=
  ⟨u.currentFidelityParams, u.extraInfo.experimentId⟩

end UploadThread

namespace TuningForkLogEvent

/-- What an event carries. -/
def fidelity (e : TuningForkLogEvent) : FidelityParams := ⟨e.fidelityParams, e.info.experimentId⟩

end TuningForkLogEvent

/-! ## The downloads

A download returns between two steps of the threads, and stores what it has brought.
-/

/-- The two threads and the downloads. -/
structure Downloads where
  system : System
  /-- ghost: the parameters before the first download -/
  initial : FidelityParams
  /-- ghost: the downloads that have returned, newest first, each with the number of
  samples recorded before -/
  downloads : List (ℕ × FidelityParams)

namespace Downloads

/-- Before the first download. -/
def start (s : TuningForkImpl) : Downloads where
  system := ⟨s, .between⟩
  initial := s.uploadThread.fidelityParams
  downloads := []

variable (d : Downloads)

/-- The parameters of the last download that had returned when the sample with this serial
number was recorded. -/
def paramsAt (serial : ℕ) : FidelityParams :=
  ((d.downloads.find? fun x => x.1 ≤ serial).map fun x => x.2).getD d.initial

/-- Every event carries the parameters that its samples were recorded under. -/
def EventsOk : Prop :=
  ∀ e ∈ d.system.impl.uploadThread.processed, ∀ h ∈ e.histograms, ∀ x ∈ h.held,
    d.paramsAt x.serial = e.fidelity

/-- A sample is counted in a cache that is or will be uploaded, or waits for a range. -/
def Waiting (x : Sample) : Prop :=
  ∃ i, x ∈ d.system.impl.heldIn d.system.holding i ++ d.system.impl.unrangedOf i

/-- The condition on a download: it brings what is stored already, or no sample waits. -/
def StoreOk (p : FidelityParams) : Prop :=
  p = d.system.impl.uploadThread.fidelityParams ∨ ∀ x, ¬ d.Waiting x

/-- A step of one of the threads, or a successful download that is `Allowed`. -/
inductive Step (sqrt : ℚ → ℚ) (Allowed : Downloads → FidelityParams → Prop) :
    Downloads → Downloads → Prop
  | system {d σ} (h : System.Step sqrt d.system σ) : Step sqrt Allowed d { d with system := σ }
  | getFidelityParameters {d s err p} (hok : Allowed d p)
      (h : d.system.impl.getFidelityParameters (some ⟨.ok, p.params, p.experimentId⟩) = (err, s)) :
      Step sqrt Allowed d { d with
        system := ⟨s, d.system.phase⟩
        downloads := (d.system.impl.added.length, p) :: d.downloads }

end Downloads

/-! ## What a step of the threads leaves alone

The threads add samples and events. Only a download stores parameters.
-/

namespace System

/-- Samples are only added, and so are events; the stored parameters stay. -/
structure Grows (σ σ' : System) : Prop where
  added : σ.impl.added <+: σ'.impl.added
  processed : σ.impl.uploadThread.processed <+: σ'.impl.uploadThread.processed
  params : σ'.impl.uploadThread.fidelityParams = σ.impl.uploadThread.fidelityParams
  /-- a new event is made from the cache that is ready -/
  event : ∀ e ∈ σ'.impl.uploadThread.processed, e ∉ σ.impl.uploadThread.processed →
    e.fidelity = σ.impl.uploadThread.fidelityParams ∧
      ∃ c ∈ σ.impl.uploadThread.ready, ∀ i, e.samples i = (σ.impl.prongCaches c).held i

/-- A step that hands on no event. -/
theorem grows_of_uploadThread {σ σ' : System} (hadded : σ.impl.added <+: σ'.impl.added)
    (hprocessed : σ'.impl.uploadThread.processed = σ.impl.uploadThread.processed)
    (hparams : σ'.impl.uploadThread.fidelityParams = σ.impl.uploadThread.fidelityParams) :
    Grows σ σ' where
  added := hadded
  processed := hprocessed ▸ List.prefix_rfl
  params := hparams
  event _ he hnew := absurd (hprocessed ▸ he) hnew

/-- **A step of the threads** adds samples and events, and leaves the parameters. -/
theorem grows_step {sqrt : ℚ → ℚ} {σ σ' : System} (hwf : ∀ c, (σ.impl.prongCaches c).Wf)
    (h : Step sqrt σ σ') : Grows σ σ' := by
  cases h with
  | body hbody =>
    obtain ⟨hadded, hupload⟩ := body_keeps hbody
    exact grows_of_uploadThread hadded (by rw [hupload]) (by rw [hupload])
  | prepare hprepare =>
    obtain ⟨cache, -, rfl⟩ := TuningForkImpl.prepareFlush_eq_ok hprepare
    exact grows_of_uploadThread List.prefix_rfl rfl rfl
  | pending => exact grows_of_uploadThread List.prefix_rfl rfl rfl
  | check => exact grows_of_uploadThread List.prefix_rfl rfl rfl
  | setReady => exact grows_of_uploadThread List.prefix_rfl rfl rfl
  | swap => exact grows_of_uploadThread List.prefix_rfl rfl rfl
  | @upload s phase v =>
    cases hready : s.uploadThread.ready with
    | none =>
      rw [TuningForkImpl.upload_of_none hready]
      exact grows_of_uploadThread List.prefix_rfl rfl rfl
    | some c =>
      -- one event more, of what the ready cache has counted
      have hrun := TuningForkImpl.uploadThread_upload hready v
      refine ⟨List.prefix_rfl, ?_, ?_, fun e he hnew => ?_⟩
      · exact hrun ▸ List.prefix_append _ _
      · exact (congrArg UploadThread.fidelityParams hrun).trans rfl
      · simp only [hrun] at he
        obtain rfl := List.mem_singleton.mp ((List.mem_append.mp he).resolve_left hnew)
        exact ⟨rfl, c, hready, fun i => ClearcutSerializer.samples_serializeEvent (hwf c) _ _ i⟩

end System

/-! ## Where a sample is

A sample that waits after a step is new, or it waited before.
-/

namespace TuningForkImpl

/-- Serial numbers are below the number of samples. -/
theorem serial_lt_of_mem_added {s : TuningForkImpl}
    (hserials : s.added.map (fun a => a.2.serial) = List.range s.added.length) {a : ℕ × Sample}
    (ha : a ∈ s.added) : a.2.serial < s.added.length := by
  have hmem : a.2.serial ∈ s.added.map fun a => a.2.serial := List.mem_map_of_mem ha
  rwa [hserials, List.mem_range] at hmem

/-- The serial numbers of what is appended go on where they were. -/
theorem mem_added_of_lt {s s' : TuningForkImpl} (hgrows : s.added <+: s'.added)
    (hserials : s'.added.map (fun a => a.2.serial) = List.range s'.added.length) {a : ℕ × Sample}
    (ha : a ∈ s'.added) (hlt : a.2.serial < s.added.length) : a ∈ s.added := by
  obtain ⟨j, hj, rfl⟩ := List.mem_iff_getElem.mp ha
  have hj' : j < s.added.length := serial_getElem hserials hj ▸ hlt
  rw [← hgrows.getElem hj']
  exact List.getElem_mem hj'

end TuningForkImpl

namespace System

variable {σ σ' : System}

/-- **A sample that waits was just recorded or has waited before.** -/
theorem waiting_of_grows (h : σ.Accounted) (h' : σ'.Accounted) (hgrows : Grows σ σ') {i : ℕ}
    {x : Sample} (hx : x ∈ σ'.waitingOf i) :
    σ.impl.added.length ≤ x.serial ∨ x ∈ σ.waitingOf i := by
  refine (Nat.lt_or_ge x.serial σ.impl.added.length).symm.imp_right fun hlt => ?_
  have hold := TuningForkImpl.mem_added_of_lt hgrows.added h'.serials
    (h'.mem_added_of_waiting hx) hlt
  -- it is in one place only, so it was not handed on before
  have hone := List.nodup_iff_count_le_one.mp (TuningForkImpl.nodup_addedTo h'.serials i) x
  have hpos := List.count_pos_iff.mpr hx
  have hpos' := List.count_pos_iff.mpr (TuningForkImpl.mem_addedTo.mpr hold)
  have hle : (σ.impl.processedOf i).count x ≤ (σ'.impl.processedOf i).count x := by
    obtain ⟨es, hes⟩ := hgrows.processed
    unfold TuningForkImpl.processedOf
    rw [← hes, List.flatMap_append, List.count_append]
    omega
  rw [h'.count_waitingOf] at hone
  rw [h.count_waitingOf] at hpos'
  exact List.count_pos_iff.mp (by omega)

end System

namespace TuningForkLogEvent

/-- A sample of a histogram is one of the event. -/
theorem mem_samples {e : TuningForkLogEvent} {h : ClearcutHistogram} (hh : h ∈ e.histograms)
    {x : Sample} (hx : x ∈ h.held) : x ∈ e.samples h.prong :=
  List.mem_flatMap.mpr ⟨h, hh, by rw [if_pos rfl]; exact hx⟩

end TuningForkLogEvent

namespace Downloads

variable {d : Downloads}

/-! ## The invariant

All samples that wait were recorded under what is stored. A download breaks this unless nothing
waits, or it brings what is there.
-/

/-- What is stored is what the waiting samples were recorded under. -/
structure Inv (d : Downloads) : Prop where
  accounted : d.system.Accounted
  /-- what is stored is what the next sample will be recorded under -/
  stored : ∀ serial, d.system.impl.added.length ≤ serial →
    d.paramsAt serial = d.system.impl.uploadThread.fidelityParams
  waiting : ∀ x, d.Waiting x →
    d.paramsAt x.serial = d.system.impl.uploadThread.fidelityParams
  events : d.EventsOk

/-- At first nothing waits. -/
theorem inv_start {st : Settings} {info : ExtraUploadInfo} {now : TimePoint}
    {s : TuningForkImpl} (h : TuningForkImpl.new st info now = .ok s) : (start s).Inv where
  accounted := TuningForkImpl.accounted_new h
  stored _ _ := rfl
  waiting _ _ := rfl
  events := by
    obtain ⟨histograms, keys, ps, -, -, rfl⟩ := TuningForkImpl.new_eq_ok h
    exact fun e he => absurd he List.not_mem_nil

/-- The threads keep the invariant. -/
theorem inv_system {sqrt : ℚ → ℚ} {σ : System} (hinv : d.Inv)
    (hstep : System.Step sqrt d.system σ) : { d with system := σ }.Inv := by
  have hacc := System.accounted_step hinv.accounted hstep
  have hgrows := System.grows_step hinv.accounted.wf hstep
  refine ⟨hacc, fun serial hserial => ?_, fun x hx => ?_, fun e he h hh x hx => ?_⟩
  · exact (hinv.stored serial (hgrows.added.length_le.trans hserial)).trans hgrows.params.symm
  · obtain ⟨i, hx⟩ := hx
    refine Eq.trans ?_ hgrows.params.symm
    rcases System.waiting_of_grows hinv.accounted hacc hgrows hx with hnew | hold
    · exact hinv.stored x.serial hnew
    · exact hinv.waiting x ⟨i, hold⟩
  · by_cases hold : e ∈ d.system.impl.uploadThread.processed
    · exact hinv.events e hold h hh x hx
    · obtain ⟨hparams, c, hc, hsamples⟩ := hgrows.event e he hold
      refine Eq.trans (hinv.waiting x ⟨h.prong, List.mem_append_left _ ?_⟩) hparams.symm
      have hmem := TuningForkLogEvent.mem_samples hh hx
      rw [hsamples] at hmem
      refine List.mem_flatMap.mpr ⟨c, ?_, hmem⟩
      rw [System.holding]
      split
      · exact Option.mem_toList.mpr hc
      · exact List.mem_append_left _ (Option.mem_toList.mpr hc)

/-- A download does not change what older samples were recorded under. -/
theorem paramsAt_cons {n serial : ℕ} (hlt : serial < n) (system : System) (p : FidelityParams) :
    paramsAt { d with system, downloads := (n, p) :: d.downloads } serial = d.paramsAt serial := by
  unfold paramsAt
  rw [List.find?_cons_of_neg (by simpa using hlt)]

/-- A download that meets the condition keeps the invariant. -/
theorem inv_getFidelityParameters {p : FidelityParams} {err : TFErrorCode} {s : TuningForkImpl}
    (hinv : d.Inv) (hok : d.StoreOk p)
    (h : d.system.impl.getFidelityParameters (some ⟨.ok, p.params, p.experimentId⟩) = (err, s)) :
    { d with
      system := ⟨s, d.system.phase⟩
      downloads := (d.system.impl.added.length, p) :: d.downloads }.Inv := by
  obtain ⟨rfl, rfl⟩ := Prod.mk.inj h
  have hacc := hinv.accounted
  have hold {i : ℕ} {x : Sample} (hx : (i, x) ∈ d.system.impl.added) :
      x.serial < d.system.impl.added.length :=
    TuningForkImpl.serial_lt_of_mem_added hacc.serials hx
  refine ⟨⟨hacc.wf, hacc.serials, hacc.ready, hacc.count_eq⟩, fun serial hserial => ?_,
    fun x hx => ?_, fun e he h hh x hx => ?_⟩
  · rw [paramsAt, List.find?_cons_of_pos (by simpa using hserial)]
    rfl
  · obtain ⟨i, hx⟩ := hx
    have hwaiting : d.Waiting x := ⟨i, hx⟩
    rcases hok with rfl | hnone
    · exact (paramsAt_cons (hold (hacc.mem_added_of_waiting hx)) _ _).trans
        (hinv.waiting x hwaiting)
    · exact absurd hwaiting (hnone x)
  · have hmem := TuningForkLogEvent.mem_samples hh hx
    exact (paramsAt_cons (hold (hacc.mem_added_of_processed he hmem)) _ _).trans
      (hinv.events e he h hh x hx)

/-! ## Every run

The run lemma, and a run that meets the condition.
-/

/-- **No sample is uploaded under other parameters than it was recorded under** in a run
whose downloads meet `StoreOk`, however the two threads and the downloads interleave. -/
theorem eventsOk_of_storeOk {sqrt : ℚ → ℚ} {st : Settings} {info : ExtraUploadInfo}
    {now : TimePoint} {s : TuningForkImpl} (hnew : TuningForkImpl.new st info now = .ok s)
    {d : Downloads} (hrun : Relation.ReflTransGen (Step sqrt StoreOk) (start s) d) :
    d.EventsOk := by
  have hinv : d.Inv := by
    refine Runs.invariant_of_reachable (P := Inv) (fun d d' hd hstep => ?_) (inv_start hnew) hrun
    rcases hstep with hsystem | ⟨hok, h⟩
    · exact inv_system hd hsystem
    · exact inv_getFidelityParameters hd hok h
  exact hinv.events

/-- The threads run while no download returns. -/
theorem steps_of_system {sqrt : ℚ → ℚ} {Allowed : Downloads → FidelityParams → Prop} {σ : System}
    (h : Relation.ReflTransGen (System.Step sqrt) d.system σ) :
    Relation.ReflTransGen (Step sqrt Allowed) d { d with system := σ } := by
  induction h with
  | refl => exact .refl
  | tail _ hstep ih => exact ih.tail (.system hstep)

/-- No sample waits if the caches that are to be uploaded have counted none, and no histogram of
either cache has samples without a range. -/
theorem not_waiting_of_empty
    (hheld : ∀ c ∈ d.system.holding, ∀ p ∈ (d.system.impl.prongCaches c).prongs,
      p.histogram.held = [])
    (hunranged : ∀ c, ∀ p ∈ (d.system.impl.prongCaches c).prongs, p.histogram.unranged = [])
    (x : Sample) : ¬ d.Waiting x := by
  have hheld' : ∀ c ∈ d.system.holding, ∀ i, (d.system.impl.prongCaches c).held i = [] := by
    intro c hc i
    rw [ProngCache.held]
    cases hp : (d.system.impl.prongCaches c).prongs[i]? with
    | none => rfl
    | some p => exact hheld c hc p (List.mem_of_getElem? hp)
  have hunranged' : ∀ c i, (d.system.impl.prongCaches c).unranged i = [] := by
    intro c i
    rw [ProngCache.unranged]
    cases hp : (d.system.impl.prongCaches c).prongs[i]? with
    | none => rfl
    | some p => exact hunranged c p (List.mem_of_getElem? hp)
  rintro ⟨i, hx⟩
  rcases List.mem_append.mp hx with hx | hx
  · obtain ⟨c, hc, hmem⟩ := List.mem_flatMap.mp hx
    rw [hheld' c hc i] at hmem
    exact List.not_mem_nil hmem
  · rw [TuningForkImpl.unrangedOf, TuningForkImpl.current, hunranged', hunranged'] at hx
    exact List.not_mem_nil hx

/-- A sample, a flush and its upload; then a download, which finds no sample waiting; then another
sample, flush and upload. Each of the two events carries the parameters of its sample. -/
theorem eventsOk_of_storeOk_run :
    ∃ s₀ d, TuningForkImpl.new twoKeys noExtraInfo 0 = .ok s₀ ∧
      Relation.ReflTransGen (Step (fun x => x) StoreOk) (start s₀) d ∧
      d.downloads = [(1, ⟨[1], [2]⟩)] ∧
      d.system.impl.uploadThread.processed.map TuningForkLogEvent.fidelity =
        [⟨[], []⟩, ⟨[1], [2]⟩] ∧ d.EventsOk := by
  have hok : (TuningForkImpl.new twoKeys noExtraInfo 0 >>= fun s₀ =>
      Runs.runChecked (TuningForkImpl.step fun x => x) s₀
          [.call (.frameDeltaTimeNanos 7 16000000 5), .call (.flush 61000000000),
            .upload 0x30002] >>= fun s₁ =>
        (Runs.runChecked (TuningForkImpl.step fun x => x)
          (s₁.getFidelityParameters (some ⟨.ok, [1], [2]⟩)).2
          [.call (.frameDeltaTimeNanos 7 17000000 6), .call (.flush 122000000000),
            .upload 0x30002]).map fun s =>
            (s₁.added.length,
              decide (∀ c ∈ System.holding ⟨s₁, .between⟩, ∀ p ∈ (s₁.prongCaches c).prongs,
                p.histogram.held = []),
              decide (∀ c, ∀ p ∈ (s₁.prongCaches c).prongs, p.histogram.unranged = []),
              s.uploadThread.processed.map TuningForkLogEvent.fidelity)) =
      .ok (1, true, true, [⟨[], []⟩, ⟨[1], [2]⟩]) := by
    decide +kernel
  obtain ⟨s₀, hnew, hok⟩ := Checked.bind_eq_ok.mp hok
  obtain ⟨s₁, hs₁, hok⟩ := Checked.bind_eq_ok.mp hok
  obtain ⟨s, hs, heq⟩ := Checked.map_eq_ok.mp hok
  obtain ⟨hlength, hheld, hunranged, hprocessed⟩ : _ ∧ _ ∧ _ ∧ _ := by
    simpa only [Prod.mk.injEq] using heq
  let d₁ : Downloads := { start s₀ with system := ⟨s₁, .between⟩ }
  have hstore : d₁.StoreOk ⟨[1], [2]⟩ :=
    .inr (not_waiting_of_empty (d := d₁) (of_decide_eq_true hheld) (of_decide_eq_true hunranged))
  let d₂ : Downloads := { d₁ with
    system := ⟨(s₁.getFidelityParameters (some ⟨.ok, [1], [2]⟩)).2, .between⟩
    downloads := [(s₁.added.length, ⟨[1], [2]⟩)] }
  have hrun₂ : Relation.ReflTransGen (Step (fun x => x) StoreOk) (start s₀) d₂ :=
    (steps_of_system (d := start s₀) (System.steps_of_runChecked hs₁)).tail
      (.getFidelityParameters (p := ⟨[1], [2]⟩) hstore rfl)
  have hrun := hrun₂.trans (steps_of_system (d := d₂) (System.steps_of_runChecked hs))
  refine ⟨s₀, { d₂ with system := ⟨s, .between⟩ }, hnew, hrun, ?_, hprocessed,
    eventsOk_of_storeOk hnew hrun⟩
  rw [← hlength]

/-- A sample, a download, a flush, the upload: the sample is uploaded under parameters that
came after it. -/
theorem not_eventsOk_download :
    ∃ s₀ d, TuningForkImpl.new twoKeys noExtraInfo 0 = .ok s₀ ∧
      Relation.ReflTransGen (Step (fun x => x) fun _ _ => True) (start s₀) d ∧ ¬ d.EventsOk := by
  have hok : (TuningForkImpl.new twoKeys noExtraInfo 0 >>= fun s₀ =>
      Runs.runChecked (TuningForkImpl.step fun x => x) s₀
          [.call (.frameDeltaTimeNanos 7 16000000 5)] >>= fun s₁ =>
        (Runs.runChecked (TuningForkImpl.step fun x => x)
          (s₁.getFidelityParameters (some ⟨.ok, [1], [2]⟩)).2
          [.call (.flush 61000000000), .upload 0x30002]).map fun s =>
            (s₀.uploadThread.fidelityParams, s₁.added.length,
              s.uploadThread.processed.map fun e =>
                (e.fidelity, e.histograms.map fun h => h.held.map fun x => x.serial))) =
      .ok (⟨[], []⟩, 1, [(⟨[1], [2]⟩, [[0]])]) := by
    decide +kernel
  obtain ⟨s₀, hnew, hok⟩ := Checked.bind_eq_ok.mp hok
  obtain ⟨s₁, hs₁, hok⟩ := Checked.bind_eq_ok.mp hok
  obtain ⟨s, hs, heq⟩ := Checked.map_eq_ok.mp hok
  obtain ⟨hinitial, hlength, hprocessed⟩ : _ ∧ _ ∧ _ := by simpa only [Prod.mk.injEq] using heq
  let d₁ : Downloads := { start s₀ with
    system := ⟨(s₁.getFidelityParameters (some ⟨.ok, [1], [2]⟩)).2, .between⟩
    downloads := [(s₁.added.length, ⟨[1], [2]⟩)] }
  have hrun₁ : Relation.ReflTransGen (Step (fun x => x) fun _ _ => True) (start s₀) d₁ :=
    (steps_of_system (d := start s₀) (System.steps_of_runChecked hs₁)).tail
      (.getFidelityParameters (p := ⟨[1], [2]⟩) trivial rfl)
  refine ⟨s₀, { d₁ with system := ⟨s, .between⟩ }, hnew,
    hrun₁.trans (steps_of_system (d := d₁) (System.steps_of_runChecked hs)), fun hevents => ?_⟩
  obtain ⟨e, he, heq⟩ := List.map_eq_singleton_iff.mp hprocessed
  obtain ⟨hfidelity, hheld⟩ := Prod.mk.inj heq
  obtain ⟨h, hh, hserials⟩ := List.map_eq_singleton_iff.mp hheld
  obtain ⟨x, hx, hserial⟩ := List.map_eq_singleton_iff.mp hserials
  have hparams := hevents e (by rw [he]; exact List.mem_singleton_self e) h
    (by rw [hh]; exact List.mem_singleton_self h) x (by rw [hx]; exact List.mem_singleton_self x)
  rw [hserial, hfidelity] at hparams
  have hbefore : paramsAt { d₁ with system := ⟨s, .between⟩ } 0 = ⟨[], []⟩ := by
    simp [paramsAt, d₁, hlength, start, hinitial]
  exact absurd (hbefore.symm.trans hparams) (by decide)

end Downloads

/-! ## Downloads that fail

A download that fails is to leave everything as it is.
-/

namespace System

variable {sqrt : ℚ → ℚ} {σ σ' : System}

/-- A step of the threads makes at most one event, of what is stored. -/
theorem appends_of_step (h : Step sqrt σ σ') :
    σ'.impl.uploadThread.fidelityParams = σ.impl.uploadThread.fidelityParams ∧
      ∃ es, σ'.impl.uploadThread.processed = σ.impl.uploadThread.processed ++ es ∧
        ∀ e ∈ es, e.fidelity = σ.impl.uploadThread.fidelityParams := by
  have hnone {es : List TuningForkLogEvent} {p : FidelityParams} :
      ∃ es', es = es ++ es' ∧ ∀ e ∈ es', e.fidelity = p :=
    ⟨[], (List.append_nil es).symm, fun e he => absurd he List.not_mem_nil⟩
  cases h with
  | body hbody =>
    obtain ⟨-, hupload⟩ := body_keeps hbody
    rw [hupload]
    exact ⟨rfl, hnone⟩
  | prepare hprepare =>
    obtain ⟨cache, -, rfl⟩ := TuningForkImpl.prepareFlush_eq_ok hprepare
    exact ⟨rfl, hnone⟩
  | pending => exact ⟨rfl, hnone⟩
  | check => exact ⟨rfl, hnone⟩
  | setReady => exact ⟨rfl, hnone⟩
  | swap => exact ⟨rfl, hnone⟩
  | @upload s phase v =>
    cases hready : s.uploadThread.ready with
    | none =>
      rw [TuningForkImpl.upload_of_none hready]
      exact ⟨rfl, hnone⟩
    | some c =>
      rw [TuningForkImpl.uploadThread_upload hready]
      refine ⟨rfl, _, rfl, fun e he => ?_⟩
      obtain rfl := List.mem_singleton.mp he
      rfl

/-! ### What later events carry

The events from here to the next download, as the threads may still make them.
-/

/-- Every event from here on, until another download returns, carries the parameters. -/
def EventsCarry (sqrt : ℚ → ℚ) (σ : System) (p : FidelityParams) : Prop :=
  ∀ σ', Relation.ReflTransGen (Step sqrt) σ σ' →
    ∃ es, σ'.impl.uploadThread.processed = σ.impl.uploadThread.processed ++ es ∧
      ∀ e ∈ es, e.fidelity = p

/-- Events carry what is stored. -/
theorem eventsCarry_stored (sqrt : ℚ → ℚ) (σ : System) :
    σ.EventsCarry sqrt σ.impl.uploadThread.fidelityParams := by
  intro σ' hrun
  refine (Runs.invariant_of_reachable
    (P := fun τ => τ.impl.uploadThread.fidelityParams = σ.impl.uploadThread.fidelityParams ∧
      ∃ es, τ.impl.uploadThread.processed = σ.impl.uploadThread.processed ++ es ∧
        ∀ e ∈ es, e.fidelity = σ.impl.uploadThread.fidelityParams) ?_
    ⟨rfl, [], (List.append_nil _).symm, fun e he => absurd he List.not_mem_nil⟩ hrun).2
  rintro τ τ' ⟨hparams, es, hes, hfidelity⟩ hstep
  obtain ⟨hparams', es', hes', hfidelity'⟩ := appends_of_step hstep
  refine ⟨hparams'.trans hparams, es ++ es', ?_, fun e he => ?_⟩
  · rw [hes', hes, List.append_assoc]
  · rcases List.mem_append.mp he with he | he
    · exact hfidelity e he
    · exact (hfidelity' e he).trans hparams

end System

/-- A call whose download fails changes neither what is stored nor what later events carry. -/
def FailureKeeps (sqrt : ℚ → ℚ) (σ : System) (loaded : TuningForkImpl.LoadedParams) : Prop :=
  loaded.result ≠ .ok →
    (σ.impl.getFidelityParameters (some loaded)).2.uploadThread.fidelityParams =
        σ.impl.uploadThread.fidelityParams ∧
      System.EventsCarry sqrt ⟨(σ.impl.getFidelityParameters (some loaded)).2, σ.phase⟩
        σ.impl.uploadThread.fidelityParams

/-- **A failed download keeps the parameters** exactly when the loader leaves in its arguments
what is stored already. -/
theorem failureKeeps_iff (sqrt : ℚ → ℚ) (σ : System) (loaded : TuningForkImpl.LoadedParams) :
    FailureKeeps sqrt σ loaded ↔
      (loaded.result ≠ .ok →
        loaded.paramsSer = σ.impl.uploadThread.currentFidelityParams ∧
          loaded.experimentId = σ.impl.uploadThread.extraInfo.experimentId) := by
  refine forall_congr' fun _ => ?_
  have hstored : (σ.impl.getFidelityParameters (some loaded)).2.uploadThread.fidelityParams =
      ⟨loaded.paramsSer, loaded.experimentId⟩ := rfl
  rw [hstored, UploadThread.fidelityParams, FidelityParams.mk.injEq]
  refine and_iff_left_of_imp fun ⟨hparams, hid⟩ => ?_
  -- what it stores is what was stored
  rw [← hparams, ← hid]
  exact System.eventsCarry_stored sqrt _

/-- Parameters are downloaded, then a download fails without any. -/
theorem not_failureKeeps_lost :
    ∃ s, TuningForkImpl.new twoKeys noExtraInfo 0 = .ok s ∧
      ¬ FailureKeeps (fun x => x) ⟨(s.getFidelityParameters (some ⟨.ok, [1], [2]⟩)).2, .between⟩
        ⟨.noFidelityParams, [], []⟩ := by
  have hok : (TuningForkImpl.new twoKeys noExtraInfo 0).map (fun _ => ()) = .ok () := by
    decide +kernel
  obtain ⟨s, hnew, -⟩ := Checked.map_eq_ok.mp hok
  refine ⟨s, hnew, fun hkeeps => ?_⟩
  exact absurd (hkeeps (by decide)).1 (by simp [TuningForkImpl.getFidelityParameters,
    UploadThread.setCurrentFidelityParams, UploadThread.fidelityParams])

end GameSdk
