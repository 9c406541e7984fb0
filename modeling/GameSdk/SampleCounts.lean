import GameSdk.ClearcutSerializer
import GameSdk.HistogramRuns

/-!
# What is added and what is sent

The samples of a run are remembered in two lists: `added`, which grows when a sample is given to
a histogram, and `held`, which grows when a histogram counts one. Nothing in the code reads
them. Here they are tied to what it does read and write.

* Each call of the game adds the sample that its arguments and the state say: the time since the
  last tick of the prong, the time that was passed, or the time since the trace was started. It
  adds it to the prong of its compound id, and adds none where there is no such prong.
* A bucket holds the number of the samples in `held` that belong into it. The counts of an event
  are those of the samples it was sent for.

A bucket is a `uint32_t`, so the numbers are those modulo `2^32`.
-/

namespace GameSdk

namespace TuningForkImpl

/-! ## The sample of a call

`measured` is the duration that a call measures, and `added_of_callBody` says that it is what the
call adds.
-/

section Added

variable (s : TuningForkImpl)

/-- The prong that the calls for a key go to, by its compound id: there is none if there is no
index for the key, or if the id is beyond the cache. -/
def prongOf (key : InstrumentationKey) : Option (UInt64 × Prong) :=
  match s.keys.getOrCreateInstrumentKeyIndex key with
  | .ok (some i, _) =>
    let id := UInt64.ofNat i + s.currentAnnotationId
    s.current.prongs[id.toNat]?.map fun p => (id, p)
  | _ => none

/-- The time that a call measures, and the prong that it is for. A first tick has nothing to
measure from, and a handle is only good while its trace is live. -/
def measured : Call → Option (UInt64 × Duration)
  | .frameTick key t =>
    (s.prongOf key).bind fun (id, p) =>
      if p.lastTimeNs ≠ TimePoint.min then some (id, t - p.lastTimeNs) else none
  | .frameDeltaTimeNanos key dt _ => (s.prongOf key).map fun (id, _) => (id, dt)
  | .endTrace handle now =>
    s.liveTraces[handle.toNat]?.bind fun start =>
      if start ≠ TimePoint.min ∧ handle.toNat < s.current.prongs.length then
        some (handle, now - start)
      else none
  | _ => none

/-- A measured time as the sample that is added. -/
def sampleOf : UInt64 × Duration → ℕ × Sample
  | (id, dt) => (id.toNat, Prong.sample dt s.added.length)

end Added

variable {sqrt : ℚ → ℚ} {s s' : TuningForkImpl}

theorem prongOf_eq {key : InstrumentationKey} {r : Option ℕ} {keys : InstrumentKeys}
    (hkeys : s.keys.getOrCreateInstrumentKeyIndex key = .ok (r, keys)) :
    s.prongOf key = r.bind fun i =>
      s.current.prongs[(UInt64.ofNat i + s.currentAnnotationId).toNat]?.map fun p =>
        (UInt64.ofNat i + s.currentAnnotationId, p) := by
  rw [prongOf, hkeys]
  cases r <;> rfl

/-- A key without a prong. -/
theorem prongOf_eq_none {key : InstrumentationKey} {r : Option ℕ} {keys : InstrumentKeys}
    (hkeys : s.keys.getOrCreateInstrumentKeyIndex key = .ok (r, keys))
    (hnone : ∀ i, r = some i →
      s.current.prongs[(UInt64.ofNat i + s.currentAnnotationId).toNat]? = none) :
    s.prongOf key = none := by
  rw [prongOf_eq hkeys]
  cases r with
  | none => rfl
  | some i => rw [Option.bind_some, hnone i rfl, Option.map_none]

/-- **The sample of a call.** The body of a call adds the sample of the time that it measures,
numbered by the samples before it, and no other; what follows of the call, a flush, adds none. -/
theorem added_of_callBody {c : Call} {due : Option TimePoint}
    (h : s.callBody sqrt c = .ok (due, s')) :
    s'.added = s.added ++ ((s.measured c).map s.sampleOf).toList := by
  cases c with
  | setCurrentAnnotation ann =>
    cases h
    rw [annotated_eq]
    exact (List.append_nil _).symm
  | frameTick key t =>
    obtain ⟨⟨err, r⟩, hbody, rfl⟩ := Checked.map_eq_ok.mp h
    obtain ⟨r, keys, hkeys, ⟨rfl, hnone⟩ | ⟨i, p, p', rfl, hget, -, rfl⟩⟩ :=
      frameTickBody_eq_ok hbody
    · rw [measured, prongOf_eq_none hkeys hnone]
      exact (List.append_nil _).symm
    · let id := UInt64.ofNat i + s.currentAnnotationId
      have htick : s.measured (.frameTick key t) =
          if p.lastTimeNs ≠ TimePoint.min then some (id, t - p.lastTimeNs) else none := by
        rw [measured, prongOf_eq hkeys, Option.bind_some, hget]
        rfl
      rw [htick]
      change s.added ++ (tickSamples p t s.added.length).map (fun d => (id.toNat, d)) = _
      by_cases hmin : p.lastTimeNs ≠ TimePoint.min
      · rw [tickSamples, if_pos hmin, if_pos hmin]
        rfl
      · rw [tickSamples, if_neg hmin, if_neg hmin]
        rfl
  | frameDeltaTimeNanos key dt now =>
    obtain ⟨⟨err, r⟩, hbody, rfl⟩ := Checked.map_eq_ok.mp h
    obtain ⟨r, keys, hkeys, ⟨rfl, hnone⟩ | ⟨i, p, p', rfl, hget, -, rfl⟩⟩ :=
      frameDeltaTimeNanosBody_eq_ok hbody
    · rw [measured, prongOf_eq_none hkeys hnone]
      exact (List.append_nil _).symm
    · rw [measured, prongOf_eq hkeys, Option.bind_some, hget]
      rfl
  | startTrace key now =>
    obtain ⟨⟨err, handle, s₁⟩, hbody, heq⟩ := Checked.map_eq_ok.mp h
    obtain ⟨-, rfl⟩ := Prod.mk.inj heq
    obtain ⟨r, keys, -, -, ⟨-, rfl⟩ | ⟨id, -, rfl⟩⟩ := startTrace_eq_ok hbody
    · exact (List.append_nil _).symm
    · exact (List.append_nil _).symm
  | endTrace handle now =>
    obtain ⟨⟨err, s₁⟩, hbody, heq⟩ := Checked.map_eq_ok.mp h
    obtain ⟨-, rfl⟩ := Prod.mk.inj heq
    rcases endTrace_eq_ok hbody with
      ⟨rfl, hdead⟩ | ⟨t, s₂, hlive, hmin, rfl, ⟨rfl, hnone⟩ | ⟨p, p', hget, -, rfl⟩⟩
    · -- no trace is live under the handle
      suffices hnone : s₁.measured (.endTrace handle now) = none by
        rw [hnone]
        exact (List.append_nil _).symm
      rw [measured]
      cases hget : s₁.liveTraces[handle.toNat]? with
      | none => rfl
      | some t => exact if_neg fun hlive => hlive.1 (hdead t hget)
    · have hge : ¬ handle.toNat < s₂.current.prongs.length :=
        not_lt.mpr (List.getElem?_eq_none_iff.mp hnone)
      rw [measured, hlive, Option.bind_some, if_neg fun hboth => hge hboth.2]
      exact (List.append_nil _).symm
    · have hlt : handle.toNat < s.current.prongs.length := (List.getElem?_eq_some_iff.mp hget).1
      rw [measured, hlive, Option.bind_some, if_pos ⟨hmin, hlt⟩]
      rfl
  | flush t =>
    cases h
    exact (List.append_nil _).symm

end TuningForkImpl

/-! ## Counters

A list of counters counts a list of samples, each in the counter that a function gives it. -/

/-- The counters are those of the samples, each in its bucket, modulo `2^32`. -/
structure Tally (counts : List UInt32) (ds : List Sample) (bucket : Sample → ℕ) : Prop where
  lt : ∀ d ∈ ds, bucket d < counts.length
  getElem_eq : ∀ k (hk : k < counts.length),
    counts[k] = UInt32.ofNat (ds.countP fun d => decide (bucket d = k))

namespace Tally

variable {counts : List UInt32} {ds : List Sample} {bucket : Sample → ℕ}

theorem replicate (n : ℕ) (bucket : Sample → ℕ) : Tally (List.replicate n 0) [] bucket :=
  ⟨fun _ hd => absurd hd List.not_mem_nil, fun _ _ => List.getElem_replicate ..⟩

/-- The counters of no samples are zero, whatever the buckets are. -/
theorem of_nil (h : Tally counts [] bucket) (bucket' : Sample → ℕ) : Tally counts [] bucket' :=
  ⟨fun _ hd => absurd hd List.not_mem_nil, h.getElem_eq⟩

/-- One more sample is one more in its bucket. -/
theorem concat (h : Tally counts ds bucket) {d : Sample} (hlt : bucket d < counts.length) :
    Tally (counts.modify (bucket d) (· + 1)) (ds ++ [d]) bucket := by
  refine ⟨fun d' hd' => ?_, fun k hk => ?_⟩
  · rw [List.length_modify]
    rcases List.mem_append.mp hd' with hd' | hd'
    · exact h.lt d' hd'
    · obtain rfl := List.mem_singleton.mp hd'
      exact hlt
  · have hk' : k < counts.length := hk.trans_eq (List.length_modify ..)
    have hcount : (ds ++ [d]).countP (fun d' => decide (bucket d' = k)) =
        ds.countP (fun d' => decide (bucket d' = k)) + if bucket d = k then 1 else 0 := by
      simp only [List.countP_append, List.countP_singleton, decide_eq_true_eq]
    rw [List.getElem_modify, hcount, UInt32.ofNat_add, ← h.getElem_eq k hk']
    by_cases hd : bucket d = k
    · rw [if_pos hd, if_pos hd]
      rfl
    · rw [if_neg hd, if_neg hd]
      exact (UInt32.add_zero _).symm

end Tally

/-! ## The buckets of a histogram

`Tells` compares the buckets with the samples that are held. `Add` keeps it, whether it sorts one
sample into a bucket or all that have waited for the range.
-/

namespace Histogram

variable {sqrt : ℚ → ℚ} {h h' : Histogram} {d : Sample}

/-- Each bucket has the number of the samples counted in it. -/
def Tells (h : Histogram) : Prop := Tally h.buckets h.held h.bucketOf

theorem tells_new {startMs endMs : ℚ} {n : Int32} (hnew : new startMs endMs n = .ok h) :
    h.Tells := by
  obtain ⟨dt, -, hok⟩ := Checked.bind_eq_ok.mp hnew
  cases hok
  exact .replicate _ _

theorem tells_clear (h : Histogram) (autorange : Bool) : (h.clear autorange).Tells := by
  have hzero : (h.clear autorange).buckets = List.replicate h.buckets.length 0 := List.map_const' ..
  rw [Tells, hzero]
  exact .replicate _ _

theorem tells_addToBuckets (hh : h.Tells) (hadd : h.addToBuckets d = .ok h') : h'.Tells := by
  obtain ⟨x, hx, hadd⟩ := Checked.bind_eq_ok.mp hadd
  obtain ⟨buckets, hmodify, hadd⟩ := Checked.bind_eq_ok.mp hadd
  obtain ⟨hlt, rfl⟩ := Checked.modify_eq_ok hmodify
  cases hadd
  rw [divide] at hx
  split at hx
  · cases hx
  · cases hx
    exact hh.concat hlt

/-- The samples that waited are counted in the buckets of the range taken from them; the buckets
were empty before. -/
theorem tells_calcBucketsFromSamples (hh : h.Tells) (hheld : h.held = [])
    (hcalc : h.calcBucketsFromSamples sqrt = .ok h') : h'.Tells := by
  obtain ⟨⟨startMs, endMs, bucketDtMs⟩, -, hfold⟩ := Checked.bind_eq_ok.mp hcalc
  rw [Tells, hheld] at hh
  refine Checked.foldlM_invariant (P := Tells) (fun _ _ _ => tells_addToBuckets) ?_ hfold
  change Tally h.buckets h.held _
  rw [hheld]
  exact hh.of_nil _

/-- **`Add` keeps the buckets those of the samples held**, whether it counts the sample, lets it
wait, or counts all those that waited. -/
theorem tells_add (hwf : h.Wf) (hh : h.Tells) (hadd : h.add sqrt d = .ok h') : h'.Tells := by
  rw [add] at hadd
  by_cases hauto : h.autoRange = true
  · rw [if_pos hauto] at hadd
    by_cases hfull : (h.pushSample d).samples.length = (h.pushSample d).capacity
    · simp only [if_pos hfull] at hadd
      refine tells_calcBucketsFromSamples (h := h.pushSample d) ?_ (hwf.held_eq_nil hauto) hadd
      exact hh
    · simp only [if_neg hfull] at hadd
      obtain rfl : h.pushSample d = h' := Except.ok.inj hadd
      exact hh
  · rw [if_neg hauto] at hadd
    exact tells_addToBuckets hh hadd

/-- What is kept of a histogram throughout a run. -/
structure Faithful (h : Histogram) : Prop where
  sized : h.Sized
  wf : h.Wf
  tells : h.Tells

theorem faithful_ofSettings {hs : TFHistogram} (hnew : ofSettings hs = .ok h) : h.Faithful :=
  ⟨sized_ofSettings hnew, wf_new hnew, tells_new hnew⟩

theorem faithful_add (hh : h.Faithful) (hadd : h.add sqrt d = .ok h') : h'.Faithful :=
  ⟨sized_add hh.sized hadd, (recorded_add hh.wf hadd).1, tells_add hh.wf hh.tells hadd⟩

theorem faithful_clear (hh : h.Faithful) : h.clear.Faithful :=
  ⟨sized_clear hh.sized, wf_clear, tells_clear h false⟩

end Histogram

/-! ## Runs of the two threads

Each histogram and each event of a run tells what it holds.
-/

namespace System

variable {sqrt : ℚ → ℚ} {σ σ' : System}

/-- The counts that were sent are those of the samples they were sent for, in the buckets of some
histogram. -/
def SentFaithfully (σ : System) : Prop :=
  ∀ e ∈ σ.impl.uploadThread.processed, ∀ c ∈ e.histograms,
    ∃ h : Histogram, Tally c.counts c.held h.bucketOf

/-- What is filled in for a prong. -/
theorem tally_serializeEvent {pc : ProngCache} (hpc : ∀ p ∈ pc.prongs, p.histogram.Faithful)
    (fp : List UInt8) (info : ExtraUploadInfo) :
    ∀ c ∈ (ClearcutSerializer.serializeEvent pc fp info).histograms,
      ∃ h : Histogram, Tally c.counts c.held h.bucketOf := by
  intro c hc
  obtain ⟨⟨p, i⟩, hp, hfill⟩ := List.mem_filterMap.mp hc
  have hmem : p ∈ pc.prongs := List.fst_mem_of_mem_zipIdx hp
  have hfaithful := hpc p hmem
  by_cases hcount : p.count > 0
  · simp only [if_pos hcount] at hfill
    obtain rfl := Option.some.inj hfill
    refine ⟨p.histogram, ?_⟩
    have hall : p.histogram.buckets.take p.histogram.numBuckets.toNat = p.histogram.buckets :=
      List.take_of_length_le (Nat.le_of_eq hfaithful.sized)
    rw [ClearcutSerializer.fill, hall]
    exact hfaithful.tells
  · simp only [if_neg hcount] at hfill
    cases hfill

theorem sentFaithfully_step (heach : σ.impl.Each Histogram.Faithful) (hs : σ.SentFaithfully)
    (h : Step sqrt σ σ') : σ'.SentFaithfully := by
  intro e he
  rcases processed_of_step h with hsame | ⟨c, info, -, hnew⟩
  · exact hs e (hsame ▸ he)
  · rw [hnew] at he
    rcases List.mem_append.mp he with he | he
    · exact hs e he
    · obtain rfl := List.mem_singleton.mp he
      exact tally_serializeEvent (heach c) _ info

/-- **Faithful counts.** After any interleaving of the two threads the buckets of every histogram
count the samples it holds, and the counts of every event those it was sent for. -/
theorem tallies_of_run {st : Settings} {info : ExtraUploadInfo} {now : TimePoint}
    {s : TuningForkImpl} (hnew : TuningForkImpl.new st info now = .ok s)
    (hrun : Relation.ReflTransGen (Step sqrt) ⟨s, .between⟩ σ) :
    σ.impl.Each (fun h => h.count = h.held.length ∧ Tally h.buckets h.held h.bucketOf) ∧
      σ.SentFaithfully := by
  have hinit : s.Each Histogram.Faithful :=
    TuningForkImpl.each_new (fun _ _ => Histogram.faithful_ofSettings) hnew
  have hempty : SentFaithfully ⟨s, .between⟩ := by
    obtain ⟨_, _, _, -, -, rfl⟩ := TuningForkImpl.new_eq_ok hnew
    exact fun e he => absurd he List.not_mem_nil
  have hinv := Runs.invariant_of_reachable
    (P := fun σ => σ.impl.Each Histogram.Faithful ∧ σ.SentFaithfully)
    (fun _ _ hs h => ⟨each_step (fun _ _ _ => Histogram.faithful_add)
      (fun _ => Histogram.faithful_clear) hs.1 h, sentFaithfully_step hs.1 hs.2 h⟩)
    ⟨hinit, hempty⟩ hrun
  exact ⟨fun c p hp => ⟨(hinv.1 c p hp).wf.count_eq, (hinv.1 c p hp).tells⟩, hinv.2⟩

end System

end GameSdk
