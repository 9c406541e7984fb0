import GameSdk.SampleAccounting

/-!
# When a flush goes through

`Flush` without a time is for the game, and is refused within a minute of the last upload. A
flush may also be refused because the upload thread is still busy with the one before. Then
nothing is uploaded, and the caches stay as they are; but the time is remembered as if
something had been.

We follow the two threads and remember when a submit last went through, and which flushes
were refused.

`Flushes` is the system with three ghosts for this. What flushes should be like is in `RefusedOk`
and `FrequentOk`, and `TimeOk` is the condition on the steps under which they are.
-/

namespace GameSdk

/-- The histograms of a cache. -/
def ProngCache.histograms (c : ProngCache) : List Histogram := c.prongs.map fun p => p.histogram

/-- What a flush that is refused should leave alone. -/
structure TuningForkImpl.Keeps (s s' : TuningForkImpl) : Prop where
  currentProngCache : s'.currentProngCache = s.currentProngCache
  histograms : ∀ c, (s'.prongCaches c).histograms = (s.prongCaches c).histograms
  lastSubmitTimeNs : s'.lastSubmitTimeNs = s.lastSubmitTimeNs

/-- The two threads, and what became of the flushes. -/
structure Flushes where
  system : System
  /-- ghost: the time of the last submit that went through, at first that of the construction -/
  submittedNs : TimePoint
  /-- ghost: the state at the start of the flush under way -/
  before : TuningForkImpl
  /-- ghost: the states before and after the flushes that were refused -/
  refused : List (TuningForkImpl × TuningForkImpl)

namespace Flushes

/-- The system after the constructor. -/
def start (s : TuningForkImpl) (now : TimePoint) : Flushes := ⟨⟨s, .between⟩, now, s, []⟩

/-- After a step of the threads. -/
def next (f : Flushes) (σ : System) : Flushes :=
  match f.system.phase, σ.phase with
  | .submitting _, .between => { f with system := σ, refused := (f.before, σ.impl) :: f.refused }
  | .submitted tNs, .between => { f with system := σ, submittedNs := tNs }
  | .between, _ => { f with system := σ, before := σ.impl }
  | _, _ => { f with system := σ }

/-- The game is told that it flushes too often only in the minute after an upload. -/
def FrequentOk (f : Flushes) : Prop :=
  f.system.phase = .between → ∀ t s', f.system.impl.flush t = .ok (.uploadTooFrequent, s') →
    t - f.submittedNs ≤ 60 * 1000000000

/-- Flushes that were refused have changed nothing. -/
def RefusedOk (f : Flushes) : Prop := ∀ x ∈ f.refused, x.1.Keeps x.2

/-- The condition on a step: a flush is only refused at the time of the last one. -/
def TimeOk (f : Flushes) (σ : System) : Prop :=
  ∀ tNs, f.system.phase = .submitting tNs → σ.phase = .between →
    tNs = f.system.impl.lastSubmitTimeNs

/-- A step of one of the threads that is `Allowed`. -/
inductive Step (sqrt : ℚ → ℚ) (Allowed : Flushes → System → Prop) : Flushes → Flushes → Prop
  | system {f σ} (h : System.Step sqrt f.system σ) (hok : Allowed f σ) :
      Step sqrt Allowed f (f.next σ)

end Flushes

namespace TuningForkImpl

variable {s s' s'' : TuningForkImpl}

theorem Keeps.refl (s : TuningForkImpl) : s.Keeps s := ⟨rfl, fun _ => rfl, rfl⟩

theorem Keeps.trans (h : s.Keeps s') (h' : s'.Keeps s'') : s.Keeps s'' :=
  ⟨h'.currentProngCache.trans h.currentProngCache,
    fun c => (h'.histograms c).trans (h.histograms c),
    h'.lastSubmitTimeNs.trans h.lastSubmitTimeNs⟩

/-- Writing the keys does not touch the histograms. -/
theorem keeps_prepareFlush (h : s.prepareFlush = .ok s') : s.Keeps s' := by
  obtain ⟨cache, hcache, rfl⟩ := prepareFlush_eq_ok h
  refine ⟨rfl, fun c => ?_, rfl⟩
  have hsame : cache.histograms = s.current.histograms :=
    ProngCache.map_eq_of_withoutKeys (fun _ => rfl)
      (ProngCache.withoutKeys_setInstrumentKeys hcache).1
  by_cases hc : c = s.currentProngCache
  · subst hc
    exact (congrArg ProngCache.histograms (Function.update_self ..)).trans hsame
  · exact congrArg ProngCache.histograms (Function.update_of_ne hc ..)

/-- A flush that is refused only writes down its time. -/
theorem keeps_refuseSubmit_iff (h : s.Keeps s') (tNs : TimePoint) :
    s.Keeps (s'.refuseSubmit tNs) ↔ tNs = s'.lastSubmitTimeNs := by
  constructor
  · exact fun hkeeps => hkeeps.lastSubmitTimeNs.trans h.lastSubmitTimeNs.symm
  · rintro rfl
    exact h.trans ⟨rfl, fun _ => rfl, rfl⟩

theorem keeps_upload (s : TuningForkImpl) (v : UInt32) : s.Keeps (s.upload v) :=
  ⟨rfl, fun _ => rfl, rfl⟩

/-- The body of a call does not write down a time. -/
theorem lastSubmitTimeNs_of_callBody {sqrt : ℚ → ℚ} {c : Call} {due : Option TimePoint}
    (h : s.callBody sqrt c = .ok (due, s')) : s'.lastSubmitTimeNs = s.lastSubmitTimeNs := by
  apply callBody_preserves (P := fun t => t.lastSubmitTimeNs = s.lastSubmitTimeNs)
    (fun _ _ _ _ ht _ => ht) (fun _ _ _ _ ht => ht) (fun _ _ ht => ht) (fun _ _ _ ht => ht) rfl h

/-- What the game is told depends on the time that was written down. -/
theorem flush_eq_uploadTooFrequent {t : TimePoint} (h : s.flush t = .ok (.uploadTooFrequent, s')) :
    t - s.lastSubmitTimeNs ≤ 60 * 1000000000 := by
  rw [flush, flushTime] at h
  by_contra hgt
  rw [if_pos (not_le.mp hgt)] at h
  obtain ⟨s₁, -, hflush⟩ := Checked.bind_eq_ok.mp ((flushAt_eq s t).symm.trans h)
  split at hflush <;> cases hflush

end TuningForkImpl

namespace Flushes

variable {f f' : Flushes}

/-! ## Every run

`Timely` is the invariant: the time that is remembered is that of the last submit that went through.
-/

/-- From the start of a flush to its submit, the caches and the time stay. -/
def UnderWay (f : Flushes) : Prop :=
  f.system.phase ≠ .between → f.before.Keeps f.system.impl

theorem underWay_step {sqrt : ℚ → ℚ} {Allowed : Flushes → System → Prop} (hf : f.UnderWay)
    (h : Step sqrt Allowed f f') : f'.UnderWay := by
  obtain ⟨h, -⟩ := h
  obtain ⟨σ, submittedNs, before, refused⟩ := f
  cases h with
  | @body s s' c due hbody => cases due <;> exact fun _ => .refl _
  | prepare hprepare =>
    intro _
    exact (hf (by simp)).trans (TuningForkImpl.keeps_prepareFlush hprepare)
  | pending => exact fun hne => absurd rfl hne
  | check => exact fun _ => hf (by simp)
  | setReady => exact fun _ => (hf (by simp)).trans ⟨rfl, fun _ => rfl, rfl⟩
  | swap => exact fun hne => absurd rfl hne
  | @upload s phase v =>
    cases phase with
    | between => exact fun hne => absurd rfl hne
    | flushing tNs => exact fun _ => (hf (by simp)).trans (s.keeps_upload v)
    | submitting tNs => exact fun _ => (hf (by simp)).trans (s.keeps_upload v)
    | checked tNs => exact fun _ => (hf (by simp)).trans (s.keeps_upload v)
    | submitted tNs => exact fun _ => (hf (by simp)).trans (s.keeps_upload v)

/-- A step refuses a flush, or it writes down a time only when a submit has gone through. -/
theorem step_cases {sqrt : ℚ → ℚ} {σ : System} (h : System.Step sqrt f.system σ) :
    (∃ tNs, f.system.phase = .submitting tNs ∧
      σ = ⟨f.system.impl.refuseSubmit tNs, .between⟩ ∧
      f.next σ = { f with system := σ, refused := (f.before, σ.impl) :: f.refused }) ∨
    ((∀ tNs, f.system.phase = .submitting tNs → σ.phase ≠ .between) ∧
      (f.next σ).refused = f.refused ∧
      (σ.impl.lastSubmitTimeNs = f.system.impl.lastSubmitTimeNs ∧
          (f.next σ).submittedNs = f.submittedNs ∨
        σ.impl.lastSubmitTimeNs = (f.next σ).submittedNs)) := by
  obtain ⟨σ₀, submittedNs, before, refused⟩ := f
  cases h with
  | body hbody =>
    have hsame := TuningForkImpl.lastSubmitTimeNs_of_callBody hbody
    exact Or.inr ⟨fun _ h => (nomatch h), rfl, Or.inl ⟨hsame, rfl⟩⟩
  | prepare hprepare =>
    have hsame := (TuningForkImpl.keeps_prepareFlush hprepare).lastSubmitTimeNs
    exact Or.inr ⟨fun _ h => (nomatch h), rfl, Or.inl ⟨hsame, rfl⟩⟩
  | pending => exact Or.inl ⟨_, rfl, rfl, rfl⟩
  | check => exact Or.inr ⟨fun _ _ => nofun, rfl, Or.inl ⟨rfl, rfl⟩⟩
  | setReady => exact Or.inr ⟨fun _ h => (nomatch h), rfl, Or.inl ⟨rfl, rfl⟩⟩
  | swap => exact Or.inr ⟨fun _ h => (nomatch h), rfl, Or.inr rfl⟩
  | @upload s phase v =>
    refine Or.inr ⟨fun tNs hphase hbetween => ?_, ?_, Or.inl ⟨rfl, ?_⟩⟩
    · cases hphase.symm.trans hbetween
    · cases phase <;> rfl
    · cases phase <;> rfl

/-- The time that was written down is that of the last upload. -/
structure Timely (f : Flushes) : Prop where
  lastSubmitTimeNs : f.system.impl.lastSubmitTimeNs = f.submittedNs
  refused : f.RefusedOk
  underWay : f.UnderWay

theorem timely_step {sqrt : ℚ → ℚ} (hf : f.Timely) (h : Step sqrt TimeOk f f') : f'.Timely := by
  have hunderWay := underWay_step hf.underWay h
  obtain ⟨h, hok⟩ := h
  obtain ⟨tNs, hphase, rfl, hnext⟩ | ⟨-, hrefused, htime⟩ := step_cases h
  · have htNs : tNs = f.system.impl.lastSubmitTimeNs := hok tNs hphase rfl
    refine ⟨?_, ?_, hunderWay⟩
    · rw [hnext]
      exact htNs.trans hf.lastSubmitTimeNs
    · have hkeeps := hf.underWay (by rw [hphase]; nofun)
      rw [hnext]
      exact List.forall_mem_cons.mpr
        ⟨(TuningForkImpl.keeps_refuseSubmit_iff hkeeps tNs).mpr htNs, hf.refused⟩
  · refine ⟨?_, ?_, hunderWay⟩
    · have hsystem (σ : System) : (f.next σ).system = σ := by
        unfold next
        split <;> rfl
      rw [hsystem]
      obtain ⟨hlast, hsubmitted⟩ | hlast := htime
      · rw [hlast, hsubmitted]
        exact hf.lastSubmitTimeNs
      · exact hlast
    · rw [RefusedOk, hrefused]
      exact hf.refused

theorem frequentOk_of_timely (hf : f.Timely) : f.FrequentOk := by
  intro _ t s' hflush
  rw [← hf.lastSubmitTimeNs]
  exact TuningForkImpl.flush_eq_uploadTooFrequent hflush

/-- A flush that is refused at another time than the last one is remembered. -/
theorem timeOk_of_refusedOk {sqrt : ℚ → ℚ} (hf : f.UnderWay)
    (h : Step sqrt (fun _ _ => True) f f') (hrefused : f'.RefusedOk) :
    Step sqrt TimeOk f f' ∧ f.RefusedOk := by
  obtain ⟨h, -⟩ := h
  obtain ⟨tNs, hphase, rfl, hnext⟩ | ⟨hne, hsame, -⟩ := step_cases h
  · rw [hnext] at hrefused
    obtain ⟨hkeeps, hrest⟩ := List.forall_mem_cons.mp hrefused
    have htNs := (TuningForkImpl.keeps_refuseSubmit_iff (hf (by rw [hphase]; nofun)) tNs).mp hkeeps
    refine ⟨.system h fun tNs' hphase' _ => ?_, hrest⟩
    obtain rfl : tNs = tNs' := Phase.submitting.inj (hphase.symm.trans hphase')
    exact htNs
  · refine ⟨.system h fun tNs hphase hbetween => absurd hbetween (hne tNs hphase), ?_⟩
    rwa [RefusedOk, hsame] at hrefused

/-- **Flushes are as they should be** in the runs in which every flush that is refused is at
the time of the last one, and in no others. -/
theorem ok_iff {sqrt : ℚ → ℚ} {st : Settings} {info : ExtraUploadInfo} {now : TimePoint}
    {s : TuningForkImpl} (hnew : TuningForkImpl.new st info now = .ok s) {f : Flushes}
    (hrun : Relation.ReflTransGen (Step sqrt fun _ _ => True) (start s now) f) :
    f.FrequentOk ∧ f.RefusedOk ↔ Relation.ReflTransGen (Step sqrt TimeOk) (start s now) f := by
  have hstart : (start s now).Timely := by
    obtain ⟨_, _, _, -, -, rfl⟩ := TuningForkImpl.new_eq_ok hnew
    exact ⟨rfl, fun _ hx => (nomatch hx), fun hne => absurd rfl hne⟩
  constructor
  · rintro ⟨-, hrefused⟩
    induction hrun with
    | refl => exact .refl
    | tail hrun hstep ih =>
      have hunderWay := Runs.invariant_of_reachable (P := UnderWay)
        (fun _ _ hf h => underWay_step hf h) hstart.underWay hrun
      obtain ⟨hok, hrest⟩ := timeOk_of_refusedOk hunderWay hstep hrefused
      exact (ih hrest).tail hok
  · intro hok
    have hf := Runs.invariant_of_reachable (P := Timely) (fun _ _ hf h => timely_step hf h)
      hstart hok
    exact ⟨frequentOk_of_timely hf, hf.refused⟩

/-! ## Two flushes

Two flushes at one time, of which the second is refused; and a flush that is refused later, after
which the next one is said to come too often.
-/

variable {sqrt : ℚ → ℚ} {s s₀ s₁ : TuningForkImpl} {c : Call} {t : TimePoint}

/-- The steps of a call that flushes, up to the submit. -/
theorem steps_to_submit (hbody : s.callBody sqrt c = .ok (some t, s₀))
    (hprepare : s₀.prepareFlush = .ok s₁) (submittedNs : TimePoint) (before : TuningForkImpl)
    (refused : List (TuningForkImpl × TuningForkImpl)) :
    Relation.ReflTransGen (Step sqrt TimeOk) ⟨⟨s, .between⟩, submittedNs, before, refused⟩
      ⟨⟨s₁, .submitting t⟩, submittedNs, s₀, refused⟩ := by
  have h₁ : Step sqrt TimeOk ⟨⟨s, .between⟩, submittedNs, before, refused⟩
      ⟨⟨s₀, .flushing t⟩, submittedNs, s₀, refused⟩ :=
    .system (σ := ⟨s₀, .flushing t⟩) (.body hbody) (by simp [TimeOk])
  have h₂ : Step sqrt TimeOk ⟨⟨s₀, .flushing t⟩, submittedNs, s₀, refused⟩
      ⟨⟨s₁, .submitting t⟩, submittedNs, s₀, refused⟩ :=
    .system (σ := ⟨s₁, .submitting t⟩) (.prepare hprepare) (by simp [TimeOk])
  exact (Relation.ReflTransGen.single h₁).tail h₂

/-- The steps of a flush that goes through: the upload thread has taken the cache before. -/
theorem steps_of_submit (hbody : s.callBody sqrt c = .ok (some t, s₀))
    (hprepare : s₀.prepareFlush = .ok s₁) (hready : s₁.uploadThread.ready = none)
    (submittedNs : TimePoint) (before : TuningForkImpl)
    (refused : List (TuningForkImpl × TuningForkImpl)) :
    Relation.ReflTransGen (Step sqrt TimeOk) ⟨⟨s, .between⟩, submittedNs, before, refused⟩
      ⟨⟨s₁.setReady.swapCaches t, .between⟩, t, s₀, refused⟩ := by
  have h₃ : Step sqrt TimeOk ⟨⟨s₁, .submitting t⟩, submittedNs, s₀, refused⟩
      ⟨⟨s₁, .checked t⟩, submittedNs, s₀, refused⟩ :=
    .system (σ := ⟨s₁, .checked t⟩) (.check hready) (by simp [TimeOk])
  have h₄ : Step sqrt TimeOk ⟨⟨s₁, .checked t⟩, submittedNs, s₀, refused⟩
      ⟨⟨s₁.setReady, .submitted t⟩, submittedNs, s₀, refused⟩ :=
    .system (σ := ⟨s₁.setReady, .submitted t⟩) .setReady (by simp [TimeOk])
  have h₅ : Step sqrt TimeOk ⟨⟨s₁.setReady, .submitted t⟩, submittedNs, s₀, refused⟩
      ⟨⟨s₁.setReady.swapCaches t, .between⟩, t, s₀, refused⟩ :=
    .system (σ := ⟨s₁.setReady.swapCaches t, .between⟩) .swap (by simp [TimeOk])
  exact (((steps_to_submit hbody hprepare submittedNs before refused).tail h₃).tail h₄).tail h₅

/-- The steps of a flush that is refused at the time of the last one: the cache before waits
for the upload thread still. -/
theorem steps_of_refusal (hbody : s.callBody sqrt c = .ok (some t, s₀))
    (hprepare : s₀.prepareFlush = .ok s₁) (hready : s₁.uploadThread.ready ≠ none)
    (htime : t = s₁.lastSubmitTimeNs) (submittedNs : TimePoint) (before : TuningForkImpl)
    (refused : List (TuningForkImpl × TuningForkImpl)) :
    Relation.ReflTransGen (Step sqrt TimeOk) ⟨⟨s, .between⟩, submittedNs, before, refused⟩
      ⟨⟨s₁.refuseSubmit t, .between⟩, submittedNs, s₀,
        (s₀, s₁.refuseSubmit t) :: refused⟩ := by
  have h₃ : Step sqrt TimeOk ⟨⟨s₁, .submitting t⟩, submittedNs, s₀, refused⟩
      ⟨⟨s₁.refuseSubmit t, .between⟩, submittedNs, s₀, (s₀, s₁.refuseSubmit t) :: refused⟩ := by
    refine .system (σ := ⟨s₁.refuseSubmit t, .between⟩) (.pending hready) ?_
    rintro tNs hphase -
    obtain rfl : t = tNs := Phase.submitting.inj hphase
    exact htime
  exact (steps_to_submit hbody hprepare submittedNs before refused).tail h₃

/-- A run whose steps meet the condition is a run. -/
theorem steps_mono (h : Relation.ReflTransGen (Step sqrt TimeOk) f f') :
    Relation.ReflTransGen (Step sqrt fun _ _ => True) f f' :=
  Relation.ReflTransGen.mono (fun _ _ hstep => hstep.casesOn fun h _ => .system h trivial) _ _ h

/-- The constructed object, and the first flush of it prepared. -/
theorem exists_prepared : ∃ s s₁, TuningForkImpl.new twoKeys noExtraInfo 0 = .ok s ∧
    s.prepareFlush = .ok s₁ ∧ s₁.uploadThread.ready = none ∧ s.lastSubmitTimeNs = 0 ∧
    ∃ s₂, (s₁.setReady.swapCaches 61000000000).prepareFlush = .ok s₂ ∧
      s₂.uploadThread.ready ≠ none := by
  have hok : (TuningForkImpl.new twoKeys noExtraInfo 0 >>= fun s =>
      s.prepareFlush >>= fun s₁ =>
        ((s₁.setReady.swapCaches 61000000000).prepareFlush).map fun s₂ =>
          (s₁.uploadThread.ready, s.lastSubmitTimeNs, s₂.uploadThread.ready)) =
      .ok (none, 0, some false) := by
    decide +kernel
  obtain ⟨s, hnew, hok⟩ := Checked.bind_eq_ok.mp hok
  obtain ⟨s₁, hprepare, hok⟩ := Checked.bind_eq_ok.mp hok
  obtain ⟨s₂, hprepare₂, heq⟩ := Checked.map_eq_ok.mp hok
  obtain ⟨hready, hlast, hready₂⟩ : _ ∧ _ ∧ _ := by simpa only [Prod.mk.injEq] using heq
  exact ⟨s, s₁, hnew, hprepare, hready, hlast, s₂, hprepare₂, by rw [hready₂]; nofun⟩

/-- Two keys, and a flush with every sample. -/
def everyTick : Settings := { twoKeys with intervalmsOrCount := 1 }

/-- Two frames recorded at one time: the flush of the first goes through, that of the second is
refused, as the cache before has not been taken, and it leaves the time as it was. -/
theorem ok_iff_twice : ∃ s f, TuningForkImpl.new everyTick noExtraInfo 0 = .ok s ∧
    Relation.ReflTransGen (Step (fun x => x) fun _ _ => True) (start s 0) f ∧
    f.submittedNs = 5 ∧ f.refused.length = 1 ∧ f.FrequentOk ∧ f.RefusedOk := by
  have hok : (TuningForkImpl.new everyTick noExtraInfo 0 >>= fun s =>
      s.callBody (fun x => x) (.frameDeltaTimeNanos 7 16000000 5) >>= fun r₁ =>
      r₁.2.prepareFlush >>= fun s₁ =>
      (s₁.setReady.swapCaches 5).callBody (fun x => x) (.frameDeltaTimeNanos 7 17000000 5) >>=
        fun r₂ => r₂.2.prepareFlush.map fun s₂ =>
          (r₁.1, s₁.uploadThread.ready, r₂.1, s₂.uploadThread.ready, s₂.lastSubmitTimeNs)) =
      .ok (some 5, none, some 5, some false, 5) := by
    decide +kernel
  obtain ⟨s, hnew, hok⟩ := Checked.bind_eq_ok.mp hok
  obtain ⟨⟨due₁, s₀⟩, hbody₁, hok⟩ := Checked.bind_eq_ok.mp hok
  obtain ⟨s₁, hprepare₁, hok⟩ := Checked.bind_eq_ok.mp hok
  obtain ⟨⟨due₂, s₀'⟩, hbody₂, hok⟩ := Checked.bind_eq_ok.mp hok
  obtain ⟨s₂, hprepare₂, heq⟩ := Checked.map_eq_ok.mp hok
  obtain ⟨rfl, hready₁, rfl, hready₂, htime⟩ : _ ∧ _ ∧ _ ∧ _ ∧ _ := by
    simpa only [Prod.mk.injEq] using heq
  have hrun₁ := steps_of_submit hbody₁ hprepare₁ hready₁ 0 s []
  have hrun₂ := steps_of_refusal hbody₂ hprepare₂ (by rw [hready₂]; nofun) htime.symm 5 s₀ []
  have hrun := hrun₁.trans hrun₂
  exact ⟨s, _, hnew, steps_mono hrun, rfl, rfl, (ok_iff hnew (steps_mono hrun)).mpr hrun⟩

/-- An upload at 61 s, a flush refused at 122 s: a flush at 131 s comes too often, 70 s after
the upload. -/
theorem not_ok_refused : ∃ s f, TuningForkImpl.new twoKeys noExtraInfo 0 = .ok s ∧
    Relation.ReflTransGen (Step (fun x => x) fun _ _ => True) (start s 0) f ∧
    ¬ f.FrequentOk ∧ ¬ f.RefusedOk := by
  obtain ⟨s, s₁, hnew, hprepare, hready, hlast, s₂, hprepare₂, hready₂⟩ := exists_prepared
  have hdue : s.flushTime 61000000000 = some 61000000000 := by
    rw [TuningForkImpl.flushTime, hlast]
    rfl
  have hbody₁ : s.callBody (fun x => x) (.flush 61000000000) = .ok (some 61000000000, s) := by
    rw [TuningForkImpl.callBody, hdue]
  let t := s₁.setReady.swapCaches 61000000000
  have hbody₂ : t.callBody (fun x => x) (.flush 122000000000) = .ok (some 122000000000, t) := rfl
  have hrun := steps_mono ((steps_of_submit hbody₁ hprepare hready 0 s []).trans
    (steps_to_submit hbody₂ hprepare₂ 61000000000 s []))
  have hrefuse : Step (fun x => x) (fun _ _ => True)
      ⟨⟨s₂, .submitting 122000000000⟩, 61000000000, t, []⟩
      ⟨⟨s₂.refuseSubmit 122000000000, .between⟩, 61000000000, t,
        [(t, s₂.refuseSubmit 122000000000)]⟩ :=
    .system (σ := ⟨s₂.refuseSubmit 122000000000, .between⟩) (.pending hready₂) trivial
  refine ⟨s, _, hnew, hrun.tail hrefuse, fun hfrequent => ?_, fun hrefused => ?_⟩
  · have hflush : (s₂.refuseSubmit 122000000000).flush 131000000000 =
        .ok (.uploadTooFrequent, s₂.refuseSubmit 122000000000) := rfl
    have hle : (131000000000 : ℤ) - 61000000000 ≤ 60 * 1000000000 :=
      hfrequent rfl 131000000000 _ hflush
    exact absurd hle (by decide)
  · have hsame : (122000000000 : ℤ) = 61000000000 :=
      (hrefused _ (List.mem_singleton_self _)).lastSubmitTimeNs
    exact absurd hsame (by decide)

end Flushes

end GameSdk
