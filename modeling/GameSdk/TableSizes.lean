import GameSdk.Safety

/-!
# The sizes of the tables

The table of running products, `live_traces_` and the two prong caches have sizes that the
constructor computes in 32 bits: with an `int` for the running product, with `max_ikeys`, an
`int`, times an entry of the table, and with an `int` that counts the prongs. Nothing bounds
the settings, so these are the products they should be only if they fit.

`SizesExact` compares the sizes with the products of natural numbers. The condition is on the
settings alone, and exact.
-/

namespace GameSdk

open MixedRadix

/-! ## Machine arithmetic that is exact

A product of 32-bit numbers is exact if it fits.
-/

theorem toInt_toInt32 (x : UInt32) : x.toInt32.toInt = (x.toNat : ℤ).bmod (2 ^ 32) :=
  BitVec.toInt_eq_toNat_bmod x.toBitVec

/-- An `int` holds the number that is put into it if this is below `2^31`. -/
theorem toInt_toInt32_eq_iff (x : UInt32) : x.toInt32.toInt = x.toNat ↔ x.toNat < 2 ^ 31 := by
  rw [toInt_toInt32]
  constructor
  · intro h
    have hlt : (x.toNat : ℤ).bmod (2 ^ 32) < ((2 ^ 32 : ℕ) + 1) / 2 := Int.bmod_lt (by decide)
    rw [h] at hlt
    omega
  · intro h
    exact Int.bmod_eq_of_le (by omega) (by omega)

/-- One step of the loop of `SetUpAnnotationRadixes`, on the bits of the `int r`. -/
def radixStep (r enumSize : UInt32) : UInt32 := r * (enumSize + 1)

/-- Nothing wraps around in the step: not the sum or the product, and not when the `int` takes
it. -/
structure RadixStepExact (r enumSize : UInt32) : Prop where
  add : (enumSize + 1).toNat = enumSize.toNat + 1
  mul : (radixStep r enumSize).toNat = r.toNat * (enumSize + 1).toNat
  assign : (radixStep r enumSize).toInt32.toInt = (radixStep r enumSize).toNat

theorem radixStepExact_iff {r : UInt32} (hr : 0 < r.toNat) (enumSize : UInt32) :
    RadixStepExact r enumSize ↔ r.toNat * (enumSize.toNat + 1) < 2 ^ 31 := by
  constructor
  · intro h
    have hlt := (toInt_toInt32_eq_iff _).mp h.assign
    rwa [h.mul, h.add] at hlt
  · -- the sum is no greater than the product
    intro h
    have hle : enumSize.toNat + 1 ≤ r.toNat * (enumSize.toNat + 1) := Nat.le_mul_of_pos_left _ hr
    have hadd : (enumSize + 1).toNat = enumSize.toNat + 1 := by
      rw [UInt32.toNat_add]
      exact Nat.mod_eq_of_lt (by change enumSize.toNat + 1 < 2 ^ 32; omega)
    have hmul : (radixStep r enumSize).toNat = r.toNat * (enumSize + 1).toNat := by
      rw [radixStep, UInt32.toNat_mul, hadd]
      exact Nat.mod_eq_of_lt (by omega)
    refine ⟨hadd, hmul, (toInt_toInt32_eq_iff _).mpr ?_⟩
    rwa [hmul, hadd]

/-- The table holds the values that `r` goes through. -/
theorem cons_annotationRadixLoop (r : UInt32) (enumSizes : List UInt32) :
    r :: annotationRadixLoop r enumSizes = Runs.states radixStep r enumSizes := by
  induction enumSizes generalizing r with
  | nil => rfl
  | cons e enumSizes ih => exact congrArg (r :: ·) (ih (radixStep r e))

theorem stepsOk_radixStep_iff {r : UInt32} (hr : 0 < r.toNat) (hr31 : r.toNat < 2 ^ 31)
    (enumSizes : List UInt32) :
    Runs.StepsOk radixStep RadixStepExact r enumSizes ↔
      r.toNat * (radices enumSizes).prod < 2 ^ 31 := by
  induction enumSizes generalizing r with
  | nil => exact iff_of_true trivial (by simpa [radices] using hr31)
  | cons e enumSizes ih =>
    have hprod : (radices (e :: enumSizes)).prod = (e.toNat + 1) * (radices enumSizes).prod := rfl
    have hpos : 0 < (radices enumSizes).prod := List.prod_pos (radices_pos enumSizes)
    rw [Runs.StepsOk, hprod, ← Nat.mul_assoc]
    by_cases hstep : RadixStepExact r e
    · have hlt := (radixStepExact_iff hr e).mp hstep
      have hnext : (radixStep r e).toNat = r.toNat * (e.toNat + 1) := by
        rw [hstep.mul, hstep.add]
      rw [and_iff_right hstep, ih (hnext ▸ Nat.mul_pos hr (Nat.succ_pos _)) (hnext ▸ hlt), hnext]
    · -- a product that is too large does not get smaller with the rest
      refine iff_of_false (fun h => hstep h.1) fun h => hstep ?_
      exact (radixStepExact_iff hr e).mpr (lt_of_le_of_lt (Nat.le_mul_of_pos_right _ hpos) h)

/-- The counter of the prongs. -/
theorem counter_exact_iff (n : ℕ) :
    (∀ i < n, (Int32.ofNat i + 1).toInt = i + 1) ↔ n < 2 ^ 31 := by
  constructor
  · intro h
    by_contra hn
    have hlast := h (2 ^ 31 - 1) (by omega)
    exact absurd hlast (by decide)
  · intro h i hi
    have hsucc : Int32.ofNat i + 1 = Int32.ofNat (i + 1) := (Int32.ofNat_add i 1).symm
    rw [hsucc, Int32.toInt_ofNat_of_lt (by omega), Nat.cast_add, Nat.cast_one]

/-! ## The constructor

The sizes that the constructor computes, one after the other.
-/

namespace TuningForkImpl

/-- The tables have the sizes that the settings say, and nothing wraps around on the way. -/
structure SizesExact (st : Settings) (s : TuningForkImpl) : Prop where
  radixMult : ∀ i m, s.annotationRadixMult[i]? = some m →
    m.toNat = ((radices st.annotationEnumSize).take (i + 1)).prod ∧ m ≠ 0
  liveTraces : s.liveTraces.length =
    st.maxInstrumentationKeys.toNat * (s.annotationRadixMult.getLastD 0).toNat
  prongCaches : ∀ c, (s.prongCaches c).prongs.length =
    st.maxInstrumentationKeys.toNat * (s.annotationRadixMult.getLastD 0).toNat
  /-- `int r` -/
  radixLoop : Runs.StepsOk radixStep RadixStepExact 1 st.annotationEnumSize
  /-- `int max_ikeys` -/
  maxIkeys : st.maxInstrumentationKeys.toInt32.toInt = st.maxInstrumentationKeys.toNat
  /-- `int i`, which goes through the prongs -/
  prongLoop : ∀ c, ∀ i < (s.prongCaches c).prongs.length, (Int32.ofNat i + 1).toInt = i + 1

theorem getElem?_setUpAnnotationRadixes {enumSizes : List UInt32}
    (hprod : (radices enumSizes).prod < 2 ^ 32) {i : ℕ} {m : UInt32}
    (h : (setUpAnnotationRadixes enumSizes)[i]? = some m) :
    m.toNat = ((radices enumSizes).take (i + 1)).prod ∧ m ≠ 0 := by
  have hm : m.toNat = ((radices enumSizes).take (i + 1)).prod := by
    by_cases hne : enumSizes = []
    · subst hne
      rw [setUpAnnotationRadixes, if_pos rfl] at h
      obtain rfl := List.mem_singleton.mp (List.mem_of_getElem? h)
      rfl
    · have hget := congrArg (fun l => l[i]?) (map_toNat_setUpAnnotationRadixes hne hprod)
      simp only [List.getElem?_map, h, Option.map_some, getElem?_cumulative, Nat.one_mul] at hget
      split at hget
      · exact Option.some.inj hget
      · cases hget
  refine ⟨hm, fun h0 => ?_⟩
  have hpos : 0 < ((radices enumSizes).take (i + 1)).prod :=
    List.prod_pos fun r hr => radices_pos enumSizes r (List.mem_of_mem_take hr)
  rw [← hm, h0] at hpos
  exact absurd hpos (by decide)

/-- **The sizes are exact** if and only if the number of prongs fits an `int`. -/
theorem sizesExact_iff {st : Settings} {info : ExtraUploadInfo} {now : TimePoint}
    {s : TuningForkImpl} (hkeys : st.maxInstrumentationKeys ≠ 0) (hnew : new st info now = .ok s) :
    SizesExact st s ↔
      st.maxInstrumentationKeys.toNat * (radices st.annotationEnumSize).prod < 2 ^ 31 := by
  obtain ⟨histograms, keys, ps, -, hps, rfl⟩ := new_eq_ok hnew
  have hlen := (ProngCache.allocate_eq_ok hps).1
  have hpos : 0 < st.maxInstrumentationKeys.toNat :=
    Nat.pos_of_ne_zero fun h0 => hkeys (UInt32.toNat_inj.mp h0)
  constructor
  · -- the loop bounds the last entry of the table, and the counter what it is multiplied to
    intro h
    have hprod := (stepsOk_radixStep_iff (r := 1) (by decide) (by decide) _).mp h.radixLoop
    rw [UInt32.toNat_one, Nat.one_mul] at hprod
    have hback := getLastD_setUpAnnotationRadixes (hprod.trans (by decide))
    have hsize := (counter_exact_iff _).mp (h.prongLoop true)
    rw [h.prongCaches true, hback] at hsize
    exact hsize
  · intro h
    have hprod : (radices st.annotationEnumSize).prod ≤
        st.maxInstrumentationKeys.toNat * (radices st.annotationEnumSize).prod :=
      Nat.le_mul_of_pos_left _ hpos
    have hkeysLe : st.maxInstrumentationKeys.toNat ≤
        st.maxInstrumentationKeys.toNat * (radices st.annotationEnumSize).prod :=
      Nat.le_mul_of_pos_right _ (prod_radices_pos _)
    have hprod31 := lt_of_le_of_lt hprod h
    have hback := getLastD_setUpAnnotationRadixes (hprod31.trans (by decide))
    have hsize := maxNumProngs_eq h
    rw [hsize] at hlen
    exact {
      radixMult := fun i m => getElem?_setUpAnnotationRadixes (hprod31.trans (by decide))
      liveTraces := by rw [List.length_replicate, hsize, hback]
      prongCaches := fun _ => by rw [hlen, hback]
      radixLoop := (stepsOk_radixStep_iff (by decide) (by decide) _).mpr
        (by rwa [UInt32.toNat_one, Nat.one_mul])
      maxIkeys := (toInt_toInt32_eq_iff _).mpr (lt_of_le_of_lt hkeysLe h)
      prongLoop := fun _ => (counter_exact_iff _).mpr (by rw [hlen]; exact h) }

/-- Two keys, and two enums of 2 and 3 values. -/
def twoEnums : Settings where
  method := .tickBased
  intervalmsOrCount := 100
  maxInstrumentationKeys := 2
  annotationEnumSize := [2, 3]
  histograms := []

/-- Both entries of the table are running products, and there are `2 * 3 * 4` prongs. -/
theorem sizesExact_twoEnums : ∃ s, new twoEnums noExtraInfo 0 = .ok s ∧
    s.annotationRadixMult = [3, 12] ∧ s.liveTraces.length = 24 ∧ SizesExact twoEnums s := by
  have hnew : (new twoEnums noExtraInfo 0).map
      (fun s => (s.annotationRadixMult, s.liveTraces.length)) = .ok ([3, 12], 24) := by
    decide +kernel
  obtain ⟨s, hs, heq⟩ := Checked.map_eq_ok.mp hnew
  obtain ⟨hradix, hlen⟩ := Prod.mk.inj heq
  exact ⟨s, hs, hradix, hlen, (sizesExact_iff (by decide) hs).mpr (by decide)⟩

/-- Two enums of 65535 values. -/
def wideEnums : Settings where
  method := .tickBased
  intervalmsOrCount := 100
  maxInstrumentationKeys := 1
  annotationEnumSize := [65535, 65535]
  histograms := []

/-- The second entry of the table, and with it all the sizes, is 0. -/
theorem not_sizesExact_wideEnums : ∃ s, new wideEnums noExtraInfo 0 = .ok s ∧
    s.annotationRadixMult = [65536, 0] ∧ s.liveTraces.length = 0 ∧ ¬ SizesExact wideEnums s := by
  have hnew : (new wideEnums noExtraInfo 0).map
      (fun s => (s.annotationRadixMult, s.liveTraces.length)) = .ok ([65536, 0], 0) := by
    decide +kernel
  rcases h : new wideEnums noExtraInfo 0 with e | s
  · rw [h] at hnew
    cases hnew
  · rw [h] at hnew
    simp only [Except.map, Except.ok.injEq, Prod.mk.injEq] at hnew
    obtain ⟨hradix, hlen⟩ := hnew
    refine ⟨s, rfl, hradix, hlen, fun hexact => ?_⟩
    exact (hexact.radixMult 1 0 (by rw [hradix]; rfl)).2 rfl

end TuningForkImpl

end GameSdk
