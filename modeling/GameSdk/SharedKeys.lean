import GameSdk.Runs
import GameSdk.TuningForkSteps
import Mathlib.Data.List.Nodup

/-!
# The key table shared by threads (`tuningfork.cpp`)

`GetOrCreateInstrumentKeyIndex` takes no lock: `next_ikey_` is atomic, a slot is
claimed by incrementing it and written afterwards, and a call that finds no room
takes its increment back. Here the threads of the game run the function at the same
time, one access at a time and in any order; each key belongs to one thread, as the
function demands.

The search trusts what it loads. It goes wrong in two ways: `next_ikey_` can be past
the end of the table while an increment is still to be taken back, and a slot that is
claimed but not written holds key 0.

A slot is claimed once and by one thread. The ghost `claims` lists the keys in the order in which
they got a slot. `Allocated` is what the results should be, and `Ok` the condition on an access: no
load finds the counter too large, unless the key has a slot, and no thread looks for key 0 in a slot
that has not been written.
-/

namespace GameSdk

/-- Where a thread is in `GetOrCreateInstrumentKeyIndex`. -/
inductive KeyCall where
  | idle
  /-- about to load `next_ikey_` -/
  | entered (key : InstrumentationKey)
  /-- about to read `ikeys_[i]`, for `i < nkeys` -/
  | searching (key : InstrumentationKey) (nkeys i : ℕ)
  /-- about to increment `next_ikey_` -/
  | claiming (key : InstrumentationKey)
  /-- about to write `ikeys_[next]` -/
  | writing (key : InstrumentationKey) (next : ℕ)
  /-- about to decrement `next_ikey_` -/
  | rollingBack (key : InstrumentationKey)
  deriving DecidableEq, Repr

namespace KeyCall

/-- The key a call is for. -/
def key? : KeyCall → Option InstrumentationKey
  | idle => none
  | entered key | searching key _ _ | claiming key | writing key _ | rollingBack key => some key

/-- The test of the loop: read another slot, or give up the search. -/
def search (key : InstrumentationKey) (nkeys i : ℕ) : KeyCall :=
  if i < nkeys then .searching key nkeys i else .claiming key

theorem forall_key {c : KeyCall} {key : InstrumentationKey} (hc : c.key? = some key)
    {P : InstrumentationKey → Prop} (h : P key) : ∀ k, c.key? = some k → P k := by
  intro k hk
  obtain rfl := Option.some.inj (hc.symm.trans hk)
  exact h

end KeyCall

/-- `next_ikey_` is an `int`; it counts the slots claimed, at most one for each key of
16 bits, and the increments to be taken back, each by a thread with a key of its own. -/
structure SharedKeys (T : Type) where
  keys : InstrumentKeys
  call : T → KeyCall
  /-- ghost: the keys the slots were claimed for -/
  claims : List InstrumentationKey
  /-- ghost: what the calls returned, `none` for `TFERROR_INVALID_INSTRUMENT_KEY` -/
  results : List (InstrumentationKey × Option ℕ)

namespace SharedKeys

/-- One thing that happens. -/
inductive Event (T : Type) where
  /-- the thread that the key belongs to calls the function -/
  | enter (key : InstrumentationKey)
  /-- a thread makes its next access -/
  | next (thread : T)
  deriving DecidableEq, Repr

variable {T : Type}

/-- `ikeys_` is made of zeros. -/
def new (T : Type) (maxInstrumentationKeys : ℕ) : SharedKeys T where
  keys := ⟨List.replicate maxInstrumentationKeys 0, 0⟩
  call _ := .idle
  claims := []
  results := []

section

variable [DecidableEq T]

/-- A thread moves on in its call. -/
def goto (s : SharedKeys T) (t : T) (c : KeyCall) : SharedKeys T :=
  { s with call := Function.update s.call t c }

/-- A call returns. -/
def finish (s : SharedKeys T) (t : T) (key : InstrumentationKey) (index : Option ℕ) :
    SharedKeys T :=
  { s with call := Function.update s.call t .idle, results := s.results ++ [(key, index)] }

/-- A thread can be in one call at a time. -/
def step (owner : InstrumentationKey → T) (s : SharedKeys T) :
    Event T → Except (Fault Vec) (SharedKeys T)
  | .enter key =>
    if s.call (owner key) = .idle then .ok (s.goto (owner key) (.entered key)) else .ok s
  | .next t =>
    match s.call t with
    | .idle => .ok s
    | .entered key => .ok (s.goto t (.search key s.keys.nextIkey 0))
    | .searching key nkeys i => do
      let k ← Checked.read .ikeys s.keys.ikeys i
      .ok (if k = key then s.finish t key (some i) else s.goto t (.search key nkeys (i + 1)))
    | .claiming key =>
      -- one access, which returns what the counter was before
      let next := s.keys.nextIkey
      let s := { s with keys := { s.keys with nextIkey := next + 1 } }
      if next < s.keys.ikeys.length then
        .ok ({ s with claims := s.claims ++ [key] }.goto t (.writing key next))
      else .ok (s.goto t (.rollingBack key))
    | .writing key next => do
      let ikeys ← Checked.write .ikeys s.keys.ikeys next key
      .ok ({ s with keys := { s.keys with ikeys } }.finish t key (some next))
    | .rollingBack key =>
      .ok ({ s with keys := { s.keys with nextIkey := s.keys.nextIkey - 1 } }.finish t key none)

end

/-! ### What the function is for

Each key gets an index of its own, the same one in each call, until the table is full.
-/

/-- An index is for one key, a key has one index, and a call fails for want of slots. -/
structure Allocated (s : SharedKeys T) : Prop where
  inj : ∀ k k' i, (k, some i) ∈ s.results → (k', some i) ∈ s.results → k = k'
  unique : ∀ k i i', (k, some i) ∈ s.results → (k, some i') ∈ s.results → i = i'
  full : ∀ k, (k, none) ∈ s.results → s.claims.length = s.keys.ikeys.length

/-- A call loads `next_ikey_` while it is no greater than the table, or its key has a
slot; and a call with key 0 finds every slot it reads as it was claimed. -/
def Ok (s : SharedKeys T) : Event T → Prop
  | .enter _ => True
  | .next t =>
    match s.call t with
    | .entered key => s.keys.nextIkey ≤ s.keys.ikeys.length ∨ key ∈ s.claims
    | .searching key _ i => key = 0 → s.keys.ikeys[i]? = s.claims[i]?
    | .idle | .claiming _ | .writing _ _ | .rollingBack _ => True

instance (s : SharedKeys T) (e : Event T) : Decidable (s.Ok e) := by
  unfold Ok
  split
  · exact inferInstance
  · split <;> exact inferInstance

/-! ## What holds between the accesses

The invariant, with what each thread is about to do.
-/

/-- What a call knows of the table and of the slots claimed. -/
def CallOk (ikeys claims : List InstrumentationKey) : KeyCall → Prop
  | .searching key nkeys i =>
    i < nkeys ∧ (nkeys ≤ claims.length ∨ key ∈ claims) ∧
      ∀ j, claims[j]? = some key → i ≤ j ∧ j < nkeys
  | .claiming key => key ∉ claims
  | .writing key next => claims[next]? = some key ∧ ikeys[next]? = some 0
  | .rollingBack _ => claims.length = ikeys.length
  | .idle | .entered _ => True

/-- The slot that a call returned is its key's; a call that failed found no slot left. -/
def ResultOk (ikeys claims : List InstrumentationKey) : InstrumentationKey × Option ℕ → Prop
  | (key, some i) => claims[i]? = some key
  | (_, none) => claims.length = ikeys.length

theorem getElem?_concat_eq_some {α : Type} {xs : List α} {x y : α} {i : ℕ} :
    (xs ++ [x])[i]? = some y ↔ xs[i]? = some y ∨ i = xs.length ∧ x = y := by
  rcases Nat.lt_trichotomy i xs.length with h | rfl | h
  · rw [List.getElem?_append_left h]
    exact ⟨Or.inl, fun h' => h'.resolve_right fun h' => absurd h'.1 h.ne⟩
  · simp
  · rw [List.getElem?_eq_none (by simp; omega), List.getElem?_eq_none h.le]
    simp [h.ne']

/-- Another key claims the next slot. -/
theorem CallOk.claim {ikeys claims : List InstrumentationKey} {c : KeyCall}
    (h : CallOk ikeys claims c) (hroom : claims.length < ikeys.length) {key : InstrumentationKey}
    (hkey : c.key? ≠ some key) : CallOk ikeys (claims ++ [key]) c := by
  cases c with
  | idle | entered => trivial
  | searching k nkeys i =>
    obtain ⟨hi, hle, hrest⟩ := h
    refine ⟨hi, ?_, fun j hj => ?_⟩
    · rw [List.length_append]
      exact hle.imp (fun hle => hle.trans (Nat.le_add_right ..)) (List.mem_append_left _)
    · rcases getElem?_concat_eq_some.mp hj with hj | ⟨-, rfl⟩
      · exact hrest j hj
      · exact absurd rfl hkey
  | claiming k =>
    intro hmem
    rcases List.mem_append.mp hmem with hmem | hmem
    · exact h hmem
    · exact hkey (congrArg some (List.mem_singleton.mp hmem))
  | writing k next => exact ⟨getElem?_concat_eq_some.mpr (Or.inl h.1), h.2⟩
  | rollingBack k => exact absurd h hroom.ne

/-- A slot is written that the call is not about to write. -/
theorem CallOk.write {ikeys claims : List InstrumentationKey} {c : KeyCall}
    (h : CallOk ikeys claims c) {next : ℕ} {key : InstrumentationKey}
    (hnext : ∀ k, c ≠ .writing k next) : CallOk (ikeys.set next key) claims c := by
  cases c with
  | idle | entered | searching | claiming => exact h
  | writing k i =>
    have hi : next ≠ i := fun hi => hnext k (hi ▸ rfl)
    exact ⟨h.1, (List.getElem?_set_ne hi).trans h.2⟩
  | rollingBack k => exact h.trans (List.length_set ..).symm

/-! ### The invariant

The counter is the number of claims, plus one for each increment that is still to be taken back. A
slot that is claimed has its key, unless its thread is about to write it.
-/

/-- What holds of the table and of the calls that are under way. -/
structure Inv (owner : InstrumentationKey → T) (s : SharedKeys T) : Prop where
  owned : ∀ t key, (s.call t).key? = some key → owner key = t
  nodup : s.claims.Nodup
  length_le : s.claims.length ≤ s.keys.ikeys.length
  unclaimed : ∀ i, s.claims.length ≤ i → i < s.keys.ikeys.length → s.keys.ikeys[i]? = some 0
  /-- the counter is ahead by the increments that are to be taken back -/
  counter : ∃ ts : List T, ts.Nodup ∧ (∀ t, t ∈ ts ↔ ∃ key, s.call t = .rollingBack key) ∧
    s.keys.nextIkey = s.claims.length + ts.length
  written : ∀ i key, s.claims[i]? = some key →
    s.keys.ikeys[i]? = some key ∨ s.call (owner key) = .writing key i
  calls : ∀ t, CallOk s.keys.ikeys s.claims (s.call t)
  results : ∀ r ∈ s.results, ResultOk s.keys.ikeys s.claims r

variable {owner : InstrumentationKey → T} {s s' : SharedKeys T}

theorem inv_new (owner : InstrumentationKey → T) (n : ℕ) : (new T n).Inv owner where
  owned t key h := by cases h
  nodup := List.nodup_nil
  length_le := Nat.zero_le _
  unclaimed i _ hi := by
    rw [List.getElem?_eq_getElem hi]
    exact congrArg some (List.getElem_replicate ..)
  counter := ⟨[], List.nodup_nil, fun t => by simp [new], rfl⟩
  written i key h := by cases h
  calls _ := trivial
  results r h := by cases h

theorem Inv.callOk (hinv : s.Inv owner) {t : T} {c : KeyCall} (hcall : s.call t = c) :
    CallOk s.keys.ikeys s.claims c := hcall ▸ hinv.calls t

theorem Inv.owner_eq (hinv : s.Inv owner) {t : T} {c : KeyCall} (hcall : s.call t = c)
    {key : InstrumentationKey} (hc : c.key? = some key) : owner key = t :=
  hinv.owned t key (by rw [hcall, hc])

/-- While there is room in the table no increment is to be taken back. -/
theorem Inv.nextIkey_eq (hinv : s.Inv owner) (hroom : s.claims.length < s.keys.ikeys.length) :
    s.keys.nextIkey = s.claims.length := by
  obtain ⟨ts, -, hts, hcount⟩ := hinv.counter
  rcases ts with _ | ⟨t, ts⟩
  · exact hcount
  · obtain ⟨key, hkey⟩ := (hts t).mp (List.mem_cons_self ..)
    exact absurd (hinv.callOk hkey) hroom.ne

theorem Inv.claims_le (hinv : s.Inv owner) : s.claims.length ≤ s.keys.nextIkey := by
  obtain ⟨ts, -, -, hcount⟩ := hinv.counter
  omega

/-- A counter that is in the range of the table counts the slots claimed. -/
theorem Inv.claims_eq (hinv : s.Inv owner) (hle : s.keys.nextIkey ≤ s.keys.ikeys.length) :
    s.claims.length = s.keys.nextIkey := by
  rcases hinv.length_le.lt_or_eq with hroom | hfull
  · exact (hinv.nextIkey_eq hroom).symm
  · exact le_antisymm hinv.claims_le (hle.trans_eq hfull.symm)

/-- A slot is claimed once. -/
theorem Inv.index_eq (hinv : s.Inv owner) {i j : ℕ} {key : InstrumentationKey}
    (hi : s.claims[i]? = some key) (hj : s.claims[j]? = some key) : i = j := by
  obtain ⟨hi', hi⟩ := List.getElem?_eq_some_iff.mp hi
  obtain ⟨hj', hj⟩ := List.getElem?_eq_some_iff.mp hj
  exact (List.Nodup.getElem_inj_iff hinv.nodup).mp (hi.trans hj.symm)

/-- The slots that are read are in the table. -/
theorem Inv.lt_of_searching (hinv : s.Inv owner) {t : T} {key : InstrumentationKey} {nkeys i : ℕ}
    (hcall : s.call t = .searching key nkeys i) : i < s.claims.length := by
  obtain ⟨hi, hle | hmem, hrest⟩ := hinv.callOk hcall
  · omega
  · obtain ⟨j, hj⟩ := List.mem_iff_getElem?.mp hmem
    have := hrest j hj
    have := (List.getElem?_eq_some_iff.mp hj).1
    omega

/-- A key that is found in a slot is the key the slot was claimed for. -/
theorem Inv.claimed_of_read (hinv : s.Inv owner) {t : T} {key : InstrumentationKey} {nkeys i : ℕ}
    (hcall : s.call t = .searching key nkeys i) (hok : s.Ok (.next t))
    (hread : s.keys.ikeys[i]? = some key) : s.claims[i]? = some key := by
  have hi := hinv.lt_of_searching hcall
  have hclaim : s.claims[i]? = some s.claims[i] := List.getElem?_eq_getElem hi
  simp only [Ok, hcall] at hok
  rcases hinv.written i _ hclaim with hwritten | hwriting
  · rw [hclaim, ← hwritten, hread]
  · -- the slot is still zero, so the key is
    have hkey : key = 0 := Option.some.inj (hread.symm.trans (hinv.callOk hwriting).2)
    rw [← hok hkey, hread]

/-- The slot that is read is not the key's own, if it holds another key. -/
theorem Inv.not_claimed_of_read (hinv : s.Inv owner) {t : T} {key : InstrumentationKey}
    {nkeys i : ℕ} (hcall : s.call t = .searching key nkeys i)
    (hread : s.keys.ikeys[i]? ≠ some key) : s.claims[i]? ≠ some key := by
  intro hclaim
  rcases hinv.written i key hclaim with hwritten | hwriting
  · exact hread hwritten
  · have hkey := hinv.owner_eq hcall rfl
    rw [hkey, hcall] at hwriting
    cases hwriting

theorem Inv.allocated (hinv : s.Inv owner) : s.Allocated where
  inj _ _ _ hk hk' := Option.some.inj ((hinv.results _ hk).symm.trans (hinv.results _ hk'))
  unique _ _ _ hi hi' := hinv.index_eq (hinv.results _ hi) (hinv.results _ hi')
  full _ hk := hinv.results _ hk

/-! ## The accesses keep it

One lemma for each access, and then for all of them.
-/

variable [DecidableEq T]

/-! ### One call changes

The accesses of one thread leave the calls of the others as they are, so the parts of the invariant
about other threads are kept together here.
-/

theorem Inv.owned_update (hinv : s.Inv owner) {t : T} {c : KeyCall}
    (hkey : ∀ key, c.key? = some key → owner key = t) :
    ∀ t' key, (Function.update s.call t c t').key? = some key → owner key = t' :=
  (Function.forall_update_iff s.call fun t' c' => ∀ key, c'.key? = some key → owner key = t').mpr
    ⟨hkey, fun t' _ => hinv.owned t'⟩

theorem Inv.written_update (hinv : s.Inv owner) {t : T} (c : KeyCall)
    (hwriting : ∀ key i, s.call t ≠ .writing key i) {i : ℕ} {key : InstrumentationKey}
    (h : s.claims[i]? = some key) :
    s.keys.ikeys[i]? = some key ∨ Function.update s.call t c (owner key) = .writing key i := by
  refine (hinv.written i key h).imp_right fun hw => ?_
  have ht : owner key ≠ t := fun ht => hwriting key i (ht ▸ hw)
  exact (Function.update_of_ne ht ..).trans hw

/-- The increments to be taken back stay those of the same threads. -/
theorem rollingBack_update {ts : List T} (hts : ∀ t, t ∈ ts ↔ ∃ key, s.call t = .rollingBack key)
    {t : T} {c : KeyCall} (hc : ∀ key, c ≠ .rollingBack key)
    (hcall : ∀ key, s.call t ≠ .rollingBack key) :
    ∀ t', t' ∈ ts ↔ ∃ key, Function.update s.call t c t' = .rollingBack key := by
  refine (Function.forall_update_iff s.call fun t' c' =>
    t' ∈ ts ↔ ∃ key, c' = .rollingBack key).mpr ⟨?_, fun t' _ => hts t'⟩
  rw [hts]
  simp [hc, hcall]

/-- An access that changes nothing but the place of its thread and what has returned. -/
theorem Inv.move (hinv : s.Inv owner) {t : T} {c : KeyCall}
    {results : List (InstrumentationKey × Option ℕ)}
    (hkey : ∀ key, c.key? = some key → owner key = t) (hc : CallOk s.keys.ikeys s.claims c)
    (hroll : ∀ key, c ≠ .rollingBack key) (hroll' : ∀ key, s.call t ≠ .rollingBack key)
    (hwriting : ∀ key i, s.call t ≠ .writing key i)
    (hresults : ∀ r ∈ results, ResultOk s.keys.ikeys s.claims r) :
    Inv owner { s with call := Function.update s.call t c, results } := by
  refine ⟨hinv.owned_update hkey, hinv.nodup, hinv.length_le, hinv.unclaimed, ?_,
    fun _ _ => hinv.written_update c hwriting, ?_, hresults⟩
  · obtain ⟨ts, hnodup, hts, hcount⟩ := hinv.counter
    exact ⟨ts, hnodup, rollingBack_update hts hroll hroll', hcount⟩
  · exact (Function.forall_update_iff s.call fun _ c' => CallOk s.keys.ikeys s.claims c').mpr
      ⟨hc, fun t' _ => hinv.calls t'⟩

/-- A call moves on, and nothing has returned. -/
theorem Inv.goto (hinv : s.Inv owner) {t : T} {c : KeyCall}
    (hkey : ∀ key, c.key? = some key → owner key = t) (hc : CallOk s.keys.ikeys s.claims c)
    (hroll : ∀ key, c ≠ .rollingBack key) (hroll' : ∀ key, s.call t ≠ .rollingBack key)
    (hwriting : ∀ key i, s.call t ≠ .writing key i) : (s.goto t c).Inv owner :=
  hinv.move hkey hc hroll hroll' hwriting hinv.results

/-- The loop goes on with the slots from `i` on. -/
theorem Inv.search (hinv : s.Inv owner) {t : T} {key : InstrumentationKey} {nkeys i : ℕ}
    (hkey : owner key = t) (hle : nkeys ≤ s.claims.length ∨ key ∈ s.claims)
    (hrest : ∀ j, s.claims[j]? = some key → i ≤ j ∧ j < nkeys)
    (hroll : ∀ key, s.call t ≠ .rollingBack key) (hwriting : ∀ key i, s.call t ≠ .writing key i) :
    (s.goto t (.search key nkeys i)).Inv owner := by
  rw [KeyCall.search]
  split_ifs with hi
  · exact hinv.goto (KeyCall.forall_key rfl hkey) ⟨hi, hle, hrest⟩ (by simp) hroll hwriting
  · refine hinv.goto (KeyCall.forall_key rfl hkey) ?_ (by simp) hroll hwriting
    -- all the slots have been read, and none of them was the key's
    intro hmem
    obtain ⟨j, hj⟩ := List.mem_iff_getElem?.mp hmem
    have := hrest j hj
    omega

/-! ### One lemma for each access

The load of the counter, the reads of the search, the increment with and without room, the write,
and the decrement.
-/

/-- The load. The key's slot, if it has one, is among those to be read. -/
theorem inv_load (hinv : s.Inv owner) {t : T} {key : InstrumentationKey}
    (hcall : s.call t = .entered key) (hok : s.Ok (.next t)) :
    (s.goto t (.search key s.keys.nextIkey 0)).Inv owner := by
  simp only [Ok, hcall] at hok
  refine hinv.search (hinv.owner_eq hcall rfl) ?_ ?_ (by simp [hcall]) (by simp [hcall])
  · exact hok.imp_left fun hle => (hinv.claims_eq hle).ge
  · intro j hj
    have := hinv.claims_le
    have := (List.getElem?_eq_some_iff.mp hj).1
    omega

/-- The read, and what it decides. -/
theorem inv_read (hinv : s.Inv owner) {t : T} {key : InstrumentationKey} {nkeys i : ℕ}
    (hcall : s.call t = .searching key nkeys i) (hok : s.Ok (.next t)) {k : InstrumentationKey}
    (hread : s.keys.ikeys[i]? = some k) :
    Inv owner (if k = key then s.finish t key (some i)
      else s.goto t (.search key nkeys (i + 1))) := by
  have hkey := hinv.owner_eq hcall rfl
  obtain ⟨hi, hle, hrest⟩ := hinv.callOk hcall
  split_ifs with hk
  · subst hk
    have hclaim := hinv.claimed_of_read hcall hok hread
    refine hinv.move (by simp [KeyCall.key?]) trivial (by simp) (by simp [hcall])
      (by simp [hcall]) ?_
    exact List.forall_mem_append.mpr ⟨hinv.results, List.forall_mem_singleton.mpr hclaim⟩
  · have hne : s.claims[i]? ≠ some key := by
      refine hinv.not_claimed_of_read hcall ?_
      rw [hread]
      exact fun h => hk (Option.some.inj h)
    refine hinv.search hkey hle ?_ (by simp [hcall]) (by simp [hcall])
    intro j hj
    have := hrest j hj
    have hji : j ≠ i := fun hji => hne (hji ▸ hj)
    omega

/-- The increment that finds room claims the next slot. -/
theorem inv_claim (hinv : s.Inv owner) {t : T} {key : InstrumentationKey}
    (hcall : s.call t = .claiming key) (hroom : s.keys.nextIkey < s.keys.ikeys.length) :
    Inv owner (goto { s with
      keys := { s.keys with nextIkey := s.keys.nextIkey + 1 }, claims := s.claims ++ [key] }
      t (.writing key s.keys.nextIkey)) := by
  have hkey := hinv.owner_eq hcall rfl
  have hlen := hinv.claims_eq hroom.le
  have hnew : key ∉ s.claims := hinv.callOk hcall
  have hlength : (s.claims ++ [key]).length = s.keys.nextIkey + 1 := by
    rw [List.length_append, List.length_singleton, hlen]
  refine ⟨hinv.owned_update (KeyCall.forall_key rfl hkey), ?_, hlength.trans_le hroom, ?_, ?_, ?_,
    ?_, ?_⟩
  · exact List.nodup_append.mpr ⟨hinv.nodup, List.nodup_singleton key, by
      rintro a ha b hb rfl
      obtain rfl := List.mem_singleton.mp hb
      exact hnew ha⟩
  · intro i hi hlt
    change (s.claims ++ [key]).length ≤ i at hi
    exact hinv.unclaimed i (by omega) hlt
  · obtain ⟨ts, hnodup, hts, hcount⟩ := hinv.counter
    refine ⟨ts, hnodup, rollingBack_update hts (by simp) (by simp [hcall]), ?_⟩
    change s.keys.nextIkey + 1 = (s.claims ++ [key]).length + ts.length
    omega
  · -- the new slot is the only one this thread is about to write
    intro i k hk
    rcases getElem?_concat_eq_some.mp hk with hk | ⟨rfl, rfl⟩
    · exact hinv.written_update _ (by simp [hcall]) hk
    · refine Or.inr ?_
      rw [hkey, hlen]
      exact Function.update_self ..
  · refine (Function.forall_update_iff s.call fun _ c' =>
      CallOk s.keys.ikeys (s.claims ++ [key]) c').mpr ⟨⟨?_, ?_⟩, fun t' ht => ?_⟩
    · exact getElem?_concat_eq_some.mpr (Or.inr ⟨hlen.symm, rfl⟩)
    · exact hinv.unclaimed _ hlen.le hroom
    · refine (hinv.calls t').claim (hlen.trans_lt hroom) fun hk => ?_
      exact ht ((hinv.owned t' key hk).symm.trans hkey)
  · rintro ⟨k, i | i⟩ hmem
    · exact absurd (hinv.results _ hmem) (hlen.trans_lt hroom).ne
    · exact getElem?_concat_eq_some.mpr (Or.inl (hinv.results _ hmem))

/-- The increment that finds no room is to be taken back. -/
theorem inv_overflow (hinv : s.Inv owner) {t : T} {key : InstrumentationKey}
    (hcall : s.call t = .claiming key) (hroom : ¬ s.keys.nextIkey < s.keys.ikeys.length) :
    Inv owner (goto { s with keys := { s.keys with nextIkey := s.keys.nextIkey + 1 } }
      t (.rollingBack key)) := by
  have hkey := hinv.owner_eq hcall rfl
  have hfull : s.claims.length = s.keys.ikeys.length := by
    refine le_antisymm hinv.length_le ?_
    by_contra hlt
    have := hinv.nextIkey_eq (not_le.mp hlt)
    omega
  refine ⟨hinv.owned_update (KeyCall.forall_key rfl hkey), hinv.nodup, hinv.length_le,
    hinv.unclaimed, ?_, fun _ _ => hinv.written_update _ (by simp [hcall]), ?_, hinv.results⟩
  · obtain ⟨ts, hnodup, hts, hcount⟩ := hinv.counter
    have hnew : t ∉ ts := by
      rw [hts, hcall]
      simp
    refine ⟨t :: ts, List.nodup_cons.mpr ⟨hnew, hnodup⟩, ?_, ?_⟩
    · refine (Function.forall_update_iff s.call fun t' c' =>
        t' ∈ t :: ts ↔ ∃ key, c' = .rollingBack key).mpr ⟨by simp, fun t' ht => ?_⟩
      rw [List.mem_cons, hts]
      exact or_iff_right ht
    · change s.keys.nextIkey + 1 = s.claims.length + (t :: ts).length
      rw [List.length_cons]
      omega
  · exact (Function.forall_update_iff s.call fun _ c' =>
      CallOk s.keys.ikeys s.claims c').mpr ⟨hfull, fun t' _ => hinv.calls t'⟩

/-- The write. Nobody else is about to write this slot. -/
theorem inv_write (hinv : s.Inv owner) {t : T} {key : InstrumentationKey} {next : ℕ}
    (hcall : s.call t = .writing key next) :
    Inv owner (finish { s with keys := { s.keys with ikeys := s.keys.ikeys.set next key } }
      t key (some next)) := by
  have hkey := hinv.owner_eq hcall rfl
  obtain ⟨hclaim, hzero⟩ := hinv.callOk hcall
  have hnext := (List.getElem?_eq_some_iff.mp hzero).1
  have hlength : (s.keys.ikeys.set next key).length = s.keys.ikeys.length := List.length_set ..
  refine ⟨hinv.owned_update (by simp [KeyCall.key?]), hinv.nodup,
    hinv.length_le.trans_eq hlength.symm, ?_, ?_, ?_, ?_, ?_⟩
  · intro i hi hlt
    have hne : next ≠ i := by
      have := (List.getElem?_eq_some_iff.mp hclaim).1
      change s.claims.length ≤ i at hi
      omega
    exact (List.getElem?_set_ne hne).trans (hinv.unclaimed i hi (hlength ▸ hlt))
  · obtain ⟨ts, hnodup, hts, hcount⟩ := hinv.counter
    exact ⟨ts, hnodup, rollingBack_update hts (by simp) (by simp [hcall]), hcount⟩
  · intro i k hk
    by_cases hi : next = i
    · subst hi
      obtain rfl : key = k := Option.some.inj (hclaim.symm.trans hk)
      exact Or.inl (List.getElem?_set_self hnext)
    · refine (hinv.written i k hk).imp (fun hw => (List.getElem?_set_ne hi).trans hw) fun hw => ?_
      have ht : owner k ≠ t := by
        intro ht
        rw [ht, hcall] at hw
        cases hw
        exact hi rfl
      exact (Function.update_of_ne ht ..).trans hw
  · refine (Function.forall_update_iff s.call fun _ c' =>
      CallOk (s.keys.ikeys.set next key) s.claims c').mpr ⟨trivial, fun t' ht => ?_⟩
    refine (hinv.calls t').write fun k hk => ?_
    -- the slot was claimed for this key alone
    obtain rfl : key = k := Option.some.inj (hclaim.symm.trans (hinv.callOk hk).1)
    exact ht ((hinv.owner_eq hk rfl).symm.trans hkey)
  · have hold : ∀ r ∈ s.results, ResultOk (s.keys.ikeys.set next key) s.claims r := by
      rintro ⟨k, i | i⟩ hmem
      · exact (hinv.results _ hmem).trans hlength.symm
      · exact hinv.results _ hmem
    exact List.forall_mem_append.mpr ⟨hold, List.forall_mem_singleton.mpr hclaim⟩

/-- The decrement takes one of the increments back. -/
theorem inv_rollBack (hinv : s.Inv owner) {t : T} {key : InstrumentationKey}
    (hcall : s.call t = .rollingBack key) :
    Inv owner (finish { s with keys := { s.keys with nextIkey := s.keys.nextIkey - 1 } }
      t key none) := by
  have hfull := hinv.callOk hcall
  refine ⟨hinv.owned_update (by simp [KeyCall.key?]), hinv.nodup, hinv.length_le, hinv.unclaimed,
    ?_, fun _ _ => hinv.written_update _ (by simp [hcall]), ?_, ?_⟩
  · obtain ⟨ts, hnodup, hts, hcount⟩ := hinv.counter
    have hmem : t ∈ ts := (hts t).mpr ⟨key, hcall⟩
    refine ⟨ts.erase t, hnodup.erase t, ?_, ?_⟩
    · refine (Function.forall_update_iff s.call fun t' c' =>
        t' ∈ ts.erase t ↔ ∃ key, c' = .rollingBack key).mpr ⟨?_, fun t' ht => ?_⟩
      · simp [hnodup.not_mem_erase]
      · rw [List.mem_erase_of_ne ht, hts]
    · have hpos := List.length_pos_of_mem hmem
      have hlen := List.length_erase_of_mem hmem
      change s.keys.nextIkey - 1 = s.claims.length + (ts.erase t).length
      omega
  · exact (Function.forall_update_iff s.call fun _ c' =>
      CallOk s.keys.ikeys s.claims c').mpr ⟨trivial, fun t' _ => hinv.calls t'⟩
  · exact List.forall_mem_append.mpr ⟨hinv.results, List.forall_mem_singleton.mpr hfull⟩

/-- An access as its thread stands: it stays in the table, and keeps the invariant. -/
theorem step_of_ok (hinv : s.Inv owner) {e : Event T} (hok : s.Ok e) :
    ∃ s', s.step owner e = .ok s' ∧ s'.Inv owner := by
  cases e with
  | enter key =>
    by_cases hidle : s.call (owner key) = .idle
    · exact ⟨_, if_pos hidle, hinv.goto (KeyCall.forall_key rfl rfl) trivial (by simp)
        (by simp [hidle]) (by simp [hidle])⟩
    · exact ⟨s, if_neg hidle, hinv⟩
  | next t =>
    cases hcall : s.call t with
    | idle => exact ⟨s, by simp only [step, hcall], hinv⟩
    | entered key => exact ⟨_, by simp only [step, hcall], inv_load hinv hcall hok⟩
    | searching key nkeys i =>
      have hi := (hinv.lt_of_searching hcall).trans_le hinv.length_le
      exact ⟨_, by simp only [step, hcall, Checked.read_of_lt hi, Checked.ok_bind],
        inv_read hinv hcall hok (List.getElem?_eq_getElem hi)⟩
    | claiming key =>
      by_cases hroom : s.keys.nextIkey < s.keys.ikeys.length
      · exact ⟨_, by simp only [step, hcall, if_pos hroom], inv_claim hinv hcall hroom⟩
      · exact ⟨_, by simp only [step, hcall, if_neg hroom], inv_overflow hinv hcall hroom⟩
    | writing key next =>
      have hnext := (List.getElem?_eq_some_iff.mp (hinv.callOk hcall).2).1
      exact ⟨_, by simp only [step, hcall, Checked.write_of_lt hnext, Checked.ok_bind],
        inv_write hinv hcall⟩
    | rollingBack key => exact ⟨_, by simp only [step, hcall], inv_rollBack hinv hcall⟩

/-- **Threads with keys of their own share the table**, as long as none of them loads a
counter that is to be taken back, or reads a slot too early with key 0. -/
theorem allocated_of_ok (owner : InstrumentationKey → T) (maxInstrumentationKeys : ℕ)
    {es : List (Event T)} (hok : Runs.ChecksOk (step owner) Ok (new T maxInstrumentationKeys) es) :
    ∃ s, Runs.runChecked (step owner) (new T maxInstrumentationKeys) es = .ok s ∧ s.Allocated := by
  obtain ⟨s, hs, hinv⟩ := Runs.exists_of_checksOk (fun _ _ hinv => step_of_ok hinv)
    (inv_new owner maxInstrumentationKeys) hok
  exact ⟨s, hs, hinv.allocated⟩

/-- Two threads register their keys at the same time, and a third finds no room. -/
theorem allocated_of_ok_three : ∃ s,
    Runs.runChecked (step UInt16.toNat) (new ℕ 2)
      [.enter 5, .enter 6, .next 5, .next 6, .next 6, .next 5, .next 5, .next 6, .enter 7, .next 7,
        .next 7, .next 7, .next 7, .next 7] = .ok s ∧ s.Allocated :=
  allocated_of_ok UInt16.toNat 2 (by decide)

/-- The table is full. Key 7 loads the counter before the increment for key 6 is taken
back, and reads past the end. -/
def overflowRun : List (Event ℕ) :=
  [.enter 5, .next 5, .next 5, .next 5, .enter 6, .next 6, .next 6, .next 6, .enter 7, .next 7,
    .next 7, .next 7]

/-- Slot 0 is claimed for key 5. Before it is written key 0 finds itself in it. -/
def keyZeroRun : List (Event ℕ) :=
  [.enter 5, .next 5, .next 5, .enter 0, .next 0, .next 0, .next 5]

theorem not_allocated :
    Runs.runChecked (step UInt16.toNat) (new ℕ 1) overflowRun = .error (.outOfRange .ikeys 1 1) ∧
      ∃ s, Runs.runChecked (step UInt16.toNat) (new ℕ 2) keyZeroRun = .ok s ∧
        s.results = [(0, some 0), (5, some 0)] ∧ ¬ s.Allocated := by
  refine ⟨rfl, ?_⟩
  have hresults : (Runs.runChecked (step UInt16.toNat) (new ℕ 2) keyZeroRun).map results =
      .ok [(0, some 0), (5, some 0)] := by decide
  obtain ⟨s, hs, hresults⟩ := Checked.map_eq_ok.mp hresults
  refine ⟨s, hs, hresults, fun hall => ?_⟩
  have hkeys : (0 : InstrumentationKey) = 5 :=
    hall.inj 0 5 0 (by rw [hresults]; decide) (by rw [hresults]; decide)
  exact absurd hkeys (by decide)

/-! ## A call that nobody disturbs

With no other thread at work the accesses add up to the function of one thread.
-/

/-- A number of accesses of one thread. -/
def Alone (owner : InstrumentationKey → T) (t : T) (s s' : SharedKeys T) : Prop :=
  ∃ n, Runs.runChecked (step owner) s (List.replicate n (.next t)) = .ok s'

theorem Alone.refl (owner : InstrumentationKey → T) (t : T) (s : SharedKeys T) :
    Alone owner t s s := ⟨0, rfl⟩

theorem Alone.head {t : T} {s₁ : SharedKeys T} (hstep : s.step owner (.next t) = .ok s₁)
    (h : Alone owner t s₁ s') : Alone owner t s s' := by
  obtain ⟨n, hn⟩ := h
  exact ⟨n + 1, Runs.runChecked_cons_eq_ok.mpr ⟨s₁, hstep, hn⟩⟩

/-- The loop reads slot after slot, as `find` does. -/
theorem Alone.search {t : T} {key : InstrumentationKey} {n i : ℕ} {r : Option ℕ}
    (hcall : s.call t = .search key (i + n) i)
    (hfind : InstrumentKeys.find key s.keys.ikeys n i = .ok r)
    (h : Alone owner t (r.elim (s.goto t (.claiming key)) fun j => s.finish t key (some j)) s') :
    Alone owner t s s' := by
  induction n generalizing s i with
  | zero =>
    cases hfind
    rw [KeyCall.search, if_neg (by omega)] at hcall
    rwa [Option.elim_none, goto, ← hcall, Function.update_eq_self] at h
  | succ n ih =>
    rw [KeyCall.search, if_pos (by omega)] at hcall
    obtain ⟨k, hk, hfind⟩ := Checked.bind_eq_ok.mp hfind
    have hstep : s.step owner (.next t) = .ok (if k = key then s.finish t key (some i)
        else s.goto t (.search key (i + (n + 1)) (i + 1))) := by
      simp only [step, hcall, hk, Checked.ok_bind]
    split at hfind
    · next hkey =>
      cases hfind
      rw [if_pos hkey] at hstep
      exact h.head hstep
    · next hkey =>
      rw [if_neg hkey] at hstep
      refine Alone.head hstep (ih (i := i + 1) ?_ hfind ?_)
      · rw [show i + (n + 1) = i + 1 + n by omega]
        exact Function.update_self ..
      · rcases r with _ | j
        · simpa only [Option.elim_none, goto, Function.update_idem] using h
        · simpa only [Option.elim_some, goto, finish, Function.update_idem] using h

/-- There is room: the slot is claimed and written. -/
theorem Alone.claim {t : T} {key : InstrumentationKey}
    (hroom : s.keys.nextIkey < s.keys.ikeys.length) :
    Alone owner t (s.goto t (.claiming key)) (finish { s with
      keys := ⟨s.keys.ikeys.set s.keys.nextIkey key, s.keys.nextIkey + 1⟩
      claims := s.claims ++ [key] } t key (some s.keys.nextIkey)) := by
  have hclaim : (s.goto t (.claiming key)).step owner (.next t) = .ok (goto { s with
      keys := ⟨s.keys.ikeys, s.keys.nextIkey + 1⟩, claims := s.claims ++ [key] }
      t (.writing key s.keys.nextIkey)) := by
    simp only [step, goto, Function.update_self, Function.update_idem, if_pos hroom]
  refine Alone.head hclaim (Alone.head ?_ (Alone.refl ..))
  simp only [step, goto, finish, Function.update_self, Function.update_idem,
    Checked.write_of_lt hroom, Checked.ok_bind]

/-- There is none: the increment is taken back. -/
theorem Alone.rollBack {t : T} {key : InstrumentationKey}
    (hroom : ¬ s.keys.nextIkey < s.keys.ikeys.length) :
    Alone owner t (s.goto t (.claiming key)) (s.finish t key none) := by
  have hoverflow : (s.goto t (.claiming key)).step owner (.next t) =
      .ok (goto { s with keys := ⟨s.keys.ikeys, s.keys.nextIkey + 1⟩ } t (.rollingBack key)) := by
    simp only [step, goto, Function.update_self, Function.update_idem, if_neg hroom]
  refine Alone.head hoverflow (Alone.head ?_ (Alone.refl ..))
  simp only [step, goto, finish, Function.update_self, Function.update_idem, Nat.add_sub_cancel]

/-- **A call that nobody disturbs does what the function does.** -/
theorem exists_alone {key : InstrumentationKey} {r : Option ℕ} {keys : InstrumentKeys}
    (hidle : s.call (owner key) = .idle)
    (hcreate : s.keys.getOrCreateInstrumentKeyIndex key = .ok (r, keys)) :
    ∃ s₁ s', s.step owner (.enter key) = .ok s₁ ∧ Alone owner (owner key) s₁ s' ∧
      s'.keys = keys ∧ s'.call = s.call ∧ s'.results = s.results ++ [(key, r)] := by
  obtain ⟨found, hfind, hcreate⟩ := Checked.bind_eq_ok.mp hcreate
  have hback : Function.update s.call (owner key) .idle = s.call := by
    rw [← hidle, Function.update_eq_self]
  have hload : (s.goto (owner key) (.entered key)).step owner (.next (owner key)) =
      .ok (s.goto (owner key) (.search key s.keys.nextIkey 0)) := by
    simp only [step, goto, Function.update_self, Function.update_idem]
  have hsearch {s' : SharedKeys T}
      (h : Alone owner (owner key) (found.elim (s.goto (owner key) (.claiming key))
        fun j => s.finish (owner key) key (some j)) s') :
      Alone owner (owner key) (s.goto (owner key) (.entered key)) s' := by
    refine (Alone.search (s := s.goto (owner key) (.search key s.keys.nextIkey 0)) (i := 0)
      ?_ hfind ?_).head hload
    · rw [Nat.zero_add]
      exact Function.update_self ..
    · rcases found with _ | j
      · simpa only [Option.elim_none, goto, Function.update_idem] using h
      · simpa only [Option.elim_some, goto, finish, Function.update_idem] using h
  refine ⟨s.goto (owner key) (.entered key), ?_⟩
  rcases found with _ | j
  · by_cases hroom : s.keys.nextIkey < s.keys.ikeys.length
    · rw [if_pos hroom, Checked.write_of_lt hroom] at hcreate
      cases hcreate
      exact ⟨_, if_pos hidle, hsearch (Alone.claim hroom), rfl, hback, rfl⟩
    · rw [if_neg hroom] at hcreate
      cases hcreate
      exact ⟨_, if_pos hidle, hsearch (Alone.rollBack hroom), rfl, hback, rfl⟩
  · cases hcreate
    exact ⟨_, if_pos hidle, hsearch (Alone.refl ..), rfl, hback, rfl⟩

end SharedKeys

end GameSdk
