import GameSdk.JsonText

/-!
# What the JSON parser takes for a value

The grammar of values, by the number of levels that are permitted. A level is described over the
level below it, as `parse_json` is; the loops are those of `Scanner`.

The parser takes the texts of the grammar, with the values that they have there, and nothing
else. It does not run out of fuel.

* What is accepted is the text of a value, and the value is the one the grammar gives it.
* A text of the grammar is accepted, if it is not nested too deeply.
* The loops have fuel enough for every text.
-/

namespace GameSdk

namespace Json11

/-! ## The grammar

One level over the level below. Items are separated by commas, with white space around everything.
-/

/-- After an item: the comma, or the end. -/
def DelimiterText (close : UInt8) (t : ByteString) (more : Bool) : Prop :=
  ∃ w, Whitespace w ∧ w ++ [if more then comma else close] = t

/-- What is in brackets, and the closing one. -/
inductive ItemsText {α : Type} (P : ByteString → α → Prop) (close : UInt8) :
    ByteString → List α → Prop
  | empty {w} : Whitespace w → ItemsText P close (w ++ [close]) []
  | items {t as} : Scanner.Separated P (DelimiterText close) t as → ItemsText P close t as

section

variable {δ : Type}

/-- A key, a colon and a value, with white space. -/
def EntryText (P : ByteString → Json δ → Prop) (t : ByteString) (kv : ByteString × Json δ) : Prop :=
  ∃ w k w' v, Whitespace w ∧ StringText k kv.1 ∧ Whitespace w' ∧ P v kv.2 ∧
    w ++ quote :: (k ++ (w' ++ colon :: v)) = t

/-- A value, where `P` are the texts of the values in it. -/
inductive ValueText (D : Doubles δ) (P : ByteString → Json δ → Prop) : ByteString → Json δ → Prop
  | null {w} : Whitespace w → ValueText D P (w ++ text "null") .null
  | true {w} : Whitespace w → ValueText D P (w ++ text "true") (.bool true)
  | false {w} : Whitespace w → ValueText D P (w ++ text "false") (.bool false)
  | number {w t} : Whitespace w → NumberText t → ValueText D P (w ++ t) (numberValue D t)
  | string {w t s} : Whitespace w → StringText t s → ValueText D P (w ++ quote :: t) (.string s)
  | array {w t vs} : Whitespace w → ItemsText P closeBracket t vs →
      ValueText D P (w ++ openBracket :: t) (.array vs)
  | object {w t kvs} : Whitespace w → ItemsText (EntryText P) closeBrace t kvs →
      ValueText D P (w ++ openBrace :: t) (.object (ofEntries kvs))

/-- The texts of values, with at most so many levels. -/
def Text (D : Doubles δ) : ℕ → ByteString → Json δ → Prop
  | 0 => fun _ _ => False
  | n + 1 => ValueText D (Text D n)

end

/-! ## The first token of a text

By its first character it is known what kind of value a text is.
-/

/-- White space, and then `ch`. -/
def FirstToken (t : ByteString) (ch : UInt8) : Prop :=
  ∃ w s, Whitespace w ∧ isSpace ch = false ∧ w ++ ch :: s = t

theorem FirstToken.hasToken_append {t : ByteString} {ch : UInt8} (h : FirstToken t ch)
    (s : ByteString) : HasToken (t ++ s) := by
  obtain ⟨w, s', hw, hch, rfl⟩ := h
  rw [List.append_assoc]
  exact Json11.hasToken_append hw (hasToken_cons hch)

theorem FirstToken.peek {t : ByteString} {ch : UInt8} (h : FirstToken t ch) (s : ByteString) :
    peekNextToken.run (t ++ s) = .ok (ch, t ++ s) := by
  obtain ⟨w, s', hw, hch, rfl⟩ := h
  rw [List.append_assoc]
  exact peekNextToken_append hw hch

theorem FirstToken.ne_nil {t : ByteString} {ch : UInt8} (h : FirstToken t ch) : t ≠ [] := by
  obtain ⟨w, s', -, -, rfl⟩ := h
  simp

theorem IntegerText.exists_cons {i : ByteString} (h : IntegerText i) :
    ∃ d ds, i = d :: ds ∧ isDigit d = true := by
  cases h with
  | zero => exact ⟨Json11.zero, [], rfl, by decide⟩
  | @digits d ds _ hds => exact ⟨d, ds, rfl, hds d List.mem_cons_self⟩

/-- A number begins with its sign, or a digit. -/
theorem NumberText.exists_cons {t : ByteString} (h : NumberText t) :
    ∃ ch s, t = ch :: s ∧ (ch = minus ∨ isDigit ch = true) := by
  obtain ⟨sign, i, f, x, hsign, hi, -, -, rfl⟩ := h
  cases hsign with
  | none =>
    obtain ⟨d, ds, rfl, hd⟩ := hi.exists_cons
    exact ⟨d, _, rfl, .inr hd⟩
  | minus => exact ⟨minus, _, rfl, .inl rfl⟩

theorem not_isSpace_of_isDigit {ch : UInt8} (h : isDigit ch = true) : isSpace ch = false := by
  simp only [isDigit, Bool.and_eq_true, decide_eq_true_eq, UInt8.le_iff_toNat_le] at h
  have hne (c : UInt8) (hc : c.toNat < 48) : ch ≠ c := by
    rintro rfl
    exact absurd h.1 (Nat.not_le.mpr hc)
  simp [isSpace, hne space (by decide), hne carriageReturn (by decide), hne newline (by decide),
    hne tab (by decide)]

/-- What a value may begin with. -/
def isValueStart (ch : UInt8) : Prop :=
  ch = minus ∨ isDigit ch = true ∨ ch = 116 ∨ ch = 102 ∨ ch = 110 ∨ ch = quote ∨ ch = openBrace ∨
    ch = openBracket

theorem isValueStart.not_isSpace {ch : UInt8} (h : isValueStart ch) : isSpace ch = false := by
  rcases h with rfl | h | rfl | rfl | rfl | rfl | rfl | rfl
  on_goal 2 => exact not_isSpace_of_isDigit h
  all_goals decide

theorem isValueStart.ne_closeBracket {ch : UInt8} (h : isValueStart ch) : ch ≠ closeBracket := by
  rcases h with rfl | h | rfl | rfl | rfl | rfl | rfl | rfl
  on_goal 2 => rintro rfl; exact absurd h (by decide)
  all_goals decide

section

variable {δ : Type} {D : Doubles δ}

theorem ValueText.firstToken {P : ByteString → Json δ → Prop} {t : ByteString} {v : Json δ}
    (h : ValueText D P t v) : ∃ ch, FirstToken t ch ∧ isValueStart ch := by
  have hstart {w : ByteString} (ch : UInt8) (hw : Whitespace w) (s : ByteString)
      (hch : isValueStart ch) : ∃ ch', FirstToken (w ++ ch :: s) ch' ∧ isValueStart ch' :=
    ⟨ch, ⟨w, s, hw, hch.not_isSpace, rfl⟩, hch⟩
  cases h with
  | null hw => exact hstart 110 hw _ (by simp [isValueStart])
  | true hw => exact hstart 116 hw _ (by simp [isValueStart])
  | false hw => exact hstart 102 hw _ (by simp [isValueStart])
  | number hw ht =>
    obtain ⟨ch, s, rfl, hch⟩ := ht.exists_cons
    exact hstart ch hw s (hch.elim .inl fun hd => .inr (.inl hd))
  | string hw _ => exact hstart quote hw _ (by simp [isValueStart])
  | array hw _ => exact hstart openBracket hw _ (by simp [isValueStart])
  | object hw _ => exact hstart openBrace hw _ (by simp [isValueStart])

theorem Text.firstToken {n : ℕ} {t : ByteString} {v : Json δ} (h : Text D n t v) :
    ∃ ch, FirstToken t ch ∧ isValueStart ch := by
  cases n with
  | zero => exact h.elim
  | succ n => exact ValueText.firstToken h

theorem EntryText.firstToken {P : ByteString → Json δ → Prop} {t : ByteString}
    {kv : ByteString × Json δ} (h : EntryText P t kv) : FirstToken t quote := by
  obtain ⟨w, k, w', v, hw, -, -, -, rfl⟩ := h
  exact ⟨w, _, hw, by decide, rfl⟩

end

/-! ## Delimiters

What may follow a value, so that a number ends where it does.
-/

theorem endsNumber_of_isSpace {ch : UInt8} (h : isSpace ch = true) : EndsNumber ch := by
  simp only [isSpace, Bool.or_eq_true, decide_eq_true_eq] at h
  rcases h with ((rfl | rfl) | rfl) | rfl <;> decide

theorem ends_append {w s : ByteString} (hw : Whitespace w) (hs : Ends s) : Ends (w ++ s) := by
  cases w with
  | nil => exact hs
  | cons ch w => exact endsNumber_of_isSpace (hw ch List.mem_cons_self)

theorem Whitespace.ends {w : ByteString} (hw : Whitespace w) : Ends w := by
  have h := ends_append hw (s := []) (by decide : EndsNumber 0)
  rwa [List.append_nil] at h

theorem DelimiterText.ends {close : UInt8} (hclose : EndsNumber close) {t : ByteString}
    {more : Bool} (h : DelimiterText close t more) (s : ByteString) : Ends (t ++ s) := by
  obtain ⟨w, hw, rfl⟩ := h
  rw [List.append_assoc, List.singleton_append]
  apply ends_append hw
  cases more with
  | false => exact hclose
  | true => exact (by decide : EndsNumber comma)

section

variable {close : UInt8} {place : String}

/-! ### Commas and brackets

After an item there is a comma or the closing bracket, and white space around either.
-/

theorem parseDelimiter_sound {s rest : ByteString} {more : Bool}
    (h : (parseDelimiter close place).run s = .ok (more, rest)) :
    ∃ t, DelimiterText close t more ∧ t ++ rest = s := by
  obtain ⟨ch, s', hch, hrun⟩ := Scanner.run_bind_eq_ok.mp h
  obtain ⟨t, ⟨w, hw, -, rfl⟩, rfl⟩ := getNextToken_exact.sound hch
  split_ifs at hrun with hclose hcomma
  · obtain ⟨rfl, rfl⟩ := Scanner.run_pure_eq_ok.mp hrun
    exact ⟨w ++ [ch], ⟨w, hw, by rw [hclose]; rfl⟩, rfl⟩
  · cases hrun
  · obtain ⟨ch', s'', hpeek, hrun⟩ := Scanner.run_bind_eq_ok.mp hrun
    obtain rfl := peekNextToken_eq_ok hpeek
    obtain ⟨rfl, rfl⟩ := Scanner.run_pure_eq_ok.mp hrun
    exact ⟨w ++ [ch], ⟨w, hw, by rw [not_not.mp hcomma]; rfl⟩, rfl⟩

theorem parseDelimiter_last (hclose : isSpace close = false) {t : ByteString}
    (h : DelimiterText close t false) (rest : ByteString) :
    (parseDelimiter close place).run (t ++ rest) = .ok (false, rest) := by
  obtain ⟨w, hw, rfl⟩ := h
  rw [List.append_assoc, List.singleton_append, if_neg Bool.false_ne_true, parseDelimiter,
    Scanner.run_bind_of_ok (getNextToken_append hw hclose), if_pos rfl]
  rfl

theorem parseDelimiter_more (hclose : close ≠ comma) {t s : ByteString}
    (h : DelimiterText close t true) (hs : HasToken s) :
    (parseDelimiter close place).run (t ++ s) = .ok (true, s) := by
  obtain ⟨w, hw, rfl⟩ := h
  obtain ⟨ch, hpeek⟩ := peekNextToken_of_hasToken hs
  rw [List.append_assoc, List.singleton_append, parseDelimiter, if_pos rfl,
    Scanner.run_bind_of_ok (getNextToken_append hw (by decide)), if_neg hclose.symm,
    if_neg (not_not.mpr rfl)]
  exact Scanner.run_bind_of_ok hpeek

theorem parseDelimiter_ne_outOfFuel (s : ByteString) :
    (parseDelimiter close place).run s ≠ .error .outOfFuel := by
  intro h
  rcases Scanner.run_bind_eq_error.mp h with h | ⟨ch, s', -, h⟩
  · cases getNextToken_eq_error h
  · split_ifs at h
    · cases h
    · cases h
    · rcases Scanner.run_bind_eq_error.mp h with h | ⟨_, _, -, h⟩
      · cases peekNextToken_eq_error h
      · cases h

end

/-! ## Items

The loops of arrays and objects.
-/

section

variable {α β : Type} {P : ByteString → α → Prop} {item : Parser α} {close : UInt8}
  {place : String} {put : β → α → β}

/-- **Brackets are read as a list**, and braces too: each item, put to the others. -/
theorem parseItems_exact (close : UInt8) (place : String) (put : β → α → β)
    (hitem : item.Exact Ends P)
    (hfirst : ∀ {t a}, P t a → ∃ ch, FirstToken t ch ∧ ch ≠ close) (hspace : isSpace close = false)
    (hends : EndsNumber close) (hcomma : close ≠ comma) (data : β) :
    (parseItems close place item put data).Exact (fun _ => True)
      (fun t b => ∃ as, ItemsText P close t as ∧ as.foldl put data = b) where
  sound {s b rest} h := by
    obtain ⟨ch, s', hpeek, h⟩ := Scanner.run_bind_eq_ok.mp h
    obtain rfl := peekNextToken_eq_ok hpeek
    split_ifs at h with hch
    · obtain ⟨ch', s', hget, h⟩ := Scanner.run_bind_eq_ok.mp h
      obtain ⟨rfl, rfl⟩ := Scanner.run_pure_eq_ok.mp h
      obtain ⟨t, ⟨w, hw, -, rfl⟩, rfl⟩ := getNextToken_exact.sound hget
      refine ⟨w ++ [ch'], ⟨[], ?_, rfl⟩, rfl⟩
      -- the token is the one that was seen
      have hsame : ch' = close := by
        have hpeek' : peekNextToken.run (w ++ [ch'] ++ s') = .ok (ch', w ++ [ch'] ++ s') := by
          rw [peekNextToken, Scanner.run_bind_of_ok (Scanner.run_get _),
            Scanner.run_bind_of_ok hget]
          rfl
        rw [hpeek'] at hpeek
        cases hpeek
        exact hch
      rw [hsame]
      exact .empty hw
    · rw [Scanner.run_bind_of_ok (Scanner.run_get _)] at h
      obtain ⟨t, as, hsep, has, hs⟩ :=
        Scanner.loop_sound hitem.sound (fun h => parseDelimiter_sound h) h
      exact ⟨t, ⟨as, .items hsep, has⟩, hs⟩
  complete {t b rest} h _ := by
    obtain ⟨as, hitems, rfl⟩ := h
    cases hitems with
    | @empty w hw =>
      rw [List.append_assoc, List.singleton_append, parseItems,
        Scanner.run_bind_of_ok (peekNextToken_append hw hspace), if_pos rfl,
        Scanner.run_bind_of_ok (getNextToken_append hw hspace)]
      rfl
    | items hsep =>
      obtain ⟨ch, hfirstToken, hne⟩ : ∃ ch, FirstToken t ch ∧ ch ≠ close := by
        cases hsep with
        | last ht _ =>
          obtain ⟨ch, ⟨w, s, hw, hch, rfl⟩, hne⟩ := hfirst ht
          exact ⟨ch, ⟨w, _, hw, hch, by rw [List.append_assoc]; rfl⟩, hne⟩
        | cons ht _ _ =>
          obtain ⟨ch, ⟨w, s, hw, hch, rfl⟩, hne⟩ := hfirst ht
          exact ⟨ch, ⟨w, _, hw, hch, by simp only [List.append_assoc]; rfl⟩, hne⟩
      have hne_nil {t a} (ht : P t a) : t ≠ [] := by
        obtain ⟨ch, hch, -⟩ := hfirst ht
        exact hch.ne_nil
      have hfuel : as.length ≤ (t ++ rest).length + 1 := by
        have := hsep.length_le hne_nil
        rw [List.length_append]
        omega
      rw [parseItems, Scanner.run_bind_of_ok (hfirstToken.peek rest), if_neg hne,
        Scanner.run_bind_of_ok (Scanner.run_get _)]
      refine Scanner.loop_complete ?_ ?_ ?_ hsep hfuel data rest
      · intro t a u b ht hu rest
        exact hitem.complete ht (hu.ends hends rest)
      · intro u hu rest
        exact parseDelimiter_last hspace hu rest
      · intro u t a hu ht rest
        obtain ⟨ch, hch, -⟩ := hfirst ht
        exact parseDelimiter_more hcomma hu (hch.hasToken_append rest)

theorem ItemsText.imp {P' : ByteString → α → Prop} (hP : ∀ {t a}, P t a → P' t a)
    {t : ByteString} {as : List α} (h : ItemsText P close t as) : ItemsText P' close t as := by
  cases h with
  | empty hw => exact .empty hw
  | items hsep => exact .items (hsep.imp hP)

theorem ItemsText.exists_of_mem {t : ByteString} {as : List α} (h : ItemsText P close t as) {a : α}
    (ha : a ∈ as) : ∃ u, P u a := by
  cases h with
  | empty _ => exact absurd ha List.not_mem_nil
  | items hsep => exact hsep.exists_of_mem ha

theorem parseItems_ne_outOfFuel (hitem : ∀ s, item.run s ≠ .error .outOfFuel)
    (hitemLt : ∀ {s a rest}, item.run s = .ok (a, rest) → rest.length < s.length) (data : β)
    (s : ByteString) : (parseItems close place item put data).run s ≠ .error .outOfFuel := by
  intro h
  rcases Scanner.run_bind_eq_error.mp h with h | ⟨ch, s', -, h⟩
  · cases peekNextToken_eq_error h
  split_ifs at h
  · rcases Scanner.run_bind_eq_error.mp h with h | ⟨_, _, -, h⟩
    · cases getNextToken_eq_error h
    · cases h
  · rw [Scanner.run_bind_of_ok (Scanner.run_get _)] at h
    refine Scanner.loop_ne_outOfFuel hitem parseDelimiter_ne_outOfFuel hitemLt ?_
      (Nat.lt_succ_self _) data h
    intro s b rest h
    obtain ⟨t, -, rfl⟩ := parseDelimiter_sound h
    rw [List.length_append]
    exact Nat.le_add_left _ _

end

/-! ## Values

The parser of one level, from the parser of the level below.
-/

section

variable {δ : Type} {D : Doubles δ} {P : ByteString → Json δ → Prop} {value : Parser (Json δ)}

theorem parseEntry_exact (hvalue : value.Exact Ends P) :
    (parseEntry value).Exact Ends (EntryText P) where
  sound {s kv rest} h := by
    obtain ⟨ch, s₁, hget, hkv⟩ := Scanner.run_bind_eq_ok.mp h
    obtain ⟨_, ⟨w, hw, -, rfl⟩, rfl⟩ := getNextToken_exact.sound hget
    split_ifs at hkv with hquote
    · cases hkv
    obtain ⟨key, s₂, hkey, hcolon⟩ := Scanner.run_bind_eq_ok.mp hkv
    obtain ⟨k, hk, rfl⟩ := parseString_exact.sound hkey
    obtain ⟨ch', s₃, hget', hv⟩ := Scanner.run_bind_eq_ok.mp hcolon
    obtain ⟨_, ⟨w', hw', -, rfl⟩, rfl⟩ := getNextToken_exact.sound hget'
    split_ifs at hv with hne
    · cases hv
    obtain ⟨v, s₄, hv, hpure⟩ := Scanner.run_bind_eq_ok.mp hv
    obtain ⟨t, ht, rfl⟩ := hvalue.sound hv
    obtain ⟨rfl, rfl⟩ := Scanner.run_pure_eq_ok.mp hpure
    refine ⟨_, ⟨w, k, w', t, hw, hk, hw', ht, rfl⟩, ?_⟩
    rw [not_not.mp hquote, not_not.mp hne]
    simp
  complete {t kv rest} h hrest := by
    obtain ⟨w, k, w', v, hw, hk, hw', hv, rfl⟩ := h
    have hsplit : w ++ quote :: (k ++ (w' ++ colon :: v)) ++ rest =
        w ++ quote :: (k ++ (w' ++ colon :: (v ++ rest))) := by simp
    rw [hsplit, parseEntry, Scanner.run_bind_of_ok (getNextToken_append hw (by decide)),
      if_neg (not_not.mpr rfl), Scanner.run_bind_of_ok (parseString_exact.complete hk trivial),
      Scanner.run_bind_of_ok (getNextToken_append hw' (by decide)), if_neg (not_not.mpr rfl),
      Scanner.run_bind_of_ok (hvalue.complete hv hrest)]
    rfl

theorem expect_run (ch : UInt8) (expected : ByteString) (res : Json δ) (s : ByteString) :
    (expect ch expected res).run s =
      if (ch :: s).take expected.length = expected then
        .ok (res, (ch :: s).drop expected.length)
      else .error (.expectedLiteral expected ((ch :: s).take expected.length)) := by
  rw [expect, Scanner.run_bind_of_ok (Scanner.run_get s)]
  dsimp only
  split_ifs <;> rfl

theorem expect_sound {ch : UInt8} {expected : ByteString} {res v : Json δ} {s rest : ByteString}
    (h : (expect ch expected res).run s = .ok (v, rest)) :
    res = v ∧ expected ++ rest = ch :: s := by
  rw [expect_run] at h
  split_ifs at h with htake
  cases h
  exact ⟨rfl, (congrArg (· ++ _) htake.symm).trans (List.take_append_drop _ _)⟩

theorem expect_complete {ch : UInt8} {expected : ByteString} (res : Json δ) {s rest : ByteString}
    (h : expected ++ rest = ch :: s) : (expect ch expected res).run s = .ok (res, rest) := by
  rw [expect_run, ← h, List.take_left, if_pos rfl, List.drop_left]

/-- `push_back`, of each value -/
theorem foldl_push {α : Type} (data vs : List α) :
    vs.foldl (fun data v => data ++ [v]) data = data ++ vs := by
  induction vs generalizing data with
  | nil => exact (List.append_nil data).symm
  | cons v vs ih => rw [List.foldl_cons, ih, List.append_assoc, List.singleton_append]

theorem parseArray_exact (hvalue : value.Exact Ends P)
    (hfirst : ∀ {t v}, P t v → ∃ ch, FirstToken t ch ∧ isValueStart ch) :
    (parseArray value).Exact (fun _ => True)
      (fun t v => ∃ vs, ItemsText P closeBracket t vs ∧ .array vs = v) := by
  have hitems := parseItems_exact closeBracket "list" (fun data v => data ++ [v]) hvalue
    (fun ht => by
      obtain ⟨ch, hch, hstart⟩ := hfirst ht
      exact ⟨ch, hch, hstart.ne_closeBracket⟩) (by decide) (by decide) (by decide) []
  have hfoldl (vs : List (Json δ)) : vs.foldl (fun data v => data ++ [v]) [] = vs := by
    rw [foldl_push, List.nil_append]
  constructor
  · intro s v rest h
    obtain ⟨data, s', hdata, h⟩ := Scanner.run_bind_eq_ok.mp h
    obtain ⟨t, ⟨vs, ht, hvs⟩, hs⟩ := hitems.sound hdata
    obtain ⟨rfl, rfl⟩ := Scanner.run_pure_eq_ok.mp h
    rw [hfoldl] at hvs
    exact ⟨t, ⟨vs, ht, by rw [hvs]⟩, hs⟩
  · rintro t v rest ⟨vs, ht, rfl⟩ -
    rw [parseArray, Scanner.run_bind_of_ok (hitems.complete ⟨vs, ht, hfoldl vs⟩ trivial)]
    rfl

theorem parseObject_exact (hvalue : value.Exact Ends P) :
    (parseObject value).Exact (fun _ => True)
      (fun t v => ∃ kvs, ItemsText (EntryText P) closeBrace t kvs ∧
        .object (ofEntries kvs) = v) := by
  have hitems := parseItems_exact closeBrace "object" insert (parseEntry_exact hvalue)
    (fun ht => ⟨quote, ht.firstToken, by decide⟩) (by decide) (by decide) (by decide) []
  constructor
  · intro s v rest h
    obtain ⟨data, s', hdata, h⟩ := Scanner.run_bind_eq_ok.mp h
    obtain ⟨t, ⟨kvs, ht, hkvs⟩, hs⟩ := hitems.sound hdata
    obtain ⟨rfl, rfl⟩ := Scanner.run_pure_eq_ok.mp h
    exact ⟨t, ⟨kvs, ht, by rw [ofEntries, hkvs]⟩, hs⟩
  · rintro t v rest ⟨kvs, ht, rfl⟩ -
    rw [parseObject, Scanner.run_bind_of_ok (hitems.complete ⟨kvs, ht, rfl⟩ trivial)]
    rfl

theorem text_null : text "null" = 110 :: text "ull" := rfl

theorem text_true : text "true" = 116 :: text "rue" := rfl

theorem text_false : text "false" = 102 :: text "alse" := rfl

/-- One level: what is in a value is read by the level below. -/
theorem parseJson_succ_exact {n : ℕ} (hvalue : (parseJson D n).Exact Ends (Text D n)) :
    (parseJson D (n + 1)).Exact Ends (Text D (n + 1)) where
  sound {s v rest} h := by
    rw [parseJson] at h
    obtain ⟨ch, s', hget, hrun⟩ := Scanner.run_bind_eq_ok.mp h
    obtain ⟨_, ⟨w, hw, -, rfl⟩, rfl⟩ := getNextToken_exact.sound hget
    have hsplit : w ++ [ch] ++ s' = w ++ ch :: s' := by simp
    rw [hsplit]
    split_ifs at hrun with hnumber htrue hfalse hnull hquote hbrace hbracket
    · rw [Scanner.run_bind_of_ok (Scanner.run_modify _ _)] at hrun
      obtain ⟨t, ⟨ht, rfl⟩, hs⟩ := (parseNumber_exact D).sound hrun
      exact ⟨w ++ t, .number hw ht, by rw [List.append_assoc, hs]⟩
    · obtain ⟨rfl, hs⟩ := expect_sound hrun
      exact ⟨w ++ text "true", .true hw, by rw [List.append_assoc, hs]⟩
    · obtain ⟨rfl, hs⟩ := expect_sound hrun
      exact ⟨w ++ text "false", .false hw, by rw [List.append_assoc, hs]⟩
    · obtain ⟨rfl, hs⟩ := expect_sound hrun
      exact ⟨w ++ text "null", .null hw, by rw [List.append_assoc, hs]⟩
    · obtain ⟨str, s₁, hstr, hpure⟩ := Scanner.run_bind_eq_ok.mp hrun
      obtain ⟨t, ht, rfl⟩ := parseString_exact.sound hstr
      obtain ⟨rfl, rfl⟩ := Scanner.run_pure_eq_ok.mp hpure
      exact ⟨w ++ quote :: t, .string hw ht, by rw [hquote, List.append_assoc, List.cons_append]⟩
    · obtain ⟨t, ⟨kvs, ht, rfl⟩, rfl⟩ := (parseObject_exact hvalue).sound hrun
      exact ⟨w ++ openBrace :: t, .object hw ht, by rw [hbrace, List.append_assoc,
        List.cons_append]⟩
    · obtain ⟨t, ⟨vs, ht, rfl⟩, rfl⟩ := (parseArray_exact hvalue Text.firstToken).sound hrun
      exact ⟨w ++ openBracket :: t, .array hw ht, by rw [hbracket, List.append_assoc,
        List.cons_append]⟩
    · cases hrun
  complete {t v rest} h hrest := by
    have hget {w : ByteString} {ch : UInt8} (hw : Whitespace w) (s : ByteString)
        (hch : isSpace ch = false) : getNextToken.run (w ++ (ch :: s) ++ rest) =
          .ok (ch, s ++ rest) := by
      rw [List.append_assoc, List.cons_append]
      exact getNextToken_append hw hch
    rw [parseJson]
    cases h with
    | null hw =>
      rw [text_null, Scanner.run_bind_of_ok (hget hw _ (by decide)), if_neg (by decide),
        if_neg (by decide), if_neg (by decide), if_pos rfl]
      exact expect_complete _ rfl
    | true hw =>
      rw [text_true, Scanner.run_bind_of_ok (hget hw _ (by decide)), if_neg (by decide),
        if_pos rfl]
      exact expect_complete _ rfl
    | false hw =>
      rw [text_false, Scanner.run_bind_of_ok (hget hw _ (by decide)), if_neg (by decide),
        if_neg (by decide), if_pos rfl]
      exact expect_complete _ rfl
    | @number w t hw ht =>
      obtain ⟨ch, s, rfl, hch⟩ := ht.exists_cons
      have hspace : isSpace ch = false := by
        rcases hch with rfl | hd
        · decide
        · exact not_isSpace_of_isDigit hd
      rw [Scanner.run_bind_of_ok (hget hw _ hspace), if_pos hch,
        Scanner.run_bind_of_ok (Scanner.run_modify _ _), ← List.cons_append]
      exact (parseNumber_exact D).complete ⟨ht, rfl⟩ hrest
    | string hw ht =>
      rw [Scanner.run_bind_of_ok (hget hw _ (by decide)), if_neg (by decide), if_neg (by decide),
        if_neg (by decide), if_neg (by decide), if_pos rfl,
        Scanner.run_bind_of_ok (parseString_exact.complete ht trivial)]
      rfl
    | array hw ht =>
      rw [Scanner.run_bind_of_ok (hget hw _ (by decide)), if_neg (by decide), if_neg (by decide),
        if_neg (by decide), if_neg (by decide), if_neg (by decide), if_neg (by decide), if_pos rfl]
      exact (parseArray_exact hvalue Text.firstToken).complete ⟨_, ht, rfl⟩ trivial
    | object hw ht =>
      rw [Scanner.run_bind_of_ok (hget hw _ (by decide)), if_neg (by decide), if_neg (by decide),
        if_neg (by decide), if_neg (by decide), if_neg (by decide), if_pos rfl]
      exact (parseObject_exact hvalue).complete ⟨_, ht, rfl⟩ trivial

theorem parseJson_exact (n : ℕ) : (parseJson D n).Exact Ends (Text D n) := by
  induction n with
  | zero =>
    constructor
    · intro s v rest h
      cases h
    · intro t v rest h _
      exact h.elim
  | succ n ih => exact parseJson_succ_exact ih

/-! ## What is accepted

Induction on the number of levels.
-/

theorem ValueText.imp {P' : ByteString → Json δ → Prop} (hP : ∀ {t v}, P t v → P' t v)
    {t : ByteString} {v : Json δ} (h : ValueText D P t v) : ValueText D P' t v := by
  cases h with
  | null hw => exact .null hw
  | true hw => exact .true hw
  | false hw => exact .false hw
  | number hw ht => exact .number hw ht
  | string hw ht => exact .string hw ht
  | array hw ht => exact .array hw (ht.imp hP)
  | object hw ht =>
    refine .object hw (ht.imp ?_)
    rintro t kv ⟨w, k, w', v, hw, hk, hw', hv, rfl⟩
    exact ⟨w, k, w', v, hw, hk, hw', hP hv, rfl⟩

/-- Where more levels are permitted, nothing is lost. -/
theorem Text.mono {n m : ℕ} (hle : n ≤ m) {t : ByteString} {v : Json δ} (h : Text D n t v) :
    Text D m t v := by
  induction n generalizing m t v with
  | zero => exact h.elim
  | succ n ih =>
    obtain ⟨m, rfl⟩ := Nat.exists_eq_add_of_le' (Nat.one_le_of_lt hle)
    exact ValueText.imp (fun h => ih (Nat.le_of_succ_le_succ hle) h) h

theorem Whitespace.append {w w' : ByteString} (hw : Whitespace w) (hw' : Whitespace w') :
    Whitespace (w ++ w') := by
  intro ch hch
  exact (List.mem_append.mp hch).elim (hw ch) (hw' ch)

/-- White space may come before a value. -/
theorem Text.whitespace {n : ℕ} {w t : ByteString} {v : Json δ} (hw : Whitespace w)
    (h : Text D n t v) : Text D n (w ++ t) v := by
  cases n with
  | zero => exact h.elim
  | succ n =>
    have happend {w' s : ByteString} : w ++ (w' ++ s) = w ++ w' ++ s :=
      (List.append_assoc w w' s).symm
    change ValueText D (Text D n) (w ++ t) v
    cases h with
    | null hw' => rw [happend]; exact .null (hw.append hw')
    | true hw' => rw [happend]; exact .true (hw.append hw')
    | false hw' => rw [happend]; exact .false (hw.append hw')
    | number hw' ht => rw [happend]; exact .number (hw.append hw') ht
    | string hw' ht => rw [happend]; exact .string (hw.append hw') ht
    | array hw' ht => rw [happend]; exact .array (hw.append hw') ht
    | object hw' ht => rw [happend]; exact .object (hw.append hw') ht

theorem foldl_digits_lt {ds : ByteString} (hds : Digits ds) (n : ℕ) :
    ds.foldl (fun n ch => 10 * n + (ch.toNat - 48)) n < (n + 1) * 10 ^ ds.length := by
  induction ds generalizing n with
  | nil => simp
  | cons d ds ih =>
    have hd := hds d List.mem_cons_self
    simp only [isDigit, Bool.and_eq_true, decide_eq_true_eq, UInt8.le_iff_toNat_le] at hd
    have hd' : d.toNat - 48 + 1 ≤ 10 := by
      have : d.toNat ≤ 57 := hd.2
      omega
    have hle : (10 * n + (d.toNat - 48) + 1) * 10 ^ ds.length ≤ (n + 1) * 10 * 10 ^ ds.length :=
      Nat.mul_le_mul_right _ (by omega)
    calc ds.foldl _ (10 * n + (d.toNat - 48))
        < (10 * n + (d.toNat - 48) + 1) * 10 ^ ds.length :=
          ih (fun ch hch => hds ch (List.mem_cons_of_mem d hch)) _
      _ ≤ (n + 1) * 10 * 10 ^ ds.length := hle
      _ = (n + 1) * 10 ^ (ds.length + 1) := by rw [pow_succ']; ring

theorem digitsValue_lt (s : ByteString) : digitsValue s < 10 ^ s.length := by
  have hlt := foldl_digits_lt (digits_takeWhile s) 0
  rw [Nat.zero_add, Nat.one_mul] at hlt
  exact hlt.trans_le (Nat.pow_le_pow_right (by decide) (List.takeWhile_prefix isDigit).length_le)

theorem natAbs_atoi_lt (t : ByteString) : (atoi t).natAbs < 10 ^ t.length := by
  cases t with
  | nil => decide
  | cons ch s =>
    rw [atoi]
    split_ifs
    · rw [Int.natAbs_neg, Int.natAbs_natCast]
      exact (digitsValue_lt s).trans (Nat.pow_lt_pow_right (by decide) (Nat.lt_succ_self _))
    · rw [Int.natAbs_natCast]
      exact digitsValue_lt (ch :: s)

theorem wf_numberValue (D : Doubles δ) (t : ByteString) : Wf (numberValue D t) := by
  rw [numberValue]
  split_ifs with hint
  · have hlen : t.length ≤ digits10 := of_decide_eq_true (Bool.and_eq_true_iff.mp hint).2
    have hlt := (natAbs_atoi_lt t).trans_le (Nat.pow_le_pow_right (by decide) hlen)
    change _ < 10 ^ 9 at hlt
    exact .int (by omega) (by omega)
  · exact .double _

theorem nesting_numberValue (D : Doubles δ) (t : ByteString) : nesting (numberValue D t) = 0 := by
  rw [numberValue]
  split_ifs <;> rfl

/-! ### Values that are read

They are well formed: integers have 32 bits, since longer ones are read as `double`s, and maps are
in order, since they are built by insertion.
-/

/-- **A text has a value that can be built**, and that is not nested more deeply than permitted. -/
theorem Text.wf {n : ℕ} {t : ByteString} {v : Json δ} (h : Text D n t v) :
    Wf v ∧ nesting v < n := by
  induction n generalizing t v with
  | zero => exact h.elim
  | succ n ih =>
    rw [Nat.lt_succ_iff]
    cases h with
    | null _ => exact ⟨.null, Nat.zero_le _⟩
    | true _ => exact ⟨.bool _, Nat.zero_le _⟩
    | false _ => exact ⟨.bool _, Nat.zero_le _⟩
    | @number w t _ _ =>
      rw [nesting_numberValue]
      exact ⟨wf_numberValue D t, Nat.zero_le _⟩
    | string _ _ => exact ⟨.string _, Nat.zero_le _⟩
    | @array w t vs _ ht =>
      have hvs : ∀ v ∈ vs, Wf v ∧ nesting v < n := fun v hv => by
        obtain ⟨u, hu⟩ := ht.exists_of_mem hv
        exact ih hu
      exact ⟨.array fun v hv => (hvs v hv).1, nesting_array_le.mpr fun v hv => (hvs v hv).2⟩
    | @object w t kvs _ ht =>
      have hkvs : ∀ kv ∈ ofEntries kvs, Wf kv.2 ∧ nesting kv.2 < n := fun kv hkv => by
        obtain ⟨_, _, _, _, _, _, _, _, hv, _⟩ := ht.exists_of_mem (mem_ofEntries hkv)
        exact ih hv
      exact ⟨.object (fun kv hkv => (hkvs kv hkv).1) (sorted_ofEntries kvs),
        nesting_object_le.mpr fun kv hkv => (hkvs kv hkv).2⟩

section

variable {s rest : ByteString} {v : Json δ} {e : ParseError}

/-! ### The whole text

`parse` reads a value and white space, and nothing may follow.
-/

theorem parse_of_error (h : (parseJson D (maxDepth + 1)).run s = .error e) :
    parse D s = .error e := by
  rw [parse, h]
  rfl

theorem parse_of_whitespace (h : (parseJson D (maxDepth + 1)).run s = .ok (v, rest))
    (hrest : Whitespace rest) : parse D s = .ok v := by
  rw [parse, h]
  simp only [bind, Except.bind, List.dropWhile_eq_nil_iff.mpr hrest]
  rfl

theorem parse_of_trailing (h : (parseJson D (maxDepth + 1)).run s = .ok (v, rest)) {ch : UInt8}
    {s' : ByteString} (hrest : rest.dropWhile isSpace = ch :: s') :
    parse D s = .error (.unexpectedTrailing ch) := by
  rw [parse, h]
  simp only [bind, Except.bind, hrest]
  rfl

end

/-- **`Json::parse` accepts the texts of the grammar**, with white space after them. -/
theorem parse_eq_ok_iff {s : ByteString} {v : Json δ} :
    parse D s = .ok v ↔ ∃ t w, Text D (maxDepth + 1) t v ∧ Whitespace w ∧ t ++ w = s := by
  constructor
  · intro hok
    rcases h : (parseJson D (maxDepth + 1)).run s with e | ⟨v', rest⟩
    · rw [parse_of_error h] at hok
      cases hok
    rcases hrest : rest.dropWhile isSpace with _ | ⟨ch, s'⟩
    · have hw : Whitespace rest := List.dropWhile_eq_nil_iff.mp hrest
      rw [parse_of_whitespace h hw] at hok
      obtain rfl := Except.ok.inj hok
      obtain ⟨t, ht, hs⟩ := (parseJson_exact _).sound h
      exact ⟨t, rest, ht, hw, hs⟩
    · rw [parse_of_trailing h hrest] at hok
      cases hok
  · rintro ⟨t, w, ht, hw, rfl⟩
    exact parse_of_whitespace ((parseJson_exact _).complete ht hw.ends) hw

/-! ## Fuel

There are at most as many items as characters.
-/

theorem Text.ne_nil {n : ℕ} {t : ByteString} {v : Json δ} (h : Text D n t v) : t ≠ [] := by
  obtain ⟨ch, hch, -⟩ := h.firstToken
  exact hch.ne_nil

theorem parseNumber_ne_outOfFuel (s : ByteString) : (parseNumber D).run s ≠ .error .outOfFuel := by
  have hdigits {e : ParseError} (he : e ≠ .outOfFuel) (s : ByteString) :
      (parseDigits e).run s ≠ .error .outOfFuel := by
    rw [parseDigits, Scanner.run_bind_of_ok (current_run s)]
    split_ifs
    · rw [skipDigits_run]
      rintro ⟨⟩
    · rw [Scanner.run_throw]
      rintro ⟨⟩
      exact he rfl
  have hint (s : ByteString) : parseInteger.run s ≠ .error .outOfFuel := by
    rw [parseInteger, Scanner.run_bind_of_ok (current_run s)]
    split_ifs
    · rw [Scanner.run_bind_of_ok (advance_run s), Scanner.run_bind_of_ok (current_run _)]
      split_ifs <;> rintro ⟨⟩
    · rw [Scanner.run_bind_of_ok (advance_run s), skipDigits_run]
      rintro ⟨⟩
    · rintro ⟨⟩
  have hfrac (s : ByteString) : parseFraction.run s ≠ .error .outOfFuel := by
    rw [parseFraction, Scanner.run_bind_of_ok (current_run s)]
    split_ifs
    · rw [Scanner.run_bind_of_ok (advance_run s)]
      exact hdigits (by decide) _
    · rintro ⟨⟩
  have hexp (s : ByteString) : parseExponent.run s ≠ .error .outOfFuel := by
    rw [parseExponent, Scanner.run_bind_of_ok (current_run s)]
    split_ifs
    · rw [Scanner.run_bind_of_ok (advance_run s), Scanner.run_bind_of_ok (current_run _)]
      split_ifs
      · rw [Scanner.run_bind_of_ok (advance_run _)]
        exact hdigits (by decide) _
      · exact hdigits (by decide) _
    · rintro ⟨⟩
  intro h
  rw [parseNumber, Scanner.run_bind_of_ok (Scanner.run_get s),
    Scanner.run_bind_of_ok (parseSign_run s)] at h
  rcases Scanner.run_bind_eq_error.mp h with h | ⟨_, s₁, -, h⟩
  · exact hint _ h
  rw [Scanner.run_bind_of_ok (current_run s₁), Scanner.run_bind_of_ok (Scanner.run_get s₁)] at h
  split_ifs at h
  · cases h
  · rcases Scanner.run_bind_eq_error.mp h with h | ⟨_, s₂, -, h⟩
    · exact hfrac _ h
    rcases Scanner.run_bind_eq_error.mp h with h | ⟨_, s₃, -, h⟩
    · exact hexp _ h
    · cases h

theorem parseEntry_ne_outOfFuel (hvalue : ∀ s, value.run s ≠ .error .outOfFuel) (s : ByteString) :
    (parseEntry value).run s ≠ .error .outOfFuel := by
  intro h
  rcases Scanner.run_bind_eq_error.mp h with h | ⟨ch, s₁, -, h⟩
  · cases getNextToken_eq_error h
  split_ifs at h
  · cases h
  rcases Scanner.run_bind_eq_error.mp h with h | ⟨key, s₂, -, h⟩
  · exact parseChars_ne_outOfFuel _ _ _ h
  rcases Scanner.run_bind_eq_error.mp h with h | ⟨ch, s₃, -, h⟩
  · cases getNextToken_eq_error h
  split_ifs at h
  · cases h
  rcases Scanner.run_bind_eq_error.mp h with h | ⟨v, s₄, -, h⟩
  · exact hvalue _ h
  · cases h

theorem expect_ne_outOfFuel (ch : UInt8) (expected : ByteString) (res : Json δ) (s : ByteString) :
    (expect ch expected res).run s ≠ .error .outOfFuel := by
  rw [expect_run]
  split_ifs <;> rintro ⟨⟩

/-- Every level has fuel enough for its loops. -/
theorem parseJson_ne_outOfFuel (n : ℕ) (s : ByteString) :
    (parseJson D n).run s ≠ .error .outOfFuel := by
  induction n generalizing s with
  | zero => rintro ⟨⟩
  | succ n ih =>
    have hexact := parseJson_exact (D := D) n
    intro h
    rw [parseJson] at h
    rcases Scanner.run_bind_eq_error.mp h with h | ⟨ch, s', -, h⟩
    · cases getNextToken_eq_error h
    split_ifs at h
    · rw [Scanner.run_bind_of_ok (Scanner.run_modify _ _)] at h
      exact parseNumber_ne_outOfFuel _ h
    · exact expect_ne_outOfFuel _ _ _ _ h
    · exact expect_ne_outOfFuel _ _ _ _ h
    · exact expect_ne_outOfFuel _ _ _ _ h
    · rcases Scanner.run_bind_eq_error.mp h with h | ⟨_, _, -, h⟩
      · exact parseChars_ne_outOfFuel _ _ _ h
      · cases h
    · rcases Scanner.run_bind_eq_error.mp h with h | ⟨_, _, -, h⟩
      · refine parseItems_ne_outOfFuel (parseEntry_ne_outOfFuel ih) ?_ [] _ h
        exact (parseEntry_exact hexact).length_lt fun ht => ht.firstToken.ne_nil
      · cases h
    · rcases Scanner.run_bind_eq_error.mp h with h | ⟨_, _, -, h⟩
      · exact parseItems_ne_outOfFuel ih (hexact.length_lt Text.ne_nil) [] _ h
      · cases h
    · cases h

/-- **What `Json::parse` does with any text**: it accepts those of the grammar, with white space
after them, and with their value. That can be built, and has no more levels than permitted. A
failure is never for want of fuel, and it leaves a message in `err`. -/
theorem parse_correct (D : Doubles δ) (s : ByteString) :
    (∀ v, parse D s = .ok v ↔
      ∃ t w, Text D (maxDepth + 1) t v ∧ Whitespace w ∧ t ++ w = s) ∧
    (∀ v, parse D s = .ok v → Wf v ∧ nesting v ≤ maxDepth) ∧
    ∀ e, parse D s = .error e → e ≠ .outOfFuel ∧ e.message ≠ [] := by
  refine ⟨fun v => parse_eq_ok_iff, ?_, ?_⟩
  · intro v h
    obtain ⟨t, w, ht, -, -⟩ := parse_eq_ok_iff.mp h
    exact ⟨ht.wf.1, Nat.le_of_lt_succ ht.wf.2⟩
  · rintro e h
    refine ⟨?_, e.message_ne_nil⟩
    rintro rfl
    rcases hrun : (parseJson D (maxDepth + 1)).run s with e | ⟨v, rest⟩
    · rw [parse_of_error hrun] at h
      obtain rfl := Except.error.inj h
      exact parseJson_ne_outOfFuel _ _ hrun
    rcases hrest : rest.dropWhile isSpace with _ | ⟨ch, s'⟩
    · rw [parse_of_whitespace hrun (List.dropWhile_eq_nil_iff.mp hrest)] at h
      cases h
    · rw [parse_of_trailing hrun hrest] at h
      cases h

end

end Json11

end GameSdk
