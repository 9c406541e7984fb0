import GameSdk.JsonParser
import Mathlib.Data.List.TakeWhile

/-!
# What the JSON parser takes for white space, strings and numbers

The texts are described without the parser: a string is a sequence of code units, each one with
its text, and a number is a sign, an integer, a fraction and an exponent. The scanners are exact
for these.

Only the end of a number is not in its text. A number is taken as a whole if no character follows
that could continue it.

Each description is an inductive predicate on the bytes, and each scanner has one lemma that says
when it succeeds, with what, and what it leaves.
-/

namespace GameSdk

namespace Json11

/-! ## White space and tokens

Skipping white space and getting the next character.
-/

/-- Bytes that are skipped. -/
def Whitespace (w : ByteString) : Prop := ∀ ch ∈ w, isSpace ch = true

theorem Whitespace.nil : Whitespace [] := by simp [Whitespace]

theorem whitespace_space : Whitespace [space] := by simp [Whitespace, isSpace]

/-- There is a token in it. -/
def HasToken (s : ByteString) : Prop := s.dropWhile isSpace ≠ []

theorem hasToken_append {w s : ByteString} (hw : Whitespace w) (h : HasToken s) :
    HasToken (w ++ s) := by
  rwa [HasToken, List.dropWhile_append_of_pos hw]

theorem hasToken_cons {ch : UInt8} {s : ByteString} (h : isSpace ch = false) :
    HasToken (ch :: s) := by
  simp [HasToken, h]

theorem getNextToken_run (s : ByteString) :
    getNextToken.run s =
      match s.dropWhile isSpace with
      | [] => .error .unexpectedEnd
      | ch :: s' => .ok (ch, s') := by
  rw [getNextToken, consumeWhitespace, Scanner.run_bind_of_ok (Scanner.run_modify _ s),
    Scanner.run_bind_of_ok (Scanner.run_get _)]
  rcases s.dropWhile isSpace with _ | ⟨ch, s'⟩ <;> rfl

theorem getNextToken_of_dropWhile {s s' : ByteString} {ch : UInt8}
    (h : s.dropWhile isSpace = ch :: s') : getNextToken.run s = .ok (ch, s') := by
  rw [getNextToken_run, h]

theorem getNextToken_of_nil {s : ByteString} (h : s.dropWhile isSpace = []) :
    getNextToken.run s = .error .unexpectedEnd := by
  rw [getNextToken_run, h]

/-- White space, and a character. -/
def TokenText (t : ByteString) (ch : UInt8) : Prop :=
  ∃ w, Whitespace w ∧ isSpace ch = false ∧ w ++ [ch] = t

theorem getNextToken_exact : getNextToken.Exact (fun _ => True) TokenText where
  sound {s ch rest} h := by
    rcases hs : s.dropWhile isSpace with _ | ⟨ch', s'⟩
    · rw [getNextToken_of_nil hs] at h
      cases h
    · rw [getNextToken_of_dropWhile hs] at h
      obtain ⟨rfl, rfl⟩ := Prod.mk.inj (Except.ok.inj h)
      refine ⟨s.takeWhile isSpace ++ [ch'], ⟨_, fun c hc => List.mem_takeWhile_imp hc, ?_, rfl⟩, ?_⟩
      · have hhead := List.head?_dropWhile_not isSpace s
        rwa [hs] at hhead
      · rw [List.append_assoc, List.singleton_append, ← hs, List.takeWhile_append_dropWhile]
  complete {t ch rest} h _ := by
    obtain ⟨w, hw, hch, rfl⟩ := h
    apply getNextToken_of_dropWhile
    rw [List.append_assoc, List.dropWhile_append_of_pos hw]
    simp [hch]

theorem getNextToken_append {w s : ByteString} {ch : UInt8} (hw : Whitespace w)
    (hch : isSpace ch = false) : getNextToken.run (w ++ ch :: s) = .ok (ch, s) := by
  apply getNextToken_of_dropWhile
  rw [List.dropWhile_append_of_pos hw]
  simp [hch]

theorem getNextToken_eq_error {s : ByteString} {e : ParseError}
    (h : getNextToken.run s = .error e) : e = .unexpectedEnd := by
  rcases hs : s.dropWhile isSpace with _ | ⟨ch', s'⟩
  · rw [getNextToken_of_nil hs] at h
    exact (Except.error.inj h).symm
  · rw [getNextToken_of_dropWhile hs] at h
    cases h

theorem peekNextToken_eq_ok {s rest : ByteString} {ch : UInt8}
    (h : peekNextToken.run s = .ok (ch, rest)) : s = rest := by
  obtain ⟨s', _, hget, h⟩ := Scanner.run_bind_eq_ok.mp h
  cases hget
  obtain ⟨ch', s'', _, h⟩ := Scanner.run_bind_eq_ok.mp h
  exact congrArg Prod.snd (Except.ok.inj h)

theorem peekNextToken_append {w s : ByteString} {ch : UInt8} (hw : Whitespace w)
    (hch : isSpace ch = false) :
    peekNextToken.run (w ++ ch :: s) = .ok (ch, w ++ ch :: s) := by
  rw [peekNextToken, Scanner.run_bind_of_ok (Scanner.run_get _),
    Scanner.run_bind_of_ok (getNextToken_append hw hch)]
  rfl

theorem peekNextToken_of_hasToken {s : ByteString} (h : HasToken s) :
    ∃ ch, peekNextToken.run s = .ok (ch, s) := by
  rcases hs : s.dropWhile isSpace with _ | ⟨ch, s'⟩
  · exact absurd hs h
  · refine ⟨ch, ?_⟩
    rw [peekNextToken, Scanner.run_bind_of_ok (Scanner.run_get _),
      Scanner.run_bind_of_ok (getNextToken_of_dropWhile hs)]
    rfl

theorem peekNextToken_eq_error {s : ByteString} {e : ParseError}
    (h : peekNextToken.run s = .error e) : e = .unexpectedEnd := by
  rcases Scanner.run_bind_eq_error.mp h with h | ⟨_, _, _, h⟩
  · cases h
  rcases Scanner.run_bind_eq_error.mp h with h | ⟨_, _, _, h⟩
  · exact getNextToken_eq_error h
  · cases h

/-! ## Strings

A code unit is a byte of the string, or an escape. The code point that the scanner keeps back is
where the units are joined.
-/

/-! ### Code units

A string is read unit by unit, and the value is known only at the end: a surrogate may join the next
one.
-/

/-- What is written in a string: a byte, or the number of a character, which may be one half of a
pair of surrogates. -/
inductive CodeUnit where
  | byte (ch : UInt8)
  | code (pt : ℕ)

/-- The ways to write one. -/
inductive CodeUnitText : ByteString → CodeUnit → Prop
  | plain {ch : UInt8} : ch ≠ quote → ¬ ch ≤ 0x1f → ch ≠ backslash → CodeUnitText [ch] (.byte ch)
  | letter {l ch : UInt8} : unescape l = some ch → CodeUnitText [backslash, l] (.byte ch)
  | unicode {a b c d : UInt8} {pt : ℕ} : strtol16 a b c d = some pt →
      CodeUnitText [backslash, 117, a, b, c, d] (.code pt)

/-- The text of a sequence of code units. -/
inductive CharsText : ByteString → List CodeUnit → Prop
  | nil : CharsText [] []
  | cons {t u ts us} : CodeUnitText t u → CharsText ts us → CharsText (t ++ ts) (u :: us)

/-- The bytes of a string. Two surrogates that belong together are one character. -/
def decode : List CodeUnit → ByteString
  | [] => []
  | .byte ch :: us => ch :: decode us
  | .code lead :: .code trail :: us =>
    if isLeadSurrogate lead ∧ isTrailSurrogate trail then
      encodeUtf8 (some (combine lead trail)) ++ decode us
    else encodeUtf8 (some lead) ++ decode (.code trail :: us)
  | .code pt :: us => encodeUtf8 (some pt) ++ decode us

/-- The character that may still become the first half of a pair. -/
def pending (last : Option ℕ) : List CodeUnit := last.toList.map .code

theorem decode_pending (last : Option ℕ) : decode (pending last) = encodeUtf8 last := by
  cases last with
  | none => rfl
  | some pt => simp [pending, decode]

theorem decode_pending_byte (last : Option ℕ) (ch : UInt8) (us : List CodeUnit) :
    decode (pending last ++ .byte ch :: us) = encodeUtf8 last ++ ch :: decode us := by
  cases last with
  | none => rfl
  | some pt => simp [pending, decode]

theorem unescape_117 : unescape 117 = none := by decide

section

variable (out : ByteString) (last : Option ℕ) (s : ByteString)

/-! ### The scanner of strings

One equation for each kind of character, and with these the scanner is complete and sound for the
texts.
-/

theorem parseChars_quote :
    parseChars out last (quote :: s) = .ok (out ++ encodeUtf8 last, s) := by
  rw [parseChars.eq_def]
  rfl

theorem parseChars_plain {ch : UInt8} (hquote : ch ≠ quote) (hcontrol : ¬ ch ≤ 0x1f)
    (hbackslash : ch ≠ backslash) :
    parseChars out last (ch :: s) = parseChars (out ++ encodeUtf8 last ++ [ch]) none s := by
  rw [parseChars.eq_def]
  simp only [if_neg hquote, if_neg hcontrol, if_pos hbackslash]

theorem parseChars_letter {l ch : UInt8} (h : unescape l = some ch) :
    parseChars out last (backslash :: l :: s) =
      parseChars (out ++ encodeUtf8 last ++ [ch]) none s := by
  have hne : l ≠ 117 := by
    rintro rfl
    rw [unescape_117] at h
    cases h
  rw [parseChars.eq_def]
  simp only [if_neg hne, h]
  rfl

theorem parseChars_unicode {a b c d : UInt8} {pt : ℕ} (h : strtol16 a b c d = some pt) :
    parseChars out last (backslash :: 117 :: a :: b :: c :: d :: s) =
      match last with
      | some lead =>
        if isLeadSurrogate lead ∧ isTrailSurrogate pt then
          parseChars (out ++ encodeUtf8 (some (combine lead pt))) none s
        else parseChars (out ++ encodeUtf8 (some lead)) (some pt) s
      | none => parseChars out (some pt) s := by
  rw [parseChars.eq_def]
  simp only [if_true, h]
  rfl

end

/-- **Every text of a string is read**, with what has been read before. -/
theorem parseChars_complete {body : ByteString} {us : List CodeUnit} (h : CharsText body us)
    (out : ByteString) (last : Option ℕ) (rest : ByteString) :
    parseChars out last (body ++ quote :: rest) =
      .ok (out ++ decode (pending last ++ us), rest) := by
  induction h generalizing out last with
  | nil => rw [List.nil_append, parseChars_quote, List.append_nil, decode_pending]
  | @cons t u ts us ht _ ih =>
    cases ht with
    | plain hquote hcontrol hbackslash =>
      rw [List.append_assoc, List.singleton_append,
        parseChars_plain _ _ _ hquote hcontrol hbackslash, ih, decode_pending_byte]
      simp [pending]
    | @letter l ch hl =>
      simp only [List.cons_append, List.nil_append]
      rw [parseChars_letter _ _ _ hl, ih, decode_pending_byte]
      simp [pending]
    | @unicode a b c d pt hpt =>
      simp only [List.cons_append, List.nil_append]
      rw [parseChars_unicode _ _ _ hpt]
      cases last with
      | none => exact ih out (some pt)
      | some lead =>
        simp only [ih]
        by_cases hpair : isLeadSurrogate lead = true ∧ isTrailSurrogate pt = true
        · rw [if_pos hpair]
          simp [pending, decode, hpair.1, hpair.2]
        · rw [if_neg hpair]
          simp [pending, decode, hpair]

/-- **Nothing else is read.** -/
theorem parseChars_sound {out : ByteString} {last : Option ℕ} {s str rest : ByteString}
    (h : parseChars out last s = .ok (str, rest)) :
    ∃ body us, CharsText body us ∧ out ++ decode (pending last ++ us) = str ∧
      body ++ quote :: rest = s := by
  fun_induction parseChars out last s with
  | case1 => cases h
  | case2 out last s =>
    cases h
    exact ⟨[], [], .nil, by rw [List.append_nil, decode_pending], rfl⟩
  | case3 => cases h
  | case4 out last ch s hquote hcontrol hbackslash ih =>
    obtain ⟨body, us, hbody, rfl, rfl⟩ := ih h
    refine ⟨ch :: body, .byte ch :: us, .cons (.plain hquote hcontrol hbackslash) hbody, ?_, rfl⟩
    rw [decode_pending_byte]
    simp [pending]
  | case5 => cases h
  | case6 => cases h
  | case7 out ch hquote hcontrol hbackslash a b c d s' codepoint hpt lead hpair ih =>
    obtain ⟨body, us, hbody, rfl, rfl⟩ := ih h
    obtain rfl := not_not.mp hbackslash
    refine ⟨_, .code codepoint :: us, .cons (.unicode hpt) hbody, ?_, rfl⟩
    simp [pending, decode, hpair.1, hpair.2]
  | case8 out ch hquote hcontrol hbackslash a b c d s' codepoint hpt lead hpair ih =>
    obtain ⟨body, us, hbody, rfl, rfl⟩ := ih h
    obtain rfl := not_not.mp hbackslash
    refine ⟨_, .code codepoint :: us, .cons (.unicode hpt) hbody, ?_, rfl⟩
    simp [pending, decode, hpair]
  | case9 out ch hquote hcontrol hbackslash a b c d s' codepoint hpt ih =>
    obtain ⟨body, us, hbody, rfl, rfl⟩ := ih h
    obtain rfl := not_not.mp hbackslash
    exact ⟨_, .code codepoint :: us, .cons (.unicode hpt) hbody, rfl, rfl⟩
  | case10 => cases h
  | case11 out last ch hquote hcontrol hbackslash l s hl ch' hch' ih =>
    obtain ⟨body, us, hbody, rfl, rfl⟩ := ih h
    obtain rfl := not_not.mp hbackslash
    refine ⟨_, .byte ch' :: us, .cons (.letter hch') hbody, ?_, rfl⟩
    rw [decode_pending_byte]
    simp [pending]
  | case12 => cases h

/-- The text of a string after its first quote. -/
def StringText (t s : ByteString) : Prop :=
  ∃ body us, CharsText body us ∧ decode us = s ∧ body ++ [quote] = t

theorem parseString_exact : parseString.Exact (fun _ => True) StringText where
  sound {s str rest} h := by
    obtain ⟨body, us, hbody, hstr, hs⟩ := parseChars_sound h
    exact ⟨body ++ [quote], ⟨body, us, hbody, hstr, rfl⟩, by rw [← hs, List.append_assoc]; rfl⟩
  complete {t str rest} h _ := by
    obtain ⟨body, us, hbody, rfl, rfl⟩ := h
    have := parseChars_complete hbody [] none rest
    rw [List.append_assoc, List.singleton_append]
    exact this

theorem parseChars_ne_outOfFuel (out : ByteString) (last : Option ℕ) (s : ByteString) :
    parseChars out last s ≠ .error .outOfFuel := by
  fun_induction parseChars out last s <;> simp_all

/-! ## Numbers

The four parts of a number, each with what may follow it.
-/

/-- Digits, and nothing else. -/
def Digits (ds : ByteString) : Prop := ∀ ch ∈ ds, isDigit ch = true

/-- A minus sign, or nothing. -/
inductive SignText : ByteString → Prop
  | none : SignText []
  | minus : SignText [minus]

/-- The integer part of a number. -/
inductive IntegerText : ByteString → Prop
  | zero : IntegerText [zero]
  | digits {d ds} : d ≠ Json11.zero → Digits (d :: ds) → IntegerText (d :: ds)

/-- The fraction, or nothing. -/
inductive FractionText : ByteString → Prop
  | none : FractionText []
  | digits {d ds} : Digits (d :: ds) → FractionText (dot :: d :: ds)

/-- The exponent, or nothing. -/
inductive ExponentText : ByteString → Prop
  | none : ExponentText []
  | digits {e sign d ds} : e = 101 ∨ e = 69 → sign = [] ∨ sign = [plus] ∨ sign = [minus] →
      Digits (d :: ds) → ExponentText (e :: sign ++ d :: ds)

/-- A number is made of these four. -/
def NumberText (t : ByteString) : Prop :=
  ∃ sign i f x, SignText sign ∧ IntegerText i ∧ FractionText f ∧ ExponentText x ∧
    sign ++ (i ++ (f ++ x)) = t

/-- Short integers have the type `int`. -/
def isInt (t : ByteString) : Bool :=
  t.all (fun ch => isDigit ch || ch = minus) && t.length ≤ digits10

/-- The value that the parser gives a number. -/
def numberValue {δ : Type} (D : Doubles δ) (t : ByteString) : Json δ :=
  if isInt t then .int (atoi t) else .double (D.strtod t)

/-- A number that comes before this character cannot go on with it. -/
def EndsNumber (ch : UInt8) : Prop := isDigit ch = false ∧ ch ≠ dot ∧ ch ≠ 101 ∧ ch ≠ 69

instance : DecidablePred EndsNumber := fun _ => inferInstanceAs (Decidable (_ ∧ _))

/-- A number ends before it. -/
def Ends (s : ByteString) : Prop := EndsNumber (s.headD 0)

/-! ### Single characters

The scanner of numbers looks at the current character, which is a zero byte at the end of the text.
-/

theorem current_run (s : ByteString) : current.run s = .ok (s.headD 0, s) := rfl

theorem advance_run (s : ByteString) : advance.run s = .ok ((), s.tail) := rfl

theorem skipDigits_run (s : ByteString) : skipDigits.run s = .ok ((), s.dropWhile isDigit) := rfl

theorem dropWhile_digits {ds s : ByteString} (hds : Digits ds) (hs : isDigit (s.headD 0) = false) :
    (ds ++ s).dropWhile isDigit = s := by
  rw [List.dropWhile_append_of_pos hds]
  cases s with
  | nil => rfl
  | cons ch s => exact List.dropWhile_cons_of_neg (by simpa using hs)

theorem digits_takeWhile (s : ByteString) : Digits (s.takeWhile isDigit) :=
  fun _ hch => List.mem_takeWhile_imp hch

theorem not_isDigit_dropWhile (s : ByteString) :
    isDigit ((s.dropWhile isDigit).headD 0) = false := by
  have hhead := List.head?_dropWhile_not isDigit s
  rcases hs : s.dropWhile isDigit with _ | ⟨ch, s'⟩
  · decide
  · rwa [hs] at hhead

/-- A digit is at the front of its text. -/
theorem exists_cons_of_isDigit {s : ByteString} (h : isDigit (s.headD 0) = true) :
    ∃ d s', s = d :: s' ∧ isDigit d = true := by
  cases s with
  | nil => exact absurd h (by decide)
  | cons d s' => exact ⟨d, s', rfl, h⟩

theorem exists_cons_of_headD {s : ByteString} {ch : UInt8} (h : s.headD 0 = ch) (hne : ch ≠ 0) :
    ∃ s', s = ch :: s' := by
  cases s with
  | nil => exact absurd h.symm hne
  | cons d s' => exact ⟨s', by rw [← h]; rfl⟩

theorem digits_cons {d : UInt8} {s : ByteString} (hd : isDigit d = true) :
    Digits (d :: s.takeWhile isDigit) := by
  intro ch hch
  rcases List.mem_cons.mp hch with rfl | hch
  · exact hd
  · exact digits_takeWhile s ch hch

theorem parseDigits_of_digits {e : ParseError} {d : UInt8} {ds s : ByteString}
    (hds : Digits (d :: ds)) (hs : isDigit (s.headD 0) = false) :
    (parseDigits e).run (d :: ds ++ s) = .ok ((), s) := by
  rw [parseDigits, Scanner.run_bind_of_ok (current_run _), List.cons_append, List.headD_cons,
    if_pos (hds d List.mem_cons_self), skipDigits_run, ← List.cons_append, dropWhile_digits hds hs]

theorem parseDigits_sound {e : ParseError} {s rest : ByteString} {u : Unit}
    (h : (parseDigits e).run s = .ok (u, rest)) :
    ∃ d ds, Digits (d :: ds) ∧ d :: ds ++ rest = s := by
  obtain ⟨ch, s', hch, h⟩ := Scanner.run_bind_eq_ok.mp h
  cases hch
  split_ifs at h with hd
  · obtain ⟨d, s', rfl, hd'⟩ := exists_cons_of_isDigit hd
    rw [skipDigits_run, List.dropWhile_cons_of_pos hd'] at h
    cases h
    exact ⟨d, s'.takeWhile isDigit, digits_cons hd', by simp⟩
  · cases h

/-! ### The parts of a number

Each part is taken if it is there, and the scanner stops where it ends.
-/

theorem parseSign_run (s : ByteString) :
    parseSign.run s = .ok ((), if s.headD 0 = minus then s.tail else s) := by
  rw [parseSign, Scanner.run_bind_of_ok (current_run s)]
  split_ifs <;> rfl

theorem parseSign_exact :
    parseSign.Exact (fun s => s.headD 0 ≠ minus) (fun t _ => SignText t) where
  sound {s u rest} h := by
    rw [parseSign_run] at h
    split_ifs at h with hs
    · obtain ⟨s', rfl⟩ := exists_cons_of_headD hs (by decide)
      cases h
      exact ⟨[minus], .minus, rfl⟩
    · cases h
      exact ⟨[], .none, rfl⟩
  complete {t u s} ht hs := by
    rw [parseSign_run]
    cases ht with
    | none => rw [List.nil_append, if_neg hs]
    | minus => rfl

theorem parseInteger_exact :
    parseInteger.Exact (fun s => isDigit (s.headD 0) = false) (fun t _ => IntegerText t) where
  sound {s u rest} h := by
    obtain ⟨ch, s', hch, h⟩ := Scanner.run_bind_eq_ok.mp h
    cases hch
    split_ifs at h with hzero hd
    · obtain ⟨s', rfl⟩ := exists_cons_of_headD hzero (by decide)
      rw [Scanner.run_bind_of_ok (advance_run _), Scanner.run_bind_of_ok (current_run _)] at h
      split_ifs at h
      · cases h
      · cases h
        exact ⟨[zero], .zero, rfl⟩
    · obtain ⟨d, s', rfl, hd⟩ := exists_cons_of_isDigit hd
      rw [Scanner.run_bind_of_ok (advance_run _), List.tail_cons, skipDigits_run] at h
      cases h
      exact ⟨d :: s'.takeWhile isDigit, .digits hzero (digits_cons hd), by simp⟩
    · cases h
  complete {t u s} ht hs := by
    rw [parseInteger, Scanner.run_bind_of_ok (current_run _)]
    cases ht with
    | zero =>
      rw [List.singleton_append, List.headD_cons, if_pos rfl,
        Scanner.run_bind_of_ok (advance_run _), List.tail_cons,
        Scanner.run_bind_of_ok (current_run s), hs]
      rfl
    | @digits d ds hd hds =>
      rw [List.cons_append, List.headD_cons, if_neg hd, if_pos (hds d List.mem_cons_self),
        Scanner.run_bind_of_ok (advance_run _), List.tail_cons, skipDigits_run,
        dropWhile_digits (fun ch hch => hds ch (List.mem_cons_of_mem d hch)) hs]

theorem parseFraction_exact :
    parseFraction.Exact (fun s => isDigit (s.headD 0) = false ∧ s.headD 0 ≠ dot)
      (fun t _ => FractionText t) where
  sound {s u rest} h := by
    obtain ⟨ch, s', hch, h⟩ := Scanner.run_bind_eq_ok.mp h
    cases hch
    split_ifs at h with hdot
    · obtain ⟨s', rfl⟩ := exists_cons_of_headD hdot (by decide)
      rw [Scanner.run_bind_of_ok (advance_run _)] at h
      obtain ⟨d, ds, hds, hs⟩ := parseDigits_sound h
      exact ⟨dot :: d :: ds, .digits hds, by rw [List.cons_append, hs, List.tail_cons]⟩
    · cases h
      exact ⟨[], .none, rfl⟩
  complete {t u s} ht hs := by
    rw [parseFraction, Scanner.run_bind_of_ok (current_run _)]
    cases ht with
    | none => rw [List.nil_append, if_neg hs.2]; rfl
    | digits hds =>
      rw [List.cons_append, List.headD_cons, if_pos rfl, Scanner.run_bind_of_ok (advance_run _),
        List.tail_cons, parseDigits_of_digits hds hs.1]

theorem not_sign_of_isDigit {d : UInt8} (h : isDigit d = true) : ¬ (d = plus ∨ d = minus) := by
  rintro (rfl | rfl) <;> exact absurd h (by decide)

theorem parseExponent_exact :
    parseExponent.Exact (fun s => isDigit (s.headD 0) = false ∧ s.headD 0 ≠ 101 ∧ s.headD 0 ≠ 69)
      (fun t _ => ExponentText t) where
  sound {s u rest} h := by
    obtain ⟨ch, s', hch, h⟩ := Scanner.run_bind_eq_ok.mp h
    cases hch
    split_ifs at h with he
    · have hne : s.headD 0 ≠ 0 := by
        rcases he with he | he <;> rw [he] <;> decide
      obtain ⟨s₁, hs⟩ := exists_cons_of_headD rfl hne
      rw [Scanner.run_bind_of_ok (advance_run _), Scanner.run_bind_of_ok (current_run _)] at h
      rw [hs, List.tail_cons] at h
      split_ifs at h with hsign
      · have hne' : s₁.headD 0 ≠ 0 := by
          rcases hsign with hsign | hsign <;> rw [hsign] <;> decide
        obtain ⟨s₂, hs₁⟩ := exists_cons_of_headD rfl hne'
        rw [Scanner.run_bind_of_ok (advance_run _)] at h
        obtain ⟨d, ds, hds, hs₂⟩ := parseDigits_sound h
        refine ⟨s.headD 0 :: [s₁.headD 0] ++ d :: ds, .digits he ?_ hds, ?_⟩
        · rcases hsign with hsign | hsign <;> rw [hsign] <;> simp
        · rw [List.append_assoc, hs₂, hs₁, List.tail_cons, List.cons_append, List.singleton_append,
            List.headD_cons, ← hs₁, ← hs]
      · obtain ⟨d, ds, hds, hs₂⟩ := parseDigits_sound h
        exact ⟨s.headD 0 :: [] ++ d :: ds, .digits he (.inl rfl) hds, by
          rw [List.append_assoc, hs₂, List.cons_append, List.nil_append, ← hs]⟩
    · cases h
      exact ⟨[], .none, rfl⟩
  complete {t u s} ht hs := by
    rw [parseExponent, Scanner.run_bind_of_ok (current_run _)]
    cases ht with
    | none => rw [List.nil_append, if_neg (not_or.mpr hs.2)]; rfl
    | @digits e sign d ds he hsign hds =>
      have hd := hds d List.mem_cons_self
      rw [List.cons_append, List.cons_append, List.headD_cons, if_pos he,
        Scanner.run_bind_of_ok (advance_run _), List.tail_cons,
        Scanner.run_bind_of_ok (current_run _), List.append_assoc]
      rcases hsign with rfl | rfl | rfl
      · rw [List.nil_append, List.cons_append, List.headD_cons, if_neg (not_sign_of_isDigit hd)]
        exact parseDigits_of_digits hds hs.1
      · rw [List.singleton_append, List.headD_cons, if_pos (.inl rfl)]
        exact parseDigits_of_digits hds hs.1
      · rw [List.singleton_append, List.headD_cons, if_pos (.inr rfl)]
        exact parseDigits_of_digits hds hs.1

/-! ### The type of a number

Whether a number is an `int` is decided by its length and by the character after its integer part.
-/

theorem IntegerText.digits' {i : ByteString} (h : IntegerText i) : Digits i := by
  cases h with
  | zero =>
    intro ch hch
    obtain rfl := List.mem_singleton.mp hch
    decide
  | digits _ hds => exact hds

theorem digitsValue_append {ds s : ByteString} (hds : Digits ds)
    (hs : isDigit (s.headD 0) = false) :
    digitsValue (ds ++ s) = digitsValue ds := by
  have htake : s.takeWhile isDigit = [] := by
    cases s with
    | nil => rfl
    | cons ch s => exact List.takeWhile_cons_of_neg (by simpa using hs)
  rw [digitsValue, digitsValue, List.takeWhile_append_of_pos hds, htake, List.append_nil,
    List.takeWhile_eq_self_iff.mpr hds]

/-- `atoi` stops at the end of the number. -/
theorem atoi_append {sign i s : ByteString} (hsign : SignText sign) (hi : IntegerText i)
    (hs : isDigit (s.headD 0) = false) : atoi (sign ++ i ++ s) = atoi (sign ++ i) := by
  have hds := hi.digits'
  cases hsign with
  | minus =>
    simp only [List.cons_append, List.nil_append, atoi, if_true, digitsValue_append hds hs]
  | none =>
    have hcons : ∃ d ds, i = d :: ds ∧ d ≠ minus := by
      cases hi with
      | zero => exact ⟨zero, [], rfl, by decide⟩
      | @digits d ds _ _ =>
        refine ⟨d, ds, rfl, ?_⟩
        rintro rfl
        exact absurd (hds minus List.mem_cons_self) (by decide)
    obtain ⟨d, ds, rfl, hd⟩ := hcons
    simp only [List.nil_append, List.cons_append, atoi, if_neg hd]
    rw [← List.cons_append, digitsValue_append hds hs]

theorem FractionText.headD_append {f : ByteString} (h : FractionText f) (s : ByteString) :
    f = [] ∨ (f ++ s).headD 0 = dot := by
  cases h with
  | none => exact .inl rfl
  | digits _ => exact .inr rfl

theorem ExponentText.headD_append {x : ByteString} (h : ExponentText x) (s : ByteString) :
    x = [] ∨ (x ++ s).headD 0 = 101 ∨ (x ++ s).headD 0 = 69 := by
  cases h with
  | none => exact .inl rfl
  | digits he _ _ => exact .inr he

/-- A number is an `int` when it has neither a fraction nor an exponent, and is short. -/
theorem isInt_iff {sign i f x : ByteString} (hsign : SignText sign) (hi : IntegerText i)
    (hf : FractionText f) (hx : ExponentText x) :
    isInt (sign ++ (i ++ (f ++ x))) = true ↔ f ++ x = [] ∧ (sign ++ i).length ≤ digits10 := by
  have hsign' : sign.all (fun ch => isDigit ch || ch = minus) = true := by
    cases hsign <;> rfl
  have hi' : i.all (fun ch => isDigit ch || ch = minus) = true :=
    List.all_eq_true.mpr fun ch hch => by rw [hi.digits' ch hch, Bool.true_or]
  rw [isInt, List.all_append, List.all_append, hsign', hi', Bool.true_and, Bool.true_and]
  constructor
  · intro h
    obtain ⟨hall, hlen⟩ := Bool.and_eq_true_iff.mp h
    rw [List.all_append, Bool.and_eq_true_iff] at hall
    have hf' : f = [] := by
      cases hf with
      | none => rfl
      | digits _ =>
        exact absurd (List.all_eq_true.mp hall.1 dot List.mem_cons_self) (by decide)
    have hx' : x = [] := by
      cases hx with
      | none => rfl
      | @digits e sign' d ds he _ _ =>
        have hall := List.all_eq_true.mp hall.2 e List.mem_cons_self
        rcases he with rfl | rfl <;> exact absurd hall (by decide)
    subst hf' hx'
    exact ⟨rfl, by simpa using hlen⟩
  · rintro ⟨hnil, hlen⟩
    rw [hnil, List.append_nil, List.all_nil, Bool.true_and]
    exact decide_eq_true hlen

/-! ### The scanner of numbers

The parts together.
-/

theorem not_isDigit_of_parseInteger {s rest : ByteString} {u : Unit}
    (h : parseInteger.run s = .ok (u, rest)) : isDigit (rest.headD 0) = false := by
  obtain ⟨ch, s', hch, h⟩ := Scanner.run_bind_eq_ok.mp h
  cases hch
  split_ifs at h with hzero hd
  · rw [Scanner.run_bind_of_ok (advance_run _), Scanner.run_bind_of_ok (current_run _)] at h
    split_ifs at h with hdigit
    · cases h
    · cases h
      exact Bool.not_eq_true _ ▸ hdigit
  · rw [Scanner.run_bind_of_ok (advance_run _), skipDigits_run] at h
    cases h
    exact not_isDigit_dropWhile _
  · cases h

/-- A fraction is taken where there is a dot. -/
theorem length_lt_of_parseFraction {s rest : ByteString} {u : Unit}
    (h : parseFraction.run s = .ok (u, rest)) (hs : s.headD 0 = dot) :
    rest.length < s.length := by
  obtain ⟨s', rfl⟩ := exists_cons_of_headD hs (by decide)
  rw [parseFraction, Scanner.run_bind_of_ok (current_run _), if_pos hs,
    Scanner.run_bind_of_ok (advance_run _)] at h
  obtain ⟨d, ds, -, hds⟩ := parseDigits_sound h
  have := congrArg List.length hds
  simp only [List.length_append, List.length_cons, List.tail_cons] at this ⊢
  omega

theorem length_lt_of_parseExponent {s rest : ByteString} {u : Unit}
    (h : parseExponent.run s = .ok (u, rest)) (hs : s.headD 0 = 101 ∨ s.headD 0 = 69) :
    rest.length < s.length := by
  obtain ⟨t, ht, rfl⟩ := parseExponent_exact.sound h
  cases ht with
  | none =>
    -- the scanner would have taken nothing
    rw [List.nil_append] at h hs
    rw [parseExponent, Scanner.run_bind_of_ok (current_run _), if_pos hs,
      Scanner.run_bind_of_ok (advance_run _), Scanner.run_bind_of_ok (current_run _)] at h
    have hlt : rest.tail.length < rest.length := by
      have hne : rest ≠ [] := by
        rintro rfl
        rcases hs with hs | hs <;> exact absurd hs (by decide)
      have := List.length_pos_iff.mpr hne
      rw [List.length_tail]
      omega
    split_ifs at h
    · rw [Scanner.run_bind_of_ok (advance_run _)] at h
      obtain ⟨d, ds, -, hds⟩ := parseDigits_sound h
      have := congrArg List.length hds
      simp only [List.length_append, List.length_cons, List.length_tail] at this hlt
      omega
    · obtain ⟨d, ds, -, hds⟩ := parseDigits_sound h
      have := congrArg List.length hds
      simp only [List.length_append, List.length_cons, List.length_tail] at this hlt
      omega
  | digits _ _ _ =>
    simp only [List.length_append, List.length_cons]
    omega

/-- **The numbers of the grammar are what `parse_number` takes**, with the type that their text
gives them. -/
theorem parseNumber_exact {δ : Type} (D : Doubles δ) :
    (parseNumber D).Exact Ends (fun t v => NumberText t ∧ numberValue D t = v) where
  sound {s v rest} h := by
    obtain ⟨s₀, s', hget, h⟩ := Scanner.run_bind_eq_ok.mp h
    cases hget
    obtain ⟨_, s₁, hrun, h⟩ := Scanner.run_bind_eq_ok.mp h
    obtain ⟨sign, hsign, rfl⟩ := parseSign_exact.sound hrun
    obtain ⟨_, s₂, hint, h⟩ := Scanner.run_bind_eq_ok.mp h
    have hend := not_isDigit_of_parseInteger hint
    obtain ⟨i, hi, rfl⟩ := parseInteger_exact.sound hint
    rw [Scanner.run_bind_of_ok (current_run _), Scanner.run_bind_of_ok (Scanner.run_get _)] at h
    have hlen : (sign ++ (i ++ s₂)).length - s₂.length = (sign ++ i).length := by
      simp only [List.length_append]
      omega
    rw [hlen] at h
    split_ifs at h with hshort
    · obtain ⟨hdot, he, hE, hshort⟩ := hshort
      obtain ⟨rfl, rfl⟩ := Scanner.run_pure_eq_ok.mp h
      refine ⟨sign ++ i, ⟨⟨sign, i, [], [], hsign, hi, .none, .none, by simp⟩, ?_⟩,
        List.append_assoc sign i s₂⟩
      have hisInt := (isInt_iff hsign hi .none .none).mpr ⟨rfl, hshort⟩
      rw [List.append_nil, List.append_nil] at hisInt
      rw [numberValue, if_pos hisInt, ← List.append_assoc, atoi_append hsign hi hend]
    · obtain ⟨_, s₃, hfrac, h⟩ := Scanner.run_bind_eq_ok.mp h
      have hfracLt := length_lt_of_parseFraction hfrac
      obtain ⟨f, hf, rfl⟩ := parseFraction_exact.sound hfrac
      obtain ⟨_, s₄, hexp, h⟩ := Scanner.run_bind_eq_ok.mp h
      have hexpLt := length_lt_of_parseExponent hexp
      obtain ⟨x, hx, rfl⟩ := parseExponent_exact.sound hexp
      rw [Scanner.run_bind_of_ok (Scanner.run_get _)] at h
      obtain ⟨rfl, rfl⟩ := Scanner.run_pure_eq_ok.mp h
      refine ⟨sign ++ (i ++ (f ++ x)), ⟨⟨sign, i, f, x, hsign, hi, hf, hx, rfl⟩, ?_⟩,
        by simp only [List.append_assoc]⟩
      have hnot : ¬ isInt (sign ++ (i ++ (f ++ x))) = true := by
        rw [isInt_iff hsign hi hf hx]
        rintro ⟨hnil, hle⟩
        obtain ⟨rfl, rfl⟩ := List.append_eq_nil_iff.mp hnil
        refine hshort ⟨?_, ?_, ?_, hle⟩
        · intro hdot
          exact absurd (hfracLt hdot) (lt_irrefl _)
        · intro he
          exact absurd (hexpLt (.inl he)) (lt_irrefl _)
        · intro hE
          exact absurd (hexpLt (.inr hE)) (lt_irrefl _)
      have htake : (sign ++ (i ++ (f ++ (x ++ s₄)))).take
          ((sign ++ (i ++ (f ++ (x ++ s₄)))).length - s₄.length) = sign ++ (i ++ (f ++ x)) := by
        have hsplit : sign ++ (i ++ (f ++ (x ++ s₄))) = sign ++ (i ++ (f ++ x)) ++ s₄ := by
          simp only [List.append_assoc]
        rw [hsplit, List.length_append, Nat.add_sub_cancel, List.take_left]
      rw [numberValue, if_neg hnot, htake]
  complete {t v rest} h hrest := by
    obtain ⟨⟨sign, i, f, x, hsign, hi, hf, hx, rfl⟩, rfl⟩ := h
    obtain ⟨hdigit, hdot, he, hE⟩ := hrest
    have hexpEnd : isDigit ((x ++ rest).headD 0) = false ∧ (x ++ rest).headD 0 ≠ dot := by
      cases hx with
      | none => exact ⟨hdigit, hdot⟩
      | @digits e sign' d ds he _ _ =>
        change isDigit e = false ∧ e ≠ dot
        rcases he with rfl | rfl <;> decide
    have hfracEnd : isDigit ((f ++ (x ++ rest)).headD 0) = false := by
      cases hf with
      | none => exact hexpEnd.1
      | digits _ => rfl
    have hsignEnd : (i ++ (f ++ (x ++ rest))).headD 0 ≠ minus := by
      cases hi with
      | zero => exact (by decide : zero ≠ minus)
      | @digits d ds _ hds =>
        rintro rfl
        exact absurd (hds minus List.mem_cons_self) (by decide)
    have hlen : (sign ++ (i ++ (f ++ (x ++ rest)))).length - (f ++ (x ++ rest)).length =
        (sign ++ i).length := by
      simp only [List.length_append]
      omega
    simp only [List.append_assoc]
    rw [parseNumber, Scanner.run_bind_of_ok (Scanner.run_get _),
      Scanner.run_bind_of_ok (parseSign_exact.complete (a := ()) hsign hsignEnd),
      Scanner.run_bind_of_ok (parseInteger_exact.complete (a := ()) hi hfracEnd),
      Scanner.run_bind_of_ok (current_run _), Scanner.run_bind_of_ok (Scanner.run_get _), hlen]
    by_cases hisInt : isInt (sign ++ (i ++ (f ++ x))) = true
    · obtain ⟨hnil, hshort⟩ := (isInt_iff hsign hi hf hx).mp hisInt
      obtain ⟨rfl, rfl⟩ := List.append_eq_nil_iff.mp hnil
      have hif : rest.headD 0 ≠ dot ∧ rest.headD 0 ≠ 101 ∧ rest.headD 0 ≠ 69 ∧
          (sign ++ i).length ≤ digits10 := ⟨hdot, he, hE, hshort⟩
      rw [numberValue, if_pos hisInt]
      simp only [List.nil_append, List.append_nil]
      rw [if_pos hif, ← List.append_assoc, atoi_append hsign hi hdigit]
      rfl
    · have hif : ¬ ((f ++ (x ++ rest)).headD 0 ≠ dot ∧ (f ++ (x ++ rest)).headD 0 ≠ 101 ∧
          (f ++ (x ++ rest)).headD 0 ≠ 69 ∧ (sign ++ i).length ≤ digits10) := by
        rintro ⟨hdot', he', hE', hshort⟩
        apply hisInt
        rw [isInt_iff hsign hi hf hx]
        obtain rfl := (hf.headD_append (x ++ rest)).resolve_right hdot'
        obtain rfl := (hx.headD_append rest).resolve_right (not_or.mpr ⟨he', hE'⟩)
        exact ⟨rfl, hshort⟩
      rw [if_neg hif, Scanner.run_bind_of_ok (parseFraction_exact.complete (a := ()) hf hexpEnd),
        Scanner.run_bind_of_ok (parseExponent_exact.complete (a := ()) hx ⟨hdigit, he, hE⟩),
        Scanner.run_bind_of_ok (Scanner.run_get _), numberValue, if_neg hisInt]
      have hsplit : sign ++ (i ++ (f ++ (x ++ rest))) = sign ++ (i ++ (f ++ x)) ++ rest := by
        simp only [List.append_assoc]
      rw [hsplit, List.length_append, Nat.add_sub_cancel, List.take_left]
      rfl

end Json11

end GameSdk
