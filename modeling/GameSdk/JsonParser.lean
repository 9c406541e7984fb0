import GameSdk.Json11
import GameSdk.Scanner

/-!
# The JSON parser (`json11.cpp`)

`JsonParser` goes over the text with an index; here it is a scanner of what is left of the text.
The first failure is the one that is reported, and the parser takes nothing after it.

Where the source goes back by one character to have a token read again, the scanner has not taken
the token. The loops have fuel, as many units as there are characters left, and one more.

Every error keeps what the text of the source is made of, so that the text can be built from it.
What is left of the text when the parser fails does not matter.
-/

namespace GameSdk

namespace Json11

/-- `max_depth` -/
def maxDepth : ℕ := 200

/-- `std::numeric_limits<int>::digits10` -/
def digits10 : ℕ := 9

/-! ## Errors

The texts of the errors, as `fail` gets them.
-/

/-- What can be wrong with a text. -/
inductive ParseError where
  | exceededDepth
  | unexpectedEnd
  | unexpectedEndInString
  | unescaped (ch : UInt8)
  | badUnicode (esc : ByteString)
  | invalidEscape (ch : UInt8)
  | leadingZeros
  | invalidInNumber (ch : UInt8)
  | noFractionDigit
  | noExponentDigit
  | expectedLiteral (expected got : ByteString)
  | expectedQuote (ch : UInt8)
  | expectedColon (ch : UInt8)
  | expectedComma (place : String) (ch : UInt8)
  | expectedValue (ch : UInt8)
  | unexpectedTrailing (ch : UInt8)
  /-- of a loop; not in the source -/
  | outOfFuel
  deriving DecidableEq, Repr

/-- A character in an error message, where `char` has no sign. -/
def esc (c : UInt8) : ByteString :=
  if 0x20 ≤ c ∧ c ≤ 0x7f then text "'" ++ [c] ++ text "' (" ++ decimalNat c.toNat ++ text ")"
  else text "(" ++ decimalNat c.toNat ++ text ")"

/-- What `err` is then. -/
def ParseError.message : ParseError → ByteString
  | exceededDepth => text "exceeded maximum nesting depth"
  | unexpectedEnd => text "unexpected end of input"
  | unexpectedEndInString => text "unexpected end of input in string"
  | unescaped ch => text "unescaped " ++ esc ch ++ text " in string"
  | badUnicode s => text "bad \\u escape: " ++ s
  | invalidEscape ch => text "invalid escape character " ++ esc ch
  | leadingZeros => text "leading 0s not permitted in numbers"
  | invalidInNumber ch => text "invalid " ++ esc ch ++ text " in number"
  | noFractionDigit => text "at least one digit required in fractional part"
  | noExponentDigit => text "at least one digit required in exponent"
  | expectedLiteral expected got =>
    text "parse error: expected " ++ expected ++ text ", got " ++ got
  | expectedQuote ch => text "expected '\"' in object, got " ++ esc ch
  | expectedColon ch => text "expected ':' in object, got " ++ esc ch
  | expectedComma place ch => text "expected ',' in " ++ text place ++ text ", got " ++ esc ch
  | expectedValue ch => text "expected value, got " ++ esc ch
  | unexpectedTrailing ch => text "unexpected trailing " ++ esc ch
  | outOfFuel => text "out of fuel"

/-- `err.empty()` says whether there was a failure. -/
theorem ParseError.message_ne_nil (e : ParseError) : e.message ≠ [] := by
  cases e <;> simp [message, text]

/-! ## Tokens

White space and single characters.
-/

/-- A scanner of bytes with these errors. -/
abbrev Parser : Type → Type := Scanner UInt8 ParseError

/-- White space. -/
def isSpace (ch : UInt8) : Bool :=
  ch = space || ch = carriageReturn || ch = newline || ch = tab

/-- A digit. -/
def isDigit (ch : UInt8) : Bool := zero ≤ ch && ch ≤ 57

/-- `str[i]`; the character after the end is 0. -/
def current : Parser UInt8 := do
  let s ← get
  return s.headD 0

/-- `i++` -/
def advance : Parser Unit := modify List.tail

/-- `consume_garbage`, without comments -/
def consumeWhitespace : Parser Unit := modify (List.dropWhile isSpace)

/-- `get_next_token`: the next character that is not white space. -/
def getNextToken : Parser UInt8 := do
  consumeWhitespace
  match ← get with
  | [] => throw .unexpectedEnd
  | ch :: s => set s; return ch

/-- `get_next_token`, and then the token is put back. -/
def peekNextToken : Parser UInt8 := do
  let s ← get
  let ch ← getNextToken
  set s
  return ch

/-! ## Strings

A string is read character by character, with the escaped code point that has not been written yet.
Two surrogates that follow each other are one code point.
-/

/-- `encode_utf8`, where none is -1 -/
def encodeUtf8 : Option ℕ → ByteString
  | none => []
  | some pt =>
    if pt < 0x80 then [pt.toUInt8]
    else if pt < 0x800 then [(pt / 2 ^ 6 ||| 0xC0).toUInt8, (pt % 2 ^ 6 ||| 0x80).toUInt8]
    else if pt < 0x10000 then
      [(pt / 2 ^ 12 ||| 0xE0).toUInt8, (pt / 2 ^ 6 % 2 ^ 6 ||| 0x80).toUInt8,
        (pt % 2 ^ 6 ||| 0x80).toUInt8]
    else
      [(pt / 2 ^ 18 ||| 0xF0).toUInt8, (pt / 2 ^ 12 % 2 ^ 6 ||| 0x80).toUInt8,
        (pt / 2 ^ 6 % 2 ^ 6 ||| 0x80).toUInt8, (pt % 2 ^ 6 ||| 0x80).toUInt8]

/-- The value of a hexadecimal digit. -/
def hexValue (ch : UInt8) : Option ℕ :=
  if 97 ≤ ch ∧ ch ≤ 102 then some (ch.toNat - 87)
  else if 65 ≤ ch ∧ ch ≤ 70 then some (ch.toNat - 55)
  else if 48 ≤ ch ∧ ch ≤ 57 then some (ch.toNat - 48)
  else none

/-- `strtol` of four hexadecimal digits -/
def strtol16 (a b c d : UInt8) : Option ℕ := do
  let a ← hexValue a
  let b ← hexValue b
  let c ← hexValue c
  let d ← hexValue d
  return ((a * 16 + b) * 16 + c) * 16 + d

/-- The first half of a code point above the first plane. -/
def isLeadSurrogate (pt : ℕ) : Bool := 0xD800 ≤ pt && pt ≤ 0xDBFF

/-- The second half. -/
def isTrailSurrogate (pt : ℕ) : Bool := 0xDC00 ≤ pt && pt ≤ 0xDFFF

/-- The character of a pair of surrogates. -/
def combine (lead trail : ℕ) : ℕ := ((lead - 0xD800) * 2 ^ 10 ||| (trail - 0xDC00)) + 0x10000

/-- The character that is escaped by a single letter. -/
def unescape (ch : UInt8) : Option UInt8 :=
  if ch = 98 then some backspace
  else if ch = 102 then some formFeed
  else if ch = 110 then some newline
  else if ch = 114 then some carriageReturn
  else if ch = 116 then some tab
  else if ch = quote ∨ ch = backslash ∨ ch = slash then some ch
  else none

/-- `parse_string`, with `out` and `last_escaped_codepoint` -/
def parseChars (out : ByteString) (last : Option ℕ) :
    ByteString → Except ParseError (ByteString × ByteString)
  | [] => .error .unexpectedEndInString
  | ch :: s =>
    if ch = quote then .ok (out ++ encodeUtf8 last, s)
    else if ch ≤ 0x1f then .error (.unescaped ch)
    else if ch ≠ backslash then parseChars (out ++ encodeUtf8 last ++ [ch]) none s
    else
      match s with
      | [] => .error .unexpectedEndInString
      | ch :: s =>
        if ch = 117 then
          match s with
          | a :: b :: c :: d :: s' =>
            match strtol16 a b c d with
            | none => .error (.badUnicode [a, b, c, d])
            | some codepoint =>
              match last with
              | some lead =>
                if isLeadSurrogate lead ∧ isTrailSurrogate codepoint then
                  parseChars (out ++ encodeUtf8 (some (combine lead codepoint))) none s'
                else parseChars (out ++ encodeUtf8 (some lead)) (some codepoint) s'
              | none => parseChars out (some codepoint) s'
          | esc => .error (.badUnicode esc)
        else
          match unescape ch with
          | some ch' => parseChars (out ++ encodeUtf8 last ++ [ch']) none s
          | none => .error (.invalidEscape ch)

/-- `parse_string`, after the quote. -/
def parseString : Parser ByteString := fun s => parseChars [] none s

/-! ## Numbers

A number is skipped first and converted then. Up to nine digits without a fraction it is an `int`.
-/

/-- The number that the leading digits are. -/
def digitsValue (s : ByteString) : ℕ :=
  (s.takeWhile isDigit).foldl (fun n ch => 10 * n + (ch.toNat - 48)) 0

/-- `std::atoi` -/
def atoi : ByteString → ℤ
  | [] => 0
  | ch :: s => if ch = minus then -digitsValue s else digitsValue (ch :: s)

/-- Digits, if there are any. -/
def skipDigits : Parser Unit := modify (List.dropWhile isDigit)

/-- The sign of a number. -/
def parseSign : Parser Unit := do
  if (← current) = minus then advance

/-- The digits before the dot, without leading zeros. -/
def parseInteger : Parser Unit := do
  let ch ← current
  if ch = zero then
    advance
    if isDigit (← current) then throw .leadingZeros
  else if isDigit ch then
    advance
    skipDigits
  else throw (.invalidInNumber ch)

/-- One digit or more, where they are required. -/
def parseDigits (e : ParseError) : Parser Unit := do
  if isDigit (← current) then skipDigits else throw e

/-- The dot and the digits after it. -/
def parseFraction : Parser Unit := do
  if (← current) = dot then
    advance
    parseDigits .noFractionDigit

/-- The exponent. -/
def parseExponent : Parser Unit := do
  let ch ← current
  if ch = 101 ∨ ch = 69 then
    advance
    let sign ← current
    if sign = plus ∨ sign = minus then advance
    parseDigits .noExponentDigit

section

variable {δ : Type} (D : Doubles δ)

/-- `parse_number`: the type depends on how the number is written. -/
def parseNumber : Parser (Json δ) := do
  let start ← get
  parseSign
  parseInteger
  let ch ← current
  let s ← get
  if ch ≠ dot ∧ ch ≠ 101 ∧ ch ≠ 69 ∧ start.length - s.length ≤ digits10 then
    return .int (atoi start)
  parseFraction
  parseExponent
  let s ← get
  return .double (D.strtod (start.take (start.length - s.length)))

/-! ## Values

Arrays and objects, with a loop for the items of either.
-/

/-- `expect`, of the character that was just read -/
def expect (ch : UInt8) (expected : ByteString) (res : Json δ) : Parser (Json δ) := do
  let s ← get
  let s := ch :: s
  if s.take expected.length = expected then
    set (s.drop expected.length)
    return res
  else throw (.expectedLiteral expected (s.take expected.length))

/-- After an item: whether there is one more, which must have begun. -/
def parseDelimiter (close : UInt8) (place : String) : Parser Bool := do
  let ch ← getNextToken
  if ch = close then return false
  else if ch ≠ comma then throw (.expectedComma place ch)
  else
    let _ ← peekNextToken
    return true

/-- A key and its value. -/
def parseEntry (value : Parser (Json δ)) : Parser (ByteString × Json δ) := do
  let ch ← getNextToken
  if ch ≠ quote then throw (.expectedQuote ch)
  else
    let key ← parseString
    let ch ← getNextToken
    if ch ≠ colon then throw (.expectedColon ch)
    else
      let v ← value
      return (key, v)

/-- What is in brackets, or in braces. -/
def parseItems {α β : Type} (close : UInt8) (place : String) (item : Parser α) (put : β → α → β)
    (data : β) : Parser β := do
  let ch ← peekNextToken
  if ch = close then
    let _ ← getNextToken
    return data
  else
    let s ← get
    Scanner.loop .outOfFuel item (parseDelimiter close place) put (s.length + 1) data

/-- An object; the last entry with a key counts. -/
def parseObject (value : Parser (Json δ)) : Parser (Json δ) := do
  let data ← parseItems closeBrace "object" (parseEntry value) insert []
  return .object data

/-- An array. -/
def parseArray (value : Parser (Json δ)) : Parser (Json δ) := do
  let data ← parseItems closeBracket "list" value (fun data v => data ++ [v]) []
  return .array data

/-- `parse_json`, where `left` more levels are permitted: it is `max_depth + 1 - depth`. -/
def parseJson : (left : ℕ) → Parser (Json δ)
  | 0 => throw .exceededDepth
  | left + 1 => do
    let ch ← getNextToken
    if ch = minus ∨ isDigit ch then
      modify (ch :: ·)
      parseNumber D
    else if ch = 116 then expect ch (text "true") (.bool true)
    else if ch = 102 then expect ch (text "false") (.bool false)
    else if ch = 110 then expect ch (text "null") .null
    else if ch = quote then
      let s ← parseString
      return .string s
    else if ch = openBrace then parseObject (parseJson left)
    else if ch = openBracket then parseArray (parseJson left)
    else throw (.expectedValue ch)

/-- `Json::parse` -/
def parse (str : ByteString) : Except ParseError (Json δ) := do
  let (result, s) ← (parseJson D (maxDepth + 1)).run str
  match s.dropWhile isSpace with
  | [] => return result
  | ch :: _ => throw (.unexpectedTrailing ch)

end

end Json11

end GameSdk
