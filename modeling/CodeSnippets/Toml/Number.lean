/-
  Numbers as they stand in a TOML document.

  * An integer is decimal, with a sign and without leading zeros, or hexadecimal,
    octal or binary behind its mark; it fits in 64 bits with a sign.
  * A float has a fraction or an exponent, or is an infinity or not a number.
    It may be too small or too negative for a double, but not too large
    (`exceedsDouble`).
  * Between two digits there may be an underscore.
-/
import CodeSnippets.Text.Reader

namespace CodeSnippets.Toml

/-! ## Digits -/

/-- One digit of a class or more, with single underscores between. -/
def digits (isDigit : Char → Bool) : Reader Text := do
  let first ← Reader.charIf isDigit
  let more ← Reader.repeatedly do
    let _ ← Reader.optionally (Reader.char '_')
    Reader.charIf isDigit
  return first :: more

/-- A sign, and whether it is a minus. -/
def sign : Reader Bool := do
  match ← Reader.optionally (Reader.charIf fun c => c == '+' || c == '-') with
  | some c => return c == '-'
  | none => return false

/-- Decimal digits without leading zeros. -/
def decimalDigits : Reader Text :=
  (do let t ← digits isAsciiDigit
      if t.head? = some '0' then Reader.fail else return t) <|>
  (do return [← Reader.charIf (· == '0')])

/-! ## Integers -/

/-- A decimal integer. -/
def decimalInteger : Reader Int := do
  let negative ← sign
  let n := valueIn 10 (← decimalDigits)
  return if negative then -n else n

/-- An integer in another base behind its mark. -/
def markedInteger (mark : Char) (base : Nat) : Reader Int := do
  Reader.literal ['0', mark]
  let t ← digits fun c => match hexValue? c with
    | some d => d < base
    | none => false
  return valueIn base t

/-- Whether a number fits in 64 bits with a sign. -/
def fitsInteger (n : Int) : Bool := -0x8000000000000000 ≤ n && n < 0x8000000000000000

/-- An integer in any base. -/
def integer : Reader Int := do
  let n ← markedInteger 'x' 16 <|> markedInteger 'o' 8 <|> markedInteger 'b' 2 <|> decimalInteger
  if fitsInteger n then return n else Reader.fail

/-! ## Floats -/

/-- The parts of a float: whether it is negative, the digits in front of the point
    and behind it, and the exponent. -/
structure FloatParts where
  negative : Bool
  whole : Text
  fraction : Text
  exponent : Int

/-- An exponent with its mark. -/
def exponent : Reader Int := do
  let _ ← Reader.charIf fun c => c == 'e' || c == 'E'
  let negative ← sign
  let n := valueIn 10 (← digits isAsciiDigit)
  return if negative then -n else n

/-- A fraction with its point. -/
def fraction : Reader Text := do
  Reader.char '.'
  digits isAsciiDigit

/-- A float of digits; a fraction or an exponent is there. -/
def floatParts : Reader FloatParts := do
  let negative ← sign
  let whole ← decimalDigits
  (do return ⟨negative, whole, [], ← exponent⟩) <|>
  (do let fraction ← fraction
      return ⟨negative, whole, fraction, (← Reader.optionally exponent).getD 0⟩)

/-- The least number that rounds to infinity as a double: half a step above the
    largest double. -/
def doubleBound : Nat := (Nat.pow 2 54 - 1) * Nat.pow 2 970

/-- Whether a float rounds to positive infinity.  A number whose first digit stands
    far above or below the place of the bound's first digit is decided by that
    place alone. -/
def exceedsDouble (p : FloatParts) : Bool :=
  let written := (p.whole ++ p.fraction).dropWhile (· == '0')
  let scale := p.exponent - p.fraction.length
  let size := written.length + scale
  if p.negative || written.isEmpty || size < 309 then false
  else if 309 < size then true
  else if 0 ≤ scale then doubleBound ≤ valueIn 10 written * Nat.pow 10 scale.toNat
  else doubleBound * Nat.pow 10 (-scale).toNat ≤ valueIn 10 written

/-- An infinity or not a number. -/
def namedFloat : Reader Unit := do
  let _ ← sign
  Reader.literal ['i', 'n', 'f'] <|> Reader.literal ['n', 'a', 'n']

/-- A float, of which the value is not needed. -/
def float : Reader Unit :=
  (do let p ← floatParts
      if exceedsDouble p then Reader.fail else return ()) <|> namedFloat

end CodeSnippets.Toml
