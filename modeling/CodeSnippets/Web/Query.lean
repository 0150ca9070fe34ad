/-
  Queries of request targets.

  A query is a sequence of pairs between `&` signs, a key and a value around the
  first `=`.  Either side is decoded as a form field: a plus sign is a space, a
  percent sign with two hexadecimal digits is the byte they spell, any other
  character is its bytes, and the bytes are read as lossy UTF-8.

  * `decodeField`: one side of a pair;
  * `queryPairs`: the pairs of a query, in order;
  * `queryValue?`: the value of the first pair with a key.
-/
import CodeSnippets.Text.Utf8

namespace CodeSnippets

/-- The bytes that a form field spells. -/
def fieldBytes : Text → List UInt8
  | [] => []
  | '+' :: rest => 0x20 :: fieldBytes rest
  | '%' :: high :: low :: rest =>
    match hexValue? high, hexValue? low with
    | some h, some l => UInt8.ofNat (16 * h + l) :: fieldBytes rest
    | _, _ => 0x25 :: fieldBytes (high :: low :: rest)
  | c :: rest => String.utf8EncodeChar c ++ fieldBytes rest
termination_by t => t.length

/-- The text that a form field spells. -/
def decodeField (t : Text) : Text := Text.ofUtf8Lossy (fieldBytes t)

/-- A pair of a query, decoded; without a `=` the value is empty. -/
def decodePair (t : Text) : Text × Text :=
  let (key, value) := (Text.splitAtFirst '=' t).getD (t, [])
  (decodeField key, decodeField value)

/-- The pairs of a query; between two `&` signs there need not be one. -/
def queryPairs (query : Text) : List (Text × Text) :=
  ((Text.splitOn '&' query).filter fun t => !t.isEmpty).map decodePair

/-- The value of the first pair with a key. -/
def queryValue? (key query : Text) : Option Text :=
  ((queryPairs query).find? fun p => p.1 == key).map Prod.snd

end CodeSnippets
