/-
  Text as bytes in UTF-8.

  * `Text.toUtf8`, `Text.ofUtf8?`: a text as bytes, and the text of bytes that are
    well-formed throughout;
  * `Text.ofUtf8Lossy`: the text of any bytes: where they are not well-formed,
    the longest beginning of a character that fits is replaced by one `U+FFFD`.

  The lead byte of a character fixes how many bytes follow and between which
  bounds each lies (`leadByte?`).
-/
import CodeSnippets.Text.Basic

namespace CodeSnippets

/-! ## Strict decoding -/

/-- The bytes of a text. -/
def Text.toUtf8 (t : Text) : ByteArray := (String.ofList t).toUTF8

/-- The text of some bytes, if they are well-formed. -/
def Text.ofUtf8? (bytes : ByteArray) : Option Text :=
  (String.fromUTF8? bytes).map String.toList

theorem Text.ofUtf8?_toUtf8 (t : Text) : Text.ofUtf8? t.toUtf8 = some t := by
  have h : ByteArray.IsValidUTF8 t.toUtf8 := (String.ofList t).isValidUTF8
  have hs : String.fromUTF8? t.toUtf8 = some (String.ofList t) := by
    unfold String.fromUTF8?
    rw [dif_pos h]
    rfl
  rw [Text.ofUtf8?, hs, Option.map_some, String.toList_ofList]

/-! ## Lossy decoding -/

/-- The bits that a lead byte contributes and the bounds of the bytes behind it;
    none for a byte that begins no character. -/
def leadByte? (b : Nat) : Option (Nat × List (Nat × Nat)) :=
  if b < 0x80 then some (b, [])
  else if b < 0xC2 then none
  else if b < 0xE0 then some (b - 0xC0, [(0x80, 0xBF)])
  else if b = 0xE0 then some (0, [(0xA0, 0xBF), (0x80, 0xBF)])
  else if b = 0xED then some (0xD, [(0x80, 0x9F), (0x80, 0xBF)])
  else if b < 0xF0 then some (b - 0xE0, [(0x80, 0xBF), (0x80, 0xBF)])
  else if b = 0xF0 then some (0, [(0x90, 0xBF), (0x80, 0xBF), (0x80, 0xBF)])
  else if b < 0xF4 then some (b - 0xF0, [(0x80, 0xBF), (0x80, 0xBF), (0x80, 0xBF)])
  else if b = 0xF4 then some (4, [(0x80, 0x8F), (0x80, 0xBF), (0x80, 0xBF)])
  else none

/-- The character that a lead byte and the bytes within bounds behind it spell,
    none if a byte is missing, and the number of bytes that fit. -/
def readTail (bits : Nat) : List (Nat × Nat) → List UInt8 → Option Char × Nat
  | [], _ => (some (Char.ofNat bits), 0)
  | _ :: _, [] => (none, 0)
  | (low, high) :: bounds, b :: rest =>
    if low ≤ b.toNat && b.toNat ≤ high then
      let (c, n) := readTail (bits * 64 + (b.toNat - 0x80)) bounds rest
      (c, n + 1)
    else (none, 0)

/-- The text of some bytes, with a replacement character for what is not
    well-formed. -/
def Text.ofUtf8Lossy : List UInt8 → Text
  | [] => []
  | b :: rest =>
    match leadByte? b.toNat with
    | none => '\uFFFD' :: Text.ofUtf8Lossy rest
    | some (bits, bounds) =>
      let (c, n) := readTail bits bounds rest
      c.getD '\uFFFD' :: Text.ofUtf8Lossy (rest.drop n)
termination_by bytes => bytes.length
decreasing_by
  · simp
  · simp only [List.length_drop, List.length_cons]
    omega

end CodeSnippets
