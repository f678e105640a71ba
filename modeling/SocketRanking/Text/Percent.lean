import SocketRanking.Json.Reader

/-!
# Percent coding

A byte of a text may be written as a percent sign and two hexadecimal digits. Decoding works on the
bytes of the text, and the bytes that result need not be a text any more.
-/

namespace SocketRanking.Text

/-- The byte that a percent sign and these two characters stand for. -/
def percentByte? (high low : UInt8) : Option UInt8 := do
  let high ← Json.hexValue? (Char.ofNat high.toNat)
  let low ← Json.hexValue? (Char.ofNat low.toNat)
  some (UInt8.ofNat (16 * high + low))

/-- Bytes with every coded byte in its place; a percent sign that codes nothing stays. -/
def percentDecodeBytes : List UInt8 → List UInt8
  | [] => []
  | 37 :: high :: low :: rest =>
    match percentByte? high low with
    | some b => b :: percentDecodeBytes rest
    | none => 37 :: percentDecodeBytes (high :: low :: rest)
  | b :: rest => b :: percentDecodeBytes rest

/-- The text that a percent-coded text stands for, if the bytes are one. -/
def percentDecode? (text : String) : Option String :=
  String.fromUTF8? ⟨(percentDecodeBytes text.toUTF8.toList).toArray⟩

/-- A byte as a percent sign and two hexadecimal digits in upper case. -/
def percentEncodeByte (b : UInt8) : List Char :=
  ['%', (Nat.digitChar (b.toNat / 16)).toUpper, (Nat.digitChar (b.toNat % 16)).toUpper]

def percentEncodeChar (c : Char) : List Char :=
  c.toString.toUTF8.toList.flatMap percentEncodeByte

end SocketRanking.Text
