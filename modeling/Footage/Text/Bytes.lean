import Footage.Text.Numeral

/-!
Texts as bytes, and the escapes that stand for bytes in texts: a percent sign and two digits.
-/

namespace Footage.Text

abbrev Bytes := List UInt8

def bytes (cs : List Char) : Bytes := cs.flatMap String.utf8EncodeChar

/-- The byte that two digits of base sixteen stand for. -/
def byteOfDigits? (a b : Char) : Option UInt8 :=
  (Numeral.valueIn? 16 [a, b]).map Nat.toUInt8

/-- The bytes of a text with its escapes replaced. What looks like an escape and is none stands for
itself; the escape of the null character ends the text. -/
def unescaped : List Char → Bytes
  | [] => []
  | '%' :: a :: b :: rest =>
    match byteOfDigits? a b with
    | some 0 => []
    | some n => n :: unescaped rest
    | none => String.utf8EncodeChar '%' ++ unescaped (a :: b :: rest)
  | c :: rest => String.utf8EncodeChar c ++ unescaped rest

end Footage.Text
