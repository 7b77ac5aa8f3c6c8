/-
Percent decoding: `%` and two hexadecimal digits stand for a byte, and the
bytes are read as UTF-8. A text that is not well formed has no decoding.
-/
namespace Folio.Text

/-- The value of a hexadecimal digit. -/
def hexDigit? (c : Char) : Option Nat :=
  if c.isDigit then some (c.toNat - '0'.toNat)
  else if 'a' ≤ c ∧ c ≤ 'f' then some (c.toNat - 'a'.toNat + 10)
  else if 'A' ≤ c ∧ c ≤ 'F' then some (c.toNat - 'A'.toNat + 10)
  else none

/-- The byte written at the front of a text, and the text after it. -/
def escapedByte? : List Char → Option (Nat × List Char)
  | '%' :: a :: b :: rest =>
    match hexDigit? a, hexDigit? b with
    | some x, some y => some (16 * x + y, rest)
    | _, _ => none
  | _ => none

/-- `count` continuation bytes at the front of a text, appended to the bits
`value`, and the text after them. -/
def continuation? (value : Nat) : Nat → List Char → Option (Nat × List Char)
  | 0, text => some (value, text)
  | count + 1, text =>
    match escapedByte? text with
    | some (byte, rest) =>
      if 0x80 ≤ byte ∧ byte < 0xc0 then continuation? (64 * value + (byte - 0x80)) count rest else none
    | none => none

/-- The escaped character at the front of a text, and the text after it. Longer
forms than needed, surrogates and values beyond Unicode are refused. -/
def escapedChar? (text : List Char) : Option (Char × List Char) :=
  match escapedByte? text with
  | none => none
  | some (byte, rest) =>
    let scalar (least : Nat) (decoded : Option (Nat × List Char)) : Option (Char × List Char) :=
      match decoded with
      | some (value, rest) =>
        if h : value.isValidChar then
          if least ≤ value then some (Char.ofNatAux value h, rest) else none
        else none
      | none => none
    if byte < 0x80 then scalar 0 (some (byte, rest))
    else if byte < 0xc0 then none
    else if byte < 0xe0 then scalar 0x80 (continuation? (byte - 0xc0) 1 rest)
    else if byte < 0xf0 then scalar 0x800 (continuation? (byte - 0xe0) 2 rest)
    else if byte < 0xf8 then scalar 0x10000 (continuation? (byte - 0xf0) 3 rest)
    else none

/-- Decodes at most `fuel` characters. -/
def decodeEscapes : Nat → List Char → Option (List Char)
  | 0, _ => some []
  | _ + 1, [] => some []
  | fuel + 1, c :: rest =>
    if c = '%' then
      match escapedChar? (c :: rest) with
      | some (d, rest) => (decodeEscapes fuel rest).map (d :: ·)
      | none => none
    else (decodeEscapes fuel rest).map (c :: ·)

/-- The text with its escapes decoded, or `none` if one is malformed. -/
def percentDecode? (text : List Char) : Option (List Char) := decodeEscapes text.length text

end Folio.Text
