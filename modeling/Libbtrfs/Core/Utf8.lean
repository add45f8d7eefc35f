import Libbtrfs.Core.Bytes

/-! Text made from bytes that need not be UTF-8: what is no character becomes U+FFFD. -/

namespace Libbtrfs

/-- The ranges of the bytes that follow the first byte of a character, if it is the first of one. -/
def tailRanges (first : UInt8) : Option (List (UInt8 × UInt8)) :=
  if first < 0x80 then some []
  else if first < 0xC2 then none
  else if first < 0xE0 then some [(0x80, 0xBF)]
  else if first = 0xE0 then some [(0xA0, 0xBF), (0x80, 0xBF)]
  else if first = 0xED then some [(0x80, 0x9F), (0x80, 0xBF)]
  else if first < 0xF0 then some [(0x80, 0xBF), (0x80, 0xBF)]
  else if first = 0xF0 then some [(0x90, 0xBF), (0x80, 0xBF), (0x80, 0xBF)]
  else if first < 0xF4 then some [(0x80, 0xBF), (0x80, 0xBF), (0x80, 0xBF)]
  else if first = 0xF4 then some [(0x80, 0x8F), (0x80, 0xBF), (0x80, 0xBF)]
  else none

/-- How many bytes go on with a character, up to the first that is out of its range. -/
def continued : List (UInt8 × UInt8) → Bytes → Nat
  | (low, high) :: ranges, byte :: rest =>
    if low ≤ byte ∧ byte ≤ high then continued ranges rest + 1 else 0
  | _, _ => 0

/-- U+FFFD, the replacement character. -/
def replacement : Bytes := [0xEF, 0xBF, 0xBD]

/-- The characters of a text, one for each unit of the fuel. -/
def lossyChars : Nat → Bytes → Bytes
  | 0, _ => []
  | _, [] => []
  | fuel + 1, first :: rest =>
    match tailRanges first with
    | none => replacement ++ lossyChars fuel rest
    | some ranges =>
      let taken := continued ranges rest
      -- A character that breaks off is replaced as a whole, as far as it goes.
      (if taken = ranges.length then first :: rest.take taken else replacement) ++
        lossyChars fuel (rest.drop taken)

/-- `String::from_utf8_lossy`. A text has no more characters than bytes. -/
def fromUtf8Lossy (text : Bytes) : Bytes := lossyChars text.length text

/-- A stray byte, a character that breaks off, and one that is whole. -/
example : fromUtf8Lossy [0x61, 0xFF, 0xE2, 0x82, 0x62, 0xC3, 0xA9] =
    [0x61, 0xEF, 0xBF, 0xBD, 0xEF, 0xBF, 0xBD, 0x62, 0xC3, 0xA9] := by decide

end Libbtrfs
