import ShaderBuild.Text.Basic

/-!
# Reading Text from Bytes

One decoder serves both ways of reading a file. It turns bytes into a list of
units, each a character or a mark for bytes that are no part of one. A strict
reader refuses the text at the first mark, a lenient reader puts the
replacement character there.

The decoder works byte by byte and remembers only the character it is in the
middle of. A byte that cannot continue that character ends it with a mark and
is then looked at again as a possible first byte, so a mark always covers the
longest run of bytes that could still have become a character.

The bounds on the second byte are what exclude overlong forms, surrogates and
values past the last code point.

## Main definitions

* `Utf8.units`: Characters and marks, in order; a mark is `none`.
* `Utf8.decode?`: The text, if every byte is part of a character.
* `Utf8.decodeLossy`: The text with a replacement character for each mark.
-/

namespace ShaderBuild

namespace Utf8

/-- A character whose first bytes have been read: how many bytes are owed, the
    bounds on the next of them, and the bits gathered so far. -/
structure Pending where
  owed : Nat
  least : Nat
  greatest : Nat
  bits : Nat
  deriving DecidableEq, Repr

/-- The units completed by a byte that starts a character, and the character
    it leaves unfinished. -/
def start (b : Nat) : List (Option Char) × Option Pending :=
  if b < 0x80 then ([some (Char.ofNat b)], none)
  -- A continuation byte, or the start of an overlong form.
  else if b < 0xC2 then ([none], none)
  else if b < 0xE0 then ([], some ⟨1, 0x80, 0xBF, b - 0xC0⟩)
  else if b = 0xE0 then ([], some ⟨2, 0xA0, 0xBF, 0⟩)
  -- The second byte may not lead into the surrogates.
  else if b = 0xED then ([], some ⟨2, 0x80, 0x9F, 0xD⟩)
  else if b < 0xF0 then ([], some ⟨2, 0x80, 0xBF, b - 0xE0⟩)
  else if b = 0xF0 then ([], some ⟨3, 0x90, 0xBF, 0⟩)
  else if b < 0xF4 then ([], some ⟨3, 0x80, 0xBF, b - 0xF0⟩)
  -- The second byte may not lead past the last code point.
  else if b = 0xF4 then ([], some ⟨3, 0x80, 0x8F, 4⟩)
  else ([none], none)

/-- The units completed by the next byte, and the character it leaves
    unfinished. -/
def step : Option Pending → Nat → List (Option Char) × Option Pending
  | none, b => start b
  | some p, b =>
    if p.least ≤ b ∧ b ≤ p.greatest then
      let bits := p.bits * 0x40 + (b - 0x80)
      if p.owed ≤ 1 then ([some (Char.ofNat bits)], none)
      else ([], some ⟨p.owed - 1, 0x80, 0xBF, bits⟩)
    else (none :: (start b).1, (start b).2)

/-- The units of a byte sequence that continues an unfinished character. -/
def unitsAfter : Option Pending → List UInt8 → List (Option Char)
  | none, [] => []
  | some _, [] => [none]
  | p, b :: rest => (step p b.toNat).1 ++ unitsAfter (step p b.toNat).2 rest

/-- Characters and marks, in order; a mark is `none`. -/
def units (bytes : List UInt8) : List (Option Char) :=
  unitsAfter none bytes

/-- The text, if every byte is part of a character. -/
def decode? (bytes : List UInt8) : Option Text :=
  (units bytes).mapM id

/-- The text with a replacement character for each mark. -/
def decodeLossy (bytes : List UInt8) : Text :=
  (units bytes).map (·.getD '\uFFFD')

end Utf8

end ShaderBuild
