import ShaderBuild.Text.Basic

/-!
# Character Classes

The classes of characters that directives are read with. There are two kinds
of white space, and they are not interchangeable: the whole Unicode class
separates the parts of a directive, while only a space or a tab may stand
between the sign that opens it and its keyword.

## Main definitions

* `isSpace`: The Unicode property `White_Space`.
* `isBlank`: A space or a tab.
* `isWordChar`: A character of a keyword or of a block name.
* `trimStart`, `trimEnd`: A text without the white space at one end.

## Theorems

* `trimEnd_eq_nil_iff`: Nothing is kept of white space alone.
-/

namespace ShaderBuild

/-- The code points with the property `White_Space`, as closed ranges. -/
def spaceRanges : List (Nat × Nat) :=
  [(0x09, 0x0D), (0x20, 0x20), (0x85, 0x85), (0xA0, 0xA0), (0x1680, 0x1680), (0x2000, 0x200A),
    (0x2028, 0x2029), (0x202F, 0x202F), (0x205F, 0x205F), (0x3000, 0x3000)]

/-- White space in the Unicode sense. -/
def isSpace (c : Char) : Bool :=
  spaceRanges.any fun range => range.1 ≤ c.toNat && c.toNat ≤ range.2

/-- A space or a tab. -/
def isBlank (c : Char) : Bool :=
  c = ' ' || c = '\t'

/-- A character that may begin a block name: an ASCII letter or an underscore. -/
def isWordStart (c : Char) : Bool :=
  c.isAlpha || c = '_'

/-- A character that may continue a word: an ASCII letter, an ASCII digit or an
    underscore. -/
def isWordChar (c : Char) : Bool :=
  c.isAlphanum || c = '_'

/-- A text without the white space it starts with. -/
def trimStart (t : Text) : Text :=
  t.dropWhile isSpace

/-- A text without the white space it ends with. -/
def trimEnd : Text → Text
  | [] => []
  | c :: rest => if rest.all isSpace && isSpace c then [] else c :: trimEnd rest

/-- A text of white space alone is trimmed to nothing. -/
theorem trimEnd_eq_nil_iff {t : Text} : trimEnd t = [] ↔ t.all isSpace := by
  cases t with
  | nil => simp [trimEnd]
  | cons c rest => by_cases h : rest.all isSpace && isSpace c <;> grind [trimEnd]

end ShaderBuild
