/-!
# Source Text and Its Lines

Shader source is handled as a list of characters, so that every scanner is a
recursion on the text itself and every fact about one is an induction.

A line is a body and a terminator. The two are kept apart because directives
are read from the body alone, while the terminator has to survive: it is what
keeps line numbers in the flattened output equal to those of the input. A
carriage return belongs to the terminator only when a line feed follows it;
anywhere else it is an ordinary character of the body.

## Main definitions

* `Text`: Source text.
* `Terminator`: How a line ends.
* `Line`: A body with its terminator.
* `lines`: The lines of a text.

## Theorems

* `text_lines`: The lines of a text, written one after the other, are the text.
* `terminator_ne_none`: Only the last line can lack a terminator.
-/

namespace ShaderBuild

/-- Source text, character by character. -/
abbrev Text := List Char

/-- How a line ends. The last line of a text may end with nothing at all. -/
inductive Terminator where
  | none
  | lineFeed
  | carriageReturnLineFeed
  deriving DecidableEq, Repr

/-- The characters a terminator stands for. -/
def Terminator.text : Terminator → Text
  | .none => []
  | .lineFeed => ['\n']
  | .carriageReturnLineFeed => ['\r', '\n']

/-- One line of a text. -/
structure Line where
  body : Text
  terminator : Terminator
  deriving DecidableEq, Repr

/-- The characters of a line, terminator included. -/
def Line.text (line : Line) : Text :=
  line.body ++ line.terminator.text

/-- Put one more character in front of the first line. -/
def consBody (c : Char) : List Line → List Line
  | [] => [⟨[c], .none⟩]
  | line :: rest => ⟨c :: line.body, line.terminator⟩ :: rest

/-- The lines of a text. A text that ends with a terminator has no empty line
    after it, and the empty text has no line. -/
def lines : Text → List Line
  | [] => []
  | '\n' :: rest => ⟨[], .lineFeed⟩ :: lines rest
  | '\r' :: '\n' :: rest => ⟨[], .carriageReturnLineFeed⟩ :: lines rest
  | c :: rest => consBody c (lines rest)

theorem text_consBody (c : Char) (ls : List Line) :
    (consBody c ls).flatMap Line.text = c :: ls.flatMap Line.text := by
  cases ls with
  | nil => rfl
  | cons line rest => simp [consBody, Line.text]

theorem text_lines (t : Text) : (lines t).flatMap Line.text = t := by
  fun_induction lines t with
  | case1 => rfl
  | case2 rest ih => simp [Line.text, Terminator.text, ih]
  | case3 rest ih => simp [Line.text, Terminator.text, ih]
  | case4 c rest _ _ ih => rw [text_consBody, ih]

theorem terminator_ne_none {t : Text} {before after : List Line} {line : Line}
    (h : lines t = before ++ line :: after) (hafter : after ≠ []) :
    line.terminator ≠ .none := by
  -- The cases are those of `lines`: the first line is whole by itself, or has to be completed.
  fun_induction lines t generalizing before line with
  | case1 => simp at h
  | case2 rest ih =>
      cases before with
      | nil => simp [← (List.cons.inj h).1]
      | cons b bs => exact ih (List.cons.inj h).2
  | case3 rest ih =>
      cases before with
      | nil => simp [← (List.cons.inj h).1]
      | cons b bs => exact ih (List.cons.inj h).2
  | case4 c rest _ _ ih =>
      cases hrest : lines rest with
      | nil =>
          rw [hrest] at h
          cases before with
          | nil => exact absurd (List.cons.inj h).2.symm hafter
          | cons b bs => simp [consBody] at h
      | cons first others =>
          rw [hrest] at h ih
          cases before with
          | nil =>
              -- The first line only gained a character; its end is the old one.
              obtain ⟨rfl, rfl⟩ := List.cons.inj h
              exact @ih [] first rfl
          | cons b bs =>
              exact @ih (first :: bs) line (congrArg (first :: ·) (List.cons.inj h).2)

end ShaderBuild
