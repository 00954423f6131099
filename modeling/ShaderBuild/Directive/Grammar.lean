import ShaderBuild.Text.Space

/-!
# The Grammar of Directives

A line is a directive when its first visible character is a number sign and
the word after it is one of two keywords. Every other line that starts with a
number sign belongs to the shading language and is none of this library's
business.

After the keyword comes one argument, and after the argument nothing but white
space and comments. A block comment in this tail has to be closed on the line:
the lines after a directive are never affected by it.

The two directives differ in what has to stand between keyword and argument.
The name of an include is delimited, so nothing is needed; the name of a block
is a bare word, so a space or a tab has to set it off.

## Main definitions

* `Defect`: In which way a directive line breaks the grammar, and its wording.
* `Keyword`, `directive?`: Which directive a line is.
* `readTail`: The part of a line after the argument.
* `readInclude`, `readAutoresolve`: The names in the two directives.
-/

namespace ShaderBuild

/-- The two kinds of argument a directive can have. -/
inductive Argument where
  | includeName
  | blockName
  deriving DecidableEq, Repr

/-- What an argument is called in messages. -/
def Argument.description : Argument → String
  | .includeName => "include name"
  | .blockName => "uniform block name"

/-- In which way a directive line breaks the grammar. -/
inductive Defect where
  | includeNameExpected
  | includeNameUnterminated
  | includeNameEmpty
  | separatorExpected
  | blockNameExpected
  | commentUnterminated (after : Argument)
  | unexpected (rest : Text) (after : Argument)
  deriving DecidableEq, Repr

/-- The wording of a defect. -/
def Defect.message : Defect → String
  | .includeNameExpected => "expected \"name\" or <name> after #include"
  | .includeNameUnterminated => "unterminated include name"
  | .includeNameEmpty => "empty include name"
  | .separatorExpected => "expected whitespace after #autoresolve"
  | .blockNameExpected => "expected uniform block name after #autoresolve"
  | .commentUnterminated after => s!"unterminated block comment after {after.description}"
  | .unexpected rest after => s!"unexpected `{String.ofList rest}` after {after.description}"

/-- The word a text begins with, as long as it goes. -/
def leadingWord (t : Text) : Text :=
  t.takeWhile isWordChar

/-- A text without the word it begins with. -/
def afterWord (t : Text) : Text :=
  t.dropWhile isWordChar

/-- The words that make a line a directive. -/
inductive Keyword where
  | includeFile
  | autoresolve
  deriving DecidableEq, Repr

/-- The keyword a word is. -/
def Keyword.ofWord? (word : Text) : Option Keyword :=
  if word = ['i', 'n', 'c', 'l', 'u', 'd', 'e'] then some .includeFile
  else if word = ['a', 'u', 't', 'o', 'r', 'e', 's', 'o', 'l', 'v', 'e'] then some .autoresolve
  else none

/-- Which directive the body of a line is, with the text after its keyword. -/
def directive? (body : Text) : Option (Keyword × Text) :=
  match trimStart body with
  | '#' :: rest =>
    let rest := rest.dropWhile isBlank
    (Keyword.ofWord? (leadingWord rest)).map fun keyword => (keyword, afterWord rest)
  | _ => none

/-- Skip white space and block comments. The result starts with what is neither,
    and is `none` if a comment is not closed. The flag tells whether the text
    starts inside a comment. -/
def skipComments : Bool → Text → Option Text
  | false, [] => some []
  | false, '/' :: '*' :: rest => skipComments true rest
  | false, c :: rest => if isSpace c then skipComments false rest else some (c :: rest)
  | true, [] => none
  | true, '*' :: '/' :: rest => skipComments false rest
  | true, _ :: rest => skipComments true rest

/-- Check that nothing but white space and comments follows an argument. -/
def readTail (after : Argument) (tail : Text) : Except Defect Unit :=
  -- What is left is quoted in the message, without the white space at its end.
  match skipComments false (trimEnd tail) with
  | none => .error (.commentUnterminated after)
  | some [] => .ok ()
  | some ('/' :: '/' :: _) => .ok ()
  | some rest => .error (.unexpected rest after)

/-- The name up to its closing delimiter. -/
def readDelimited (close : Char) (text : Text) : Except Defect String :=
  let name := text.takeWhile (· ≠ close)
  match text.dropWhile (· ≠ close) with
  | [] => .error .includeNameUnterminated
  | _ :: tail =>
    if name.all isSpace then .error .includeNameEmpty
    else (readTail .includeName tail).map fun _ => String.ofList name

/-- The name in an include, from the text after the keyword. -/
def readInclude (text : Text) : Except Defect String :=
  match trimStart text with
  | '"' :: rest => readDelimited '"' rest
  | '<' :: rest => readDelimited '>' rest
  | _ => .error .includeNameExpected

/-- The name of a block, from a text that begins with it. -/
def readBlockName (text : Text) : Except Defect String :=
  match leadingWord text with
  | [] => .error .blockNameExpected
  | c :: rest =>
    if isWordStart c then
      (readTail .blockName (afterWord text)).map fun _ => String.ofList (c :: rest)
    else .error .blockNameExpected

/-- The name in an autoresolve directive, from the text after the keyword. -/
def readAutoresolve (text : Text) : Except Defect String :=
  match text with
  | [] => .error .blockNameExpected
  | c :: _ => if isBlank c then readBlockName (trimStart text) else .error .separatorExpected

end ShaderBuild
