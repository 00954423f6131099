import ShaderBuild.Log.Entry
import ShaderBuild.Log.Timestamp

/-!
# The Console Log

How an entry is shown on a console: when, how serious, from where, and what. A
place follows only if both the file and the line are known.

With color on, the severity and the source are painted. Paint ends with a
reset; a reset that is part of the painted text itself would end it early, so
the color is put on again behind each of these.

## Main definitions

* `Console.Line`: What is shown.
* `Console.paint`: A text in color.
* `Console.render`: The text of a line.
-/

namespace ShaderBuild

namespace Console

/-- An entry as it is shown, with the moment and the place it was made at. -/
structure Line where
  severity : Severity
  source : String
  message : String
  nanos : Int
  file : Option String
  lineNumber : Option Nat
  deriving DecidableEq, Repr

/-- What a severity is called, in five columns. -/
def label : Severity → String
  | .trace => "TRACE"
  | .debug => "DEBUG"
  | .info => "INFO "
  | .warn => "WARN "
  | .error => "ERROR"

/-- The sequence that puts a color on. -/
def colorOn (code : String) : List Char :=
  '\x1b' :: '[' :: code.toList ++ ['m']

/-- The sequence that takes all colors off. -/
def reset : List Char :=
  ['\x1b', '[', '0', 'm']

/-- A text with a color put on again behind every reset in it. -/
def repaint (color : List Char) : List Char → List Char
  | [] => []
  | '\x1b' :: '[' :: '0' :: 'm' :: rest => reset ++ color ++ repaint color rest
  | c :: rest => c :: repaint color rest

/-- A text in color, or as it is. -/
def paint (colored : Bool) (code text : String) : String :=
  if colored then String.ofList (colorOn code ++ repaint (colorOn code) text.toList ++ reset)
  else text

/-- The color of a severity. -/
def color : Severity → String
  | .trace => "90"
  | .debug => "36"
  | .info => "32"
  | .warn => "33"
  | .error => "1;31"

/-- The color of a source. -/
def sourceColor : String := "94"

/-- The place a line names. -/
def Line.place (l : Line) : String :=
  match l.file, l.lineNumber with
  | some file, some n => s!" ({file}:{n})"
  | _, _ => ""

/-- The text of a line. -/
def render (colored : Bool) (l : Line) : String :=
  let severity := paint colored (color l.severity) (label l.severity)
  let source := paint colored sourceColor l.source
  s!"[{Timestamp.render l.nanos}] [{severity}] [{source}] {l.message}" ++ l.place ++ "\n"

end Console

end ShaderBuild
