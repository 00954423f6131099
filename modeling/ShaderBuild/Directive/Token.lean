import ShaderBuild.Text.Basic

/-!
# Tokens

What a source file consists of once its directives have been read: stretches
of text that pass through unchanged, and the two directives.

Text is merged as far as it goes, so a file has one token list and not many
that only differ in where text was cut.

## Main definitions

* `Token`: A stretch of text or a directive.
* `consText`: Text put in front of a token list, merged with text already
  there.

## Theorems

* `consText_nil`: Putting no text in front changes nothing.
* `consText_append`: Text may be put in front in two parts.
-/

namespace ShaderBuild

/-- A stretch of text or a directive. Directives know the line they stand on,
    counted from one. -/
inductive Token where
  | text (content : Text)
  /-- An include, with the terminator of its line. -/
  | includeFile (name : String) (line : Nat) (terminator : Terminator)
  /-- A request to bind the uniform block `name` once the program is linked. -/
  | autoresolve (name : String) (line : Nat)
  deriving DecidableEq, Repr

/-- Text put in front of a token list, merged with text already there. -/
def consText (t : Text) : List Token → List Token
  | .text u :: rest => .text (t ++ u) :: rest
  | tokens => if t = [] then tokens else .text t :: tokens

@[simp] theorem consText_text (t u : Text) (rest : List Token) :
    consText t (.text u :: rest) = .text (t ++ u) :: rest := rfl

@[simp] theorem consText_nil (tokens : List Token) : consText [] tokens = tokens := by
  match tokens with
  | [] => rfl
  | .text u :: rest => rfl
  | .includeFile .. :: rest => rfl
  | .autoresolve .. :: rest => rfl

theorem consText_append (t u : Text) (tokens : List Token) :
    consText (t ++ u) tokens = consText t (consText u tokens) := by
  match tokens with
  | .text v :: rest => simp
  -- Empty text is dropped in front of a directive, so this is a case of its own.
  | [] => by_cases hu : u = [] <;> simp [consText, hu]
  | .includeFile .. :: rest => by_cases hu : u = [] <;> simp [consText, hu]
  | .autoresolve .. :: rest => by_cases hu : u = [] <;> simp [consText, hu]

end ShaderBuild
