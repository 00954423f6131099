import ShaderBuild.Proofs.Directive.Concatenation
import ShaderBuild.Proofs.Directive.Syntax

/-!
# The Scan of One Line

Everything that can become of a line, said once and with the grammar.

A line is plain text, or it is a directive with a name, or it breaks the grammar and
is the end of the scan. The two directives go through the same steps with different
readers, so they are one case here. What tells them apart is the token, and what they
leave of the line: an include takes its terminator with it and the other directive
does not.

The scan of many lines is the scan of each with the comment bit that the lines in
front have left, so this is all that the proofs about whole texts have to know.

## Main definitions

* `Keyword.token`, `Keyword.left`, `Token.line?`: The token of a directive, the text it
  leaves of its line, and the number of the line.
* `LineScan`: What the scan of one line can come to.

## Theorems

* `lineScan`: It comes to one of these.
* `Opens.unique`, `Keyword.Names.unique`: A line is a directive in one way.
* `commentAfter_of_opens`, `commentAfter_of_plain`: The comment bit behind a line.
-/

namespace ShaderBuild

/-- The token of a directive. -/
def Keyword.token : Keyword → String → Nat → Terminator → Token
  | .includeFile, name, n, terminator => .includeFile name n terminator
  | .autoresolve, name, n, _ => .autoresolve name n

/-- What a directive leaves of its line as text. -/
def Keyword.left : Keyword → Line → Text
  | .includeFile, _ => []
  | .autoresolve, line => line.terminator.text

/-- The line a directive stands on. -/
def Token.line? : Token → Option Nat
  | .text _ => none
  | .includeFile _ line _ => some line
  | .autoresolve _ line => some line

theorem line?_token (keyword : Keyword) (name : String) (n : Nat) (terminator : Terminator) :
    (keyword.token name n terminator).line? = some n := by
  cases keyword <;> rfl

theorem Opens.unique {keyword keyword' : Keyword} {rest rest' body : Text}
    (h : Opens keyword rest body) (h' : Opens keyword' rest' body) :
    keyword = keyword' ∧ rest = rest' := by
  have heq := (directive?_eq_some_iff.mpr h).symm.trans (directive?_eq_some_iff.mpr h')
  exact Prod.mk.inj (Option.some.inj heq)

theorem Keyword.Names.unique {keyword : Keyword} {rest : Text} {name name' : String}
    (h : keyword.Names name.toList rest) (h' : keyword.Names name'.toList rest) : name = name' :=
  Except.ok.inj ((read_eq_ok_iff.mpr h).symm.trans (read_eq_ok_iff.mpr h'))

/-- What the scan of one line can come to. -/
inductive LineScan (commented : Bool) (n : Nat) (line : Line) : Except Malformed (List Token) → Prop
  | plain (h : ∀ keyword rest, commented = false → ¬ Opens keyword rest line.body) :
      LineScan commented n line (.ok (consText line.text []))
  | directive {keyword : Keyword} {rest : Text} {name : String} (hcode : commented = false)
      (hopens : Opens keyword rest line.body) (hname : keyword.Names name.toList rest) :
      LineScan commented n line
        (.ok (keyword.token name n line.terminator :: consText (keyword.left line) []))
  | malformed {keyword : Keyword} {rest : Text} {defect : Defect} (hcode : commented = false)
      (hopens : Opens keyword rest line.body) (hname : ∀ name, ¬ keyword.Names name rest) :
      LineScan commented n line (.error ⟨n, defect⟩)

/-- The scan of one line comes to one of these. -/
theorem lineScan {commented : Bool} {n : Nat} {line : Line} {result : Except Malformed (List Token)}
    (h : scanLines commented n [line] = result) : LineScan commented n line result := by
  subst h
  cases commented with
  | true => exact .plain nofun
  | false =>
      -- What a reader rejects has no name in it, since it accepts all that have one.
      have hbad : ∀ {keyword : Keyword} {rest : Text} {defect : Defect},
          keyword.read rest = .error defect → ∀ name, ¬ keyword.Names name rest := by
        intro keyword rest defect hread name hname
        rw [← String.toList_ofList (l := name), ← read_eq_ok_iff, hread] at hname
        cases hname
      simp only [scanLines, Bool.false_eq_true, if_false]
      -- The scan asks for a directive first, and for its argument only if there is one.
      cases hdirective : directive? line.body with
      | none =>
          refine .plain fun keyword rest _ hopens => ?_
          rw [directive?_eq_some_iff.mpr hopens] at hdirective
          cases hdirective
      | some found =>
          obtain ⟨keyword, rest⟩ := found
          have hopens := directive?_eq_some_iff.mp hdirective
          cases keyword with
          | includeFile =>
              dsimp only
              cases hread : readInclude rest with
              | error defect => exact .malformed rfl hopens (hbad hread)
              | ok name => exact .directive rfl hopens (readInclude_eq_ok_iff.mp hread)
          | autoresolve =>
              dsimp only
              cases hread : readAutoresolve rest with
              | error defect => exact .malformed rfl hopens (hbad hread)
              | ok name => exact .directive rfl hopens (readAutoresolve_eq_ok_iff.mp hread)

/-- A directive leaves no block comment open. -/
theorem commentAfter_of_opens {line : Line} {keyword : Keyword} {rest : Text}
    (h : Opens keyword rest line.body) : commentAfter false [line] = false := by
  rw [commentAfter, if_neg Bool.false_ne_true, directive?_eq_some_iff.mpr h]
  rfl

/-- Any other line is followed character by character. -/
theorem commentAfter_of_plain {commented : Bool} {line : Line}
    (h : ∀ keyword rest, commented = false → ¬ Opens keyword rest line.body) :
    commentAfter commented [line] = inComment commented line.body := by
  cases commented with
  | true => rfl
  | false =>
      have hnone : directive? line.body = none := by
        -- Any directive that were found would open the line, which is ruled out.
        refine Option.eq_none_iff_forall_not_mem.mpr fun found hfound => ?_
        exact h found.1 found.2 rfl (directive?_eq_some_iff.mp hfound)
      simp [commentAfter, hnone]

end ShaderBuild
