import ShaderBuild.Text.Basic

/-!
# Block Comments across Lines

A directive counts only where the compiler would read code, so a scan of the
file has to know at the start of each line whether a block comment is open.
One bit is enough: a line comment ends with its line.

The two-character marks are consumed as pairs. The slash that closes a comment
cannot open the next one, and the star that opens a comment cannot close it.

## Main definitions

* `inComment`: Whether a block comment is open after a line.

## Theorems

* `inComment_of_no_slash`: Without a slash nothing opens or closes.
-/

namespace ShaderBuild

/-- Whether a block comment is open after the body of a line, given whether one
    is open before it. -/
def inComment : Bool → Text → Bool
  | isOpen, [] => isOpen
  | true, '*' :: '/' :: rest => inComment false rest
  | true, _ :: rest => inComment true rest
  | false, '/' :: '/' :: _ => false
  -- What a line comment hides can open nothing, so the rest of the line is skipped.
  | false, '/' :: '*' :: rest => inComment true rest
  | false, _ :: rest => inComment false rest

theorem inComment_of_no_slash {t : Text} (h : '/' ∉ t) (isOpen : Bool) :
    inComment isOpen t = isOpen := by
  induction t with
  | nil => cases isOpen <;> rfl
  | cons c rest ih =>
      have hc : c ≠ '/' := fun hc => h (hc ▸ List.mem_cons_self)
      have hrest : '/' ∉ rest := fun hr => h (List.mem_cons_of_mem c hr)
      cases isOpen with
      | false => cases rest <;> simp_all [inComment]
      -- Closing takes two characters, so the one behind a star is looked at as well.
      | true =>
          cases rest with
          | nil => simp [inComment]
          | cons d others =>
              have hd : d ≠ '/' := fun hd => hrest (hd ▸ List.mem_cons_self)
              simp_all [inComment]

end ShaderBuild
