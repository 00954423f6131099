import ShaderBuild.Proofs.Directive.Inert

/-!
# Reading Tokens with Comments in Mind

What the tokens of a file still tell about its lines.

Tokens say nothing of comments. But a token list that a scan has made knows more
than an arbitrary one: where a directive stands no block comment is open, the
text between two directives has no directive in it, and whatever comes before a
token ends a line. `Reads` is exactly that knowledge, with the comment state
before and after the tokens, so that proofs about what becomes of the tokens
never go back to the lines.

The rest of a token list has it as well. So it can be carried along while a file
is being read, whatever is read in between.

## Main definitions

* `Reads`: Tokens as a scan reads them, by the comment state around them.

## Theorems

* `Reads.consText`: Text may be put in front in several parts.
* `reads_of_scanLines`, `reads_of_tokenize`: A scan reads tokens so.
-/

namespace ShaderBuild

/-- Tokens as a scan reads them, given whether a block comment is open before and
    after them. -/
inductive Reads : Bool → List Token → Bool → Prop where
  | done {commented : Bool} : Reads commented [] commented
  | text {commented final : Bool} {t : Text} {rest : List Token}
      (inert : Inert commented (lines t)) (aligned : rest ≠ [] → LineAligned t)
      (after : Reads (openAfter commented (lines t)) rest final) :
    Reads commented (.text t :: rest) final
  | includeFile {final : Bool} {name : String} {line : Nat} {terminator : Terminator}
      {rest : List Token} (ended : rest ≠ [] → terminator ≠ .none)
      (after : Reads false rest final) :
    Reads false (.includeFile name line terminator :: rest) final
  | autoresolve {final : Bool} {name : String} {line : Nat} {rest : List Token}
      (after : Reads false rest final) : Reads false (.autoresolve name line :: rest) final

/-- No block comment is open before a directive. -/
theorem Reads.eq_false_of_directive {commented final : Bool} {token : Token} {rest : List Token}
    (h : Reads commented (token :: rest) final) (hdirective : ∀ t, token ≠ .text t) :
    commented = false := by
  cases h with
  | text => exact absurd rfl (hdirective _)
  | includeFile => rfl
  | autoresolve => rfl

/-- Text may be put in front of tokens that are read after it. -/
theorem Reads.consText {commented final : Bool} {t : Text} {tokens : List Token}
    (inert : Inert commented (lines t)) (aligned : tokens ≠ [] → LineAligned t)
    (after : Reads (openAfter commented (lines t)) tokens final) :
    Reads commented (consText t tokens) final := by
  rcases consText_cases t tokens with ⟨u, rest, rfl⟩ | rfl | hcons
  · -- Text was there already, and the two are one piece.
    have ht : LineAligned t := aligned (List.cons_ne_nil _ _)
    have hlines : lines (t ++ u) = lines t ++ lines u := lines_append ht u
    generalize hmiddle : openAfter commented (lines t) = middle at after
    cases after with
    | text inert' aligned' after' =>
        rw [consText_text]
        refine Reads.text ?_ (fun hrest => ht.append (aligned' hrest)) ?_
        · rw [hlines, inert_append_iff, hmiddle]
          exact ⟨inert, inert'⟩
        · rw [hlines, openAfter_append, hmiddle]
          exact after'
  · rw [consText_nil]
    exact after
  · rw [hcons]
    exact Reads.text inert aligned after

/-- Only outside comments is a line looked at for a directive. -/
theorem eq_false_of_directive? {commented : Bool} {body : Text} {found : Keyword × Text}
    (h : (if commented then none else directive? body) = some found) : commented = false := by
  cases commented with
  | false => rfl
  | true => cases h

/-- A scan reads tokens with the comment state that it follows itself. -/
theorem reads_of_scanLines {commented : Bool} {n : Nat} {ls : List Line} {tokens : List Token}
    {t : Text} (hlines : lines t = ls) (h : scanLines commented n ls = .ok tokens) :
    Reads commented tokens (commentAfter commented ls) := by
  -- The text is there only to say that these are lines as a text has them.
  induction ls generalizing commented n tokens t with
  | nil =>
      obtain rfl := Except.ok.inj h
      exact Reads.done
  | cons line rest ih =>
      obtain ⟨u, -, hline, hrest, hended⟩ := lines_eq_cons hlines
      -- Tokens come from lines, so where some follow the line has to be ended.
      have hended' : ∀ {commented : Bool} {after : List Token},
          scanLines commented (n + 1) rest = .ok after → after ≠ [] → line.terminator ≠ .none := by
        intro commented after hafter hne
        refine hended fun hnil => hne ?_
        rw [hnil] at hafter
        exact (Except.ok.inj hafter).symm
      -- The cases are those of the scan: text, an include, a request. A line that breaks the
      -- grammar leaves no tokens.
      rw [scanLines] at h
      rw [commentAfter]
      split at h
      · next hplain =>
        obtain ⟨after, hafter, rfl⟩ := map_eq_ok_iff.mp h
        rw [hplain]
        -- Text is merged with the text of the lines below, which is why `Reads.consText` is needed.
        refine Reads.consText ?_ (fun hne => Or.inr (getLast?_text (hended' hafter hne) _)) ?_
        · rw [hline]
          refine ⟨fun hcode => ?_, trivial⟩
          rw [hcode] at hplain
          exact hplain
        · rw [hline]
          exact ih hrest hafter
      · next text hinclude =>
        obtain rfl := eq_false_of_directive? hinclude
        rw [hinclude]
        split at h
        · cases h
        · obtain ⟨after, hafter, rfl⟩ := map_eq_ok_iff.mp h
          exact Reads.includeFile (hended' hafter) (ih hrest hafter)
      · next text hautoresolve =>
        obtain rfl := eq_false_of_directive? hautoresolve
        rw [hautoresolve]
        split at h
        · cases h
        · -- What is left of the line is its terminator.
          obtain ⟨after, hafter, rfl⟩ := map_eq_ok_iff.mp h
          refine Reads.autoresolve (Reads.consText (inert_lines_terminator _ _) ?_ ?_)
          · intro hne
            exact Or.inr (getLast?_text (hended' hafter hne) [])
          · rw [openAfter_lines_terminator]
            exact ih hrest hafter

theorem reads_of_tokenize {t : Text} {tokens : List Token} (h : tokenize t = .ok tokens) :
    Reads false tokens (commentAfter false (lines t)) :=
  reads_of_scanLines rfl h

end ShaderBuild
