import ShaderBuild.Proofs.Directive.Rendering
import ShaderBuild.Proofs.Include.Composition
import ShaderBuild.Proofs.Include.Simulation

/-!
# Sources That Include Nothing

A source without includes keeps its lines where they are.

Nothing is inlined, so the output is the version line and the text that the tokens let
through. The other directive is taken out of its line but leaves the terminator, and
that is what line numbers are counted by: every line is in the output at its own number
behind the version line, the lines of the directives as empty ones. Only a directive on
a last line without terminator leaves nothing behind, and no line comes after it.

## Main definitions

* `Token.requested?`: The block that a token asks for.

## Theorems

* `expandTokens_of_noIncludes`: Without includes an expansion is what passes through.
* `lines_blankedFrom_prefix`: Lines without their bodies are still the same lines.
* `tokenize_lossless`: Tokens lose nothing of a text, and without includes neither does
  a pass.
-/

namespace ShaderBuild

/-- The block that a token asks to have bound. -/
def Token.requested? : Token → Option String
  | .text _ => none
  | .includeFile .. => none
  | .autoresolve name _ => some name

/-- Without includes an expansion is what passes through. -/
theorem expandTokens_of_noIncludes {search : SearchPath} {tree : Tree} {ancestors : List Path}
    {path : Path} {tokens : List Token} (h : NoIncludes tokens) :
    expandTokens search tree ancestors path tokens =
      .ok ⟨tokens.flatMap Token.passed, tokens.filterMap Token.requested?, []⟩ := by
  -- Induction on the tokens: text and requests only put something in front.
  induction tokens with
  | nil =>
      rw [expandTokens]
      rfl
  | cons token rest ih =>
      have hrest := ih fun name line terminator hmem =>
        h name line terminator (List.mem_cons_of_mem token hmem)
      cases token with
      | text t =>
          rw [expandTokens, hrest]
          rfl
      | includeFile name line terminator =>
          exact absurd List.mem_cons_self (h name line terminator)
      | autoresolve name line =>
          rw [expandTokens, hrest]
          rfl

/-- The lines of a text are the same lines without some of their bodies. Nothing but an
    empty last line gets lost. -/
theorem lines_blankedFrom_prefix {t : Text} {ls : List Line} (hlines : lines t = ls) (n : Nat)
    (numbers : List Nat) : lines ((blankedFrom n numbers ls).flatMap Line.text) <+:
      blankedFrom n numbers ls := by
  -- Induction on the lines. `kept` is what is left of the first one: the line itself, or its
  -- terminator alone, which is no line at all if there is none.
  induction ls generalizing t n with
  | nil => exact List.nil_prefix
  | cons line rest ih =>
      obtain ⟨u, -, hline, hrest, hended⟩ := lines_eq_cons hlines
      rw [blankedFrom_cons, List.flatMap_cons]
      generalize hkept : (if n ∈ numbers then ⟨[], line.terminator⟩ else line) = kept
      have hterminator : kept.terminator = line.terminator := by
        rw [← hkept]
        split <;> rfl
      have hone : lines kept.text = [kept] ∨ line.terminator = .none ∧ lines kept.text = [] := by
        rw [← hkept]
        split
        · cases line.terminator with
          | none => exact Or.inr ⟨rfl, rfl⟩
          | lineFeed => exact Or.inl rfl
          | carriageReturnLineFeed => exact Or.inl rfl
        · exact Or.inl hline
      have happend := lines_append_of_ne_nil (s := kept.text)
        (t := (blankedFrom (n + 1) numbers rest).flatMap Line.text) fun hne => by
          -- Where lines follow, this one has ended.
          have hterminated := hended fun hnil => hne (by rw [hnil]; rfl)
          exact Or.inr (getLast?_text (hterminator ▸ hterminated) kept.body)
      rw [happend]
      rcases hone with hone | ⟨hnone, hlost⟩
      · rw [hone]
        exact (List.prefix_append_right_inj [kept]).mpr (ih hrest (n + 1))
      · have hlast : rest = [] := by
          by_contra hne
          exact hended hne hnone
        rw [hlost, hlast]
        exact List.nil_prefix

/-- Tokens lose nothing of a text and invent nothing. Without includes a pass keeps every
    line at its number behind the version line, the lines of directives as empty ones. -/
theorem tokenize_lossless {t : Text} {tokens : List Token} (h : tokenize t = .ok tokens) :
    tokens.flatMap (Token.source (lines t)) = t ∧
      (tokens.filterMap Token.line?).Pairwise (· < ·) ∧
      (∀ n ∈ tokens.filterMap Token.line?, 1 ≤ n ∧ n ≤ (lines t).length) ∧ Merged tokens ∧
      (NoIncludes tokens → ∀ (f : Flattener) (path : Path), ∃ text,
        (f.source path t).value =
            .ok ⟨f.version ++ text, tokens.filterMap Token.requested?, []⟩ ∧
          text = (blankedFrom 1 (tokens.filterMap Token.line?) (lines t)).flatMap Line.text ∧
          lines text <+: blankedFrom 1 (tokens.filterMap Token.line?) (lines t)) := by
  obtain ⟨hbounds, hsorted⟩ := line?_of_scanLines h
  -- The parts are those of the scan; only the last one is about a pass.
  refine ⟨?_, hsorted, fun n hn => ?_, merged_of_scanLines h, fun hincludes f path => ?_⟩
  · have hsource := @flatMap_source false [] _ _ h
    rwa [List.nil_append, text_lines] at hsource
  · have := hbounds n hn
    omega
  · refine ⟨_, (f.value_source_ok_iff path t).mpr ⟨_, expand_eq_ok_iff.mpr
      ⟨tokens, h, expandTokens_of_noIncludes hincludes⟩, rfl⟩, flatMap_passed h hincludes, ?_⟩
    rw [flatMap_passed h hincludes]
    exact lines_blankedFrom_prefix rfl 1 _

/-- A directive between two lines. Its terminator is all that is left of it. -/
theorem tokenize_lossless_one_directive :
    let t := "a /* # */\n#autoresolve Camera // view\r\nb".toList
    let tokens : List Token :=
      [.text "a /* # */\n".toList, .autoresolve "Camera" 2, .text "\r\nb".toList]
    tokenize t = .ok tokens ∧ NoIncludes tokens ∧
      tokens.flatMap (Token.source (lines t)) = t ∧
      ∀ (f : Flattener) (path : Path), ∃ text,
        (f.source path t).value = .ok ⟨f.version ++ text, ["Camera"], []⟩ ∧
          text = "a /* # */\n\r\nb".toList := by
  intro t tokens
  have htokens : tokenize t = .ok tokens := rfl
  have hincludes : NoIncludes tokens := by
    intro name line terminator hmem
    simp [tokens] at hmem
  obtain ⟨hsource, -, -, -, hpass⟩ := tokenize_lossless htokens
  refine ⟨htokens, hincludes, hsource, fun f path => ?_⟩
  obtain ⟨text, hvalue, htext, -⟩ := hpass hincludes f path
  exact ⟨text, hvalue, htext⟩

end ShaderBuild
