import ShaderBuild.Proofs.Directive.Rendering
import ShaderBuild.Proofs.Directive.Tracking

/-!
# Cutting a Text between Lines

What may be concluded about a text from its two parts, each taken as a text of its own.

A cut between two lines loses three things. The second part no longer knows how many
lines stand in front of it, whether a comment was open there, and whether text that it
begins with had begun before. The first and the last are made up for afterwards, by
raising the line numbers and by merging the two pieces of text at the cut. Nowhere else
is anything merged, since the tokens of each part are merged already (`joinTokens_eq_merge`).
The comment cannot be made up for, so the first part has to leave none open, which is for
a reader of its characters to say.

Whether the first part fails does not depend on any of this. Its first malformed line is
the first of the whole.

## Main definitions

* `mergeTokens`: Two token lists one after the other, with the text at the cut merged.

## Theorems

* `joinTokens_eq_append`: Nothing is merged where text does not meet text.
* `joinTokens_eq_merge`: Merged tokens are only merged at the cut.
* `endsInCode_iff`: A reader of the characters says whether a comment is left open.
* `tokenize_of_parts`: The tokens and the errors of a whole are those of its parts.
-/

namespace ShaderBuild

/-- Two token lists one after the other. Text at the end of the first and text at the
    start of the second are one piece. -/
def mergeTokens (first second : List Token) : List Token :=
  match first.getLast?, second with
  | some (.text t), .text u :: rest => first.dropLast ++ .text (t ++ u) :: rest
  | _, _ => first ++ second

section Merging

theorem Merged.of_cons {token : Token} {rest : List Token} (h : Merged (token :: rest)) :
    Merged rest ∧ token ≠ .text [] ∧
      ∀ other ∈ rest.head?, token.line? ≠ none ∨ other.line? ≠ none := by
  obtain ⟨hnonempty, hapart⟩ := h
  obtain ⟨hfirst, hrest⟩ := List.isChain_cons.mp hapart
  exact ⟨⟨fun hmem => hnonempty (List.mem_cons_of_mem _ hmem), hrest⟩,
    fun heq => hnonempty (heq ▸ List.mem_cons_self), hfirst⟩

/-- Nothing is merged where text does not meet text. -/
theorem joinTokens_eq_append {first second : List Token} (h : Merged first)
    (hcut : ∀ last ∈ first.getLast?, ∀ next ∈ second.head?,
      last.line? ≠ none ∨ next.line? ≠ none) : joinTokens first second = first ++ second := by
  induction first with
  | nil => rfl
  | cons token rest ih =>
      obtain ⟨hrest, htoken, hapart⟩ := h.of_cons
      have hjoined : joinTokens rest second = rest ++ second := by
        refine ih hrest fun last hlast next hnext => hcut last ?_ next hnext
        rw [List.getLast?_cons, Option.mem_def.mp hlast]
        rfl
      change consToken token (joinTokens rest second) = token :: (rest ++ second)
      rw [hjoined]
      cases token with
      | text t =>
          -- What follows the text is the next token of its own list, or the cut.
          have hnext : ∀ other ∈ (rest ++ second).head?, other.line? ≠ none := by
            intro other hother
            cases rest with
            | nil => exact (hcut (.text t) rfl other hother).resolve_left (· rfl)
            | cons next others => exact (hapart other hother).resolve_left (· rfl)
          exact consText_eq_cons (fun hnil => htoken (congrArg Token.text hnil)) hnext
      | includeFile name line terminator => rfl
      | autoresolve name line => rfl

/-- Merged tokens are only merged at the cut. -/
theorem joinTokens_eq_merge {first second : List Token} (h : Merged first) :
    joinTokens first second = mergeTokens first second := by
  unfold mergeTokens
  split
  · next t u rest hlast =>
    obtain ⟨front, rfl⟩ := List.getLast?_eq_some_iff.mp hlast
    -- The piece in front of the cut takes in the one behind it, and nothing else meets.
    obtain ⟨hfront, -, hmeet⟩ := List.isChain_append.mp h.apart
    have hmerged : Merged front :=
      ⟨fun hmem => h.nonempty (List.mem_append_left _ hmem), hfront⟩
    have hjoined : joinTokens (front ++ [.text t]) (.text u :: rest) =
        joinTokens front (.text (t ++ u) :: rest) := by
      rw [joinTokens, List.foldr_append]
      rfl
    rw [hjoined, List.dropLast_concat]
    refine joinTokens_eq_append hmerged fun last hlast next _ => Or.inl ?_
    exact (hmeet last hlast (.text t) rfl).resolve_right (· rfl)
  · next hcut =>
    refine joinTokens_eq_append h fun last hlast next hnext => ?_
    -- The other case says that text does not meet text, which is all that is asked here.
    by_contra hboth
    obtain ⟨htext, htext'⟩ := not_or.mp hboth
    rw [not_not] at htext htext'
    cases last with
    | text t =>
        cases next with
        | text u =>
            obtain ⟨rest, rfl⟩ := List.head?_eq_some_iff.mp hnext
            exact hcut t u rest hlast rfl
        | includeFile name line terminator => cases htext'
        | autoresolve name line => cases htext'
    | includeFile name line terminator => cases htext
    | autoresolve name line => cases htext

end Merging

/-- A reader of the characters of a text says whether a comment is left open in it. -/
theorem endsInCode_iff {t : Text} {tokens : List Token} (haligned : LineAligned t)
    (h : tokenize t = .ok tokens) :
    EndsInCode t ↔ Mode.code.read (readable tokens (lines t)) ≠ .blockComment := by
  -- On whole lines the reader of the characters and the scan are in the same state.
  have hread := read_seen (fun line hmem => feed_notMem_body line hmem)
    (lineAligned_iff.mp haligned) h
  rw [readable_eq_seen h (List.append_nil _).symm, hread, EndsInCode]
  cases commentAfter false (lines t) <;> simp [Mode.ofBit]

/-- A text that is cut between two lines. The first part alone decides whether it fails.
    If a reader of it is in no block comment at the cut, the second part can be taken as
    a text of its own: its tokens follow those of the first, or its error is that of the
    whole, with the lines of the first part counted in. -/
theorem tokenize_of_parts {a : Text} (ha : LineAligned a) (b : Text) :
    (∀ bad, tokenize a = .error bad → tokenize (a ++ b) = .error bad) ∧
      ∀ first, tokenize a = .ok first →
        Mode.code.read (readable first (lines a)) ≠ .blockComment →
          (∀ second, tokenize b = .ok second → tokenize (a ++ b) =
            .ok (mergeTokens first (second.map (Token.raise (lines a).length)))) ∧
          ∀ bad, tokenize b = .error bad →
            tokenize (a ++ b) = .error (bad.raise (lines a).length) := by
  constructor
  -- What is scanned first fails first, with its line where it was.
  · intro bad hbad
    rw [tokenize, lines_append ha, scanLines_append]
    rw [tokenize] at hbad
    rw [hbad]
    rfl
  -- With no comment open at the cut the second part is scanned as if it began a file.
  · intro first hfirst hread
    have hcode : EndsInCode a := (endsInCode_iff ha hfirst).mpr hread
    have hwhole := tokenize_append ha hcode b
    rw [hfirst] at hwhole
    refine ⟨fun second hsecond => ?_, fun bad hbad => ?_⟩
    · rw [hsecond] at hwhole
      rw [hwhole, ← joinTokens_eq_merge (merged_of_scanLines hfirst)]
      rfl
    · rw [hbad] at hwhole
      exact hwhole

/-- Text meets text at the cut, behind a comment that is closed, and the second part
    breaks the grammar or not. -/
theorem tokenize_of_parts_cut_text :
    let a := "/* moon */ x\n".toList
    let b := "y\r\n#autoresolve Camera".toList
    let c := "y\r\n#autoresolve 1".toList
    LineAligned a ∧ tokenize a = .ok [.text a] ∧
      Mode.code.read (readable [.text a] (lines a)) ≠ .blockComment ∧
      tokenize (a ++ b) = .ok [.text "/* moon */ x\ny\r\n".toList, .autoresolve "Camera" 3] ∧
      tokenize (a ++ c) = .error ⟨3, .blockNameExpected⟩ ∧
      tokenize (c ++ ['\n'] ++ a) = .error ⟨2, .blockNameExpected⟩ := by
  intro a b c
  have ha : LineAligned a := by decide
  have hfirst : tokenize a = .ok [.text a] := rfl
  have hread : Mode.code.read (readable [.text a] (lines a)) ≠ .blockComment := by decide
  refine ⟨ha, hfirst, hread, ?_, ?_, ?_⟩
  · exact ((tokenize_of_parts ha b).2 _ hfirst hread).1
      [.text "y\r\n".toList, .autoresolve "Camera" 2] rfl
  · exact ((tokenize_of_parts ha c).2 _ hfirst hread).2 ⟨2, .blockNameExpected⟩ rfl
  · exact (tokenize_of_parts (a := c ++ ['\n']) (by decide) a).1 ⟨2, .blockNameExpected⟩ rfl

end ShaderBuild
