import ShaderBuild.Proofs.Directive.Recognition

/-!
# Comments and the Tokens of a Text

The scan of an accepted text follows its comments as a reader of the whole text does.

What such a reader must not look into is said here with the tokens themselves: the
names of the includes that the text was found to have. Everything else is read,
character by character and across the ends of lines, including the directives that the
scan passes over without following their comments. That it may do so is the last part
of the result: behind a directive no block comment is open, not even for a reader of
the whole text.

## Main definitions

* `includesAt`, `readable`: What is read of some lines, given the tokens of their text.

## Theorems

* `readable_eq_seen`: The includes among the tokens are those that a reader of the
  whole text comes to.
* `tokenize_tracks_comments`: A line starts in a comment for the scan exactly if it
  does for a reader of the whole text.
-/

namespace ShaderBuild

/-- Some include among the tokens stands on line `n`. -/
def includesAt (tokens : List Token) (n : Nat) : Bool :=
  tokens.any fun
    | .includeFile _ line _ => line == n
    | _ => false

/-- What is read of the first lines of a text with the given tokens: all but the names
    of its includes. -/
def readable (tokens : List Token) (ls : List Line) : Text :=
  (ls.zipIdx 1).flatMap fun numbered => numbered.1.shown (includesAt tokens numbered.2)

theorem includesAt_iff {tokens : List Token} {n : Nat} : includesAt tokens n ↔
    ∃ name terminator, .includeFile name n terminator ∈ tokens := by
  rw [includesAt, List.any_eq_true]
  constructor
  · rintro ⟨token, hmem, hline⟩
    cases token with
    | text t => cases hline
    | includeFile name line terminator =>
        obtain rfl := beq_iff_eq.mp hline
        exact ⟨name, terminator, hmem⟩
    | autoresolve name line => cases hline
  · rintro ⟨name, terminator, hmem⟩
    exact ⟨_, hmem, beq_self_eq_true n⟩

theorem readable_concat (tokens : List Token) (ls : List Line) (line : Line) :
    readable tokens (ls ++ [line]) =
      readable tokens ls ++ line.shown (includesAt tokens (ls.length + 1)) := by
  simp [readable, List.zipIdx_append, Nat.add_comm]

section Tracking

variable {t : Text} {tokens : List Token} {before after : List Line} {line : Line}

/-- An include is found on a line exactly if a reader of the whole text comes to one. -/
theorem includesAt_eq (h : tokenize t = .ok tokens) (hlines : lines t = before ++ line :: after) :
    includesAt tokens (before.length + 1) =
      (decide (Mode.code.read (seen before) ≠ .blockComment) && decide line.IsInclude) := by
  -- Both sides say that the line is a candidate that the scan has accepted as an include.
  rw [← Bool.decide_and, Bool.eq_iff_iff, decide_eq_true_eq, includesAt_iff]
  constructor
  · rintro ⟨name, terminator, hmem⟩
    obtain ⟨n, keyword, rest, ending, found, ⟨before', body, after', hsplit, hn, hmode, hopens⟩,
      hname, htoken⟩ := (mem_tokenize_iff h rfl).mp hmem
    cases keyword with
    | autoresolve => cases htoken
    | includeFile =>
        obtain ⟨rfl, rfl, rfl⟩ := Token.includeFile.inj htoken
        -- The candidate stands on the same line.
        obtain ⟨rfl, hline⟩ := List.append_inj (hlines.symm.trans hsplit) (by omega)
        obtain ⟨rfl, rfl⟩ := List.cons.inj hline
        exact ⟨hmode, rest, _, hopens, hname⟩
  · rintro ⟨hmode, rest, name, hopens, hname⟩
    rw [← String.toList_ofList (l := name)] at hname
    exact ⟨String.ofList name, line.terminator, (mem_tokenize_iff h rfl).mpr
      ⟨_, .includeFile, rest, _, _, ⟨before, line.body, after, hlines, rfl, hmode, hopens⟩, hname,
        rfl⟩⟩

/-- The includes among the tokens are those that a reader of the whole text comes to. -/
theorem readable_eq_seen (h : tokenize t = .ok tokens) {front back : List Line}
    (hlines : lines t = front ++ back) : readable tokens front = seen front := by
  -- From the front, one more line at a time: each line is shown as the scan has taken it.
  induction front using List.reverseRecOn generalizing back with
  | nil => rfl
  | append_singleton ls line ih =>
      rw [List.append_assoc] at hlines
      rw [readable_concat, seen_concat, ih hlines, includesAt_eq h hlines]

/-- Behind the line of a directive no comment is open. -/
theorem commentAfter_of_directive (h : tokenize t = .ok tokens)
    (hlines : lines t = before ++ line :: after) {token : Token} (hmem : token ∈ tokens)
    (hline : token.line? = some (before.length + 1)) :
    commentAfter false (before ++ [line]) = false := by
  obtain ⟨before', line', after', hsplit, hcode, keyword, rest, name, hopens, -, rfl⟩ :=
    (mem_scanLines_iff h hline).mp hmem
  rw [line?_token, Option.some.injEq] at hline
  -- The number says which of the lines it is.
  obtain ⟨rfl, heq⟩ := List.append_inj (hlines.symm.trans hsplit) (by omega)
  obtain ⟨rfl, rfl⟩ := List.cons.inj heq
  rw [commentAfter_append, hcode, commentAfter_of_opens hopens]

/-- For every line of an accepted text, the scan goes on from it with the bit that says
    whether a reader of the whole text is in a block comment there. Where the line in
    front is a directive the reader is not. -/
theorem tokenize_tracks_comments (h : tokenize t = .ok tokens)
    (hlines : lines t = before ++ line :: after) :
    (tokenize t = do
      let first ← scanLines false 1 before
      let second ← scanLines (commentAfter false before) (1 + before.length) (line :: after)
      .ok (joinTokens first second)) ∧
    (commentAfter false before = true ↔
      Mode.code.read (readable tokens before) = .blockComment) ∧
    ∀ token ∈ tokens, token.line? = some (before.length + 1) →
      Mode.code.read (readable tokens (before ++ [line])) ≠ .blockComment := by
  have hscan : scanLines false 1 (before ++ line :: after) = .ok tokens := by
    rwa [tokenize, hlines] at h
  obtain ⟨hended, hfeed⟩ := of_lines_eq hlines
  -- The scan of the lines in front hands its bit over, and that bit is the one that the
  -- automaton is in where those lines end.
  refine ⟨?_, ?_, fun token hmem hline => ?_⟩
  · rw [tokenize, hlines, scanLines_append]
  · obtain ⟨first, hfirst⟩ := scanLines_ok_of_append hscan
    rw [readable_eq_seen h hlines, ← Bool.not_eq_false, commentAfter_eq_false_iff hlines hfirst,
      ne_eq, not_not]
  · rw [List.append_cons] at hscan
    obtain ⟨first, hfirst⟩ := scanLines_ok_of_append hscan
    have hread := endLine_read_seen hfeed (by rwa [List.dropLast_concat]) hfirst
    -- A directive is recognised outside comments and its own comments are closed, so the bit
    -- is clear behind it.
    rw [commentAfter_of_directive h hlines hmem hline] at hread
    rw [readable_eq_seen h (hlines.trans (List.append_cons _ _ _))]
    intro hblock
    rw [hblock] at hread
    cases hread

end Tracking

/-- The mark in the name of an include opens nothing, and the comment behind it is
    closed on its line. The next line opens one, and what looks like an include below
    it is none. -/
theorem tokenize_tracks_commented_include :
    let t := "#include \"sky/*\" /* air */\n/* moon\r\n#include <sun>\n*/".toList
    let tokens : List Token :=
      [.includeFile "sky/*" 1 .lineFeed, .text "/* moon\r\n#include <sun>\n*/".toList]
    let before : List Line := [⟨"#include \"sky/*\" /* air */".toList, .lineFeed⟩,
      ⟨"/* moon".toList, .carriageReturnLineFeed⟩]
    let line : Line := ⟨"#include <sun>".toList, .lineFeed⟩
    tokenize t = .ok tokens ∧ lines t = before ++ line :: [⟨"*/".toList, .none⟩] ∧
      commentAfter false before = true ∧
      (commentAfter false before = true ↔
        Mode.code.read (readable tokens before) = .blockComment) := by
  intro t tokens before line
  have htokens : tokenize t = .ok tokens := rfl
  have hlines : lines t = before ++ line :: [⟨"*/".toList, .none⟩] := rfl
  exact ⟨htokens, hlines, rfl, (tokenize_tracks_comments htokens hlines).2.1⟩

end ShaderBuild
