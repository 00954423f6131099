import Mathlib.Order.Bounds.Basic
import ShaderBuild.Proofs.Directive.Comments

/-!
# Which Directives Are Recognized

The tokens of a text against the grammar of directives.

A line is a candidate if a reader of the whole text comes to its start outside block
comments and it begins with the sign and a keyword. This says nothing of what stands
behind the keyword, so a candidate can break the grammar, and then the whole text is
rejected at the first line that does. A text without such a line is accepted, and its
directives are the candidates.

Where a comment is open is decided by the lines in front. Behind a line that breaks
the grammar the scan has no say in it any more, but such a line is never the first.
So the two accounts of comments have to agree only over lines that the scan accepts.

## Main definitions

* `IsDirective`: A line is a directive for the scan.
* `Candidate`, `IllFormed`: A line is a candidate, and breaks the grammar.

## Theorems

* `mem_scanLines_iff`: The directives that a scan finds.
* `exists_of_scanLines_error`: The line at which a scan fails.
* `names_of_scanLines`: A scan that succeeds has met well-formed candidates only.
* `candidate_iff`: Which lines of an accepted text are candidates, for the scan.
* `tokenize_recognizes`: A text is accepted by the grammar, with the candidates as
  directives.
-/

namespace ShaderBuild

/-- Line `n` of a text begins like a directive where a reader of the whole text is
    outside block comments. It goes on with `rest`. -/
def Candidate (t : Text) (n : Nat) (keyword : Keyword) (rest : Text) (terminator : Terminator) :
    Prop :=
  ∃ before body after, lines t = before ++ ⟨body, terminator⟩ :: after ∧ n = before.length + 1 ∧
    Mode.code.read (seen before) ≠ .blockComment ∧ Opens keyword rest body

/-- Line `n` of a text is a candidate that breaks the grammar. -/
def IllFormed (t : Text) (n : Nat) : Prop :=
  ∃ keyword rest terminator, Candidate t n keyword rest terminator ∧
    ∀ name, ¬ keyword.Names name rest

section Tokens

/-- Text put in front brings no directive. -/
theorem mem_consText_iff {token : Token} {n : Nat} (htoken : token.line? = some n) (t : Text)
    (tokens : List Token) : token ∈ consText t tokens ↔ token ∈ tokens := by
  have htext : ∀ u, token ≠ .text u := by
    rintro u rfl
    cases htoken
  -- Merged or not, what is put in front is text, and the token is none.
  rcases consText_cases t tokens with ⟨u, rest, rfl⟩ | rfl | hcons
  · rw [consText_text, List.mem_cons, List.mem_cons, or_iff_right (htext _), or_iff_right (htext _)]
  · rw [consText_nil]
  · rw [hcons, List.mem_cons, or_iff_right (htext _)]

/-- The directives of tokens put together are those of both. -/
theorem mem_joinTokens_iff {token : Token} {n : Nat} (htoken : token.line? = some n)
    (first second : List Token) :
    token ∈ joinTokens first second ↔ token ∈ first ∨ token ∈ second := by
  induction first with
  | nil => simp [joinTokens]
  | cons other rest ih =>
      cases other with
      | text t =>
          change token ∈ consText t (joinTokens rest second) ↔ _
          rw [mem_consText_iff htoken, ih, List.mem_cons, or_iff_right (a := token = _)]
          rintro rfl
          cases htoken
      | includeFile name line terminator =>
          change token ∈ _ :: joinTokens rest second ↔ _
          rw [List.mem_cons, ih, List.mem_cons, or_assoc]
      | autoresolve name line =>
          change token ∈ _ :: joinTokens rest second ↔ _
          rw [List.mem_cons, ih, List.mem_cons, or_assoc]

@[simp] theorem filterMap_line?_consText (t : Text) (tokens : List Token) :
    (consText t tokens).filterMap Token.line? = tokens.filterMap Token.line? := by
  rcases consText_cases t tokens with ⟨u, rest, rfl⟩ | rfl | hcons
  · rfl
  · rw [consText_nil]
  · rw [hcons]
    rfl

/-- The lines of the directives in tokens put together. -/
theorem filterMap_line?_joinTokens (first second : List Token) :
    (joinTokens first second).filterMap Token.line? =
      first.filterMap Token.line? ++ second.filterMap Token.line? := by
  induction first with
  | nil => rfl
  | cons token rest ih =>
      cases token with
      -- Text has no line of its own, so it may be merged without a trace.
      | text t => exact (filterMap_line?_consText t _).trans ih
      | includeFile name line terminator => exact congrArg (line :: ·) ih
      | autoresolve name line => exact congrArg (line :: ·) ih

end Tokens

section Scan

/-- A line is a directive and `token` is its token, given the lines in front of it and
    the number of the first. -/
def IsDirective (commented : Bool) (n : Nat) (before : List Line) (line : Line) (token : Token) :
    Prop :=
  commentAfter commented before = false ∧ ∃ keyword rest name, Opens keyword rest line.body ∧
    keyword.Names name.toList rest ∧ token = keyword.token name (n + before.length) line.terminator

theorem isDirective_cons {commented : Bool} {n : Nat} {first line : Line} {before : List Line}
    {token : Token} : IsDirective commented n (first :: before) line token ↔
      IsDirective (commentAfter commented [first]) (n + 1) before line token := by
  rw [IsDirective, IsDirective, commentAfter_cons, List.length_cons,
    show n + (before.length + 1) = n + 1 + before.length by omega]

theorem mem_scanLines_singleton_iff {commented : Bool} {n m : Nat} {line : Line}
    {tokens : List Token} (h : scanLines commented n [line] = .ok tokens) {token : Token}
    (htoken : token.line? = some m) :
    token ∈ tokens ↔ IsDirective commented n [] line token := by
  cases lineScan h with
  -- The scan of one line has three ends, of which an error is ruled out here.
  | plain hplain =>
      rw [mem_consText_iff htoken]
      refine iff_of_false List.not_mem_nil ?_
      rintro ⟨hcode, keyword, rest, -, hopens, -⟩
      exact hplain keyword rest hcode hopens
  | directive hcode hopens hname =>
      rw [List.mem_cons, mem_consText_iff htoken, or_iff_left List.not_mem_nil]
      constructor
      · intro heq
        exact ⟨hcode, _, _, _, hopens, hname, heq⟩
      · rintro ⟨-, keyword, rest, name, hopens', hname', heq⟩
        obtain ⟨rfl, rfl⟩ := hopens.unique hopens'
        rw [hname.unique hname']
        exact heq

/-- The directives that a scan finds. -/
theorem mem_scanLines_iff {commented : Bool} {n m : Nat} {ls : List Line} {tokens : List Token}
    (h : scanLines commented n ls = .ok tokens) {token : Token} (htoken : token.line? = some m) :
    token ∈ tokens ↔ ∃ before line after, ls = before ++ line :: after ∧
      IsDirective commented n before line token := by
  induction ls generalizing commented n tokens with
  | nil =>
      obtain rfl := Except.ok.inj h
      simp
  | cons line rest ih =>
      obtain ⟨first, second, hfirst, hsecond, rfl⟩ := scanLines_cons_eq_ok_iff.mp h
      rw [mem_joinTokens_iff htoken, mem_scanLines_singleton_iff hfirst htoken, ih hsecond]
      -- The directive is on the first line, or the first line is one of those in front.
      constructor
      · rintro (hdirective | ⟨before, other, after, rfl, hdirective⟩)
        · exact ⟨[], line, rest, rfl, hdirective⟩
        · exact ⟨line :: before, other, after, rfl, isDirective_cons.mpr hdirective⟩
      · rintro ⟨before, other, after, hsplit, hdirective⟩
        cases before with
        | nil =>
            obtain ⟨rfl, -⟩ := List.cons.inj hsplit
            exact Or.inl hdirective
        | cons b bs =>
            obtain ⟨rfl, hrest⟩ := List.cons.inj hsplit
            exact Or.inr ⟨bs, other, after, hrest, isDirective_cons.mp hdirective⟩

/-- The line at which a scan fails is the first that it does not accept. -/
theorem exists_of_scanLines_error {commented : Bool} {n : Nat} {ls : List Line} {bad : Malformed}
    (h : scanLines commented n ls = .error bad) :
    ∃ before line after tokens, ls = before ++ line :: after ∧ bad.line = n + before.length ∧
      scanLines commented n before = .ok tokens ∧ commentAfter commented before = false ∧
      ∃ keyword rest, Opens keyword rest line.body ∧ ∀ name, ¬ keyword.Names name rest := by
  induction ls generalizing commented n with
  | nil => cases h
  | cons line rest ih =>
      rw [scanLines_cons] at h
      cases hfirst : scanLines commented n [line] with
      | error failure =>
          rw [hfirst] at h
          obtain rfl := Except.error.inj h
          cases lineScan hfirst with
          | malformed hcode hopens hname =>
              -- No line stands in front, so there is nothing to accept.
              exact ⟨[], line, rest, [], rfl, rfl, rfl, hcode, _, _, hopens, hname⟩
      | ok first =>
          -- The first line is accepted, so the scan fails where that of the others does.
          cases hsecond : scanLines (commentAfter commented [line]) (n + 1) rest with
          | ok second =>
              rw [hfirst, hsecond] at h
              cases h
          | error failure =>
              rw [hfirst, hsecond] at h
              obtain rfl := Except.error.inj h
              obtain ⟨before, other, after, found, rfl, hline, hbefore, hcode, hother⟩ := ih hsecond
              refine ⟨line :: before, other, after, joinTokens first found, rfl, ?_, ?_, ?_, hother⟩
              · rw [hline, List.length_cons]
                omega
              · rw [scanLines_cons, hfirst, hbefore]
                rfl
              · rw [commentAfter_cons, hcode]

/-- A scan that succeeds has met well-formed candidates only. -/
theorem names_of_scanLines {commented : Bool} {n : Nat} {before after : List Line} {line : Line}
    {tokens : List Token} (h : scanLines commented n (before ++ line :: after) = .ok tokens)
    (hcode : commentAfter commented before = false) {keyword : Keyword} {rest : Text}
    (hopens : Opens keyword rest line.body) : ∃ name : String, keyword.Names name.toList rest := by
  -- What is known of a line is known of the scan of it alone, so the lines are taken apart.
  obtain ⟨_, others, _, hothers, _⟩ := scanLines_append_eq_ok_iff.mp h
  obtain ⟨found, _, hfound, _, _⟩ := scanLines_cons_eq_ok_iff.mp hothers
  cases lineScan hfound with
  | plain hplain => exact absurd hopens (hplain keyword rest hcode)
  | directive _ hopens' hname =>
      obtain ⟨rfl, rfl⟩ := hopens.unique hopens'
      exact ⟨_, hname⟩

theorem line?_of_scanLines_singleton {commented : Bool} {n : Nat} {line : Line}
    {tokens : List Token} (h : scanLines commented n [line] = .ok tokens) :
    tokens.filterMap Token.line? = [] ∨ tokens.filterMap Token.line? = [n] := by
  cases lineScan h with
  | plain hplain => exact Or.inl (by simp)
  | directive hcode hopens hname => exact Or.inr (by simp [line?_token])

/-- The directives of a scan stand on its lines, in their order. -/
theorem line?_of_scanLines {commented : Bool} {n : Nat} {ls : List Line} {tokens : List Token}
    (h : scanLines commented n ls = .ok tokens) :
    (∀ m ∈ tokens.filterMap Token.line?, n ≤ m ∧ m < n + ls.length) ∧
      (tokens.filterMap Token.line?).Pairwise (· < ·) := by
  induction ls generalizing commented n tokens with
  | nil =>
      obtain rfl := Except.ok.inj h
      exact ⟨nofun, List.Pairwise.nil⟩
  | cons line rest ih =>
      obtain ⟨first, second, hfirst, hsecond, rfl⟩ := scanLines_cons_eq_ok_iff.mp h
      obtain ⟨hbounds, hsorted⟩ := ih hsecond
      -- At most one directive stands on the first line, and the others come later.
      have hlater : ∀ m ∈ second.filterMap Token.line?, n < m ∧ m < n + (line :: rest).length := by
        intro m hm
        have := hbounds m hm
        rw [List.length_cons]
        omega
      rw [filterMap_line?_joinTokens]
      -- The first line has brought no number, or its own.
      rcases line?_of_scanLines_singleton hfirst with hnone | hone
      · rw [hnone, List.nil_append]
        exact ⟨fun m hm => ⟨(hlater m hm).1.le, (hlater m hm).2⟩, hsorted⟩
      · rw [hone, List.singleton_append]
        refine ⟨List.forall_mem_cons.mpr ⟨⟨Nat.le_refl n, ?_⟩, fun m hm => ?_⟩,
          List.pairwise_cons.mpr ⟨fun m hm => (hlater m hm).1, hsorted⟩⟩
        · rw [List.length_cons]
          omega
        · exact ⟨(hlater m hm).1.le, (hlater m hm).2⟩

end Scan

section Recognition

/-- Where lines in front of another are accepted, the two accounts of comments agree. -/
theorem commentAfter_eq_false_iff {t : Text} {before after : List Line} {line : Line}
    (hlines : lines t = before ++ line :: after) {n : Nat} {tokens : List Token}
    (h : scanLines false n before = .ok tokens) :
    commentAfter false before = false ↔ Mode.code.read (seen before) ≠ .blockComment := by
  -- The lines in front have ended, so a reader of them is in no line comment.
  obtain ⟨hended, hfeed⟩ := of_lines_eq hlines
  rw [read_seen (fun line hmem => hfeed line (List.mem_append_left _ hmem)) hended h]
  cases commentAfter false before <;> simp [Mode.ofBit]

theorem scanLines_ok_of_append {commented : Bool} {n : Nat} {front back : List Line}
    {tokens : List Token} (h : scanLines commented n (front ++ back) = .ok tokens) :
    ∃ first, scanLines commented n front = .ok first := by
  obtain ⟨first, _, hfirst, _, _⟩ := scanLines_append_eq_ok_iff.mp h
  exact ⟨first, hfirst⟩

/-- No line of a stretch that the scan accepts is a candidate that breaks the
    grammar. -/
theorem lt_of_illFormed {t : Text} {n : Nat} (h : IllFormed t n) {front back : List Line}
    (hlines : lines t = front ++ back) {tokens : List Token}
    (hfront : scanLines false 1 front = .ok tokens) : front.length < n := by
  obtain ⟨keyword, rest, terminator, ⟨before, body, after, hsplit, rfl, hmode, hopens⟩, hbad⟩ := h
  by_contra hle
  -- The line is one of the stretch then.
  have hwhole : before ++ [⟨body, terminator⟩] <+: lines t := by
    rw [hsplit]
    exact ⟨after, (List.append_cons before _ after).symm⟩
  have hstretch : front <+: lines t := by
    rw [hlines]
    exact List.prefix_append front back
  have hlength : (before ++ [(⟨body, terminator⟩ : Line)]).length ≤ front.length := by
    rw [List.length_append, List.length_singleton]
    omega
  obtain ⟨others, rfl⟩ := List.prefix_of_prefix_length_le hwhole hstretch hlength
  rw [← List.append_cons] at hfront
  obtain ⟨first, hbefore⟩ := scanLines_ok_of_append hfront
  obtain ⟨name, hname⟩ := names_of_scanLines hfront
    ((commentAfter_eq_false_iff hsplit hbefore).mpr hmode) hopens
  exact hbad _ hname

theorem illFormed_of_error {t : Text} {bad : Malformed} (h : tokenize t = .error bad) :
    IsLeast {n | IllFormed t n} bad.line := by
  obtain ⟨before, line, after, tokens, hlines, hline, hbefore, hcode, keyword, rest, hopens,
    hname⟩ := exists_of_scanLines_error h
  -- By position the line is a candidate, and by the lines accepted it is the least.
  rw [hline, Nat.add_comm]
  constructor
  · exact ⟨keyword, rest, line.terminator, ⟨before, line.body, after, hlines, rfl,
      (commentAfter_eq_false_iff hlines hbefore).mp hcode, hopens⟩, hname⟩
  · exact fun n hn => lt_of_illFormed hn hlines hbefore

/-- Whether a line of an accepted text is a candidate, for the scan of the lines in front
    of it. -/
theorem candidate_iff {t : Text} {tokens : List Token} (h : tokenize t = .ok tokens)
    {before after : List Line} {line : Line} (hlines : lines t = before ++ line :: after)
    {keyword : Keyword} {rest : Text} {terminator : Terminator} :
    Candidate t (before.length + 1) keyword rest terminator ↔
      commentAfter false before = false ∧ Opens keyword rest line.body ∧
        terminator = line.terminator := by
  obtain ⟨first, hfirst⟩ : ∃ first, scanLines false 1 before = .ok first := by
    rw [tokenize, hlines] at h
    exact scanLines_ok_of_append h
  have hcode := commentAfter_eq_false_iff hlines hfirst
  constructor
  · rintro ⟨others, body, after', hlines', hlength, hmode, hopens⟩
    -- The two splits have the same number of lines in front, so they are one.
    rw [hlines] at hlines'
    obtain ⟨rfl, hrest⟩ := List.append_inj hlines' (Nat.succ_inj.mp hlength)
    obtain ⟨rfl, -⟩ := List.cons.inj hrest
    exact ⟨hcode.mpr hmode, hopens, rfl⟩
  · rintro ⟨hbefore, hopens, rfl⟩
    exact ⟨before, line.body, after, hlines, rfl, hcode.mp hbefore, hopens⟩

theorem mem_tokenize_iff {t : Text} {tokens : List Token} (h : tokenize t = .ok tokens)
    {token : Token} {m : Nat} (htoken : token.line? = some m) :
    token ∈ tokens ↔ ∃ n keyword rest terminator name, Candidate t n keyword rest terminator ∧
      keyword.Names name.toList rest ∧ token = keyword.token name n terminator := by
  rw [mem_scanLines_iff h htoken]
  constructor
  · rintro ⟨before, line, after, hlines, hcode, keyword, rest, name, hopens, hname, rfl⟩
    exact ⟨before.length + 1, keyword, rest, line.terminator, name,
      (candidate_iff h hlines).mpr ⟨hcode, hopens, rfl⟩, hname, by rw [Nat.add_comm]⟩
  · rintro ⟨n, keyword, rest, terminator, name, hcandidate, hname, rfl⟩
    obtain ⟨before, body, after, hlines, rfl, -, hopens⟩ := id hcandidate
    obtain ⟨hcode, -, -⟩ := (candidate_iff h hlines).mp hcandidate
    exact ⟨before, ⟨body, terminator⟩, after, hlines, hcode, keyword, rest, name, hopens, hname,
      by rw [Nat.add_comm]⟩

/-- The directives of a text are recognized by their grammar. A text is rejected if and
    only if a candidate breaks it, at the first that does, and otherwise its directives
    are the candidates in their order, with their names and numbers. -/
theorem tokenize_recognizes (t : Text) :
    ((∃ bad, tokenize t = .error bad) ↔ ∃ n, IllFormed t n) ∧
      (∀ bad, tokenize t = .error bad → IsLeast {n | IllFormed t n} bad.line) ∧
      ∀ tokens, tokenize t = .ok tokens →
        (tokens.filterMap Token.line?).Pairwise (· < ·) ∧
        (∀ name n terminator, .includeFile name n terminator ∈ tokens ↔
          ∃ rest, Candidate t n .includeFile rest terminator ∧ IncludeName name.toList rest) ∧
        ∀ name n, .autoresolve name n ∈ tokens ↔
          ∃ rest terminator, Candidate t n .autoresolve rest terminator ∧
            BlockName name.toList rest := by
  refine ⟨⟨?_, ?_⟩, fun bad => illFormed_of_error, fun tokens h => ⟨?_, ?_, ?_⟩⟩
  · rintro ⟨bad, h⟩
    exact ⟨bad.line, (illFormed_of_error h).1⟩
  · rintro ⟨n, hn⟩
    cases h : tokenize t with
    | error bad => exact ⟨bad, rfl⟩
    | ok tokens =>
        -- Line `n` is one of the text, all of which the scan accepts.
        have hlt := lt_of_illFormed hn (List.append_nil _).symm h
        obtain ⟨keyword, rest, terminator, ⟨before, body, after, hsplit, rfl, -⟩, -⟩ := hn
        rw [hsplit, List.length_append, List.length_cons] at hlt
        omega
  · exact (line?_of_scanLines h).2
  · intro name n terminator
    -- Of the two keywords only one has tokens of this kind.
    rw [mem_tokenize_iff h rfl]
    constructor
    · rintro ⟨m, keyword, rest, ending, found, hcandidate, hname, htoken⟩
      cases keyword with
      | includeFile =>
          obtain ⟨rfl, rfl, rfl⟩ := Token.includeFile.inj htoken
          exact ⟨rest, hcandidate, hname⟩
      | autoresolve => cases htoken
    · rintro ⟨rest, hcandidate, hname⟩
      exact ⟨n, .includeFile, rest, terminator, name, hcandidate, hname, rfl⟩
  · intro name n
    -- Likewise, with the terminator left to the text behind the token.
    rw [mem_tokenize_iff h rfl]
    constructor
    · rintro ⟨m, keyword, rest, ending, found, hcandidate, hname, htoken⟩
      cases keyword with
      | includeFile => cases htoken
      | autoresolve =>
          obtain ⟨rfl, rfl⟩ := Token.autoresolve.inj htoken
          exact ⟨rest, ending, hcandidate, hname⟩
    · rintro ⟨rest, terminator, hcandidate, hname⟩
      exact ⟨n, .autoresolve, rest, terminator, name, hcandidate, hname, rfl⟩

end Recognition

end ShaderBuild
