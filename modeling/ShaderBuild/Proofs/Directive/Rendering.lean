import Mathlib.Data.List.Chain
import ShaderBuild.Proofs.Directive.Recognition

/-!
# Tokens Against the Lines They Come From

Reading a text as tokens loses nothing of it and adds nothing to it.

A directive does not carry its own source, but it knows its line, so what it stood for
can be looked up among the lines of the text. Put in order, the text that passed
through and the sources of the directives are the text again. And there is only one
way to cut it: text is merged as far as it goes and never empty, so two tokens in a row
are never both text.

Both are facts about one line that hold of tokens put together, like everything that
is known of a scan.

## Main definitions

* `Token.source`: What a token stood for.
* `Merged`: Text is merged as far as it goes.
* `blankedFrom`: Some lines without their bodies.

## Theorems

* `flatMap_source`: The sources of the tokens are the text.
* `merged_of_scanLines`: A scan merges text.
* `flatMap_passed`: What passes through where no line is an include.
-/

namespace ShaderBuild

/-- What a token stood for, given the lines of its text. An include takes its whole line
    and the other directive leaves the terminator, which is text. -/
def Token.source (ls : List Line) : Token → Text
  | .text t => t
  | .includeFile _ line _ => ((ls[line - 1]?).map Line.text).getD []
  | .autoresolve _ line => ((ls[line - 1]?).map Line.body).getD []

/-- The text that a token lets through. -/
def Token.passed : Token → Text
  | .text t => t
  | .includeFile .. => []
  | .autoresolve .. => []

/-- Text is merged as far as it goes. -/
structure Merged (tokens : List Token) : Prop where
  nonempty : .text [] ∉ tokens
  apart : tokens.IsChain fun first second => first.line? ≠ none ∨ second.line? ≠ none

/-- Some lines, the first with number `n`, without the bodies of those with the given
    numbers. -/
def blankedFrom (n : Nat) (numbers : List Nat) (ls : List Line) : List Line :=
  (ls.zipIdx n).map fun numbered =>
    if numbered.2 ∈ numbers then ⟨[], numbered.1.terminator⟩ else numbered.1

section Source

/-- What tokens come to is added up, also where text is merged. -/
theorem flatMap_consText {f : Token → Text} (hf : ∀ t, f (.text t) = t) (t : Text)
    -- `consText` either grows the text in front, drops an empty text, or puts a new token there.
    (tokens : List Token) : (consText t tokens).flatMap f = t ++ tokens.flatMap f := by
  rcases consText_cases t tokens with ⟨u, rest, rfl⟩ | rfl | hcons
  · rw [consText_text, List.flatMap_cons, List.flatMap_cons, hf, hf, List.append_assoc]
  · rw [consText_nil, List.nil_append]
  · rw [hcons, List.flatMap_cons, hf]

theorem flatMap_joinTokens {f : Token → Text} (hf : ∀ t, f (.text t) = t)
    (first second : List Token) :
    (joinTokens first second).flatMap f = first.flatMap f ++ second.flatMap f := by
  induction first with
  | nil => rfl
  | cons token rest ih =>
      -- Only a text token goes through `consText`; the other two are put in front as they are.
      rw [List.flatMap_cons, List.append_assoc, ← ih]
      cases token with
      | text t =>
          rw [hf]
          exact flatMap_consText hf t _
      | includeFile name line terminator => rfl
      | autoresolve name line => rfl

theorem flatMap_source_singleton {commented : Bool} {n : Nat} {line : Line} {tokens : List Token}
    (h : scanLines commented n [line] = .ok tokens) {ls : List Line}
    (hline : ls[n - 1]? = some line) : tokens.flatMap (Token.source ls) = line.text := by
  cases lineScan h with
  -- A plain line is one text token, and its source is that text.
  | plain hplain =>
      rw [flatMap_consText fun _ => rfl, List.flatMap_nil, List.append_nil]
  | @directive keyword rest name hcode hopens hname =>
      rw [List.flatMap_cons, flatMap_consText fun _ => rfl, List.flatMap_nil, List.append_nil]
      -- An include stands for the whole line, an autoresolve for its body, and what the
      -- scan leaves as text, nothing or the terminator, makes up the difference.
      cases keyword with
      | includeFile => simp [Keyword.token, Keyword.left, Token.source, hline]
      | autoresolve => simp [Keyword.token, Keyword.left, Token.source, hline, Line.text]

/-- The sources of the tokens are the text of the lines. -/
theorem flatMap_source {commented : Bool} {before ls : List Line} {tokens : List Token}
    (h : scanLines commented (before.length + 1) ls = .ok tokens) :
    tokens.flatMap (Token.source (before ++ ls)) = ls.flatMap Line.text := by
  -- Induction on the lines. The lines already read stay in front, since the tokens are
  -- looked up by their numbers among all of them.
  induction ls generalizing commented before tokens with
  | nil =>
      obtain rfl := Except.ok.inj h
      rfl
  | cons line rest ih =>
      obtain ⟨first, second, hfirst, hsecond, rfl⟩ := scanLines_cons_eq_ok_iff.mp h
      -- The others are looked up among all lines too, with one more in front of them.
      have hrest := @ih (commentAfter commented [line]) (before ++ [line]) second
        (by simpa using hsecond)
      rw [← List.append_cons] at hrest
      rw [flatMap_joinTokens fun _ => rfl, hrest, List.flatMap_cons,
        flatMap_source_singleton hfirst (by simp)]

end Source

section Merging

theorem Merged.cons {token : Token} {tokens : List Token} (h : Merged tokens)
    (htoken : token ≠ .text [])
    (hfirst : token.line? ≠ none ∨ ∀ other ∈ tokens.head?, other.line? ≠ none) :
    Merged (token :: tokens) where
  nonempty := fun hmem => (List.mem_cons.mp hmem).elim (fun heq => htoken heq.symm) h.nonempty
  apart := by
    rw [List.isChain_cons]
    exact ⟨fun other hother => hfirst.imp_right fun hall => hall other hother, h.apart⟩

/-- Text in front of anything but text is a token of its own. -/
theorem consText_eq_cons {t : Text} (ht : t ≠ []) {tokens : List Token}
    (hfirst : ∀ other ∈ tokens.head?, other.line? ≠ none) :
    consText t tokens = .text t :: tokens := by
  match tokens with
  | [] => exact if_neg ht
  | .text u :: rest => exact absurd rfl (hfirst _ rfl)
  | .includeFile name line terminator :: rest => exact if_neg ht
  | .autoresolve name line :: rest => exact if_neg ht

theorem Merged.consText {tokens : List Token} (h : Merged tokens) (t : Text) :
    Merged (consText t tokens) := by
  -- An empty text leaves the tokens alone. Any other is a token of its own unless a text
  -- is in front already.
  by_cases ht : t = []
  · rwa [ht, consText_nil]
  · by_cases hfirst : ∀ other ∈ tokens.head?, other.line? ≠ none
    · rw [consText_eq_cons ht hfirst]
      exact h.cons (fun heq => ht (Token.text.inj heq)) (Or.inr hfirst)
    · match tokens with
      | [] => exact absurd nofun hfirst
      | .text u :: rest =>
          -- The text that is there grows, and what stands behind it stays no text.
          have hrest := List.isChain_cons.mp h.apart
          refine Merged.cons ⟨fun hmem => h.nonempty (List.mem_cons_of_mem _ hmem), hrest.2⟩ ?_
            (Or.inr fun other hother => (hrest.1 other hother).resolve_left (· rfl))
          exact fun heq => ht (List.append_eq_nil_iff.mp (Token.text.inj heq)).1
      | .includeFile name line terminator :: rest =>
          exact absurd (fun other hother => by cases hother; exact nofun) hfirst
      | .autoresolve name line :: rest =>
          exact absurd (fun other hother => by cases hother; exact nofun) hfirst

theorem Merged.joinTokens {second : List Token} (h : Merged second) (first : List Token) :
    Merged (joinTokens first second) := by
  -- The tokens of the first list go in front of merged ones, one after the other.
  induction first with
  | nil => exact h
  | cons token rest ih =>
      cases token with
      | text t => exact ih.consText t
      | includeFile name line terminator => exact ih.cons nofun (Or.inl nofun)
      | autoresolve name line => exact ih.cons nofun (Or.inl nofun)

/-- A scan merges text. -/
theorem merged_of_scanLines {commented : Bool} {n : Nat} {ls : List Line} {tokens : List Token}
    (h : scanLines commented n ls = .ok tokens) : Merged tokens := by
  -- Each line's own tokens are joined to the merged tokens of the lines behind it.
  induction ls generalizing commented n tokens with
  | nil =>
      obtain rfl := Except.ok.inj h
      exact ⟨List.not_mem_nil, List.isChain_nil⟩
  | cons line rest ih =>
      obtain ⟨first, second, _, hsecond, rfl⟩ := scanLines_cons_eq_ok_iff.mp h
      exact (ih hsecond).joinTokens first

end Merging

section Blanking

theorem blankedFrom_cons (n : Nat) (numbers : List Nat) (line : Line) (rest : List Line) :
    blankedFrom n numbers (line :: rest) =
      (if n ∈ numbers then ⟨[], line.terminator⟩ else line) :: blankedFrom (n + 1) numbers rest :=
  rfl

/-- Only the numbers of the lines matter. -/
theorem blankedFrom_congr {n : Nat} {numbers others : List Nat}
    (h : ∀ m, n ≤ m → (m ∈ numbers ↔ m ∈ others)) (ls : List Line) :
    blankedFrom n numbers ls = blankedFrom n others ls := by
  -- The numbers count up along the lines, so only those from `n` on are ever looked at.
  induction ls generalizing n with
  | nil => rfl
  | cons line rest ih =>
      rw [blankedFrom_cons, blankedFrom_cons, ih fun m hm => h m (Nat.le_of_succ_le hm),
        if_congr (h n (Nat.le_refl n)) rfl rfl]

/-- No include stands among the tokens. -/
def NoIncludes (tokens : List Token) : Prop :=
  ∀ name line terminator, Token.includeFile name line terminator ∉ tokens

theorem noIncludes_joinTokens_iff {first second : List Token} :
    NoIncludes (joinTokens first second) ↔ NoIncludes first ∧ NoIncludes second := by
  have hmem : ∀ {name line terminator}, Token.includeFile name line terminator ∈
      joinTokens first second ↔ Token.includeFile name line terminator ∈ first ∨
        Token.includeFile name line terminator ∈ second := mem_joinTokens_iff rfl first second
  constructor
  · intro h
    exact ⟨fun name line terminator hfirst => h name line terminator (hmem.mpr (Or.inl hfirst)),
      fun name line terminator hsecond => h name line terminator (hmem.mpr (Or.inr hsecond))⟩
  · rintro ⟨hfirst, hsecond⟩ name line terminator h
    exact (hmem.mp h).elim (hfirst _ _ _) (hsecond _ _ _)

/-- What passes through of a line that is no include. -/
theorem flatMap_passed_singleton {commented : Bool} {n : Nat} {line : Line} {tokens : List Token}
    (h : scanLines commented n [line] = .ok tokens) (hincludes : NoIncludes tokens) :
    tokens.flatMap Token.passed =
      (blankedFrom n (tokens.filterMap Token.line?) [line]).flatMap Line.text := by
  cases lineScan h with
  | plain hplain =>
      rw [flatMap_consText fun _ => rfl, filterMap_line?_consText]
      simp [blankedFrom]
  | @directive keyword rest name hcode hopens hname =>
      cases keyword with
      | includeFile => exact absurd List.mem_cons_self (hincludes name n line.terminator)
      | autoresolve =>
          rw [List.flatMap_cons, flatMap_consText fun _ => rfl]
          simp [blankedFrom, Keyword.token, Keyword.left, Token.passed, Token.line?, Line.text]

/-- What passes through where no line is an include: every line but the bodies of the
    directives. -/
theorem flatMap_passed {commented : Bool} {n : Nat} {ls : List Line} {tokens : List Token}
    (h : scanLines commented n ls = .ok tokens) (hincludes : NoIncludes tokens) :
    tokens.flatMap Token.passed =
      (blankedFrom n (tokens.filterMap Token.line?) ls).flatMap Line.text := by
  -- Induction on the lines: the numbers of the directives split into the one of the first
  -- line and those of the rest, which are all larger.
  induction ls generalizing commented n tokens with
  | nil =>
      obtain rfl := Except.ok.inj h
      rfl
  | cons line rest ih =>
      obtain ⟨first, second, hfirst, hsecond, rfl⟩ := scanLines_cons_eq_ok_iff.mp h
      obtain ⟨hnone, hothers⟩ := noIncludes_joinTokens_iff.mp hincludes
      have hbounds := (line?_of_scanLines hsecond).1
      have hnumber := (line?_of_scanLines hfirst).1
      -- Each line is blanked by its own number, and the numbers of the others do not matter.
      have hline : n ∈ first.filterMap Token.line? ++ second.filterMap Token.line? ↔
          n ∈ first.filterMap Token.line? := by
        rw [List.mem_append, or_iff_left]
        intro hn
        have := hbounds n hn
        omega
      have hrest : ∀ m, n + 1 ≤ m → (m ∈ first.filterMap Token.line? ++
          second.filterMap Token.line? ↔ m ∈ second.filterMap Token.line?) := by
        intro m hm
        rw [List.mem_append, or_iff_right]
        intro hfirst
        have := hnumber m hfirst
        rw [List.length_singleton] at this
        omega
      rw [flatMap_joinTokens fun _ => rfl, filterMap_line?_joinTokens, blankedFrom_cons,
        blankedFrom_congr hrest, if_congr hline rfl rfl, List.flatMap_cons, ← ih hsecond hothers,
        flatMap_passed_singleton hfirst hnone, blankedFrom_cons]
      simp [blankedFrom]

end Blanking

end ShaderBuild
