import ShaderBuild.Directive.Scan

/-!
# Scanning Texts Put Together

What the tokens of a text made of two parts have to do with those of the parts.

If the first part is a whole number of lines, the lines of both are the lines of
the whole (`lines_append`), and then the scan of the whole is that of the first
part followed by that of the second. Three things pass from one to the other.
Whether a block comment is open does, and is all the second part has to know of
the text of the first. The number of lines does, and the second part reports it
with its directives and its errors and makes no other use of it. And text at the
end of one part is merged with text at the start of the other.

Where no comment is left open the second part can therefore be scanned by itself,
as a text of its own, and only its line numbers have to be raised.

## Main definitions

* `LineAligned`: A text is a whole number of lines.
* `commentAfter`, `EndsInCode`: Whether a scan leaves a block comment open.
* `joinTokens`: Tokens after tokens, with text merged.
* `Token.raise`, `Malformed.raise`, `raiseLines`: Later line numbers.

## Theorems

* `lineAligned_iff`: Every line of such a text is ended.
* `lines_append`, `scanLines_append`: The lines of a whole are those of its
  parts, and so are the tokens.
* `scanLines_cons_eq_ok_iff`, `scanLines_append_eq_ok_iff`: When a scan succeeds.
* `scanLines_raise`: A scan makes no use of line numbers.
* `tokenize_append`: A part that leaves no comment open and the rest can be
  scanned apart.
-/

namespace ShaderBuild

/-- What is done to a result comes to `b` exactly if the result is there and it
    comes to `b` from there. -/
theorem bind_eq_ok_iff {ε α β : Type} {x : Except ε α} {f : α → Except ε β} {b : β} :
    x >>= f = .ok b ↔ ∃ a, x = .ok a ∧ f a = .ok b := by
  cases x with
  | error failure => simp only [bind, Except.bind, reduceCtorEq, false_and, exists_false]
  | ok a => simp only [bind, Except.bind, Except.ok.injEq, exists_eq_left']

theorem map_eq_ok_iff {ε α β : Type} {x : Except ε α} {f : α → β} {b : β} :
    x.map f = .ok b ↔ ∃ a, x = .ok a ∧ f a = b := by
  cases x with
  | error failure => simp only [Except.map, reduceCtorEq, false_and, exists_false]
  | ok a => simp only [Except.map, Except.ok.injEq, exists_eq_left']

/-- A text is a whole number of lines. -/
def LineAligned (t : Text) : Prop :=
  t = [] ∨ t.getLast? = some '\n'

instance (t : Text) : Decidable (LineAligned t) :=
  inferInstanceAs (Decidable (_ ∨ _))

theorem lineAligned_cons {c : Char} {rest : Text} :
    LineAligned (c :: rest) ↔ (rest = [] → c = '\n') ∧ LineAligned rest := by
  cases rest with
  | nil => simp [LineAligned]
  | cons d others => simp [LineAligned, List.getLast?_cons_cons]

theorem LineAligned.append {s t : Text} (hs : LineAligned s) (ht : LineAligned t) :
    LineAligned (s ++ t) := by
  rcases ht with rfl | ht
  · rwa [List.append_nil]
  · exact Or.inr (by rw [List.getLast?_append, ht, Option.some_or])

theorem lines_ne_nil {t : Text} (h : t ≠ []) : lines t ≠ [] := by
  intro hlines
  have htext := text_lines t
  rw [hlines] at htext
  exact h htext.symm

theorem consBody_append (c : Char) {ls : List Line} (h : ls ≠ []) (others : List Line) :
    consBody c (ls ++ others) = consBody c ls ++ others := by
  cases ls with
  | nil => exact absurd rfl h
  | cons line rest => rfl

/-- What is put at the end of a text does not change how its first character is
    read, unless the character is all there is. -/
theorem lines_cons_append {c : Char} {rest : Text} (hfeed : c = '\n' → False)
    (hreturn : ∀ others, c = '\r' → rest = '\n' :: others → False) (hne : rest ≠ []) (t : Text) :
    lines (c :: (rest ++ t)) = consBody c (lines (rest ++ t)) := by
  refine lines.eq_4 c (rest ++ t) hfeed fun others hc hothers => ?_
  obtain ⟨d, ds, rfl⟩ := List.exists_cons_of_ne_nil hne
  exact hreturn ds hc (by rw [(List.cons.inj hothers).1])

/-- The lines of a whole are those of its parts. -/
theorem lines_append {s : Text} (h : LineAligned s) (t : Text) :
    lines (s ++ t) = lines s ++ lines t := by
  -- Alignment is kept by every rest, and is what rules out that a part ends
  -- between the two characters of a terminator.
  fun_induction lines s with
  | case1 => rfl
  | case2 rest ih =>
      rw [List.cons_append, lines, ih (lineAligned_cons.mp h).2, List.cons_append]
  | case3 rest ih =>
      have hrest := (lineAligned_cons.mp (lineAligned_cons.mp h).2).2
      rw [List.cons_append, List.cons_append, lines, ih hrest, List.cons_append]
  | case4 c rest hfeed hreturn ih =>
      obtain ⟨hlast, hrest⟩ := lineAligned_cons.mp h
      have hne : rest ≠ [] := fun hnil => hfeed (hlast hnil)
      rw [List.cons_append, lines_cons_append hfeed hreturn hne, ih hrest,
        consBody_append c (lines_ne_nil hne)]

/-- Pieces meet where a line ends, unless nothing follows at all. -/
theorem lines_append_of_ne_nil {s t : Text} (h : t ≠ [] → LineAligned s) :
    lines (s ++ t) = lines s ++ lines t := by
  by_cases ht : t = []
  · rw [ht, List.append_nil]
    exact (List.append_nil _).symm
  · exact lines_append (h ht) t

theorem terminator_ne_none_of_lineAligned {t : Text} (h : LineAligned t) :
    ∀ line ∈ lines t, line.terminator ≠ .none := by
  fun_induction lines t with
  | case1 => exact fun _ hmem => absurd hmem List.not_mem_nil
  | case2 rest ih =>
      exact List.forall_mem_cons.mpr ⟨by decide, ih (lineAligned_cons.mp h).2⟩
  | case3 rest ih =>
      have hrest := (lineAligned_cons.mp (lineAligned_cons.mp h).2).2
      exact List.forall_mem_cons.mpr ⟨by decide, ih hrest⟩
  | case4 c rest hfeed _ ih =>
      obtain ⟨hlast, hrest⟩ := lineAligned_cons.mp h
      obtain ⟨line, others, hlines⟩ :=
        List.exists_cons_of_ne_nil (lines_ne_nil fun hnil => hfeed (hlast hnil))
      -- The first line only gained a character; its end is the old one.
      have hended := ih hrest
      rw [hlines] at hended ⊢
      exact List.forall_mem_cons.mpr (List.forall_mem_cons.mp hended)

theorem getLast?_text {terminator : Terminator} (h : terminator ≠ .none) (t : Text) :
    (t ++ terminator.text).getLast? = some '\n' := by
  cases terminator with
  | none => exact absurd rfl h
  | lineFeed => simp [Terminator.text]
  | carriageReturnLineFeed => simp [Terminator.text]

/-- Lines that are all ended make up a whole number of lines. -/
theorem lineAligned_flatMap {ls : List Line} (h : ∀ line ∈ ls, line.terminator ≠ .none) :
    LineAligned (ls.flatMap Line.text) := by
  induction ls with
  | nil => exact Or.inl rfl
  | cons line rest ih =>
      obtain ⟨hline, hrest⟩ := List.forall_mem_cons.mp h
      rw [List.flatMap_cons]
      exact LineAligned.append (Or.inr (getLast?_text hline line.body)) (ih hrest)

/-- A text is a whole number of lines exactly if every line of it is ended. -/
theorem lineAligned_iff {t : Text} :
    LineAligned t ↔ ∀ line ∈ lines t, line.terminator ≠ .none := by
  refine ⟨terminator_ne_none_of_lineAligned, fun h => ?_⟩
  have haligned := lineAligned_flatMap h
  rwa [text_lines] at haligned

/-- Whether a block comment is open after some lines, given whether one is open
    before them. A directive leaves none open. -/
def commentAfter : Bool → List Line → Bool
  | commented, [] => commented
  | commented, line :: rest =>
    match if commented then none else directive? line.body with
    | none => commentAfter (inComment commented line.body) rest
    | some _ => commentAfter false rest

/-- A text that leaves no block comment open. -/
def EndsInCode (t : Text) : Prop :=
  commentAfter false (lines t) = false

instance (t : Text) : Decidable (EndsInCode t) :=
  inferInstanceAs (Decidable (_ = _))

/-- A token put in front of a token list. Text is merged with text already
    there. -/
def consToken : Token → List Token → List Token
  | .text t, tokens => consText t tokens
  | token, tokens => token :: tokens

/-- Tokens after tokens, with text merged where they meet. -/
def joinTokens (first second : List Token) : List Token :=
  first.foldr consToken second

/-- Text is merged, or it is no text, or it is a token of its own. -/
theorem consText_cases (t : Text) (tokens : List Token) :
    (∃ u rest, tokens = .text u :: rest) ∨ t = [] ∨ consText t tokens = .text t :: tokens := by
  by_cases ht : t = []
  · exact Or.inr (Or.inl ht)
  -- Empty text is dropped in front of a directive, and so it never makes a token.
  · match tokens with
    | .text u :: rest => exact Or.inl ⟨u, rest, rfl⟩
    | [] => exact Or.inr (Or.inr (if_neg ht))
    | .includeFile .. :: rest => exact Or.inr (Or.inr (if_neg ht))
    | .autoresolve .. :: rest => exact Or.inr (Or.inr (if_neg ht))

theorem joinTokens_consText (t : Text) (first second : List Token) :
    joinTokens (consText t first) second = consText t (joinTokens first second) := by
  rcases consText_cases t first with ⟨u, rest, rfl⟩ | rfl | hcons
  · exact consText_append t u (joinTokens rest second)
  · rw [consText_nil, consText_nil]
  · rw [hcons]
    rfl

theorem joinTokens_assoc (first second third : List Token) :
    joinTokens (joinTokens first second) third =
      joinTokens first (joinTokens second third) := by
  induction first with
  | nil => rfl
  | cons token rest ih =>
      -- Only text can be merged with what follows; a directive is a token whatever follows.
      cases token with
      | text t => exact (joinTokens_consText t _ third).trans (congrArg (consText t) ih)
      | includeFile name line terminator => exact congrArg (_ :: ·) ih
      | autoresolve name line => exact congrArg (_ :: ·) ih

/-- A line is scanned apart from those after it. -/
theorem scanLines_cons (commented : Bool) (n : Nat) (line : Line) (rest : List Line) :
    scanLines commented n (line :: rest) = (do
      let first ← scanLines commented n [line]
      let second ← scanLines (commentAfter commented [line]) (n + 1) rest
      .ok (joinTokens first second)) := by
  -- The only case analysis on what a line can be; the scan of many lines is put
  -- together from it.
  simp only [scanLines, commentAfter]
  cases if commented then none else directive? line.body with
  | none =>
      cases scanLines (inComment commented line.body) (n + 1) rest with
      | error bad => rfl
      | ok tokens => exact congrArg Except.ok (joinTokens_consText line.text [] tokens).symm
  | some found =>
      obtain ⟨keyword, text⟩ := found
      cases keyword with
      | includeFile =>
          dsimp only
          cases readInclude text with
          | error defect => rfl
          | ok name => cases scanLines false (n + 1) rest <;> rfl
      | autoresolve =>
          dsimp only
          cases readAutoresolve text with
          | error defect => rfl
          | ok name =>
              cases scanLines false (n + 1) rest with
              | error bad => rfl
              | ok tokens =>
                  exact congrArg (fun tokens => Except.ok (.autoresolve name n :: tokens))
                    (joinTokens_consText line.terminator.text [] tokens).symm

theorem commentAfter_cons (commented : Bool) (line : Line) (rest : List Line) :
    commentAfter commented (line :: rest) = commentAfter (commentAfter commented [line]) rest := by
  simp only [commentAfter]
  cases if commented then none else directive? line.body <;> rfl

theorem commentAfter_append (commented : Bool) (front back : List Line) :
    commentAfter commented (front ++ back) = commentAfter (commentAfter commented front) back := by
  induction front generalizing commented with
  | nil => rfl
  | cons line rest ih => rw [List.cons_append, commentAfter_cons, ih, ← commentAfter_cons]

/-- The tokens of a whole are those of its parts. -/
theorem scanLines_append (commented : Bool) (n : Nat) (front back : List Line) :
    scanLines commented n (front ++ back) = (do
      let first ← scanLines commented n front
      let second ← scanLines (commentAfter commented front) (n + front.length) back
      .ok (joinTokens first second)) := by
  induction front generalizing commented n with
  | nil =>
      change scanLines commented n back = (do
        let second ← scanLines commented n back
        .ok second)
      cases scanLines commented n back <;> rfl
  | cons line rest ih =>
      have hlength : n + (line :: rest).length = n + 1 + rest.length := by
        rw [List.length_cons]; omega
      rw [List.cons_append, scanLines_cons, ih, scanLines_cons _ _ _ rest,
        commentAfter_cons commented line rest, hlength]
      -- Both sides scan the same three stretches, so the first error is the same.
      cases scanLines commented n [line] with
      | error bad => rfl
      | ok first =>
          cases scanLines (commentAfter commented [line]) (n + 1) rest with
          | error bad => rfl
          | ok second =>
              cases scanLines (commentAfter (commentAfter commented [line]) rest)
                  (n + 1 + rest.length) back with
              | error bad => rfl
              | ok third => exact congrArg Except.ok (joinTokens_assoc first second third).symm

/-- The scan of some lines is that of the first and that of the others. -/
theorem scanLines_cons_eq_ok_iff {commented : Bool} {n : Nat} {line : Line} {rest : List Line}
    {tokens : List Token} : scanLines commented n (line :: rest) = .ok tokens ↔
      ∃ first second, scanLines commented n [line] = .ok first ∧
        scanLines (commentAfter commented [line]) (n + 1) rest = .ok second ∧
        joinTokens first second = tokens := by
  rw [scanLines_cons]
  simp only [bind_eq_ok_iff, Except.ok.injEq, exists_and_left]

theorem scanLines_append_eq_ok_iff {commented : Bool} {n : Nat} {front back : List Line}
    {tokens : List Token} : scanLines commented n (front ++ back) = .ok tokens ↔
      ∃ first second, scanLines commented n front = .ok first ∧
        scanLines (commentAfter commented front) (n + front.length) back = .ok second ∧
        joinTokens first second = tokens := by
  rw [scanLines_append]
  simp only [bind_eq_ok_iff, Except.ok.injEq, exists_and_left]

/-- A token that stands `k` lines later. -/
def Token.raise (k : Nat) : Token → Token
  | .text t => .text t
  | .includeFile name line terminator => .includeFile name (line + k) terminator
  | .autoresolve name line => .autoresolve name (line + k)

/-- A malformed line that stands `k` lines later. -/
def Malformed.raise (k : Nat) (bad : Malformed) : Malformed :=
  { bad with line := bad.line + k }

/-- The tokens of lines that stand `k` lines later. -/
def raiseLines (k : Nat) : Except Malformed (List Token) → Except Malformed (List Token)
  | .error bad => .error (bad.raise k)
  | .ok tokens => .ok (tokens.map (Token.raise k))

theorem map_raise_consText (k : Nat) (t : Text) (tokens : List Token) :
    (consText t tokens).map (Token.raise k) = consText t (tokens.map (Token.raise k)) := by
  match tokens with
  | .text u :: rest => rfl
  | [] => by_cases ht : t = [] <;> simp [consText, ht, Token.raise]
  | .includeFile .. :: rest => by_cases ht : t = [] <;> simp [consText, ht, Token.raise]
  | .autoresolve .. :: rest => by_cases ht : t = [] <;> simp [consText, ht, Token.raise]

theorem map_raise_joinTokens (k : Nat) (first second : List Token) :
    (joinTokens first second).map (Token.raise k) =
      joinTokens (first.map (Token.raise k)) (second.map (Token.raise k)) := by
  induction first with
  | nil => rfl
  | cons token rest ih =>
      cases token with
      | text t => exact (map_raise_consText k t _).trans (congrArg (consText t) ih)
      | includeFile name line terminator => exact congrArg (_ :: ·) ih
      | autoresolve name line => exact congrArg (_ :: ·) ih

theorem scanLines_singleton_raise (commented : Bool) (n k : Nat) (line : Line) :
    scanLines commented (n + k) [line] = raiseLines k (scanLines commented n [line]) := by
  simp only [scanLines]
  cases if commented then none else directive? line.body with
  | none => exact congrArg Except.ok (map_raise_consText k line.text []).symm
  | some found =>
      obtain ⟨keyword, text⟩ := found
      cases keyword with
      | includeFile =>
          dsimp only
          cases readInclude text <;> rfl
      | autoresolve =>
          dsimp only
          cases readAutoresolve text with
          | error defect => rfl
          | ok name =>
              exact congrArg (fun tokens => Except.ok (.autoresolve name (n + k) :: tokens))
                (map_raise_consText k line.terminator.text []).symm

/-- A scan makes no use of line numbers. -/
theorem scanLines_raise (commented : Bool) (n k : Nat) (ls : List Line) :
    scanLines commented (n + k) ls = raiseLines k (scanLines commented n ls) := by
  induction ls generalizing commented n with
  | nil => rfl
  | cons line rest ih =>
      -- Both numbers count on from their line, so they stay `k` apart.
      rw [scanLines_cons, scanLines_singleton_raise, Nat.add_right_comm, ih,
        scanLines_cons _ n _ rest]
      cases scanLines commented n [line] with
      | error bad => rfl
      | ok first =>
          cases scanLines (commentAfter commented [line]) (n + 1) rest with
          | error bad => rfl
          | ok second => exact congrArg Except.ok (map_raise_joinTokens k first second).symm

/-- A part that leaves no comment open and the rest can be scanned apart. -/
theorem tokenize_append {s : Text} (hs : LineAligned s) (hcode : EndsInCode s) (t : Text) :
    tokenize (s ++ t) = (do
      let first ← tokenize s
      let second ← raiseLines (lines s).length (tokenize t)
      .ok (joinTokens first second)) := by
  rw [tokenize, lines_append hs, scanLines_append, hcode, scanLines_raise]
  rfl

theorem tokenize_append_ok_iff {s : Text} (hs : LineAligned s) (hcode : EndsInCode s) {t : Text}
    {tokens : List Token} : tokenize (s ++ t) = .ok tokens ↔
      ∃ first second, tokenize s = .ok first ∧ tokenize t = .ok second ∧
        tokens = joinTokens first (second.map (Token.raise (lines s).length)) := by
  rw [tokenize_append hs hcode]
  simp only [bind_eq_ok_iff]
  cases tokenize t with
  | error bad => simp only [raiseLines, reduceCtorEq, false_and, and_false, exists_false]
  | ok second =>
      simp only [raiseLines, Except.ok.injEq, exists_eq_left', exists_and_left]
      exact exists_congr fun first => and_congr_right fun _ => eq_comm

end ShaderBuild
