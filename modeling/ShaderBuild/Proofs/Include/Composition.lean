import ShaderBuild.Proofs.Directive.Concatenation
import ShaderBuild.Proofs.Include.Expansion

/-!
# Expanding Texts Put Together

The expansion of a text made of two parts, where the first is a whole number of
lines and leaves no comment open, is that of the first part followed by that of
the second. The second part has other line numbers in the whole than by itself,
but an expansion that succeeds does not show them.

Nor does it show the files around it, which only ever keep a file from being
opened. So an expansion that succeeds stays the same with fewer files open.

An expansion also keeps the last line ended: whatever the last line of a text is,
something that ends a line is left of it.

## Main definitions

* `TokensLift`, `FileLifts`: Fewer files around make no difference.

## Theorems

* `expandTokens_joinTokens`: Tokens are expanded one part after the other.
* `expandTokens_raise`: An expansion does not depend on line numbers.
* `expand_append_ok_iff`: Texts put together are expanded one after the other.
* `expand_of_sublist`: A file can be expanded the same way inside fewer files.
* `getLast?_text_of_expand`: The expansion of an ended line ends a line.
-/

namespace ShaderBuild

section Tokens

variable {search : SearchPath} {tree : Tree} {ancestors : List Path} {path : Path}

theorem expand_eq_ok_iff {file : Found} {e : Flattened} :
    expand search tree ancestors file = .ok e ↔ ∃ tokens, tokenize file.content = .ok tokens ∧
      expandTokens search tree ancestors file.path tokens = .ok e := by
  cases htokens : tokenize file.content with
  | error bad => simp only [expand_malformed htokens, reduceCtorEq, false_and, exists_false]
  | ok tokens => simp only [expand_tokens htokens, Except.ok.injEq, exists_eq_left']

theorem expandTokens_include_eq_ok_iff {name : String} {line : Nat} {terminator : Terminator}
    {rest : List Token} {e : Flattened} :
    expandTokens search tree ancestors path (.includeFile name line terminator :: rest) = .ok e ↔
      ∃ found child after, (search.find tree name).value = some found ∧
        ¬ Barred tree (ancestors ++ [path]) found.path ∧
        expand search tree (ancestors ++ [path]) found = .ok child ∧
        expandTokens search tree ancestors path rest = .ok after ∧
        e = found.inlined terminator child ++ after := by
  constructor
  · intro h
    -- Each way to fail at the include itself is ruled out in turn.
    cases hfind : (search.find tree name).value with
    | none => rw [expandTokens_missing hfind] at h; cases h
    | some found =>
        by_cases hbarred : Barred tree (ancestors ++ [path]) found.path
        · rw [expandTokens_barred hfind hbarred] at h; cases h
        · rw [expandTokens_include hfind hbarred] at h
          obtain ⟨child, hchild, h⟩ := bind_eq_ok_iff.mp h
          obtain ⟨after, hafter, he⟩ := bind_eq_ok_iff.mp h
          exact ⟨found, child, after, rfl, hbarred, hchild, hafter, (Except.ok.inj he).symm⟩
  · rintro ⟨found, child, after, hfind, hfree, hchild, hafter, rfl⟩
    rw [expandTokens_include hfind hfree, hchild, hafter]
    rfl

theorem expandTokens_text (t : Text) :
    expandTokens search tree ancestors path [.text t] = .ok ⟨t, [], []⟩ := by
  rw [expandTokens, expandTokens]
  exact congrArg Except.ok (Flattened.append_empty ⟨t, [], []⟩)

theorem expandTokens_cons (token : Token) (rest : List Token) :
    expandTokens search tree ancestors path (token :: rest) = (do
      let first ← expandTokens search tree ancestors path [token]
      let others ← expandTokens search tree ancestors path rest
      .ok (first ++ others)) := by
  -- Only an include does more than put something in front of the rest, and it fails alone
  -- or with the rest in the order of the tokens.
  cases token with
  | text t =>
      rw [expandTokens_text, expandTokens]
      rfl
  | autoresolve name line =>
      rw [expandTokens, expandTokens, expandTokens]
      cases expandTokens search tree ancestors path rest <;> rfl
  | includeFile name line terminator =>
      cases hfind : (search.find tree name).value with
      | none => rw [expandTokens_missing hfind, expandTokens_missing hfind]; rfl
      | some found =>
          by_cases hbarred : Barred tree (ancestors ++ [path]) found.path
          · rw [expandTokens_barred hfind hbarred, expandTokens_barred hfind hbarred]; rfl
          · rw [expandTokens_include hfind hbarred, expandTokens_include hfind hbarred,
              expandTokens]
            cases expand search tree (ancestors ++ [path]) found with
            | error failure => rfl
            | ok child =>
                cases expandTokens search tree ancestors path rest with
                | error failure => rfl
                | ok others =>
                    exact congrArg (fun first => Except.ok (first ++ others))
                      (Flattened.append_empty _).symm

theorem expandTokens_consText (t : Text) (tokens : List Token) :
    expandTokens search tree ancestors path (consText t tokens) = (do
      let others ← expandTokens search tree ancestors path tokens
      .ok (⟨t, [], []⟩ ++ others)) := by
  -- Merged text comes to the same text in one piece instead of two.
  rcases consText_cases t tokens with ⟨u, rest, rfl⟩ | rfl | hcons
  · rw [consText_text, expandTokens, expandTokens]
    cases expandTokens search tree ancestors path rest with
    | error failure => rfl
    | ok others =>
        exact congrArg Except.ok (Flattened.append_assoc ⟨t, [], []⟩ ⟨u, [], []⟩ others)
  · rw [consText_nil]
    cases expandTokens search tree ancestors path tokens with
    | error failure => rfl
    | ok others => exact congrArg Except.ok (Flattened.empty_append others).symm
  · rw [hcons, expandTokens]

theorem expandTokens_consToken (token : Token) (tokens : List Token) :
    expandTokens search tree ancestors path (consToken token tokens) = (do
      let first ← expandTokens search tree ancestors path [token]
      let others ← expandTokens search tree ancestors path tokens
      .ok (first ++ others)) := by
  cases token with
  | text t =>
      rw [consToken, expandTokens_consText, expandTokens_text]
      rfl
  | includeFile name line terminator => exact expandTokens_cons _ tokens
  | autoresolve name line => exact expandTokens_cons _ tokens

/-- Tokens are expanded one part after the other. -/
theorem expandTokens_joinTokens (front back : List Token) :
    expandTokens search tree ancestors path (joinTokens front back) = (do
      let d ← expandTokens search tree ancestors path front
      let e ← expandTokens search tree ancestors path back
      .ok (d ++ e)) := by
  -- Induction on the first part, moving the brackets one token at a time.
  induction front with
  | nil =>
      rw [expandTokens]
      change expandTokens search tree ancestors path back = _
      cases expandTokens search tree ancestors path back with
      | error failure => rfl
      | ok e => exact congrArg Except.ok (Flattened.empty_append e).symm
  | cons token rest ih =>
      change expandTokens search tree ancestors path (consToken token (joinTokens rest back)) = _
      rw [expandTokens_consToken, ih, expandTokens_cons token rest]
      cases expandTokens search tree ancestors path [token] with
      | error failure => rfl
      | ok first =>
          cases expandTokens search tree ancestors path rest with
          | error failure => rfl
          | ok d =>
              cases expandTokens search tree ancestors path back with
              | error failure => rfl
              | ok e => exact congrArg Except.ok (Flattened.append_assoc first d e).symm

/-- An expansion does not depend on line numbers. -/
theorem expandTokens_raise (k : Nat) (tokens : List Token) {e : Flattened} :
    expandTokens search tree ancestors path (tokens.map (Token.raise k)) = .ok e ↔
      expandTokens search tree ancestors path tokens = .ok e := by
  -- A line number is seen in no equation of the expansion.
  induction tokens generalizing e with
  | nil => rfl
  | cons token rest ih =>
      cases token with
      | text t =>
          rw [List.map_cons, Token.raise, expandTokens, expandTokens]
          simp only [bind_eq_ok_iff, ih]
      | autoresolve name line =>
          rw [List.map_cons, Token.raise, expandTokens, expandTokens]
          simp only [bind_eq_ok_iff, ih]
      | includeFile name line terminator =>
          rw [List.map_cons, Token.raise]
          simp only [expandTokens_include_eq_ok_iff, ih]

/-- Texts put together are expanded one after the other. -/
theorem expand_append_ok_iff {s t : Text} (hs : LineAligned s) (hcode : EndsInCode s)
    {e : Flattened} : expand search tree ancestors ⟨path, s ++ t⟩ = .ok e ↔
      ∃ front back, expand search tree ancestors ⟨path, s⟩ = .ok front ∧
        expand search tree ancestors ⟨path, t⟩ = .ok back ∧ e = front ++ back := by
  -- The tokens of the two texts are those of the whole, up to line numbers.
  constructor
  · intro h
    obtain ⟨tokens, htokens, hexpanded⟩ := expand_eq_ok_iff.mp h
    obtain ⟨first, second, hfirst, hsecond, rfl⟩ := (tokenize_append_ok_iff hs hcode).mp htokens
    rw [expandTokens_joinTokens] at hexpanded
    obtain ⟨front, hfront, hexpanded⟩ := bind_eq_ok_iff.mp hexpanded
    obtain ⟨back, hback, he⟩ := bind_eq_ok_iff.mp hexpanded
    exact ⟨front, back, expand_eq_ok_iff.mpr ⟨first, hfirst, hfront⟩,
      expand_eq_ok_iff.mpr ⟨second, hsecond, (expandTokens_raise _ second).mp hback⟩,
      (Except.ok.inj he).symm⟩
  · rintro ⟨front, back, hfront, hback, rfl⟩
    obtain ⟨first, hfirst, hfront⟩ := expand_eq_ok_iff.mp hfront
    obtain ⟨second, hsecond, hback⟩ := expand_eq_ok_iff.mp hback
    refine expand_eq_ok_iff.mpr
      ⟨_, (tokenize_append_ok_iff hs hcode).mpr ⟨first, second, hfirst, hsecond, rfl⟩, ?_⟩
    rw [expandTokens_joinTokens, hfront, (expandTokens_raise _ second).mpr hback]
    rfl

end Tokens

section Fewer

variable {search : SearchPath} {tree : Tree}

theorem barred_of_sublist {fewer opened : List Path} {path : Path} (h : fewer.Sublist opened)
    (hbarred : Barred tree fewer path) : Barred tree opened path := by
  rcases hbarred with hlength | hopen
  · exact Or.inl (Nat.le_trans hlength h.length_le)
  · exact Or.inr ((h.map tree.identity).subset hopen)

/-- Some tokens expand the same way inside fewer files. -/
def TokensLift (search : SearchPath) (tree : Tree) (ancestors : List Path) (path : Path)
    (tokens : List Token) : Prop :=
  ∀ e, expandTokens search tree ancestors path tokens = .ok e → ∀ fewer other,
    (fewer ++ [other]).Sublist (ancestors ++ [path]) →
      expandTokens search tree fewer other tokens = .ok e

/-- A file expands the same way inside fewer files. -/
def FileLifts (search : SearchPath) (tree : Tree) (ancestors : List Path) (file : Found) : Prop :=
  ∀ tokens, tokenize file.content = .ok tokens →
    TokensLift search tree ancestors file.path tokens

theorem tokensLift (ancestors : List Path) (path : Path) (tokens : List Token) :
    TokensLift search tree ancestors path tokens := by
  refine expandTokens.induct search tree (FileLifts search tree) (TokensLift search tree)
    ?_ ?_ ?_ ?_ ?_ ?_ ?_ ?_ ancestors path tokens
  · -- A file or an include that fails is in no expansion that succeeds.
    intro ancestors file bad hbad tokens htokens
    rw [hbad] at htokens
    cases htokens
  · intro ancestors file tokens htokens ih others hothers
    rw [htokens, Except.ok.injEq] at hothers
    exact hothers ▸ ih
  -- Tokens other than includes do not look at the open files.
  · intro ancestors path e h fewer other _
    rw [expandTokens] at h ⊢
    exact h
  · intro ancestors path t rest ih e h fewer other hfewer
    rw [expandTokens, bind_eq_ok_iff] at h ⊢
    obtain ⟨after, hafter, he⟩ := h
    exact ⟨after, ih after hafter fewer other hfewer, he⟩
  · intro ancestors path name line rest ih e h fewer other hfewer
    rw [expandTokens, bind_eq_ok_iff] at h ⊢
    obtain ⟨after, hafter, he⟩ := h
    exact ⟨after, ih after hafter fewer other hfewer, he⟩
  · intro ancestors path name line terminator rest hfind e h
    rw [expandTokens_missing hfind] at h
    cases h
  · intro ancestors path name line terminator rest found hfind hbarred e h
    rw [expandTokens_barred hfind hbarred] at h
    cases h
  · -- The included file opens inside the includer on both sides, so it has fewer
    -- files around it wherever the includer has.
    intro ancestors path name line terminator rest found hfind hfree hfile ih e h fewer other hfewer
    rw [expandTokens_include_eq_ok_iff] at h ⊢
    obtain ⟨_, child, after, hsame, -, hchild, hafter, he⟩ := h
    rw [hfind, Option.some.injEq] at hsame
    subst hsame
    obtain ⟨tokens, htokens, hexpanded⟩ := expand_eq_ok_iff.mp hchild
    have hlifted := hfile tokens htokens child hexpanded (fewer ++ [other]) found.path
      (hfewer.append_right [found.path])
    exact ⟨found, child, after, hfind, mt (barred_of_sublist hfewer) hfree,
      expand_eq_ok_iff.mpr ⟨tokens, htokens, hlifted⟩, ih after hafter fewer other hfewer, he⟩

/-- A text can be expanded the same way inside fewer files, and in the place of
    one of them. -/
theorem expand_of_sublist {ancestors fewer : List Path} {path other : Path} {t : Text}
    {e : Flattened} (hfewer : (fewer ++ [other]).Sublist (ancestors ++ [path]))
    (h : expand search tree ancestors ⟨path, t⟩ = .ok e) :
    expand search tree fewer ⟨other, t⟩ = .ok e := by
  obtain ⟨tokens, htokens, hexpanded⟩ := expand_eq_ok_iff.mp h
  exact expand_eq_ok_iff.mpr
    ⟨tokens, htokens, tokensLift ancestors path tokens e hexpanded fewer other hfewer⟩

end Fewer

section Ends

variable {search : SearchPath} {tree : Tree} {ancestors : List Path} {path : Path}

theorem getLast?_after {terminator : Terminator} (h : terminator ≠ .none) (t : Text) :
    (t ++ terminator.after t).getLast? = some '\n' := by
  by_cases ht : t.getLast? = some '\n'
  · rwa [Terminator.after, if_neg fun hafter => hafter.2 ht, List.append_nil]
  · rw [Terminator.after, if_pos ⟨h, ht⟩]
    exact getLast?_text h t

/-- Something that ends a line is left of a line that is ended. -/
theorem getLast?_text_of_line {commented : Bool} {n : Nat} {line : Line} {tokens : List Token}
    {e : Flattened} (hended : line.terminator ≠ .none)
    (htokens : scanLines commented n [line] = .ok tokens)
    (h : expandTokens search tree ancestors path tokens = .ok e) :
    e.text.getLast? = some '\n' := by
  simp only [scanLines] at htokens
  split at htokens
  · -- The line itself.
    cases htokens
    rw [expandTokens_consText, expandTokens] at h
    cases h
    simpa [Flattened.append_def, Flattened.empty, Line.text] using getLast?_text hended line.body
  · -- What is included, which is ended if it is not by itself.
    split at htokens
    · cases htokens
    · cases htokens
      obtain ⟨found, child, after, -, -, -, hafter, rfl⟩ := expandTokens_include_eq_ok_iff.mp h
      rw [expandTokens] at hafter
      cases hafter
      simpa [Flattened.append_def, Flattened.empty, Found.inlined] using
        getLast?_after hended child.text
  · -- The terminator, which is left behind.
    split at htokens
    · cases htokens
    · cases htokens
      rw [expandTokens, expandTokens_consText, expandTokens] at h
      cases h
      simpa [Flattened.append_def, Flattened.empty] using getLast?_text hended []

/-- The expansion of a text with an ended last line ends a line. -/
theorem getLast?_text_of_expand {file : Found} {e : Flattened}
    (hfile : file.content.getLast? = some '\n')
    (h : expand search tree ancestors file = .ok e) : e.text.getLast? = some '\n' := by
  obtain ⟨tokens, htokens, hexpanded⟩ := expand_eq_ok_iff.mp h
  rcases List.eq_nil_or_concat (lines file.content) with hnil | ⟨front, last, hlines⟩
  · exact absurd hnil (lines_ne_nil fun hempty => by rw [hempty] at hfile; cases hfile)
  -- What the lines before the last come to does not matter.
  rw [List.concat_eq_append] at hlines
  have hended : last.terminator ≠ .none :=
    lineAligned_iff.mp (Or.inr hfile) last (by rw [hlines]; simp)
  rw [tokenize, hlines] at htokens
  obtain ⟨first, second, -, hsecond, rfl⟩ := scanLines_append_eq_ok_iff.mp htokens
  rw [expandTokens_joinTokens] at hexpanded
  obtain ⟨d, -, hexpanded⟩ := bind_eq_ok_iff.mp hexpanded
  obtain ⟨last, hlast, hexpanded⟩ := bind_eq_ok_iff.mp hexpanded
  cases hexpanded
  rw [Flattened.append_def, List.getLast?_append, getLast?_text_of_line hended hsecond hlast,
    Option.some_or]

end Ends

end ShaderBuild
