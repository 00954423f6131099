import Mathlib.Data.List.TakeWhile
import ShaderBuild.Directive.Grammar

/-!
# The Syntax of Directives

The grammar of a directive line, said without a reader: which lines have which
parts, and nothing about the order in which the parts are looked for.

The readers take a line apart from the left with one helper for each part, each
with a character class of its own, and a reader has to commit itself. It takes the
longest run of a class, it takes the first closing delimiter, and it trims the end
of a tail before it looks at the comments in it. The grammar below has none of
these decisions. That the readers accept exactly its lines is what says that they
decide rightly, and that they never reject a line that could have been read in
another way.

## Main definitions

* `White`, `Stops`: What separates the parts, and where a run of a class ends.
* `Opens`: A line begins with the sign and a keyword.
* `Tail`: What may stand behind an argument.
* `IncludeName`, `BlockName`, `Keyword.Names`: What may stand behind a keyword, and
  the name in it.
* `Keyword.read`: The reader that goes with a keyword.

## Theorems

* `span_eq_iff`: A run of a class is taken whole or the rest still begins with it.
* `past_comment`: A scanner that waits for the end of a comment finds it.
* `directive?_eq_some_iff`: Which lines are directives.
* `readTail_eq_ok_iff`: Which tails are accepted.
* `read_eq_ok_iff`: Which texts behind a keyword are accepted, and as which name.
-/

namespace ShaderBuild

/-- Nothing but white space. -/
def White (t : Text) : Prop :=
  ∀ c ∈ t, isSpace c

/-- The first character, if there is one, is not of a class. -/
def Stops (p : Char → Bool) (t : Text) : Prop :=
  ∀ c ∈ t.head?, p c = false

/-- The word of a keyword. -/
def Keyword.word : Keyword → Text
  | .includeFile => ['i', 'n', 'c', 'l', 'u', 'd', 'e']
  | .autoresolve => ['a', 'u', 't', 'o', 'r', 'e', 's', 'o', 'l', 'v', 'e']

/-- The body of a line begins with the sign and a keyword that is not a part of a
    longer word, and goes on with `rest`. -/
def Opens (keyword : Keyword) (rest body : Text) : Prop :=
  ∃ space blanks, body = space ++ '#' :: (blanks ++ (keyword.word ++ rest)) ∧
    White space ∧ (∀ c ∈ blanks, isBlank c) ∧ Stops isWordChar rest

/-- The text of a block comment, between its marks, does not close it. -/
def Unclosed (comment : Text) : Prop :=
  ¬ ['*', '/'] <:+: comment

/-- What may stand behind an argument: white space, block comments that are closed
    with white space behind each, and then nothing or a line comment. -/
inductive Tail : Text → Prop where
  | white {space : Text} (hspace : White space) : Tail space
  | lineComment {space rest : Text} (hspace : White space) : Tail (space ++ '/' :: '/' :: rest)
  | blockComment {space comment rest : Text} (hspace : White space) (hcomment : Unclosed comment)
      (after : Tail rest) : Tail (space ++ '/' :: '*' :: (comment ++ '*' :: '/' :: rest))

/-- What opens and closes the name of an include. -/
def delimiters : List (Char × Char) :=
  [('"', '"'), ('<', '>')]

/-- The text behind the keyword of an include has a name between delimiters. -/
def IncludeName (name rest : Text) : Prop :=
  ∃ space opening closing tail, rest = space ++ opening :: (name ++ closing :: tail) ∧
    White space ∧ (opening, closing) ∈ delimiters ∧ closing ∉ name ∧ ¬ White name ∧ Tail tail

/-- An identifier of the shading language. -/
def Identifier (name : Text) : Prop :=
  ∃ c rest, name = c :: rest ∧ isWordStart c ∧ ∀ d ∈ rest, isWordChar d

/-- The text behind the keyword of an autoresolve directive has an identifier, and
    not just a part of one. -/
def BlockName (name rest : Text) : Prop :=
  ∃ blank space tail, rest = blank :: (space ++ (name ++ tail)) ∧
    isBlank blank ∧ White space ∧ Identifier name ∧ Stops isWordChar tail ∧ Tail tail

/-- The text behind a keyword is well-formed and has a name in it. -/
def Keyword.Names : Keyword → Text → Text → Prop
  | .includeFile => IncludeName
  | .autoresolve => BlockName

/-- The reader of the text behind a keyword. -/
def Keyword.read : Keyword → Text → Except Defect String
  | .includeFile => readInclude
  | .autoresolve => readAutoresolve

section Runs

/-- A run of a class and the rest behind it are the one way to cut a text where
    the class ends. -/
theorem span_eq_iff {p : Char → Bool} {t run rest : Text} :
    t.takeWhile p = run ∧ t.dropWhile p = rest ↔
      t = run ++ rest ∧ (∀ c ∈ run, p c) ∧ Stops p rest := by
  constructor
  · rintro ⟨rfl, rfl⟩
    refine ⟨List.takeWhile_append_dropWhile.symm, fun c hc => List.mem_takeWhile_imp hc, ?_⟩
    intro c hc
    simpa [Option.mem_def.mp hc] using List.head?_dropWhile_not p t
  · rintro ⟨rfl, hrun, hrest⟩
    -- The rest does not begin with the class, so the run does not go on into it.
    have htake : rest.takeWhile p = [] ∧ rest.dropWhile p = rest := by
      cases rest with
      | nil => exact ⟨rfl, rfl⟩
      | cons c others => simp [hrest c rfl]
    rw [List.takeWhile_append_of_pos hrun, List.dropWhile_append_of_pos hrun, htake.1, htake.2,
      List.append_nil]
    exact ⟨rfl, rfl⟩

/-- What is left of a text behind a run of a class. -/
theorem dropWhile_eq_iff {p : Char → Bool} {t rest : Text} :
    t.dropWhile p = rest ↔ ∃ run, t = run ++ rest ∧ (∀ c ∈ run, p c) ∧ Stops p rest := by
  constructor
  · intro h
    exact ⟨t.takeWhile p, span_eq_iff.mp ⟨rfl, h⟩⟩
  · rintro ⟨run, h⟩
    exact (span_eq_iff.mpr h).2

theorem stops_cons {p : Char → Bool} {c : Char} {rest : Text} :
    Stops p (c :: rest) ↔ p c = false := by
  simp [Stops]

theorem trimStart_eq_cons_iff {t rest : Text} {c : Char} (hc : isSpace c = false) :
    trimStart t = c :: rest ↔ ∃ space, t = space ++ c :: rest ∧ White space := by
  rw [trimStart, dropWhile_eq_iff]
  simp only [stops_cons, hc, and_true, White]

theorem White.append {s t : Text} (hs : White s) (ht : White t) : White (s ++ t) :=
  List.forall_mem_append.mpr ⟨hs, ht⟩

theorem isSpace_of_isBlank {c : Char} (h : isBlank c) : isSpace c := by
  simp only [isBlank, Bool.or_eq_true, decide_eq_true_eq] at h
  rcases h with rfl | rfl <;> decide

end Runs

section Opening

theorem ofWord?_eq_some_iff {word : Text} {keyword : Keyword} :
    Keyword.ofWord? word = some keyword ↔ word = keyword.word := by
  constructor
  · intro h
    unfold Keyword.ofWord? at h
    split at h
    · next hword => cases h; exact hword
    · split at h
      · next hword => cases h; exact hword
      · cases h
  · rintro rfl
    cases keyword <;> rfl

theorem isWordChar_of_mem_word {keyword : Keyword} {c : Char} (h : c ∈ keyword.word) :
    isWordChar c := by
  have hall : keyword.word.all isWordChar = true := by cases keyword <;> decide
  exact List.all_eq_true.mp hall c h

/-- The word of a keyword is found behind the sign exactly if it stands there. -/
theorem word_eq_iff {t rest : Text} {keyword : Keyword} :
    Keyword.ofWord? (leadingWord t) = some keyword ∧ afterWord t = rest ↔
      t = keyword.word ++ rest ∧ Stops isWordChar rest := by
  rw [ofWord?_eq_some_iff, leadingWord, afterWord, span_eq_iff]
  exact and_congr_right fun _ => and_iff_right fun _ => isWordChar_of_mem_word

/-- Which lines are directives. -/
theorem directive?_eq_some_iff {body rest : Text} {keyword : Keyword} :
    directive? body = some (keyword, rest) ↔ Opens keyword rest body := by
  constructor
  -- Reading from the left: white space, the sign, blanks, the word, the rest.
  · intro h
    unfold directive? at h
    split at h
    · next after hsign =>
      obtain ⟨found, hword, heq⟩ := Option.map_eq_some_iff.mp h
      obtain ⟨rfl, hrest⟩ := Prod.mk.inj heq
      obtain ⟨space, rfl, hspace⟩ := (trimStart_eq_cons_iff (by decide)).mp hsign
      obtain ⟨blanks, hblanks, hblank, -⟩ := dropWhile_eq_iff.mp (Eq.refl (after.dropWhile isBlank))
      obtain ⟨hafter, hstops⟩ := word_eq_iff.mp ⟨hword, hrest⟩
      rw [hafter] at hblanks
      exact ⟨space, blanks, by rw [hblanks], hspace, hblank, hstops⟩
    · cases h
  · rintro ⟨space, blanks, rfl, hspace, hblanks, hstops⟩
    have hsign : trimStart (space ++ '#' :: (blanks ++ (keyword.word ++ rest))) =
        '#' :: (blanks ++ (keyword.word ++ rest)) :=
      (trimStart_eq_cons_iff (by decide)).mpr ⟨space, rfl, hspace⟩
    -- A keyword begins with no blank, so the blanks end where it starts.
    have hword : Stops isBlank (keyword.word ++ rest) := by
      cases keyword <;> exact stops_cons.mpr (by decide)
    have hdrop := dropWhile_eq_iff.mpr ⟨blanks, rfl, hblanks, hword⟩
    obtain ⟨hfound, hrest⟩ := word_eq_iff.mpr ⟨Eq.refl (keyword.word ++ rest), hstops⟩
    simp only [directive?, hsign, hdrop, hfound, hrest, Option.map_some]

end Opening

section Comments

theorem unclosed_cons {c : Char} {rest : Text} :
    Unclosed (c :: rest) ↔ (c = '*' → rest.head? ≠ some '/') ∧ Unclosed rest := by
  rw [Unclosed, List.infix_cons_iff, not_or]
  -- Neither case is more than the two-character prefix written out.
  refine and_congr_left fun _ => ?_
  cases rest with
  | nil => simp [List.cons_prefix_cons]
  | cons d others => simp [List.cons_prefix_cons, eq_comm]

/-- A scanner that waits for the end of a comment and passes over everything else
    finds it where the text of the comment ends. -/
theorem past_comment {α : Type} {inside outside : Text → α}
    (hclose : ∀ rest, inside ('*' :: '/' :: rest) = outside rest)
    (hpass : ∀ c rest, (∀ others, c = '*' → rest = '/' :: others → False) →
      inside (c :: rest) = inside rest)
    {comment : Text} (h : Unclosed comment) (rest : Text) :
    inside (comment ++ '*' :: '/' :: rest) = outside rest := by
  induction comment with
  | nil => exact hclose rest
  | cons c others ih =>
      obtain ⟨hmark, hothers⟩ := unclosed_cons.mp h
      rw [List.cons_append, hpass c _ ?_, ih hothers]
      -- The next character is one of the comment or the star that closes it.
      intro after hstar hslash
      cases others with
      | nil => cases hslash
      | cons d ds => exact hmark hstar (congrArg some (List.cons.inj hslash).1)

theorem skipComments_comment {comment : Text} (h : Unclosed comment) (rest : Text) :
    skipComments true (comment ++ '*' :: '/' :: rest) = skipComments false rest :=
  past_comment skipComments.eq_5 (fun c rest => skipComments.eq_6 c rest) h rest

theorem skipComments_white {space : Text} (h : White space) (t : Text) :
    -- Induction on the white space, which the scanner drops one character at a time.
    skipComments false (space ++ t) = skipComments false t := by
  induction space with
  | nil => rfl
  | cons c rest ih =>
      obtain ⟨hc, hrest⟩ := List.forall_mem_cons.mp h
      -- A slash is no white space, so no comment begins here.
      have hslash : c ≠ '/' := by rintro rfl; cases hc
      rw [List.cons_append, skipComments.eq_3 c _ fun _ heq _ => hslash heq, if_pos hc, ih hrest]

end Comments

section Tails

theorem Tail.white_append {space t : Text} (hspace : White space) (h : Tail t) :
    Tail (space ++ t) := by
  -- The white space joins the one that the tail begins with, whichever form it has.
  cases h with
  | white h => exact .white (hspace.append h)
  | lineComment h =>
      rw [← List.append_assoc]
      exact .lineComment (hspace.append h)
  | blockComment h hcomment after =>
      rw [← List.append_assoc]
      exact .blockComment (hspace.append h) hcomment after

theorem Tail.append_white {space t : Text} (h : Tail t) (hspace : White space) :
    Tail (t ++ space) := by
  -- White space belongs to the last part of a tail; only a block comment has one behind it.
  induction h with
  | white h => exact .white (h.append hspace)
  | lineComment h =>
      rw [List.append_assoc]
      exact .lineComment h
  | blockComment h hcomment _ ih =>
      rw [List.append_assoc, List.cons_append, List.cons_append, List.append_assoc]
      exact .blockComment h hcomment ih

theorem trimEnd_append_white (t : Text) : ∃ space, t = trimEnd t ++ space ∧ White space := by
  -- From the left: either everything from here on is white and is cut, or it stays and the
  -- white space is found further behind.
  induction t with
  | nil => exact ⟨[], rfl, nofun⟩
  | cons c rest ih =>
      by_cases hall : (rest.all isSpace && isSpace c) = true
      · obtain ⟨hrest, hc⟩ := Bool.and_eq_true_iff.mp hall
        refine ⟨c :: rest, by rw [trimEnd, if_pos hall, List.nil_append], ?_⟩
        exact List.forall_mem_cons.mpr ⟨hc, List.all_eq_true.mp hrest⟩
      · obtain ⟨space, hspace, hwhite⟩ := ih
        exact ⟨space, by rw [trimEnd, if_neg hall, List.cons_append, ← hspace], hwhite⟩

/-- What stands in front of a text that is not trimmed away stays. -/
theorem trimEnd_append_of_ne_nil {t : Text} (h : trimEnd t ≠ []) (s : Text) :
    trimEnd (s ++ t) = s ++ trimEnd t := by
  have hall : t.all isSpace = false := Bool.eq_false_iff.mpr (mt trimEnd_eq_nil_iff.mpr h)
  -- A character is dropped only if all behind it is white, and `t` is not.
  induction s with
  | nil => rfl
  | cons c rest ih =>
      rw [List.cons_append, trimEnd, List.all_append, hall, Bool.and_false, Bool.false_and, ih]
      rfl

theorem trimEnd_cons {c : Char} (h : isSpace c = false) (rest : Text) :
    trimEnd (c :: rest) = c :: trimEnd rest := by
  rw [trimEnd, h, Bool.and_false]
  rfl

/-- The white space at the end of a tail belongs to it wherever it stands. -/
theorem tail_trimEnd_iff {t : Text} : Tail (trimEnd t) ↔ Tail t := by
  constructor
  · intro h
    obtain ⟨space, ht, hspace⟩ := trimEnd_append_white t
    rw [ht]
    exact h.append_white hspace
  · intro h
    -- No mark is white space, so what is trimmed stands behind the last of them.
    have hmark : ∀ c rest, trimEnd ('/' :: c :: rest) ≠ [] := fun c rest => by
      rw [trimEnd_cons (by decide)]
      exact List.cons_ne_nil _ _
    -- Induction on the tail: the marks stay, and trimming goes on in the part behind them.
    induction h with
    | white hspace =>
        rw [trimEnd_eq_nil_iff.mpr (List.all_eq_true.mpr hspace)]
        exact .white nofun
    | @lineComment space rest hspace =>
        rw [trimEnd_append_of_ne_nil (hmark _ _), trimEnd_cons (by decide),
          trimEnd_cons (by decide)]
        exact .lineComment hspace
    | @blockComment space comment rest hspace hcomment _ ih =>
        have hclose : trimEnd ('*' :: '/' :: rest) = '*' :: '/' :: trimEnd rest := by
          rw [trimEnd_cons (by decide), trimEnd_cons (by decide)]
        rw [trimEnd_append_of_ne_nil (hmark _ _), trimEnd_cons (by decide),
          trimEnd_cons (by decide), trimEnd_append_of_ne_nil (by rw [hclose]; exact nofun), hclose]
        exact .blockComment hspace hcomment ih

/-- A text that a reader of tails has taken in is a tail, or the rest of a comment
    and then a tail. -/
theorem tail_of_skipComments {inside : Bool} {t rest : Text}
    (h : skipComments inside t = some rest) (hrest : rest = [] ∨ ∃ u, rest = '/' :: '/' :: u) :
    (inside = false → Tail t) ∧ (inside = true →
      ∃ comment after, t = comment ++ '*' :: '/' :: after ∧ Unclosed comment ∧ Tail after) := by
  -- Induction on the reader, outside and inside a comment at once: each hands over to
  -- the other at a mark.
  fun_induction skipComments inside t with
  | case1 => exact ⟨fun _ => .white nofun, nofun⟩
  | case2 t ih =>
      obtain ⟨comment, after, rfl, hcomment, hafter⟩ := (ih h).2 rfl
      exact ⟨fun _ => @Tail.blockComment [] comment after nofun hcomment hafter, nofun⟩
  | case3 c t _ hc ih =>
      refine ⟨fun _ => ?_, nofun⟩
      exact @Tail.white_append [c] t (List.forall_mem_singleton.mpr hc) ((ih h).1 rfl)
  | case4 c t _ hc =>
      obtain rfl := Option.some.inj h
      obtain hnil | ⟨u, hu⟩ := hrest
      · cases hnil
      · rw [hu]
        exact ⟨fun _ => @Tail.lineComment [] u nofun, nofun⟩
  | case5 => cases h
  | case6 t ih => exact ⟨nofun, fun _ => ⟨[], t, rfl, by simp [Unclosed], (ih h).1 rfl⟩⟩
  | case7 c t hmark ih =>
      refine ⟨nofun, fun _ => ?_⟩
      obtain ⟨comment, after, rfl, hcomment, hafter⟩ := (ih h).2 rfl
      -- The comment goes on, since the character and the next are not its end.
      refine ⟨c :: comment, after, rfl, unclosed_cons.mpr ⟨?_, hcomment⟩, hafter⟩
      intro hstar hslash
      obtain ⟨u, rfl⟩ := List.head?_eq_some_iff.mp hslash
      exact hmark _ hstar rfl

theorem skipComments_of_tail {t : Text} (h : Tail t) :
    skipComments false t = some [] ∨ ∃ u, skipComments false t = some ('/' :: '/' :: u) := by
  -- White space and closed comments are skipped; what is left is nothing or a line comment.
  induction h with
  | @white space hspace =>
      have hskip := skipComments_white hspace []
      rw [List.append_nil] at hskip
      exact Or.inl hskip
  | @lineComment space rest hspace =>
      exact Or.inr ⟨rest, skipComments_white hspace _⟩
  | blockComment hspace hcomment _ ih =>
      rw [skipComments_white hspace, skipComments.eq_2, skipComments_comment hcomment]
      exact ih

/-- Which tails are accepted. -/
theorem readTail_eq_ok_iff {after : Argument} {tail : Text} :
    readTail after tail = .ok () ↔ Tail tail := by
  -- The reader trims first, which does not change whether the text is a tail.
  rw [← tail_trimEnd_iff, readTail]
  constructor
  · intro h
    split at h
    · cases h
    · next hskip => exact (tail_of_skipComments hskip (Or.inl rfl)).1 rfl
    · next u hskip => exact (tail_of_skipComments hskip (Or.inr ⟨u, rfl⟩)).1 rfl
    · cases h
  · intro h
    rcases skipComments_of_tail h with hskip | ⟨u, hskip⟩
    · rw [hskip]
    · rw [hskip]
      rfl

end Tails

section Names

theorem map_readTail_eq_ok_iff {after : Argument} {tail : Text} {name result : String} :
    (readTail after tail).map (fun _ => name) = .ok result ↔ Tail tail ∧ name = result := by
  rw [← @readTail_eq_ok_iff after]
  cases readTail after tail <;> simp [Except.map]

/-- A delimited name is what stands in front of the first closing delimiter. -/
theorem readDelimited_eq_ok_iff {close : Char} {text : Text} {name : String} :
    readDelimited close text = .ok name ↔ ∃ tail, text = name.toList ++ close :: tail ∧
      close ∉ name.toList ∧ ¬ White name.toList ∧ Tail tail := by
  have hopen : ∀ {t : Text}, (∀ c ∈ t, decide (c ≠ close) = true) ↔ close ∉ t := by
    intro t
    simp only [decide_eq_true_eq]
    exact ⟨fun h hmem => h close hmem rfl, fun h c hc heq => h (heq ▸ hc)⟩
  constructor
  · intro h
    simp only [readDelimited] at h
    split at h
    · cases h
    · next c tail hdrop =>
      obtain ⟨htext, hname, hstops⟩ := span_eq_iff.mp ⟨rfl, hdrop⟩
      -- What stands behind the name is a closing delimiter, as nothing else stops it.
      obtain rfl : c = close := by simpa using stops_cons.mp hstops
      split at h
      · cases h
      · next hwhite =>
        obtain ⟨htail, rfl⟩ := map_readTail_eq_ok_iff.mp h
        rw [String.toList_ofList]
        exact ⟨tail, htext, hopen.mp hname, fun hall => hwhite (List.all_eq_true.mpr hall), htail⟩
  · rintro ⟨tail, rfl, hname, hwhite, htail⟩
    obtain ⟨htake, hdrop⟩ := span_eq_iff.mpr ⟨Eq.refl (name.toList ++ close :: tail),
      hopen.mpr hname, stops_cons.mpr (by simp)⟩
    simp only [readDelimited, htake, hdrop]
    rw [if_neg fun hall => hwhite (List.all_eq_true.mp hall), map_readTail_eq_ok_iff]
    exact ⟨htail, String.ofList_toList⟩

theorem mem_delimiters_iff {opening closing : Char} : (opening, closing) ∈ delimiters ↔
    opening = '"' ∧ closing = '"' ∨ opening = '<' ∧ closing = '>' := by
  simp only [delimiters, List.mem_cons, Prod.mk.injEq, List.not_mem_nil, or_false]

theorem readInclude_eq_ok_iff {text : Text} {name : String} :
    readInclude text = .ok name ↔ IncludeName name.toList text := by
  constructor
  · intro h
    -- The delimiters are tried one after the other, and each settles which name is read.
    unfold readInclude at h
    split at h
    · next rest hquote =>
      obtain ⟨space, rfl, hspace⟩ := (trimStart_eq_cons_iff (by decide)).mp hquote
      obtain ⟨tail, rfl, hname, hwhite, htail⟩ := readDelimited_eq_ok_iff.mp h
      exact ⟨space, '"', '"', tail, rfl, hspace, by decide, hname, hwhite, htail⟩
    · next rest hangle =>
      obtain ⟨space, rfl, hspace⟩ := (trimStart_eq_cons_iff (by decide)).mp hangle
      obtain ⟨tail, rfl, hname, hwhite, htail⟩ := readDelimited_eq_ok_iff.mp h
      exact ⟨space, '<', '>', tail, rfl, hspace, by decide, hname, hwhite, htail⟩
    · cases h
  · rintro ⟨space, opening, closing, tail, rfl, hspace, hdelimiters, hname, hwhite, htail⟩
    have hread := readDelimited_eq_ok_iff.mpr ⟨tail, rfl, hname, hwhite, htail⟩
    rcases mem_delimiters_iff.mp hdelimiters with ⟨rfl, rfl⟩ | ⟨rfl, rfl⟩
    · rw [readInclude, (trimStart_eq_cons_iff (by decide)).mpr ⟨space, rfl, hspace⟩]
      exact hread
    · rw [readInclude, (trimStart_eq_cons_iff (by decide)).mpr ⟨space, rfl, hspace⟩]
      exact hread

theorem isWordChar_of_isWordStart {c : Char} (h : isWordStart c) : isWordChar c := by
  simp only [isWordStart, isWordChar, Char.isAlphanum, Bool.or_eq_true] at h ⊢
  exact h.imp_left Or.inl

/-- A character that begins an identifier is one of ASCII above the white space. -/
theorem isSpace_eq_false_of_isWordStart {c : Char} (h : isWordStart c) : isSpace c = false := by
  -- As numbers, so that the ten ranges of white space are ruled out by arithmetic.
  have hword : (65 ≤ c.toNat ∧ c.toNat ≤ 90 ∨ 97 ≤ c.toNat ∧ c.toNat ≤ 122) ∨ c.toNat = 95 := by
    simp only [isWordStart, Bool.or_eq_true, decide_eq_true_eq] at h
    rcases h with halpha | rfl
    · have hrange : (decide (65 ≤ c.val ∧ c.val ≤ 90) || 97 ≤ c.val && c.val ≤ 122) = true :=
        halpha
      simp only [UInt32.le_iff_toNat_le, Bool.or_eq_true, Bool.and_eq_true, decide_eq_true_eq]
        at hrange
      exact Or.inl hrange
    · exact Or.inr rfl
  simp only [isSpace, spaceRanges, List.any_eq_false, List.mem_cons, List.not_mem_nil, or_false,
    Bool.and_eq_true, decide_eq_true_eq]
  rintro range (rfl | rfl | rfl | rfl | rfl | rfl | rfl | rfl | rfl | rfl) <;> dsimp only <;> omega

theorem Identifier.isWordChar {name : Text} (h : Identifier name) : ∀ c ∈ name, isWordChar c := by
  obtain ⟨c, rest, rfl, hc, hrest⟩ := h
  exact List.forall_mem_cons.mpr ⟨isWordChar_of_isWordStart hc, hrest⟩

/-- An identifier is the whole word that a text begins with. -/
theorem readBlockName_eq_ok_iff {text : Text} {name : String} :
    readBlockName text = .ok name ↔ ∃ tail, text = name.toList ++ tail ∧
      Identifier name.toList ∧ Stops isWordChar tail ∧ Tail tail := by
  constructor
  · intro h
    unfold readBlockName at h
    split at h
    · cases h
    · next c rest hword =>
      obtain ⟨htext, hrun, hstops⟩ := span_eq_iff.mp ⟨hword, Eq.refl (text.dropWhile isWordChar)⟩
      split at h
      · next hstart =>
        obtain ⟨htail, rfl⟩ := map_readTail_eq_ok_iff.mp h
        rw [String.toList_ofList]
        exact ⟨_, htext, ⟨c, rest, rfl, hstart, (List.forall_mem_cons.mp hrun).2⟩, hstops, htail⟩
      · cases h
  · rintro ⟨tail, rfl, hname, hstops, htail⟩
    obtain ⟨hword, hafter⟩ := span_eq_iff.mpr ⟨rfl, hname.isWordChar, hstops⟩
    obtain ⟨c, rest, heq, hstart, -⟩ := hname
    simp only [readBlockName, leadingWord, afterWord, hword, hafter]
    rw [heq]
    dsimp only
    rw [if_pos hstart, map_readTail_eq_ok_iff, ← heq]
    exact ⟨htail, String.ofList_toList⟩

theorem readAutoresolve_eq_ok_iff {text : Text} {name : String} :
    readAutoresolve text = .ok name ↔ BlockName name.toList text := by
  constructor
  · intro h
    unfold readAutoresolve at h
    split at h
    · cases h
    · next blank rest =>
      split at h
      · next hblank =>
        obtain ⟨tail, htrim, hname, hstops, htail⟩ := readBlockName_eq_ok_iff.mp h
        rw [trimStart, List.dropWhile_cons_of_pos (isSpace_of_isBlank hblank)] at htrim
        obtain ⟨space, rfl, hspace, -⟩ := dropWhile_eq_iff.mp htrim
        exact ⟨blank, space, tail, rfl, hblank, hspace, hname, hstops, htail⟩
      · cases h
  · rintro ⟨blank, space, tail, rfl, hblank, hspace, hname, hstops, htail⟩
    -- An identifier begins with no white space, so the space ends where it starts.
    have htrim : trimStart (blank :: (space ++ (name.toList ++ tail))) = name.toList ++ tail := by
      rw [trimStart, List.dropWhile_cons_of_pos (isSpace_of_isBlank hblank), dropWhile_eq_iff]
      refine ⟨space, rfl, hspace, ?_⟩
      obtain ⟨c, rest, heq, hstart, -⟩ := hname
      rw [heq]
      exact stops_cons.mpr (isSpace_eq_false_of_isWordStart hstart)
    rw [readAutoresolve, if_pos hblank, htrim, readBlockName_eq_ok_iff]
    exact ⟨tail, rfl, hname, hstops, htail⟩

/-- Which texts behind a keyword are accepted, and as which name. -/
theorem read_eq_ok_iff {keyword : Keyword} {text : Text} {name : String} :
    keyword.read text = .ok name ↔ keyword.Names name.toList text := by
  cases keyword with
  | includeFile => exact readInclude_eq_ok_iff
  | autoresolve => exact readAutoresolve_eq_ok_iff

end Names

end ShaderBuild
