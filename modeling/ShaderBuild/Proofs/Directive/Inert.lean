import Mathlib.Data.List.Forall2
import ShaderBuild.Proofs.Directive.Concatenation

/-!
# Text Without Directives

What a scan makes of text in which it finds no directive, and what the text is
to a reader who knows of no directives at all.

A compiler that is handed a flattened text follows its block comments from the
first line to the last. The scan of a file does the same but for the lines it
takes as directives, which it does not look into. `openAfter` is the compiler's
account and `commentAfter` is that of the scan. Lines without directives are the
ones that the scan gives back unchanged, all of them as one piece of text.

This is a fact about lines, while texts are put together from pieces that need
not end where a line does. The one piece that is ever put behind an unfinished
line is a terminator. It turns a carriage return at the end of the line into a
part of itself, so the body can change, but only by a character that neither a
directive nor a comment takes notice of.

## Main definitions

* `openAfter`: Whether a block comment is open after some lines.
* `Inert`: No line is a directive.
* `Line.Frays`: Two lines differ at most by a carriage return and their ends.

## Theorems

* `lines_eq_cons`: The first line of a text is a text of one line.
* `scanLines_of_inert`, `tokenize_of_inert`: Lines without directives are text.
* `directive?_return`, `inComment_return`: A carriage return at the end of a line
  makes no difference.
* `inert_terminated`, `openAfter_terminated`: Neither does a terminator.
-/

namespace ShaderBuild

/-- Whether a block comment is open after some lines, given whether one is open
    before them. No line is anything but text here. -/
def openAfter (commented : Bool) (ls : List Line) : Bool :=
  ls.foldl (fun commented line => inComment commented line.body) commented

/-- No line is a directive, given whether a block comment is open before them. -/
def Inert : Bool → List Line → Prop
  | _, [] => True
  | commented, line :: rest =>
    (commented = false → directive? line.body = none) ∧ Inert (inComment commented line.body) rest

section Lines

theorem openAfter_append (commented : Bool) (front back : List Line) :
    openAfter commented (front ++ back) = openAfter (openAfter commented front) back := by
  rw [openAfter, List.foldl_append]
  rfl

theorem inert_append_iff {commented : Bool} {front back : List Line} :
    Inert commented (front ++ back) ↔
      Inert commented front ∧ Inert (openAfter commented front) back := by
  -- Induction on the lines in front, with the bit that each leaves for the next.
  induction front generalizing commented with
  | nil => simp only [List.nil_append, Inert, openAfter, List.foldl_nil, true_and]
  | cons line rest ih =>
      rw [List.cons_append, Inert, Inert, ih, and_assoc]
      rfl

/-- The first line of a text is a text of one line, and the others are the lines
    of what follows it. -/
theorem lines_eq_cons {t : Text} {line : Line} {rest : List Line} (h : lines t = line :: rest) :
    ∃ u, t = line.text ++ u ∧ lines line.text = [line] ∧ lines u = rest ∧
      (rest ≠ [] → line.terminator ≠ .none) := by
  have hended : rest ≠ [] → line.terminator ≠ .none :=
    terminator_ne_none (show lines t = [] ++ line :: rest from h)
  -- Induction along the recursion of `lines`. A terminator in front is the whole first line;
  -- any other character joins the first line of what follows.
  fun_induction lines t generalizing line with
  | case1 => cases h
  | case2 u _ =>
      obtain ⟨rfl, rfl⟩ := List.cons.inj h
      exact ⟨u, rfl, rfl, rfl, hended⟩
  | case3 u _ =>
      obtain ⟨rfl, rfl⟩ := List.cons.inj h
      exact ⟨u, rfl, rfl, rfl, hended⟩
  | case4 c u hfeed hreturn ih =>
      -- A line that starts with an ordinary character is one that starts after it,
      -- provided the character and the next are not a terminator together.
      have hlines : ∀ v, (∀ w, v ≠ '\n' :: w ∨ c ≠ '\r') → lines (c :: v) = consBody c (lines v) :=
        fun v hv => lines.eq_4 c v hfeed fun w hc hw => (hv w).elim (· hw) (· hc)
      cases hu : lines u with
      | nil =>
          have hnil : u = [] := by
            by_contra hne
            exact lines_ne_nil hne hu
          rw [hu, consBody] at h
          obtain ⟨rfl, rfl⟩ := List.cons.inj h
          subst hnil
          refine ⟨[], rfl, ?_, rfl, hended⟩
          exact hlines [] fun w => Or.inl (List.cons_ne_nil _ _).symm
      | cons first others =>
          rw [hu, consBody] at h
          obtain ⟨rfl, rfl⟩ := List.cons.inj h
          obtain ⟨v, hv, hfirst, hothers, -⟩ := ih hu
            (terminator_ne_none (show lines u = [] ++ first :: others from hu))
          refine ⟨v, congrArg (c :: ·) hv, ?_, hothers, hended⟩
          -- The terminator would have to start with the first line of what follows, which the
          -- recursion has ruled out.
          have hsafe : ∀ w, first.text ≠ '\n' :: w ∨ c ≠ '\r' := by
            intro w
            by_contra hboth
            obtain ⟨hw, hc⟩ := not_or.mp hboth
            exact hreturn (w ++ v) (not_not.mp hc) (by rw [hv, not_not.mp hw]; rfl)
          exact (hlines first.text hsafe).trans (congrArg (consBody c) hfirst)

end Lines

section Scan

/-- The scan takes the first of such lines as text. -/
theorem plain_of_inert_cons {commented : Bool} {line : Line} {rest : List Line}
    (h : Inert commented (line :: rest)) :
    (if commented then none else directive? line.body) = none := by
  cases commented with
  | false => exact h.1 rfl
  | true => rfl

/-- Lines without directives are text, all in one piece. -/
theorem scanLines_of_inert {commented : Bool} {ls : List Line} (h : Inert commented ls) (n : Nat) :
    scanLines commented n ls = .ok (consText (ls.flatMap Line.text) []) := by
  -- The first line is text, and its own comments decide where the next one starts.
  induction ls generalizing commented n with
  | nil => rfl
  | cons line rest ih =>
      rw [scanLines, plain_of_inert_cons h]
      dsimp only
      rw [ih h.2, List.flatMap_cons, consText_append]
      rfl

theorem tokenize_of_inert {t : Text} (h : Inert false (lines t)) :
    tokenize t = .ok (consText t []) := by
  rw [tokenize, scanLines_of_inert h, text_lines]

end Scan

section Return

theorem takeWhile_return {p : Char → Bool} (h : p '\r' = false) (t : Text) :
    (t ++ ['\r']).takeWhile p = t.takeWhile p := by
  -- The class stops at the carriage return at the latest.
  induction t with
  | nil => exact List.takeWhile_cons_of_neg (by simp only [h, Bool.false_eq_true, not_false_eq_true])
  | cons c rest ih =>
      rw [List.cons_append, List.takeWhile_cons, List.takeWhile_cons, ih]

theorem dropWhile_return {p : Char → Bool} (h : p '\r' = false) (t : Text) :
    (t ++ ['\r']).dropWhile p = t.dropWhile p ++ ['\r'] := by
  induction t with
  | nil => exact List.dropWhile_cons_of_neg (by simp only [h, Bool.false_eq_true, not_false_eq_true])
  | cons c rest ih =>
      rw [List.cons_append, List.dropWhile_cons, List.dropWhile_cons, ih]
      split <;> rfl

theorem trimStart_return (t : Text) :
    trimStart (t ++ ['\r']) = if trimStart t = [] then [] else trimStart t ++ ['\r'] := by
  have hspace : trimStart ['\r'] = [] := by decide
  -- White space up to the end takes the carriage return along.
  rw [trimStart, List.dropWhile_append]
  exact if_congr List.isEmpty_iff hspace rfl

/-- A carriage return at the end of a line does not make it a directive, nor
    keeps it from being one. -/
theorem directive?_return (t : Text) : directive? (t ++ ['\r']) = none ↔ directive? t = none := by
  simp only [directive?, trimStart_return]
  cases htrim : trimStart t with
  | nil => rfl
  | cons c rest =>
      rw [if_neg (List.cons_ne_nil c rest), List.cons_append]
      by_cases hsign : c = '#'
      · subst hsign
        -- The keyword ends before the carriage return at the latest.
        simp only [dropWhile_return (show isBlank '\r' = false by decide), leadingWord,
          takeWhile_return (show isWordChar '\r' = false by decide), Option.map_eq_none_iff]
      · split
        · next heq => exact absurd (List.cons.inj heq).1 hsign
        · split
          · next heq => exact absurd (List.cons.inj heq).1 hsign
          · rfl

/-- A carriage return at the end of a line opens and closes no comment. -/
theorem inComment_return (commented : Bool) (t : Text) :
    inComment commented (t ++ ['\r']) = inComment commented t := by
  -- Both marks have two characters, and neither has a carriage return as one.
  fun_induction inComment commented t with
  | case1 commented => cases commented <;> rfl
  | case2 rest ih => exact ih
  -- The mark is not made up by the carriage return: it would have to be one of its own.
  | case3 c rest hmark ih =>
      have hmark' : ∀ others, c = '*' → rest ++ ['\r'] = '/' :: others → False := by
        intro others hstar hslash
        cases rest with
        | nil => cases hslash
        | cons d ds => exact hmark ds hstar (by rw [(List.cons.inj hslash).1])
      rw [List.cons_append, inComment.eq_3 c _ hmark', ih]
  | case4 rest => rfl
  | case5 rest ih => exact ih
  | case6 c rest hline hblock ih =>
      -- Both openings are ruled out in the same way, each with its second character.
      have hfirst : ∀ mark others, mark ≠ '\r' → (∀ ds, rest = mark :: ds → False) →
          rest ++ ['\r'] = mark :: others → False := by
        intro mark others hreturn hrest heq
        cases rest with
        | nil => exact hreturn (List.cons.inj heq).1.symm
        | cons d ds => exact hrest ds (by rw [(List.cons.inj heq).1])
      rw [List.cons_append, inComment.eq_6 c _
        (fun others hslash => hfirst '/' others (by decide) fun ds => hline ds hslash)
        (fun others hslash => hfirst '*' others (by decide) fun ds => hblock ds hslash), ih]

end Return

/-- Two lines differ at most in how they end: in the terminator, and in a carriage
    return that has become part of it. -/
def Line.Frays (line frayed : Line) : Prop :=
  line.body = frayed.body ∨ line.body = frayed.body ++ ['\r']

section Terminated

theorem openAfter_of_frays {commented : Bool} {ls frayed : List Line}
    (h : List.Forall₂ Line.Frays ls frayed) : openAfter commented ls = openAfter commented frayed := by
  -- Line by line: frayed bodies leave a comment open or closed alike.
  induction h generalizing commented with
  | nil => rfl
  | @cons line other _ _ hline _ ih =>
      have hbody : inComment commented line.body = inComment commented other.body := by
        rcases hline with hsame | hreturn
        · rw [hsame]
        · rw [hreturn, inComment_return]
      rw [openAfter, openAfter, List.foldl_cons, List.foldl_cons, hbody]
      exact ih

theorem inert_of_frays {commented : Bool} {ls frayed : List Line}
    (h : List.Forall₂ Line.Frays ls frayed) : Inert commented ls ↔ Inert commented frayed := by
  induction h generalizing commented with
  | nil => rfl
  | cons hline _ ih =>
      rcases hline with hsame | hreturn
      · rw [Inert, Inert, hsame, ih]
      · rw [Inert, Inert, hreturn, directive?_return, inComment_return, ih]

theorem frays_consBody (c : Char) {ls frayed : List Line} (h : List.Forall₂ Line.Frays ls frayed)
    (hne : ls ≠ []) : List.Forall₂ Line.Frays (consBody c ls) (consBody c frayed) := by
  cases h with
  -- Only the first line changes, and it keeps its difference.
  | nil => exact absurd rfl hne
  | cons hline hrest =>
      refine List.Forall₂.cons ?_ hrest
      rcases hline with hsame | hreturn
      · exact Or.inl (congrArg (c :: ·) hsame)
      · exact Or.inr (congrArg (c :: ·) hreturn)

theorem frays_singleton {c : Char} (hfeed : c = '\n' → False) (terminator : Terminator) :
    List.Forall₂ Line.Frays [⟨[c], .none⟩] (lines (c :: terminator.text)) := by
  cases terminator with
  | none =>
      rw [Terminator.text, lines.eq_4 c [] hfeed (by simp)]
      exact List.Forall₂.cons (Or.inl rfl) List.Forall₂.nil
  | lineFeed =>
      by_cases hreturn : c = '\r'
      · -- The two characters are one terminator now.
        subst hreturn
        exact List.Forall₂.cons (Or.inr rfl) List.Forall₂.nil
      · rw [Terminator.text, lines.eq_4 c ['\n'] hfeed fun _ hc => absurd hc hreturn]
        exact List.Forall₂.cons (Or.inl rfl) List.Forall₂.nil
  | carriageReturnLineFeed =>
      rw [Terminator.text, lines.eq_4 c ['\r', '\n'] hfeed (by simp)]
      exact List.Forall₂.cons (Or.inl rfl) List.Forall₂.nil

/-- A terminator behind an unfinished line ends that line. -/
theorem frays_terminated {t : Text} (h : ¬ LineAligned t) (terminator : Terminator) :
    List.Forall₂ Line.Frays (lines t) (lines (t ++ terminator.text)) := by
  -- Only the last line of the text is unfinished, so the recursion passes over all others,
  -- each of which frays into itself.
  fun_induction lines t with
  | case1 => exact absurd (Or.inl rfl) h
  | case2 rest ih =>
      have hrest : ¬ LineAligned rest := fun hrest => h (lineAligned_cons.mpr ⟨fun _ => rfl, hrest⟩)
      exact List.Forall₂.cons (Or.inl rfl) (ih hrest)
  | case3 rest ih =>
      have hrest : ¬ LineAligned rest := fun hrest => h
        (lineAligned_cons.mpr ⟨by simp, lineAligned_cons.mpr ⟨fun _ => rfl, hrest⟩⟩)
      exact List.Forall₂.cons (Or.inl rfl) (ih hrest)
  | case4 c rest hfeed hreturn ih =>
      by_cases hne : rest = []
      · subst hne
        exact frays_singleton hfeed terminator
      · have hrest : ¬ LineAligned rest :=
          fun hrest => h (lineAligned_cons.mpr ⟨fun hnil => absurd hnil hne, hrest⟩)
        rw [List.cons_append, lines_cons_append hfeed hreturn hne]
        exact frays_consBody c (ih hrest) (lines_ne_nil hne)

theorem inert_lines_terminator (commented : Bool) (terminator : Terminator) :
    Inert commented (lines terminator.text) := by
  have hempty : directive? [] = none := rfl
  cases terminator <;> simp [Inert, lines, hempty, Terminator.text]

theorem openAfter_lines_terminator (commented : Bool) (terminator : Terminator) :
    openAfter commented (lines terminator.text) = commented := by
  cases terminator <;> cases commented <;> rfl

/-- A terminator makes no directive of what it is put behind, whether it ends a
    line there or is one by itself. -/
theorem inert_terminated {commented : Bool} {t : Text} (h : Inert commented (lines t))
    (terminator : Terminator) : Inert commented (lines (t ++ terminator.text)) := by
  by_cases haligned : LineAligned t
  -- The terminator is a line of its own, an empty one.
  · rw [lines_append haligned, inert_append_iff]
    exact ⟨h, inert_lines_terminator _ terminator⟩
  · exact (inert_of_frays (frays_terminated haligned terminator)).mp h

/-- A terminator opens and closes no comment. -/
theorem openAfter_terminated (commented : Bool) (t : Text) (terminator : Terminator) :
    openAfter commented (lines (t ++ terminator.text)) = openAfter commented (lines t) := by
  by_cases haligned : LineAligned t
  · rw [lines_append haligned, openAfter_append, openAfter_lines_terminator]
  · exact (openAfter_of_frays (frays_terminated haligned terminator)).symm

end Terminated

end ShaderBuild
