import Mathlib.Data.List.Induction
import ShaderBuild.Proofs.Directive.Inert
import ShaderBuild.Proofs.Directive.LineScan

/-!
# Comments in the Whole Text

What it means that a line starts inside a block comment, said about the characters
of the text and not about its lines.

A reader of the whole text goes over its characters from left to right in one of
three modes. It knows nothing of lines but that a line feed ends a line comment, and
it reads on where a directive stands. The scan of a file does neither: it looks at
one line at a time and starts each with one bit, and it does not look into the lines
it takes as directives. The two can be compared because a mark of two characters
never has a terminator in it, and because the grammar of directives leaves no comment
open behind an argument.

The one thing a reader of the whole text must not read is the name of an include. It
is a path between delimiters and not code, so two slashes in it open no comment.

## Main definitions

* `Mode`, `Mode.read`: The reader of the whole text.
* `withoutName`, `Line.shown`: What of a line is read.
* `Line.IsInclude`: A line has the form of an include.
* `seen`: What is read of some lines.

## Theorems

* `read_append`: A text of whole lines is read, and then what follows it.
* `endLine_read_shown`: The bit of the scan and the mode agree after a line.
* `inComment_withoutName`, `inComment_of_blockName`: A directive leaves no comment
  open.
-/

namespace ShaderBuild

/-- What a reader of the whole text takes the next character to be a part of. -/
inductive Mode where
  | code
  | lineComment
  | blockComment
  deriving DecidableEq, Repr

namespace Mode

/-- The mode after some characters. Marks are read as pairs. -/
def read : Mode → Text → Mode
  | mode, [] => mode
  | .code, '/' :: '/' :: rest => read .lineComment rest
  | .code, '/' :: '*' :: rest => read .blockComment rest
  | .blockComment, '*' :: '/' :: rest => read .code rest
  | .lineComment, '\n' :: rest => read .code rest
  | mode, _ :: rest => read mode rest

/-- The star that opens a comment does not close it, and a line comment inside a block
    comment is no comment. -/
example : Mode.code.read "/*/ // ".toList = .blockComment := by decide

/-- The mode at the start of a line, by the bit of the scan. -/
def ofBit : Bool → Mode
  | false => .code
  | true => .blockComment

/-- The mode once the line has ended. -/
def endLine : Mode → Mode
  | .lineComment => .code
  | mode => mode

end Mode

/-- The body of an include without what stands between the delimiters of its name. -/
def withoutName (body : Text) : Text :=
  let front := body.takeWhile fun c => c ≠ '"' && c ≠ '<'
  match body.dropWhile fun c => c ≠ '"' && c ≠ '<' with
  | '"' :: rest => front ++ '"' :: rest.dropWhile (· ≠ '"')
  | '<' :: rest => front ++ '<' :: rest.dropWhile (· ≠ '>')
  | rest => front ++ rest

namespace Line

/-- A line has the form of an include. -/
def IsInclude (line : Line) : Prop :=
  ∃ rest name, Opens .includeFile rest line.body ∧ IncludeName name rest

theorem isInclude_iff {line : Line} : line.IsInclude ↔ ∃ rest name,
    directive? line.body = some (.includeFile, rest) ∧ readInclude rest = .ok name := by
  constructor
  · rintro ⟨rest, name, hopens, hname⟩
    refine ⟨rest, String.ofList name, directive?_eq_some_iff.mpr hopens, ?_⟩
    rwa [readInclude_eq_ok_iff, String.toList_ofList]
  · rintro ⟨rest, name, hdirective, hread⟩
    exact ⟨rest, name.toList, directive?_eq_some_iff.mp hdirective, readInclude_eq_ok_iff.mp hread⟩

instance (line : Line) : Decidable line.IsInclude :=
  decidable_of_iff
    ((directive? line.body).any fun found =>
      found.1 = .includeFile && (readInclude found.2).toBool) <| by
    rw [isInclude_iff]
    cases directive? line.body with
    | none => simp
    | some found =>
        obtain ⟨keyword, rest⟩ := found
        cases keyword <;> cases hread : readInclude rest <;>
          simp [hread, Except.toBool]

/-- What a reader of the whole text reads of a line, given whether it is taken as an
    include. -/
def shown (line : Line) (isInclude : Bool) : Text :=
  (if isInclude then withoutName line.body else line.body) ++ line.terminator.text

end Line

/-- What a reader of the whole text reads of some lines: all but the names of the
    includes that it comes to outside block comments. -/
def seen (ls : List Line) : Text :=
  ls.foldl (fun past line =>
    past ++ line.shown (Mode.code.read past ≠ .blockComment && line.IsInclude)) []

section Reading

namespace Mode

theorem read_feed (mode : Mode) (rest : Text) :
    mode.read ('\n' :: rest) = mode.endLine.read rest := by
  cases mode with
  | code => exact read.eq_6 _ _ _ (fun _ _ => nofun) (fun _ _ => nofun) nofun nofun
  | lineComment => exact read.eq_5 rest
  | blockComment => exact read.eq_6 _ _ _ nofun nofun (fun _ _ => nofun) nofun

/-- Text is read up to the end of a line, and then what follows. -/
theorem read_append_feed (mode : Mode) (s rest : Text) :
    mode.read (s ++ '\n' :: rest) = (mode.read s).endLine.read rest := by
  -- A line feed is not a part of any mark of two characters.
  fun_induction read mode s with
  | case1 mode => exact read_feed mode rest
  | case2 s ih => exact ih
  | case3 s ih => exact ih
  | case4 s ih => exact ih
  | case5 s ih => exact ih
  | case6 mode c s hline hblock hclose hfeed ih =>
      -- A mark that begins at `c` and ends behind the line feed would need a mark sign there,
      -- so it ends within `s` if anywhere.
      have hfirst : ∀ mark others, mark ≠ '\n' → s ++ '\n' :: rest = mark :: others →
          ∃ ds, s = mark :: ds := by
        intro mark others hmark heq
        cases s with
        | nil => exact absurd (List.cons.inj heq).1.symm hmark
        | cons d ds => exact ⟨ds, by rw [(List.cons.inj heq).1]⟩
      rw [List.cons_append, read.eq_6 mode c _ ?_ ?_ ?_ hfeed, ih]
      · intro others hmode hc heq
        obtain ⟨ds, hds⟩ := hfirst '/' others (by decide) heq
        exact hline ds hmode hc hds
      · intro others hmode hc heq
        obtain ⟨ds, hds⟩ := hfirst '*' others (by decide) heq
        exact hblock ds hmode hc hds
      · intro others hmode hc heq
        obtain ⟨ds, hds⟩ := hfirst '/' others (by decide) heq
        exact hclose ds hmode hc hds

/-- A text of whole lines is read, and then what follows it. -/
theorem read_append {s : Text} (h : LineAligned s) (mode : Mode) (t : Text) :
    mode.read (s ++ t) = (mode.read s).read t := by
  rcases h with rfl | hlast
  · rfl
  · obtain ⟨front, rfl⟩ := List.getLast?_eq_some_iff.mp hlast
    rw [List.append_assoc, List.singleton_append, read_append_feed, read_append_feed]
    rfl

theorem read_lineComment {t : Text} (h : '\n' ∉ t) : lineComment.read t = .lineComment := by
  induction t with
  | nil => rfl
  | cons c rest ih =>
      obtain ⟨hc, hrest⟩ := not_or.mp (mt List.mem_cons.mpr h)
      rw [read.eq_6 .lineComment c rest nofun nofun nofun fun _ heq => hc heq.symm, ih hrest]

/-- On the body of a line the reader of the whole text comes to where the scan does. -/
theorem endLine_read {body : Text} (h : '\n' ∉ body) (commented : Bool) :
    ((ofBit commented).read body).endLine = ofBit (inComment commented body) := by
  -- Both take the same steps until a line comment begins. There the scan stops, and
  -- the reader goes on to the end of the line without leaving its mode.
  fun_induction inComment commented body with
  | case1 commented => cases commented <;> rfl
  | case2 rest ih => exact ih fun hmem => h (by simp [hmem])
  | case3 c rest hmark ih =>
      rw [← ih fun hmem => h (List.mem_cons_of_mem c hmem)]
      exact congrArg endLine (read.eq_6 _ _ _ (by simp [ofBit]) (by simp [ofBit])
        (fun ds _ => hmark ds) (by simp [ofBit]))
  | case4 rest =>
      rw [ofBit, read.eq_2, read_lineComment fun hmem => h (by simp [hmem])]
      rfl
  | case5 rest ih => exact ih fun hmem => h (by simp [hmem])
  | case6 c rest hline hblock ih =>
      rw [← ih fun hmem => h (List.mem_cons_of_mem c hmem)]
      exact congrArg endLine (read.eq_6 _ _ _ (fun ds _ => hline ds) (fun ds _ => hblock ds)
        (by simp [ofBit]) (by simp [ofBit]))

theorem endLine_ofBit (commented : Bool) : (ofBit commented).endLine = ofBit commented := by
  cases commented <;> rfl

/-- The same with the terminator of the line. -/
theorem endLine_read_terminated {body : Text} (h : '\n' ∉ body) (commented : Bool)
    (terminator : Terminator) :
    ((ofBit commented).read (body ++ terminator.text)).endLine =
      ofBit (inComment commented body) := by
  cases terminator with
  | none =>
      rw [Terminator.text, List.append_nil]
      exact endLine_read h commented
  | lineFeed =>
      rw [Terminator.text, read_append_feed, endLine_read h, read, endLine_ofBit]
  | carriageReturnLineFeed =>
      -- The carriage return is read as if it were the last character of the body.
      have hbody : '\n' ∉ body ++ ['\r'] := by simp [h]
      rw [Terminator.text, show body ++ ['\r', '\n'] = body ++ ['\r'] ++ '\n' :: [] by simp,
        read_append_feed, endLine_read hbody, inComment_return, read, endLine_ofBit]

theorem endLine_read_of_lineAligned {s : Text} (h : LineAligned s) :
    (Mode.code.read s).endLine = Mode.code.read s := by
  rcases h with rfl | hlast
  · rfl
  · -- The line feed at its end has ended a line comment if there was one.
    obtain ⟨front, rfl⟩ := List.getLast?_eq_some_iff.mp hlast
    rw [read_append_feed, read]
    cases Mode.code.read front <;> rfl

end Mode

theorem feed_notMem_body {t : Text} : ∀ line ∈ lines t, '\n' ∉ line.body := by
  fun_induction lines t with
  | case1 => exact List.forall_mem_nil _
  | case2 rest ih => exact List.forall_mem_cons.mpr ⟨List.not_mem_nil, ih⟩
  | case3 rest ih => exact List.forall_mem_cons.mpr ⟨List.not_mem_nil, ih⟩
  -- The character joins the first line of the rest, and the other lines stay.
  | case4 c rest hfeed _ ih =>
      have hc : '\n' ∉ [c] := fun hmem => hfeed (List.mem_singleton.mp hmem).symm
      cases hrest : lines rest with
      | nil => exact List.forall_mem_singleton.mpr hc
      | cons first others =>
          rw [hrest] at ih
          obtain ⟨hfirst, hothers⟩ := List.forall_mem_cons.mp ih
          refine List.forall_mem_cons.mpr ⟨fun hmem => ?_, hothers⟩
          exact (List.mem_cons.mp hmem).elim (fun heq => hfeed heq.symm) hfirst

end Reading

section Directives

/-- A character that may stand in front of the argument of a directive. -/
def isPlain (c : Char) : Bool :=
  isSpace c || c = '#' || isWordChar c

theorem notMem_of_isPlain {s : Text} (h : ∀ c ∈ s, isPlain c) {c : Char}
    (hc : isPlain c = false) : c ∉ s := by
  intro hmem
  rw [h c hmem] at hc
  cases hc

theorem isPlain_of_white {space : Text} (h : White space) : ∀ c ∈ space, isPlain c := by
  intro c hc
  rw [isPlain, h c hc, Bool.true_or, Bool.true_or]

theorem Opens.exists_front {keyword : Keyword} {rest body : Text} (h : Opens keyword rest body) :
    ∃ front, body = front ++ rest ∧ ∀ c ∈ front, isPlain c := by
  obtain ⟨space, blanks, rfl, hspace, hblanks, -⟩ := h
  refine ⟨space ++ '#' :: (blanks ++ keyword.word), by simp, ?_⟩
  simp only [List.forall_mem_append, List.forall_mem_cons]
  -- The sign, the white space around it and the keyword are plain characters alike.
  refine ⟨isPlain_of_white hspace, by decide,
    isPlain_of_white fun c hc => isSpace_of_isBlank (hblanks c hc), fun c hc => ?_⟩
  rw [isPlain, isWordChar_of_mem_word hc, Bool.or_true]

theorem inComment_append_of_no_slash {s : Text} (h : '/' ∉ s) (t : Text) :
    inComment false (s ++ t) = inComment false t := by
  induction s with
  | nil => rfl
  | cons c rest ih =>
      obtain ⟨hc, hrest⟩ := not_or.mp (mt List.mem_cons.mpr h)
      rw [List.cons_append, inComment.eq_6 c _ (fun _ heq _ => hc heq.symm)
        (fun _ heq _ => hc heq.symm), ih hrest]

/-- No comment is left open behind an argument. -/
theorem Tail.inComment_eq_false {t : Text} (h : Tail t) : inComment false t = false := by
  have hskip : ∀ {space : Text}, White space → ∀ rest,
      inComment false (space ++ rest) = inComment false rest := fun hspace =>
    inComment_append_of_no_slash (notMem_of_isPlain (isPlain_of_white hspace) (by decide))
  -- Every comment that a tail opens it closes, or it is the last thing on the line.
  induction h with
  | @white space hspace =>
      have hnil := hskip hspace []
      rwa [List.append_nil] at hnil
  | lineComment hspace => rw [hskip hspace, inComment.eq_4]
  | blockComment hspace hcomment _ ih =>
      rw [hskip hspace, inComment.eq_5,
        past_comment inComment.eq_2 (fun c rest => inComment.eq_3 c rest) hcomment, ih]

theorem withoutName_eq {front name tail : Text} {opening closing : Char}
    (hfront : ∀ c ∈ front, isPlain c) (hdelimiters : (opening, closing) ∈ delimiters)
    (hname : closing ∉ name) :
    withoutName (front ++ opening :: (name ++ closing :: tail)) =
      front ++ opening :: closing :: tail := by
  -- The first delimiter on the line is the one that opens the name.
  have hplain : ∀ c ∈ front, (c ≠ '"' && c ≠ '<') = true := by
    intro c hc
    have hquote : c ≠ '"' := fun heq => notMem_of_isPlain hfront (by decide) (heq ▸ hc)
    have hangle : c ≠ '<' := fun heq => notMem_of_isPlain hfront (by decide) (heq ▸ hc)
    simp only [hquote, hangle, ne_eq, not_false_eq_true, decide_true, Bool.and_self]
  have hdrop : (name ++ closing :: tail).dropWhile (· ≠ closing) = closing :: tail := by
    refine dropWhile_eq_iff.mpr ⟨name, rfl, fun c hc => ?_, stops_cons.mpr (by simp)⟩
    exact decide_eq_true fun heq => hname (heq ▸ hc)
  have hopening : Stops (fun c => c ≠ '"' && c ≠ '<') (opening :: (name ++ closing :: tail)) := by
    refine stops_cons.mpr ?_
    rcases mem_delimiters_iff.mp hdelimiters with ⟨rfl, -⟩ | ⟨rfl, -⟩ <;> rfl
  -- So the body is cut at the delimiter, and then the name at the one that closes it.
  obtain ⟨htake, hrest⟩ := span_eq_iff.mpr ⟨rfl, hplain, hopening⟩
  simp only [withoutName, htake, hrest]
  rcases mem_delimiters_iff.mp hdelimiters with ⟨rfl, rfl⟩ | ⟨rfl, rfl⟩
  · exact congrArg (fun t => front ++ '"' :: t) hdrop
  · exact congrArg (fun t => front ++ '<' :: t) hdrop

theorem inComment_withoutName {line : Line} (h : line.IsInclude) :
    inComment false (withoutName line.body) = false := by
  obtain ⟨rest, name, hopens, space, opening, closing, tail, rfl, hspace, hdelimiters, hname, -,
    htail⟩ := h
  obtain ⟨front, hbody, hfront⟩ := hopens.exists_front
  -- All that is left of the line in front of the tail has no slash, so it opens nothing.
  have hplain : ∀ c ∈ front ++ space, isPlain c :=
    List.forall_mem_append.mpr ⟨hfront, isPlain_of_white hspace⟩
  have hslash : '/' ∉ front ++ space ++ [opening, closing] := by
    refine List.not_mem_append (notMem_of_isPlain hplain (by decide)) ?_
    rcases mem_delimiters_iff.mp hdelimiters with ⟨rfl, rfl⟩ | ⟨rfl, rfl⟩ <;> decide
  rw [hbody, ← List.append_assoc, withoutName_eq hplain hdelimiters hname,
    show front ++ space ++ opening :: closing :: tail =
      front ++ space ++ [opening, closing] ++ tail by simp,
    inComment_append_of_no_slash hslash, htail.inComment_eq_false]

theorem inComment_of_blockName {rest name body : Text} (h : Opens .autoresolve rest body)
    (hname : BlockName name rest) : inComment false body = false := by
  obtain ⟨blank, space, tail, rfl, hblank, hspace, hidentifier, -, htail⟩ := hname
  obtain ⟨front, rfl, hfront⟩ := h.exists_front
  -- Everything up to the end of the name is plain, so only the tail could open a comment.
  have hplain : ∀ c ∈ front ++ blank :: (space ++ name), isPlain c := by
    simp only [List.forall_mem_append, List.forall_mem_cons]
    refine ⟨hfront, ?_, isPlain_of_white hspace, fun c hc => ?_⟩
    · rw [isPlain, isSpace_of_isBlank hblank, Bool.true_or, Bool.true_or]
    · rw [isPlain, hidentifier.isWordChar c hc, Bool.or_true]
  rw [show front ++ blank :: (space ++ (name ++ tail)) =
      front ++ blank :: (space ++ name) ++ tail by simp,
    inComment_append_of_no_slash (notMem_of_isPlain hplain (by decide)), htail.inComment_eq_false]

end Directives

section Lines

theorem withoutName_sublist (body : Text) : (withoutName body).Sublist body := by
  have hcut := List.takeWhile_append_dropWhile (p := fun c => c ≠ '"' && c ≠ '<') (l := body)
  simp only [withoutName]
  -- Only what stands behind the delimiter is cut, so the front is kept in all three cases.
  split
  · next rest hdrop =>
    rw [hdrop] at hcut
    conv => rhs; rw [← hcut]
    exact ((List.dropWhile_sublist _).cons_cons _).append_left _
  · next rest hdrop =>
    rw [hdrop] at hcut
    conv => rhs; rw [← hcut]
    exact ((List.dropWhile_sublist _).cons_cons _).append_left _
  · rw [hcut]

theorem seen_concat (ls : List Line) (line : Line) : seen (ls ++ [line]) =
    seen ls ++ line.shown (Mode.code.read (seen ls) ≠ .blockComment && line.IsInclude) := by
  rw [seen, List.foldl_append]
  rfl

theorem not_isInclude_of_opens {line : Line} {rest : Text}
    (h : Opens .autoresolve rest line.body) : ¬ line.IsInclude := by
  rintro ⟨others, name, hopens, -⟩
  -- A line opens with one keyword, and here it is not that of an include.
  cases (h.unique hopens).1

/-- What is read of a line that the scan accepts comes to the bit that it leaves. -/
theorem inComment_shown {commented : Bool} {n : Nat} {line : Line} {tokens : List Token}
    (h : scanLines commented n [line] = .ok tokens) :
    inComment commented (if !commented && line.IsInclude then withoutName line.body
      else line.body) = commentAfter commented [line] := by
  cases lineScan h with
  | plain hplain =>
      -- A plain line is read whole, as it is no include or stands in a comment.
      rw [commentAfter_of_plain hplain, if_neg]
      simp only [Bool.and_eq_true, Bool.not_eq_true', decide_eq_true_eq]
      rintro ⟨hcode, rest, name, hopens, -⟩
      exact hplain _ rest hcode hopens
  | @directive keyword rest name hcode hopens hname =>
      subst hcode
      rw [commentAfter_of_opens hopens]
      cases keyword with
      | includeFile =>
          have hinclude : line.IsInclude := ⟨rest, _, hopens, hname⟩
          rw [if_pos (by simp [hinclude]), inComment_withoutName hinclude]
      | autoresolve =>
          rw [if_neg (by simp [not_isInclude_of_opens hopens]), inComment_of_blockName hopens hname]

/-- After a line that the scan accepts, the mode of a reader of the whole text and the
    bit of the scan agree if they did before it. -/
theorem endLine_read_shown {commented : Bool} {n : Nat} {line : Line} {tokens : List Token}
    (hfeed : '\n' ∉ line.body) (h : scanLines commented n [line] = .ok tokens) :
    ((Mode.ofBit commented).read (line.shown (!commented && line.IsInclude))).endLine =
      Mode.ofBit (commentAfter commented [line]) := by
  rw [← inComment_shown h, Line.shown]
  -- A name is cut out of the body, which puts no line feed into it.
  refine Mode.endLine_read_terminated ?_ commented line.terminator
  split
  · exact fun hmem => hfeed ((withoutName_sublist line.body).subset hmem)
  · exact hfeed

theorem lineAligned_seen {ls : List Line} (h : ∀ line ∈ ls, line.terminator ≠ .none) :
    LineAligned (seen ls) := by
  rcases List.eq_nil_or_concat ls with rfl | ⟨front, line, rfl⟩
  · exact Or.inl rfl
  · rw [List.concat_eq_append] at h ⊢
    rw [seen_concat, Line.shown, ← List.append_assoc]
    exact Or.inr (getLast?_text (h line (by simp)) _)

/-- The lines of a text in front of another line have ended, and only there is a line
    feed in them. -/
theorem of_lines_eq {t : Text} {before after : List Line} {line : Line}
    (h : lines t = before ++ line :: after) :
    (∀ line ∈ before, line.terminator ≠ .none) ∧ ∀ other ∈ before ++ [line], '\n' ∉ other.body := by
  constructor
  · intro other hmem
    obtain ⟨front, back, rfl⟩ := List.append_of_mem hmem
    have hlines : lines t = front ++ other :: (back ++ line :: after) := by
      rw [h, List.append_assoc, List.cons_append]
    exact terminator_ne_none hlines (List.append_ne_nil_of_right_ne_nil _ (List.cons_ne_nil _ _))
  · intro other hmem
    refine feed_notMem_body (t := t) other ?_
    rw [h, List.append_cons]
    exact List.mem_append_left after hmem

/-- Over lines that the scan accepts, the mode of a reader of the whole text and the bit
    of the scan stay the same. Only behind the last line can a line comment be open. -/
theorem endLine_read_seen {n : Nat} {ls : List Line} {tokens : List Token}
    (hfeed : ∀ line ∈ ls, '\n' ∉ line.body)
    (hended : ∀ line ∈ ls.dropLast, line.terminator ≠ .none)
    (h : scanLines false n ls = .ok tokens) :
    (Mode.code.read (seen ls)).endLine = Mode.ofBit (commentAfter false ls) := by
  -- Induction from the back: what is read of a line depends on the lines in front.
  induction ls using List.reverseRecOn generalizing tokens with
  | nil => rfl
  | append_singleton front line ih =>
      -- In front of the line all have ended, so there the reader is in no line comment, and its
      -- mode is the very bit that the scan has.
      rw [List.dropLast_concat] at hended
      obtain ⟨first, second, hfirst, hsecond, -⟩ := scanLines_append_eq_ok_iff.mp h
      have haligned : LineAligned (seen front) := lineAligned_seen hended
      have hfront : Mode.code.read (seen front) = Mode.ofBit (commentAfter false front) := by
        rw [← Mode.endLine_read_of_lineAligned haligned]
        exact ih (fun line hmem => hfeed line (List.mem_append_left _ hmem))
          (fun line hmem => hended line (List.dropLast_subset front hmem)) hfirst
      have hcode : decide (Mode.ofBit (commentAfter false front) ≠ .blockComment) =
          !commentAfter false front := by
        cases commentAfter false front <;> rfl
      rw [seen_concat, Mode.read_append haligned, hfront, hcode, commentAfter_append,
        endLine_read_shown (hfeed line (by simp)) hsecond]

/-- The same behind lines that have all ended. -/
theorem read_seen {n : Nat} {ls : List Line} {tokens : List Token}
    (hfeed : ∀ line ∈ ls, '\n' ∉ line.body) (hended : ∀ line ∈ ls, line.terminator ≠ .none)
    (h : scanLines false n ls = .ok tokens) :
    Mode.code.read (seen ls) = Mode.ofBit (commentAfter false ls) := by
  rw [← Mode.endLine_read_of_lineAligned (lineAligned_seen hended)]
  exact endLine_read_seen hfeed (fun line hmem => hended line (List.dropLast_subset ls hmem)) h

end Lines

end ShaderBuild
