import ShaderBuild.Proofs.Directive.Recognition
import ShaderBuild.Proofs.Include.Alignment

/-!
# The Lines of the Output

What stands on each line of a flattened text.

A file is cut into tokens and a token can be many lines, so tokens are not what an output
line is made of. The lines of the files are. Each of them passes through or is a
directive, and each directive leaves an empty line, or nothing, or the lines of a file.
`Prints` puts the output together in this way, line by line and file by file, with
nothing of how the text is built. That the text comes to the same is an induction over
the lines of a file, inside one over the files that it includes.

Lines are compared as they are written. A carriage return at the very end of a file
belongs to the body of its last line, and becomes part of the terminator if a line feed
is put behind it. The line is cut in another place then but is the same text.

## Main definitions

* `Plain`: A line that is no directive.
* `Printed`: What is on one line of the output.
* `Ended`: What is done to end the lines of an included file.
* `Prints`: The lines that a file comes to, with everything that it includes.
* `Printed.Whole`: A line of the output is one of a file, or empty.

## Theorems

* `map_text_lines_terminated`: A terminator goes to the last line if that is unfinished.
* `exists_ended`: Ending a text ends its lines.
* `exists_prints_line`, `exists_prints`: The lines that one line, and a file, come to.
* `source_keeps_lines`: What is included stands on lines of its own, and no line of the
  output is put together from several.
-/

namespace ShaderBuild

section Lines

/-- Every line of a text is a text of one line. -/
theorem lines_text_of_mem {t : Text} {line : Line} (h : line ∈ lines t) :
    lines line.text = [line] := by
  -- Induction on the lines, each text being that of the first line and of what follows it.
  induction hlines : lines t generalizing t with
  | nil =>
      rw [hlines] at h
      cases h
  | cons first rest ih =>
      obtain ⟨u, -, hfirst, hrest, -⟩ := lines_eq_cons hlines
      rw [hlines] at h
      rcases List.mem_cons.mp h with rfl | hmem
      · exact hfirst
      · exact ih (hrest ▸ hmem) hrest

/-- A line that is unfinished is still one line when it is ended. -/
theorem map_text_lines_ended {line : Line} (hline : lines line.text = [line])
    (h : ¬ LineAligned line.text) (terminator : Terminator) :
    (lines (line.text ++ terminator.text)).map Line.text = [line.text ++ terminator.text] := by
  have hfrayed := frays_terminated h terminator
  rw [hline] at hfrayed
  obtain ⟨ended, hended⟩ := List.length_eq_one_iff.mp hfrayed.length_eq.symm
  have hwhole := text_lines (line.text ++ terminator.text)
  rw [hended, List.flatMap_singleton] at hwhole
  rw [hended, List.map_singleton, hwhole]

/-- A terminator behind an unfinished line goes to that line, and to no other. -/
theorem map_text_lines_terminated {t : Text} (h : ¬ LineAligned t) (terminator : Terminator) :
    ∃ front last, (lines t).map Line.text = front ++ [last] ∧ ¬ LineAligned last ∧
      (lines (t ++ terminator.text)).map Line.text = front ++ [last ++ terminator.text] := by
  rcases List.eq_nil_or_concat (lines t) with hnil | ⟨front, last, hlines⟩
  · exact absurd (Or.inl (by_contra fun hne => lines_ne_nil hne hnil)) h
  rw [List.concat_eq_append] at hlines
  -- All lines but the last are ended, so the text in front of the last is aligned.
  have hfront : LineAligned (front.flatMap Line.text) :=
    lineAligned_flatMap (of_lines_eq hlines).1
  have htext : t = front.flatMap Line.text ++ last.text := by
    rw [← text_lines t, hlines, List.flatMap_append, List.flatMap_singleton]
  have hlast : ¬ LineAligned last.text := fun hlast => h (htext ▸ hfront.append hlast)
  have hsingle : lines last.text = [last] :=
    lines_text_of_mem (t := t) (by rw [hlines]; exact List.mem_append_right _ List.mem_cons_self)
  -- The lines in front are those of the text in front, which ends where they do.
  have hbefore : lines (front.flatMap Line.text) = front := by
    rw [htext, lines_append hfront, hsingle] at hlines
    exact List.append_cancel_right hlines
  refine ⟨front.map Line.text, last.text, by rw [hlines, List.map_append]; rfl, hlast, ?_⟩
  rw [htext, List.append_assoc, lines_append hfront, hbefore, List.map_append,
    map_text_lines_ended hsingle hlast]

/-- Line `n` of a text is no candidate for a directive, so it passes through. -/
def Plain (t : Text) (n : Nat) : Prop :=
  ∀ keyword rest terminator, ¬ Candidate t n keyword rest terminator

end Lines

/-- What is on one line of the output. -/
inductive Printed where
  /-- A line of a file, and what has been added to end it. -/
  | passed (file : Found) (number : Nat) (line : Line) (added : Terminator)
  /-- Nothing but the end of a line. -/
  | blank (terminator : Terminator)

namespace Printed

def text : Printed → Text
  | .passed _ _ line added => line.text ++ added.text
  | .blank terminator => terminator.text

/-- It is a line that passes through of a file that `source` leads to, and something was
    only added if the line was unfinished, or it is an empty line. -/
def Whole (search : SearchPath) (tree : Tree) (source : Found) : Printed → Prop
  | .passed file number line added =>
    Relation.ReflTransGen (Includes search tree) source file ∧
      (∃ before after, lines file.content = before ++ line :: after ∧
        number = before.length + 1) ∧
      Plain file.content number ∧ (added ≠ .none → line.terminator = .none)
  | .blank terminator => terminator ≠ .none

end Printed

/-- What becomes of the lines of a file that is put in the place of a directive whose line
    ends with the terminator. -/
inductive Ended : Terminator → List Printed → List Printed → Prop where
  | unended {printed : List Printed} : Ended .none printed printed
  | already {terminator : Terminator} {printed : List Printed}
      (h : (printed.flatMap Printed.text).getLast? = some '\n') : Ended terminator printed printed
  | blank {terminator : Terminator} (h : terminator ≠ .none) :
    Ended terminator [] [.blank terminator]
  | added {terminator : Terminator} {front : List Printed} {file : Found} {number : Nat}
      {line : Line} (h : terminator ≠ .none) (unfinished : line.terminator = .none) :
    Ended terminator (front ++ [.passed file number line .none])
      (front ++ [.passed file number line terminator])

/-- The output lines that a file comes to from line `n` on, with those of all the files
    that it includes. -/
inductive Prints (search : SearchPath) (tree : Tree) :
    Found → Nat → List Line → List Printed → Prop where
  | done {file : Found} {n : Nat} : Prints search tree file n [] []
  | passed {file : Found} {n : Nat} {line : Line} {rest : List Line} {printed : List Printed}
      (plain : Plain file.content n) (after : Prints search tree file (n + 1) rest printed) :
    Prints search tree file n (line :: rest) (.passed file n line .none :: printed)
  | requested {file : Found} {n : Nat} {line : Line} {rest : List Line}
      {left printed : List Printed} {text : Text}
      (candidate : Candidate file.content n .autoresolve text line.terminator)
      (ended : Ended line.terminator [] left)
      (after : Prints search tree file (n + 1) rest printed) :
    Prints search tree file n (line :: rest) (left ++ printed)
  | included {file child : Found} {n : Nat} {line : Line} {rest : List Line}
      {inside whole printed : List Printed} {text : Text} {name : String}
      (candidate : Candidate file.content n .includeFile text line.terminator)
      (named : IncludeName name.toList text) (find : (search.find tree name).value = some child)
      (inner : Prints search tree child 1 (lines child.content) inside)
      (ended : Ended line.terminator inside whole)
      (after : Prints search tree file (n + 1) rest printed) :
    Prints search tree file n (line :: rest) (whole ++ printed)

section Printing

variable {search : SearchPath} {tree : Tree}

theorem Printed.Whole.of_includes {file child : Found} (h : Includes search tree file child)
    {p : Printed} (hp : p.Whole search tree child) : p.Whole search tree file := by
  cases p with
  | passed other number line added => exact ⟨.head h hp.1, hp.2⟩
  | blank terminator => exact hp

/-- What ends the lines of a file makes none of them up from others. -/
theorem Ended.whole {source : Found} {terminator : Terminator} {inside printed : List Printed}
    (h : Ended terminator inside printed) (hinside : ∀ p ∈ inside, p.Whole search tree source) :
    -- The cases are those of `Ended`; only the last one adds to a line that was there.
    ∀ p ∈ printed, p.Whole search tree source := by
  cases h with
  | unended => exact hinside
  | already => exact hinside
  | blank hne => exact List.forall_mem_singleton.mpr hne
  | added hne unfinished =>
      obtain ⟨hfront, hlast⟩ := List.forall_mem_append.mp hinside
      obtain ⟨hreach, hline, hplain, -⟩ := List.forall_mem_singleton.mp hlast
      exact List.forall_mem_append.mpr ⟨hfront,
        List.forall_mem_singleton.mpr ⟨hreach, hline, hplain, fun _ => unfinished⟩⟩

theorem Terminator.after_nil (terminator : Terminator) : terminator.after [] = terminator.text := by
  cases terminator <;> rfl

/-- Ending a text ends its lines. -/
theorem exists_ended {t : Text} {printed : List Printed} (terminator : Terminator)
    (h : (lines t).map Line.text = printed.map Printed.text) :
    ∃ whole, Ended terminator printed whole ∧
      (lines (t ++ terminator.after t)).map Line.text = whole.map Printed.text := by
  have hflat : printed.flatMap Printed.text = t := by
    rw [List.flatMap_def, ← h, ← List.flatMap_def, text_lines]
  -- In the order of the cases of `Ended`: no terminator, a text that is ended, no text, and
  -- a last line that is unfinished.
  by_cases hnone : terminator = .none
  · subst hnone
    refine ⟨printed, .unended, ?_⟩
    rw [Terminator.after, if_neg fun hadded => hadded.1 rfl, List.append_nil, h]
  by_cases hend : t.getLast? = some '\n'
  · refine ⟨printed, .already (hflat ▸ hend), ?_⟩
    rw [Terminator.after, if_neg fun hadded => hadded.2 hend, List.append_nil, h]
  rw [Terminator.after, if_pos ⟨hnone, hend⟩]
  by_cases hnil : t = []
  -- With no lines there is no line to end, so the terminator is a line of its own.
  · subst hnil
    obtain rfl := List.map_eq_nil_iff.mp h.symm
    refine ⟨[.blank terminator], .blank hnone, ?_⟩
    cases terminator with
    | none => exact absurd rfl hnone
    | lineFeed => rfl
    | carriageReturnLineFeed => rfl
  -- Otherwise it is put behind the last line, which has to be one that passes through.
  · obtain ⟨front, last, hlines, hlast, hended⟩ :=
      map_text_lines_terminated (not_or.mpr ⟨hnil, hend⟩) terminator
    rw [hlines, eq_comm, List.map_eq_append_iff] at h
    obtain ⟨before, others, rfl, hbefore, hothers⟩ := h
    obtain ⟨p, rfl, hp⟩ := List.map_eq_singleton_iff.mp hothers
    rw [← hp] at hlast
    cases p with
    | blank ending => exact absurd (by cases ending <;> decide) hlast
    | passed file number line added =>
        -- Whatever has been added to the line, or ends it by itself, is at the end.
        have hadded : added = .none := by_contra fun hne => hlast (Or.inr (getLast?_text hne _))
        subst hadded
        have hline : line.terminator = .none := by
          by_contra hne
          refine hlast (Or.inr ?_)
          rw [Printed.text, Terminator.text, List.append_nil]
          exact getLast?_text hne line.body
        refine ⟨_, .added hnone hline, ?_⟩
        rw [hended, List.map_append, hbefore, ← hp]
        simp [Printed.text, Terminator.text]

/-- Lines of the output with everything that there is to say of them: what `file` comes
    to from line `n` on, where they are written, and that they are whole lines. -/
structure PrintsText (search : SearchPath) (tree : Tree) (file : Found) (n : Nat)
    (ls : List Line) (t : Text) (printed : List Printed) : Prop where
  prints : Prints search tree file n ls printed
  text : (lines t).map Line.text = printed.map Printed.text
  whole : ∀ p ∈ printed, p.Whole search tree file

variable {ancestors : List Path} {file : Found}

/-- What one line of a file comes to. The lines behind it come later, whatever they are. -/
theorem exists_prints_line {all : List Token} (hall : tokenize file.content = .ok all)
    {before rest : List Line} {line : Line}
    (hlines : lines file.content = before ++ line :: rest) {tokens : List Token} {d : Flattened}
    (htokens : scanLines (commentAfter false before) (before.length + 1) [line] = .ok tokens)
    (hd : expandTokens search tree ancestors file.path tokens = .ok d)
    (inner : ∀ child e, Includes search tree file child →
      expand search tree (ancestors ++ [file.path]) child = .ok e →
        ∃ printed, PrintsText search tree child 1 (lines child.content) e.text printed) :
    ∃ first, (lines d.text).map Line.text = first.map Printed.text ∧
      (∀ p ∈ first, p.Whole search tree file) ∧
      ∀ printed, Prints search tree file (before.length + 1 + 1) rest printed →
        Prints search tree file (before.length + 1) (line :: rest) (first ++ printed) := by
  cases lineScan htokens with
  -- No directive: the line is put out as it is, with nothing added yet.
  | plain hplain =>
      have hline : Plain file.content (before.length + 1) := by
        intro keyword text terminator hcandidate
        obtain ⟨hcode, hopens, -⟩ := (candidate_iff hall hlines).mp hcandidate
        exact hplain keyword text hcode hopens
      rw [expandTokens_consText, expandTokens] at hd
      obtain rfl := Except.ok.inj hd
      refine ⟨[.passed file (before.length + 1) line .none], ?_, ?_, fun _ => .passed hline⟩
      · have hmem : line ∈ lines file.content := by
          rw [hlines]
          exact List.mem_append_right _ List.mem_cons_self
        simp [Flattened.append_def, Flattened.empty, lines_text_of_mem hmem, Printed.text,
          Terminator.text]
      · exact List.forall_mem_singleton.mpr
          ⟨.refl, ⟨before, rest, hlines, rfl⟩, hline, fun hne => absurd rfl hne⟩
  | @directive keyword text name hcode hopens hname =>
      have hcandidate : Candidate file.content (before.length + 1) keyword text line.terminator :=
        (candidate_iff hall hlines).mpr ⟨hcode, hopens, rfl⟩
      cases keyword with
      | autoresolve =>
          -- What is left of the line is its terminator, as if an empty file were included.
          have hnothing : (lines []).map Line.text = ([] : List Printed).map Printed.text := rfl
          obtain ⟨left, hended, htext⟩ := exists_ended line.terminator hnothing
          rw [Keyword.token, expandTokens, expandTokens_consText, expandTokens] at hd
          obtain rfl := Except.ok.inj hd
          refine ⟨left, ?_, hended.whole (List.forall_mem_nil _), fun _ => .requested hcandidate hended⟩
          rw [← htext, Terminator.after_nil]
          simp [Flattened.append_def, Flattened.empty, Keyword.left]
      | includeFile =>
          -- The included file is printed by the hypothesis, and then ended like the line.
          obtain ⟨child, e, after, hfind, -, he, hafter, rfl⟩ := expandTokens_include_eq_ok_iff.mp hd
          have hincludes : Includes search tree file child :=
            ⟨all, name, before.length + 1, line.terminator, hall, (mem_tokenize_iff hall rfl).mpr
              ⟨_, .includeFile, text, _, name, hcandidate, hname, rfl⟩, hfind⟩
          obtain ⟨inside, hinside⟩ := inner child e hincludes he
          obtain ⟨whole, hended, htext⟩ := exists_ended line.terminator hinside.text
          rw [Keyword.left, consText_nil, expandTokens] at hafter
          obtain rfl := Except.ok.inj hafter
          refine ⟨whole, ?_, hended.whole fun p hp => (hinside.whole p hp).of_includes hincludes,
            fun _ => .included hcandidate hname hfind hinside.prints hended⟩
          rw [Flattened.append_empty]
          exact htext

/-- What the lines of a file from some line on come to. -/
theorem exists_prints_lines {all : List Token} (hall : tokenize file.content = .ok all)
    {before ls : List Line} (hlines : lines file.content = before ++ ls) {tokens : List Token}
    {e : Flattened}
    (htokens : scanLines (commentAfter false before) (before.length + 1) ls = .ok tokens)
    (he : expandTokens search tree ancestors file.path tokens = .ok e)
    (inner : ∀ child e, Includes search tree file child →
      expand search tree (ancestors ++ [file.path]) child = .ok e →
        ∃ printed, PrintsText search tree child 1 (lines child.content) e.text printed) :
    ∃ printed, PrintsText search tree file (before.length + 1) ls e.text printed := by
  -- Induction on the lines that are left, with those already read in front.
  induction ls generalizing before tokens e with
  | nil =>
      obtain rfl := Except.ok.inj htokens
      rw [expandTokens] at he
      obtain rfl := Except.ok.inj he
      exact ⟨[], .done, rfl, List.forall_mem_nil _⟩
  | cons line rest ih =>
      obtain ⟨front, back, hfront, hback, rfl⟩ := scanLines_cons_eq_ok_iff.mp htokens
      rw [expandTokens_joinTokens] at he
      obtain ⟨d, hd, he⟩ := bind_eq_ok_iff.mp he
      obtain ⟨others, hothers, he⟩ := bind_eq_ok_iff.mp he
      obtain rfl := Except.ok.inj he
      obtain ⟨first, htext, hwhole, hprints⟩ := exists_prints_line hall hlines hfront hd inner
      have hnext : (before ++ [line]).length = before.length + 1 := List.length_append
      rw [← commentAfter_append, ← hnext] at hback
      obtain ⟨printed, hprinted⟩ := ih ((List.append_cons before line rest) ▸ hlines) hback hothers
      rw [hnext] at hprinted
      -- Where lines follow, the line has been ended, whatever it came to.
      have hended : others.text ≠ [] → LineAligned d.text := by
        intro hne
        have hrest : rest ≠ [] := by
          rintro rfl
          exact ne_nil_of_text_ne_nil hothers hne (Except.ok.inj hback).symm
        exact Or.inr (getLast?_text_of_line (terminator_ne_none hlines hrest) hfront hd)
      refine ⟨first ++ printed, hprints printed hprinted.prints, ?_, ?_⟩
      · rw [Flattened.append_def, lines_append_of_ne_nil hended, List.map_append, htext,
          hprinted.text, List.map_append]
      · exact List.forall_mem_append.mpr ⟨hwhole, hprinted.whole⟩

/-- The expansion of a file has the lines that the file comes to. -/
theorem exists_prints {e : Flattened} (h : expand search tree ancestors file = .ok e) :
    ∃ printed, PrintsText search tree file 1 (lines file.content) e.text printed := by
  -- Induction along the includes: a file is printed with those that it includes.
  refine expand_induction (P := fun _ file e => ∃ printed,
    PrintsText search tree file 1 (lines file.content) e.text printed) ?_ ancestors file e h
  intro ancestors file tokens e htokens he inner
  have hlines : lines file.content = [] ++ lines file.content := rfl
  exact exists_prints_lines htokens hlines htokens he inner

end Printing

namespace Flattener

/-- What is included stands on lines of its own. Every include that a successful pass
    meets is replaced from the start of a line by the expansion of a file, and that is
    ended like the line of the include, once and only if it has to be. The lines behind
    the version are those that the lines of the source come to, each of them a line of
    one file or empty. -/
theorem source_keeps_lines (f : Flattener) (path : Path) {content : Text} {r : Flattened}
    (version : LineAligned f.version) (h : (f.source path content).value = .ok r) :
    let source : Found := ⟨path, content⟩
    (∀ s name line terminator rest, f.Reaches source s →
        s.innermost.pending = .includeFile name line terminator :: rest →
        ∃ e added, s.Inlines f source r name terminator rest e added) ∧
      ∃ printed, Prints f.search f.tree source 1 (lines content) printed ∧
        (lines r.text).map Line.text =
          (lines f.version).map Line.text ++ printed.map Printed.text ∧
        ∀ p ∈ printed, p.Whole f.search f.tree source := by
  intro source
  constructor
  · intro s name line terminator rest hreach hpending
    exact hreach.exists_inlines version h hpending
  · obtain ⟨e, he, rfl⟩ := (f.value_source_ok_iff path content).mp h
    obtain ⟨printed, hprinted⟩ := exists_prints he
    refine ⟨printed, hprinted.prints, ?_, hprinted.whole⟩
    rw [finish, lines_append version, List.map_append, hprinted.text]

/-- A file that consists of an include without line end, of another without line end. -/
theorem source_keeps_lines_nested :
    let f : Flattener := ⟨⟨[⟨"own"⟩], []⟩,
      ⟨[(["own"], .directory), (["own", "sun"], .file [120]), (["own", "sky"],
        .file [35, 105, 110, 99, 108, 117, 100, 101, 32, 60, 115, 117, 110, 62])]⟩,
      (ContextVersion.directive ⟨4, 5, false⟩).toList⟩
    let content := "#include <sky>\nend\n".toList
    let source : Found := ⟨⟨"main"⟩, content⟩
    let r : Flattened := ⟨"#version 450\nx\nend\n".toList, [], [⟨"own/sky"⟩, ⟨"own/sun"⟩]⟩
    LineAligned f.version ∧ (f.source ⟨"main"⟩ content).value = .ok r ∧
      (∃ s rest, f.Reaches source s ∧
        s.Inlines f source r "sky" .lineFeed rest ⟨['x'], [], [⟨"own/sun"⟩]⟩ ['\n']) ∧
      ∃ printed, Prints f.search f.tree source 1 (lines content) printed ∧
        ["#version 450\n".toList, "x\n".toList, "end\n".toList] =
          (lines f.version).map Line.text ++ printed.map Printed.text ∧
        ∀ p ∈ printed, p.Whole f.search f.tree source := by
  intro f content source r
  let sky : Found := ⟨⟨"own/sky"⟩, "#include <sun>".toList⟩
  let sun : Found := ⟨⟨"own/sun"⟩, ['x']⟩
  have hfind : (f.search.find f.tree "sky").value = some sky := rfl
  have hfind' : (f.search.find f.tree "sun").value = some sun := rfl
  have hfree : ¬ Barred f.tree ([] ++ [⟨"main"⟩]) sky.path := by decide
  have hfree' : ¬ Barred f.tree ([⟨"main"⟩] ++ [sky.path]) sun.path := by decide
  have htokens : tokenize content = .ok [.includeFile "sky" 1 .lineFeed, .text "end\n".toList] := rfl
  have hsky : tokenize sky.content = .ok [.includeFile "sun" 1 .none] := rfl
  have hsun : tokenize sun.content = .ok [.text ['x']] := rfl
  have hexpand : expand f.search f.tree [⟨"main"⟩] sky = .ok ⟨['x'], [], [⟨"own/sun"⟩]⟩ := by
    rw [expand_tokens hsky, expandTokens_include hfind' hfree', expand_tokens hsun,
      expandTokens_text, expandTokens]
    rfl
  have hversion : LineAligned f.version := by decide
  have hsource : (f.source ⟨"main"⟩ content).value = .ok r := by
    rw [value_source, expand_tokens htokens, expandTokens_include hfind hfree, List.nil_append,
      hexpand, expandTokens_text]
    rfl
  obtain ⟨hinlines, hprints⟩ := source_keeps_lines f ⟨"main"⟩ hversion hsource
  have hreach : f.Reaches source _ := ⟨_, htokens, .refl⟩
  obtain ⟨e, added, hinline⟩ := hinlines _ _ _ _ _ hreach rfl
  obtain ⟨child, hchild, he⟩ := hinline.expands
  obtain rfl : sky = child := Option.some.inj (hfind.symm.trans hchild)
  obtain rfl := Except.ok.inj (hexpand.symm.trans he)
  -- The text does not end a line by itself, so what ends it has been added.
  have hadded : added = ['\n'] := by
    rcases hinline.adds with rfl | ⟨hadded, -⟩
    · exact absurd (hinline.ends (by decide)) (by decide)
    · exact hadded
  exact ⟨hversion, hsource, ⟨_, _, hreach, hadded ▸ hinline⟩, hprints⟩

end Flattener

end ShaderBuild
