import ShaderBuild.Proofs.Include.Composition
import ShaderBuild.Proofs.Include.Simulation

/-!
# Including is Pasting

What it means to say that an include stands for the text of a file: with the
text written in place of the directive, the source comes to the same.

The file and the pasted text are not read alike. The file is read as one of its
own, with its own line numbers and with one more file open around everything it
includes, and what it comes to is ended if it does not end a line. But line
numbers do not show, a file that could be opened with one more open can be opened
with one fewer, and nothing has to be ended after a text whose last line is. What
is left is the record of the files that were included. The file itself is missing
there once its text is pasted, and only that.

The other direction fails for the same reason that this one holds. Where as many
files are open as may be, the text of one more can still be pasted.

## Main definitions

* `IncludeLine`: A text is one line, an include of some name.

## Theorems

* `expand_includeLine_ok_iff`: The expansion of such a line.
* `source_paste`: The text of an included file may be pasted in its place.
-/

namespace ShaderBuild

/-- A text is one line, an include of `name`, and the line is ended. -/
def IncludeLine (t : Text) (name : String) (terminator : Terminator) : Prop :=
  terminator ≠ .none ∧ ∃ body rest, lines t = [⟨body, terminator⟩] ∧
    directive? body = some (.includeFile, rest) ∧ readInclude rest = .ok name

namespace IncludeLine

variable {t : Text} {name : String} {terminator : Terminator}

theorem lineAligned (h : IncludeLine t name terminator) : LineAligned t := by
  obtain ⟨hended, body, rest, hlines, -⟩ := h
  rw [lineAligned_iff, hlines, List.forall_mem_singleton]
  exact hended

theorem endsInCode (h : IncludeLine t name terminator) : EndsInCode t := by
  obtain ⟨-, body, rest, hlines, hdirective, -⟩ := h
  simp only [EndsInCode, hlines, commentAfter, Bool.false_eq_true, if_false, hdirective]

theorem tokenize_eq (h : IncludeLine t name terminator) :
    tokenize t = .ok [.includeFile name 1 terminator] := by
  -- A line in code is scanned as a directive, and its name is the one that was read.
  obtain ⟨-, body, rest, hlines, hdirective, hname⟩ := h
  simp only [tokenize, hlines, scanLines, Bool.false_eq_true, if_false, hdirective, hname]
  rfl

end IncludeLine

section Expansion

variable {search : SearchPath} {tree : Tree} {ancestors : List Path} {path : Path} {t : Text}
  {name : String} {terminator : Terminator}

/-- An include alone comes to the file it leads to, if that may be opened. -/
theorem expand_includeLine_ok_iff (h : IncludeLine t name terminator) {e : Flattened} :
    expand search tree ancestors ⟨path, t⟩ = .ok e ↔
      ∃ found child, (search.find tree name).value = some found ∧
        ¬ Barred tree (ancestors ++ [path]) found.path ∧
        expand search tree (ancestors ++ [path]) found = .ok child ∧
        e = found.inlined terminator child := by
  rw [expand_tokens h.tokenize_eq, expandTokens_include_eq_ok_iff]
  simp only [expandTokens, Except.ok.injEq, exists_and_left, exists_eq_left',
    Flattened.append_empty]

theorem inlined_of_getLast? {found : Found} {e : Flattened} (h : e.text.getLast? = some '\n')
    (terminator : Terminator) :
    found.inlined terminator e = ⟨e.text, e.autoresolve, found.path :: e.included⟩ := by
  rw [Found.inlined, Terminator.after, if_neg fun hafter => hafter.2 h, List.append_nil]

/-- The text of a file that can be included comes to the same in its place. -/
theorem expand_paste {found : Found} {e : Flattened} (h : IncludeLine t name terminator)
    (hfind : (search.find tree name).value = some found)
    (hended : found.content.getLast? = some '\n')
    (he : expand search tree ancestors ⟨path, t⟩ = .ok e) :
    ∃ child, expand search tree ancestors ⟨path, found.content⟩ = .ok child ∧
      e = ⟨child.text, child.autoresolve, found.path :: child.included⟩ := by
  -- The expansion of the line is that of the file with its path in front.
  obtain ⟨_, child, hsame, -, hchild, rfl⟩ := (expand_includeLine_ok_iff h).mp he
  rw [hfind, Option.some.injEq] at hsame
  subst hsame
  -- The file is the last of the files around its text, and pasting takes it out.
  have hfewer : (ancestors ++ [path]).Sublist (ancestors ++ [path] ++ [found.path]) :=
    List.sublist_append_left _ _
  exact ⟨child, expand_of_sublist hfewer hchild,
    inlined_of_getLast? (getLast?_text_of_expand hended hchild) terminator⟩

end Expansion

namespace Flattener

/-- The text of an included file may be pasted in its place. What the source comes
    to is the same, but for the file in the record of what was included: it stood
    after what is included before it and is not there any more. -/
theorem source_paste (f : Flattener) (path : Path) {a d b : Text} {name : String}
    {terminator : Terminator} {found : Found} {r : Flattened}
    (ha : LineAligned a) (hcode : EndsInCode a) (hd : IncludeLine d name terminator)
    (hfind : (f.search.find f.tree name).value = some found)
    (hended : found.content.getLast? = some '\n') (hfound : EndsInCode found.content)
    (h : (f.source path (a ++ d ++ b)).value = .ok r) :
    ∃ r' before after, (f.source path (a ++ found.content ++ b)).value = .ok r' ∧
      r'.text = r.text ∧ r'.autoresolve = r.autoresolve ∧
      r.included = before ++ found.path :: after ∧ r'.included = before ++ after ∧
      (f.source path a).value.map Flattened.included = .ok before := by
  obtain ⟨e, he, rfl⟩ := (f.value_source_ok_iff path _).mp h
  -- Take the source apart, and put it together again with the pasted text.
  rw [List.append_assoc] at he
  obtain ⟨front, rest, hfront, hrest, rfl⟩ := (expand_append_ok_iff ha hcode).mp he
  obtain ⟨line, back, hline, hback, rfl⟩ :=
    (expand_append_ok_iff hd.lineAligned hd.endsInCode).mp hrest
  obtain ⟨child, hchild, rfl⟩ := expand_paste hd hfind hended hline
  have hpasted : expand f.search f.tree [] ⟨path, a ++ found.content ++ b⟩ =
      .ok (front ++ (child ++ back)) := by
    rw [List.append_assoc, expand_append_ok_iff ha hcode]
    exact ⟨front, child ++ back, hfront, (expand_append_ok_iff (Or.inr hended) hfound).mpr
      ⟨child, back, hchild, hback, rfl⟩, rfl⟩
  refine ⟨f.finish (front ++ (child ++ back)), front.included, child.included ++ back.included,
    (f.value_source_ok_iff path _).mpr ⟨_, hpasted, rfl⟩, rfl, rfl, rfl, rfl, ?_⟩
  rw [value_source, hfront]
  rfl

/-- A line pasted between two others. -/
theorem source_paste_between_lines :
    let f : Flattener := ⟨⟨[⟨"own"⟩], []⟩,
      ⟨[(["own"], .directory), (["own", "sun.glsl"], .file [120, 10])]⟩, []⟩
    let sun : Found := ⟨⟨"own/sun.glsl"⟩, ['x', '\n']⟩
    let r : Flattened := ⟨['a', '\n', 'x', '\n', 'b'], [], [⟨"own/sun.glsl"⟩]⟩
    (f.source ⟨"main"⟩ ("a\n".toList ++ "#include <sun.glsl>\n".toList ++ "b".toList)).value =
        .ok r ∧
      ∃ r' before after,
        (f.source ⟨"main"⟩ ("a\n".toList ++ sun.content ++ "b".toList)).value = .ok r' ∧
        r'.text = r.text ∧ r'.autoresolve = r.autoresolve ∧
        r.included = before ++ sun.path :: after ∧ r'.included = before ++ after ∧
        (f.source ⟨"main"⟩ "a\n".toList).value.map Flattened.included = .ok before := by
  intro f sun r
  have hfind : (f.search.find f.tree "sun.glsl").value = some sun := rfl
  have hfree : ¬ Barred f.tree ([] ++ [⟨"main"⟩]) sun.path := by decide
  have htokens : tokenize ("a\n".toList ++ "#include <sun.glsl>\n".toList ++ "b".toList) =
      .ok [.text ['a', '\n'], .includeFile "sun.glsl" 2 .lineFeed, .text ['b']] := rfl
  have hsun : tokenize sun.content = .ok [.text ['x', '\n']] := rfl
  have hsource : (f.source ⟨"main"⟩
      ("a\n".toList ++ "#include <sun.glsl>\n".toList ++ "b".toList)).value = .ok r := by
    rw [value_source, expand_tokens htokens, expandTokens, expandTokens_include hfind hfree,
      expand_tokens hsun, expandTokens_text, expandTokens_text]
    rfl
  have hinclude : IncludeLine "#include <sun.glsl>\n".toList "sun.glsl" .lineFeed :=
    ⟨by decide, _, _, rfl, rfl, rfl⟩
  exact ⟨hsource, source_paste f ⟨"main"⟩ (by decide) (by decide) hinclude hfind rfl (by decide)
    hsource⟩

end Flattener

end ShaderBuild
