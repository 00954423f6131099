import ShaderBuild.Proofs.Directive.Reading
import ShaderBuild.Proofs.Directive.VersionLine
import ShaderBuild.Proofs.Include.Graph

/-!
# Flattened Text Stays as It Is

A flattened text has no directives left, so flattening it once more changes
nothing, wherever includes are searched by then.

The text is put together from the texts of many files, each of which was scanned
by itself. What has to be shown is that a scan of the whole finds the same lines
in the same comment state. Every piece begins where a line does and ends where
one does, or it is the last of its file and is ended when the file is. And if
every file leaves the comments as it found them, then so does what stands in the
place of an include, and the lines behind it are read as they were in their own
file.

The condition on the files cannot be left out. A comment that a file leaves open
hides in the flattened text what it does not hide in the includer, and one that
is closed in the wrong place can bring a directive to light that was a comment.

## Main definitions

* `Settled`: A text without directives that leaves no comment open.

## Theorems

* `lines_append_of_ne_nil`: Pieces that meet where a line ends.
* `settled_inlined`: What is put in the place of an include is settled.
* `settled_of_expandTokens`: Tokens expand to lines without directives.
* `settled_of_expand`: A file expands to a settled text.
* `source_settled`: A flattened text stays as it is.
-/

namespace ShaderBuild

/-- No line of a text is a directive, and no block comment is open after it. -/
def Settled (t : Text) : Prop :=
  Inert false (lines t) ∧ openAfter false (lines t) = false

section Expansion

variable {search : SearchPath} {tree : Tree} {ancestors : List Path} {path : Path}

theorem ne_nil_of_text_ne_nil {tokens : List Token} {e : Flattened}
    (h : expandTokens search tree ancestors path tokens = .ok e) (hne : e.text ≠ []) :
    tokens ≠ [] := by
  rintro rfl
  rw [expandTokens, Except.ok.injEq] at h
  exact hne (by rw [← h]; rfl)

/-- What is put in the place of an include is settled if the expansion is. -/
theorem settled_inlined {t : Text} (h : Settled t) (terminator : Terminator) :
    Settled (t ++ terminator.after t) := by
  rw [Terminator.after]
  -- A line end is put behind the text, or nothing is.
  split
  · obtain ⟨hinert, hopen⟩ := h
    exact ⟨inert_terminated hinert terminator, (openAfter_terminated _ t terminator).trans hopen⟩
  · rwa [List.append_nil]

/-- Tokens expand to lines without directives, and leave the comments as they do
    in their own file, provided that what they include is settled. -/
theorem settled_of_expandTokens {commented final : Bool} {tokens : List Token} {e : Flattened}
    (reads : Reads commented tokens final)
    (h : expandTokens search tree ancestors path tokens = .ok e)
    (inner : ∀ name line terminator child e', .includeFile name line terminator ∈ tokens →
      (search.find tree name).value = some child →
      expand search tree (ancestors ++ [path]) child = .ok e' → Settled e'.text) :
    Inert commented (lines e.text) ∧ openAfter commented (lines e.text) = final := by
  -- Induction on the reading, which carries the comment state along.
  induction reads generalizing e with
  | done =>
      rw [expandTokens, Except.ok.injEq] at h
      rw [← h]
      exact ⟨trivial, rfl⟩
  | @text commented final t rest inert aligned after ih =>
      rw [expandTokens, bind_eq_ok_iff] at h
      obtain ⟨others, hothers, he⟩ := h
      obtain ⟨hinert, hopen⟩ := ih hothers fun name line terminator child e' hmem =>
        inner name line terminator child e' (List.mem_cons_of_mem _ hmem)
      -- Text that tokens follow ends a line, so the lines of the two pieces do not mix.
      have hlines : lines e.text = lines t ++ lines others.text := by
        rw [← Except.ok.inj he]
        exact lines_append_of_ne_nil fun hne => aligned (ne_nil_of_text_ne_nil hothers hne)
      rw [hlines, inert_append_iff, openAfter_append]
      exact ⟨⟨inert, hinert⟩, hopen⟩
  | @includeFile final name line terminator rest ended after ih =>
      obtain ⟨found, child, others, hfind, -, hchild, hothers, rfl⟩ :=
        expandTokens_include_eq_ok_iff.mp h
      obtain ⟨hinert, hopen⟩ := ih hothers fun name line terminator child e' hmem =>
        inner name line terminator child e' (List.mem_cons_of_mem _ hmem)
      have hchild' : Settled child.text :=
        inner name line terminator found child List.mem_cons_self hfind hchild
      -- The file is ended where its directive was, so the next line is one again.
      obtain ⟨hinlined, hclosed⟩ := settled_inlined hchild' terminator
      have hlines : lines (found.inlined terminator child ++ others).text =
          lines (child.text ++ terminator.after child.text) ++ lines others.text := by
        refine lines_append_of_ne_nil fun hne => Or.inr ?_
        exact getLast?_after (ended (ne_nil_of_text_ne_nil hothers hne)) child.text
      rw [hlines, inert_append_iff, openAfter_append, hclosed]
      exact ⟨⟨hinlined, hinert⟩, hopen⟩
  | autoresolve after ih =>
      rw [expandTokens, bind_eq_ok_iff] at h
      obtain ⟨others, hothers, he⟩ := h
      have hrest := ih hothers fun name line terminator child e' hmem =>
        inner name line terminator child e' (List.mem_cons_of_mem _ hmem)
      rw [← Except.ok.inj he]
      exact hrest

/-- A file expands to a settled text if no comment is left open by it, nor by any
    file that it leads to. -/
theorem settled_of_expand {file : Found} {e : Flattened}
    (h : expand search tree ancestors file = .ok e)
    (code : ∀ other, Relation.ReflTransGen (Includes search tree) file other →
      EndsInCode other.content) : Settled e.text := by
  -- Induction along the includes: the files that an included file leads to are some of those
  -- that the includer leads to.
  refine expand_induction (P := fun _ file e => (∀ other,
    Relation.ReflTransGen (Includes search tree) file other → EndsInCode other.content) →
      Settled e.text) ?_ ancestors file e h code
  intro ancestors file tokens e htokens hexpanded ih code
  have hreads := reads_of_tokenize htokens
  have hfinal : commentAfter false (lines file.content) = false := code file .refl
  rw [hfinal] at hreads
  refine settled_of_expandTokens hreads hexpanded ?_
  intro name line terminator child e' hmem hfind hchild
  have hincludes : Includes search tree file child :=
    ⟨tokens, name, line, terminator, htokens, hmem, hfind⟩
  exact ih child e' hincludes hchild fun other hother => code other (.head hincludes hother)

/-- A settled text is its own expansion. -/
theorem expand_of_settled {t : Text} (h : Settled t) :
    expand search tree ancestors ⟨path, t⟩ = .ok ⟨t, [], []⟩ := by
  rw [expand_tokens (tokenize_of_inert h.1), expandTokens_consText, expandTokens]
  exact congrArg Except.ok (Flattened.append_empty ⟨t, [], []⟩)

end Expansion

theorem settled_directive (v : ContextVersion) : Settled v.directive.toList :=
  ⟨v.inert_directive false, v.openAfter_directive false⟩

/-- A settled text stays so behind whole lines that are settled. -/
theorem Settled.append {s t : Text} (hs : Settled s) (haligned : LineAligned s) (ht : Settled t) :
    Settled (s ++ t) := by
  rw [Settled, lines_append haligned, inert_append_iff, openAfter_append, hs.2]
  exact ⟨⟨hs.1, ht.1⟩, ht.2⟩

namespace Flattener

/-- A flattened text stays as it is: nothing in it is a directive, so a pass over
    it with no line in front gives it back, whatever files there are by then. -/
theorem source_settled (f : Flattener) (path : Path) {content : Text} {r : Flattened}
    (version : f.version = [] ∨ ∃ v : ContextVersion, f.version = v.directive.toList)
    (code : ∀ file, Relation.ReflTransGen (Includes f.search f.tree) ⟨path, content⟩ file →
      EndsInCode file.content)
    (h : (f.source path content).value = .ok r) :
    (∃ tokens, tokenize r.text = .ok tokens ∧ ∀ token ∈ tokens, ∃ t, token = .text t) ∧
    ∀ (g : Flattener) (other : Path), g.version = [] →
      (g.source other r.text).value = .ok ⟨r.text, [], []⟩ := by
  obtain ⟨e, he, rfl⟩ := (f.value_source_ok_iff path content).mp h
  have hsettled : Settled (f.finish e).text := by
    have hexpansion : Settled e.text := settled_of_expand he code
    rcases version with hnone | ⟨v, hv⟩
    · rwa [finish, hnone]
    · rw [finish, hv]
      exact (settled_directive v).append v.lineAligned_directive hexpansion
  refine ⟨⟨_, tokenize_of_inert hsettled.1, ?_⟩, ?_⟩
  -- Such a text is one token at most.
  · intro token hmem
    rcases consText_cases (f.finish e).text [] with ⟨u, rest, hnil⟩ | hnil | hcons
    · cases hnil
    · rw [hnil, consText_nil] at hmem
      cases hmem
    · rw [hcons] at hmem
      exact ⟨_, List.mem_singleton.mp hmem⟩
  · intro g other hversion
    refine (g.value_source_ok_iff other _).mpr ⟨_, expand_of_settled hsettled, ?_⟩
    simp only [finish, hversion, List.nil_append]

/-- A file without a final line end is included behind a directive that is
    commented out. -/
theorem source_settled_commented :
    let f : Flattener := ⟨⟨[⟨"own"⟩], []⟩,
      ⟨[(["own"], .directory), (["own", "sun.glsl"], .file [120])]⟩,
      (ContextVersion.directive ⟨4, 5, false⟩).toList⟩
    let content := "/*\n#autoresolve Moon\n*/\n#include <sun.glsl>\n#autoresolve Camera\n".toList
    let r : Flattened := ⟨"#version 450\n/*\n#autoresolve Moon\n*/\nx\n\n".toList, ["Camera"],
      [⟨"own/sun.glsl"⟩]⟩
    (f.source ⟨"main"⟩ content).value = .ok r ∧
      (∃ tokens, tokenize r.text = .ok tokens ∧ ∀ token ∈ tokens, ∃ t, token = .text t) ∧
      ∀ (g : Flattener) (other : Path), g.version = [] →
        (g.source other r.text).value = .ok ⟨r.text, [], []⟩ := by
  intro f content r
  let sun : Found := ⟨⟨"own/sun.glsl"⟩, ['x']⟩
  have hfind : (f.search.find f.tree "sun.glsl").value = some sun := rfl
  have hfree : ¬ Barred f.tree ([] ++ [⟨"main"⟩]) sun.path := by decide
  have htokens : tokenize content = .ok [.text "/*\n#autoresolve Moon\n*/\n".toList,
      .includeFile "sun.glsl" 4 .lineFeed, .autoresolve "Camera" 5, .text ['\n']] := rfl
  have hsun : tokenize sun.content = .ok [.text ['x']] := rfl
  have hsource : (f.source ⟨"main"⟩ content).value = .ok r := by
    rw [value_source, expand_tokens htokens, expandTokens, expandTokens_include hfind hfree,
      expand_tokens hsun, expandTokens_text, expandTokens, expandTokens_text]
    rfl
  have hmain : ∀ child, Includes f.search f.tree ⟨⟨"main"⟩, content⟩ child → child = sun := by
    rintro child ⟨tokens, name, line, terminator, hsame, hmem, hchild⟩
    rw [htokens, Except.ok.injEq] at hsame
    simp only [← hsame, List.mem_cons, reduceCtorEq, Token.includeFile.injEq, List.not_mem_nil,
      or_false, false_or] at hmem
    rw [hmem.1, hfind, Option.some.injEq] at hchild
    exact hchild.symm
  have hend : ∀ child, ¬ Includes f.search f.tree sun child := by
    rintro child ⟨tokens, name, line, terminator, hsame, hmem, -⟩
    rw [hsun, Except.ok.injEq] at hsame
    simp only [← hsame, List.mem_singleton, reduceCtorEq] at hmem
  have hcode : ∀ file, Relation.ReflTransGen (Includes f.search f.tree) ⟨⟨"main"⟩, content⟩ file →
      EndsInCode file.content := by
    intro file hreach
    rcases hreach.cases_head with rfl | ⟨child, hchild, hrest⟩
    · decide
    · obtain rfl := hmain child hchild
      rcases hrest.cases_head with rfl | ⟨other, hother, -⟩
      · decide
      · exact absurd hother (hend other)
  exact ⟨hsource, source_settled f ⟨"main"⟩ (Or.inr ⟨_, rfl⟩) hcode hsource⟩

end Flattener

end ShaderBuild
