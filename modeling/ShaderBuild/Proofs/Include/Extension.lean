import ShaderBuild.Device.Scripted
import ShaderBuild.Proofs.Include.Composition
import ShaderBuild.Proofs.Include.Simulation
import ShaderBuild.Workspace.Basic

/-!
# More Search Roots

What a pass comes to when roots are added behind the shared ones.

Roots are tried in order and the first readable file wins, so a root at the end
is only looked at where all the others had nothing. A pass that has found every
file it asked for has never got there, and it does not matter whether it went
well: a pass that stopped at a cycle or at a malformed line has found everything
up to that point. Only a pass that stopped because a file was missing may come
to something else.

The two passes are not compared by what they come to but step by step, with the
entries they make. Each step asks for at most one file, and is the same step with
more roots if it does not fail to find it. So the two go through the same stacks,
and whether a file may be opened is decided alike.

## Main definitions

* `SearchPath.extend`, `Flattener.extend`: More roots behind the shared ones.

## Theorems

* `findFrom_append_of_found`: A search that ends early does not see what is added.
* `find_extend`: A file that is found is found again.
* `step_extend`, `run_extend`: So is every file that a step, or a run, asks for.
* `source_extend`: A pass that misses no file is the same pass with more roots.
-/

namespace ShaderBuild

namespace SearchPath

/-- The search with more roots behind the shared ones. -/
def extend (search : SearchPath) (more : List Path) : SearchPath :=
  { search with shared := search.shared ++ more }

theorem roots_extend (search : SearchPath) (more : List Path) :
    (search.extend more).roots = search.roots ++ more := by
  simp only [roots, extend, List.append_assoc]

/-- A search that ends at one of the first roots does not see those added. -/
theorem findFrom_append_of_found {tree : Tree} {name : String} {roots : List Path} {found : Found}
    (h : (findFrom tree name roots).value = some found) (more : List Path) :
    findFrom tree name (roots ++ more) = findFrom tree name roots := by
  -- Induction on the roots up to the one that ends the search.
  induction roots with
  | nil => cases h
  | cons root rest ih =>
      simp only [List.cons_append, findFrom] at h ⊢
      split
      · next isFile =>
        rw [if_pos isFile] at h
        -- A file that cannot be read is passed over, and both searches go on.
        cases read : tree.read (root.join name) with
        | ok bytes => rfl
        | error fault =>
            simp only [read, Logged.value_bind] at h ⊢
            rw [ih h]
      · next noFile =>
        rw [if_neg noFile] at h
        exact ih h

theorem find_extend {search : SearchPath} {tree : Tree} {name : String} {found : Found}
    (h : (search.find tree name).value = some found) (more : List Path) :
    (search.extend more).find tree name = search.find tree name := by
  -- A rooted name is refused before any root is looked at.
  unfold find at h ⊢
  split
  · rfl
  · next relative =>
    rw [if_neg relative] at h
    rw [roots_extend]
    exact findFrom_append_of_found h more

end SearchPath

namespace Stack

variable {search : SearchPath} {tree : Tree}

theorem step_extend (s : Stack) (more : List Path)
    (h : ∀ name includer line,
      (s.step search tree).value ≠ .failed (.includeNotFound name includer line)) :
    s.step (search.extend more) tree = s.step search tree := by
  cases pending : s.innermost.pending with
  | nil => simp only [step, pending]
  | cons token rest =>
      cases token with
      | text t => simp only [step, pending]
      | autoresolve name line => simp only [step, pending]
      | includeFile name line terminator =>
          -- The only step that searches, and it does not stop there.
          cases found : (search.find tree name).value with
          | none => exact absurd (value_step_missing pending found) (h _ _ _)
          | some file => simp only [step, pending, SearchPath.find_extend found more]

theorem run_extend (s : Stack) (more : List Path)
    (h : ∀ name includer line,
      (s.run search tree).value ≠ .error (.includeNotFound name includer line)) :
    s.run (search.extend more) tree = s.run search tree := by
  -- Along the run: every step is the same, and so is what it leads to. A step that fails
  -- fails the run, so it does not miss a file either.
  fun_induction run search tree s with
  | case1 s result entries done =>
      have value : (s.step search tree).value = .done result := by rw [done]
      have same := s.step_extend more (by rw [value]; exact nofun)
      rw [run_done (same ▸ value), same, done]
  | case2 s failure entries failed =>
      have value : (s.step search tree).value = .failed failure := by rw [failed]
      have same := s.step_extend more (by
        intro name includer line missing
        rw [value, Outcome.failed.injEq] at missing
        exact h name includer line (congrArg Except.error missing))
      rw [run_failed (same ▸ value), same, failed]
  | case3 s next entries stepped rest ih =>
      have value : (s.step search tree).value = .more next := by rw [stepped]
      have same := s.step_extend more (by rw [value]; exact nofun)
      rw [run_more (same ▸ value), same, stepped, ih h]

end Stack

namespace Flattener

/-- The pass with more roots behind the shared ones. -/
def extend (f : Flattener) (more : List Path) : Flattener :=
  { f with search := f.search.extend more }

/-- More roots behind the shared ones change nothing about a pass that misses no
    file: it comes to the same and makes the same entries. In particular a shared
    root that is added to a workspace does not. -/
theorem source_extend (f : Flattener) (path : Path) (content : Text)
    (h : ∀ name includer line,
      (f.source path content).value ≠ .error (.includeNotFound name includer line)) :
    (∀ more, (f.extend more).source path content = f.source path content) ∧
      ∀ (σ : Type) (w : Workspace σ) (root : Path), w.around = ⟨f.tree, f.search.shared⟩ →
        let around := (w.addSharedPath root).2.around
        (Flattener.source ⟨⟨f.search.own, around.sharedPaths⟩, around.tree, f.version⟩ path
          content) = f.source path content := by
  have extended : ∀ more, (f.extend more).source path content = f.source path content := by
    intro more
    -- The roots are only looked at once the source has been read.
    unfold source at h ⊢
    simp only [extend]
    cases opened : OpenFile.ofText f.tree path .none content with
    | error failure => rfl
    | ok file =>
        have found : ∀ name includer line, ((Stack.ofFile file).run f.search f.tree).value ≠
            .error (.includeNotFound name includer line) := by
          intro name includer line missing
          refine h name includer line ?_
          simp only [opened, Logged.value_bind, missing, Logged.value_pure]
        simp only [(Stack.ofFile file).run_extend more found]
  refine ⟨extended, fun σ w root here => ?_⟩
  simp only [Workspace.addSharedPath, here]
  exact extended [root]

/-- A shared root that is added holds another file of the same name. -/
theorem source_extend_shadowed :
    let f : Flattener := ⟨⟨[⟨"own"⟩], []⟩,
      ⟨[(["own"], .directory), (["own", "sun.glsl"], .file [120, 10]), (["lib"], .directory),
        (["lib", "sun.glsl"], .file [121, 10])]⟩, []⟩
    let content := "#include <sun.glsl>\n".toList
    let w : Workspace Scripted := { (default : Workspace Scripted) with around := ⟨f.tree, []⟩ }
    let around := (w.addSharedPath ⟨"lib"⟩).2.around
    (f.source ⟨"main"⟩ content).value = .ok ⟨['x', '\n'], [], [⟨"own/sun.glsl"⟩]⟩ ∧
      around.sharedPaths = [⟨"lib"⟩] ∧
      Flattener.source ⟨⟨[⟨"own"⟩], around.sharedPaths⟩, around.tree, []⟩ ⟨"main"⟩ content =
        f.source ⟨"main"⟩ content := by
  intro f content w around
  let sun : Found := ⟨⟨"own/sun.glsl"⟩, ['x', '\n']⟩
  have hfind : (f.search.find f.tree "sun.glsl").value = some sun := rfl
  have hfree : ¬ Barred f.tree ([] ++ [⟨"main"⟩]) sun.path := by decide
  have htokens : tokenize content = .ok [.includeFile "sun.glsl" 1 .lineFeed] := rfl
  have hsun : tokenize sun.content = .ok [.text ['x', '\n']] := rfl
  have hsource : (f.source ⟨"main"⟩ content).value =
      .ok ⟨['x', '\n'], [], [⟨"own/sun.glsl"⟩]⟩ := by
    rw [value_source, expand_tokens htokens, expandTokens_include hfind hfree, expand_tokens hsun,
      expandTokens_text, expandTokens]
    rfl
  have found : ∀ name includer line,
      (f.source ⟨"main"⟩ content).value ≠ .error (.includeNotFound name includer line) := by
    intro name includer line hmissing
    rw [hsource] at hmissing
    cases hmissing
  exact ⟨hsource, rfl, (source_extend f ⟨"main"⟩ content found).2 Scripted w ⟨"lib"⟩ rfl⟩

end Flattener

end ShaderBuild
