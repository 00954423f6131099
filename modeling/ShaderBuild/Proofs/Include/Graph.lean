import Mathlib.Data.List.Chain
import Mathlib.Data.List.Nodup
import ShaderBuild.Proofs.Include.Composition
import ShaderBuild.Proofs.Include.Simulation

/-!
# The Include Graph

Which sources can be flattened, said of the files alone. One file includes
another if some include in it leads there, and a walk follows includes from
file to file. A source can be flattened exactly if nothing is wrong along any
walk that begins with it: every file is well formed and all its includes lead
somewhere, and the files of the walk are different files and not too many.

The files around an include are always a walk, so an expansion only ever looks
at walks. That all of them are looked at is an induction along the walk. That
looking at them is enough is an induction on how many files may still be
opened, since a walk can be as long as it likes otherwise.

Nothing is asked of two different walks, so a file that is reached in two ways,
or included twice, is as good as any other.

## Main definitions

* `Includes`: One file includes another.
* `Complete`: Nothing is wrong with a file by itself.
* `IsWalk`: A walk along includes.
* `Openable`: Files that may be open at once.
* `Cyclic`: Some walk from a file comes back to where it has been.

## Theorems

* `openable_concat_iff`: When one more file may be open.
* `expandTokens_ok_iff`, `expand_ok_iff`: What an expansion asks of the files
  it opens.
* `expand_induction`: What passes from included files to the file that includes
  them holds of all expansions.
* `openable_of_expand_ok`: An expansion asks it along every walk.
* `expand_ok_of_openable`: It asks no more.
* `exists_walk_of_cyclic`, `nodup_of_not_cyclic`: A file is twice on some walk
  exactly if there is a cycle.
* `source_ok_iff_openable`: The same for the pass over a source.
* `source_ok_iff_walks`: A source can be flattened exactly if nothing is wrong
  along its walks.
-/

namespace ShaderBuild

/-- One file includes another: some include in it leads there. -/
def Includes (search : SearchPath) (tree : Tree) (a b : Found) : Prop :=
  ∃ tokens name line terminator, tokenize a.content = .ok tokens ∧
    .includeFile name line terminator ∈ tokens ∧ (search.find tree name).value = some b

/-- Every directive of a file is well formed, and every include in it leads to
    some file. -/
def Complete (search : SearchPath) (tree : Tree) (a : Found) : Prop :=
  ∃ tokens, tokenize a.content = .ok tokens ∧ ∀ name line terminator,
    .includeFile name line terminator ∈ tokens → ∃ b, (search.find tree name).value = some b

/-- A walk along includes. -/
def IsWalk (search : SearchPath) (tree : Tree) (walk : List Found) : Prop :=
  walk.IsChain (Includes search tree)

/-- Files that may be open at once: not too many, and no file twice. -/
structure Openable (tree : Tree) (paths : List Path) : Prop where
  length_le : paths.length ≤ maxOpenFiles
  nodup : (paths.map tree.identity).Nodup

section Expansion

variable {search : SearchPath} {tree : Tree}

theorem openable_concat_iff {opened : List Path} {path : Path} (h : Openable tree opened) :
    Openable tree (opened ++ [path]) ↔ ¬ Barred tree opened path := by
  have hiff : ¬ Barred tree opened path ↔
      opened.length < maxOpenFiles ∧ tree.identity path ∉ opened.map tree.identity := by
    rw [Barred, not_or, Nat.not_le]
  -- What is refused is one file too many or one that is open.
  rw [hiff]
  constructor
  · rintro ⟨hlength, hnodup⟩
    rw [List.map_append, List.nodup_append] at hnodup
    rw [List.length_append, List.length_singleton] at hlength
    exact ⟨hlength, fun hmem => hnodup.2.2 _ hmem _ (List.mem_singleton_self _) rfl⟩
  · rintro ⟨hlength, hnew⟩
    refine ⟨?_, ?_⟩
    · rw [List.length_append, List.length_singleton]
      exact hlength
    · rw [List.map_append, List.map_singleton, List.nodup_append]
      refine ⟨h.nodup, List.nodup_singleton _, fun a ha b hb hab => ?_⟩
      rw [List.mem_singleton] at hb
      exact hnew (hb ▸ hab ▸ ha)

/-- What comes after something succeeds or fails by itself. -/
theorem append_ok_iff {x : Except Failure Flattened} {d : Flattened} :
    (∃ e, (do let after ← x; .ok (d ++ after)) = (.ok e : Except Failure Flattened)) ↔
      ∃ e, x = .ok e := by
  cases x with
  | error failure => simp only [bind, Except.bind, reduceCtorEq, exists_false]
  | ok e => exact ⟨fun _ => ⟨e, rfl⟩, fun _ => ⟨d ++ e, rfl⟩⟩

theorem include_ok_iff {ancestors : List Path} {path : Path} {name : String} {line : Nat}
    {terminator : Terminator} {rest : List Token} :
    (∃ e, expandTokens search tree ancestors path (.includeFile name line terminator :: rest) =
        .ok e) ↔
      (∃ found, (search.find tree name).value = some found ∧
        ¬ Barred tree (ancestors ++ [path]) found.path ∧
        ∃ e, expand search tree (ancestors ++ [path]) found = .ok e) ∧
      ∃ e, expandTokens search tree ancestors path rest = .ok e := by
  simp only [expandTokens_include_eq_ok_iff]
  constructor
  · rintro ⟨_, found, child, after, hfind, hfree, hchild, hafter, -⟩
    exact ⟨⟨found, hfind, hfree, child, hchild⟩, after, hafter⟩
  · rintro ⟨⟨found, hfind, hfree, child, hchild⟩, after, hafter⟩
    exact ⟨_, found, child, after, hfind, hfree, hchild, hafter, rfl⟩

theorem expandTokens_ok_iff {ancestors : List Path} {path : Path} (tokens : List Token) :
    (∃ e, expandTokens search tree ancestors path tokens = .ok e) ↔
      ∀ name line terminator, .includeFile name line terminator ∈ tokens →
        ∃ found, (search.find tree name).value = some found ∧
          ¬ Barred tree (ancestors ++ [path]) found.path ∧
          ∃ e, expand search tree (ancestors ++ [path]) found = .ok e := by
  -- Induction on the tokens; only an include asks anything.
  induction tokens with
  | nil =>
      rw [expandTokens]
      exact ⟨fun _ _ _ _ hmem => absurd hmem List.not_mem_nil, fun _ => ⟨_, rfl⟩⟩
  | cons token rest ih =>
      cases token with
      | text t =>
          rw [expandTokens, append_ok_iff, ih]
          simp only [List.mem_cons, reduceCtorEq, false_or]
      | autoresolve name line =>
          rw [expandTokens, append_ok_iff, ih]
          simp only [List.mem_cons, reduceCtorEq, false_or]
      | includeFile name line terminator =>
          rw [include_ok_iff, ih]
          constructor
          · rintro ⟨hfirst, hothers⟩ other n t hmem
            rcases List.mem_cons.mp hmem with heq | hmem
            · injection heq with hname
              exact hname ▸ hfirst
            · exact hothers other n t hmem
          · intro h
            exact ⟨h name line terminator List.mem_cons_self,
              fun other n t hmem => h other n t (List.mem_cons_of_mem _ hmem)⟩

/-- A file can be expanded exactly if nothing is wrong with it by itself and
    every file it includes may be opened in it and can be expanded there. -/
theorem expand_ok_iff {ancestors : List Path} {file : Found} :
    (∃ e, expand search tree ancestors file = .ok e) ↔
      Complete search tree file ∧ ∀ child, Includes search tree file child →
        ¬ Barred tree (ancestors ++ [file.path]) child.path ∧
        ∃ e, expand search tree (ancestors ++ [file.path]) child = .ok e := by
  cases htokens : tokenize file.content with
  | error bad =>
      rw [expand_malformed htokens]
      simp only [Complete, htokens, reduceCtorEq, exists_false, false_and]
  | ok tokens =>
      rw [expand_tokens htokens, expandTokens_ok_iff]
      -- A file has only one list of tokens, so the includes among these are all
      -- there are.
      constructor
      · intro h
        refine ⟨⟨tokens, htokens, fun name line terminator hmem => ?_⟩, ?_⟩
        · rcases h name line terminator hmem with ⟨found, hfind, -⟩
          exact ⟨found, hfind⟩
        · rintro child ⟨others, name, line, terminator, hothers, hmem, hchild⟩
          obtain rfl : tokens = others := by
            rw [htokens] at hothers
            injection hothers
          rcases h name line terminator hmem with ⟨found, hfind, hopen⟩
          obtain rfl : found = child := by
            rw [hfind] at hchild
            injection hchild
          exact hopen
      · rintro ⟨⟨others, hothers, hcomplete⟩, hchildren⟩ name line terminator hmem
        obtain rfl : tokens = others := by
          rw [htokens] at hothers
          injection hothers
        rcases hcomplete name line terminator hmem with ⟨found, hfind⟩
        exact ⟨found, hfind, hchildren found ⟨tokens, name, line, terminator, htokens, hmem, hfind⟩⟩

/-- What holds of the expansion of a file whenever it holds of those of the files
    that it includes holds of every expansion. -/
theorem expand_induction {P : List Path → Found → Flattened → Prop}
    (step : ∀ ancestors file tokens e, tokenize file.content = .ok tokens →
      expandTokens search tree ancestors file.path tokens = .ok e →
      (∀ child inner, Includes search tree file child →
        expand search tree (ancestors ++ [file.path]) child = .ok inner →
          P (ancestors ++ [file.path]) child inner) → P ancestors file e)
    (ancestors : List Path) (file : Found) (e : Flattened)
    (h : expand search tree ancestors file = .ok e) : P ancestors file e := by
  obtain ⟨tokens, htokens, hexpanded⟩ := expand_eq_ok_iff.mp h
  -- The induction follows the files inside each other, and their number is bounded.
  refine step ancestors file tokens e htokens hexpanded fun child inner hchild hinner => ?_
  have hlt := length_lt_of_not_barred ((expand_ok_iff.mp ⟨e, h⟩).2 child hchild).1
  exact expand_induction step (ancestors ++ [file.path]) child inner hinner
termination_by maxOpenFiles - ancestors.length
decreasing_by
  rw [List.length_append, List.length_singleton] at hlt ⊢
  omega

/-- An expansion asks of the files along every walk that nothing is wrong with
    them by themselves, and that they may be open together. -/
theorem openable_of_expand_ok (rest : List Found) :
    ∀ (ancestors : List Path) (file : Found), Openable tree (ancestors ++ [file.path]) →
      (∃ e, expand search tree ancestors file = .ok e) → IsWalk search tree (file :: rest) →
        (∀ a ∈ file :: rest, Complete search tree a) ∧
        Openable tree (ancestors ++ (file :: rest).map Found.path) := by
  -- Induction on the walk, which starts one file further inside each time.
  induction rest with
  | nil =>
      intro ancestors file hopen hok _
      refine ⟨fun a ha => ?_, hopen⟩
      rw [List.mem_singleton.mp ha]
      exact (expand_ok_iff.mp hok).1
  | cons child rest ih =>
      intro ancestors file hopen hok hwalk
      rw [IsWalk, List.isChain_cons_cons] at hwalk
      -- The expansion goes on where the walk does, with one more file open.
      rcases expand_ok_iff.mp hok with ⟨hcomplete, hchildren⟩
      rcases hchildren child hwalk.1 with ⟨hfree, hchild⟩
      rcases ih (ancestors ++ [file.path]) child ((openable_concat_iff hopen).mpr hfree) hchild
        hwalk.2 with ⟨hrest, hall⟩
      refine ⟨fun a ha => ?_, ?_⟩
      · rcases List.mem_cons.mp ha with rfl | ha
        · exact hcomplete
        · exact hrest a ha
      · rw [List.append_assoc] at hall
        exact hall

/-- An expansion asks no more. The induction is on how many files may still be
    opened, which is what a walk uses up. -/
theorem expand_ok_of_openable (n : Nat) :
    ∀ (ancestors : List Path) (file : Found), maxOpenFiles ≤ ancestors.length + n →
      (∀ rest, IsWalk search tree (file :: rest) →
        (∀ a ∈ file :: rest, Complete search tree a) ∧
        Openable tree (ancestors ++ (file :: rest).map Found.path)) →
      ∃ e, expand search tree ancestors file = .ok e := by
  induction n with
  | zero =>
      intro ancestors file hroom hwalks
      -- The file itself is already one too many.
      have hlength := (hwalks [] (List.isChain_singleton file)).2.length_le
      rw [List.length_append, List.length_map, List.length_singleton] at hlength
      omega
  | succ n ih =>
      intro ancestors file hroom hwalks
      have hfile := hwalks [] (List.isChain_singleton file)
      refine expand_ok_iff.mpr ⟨hfile.1 file List.mem_cons_self, fun child hchild => ?_⟩
      -- A walk from an included file is one from the file itself, a step longer.
      have hinside : ∀ rest, IsWalk search tree (child :: rest) →
          (∀ a ∈ child :: rest, Complete search tree a) ∧
          Openable tree (ancestors ++ [file.path] ++ (child :: rest).map Found.path) := by
        intro rest hrest
        rcases hwalks (child :: rest) (List.isChain_cons_cons.mpr ⟨hchild, hrest⟩) with
          ⟨hcomplete, hopen⟩
        refine ⟨fun a ha => hcomplete a (List.mem_cons_of_mem _ ha), ?_⟩
        rw [List.append_assoc]
        exact hopen
      refine ⟨(openable_concat_iff hfile.2).mp (hinside [] (List.isChain_singleton child)).2,
        ih (ancestors ++ [file.path]) child ?_ hinside⟩
      rw [List.length_append, List.length_singleton]
      omega

end Expansion

section Walks

variable {search : SearchPath} {tree : Tree}

theorem openable_walk_iff {walk : List Found} : Openable tree (walk.map Found.path) ↔
    (walk.map fun file => tree.identity file.path).Nodup ∧ walk.length ≤ maxOpenFiles := by
  constructor
  · rintro ⟨hlength, hnodup⟩
    rw [List.length_map] at hlength
    rw [List.map_map] at hnodup
    exact ⟨hnodup, hlength⟩
  · rintro ⟨hnodup, hlength⟩
    refine ⟨?_, ?_⟩
    · rw [List.length_map]
      exact hlength
    · rw [List.map_map]
      exact hnodup

/-- Including leads from a file that `source` reaches back to that very file,
    however it is spelled. -/
def Cyclic (search : SearchPath) (tree : Tree) (source : Found) : Prop :=
  ∃ a b, Relation.ReflTransGen (Includes search tree) source a ∧
    Relation.TransGen (Includes search tree) a b ∧ tree.identity a.path = tree.identity b.path

theorem pairwise_of_isWalk {walk : List Found} (h : IsWalk search tree walk) :
    walk.Pairwise (Relation.TransGen (Includes search tree)) :=
  List.isChain_iff_pairwise.mp (h.imp fun _ _ hab => Relation.TransGen.single hab)

theorem reflTransGen_of_mem_walk {a b : Found} {rest : List Found}
    (h : IsWalk search tree (a :: rest)) (hb : b ∈ a :: rest) :
    Relation.ReflTransGen (Includes search tree) a b := by
  have hpairwise := pairwise_of_isWalk h
  rcases List.mem_cons.mp hb with rfl | hb
  · exact Relation.ReflTransGen.refl
  · exact ((List.pairwise_cons.mp hpairwise).1 b hb).to_reflTransGen

theorem exists_walk_of_cyclic {source : Found} (h : Cyclic search tree source) :
    ∃ rest, IsWalk search tree (source :: rest) ∧
      ¬ ((source :: rest).map fun file => tree.identity file.path).Nodup := by
  rcases h with ⟨a, b, hreach, hback, hsame⟩
  rcases Relation.TransGen.head'_iff.mp hback with ⟨c, hac, hcb⟩
  rcases List.exists_isChain_cons_of_relationReflTransGen hreach with ⟨before, hbefore, hlast⟩
  rcases List.exists_isChain_cons_of_relationReflTransGen hcb with ⟨after, hafter, hend⟩
  -- The walk leads to `a` and from there once round, where `b` is `a` again.
  have hmem : a ∈ source :: before := hlast ▸ List.getLast_mem _
  have hmem' : b ∈ c :: after := hend ▸ List.getLast_mem _
  -- The two parts meet in the step from `a` to `c`.
  refine ⟨before ++ c :: after, ?_, fun hnodup => ?_⟩
  · rw [IsWalk, ← List.cons_append, List.isChain_append]
    refine ⟨hbefore, hafter, fun x hx y hy => ?_⟩
    rw [List.getLast?_eq_some_getLast (List.cons_ne_nil _ _), hlast] at hx
    obtain rfl : a = x := by simpa using hx
    obtain rfl : c = y := by simpa using hy
    exact hac
  · rw [← List.cons_append, List.map_append, List.nodup_append] at hnodup
    exact hnodup.2.2 _ (List.mem_map_of_mem hmem) _ (List.mem_map_of_mem hmem') hsame

theorem nodup_of_not_cyclic {source : Found} (h : ¬ Cyclic search tree source) {rest : List Found}
    (hwalk : IsWalk search tree (source :: rest)) :
    ((source :: rest).map fun file => tree.identity file.path).Nodup := by
  -- Two files of a walk with one identity would close a cycle.
  rw [List.Nodup, List.pairwise_map]
  refine (pairwise_of_isWalk hwalk).imp_of_mem fun {a b} ha _ hab hsame => ?_
  exact h ⟨a, b, reflTransGen_of_mem_walk hwalk ha, hab, hsame⟩

end Walks

namespace Flattener

theorem source_ok_iff_expand_ok (f : Flattener) (path : Path) (content : Text) :
    (∃ result, (f.source path content).value = .ok result) ↔
      ∃ e, expand f.search f.tree [] ⟨path, content⟩ = .ok e := by
  simp only [value_source_ok_iff]
  exact ⟨fun ⟨_, e, he, _⟩ => ⟨e, he⟩, fun ⟨e, he⟩ => ⟨_, e, he, rfl⟩⟩

/-- A source alone may always be open, so its expansion is asked exactly what
    its walks say. -/
theorem source_ok_iff_openable (f : Flattener) (path : Path) (content : Text) :
    (∃ result, (f.source path content).value = .ok result) ↔
      ∀ rest, IsWalk f.search f.tree (⟨path, content⟩ :: rest) →
        (∀ file ∈ (⟨path, content⟩ :: rest : List Found), Complete f.search f.tree file) ∧
        Openable f.tree ((⟨path, content⟩ :: rest : List Found).map Found.path) := by
  rw [source_ok_iff_expand_ok]
  constructor
  · intro hok rest hwalk
    have halone : Openable f.tree [path] := ⟨(by decide : 1 ≤ maxOpenFiles), List.nodup_singleton _⟩
    exact openable_of_expand_ok rest [] ⟨path, content⟩ halone hok hwalk
  -- With no file around the source, all of the files a pass may open are still to come.
  · intro hwalks
    exact expand_ok_of_openable maxOpenFiles [] ⟨path, content⟩ (Nat.le_add_left _ _) hwalks

/-- A source can be flattened exactly if along every walk from it all files are
    complete, no file comes twice and there are not too many. So it never can
    be if some cycle can be reached from it, and always can be if none can, in
    whatever number of ways a file is reached. -/
theorem source_ok_iff_walks (f : Flattener) (path : Path) (content : Text) :
    let source : Found := ⟨path, content⟩
    ((∃ result, (f.source path content).value = .ok result) ↔
      ∀ rest, IsWalk f.search f.tree (source :: rest) →
        (∀ file ∈ source :: rest, Complete f.search f.tree file) ∧
        ((source :: rest).map fun file => f.tree.identity file.path).Nodup ∧
        rest.length + 1 ≤ maxOpenFiles) ∧
    (Cyclic f.search f.tree source → ¬ ∃ result, (f.source path content).value = .ok result) ∧
    ((∀ file, Relation.ReflTransGen (Includes f.search f.tree) source file →
        Complete f.search f.tree file) →
      ¬ Cyclic f.search f.tree source →
      (∀ rest, IsWalk f.search f.tree (source :: rest) → rest.length + 1 ≤ maxOpenFiles) →
      ∃ result, (f.source path content).value = .ok result) := by
  intro source
  have hiff := f.source_ok_iff_openable path content
  simp only [openable_walk_iff, List.length_cons] at hiff
  refine ⟨hiff, fun hcyclic hok => ?_, fun hcomplete hacyclic hdepth => ?_⟩
  · rcases exists_walk_of_cyclic hcyclic with ⟨rest, hwalk, htwice⟩
    exact htwice (hiff.mp hok rest hwalk).2.1
  · refine hiff.mpr fun rest hwalk => ⟨fun file hfile => ?_, ?_, hdepth rest hwalk⟩
    · exact hcomplete file (reflTransGen_of_mem_walk hwalk hfile)
    · exact nodup_of_not_cyclic hacyclic hwalk

end Flattener

end ShaderBuild
