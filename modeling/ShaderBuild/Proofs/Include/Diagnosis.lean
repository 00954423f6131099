import ShaderBuild.Proofs.Directive.Recognition
import ShaderBuild.Proofs.Include.Moves

/-!
# Failures Are True

What a failed pass says of the files is the case.

A failure is put together from the stack at which the pass stops, which knows the files
by their paths and what it has still to read of them. Whoever gets the failure looks at
the files. So each field has to be led back to them: the path to a file that includes
lead to from the source, the line to a line of that file's text and what the grammar says
of it, and the chain to a walk along includes.

A chain says why its last file was refused. Either as many files as may be were open, or
the file was open already. It was open once then, since no file ever is open twice, and
so the chain shows exactly one way round.

## Main definitions

* `Malforms`, `Misses`, `Refuses`: What the three kinds of failures say.
* `Justified`: A failure of a pass says what is the case.

## Theorems

* `find_eq_none_iff`: When a search finds nothing.
* `Follows.exists_walk`: The open files are a walk from the source.
* `Follows.misses`, `Follows.refuses`: What a step fails with is the case.
* `source_error_justified`: Every failure of a pass says what is the case.
-/

namespace ShaderBuild

/-- Line `line` of the file at `path`, which the source leads to, is the first of the file
    that breaks the grammar. -/
structure Malforms (search : SearchPath) (tree : Tree) (source : Found) (path : Path)
    (line : Nat) (message : String) : Prop where
  file : ∃ file bad, Relation.ReflTransGen (Includes search tree) source file ∧
    file.path = path ∧ IsLeast {n | IllFormed file.content n} line ∧
    tokenize file.content = .error bad ∧ bad.line = line ∧ bad.defect.message = message

/-- Line `line` of the file at `includer`, which the source leads to, is an include of
    `name`, and there is no readable file of that name to include. -/
structure Misses (search : SearchPath) (tree : Tree) (source : Found) (name : String)
    (includer : Path) (line : Nat) : Prop where
  file : ∃ file rest terminator, Relation.ReflTransGen (Includes search tree) source file ∧
    file.path = includer ∧ Candidate file.content line .includeFile rest terminator ∧
    IncludeName name.toList rest
  nowhere : Path.isRooted ⟨name⟩ ∨
    ∀ root ∈ search.roots, ∀ bytes, tree.read (root.join name) ≠ .ok bytes

/-- The chain leads along includes from the source to the file at `path`. Up to that file
    no file comes twice, and with it there is one too many or one that came before. -/
structure Refuses (search : SearchPath) (tree : Tree) (source : Found) (path : Path)
    (chain : List Path) : Prop where
  walk : ∃ files, IsWalk search tree files ∧ files.head? = some source ∧
    chain = files.map Found.path
  first : chain.head? = some source.path
  last : chain.getLast? = some path
  two_le : 2 ≤ chain.length
  length_le : chain.length ≤ maxOpenFiles + 1
  distinct : (chain.dropLast.map tree.identity).Nodup
  cause : chain.length = maxOpenFiles + 1 ∨
    (chain.dropLast.map tree.identity).count (tree.identity path) = 1

/-- A failure of the pass over a source says what is the case, and there are no failures
    of other kinds. -/
def Justified (search : SearchPath) (tree : Tree) (source : Found) : Failure → Prop
  | .malformedDirective path line message => Malforms search tree source path line message
  | .includeNotFound name includer line => Misses search tree source name includer line
  | .includeCycle path chain => Refuses search tree source path chain
  | _ => False

section Search

/-- A search through some roots finds nothing exactly if none of them holds a readable
    file of the name. -/
theorem SearchPath.findFrom_eq_none_iff {tree : Tree} {name : String} {roots : List Path} :
    (findFrom tree name roots).value = none ↔
      ∀ root ∈ roots, ∀ bytes, tree.read (root.join name) ≠ .ok bytes := by
  -- Induction on the roots, asked in the order of the search.
  induction roots with
  | nil => simp [findFrom]
  | cons root rest ih =>
      rw [findFrom, List.forall_mem_cons, ← ih]
      by_cases hfile : tree.isFile (root.join name)
      · rw [if_pos hfile]
        cases hread : tree.read (root.join name) with
        | ok bytes => simp
        | error fault => simp
      · rw [if_neg hfile]
        -- What does not look like a file cannot be read either.
        exact (and_iff_right fun bytes hread => hfile (Tree.isFile_of_read hread)).symm

theorem SearchPath.find_eq_none_iff {search : SearchPath} {tree : Tree} {name : String} :
    (search.find tree name).value = none ↔ Path.isRooted ⟨name⟩ ∨
      ∀ root ∈ search.roots, ∀ bytes, tree.read (root.join name) ≠ .ok bytes := by
  unfold find
  split
  · next hrooted => simp [hrooted]
  · next hrooted => rw [or_iff_right hrooted, findFrom_eq_none_iff]

/-- The include that a token stands for is on the line that the token names. -/
theorem candidate_of_mem {t : Text} {tokens : List Token} {name : String} {n : Nat}
    {terminator : Terminator} (h : tokenize t = .ok tokens)
    (hmem : .includeFile name n terminator ∈ tokens) :
    ∃ rest, Candidate t n .includeFile rest terminator ∧ IncludeName name.toList rest := by
  -- The token came from a candidate, and only an include makes such a token.
  obtain ⟨m, keyword, rest, ending, found, hcandidate, hname, htoken⟩ :=
    (mem_tokenize_iff h rfl).mp hmem
  cases keyword with
  | includeFile =>
      obtain ⟨rfl, rfl, rfl⟩ := Token.includeFile.inj htoken
      exact ⟨rest, hcandidate, hname⟩
  | autoresolve => cases htoken

end Search

variable {search : SearchPath} {tree : Tree} {source : Found}

theorem malforms_of_error {file : Found} {bad : Malformed}
    (hreach : Relation.ReflTransGen (Includes search tree) source file)
    (hbad : tokenize file.content = .error bad) :
    Malforms search tree source file.path bad.line bad.defect.message :=
  ⟨file, bad, hreach, rfl, illFormed_of_error hbad, hbad, rfl, rfl⟩

namespace Stack

variable {s : Stack} {opened : List Found}

/-- The open files, the outermost first, are a walk from the source. -/
theorem Follows.exists_walk (h : s.Follows search tree source opened) :
    ∃ rest, opened.reverse = source :: rest ∧ IsWalk search tree (source :: rest) := by
  -- The stack has the innermost file first and the walk has it last.
  obtain ⟨front, rfl⟩ := List.getLast?_eq_some_iff.mp h.first
  refine ⟨front.reverse, List.reverse_concat, ?_⟩
  rw [← List.reverse_concat, IsWalk, List.isChain_reverse]
  exact h.walk

theorem Follows.reaches (h : s.Follows search tree source opened) {found : Found}
    (hmem : found ∈ opened) : Relation.ReflTransGen (Includes search tree) source found := by
  obtain ⟨rest, hopened, hwalk⟩ := h.exists_walk
  exact reflTransGen_of_mem_walk hwalk (hopened ▸ List.mem_reverse.mpr hmem)

/-- The stack knows the files of the walk by their paths. -/
theorem Follows.chain_eq (h : s.Follows search tree source opened) :
    s.chain = opened.reverse.map Found.path := by
  have hpaths : s.files.map OpenFile.path = opened.map Found.path := by
    refine List.forall₂_eq_eq_eq ▸ List.forall₂_map_left_iff.mpr
      (List.forall₂_map_right_iff.mpr (h.files.imp fun _ _ hof => hof.path))
  rw [chain, hpaths, List.map_reverse]

/-- An include at which the pass stops for want of a file misses one. -/
theorem Follows.misses (h : s.Follows search tree source opened) {name : String} {line : Nat}
    {terminator : Terminator} {rest : List Token}
    (pending : s.innermost.pending = .includeFile name line terminator :: rest)
    (find : (search.find tree name).value = none) :
    Misses search tree source name s.innermost.path line := by
  -- The token is left to read in the innermost file, so the file has a candidate for it.
  obtain ⟨file, around, rfl, hof, -⟩ := h.innermost
  obtain ⟨read, hread⟩ := hof.pending
  rw [pending] at hread
  obtain ⟨text, hcandidate, hname⟩ :=
    candidate_of_mem hread (List.mem_append_right _ List.mem_cons_self)
  exact ⟨⟨file, text, terminator, h.reaches List.mem_cons_self, hof.path.symm, hcandidate, hname⟩,
    SearchPath.find_eq_none_iff.mp find⟩

/-- A file that may not be opened ends a chain that says why. -/
theorem Follows.refuses (h : s.Follows search tree source opened) {name : String} {line : Nat}
    {terminator : Terminator} {rest : List Token} {found : Found}
    (pending : s.innermost.pending = .includeFile name line terminator :: rest)
    (find : (search.find tree name).value = some found)
    (barred : ¬ s.Admits (tree.identity found.path)) :
    Refuses search tree source found.path (s.chain ++ [found.path]) := by
  -- The chain is what the stack knows of its files: as many paths, with their identities.
  have hlength : s.chain.length = s.files.length := by
    rw [chain, List.length_reverse, List.length_map]
  have hroom : s.files.length ≤ maxOpenFiles := s.outer_lt
  have hopen : 1 ≤ s.files.length := Nat.succ_le_succ (Nat.zero_le _)
  have hdistinct : (s.chain.map tree.identity).Nodup := by
    have hsame : s.chain.map tree.identity = (s.files.map OpenFile.identity).reverse := by
      rw [chain, ← List.map_reverse, List.map_map, ← List.map_reverse]
      exact List.map_congr_left fun file hfile =>
        (h.identified file (List.mem_reverse.mp hfile)).symm
    rw [hsame]
    exact List.nodup_reverse.mpr h.distinct
  obtain ⟨rest', hopened, hwalk⟩ := h.exists_walk
  refine ⟨⟨opened.reverse ++ [found], ?_, ?_, ?_⟩, ?_, ?_, ?_, ?_, ?_, ?_⟩
  · -- The walk goes on along the include that stands next in the innermost file.
    obtain ⟨file, around, rfl, hof, -⟩ := h.innermost
    rw [IsWalk, ← List.reverse_cons, List.isChain_reverse]
    exact List.isChain_cons_cons.mpr ⟨hof.includes pending find, h.walk⟩
  · rw [hopened]
    rfl
  · rw [h.chain_eq, List.map_append]
    rfl
  · rw [h.chain_eq, hopened]
    rfl
  · exact List.getLast?_concat
  · rw [List.length_append, hlength, List.length_singleton]
    omega
  · rw [List.length_append, hlength, List.length_singleton]
    omega
  · rw [List.dropLast_concat]
    exact hdistinct
  · rw [List.dropLast_concat, List.length_append, List.length_singleton]
    -- A file is refused for one of two reasons, and each is an end of the chain.
    rcases (not_admits_iff_barred h.identified found.path).mp barred with hfull | hmem
    · exact Or.inl (by omega)
    · exact Or.inr (List.count_eq_one_of_mem hdistinct hmem)

end Stack

namespace Flattener

/-- Every failure of a pass is of one of three kinds and says what is the case. -/
theorem source_error_justified (f : Flattener) (path : Path) (content : Text) {failure : Failure}
    (h : (f.source path content).value = .error failure) :
    Justified f.search f.tree ⟨path, content⟩ failure := by
  let source : Found := ⟨path, content⟩
  have hsource : (f.source source.path source.content).value = .error failure := h
  -- Either the source itself is malformed or some step fails, and the move says how.
  rcases exists_of_source_error hsource with ⟨bad, hbad, rfl⟩ | ⟨s, hreach, hmove⟩
  · exact malforms_of_error .refl hbad
  · obtain ⟨opened, hfollows⟩ := follows_of_reaches hreach
    cases hmove with
    | missing pending find => exact hfollows.misses pending find
    | refused pending find barred => exact hfollows.refuses pending find barred
    | malformed pending find admits scanned =>
        -- The file that was never opened is still one that an include leads to.
        obtain ⟨file, around, rfl, hof, -⟩ := hfollows.innermost
        have hlast := (hfollows.reaches List.mem_cons_self).tail (hof.includes pending find)
        exact malforms_of_error hlast scanned

/-- A file includes itself under another name. -/
theorem source_error_cycle_respelled :
    let f : Flattener := ⟨⟨[⟨"own"⟩], []⟩,
      ⟨[(["own"], .directory), (["own", "sun"],
        .file [35, 105, 110, 99, 108, 117, 100, 101, 60, 46, 47, 115, 117, 110, 62])]⟩, []⟩
    let content := "#include <sun>\n".toList
    let chain : List Path := [⟨"main"⟩, ⟨"own/sun"⟩, ⟨"own/./sun"⟩]
    (f.source ⟨"main"⟩ content).value = .error (.includeCycle ⟨"own/./sun"⟩ chain) ∧
      Refuses f.search f.tree ⟨⟨"main"⟩, content⟩ ⟨"own/./sun"⟩ chain := by
  intro f content chain
  let sun : Found := ⟨⟨"own/sun"⟩, "#include<./sun>".toList⟩
  let same : Found := ⟨⟨"own/./sun"⟩, "#include<./sun>".toList⟩
  have hfind : (f.search.find f.tree "sun").value = some sun := rfl
  have hfind' : (f.search.find f.tree "./sun").value = some same := rfl
  have hfree : ¬ Barred f.tree ([] ++ [⟨"main"⟩]) sun.path := by decide
  have hbarred : Barred f.tree ([] ++ [⟨"main"⟩] ++ [sun.path]) same.path := by decide
  have htokens : tokenize content = .ok [.includeFile "sun" 1 .lineFeed] := rfl
  have hsun : tokenize sun.content = .ok [.includeFile "./sun" 1 .none] := rfl
  have hsource : (f.source ⟨"main"⟩ content).value =
      .error (.includeCycle ⟨"own/./sun"⟩ chain) := by
    rw [value_source, expand_tokens htokens, expandTokens_include hfind hfree, expand_tokens hsun,
      expandTokens_barred hfind' hbarred]
    rfl
  exact ⟨hsource, source_error_justified f ⟨"main"⟩ content hsource⟩

end Flattener

end ShaderBuild
