import ShaderBuild.Include.Search
import ShaderBuild.Proofs.Files.Routes

/-!
# Whether Includes Stay in Their Roots

Names that start from the root of the file system are refused so that includes
stay inside the search roots. That covers one of two ways to leave a root. A
name that climbs is joined and walked like any other, and if there is a file
where it leads, that file is what the include finds.

The root a file was found under is the first that holds a readable file of the
name. It is always a directory of the tree, and where the file stands is where
the name alone leads from there. So whether the walk stays in the root is a
matter of the name: it does unless the name climbs, whatever the files and the
roots are.

## Main definitions

* `SearchPath.FirstReadable`: A root is the first with a readable file.
* `SearchPath.FoundUnder`: The root that a file was found under, and where both
  stand.

## Theorems

* `findFrom_eq_some`: A search ends at the first root with a readable file.
* `exists_foundUnder`: What is found is found under a root.
* `find_stays_iff`: An include stays in its root unless its name climbs.
-/

namespace ShaderBuild

namespace SearchPath

/-- A root is the first of some that holds a readable file of the name. -/
def FirstReadable (tree : Tree) (name : String) (roots : List Path) (root : Path) : Prop :=
  (∃ bytes, tree.read (root.join name) = .ok bytes) ∧ ∃ before after,
    roots = before ++ root :: after ∧
      ∀ other ∈ before, ∀ bytes, tree.read (other.join name) ≠ .ok bytes

theorem FirstReadable.cons {tree : Tree} {name : String} {roots : List Path} {root other : Path}
    (h : FirstReadable tree name roots root)
    (hother : ∀ bytes, tree.read (other.join name) ≠ .ok bytes) :
    FirstReadable tree name (other :: roots) root := by
  obtain ⟨hread, before, after, rfl, hbefore⟩ := h
  exact ⟨hread, other :: before, after, rfl, List.forall_mem_cons.mpr ⟨hother, hbefore⟩⟩

/-- A search ends at the first root with a readable file of the name. -/
theorem findFrom_eq_some {tree : Tree} {name : String} {roots : List Path} {found : Found}
    (h : (findFrom tree name roots).value = some found) :
    ∃ root, FirstReadable tree name roots root ∧ found.path = root.join name := by
  -- A root without a readable file is passed over, and the rest is searched like before.
  induction roots with
  | nil => simp [findFrom] at h
  | cons root rest ih =>
      rw [findFrom] at h
      split at h
      · split at h
        · next bytes hread =>
          simp only [Logged.value_bind, Logged.value_pure, Option.some.injEq] at h
          exact ⟨root, ⟨⟨bytes, hread⟩, [], rest, rfl,
            fun _ hmem => absurd hmem List.not_mem_nil⟩, by rw [← h]⟩
        · next fault hread =>
          obtain ⟨first, hfirst, hpath⟩ := ih (by simpa only [Logged.value_bind] using h)
          have hroot (bytes : List UInt8) : tree.read (root.join name) ≠ .ok bytes := by
            simp only [hread, ne_eq, reduceCtorEq, not_false_eq_true]
          exact ⟨first, hfirst.cons hroot, hpath⟩
      · next hfile =>
        obtain ⟨first, hfirst, hpath⟩ := ih h
        exact ⟨first, hfirst.cons fun bytes hok => hfile (Tree.isFile_of_read hok), hpath⟩

/-- A file was found under `root`, which is the directory at `base`, and the name
    leads from there to the file's location. -/
structure FoundUnder (search : SearchPath) (tree : Tree) (name : String) (found : Found)
    (root : Path) (base location : Location) : Prop where
  path : found.path = root.join name
  first : FirstReadable tree name search.roots root
  directory : tree.reach (root.start (.inside [])) root.steps = .ok (.directory (.inside base))
  file : ∃ bytes, tree.locate found.path = .ok (.file location bytes) ∧
    tree.reach (.inside base) (⟨name⟩ : Path).steps = .ok (.file location bytes)

theorem exists_foundUnder {search : SearchPath} {tree : Tree} {name : String} {found : Found}
    (hfree : tree.LinkFree) (h : (search.find tree name).value = some found) :
    ∃ root base location, search.FoundUnder tree name found root base location := by
  unfold find at h
  split at h
  · simp at h
  next hrooted =>
  obtain ⟨root, hfirst, hpath⟩ := findFrom_eq_some h
  obtain ⟨bytes, hread⟩ := hfirst.1
  obtain ⟨location, hlocate⟩ := Tree.locate_of_read hread
  -- From where the walk of the whole path starts: the root's steps, then those of the name.
  have hreach : tree.reach (root.start (.inside [])) (root.join name).steps =
      .ok (.file location bytes) := by
    have h := hlocate
    rw [Tree.locate] at h
    split at h
    · cases h
    · rwa [Path.start_join (Bool.eq_false_iff.mpr hrooted)] at h
  -- The root may be written with steps of its own, up and out of the tree, but
  -- from out there no file is found.
  obtain ⟨place, hroot, hname⟩ := hfree.reach_join_iff.mp hreach
  obtain ⟨base, rfl⟩ := hfree.inside_of_reach_file hname
  exact ⟨root, base, location, hpath, hfirst, hroot, ⟨bytes, hpath ▸ hlocate, hname⟩⟩

/-- An include stays in the root it is found under unless its name climbs. In a
    root it stays in, the file stands below the root. -/
theorem find_stays_iff (search : SearchPath) (tree : Tree) (name : String) (found : Found)
    (hfree : tree.LinkFree) (h : (search.find tree name).value = some found) :
    ∃ root base location, search.FoundUnder tree name found root base location ∧
      (tree.Stays base (⟨name⟩ : Path).steps ↔ (⟨name⟩ : Path).climbs = false) ∧
      (tree.Stays base (⟨name⟩ : Path).steps → base <+: location) := by
  obtain ⟨root, base, location, hunder⟩ := exists_foundUnder hfree h
  obtain ⟨bytes, -, hname⟩ := hunder.file
  -- To stay means that every part of the way does, and the whole way is one of them.
  refine ⟨root, base, location, hunder, hfree.stays_iff hname, fun hstays => ?_⟩
  obtain ⟨standing, hreach, hwithin⟩ := hstays _ List.prefix_rfl
  rw [hname] at hreach
  cases hreach
  exact hwithin

/-- A name that leaves a directory it has entered. -/
theorem find_stays_descent :
    let search : SearchPath := ⟨[⟨"own"⟩], []⟩
    let tree : Tree := ⟨[(["own"], .directory), (["own", "sky"], .directory),
      (["own", "sun.glsl"], .file [10])]⟩
    ∃ root base location,
      search.FoundUnder tree "sky/../sun.glsl" ⟨⟨"own/sky/../sun.glsl"⟩, ['\n']⟩
        root base location ∧ tree.Stays base (⟨"sky/../sun.glsl"⟩ : Path).steps ∧
      base <+: location := by
  intro search tree
  have hfree : tree.LinkFree := Tree.linkFree_of_nodes (by simp [tree])
  obtain ⟨root, base, location, hunder, hiff, hbelow⟩ := find_stays_iff search tree
    "sky/../sun.glsl" ⟨⟨"own/sky/../sun.glsl"⟩, ['\n']⟩ hfree rfl
  have hstays := hiff.mpr rfl
  exact ⟨root, base, location, hunder, hstays, hbelow hstays⟩

/-- A file beside the only root is found by a name that climbs. -/
theorem find_beside_root :
    let search : SearchPath := ⟨[⟨"own"⟩], []⟩
    let tree : Tree := ⟨[(["own"], .directory), (["secret.glsl"], .file [10])]⟩
    let found : Found := ⟨⟨"own/../secret.glsl"⟩, ['\n']⟩
    tree.LinkFree ∧ (search.find tree "../secret.glsl").value = some found ∧
      search.FoundUnder tree "../secret.glsl" found ⟨"own"⟩ ["own"] ["secret.glsl"] ∧
      ¬ tree.Stays ["own"] (⟨"../secret.glsl"⟩ : Path).steps ∧ ¬ ["own"] <+: ["secret.glsl"] := by
  intro search tree found
  have hfree : tree.LinkFree := Tree.linkFree_of_nodes (by simp [tree])
  have hlocate : tree.locate ⟨"own/../secret.glsl"⟩ = .ok (.file ["secret.glsl"] [10]) := by rfl
  have hname : tree.reach (.inside ["own"]) (⟨"../secret.glsl"⟩ : Path).steps =
      .ok (.file ["secret.glsl"] [10]) := rfl
  have hfirst : FirstReadable tree "../secret.glsl" search.roots ⟨"own"⟩ :=
    ⟨⟨[10], by rfl⟩, [], [], rfl, fun _ hmem => absurd hmem List.not_mem_nil⟩
  refine ⟨hfree, rfl, ⟨by rfl, hfirst, rfl, ⟨[10], hlocate, hname⟩⟩, ?_, by decide⟩
  rw [hfree.stays_iff hname]
  decide

end SearchPath

end ShaderBuild
