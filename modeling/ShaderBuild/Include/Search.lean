import ShaderBuild.Files.Walk
import ShaderBuild.Log.Entry

/-!
# Finding Included Files

An include names a file relative to a list of search roots, which are tried in
order: those of the program first, then those shared by all programs. The
first root that holds a readable file under the name wins. A candidate that
exists and cannot be read is passed over, so a damaged file does not hide a
good one behind it.

Names that start from the root of the file system are refused before any root
is tried.

Included text is read leniently: bytes that are no text become replacement
characters, and the search says so.

## Main definitions

* `SearchPath`: The roots of a program and the shared ones.
* `Found`: A file an include led to.
* `findFrom`: The search through a list of roots.
* `SearchPath.find`: The file an include leads to.
-/

namespace ShaderBuild

/-- The roots that includes are searched in. -/
structure SearchPath where
  own : List Path
  shared : List Path
  deriving DecidableEq, Repr, Inhabited

/-- A file an include led to: the root joined with the name, and its text. -/
structure Found where
  path : Path
  content : Text
  deriving DecidableEq, Repr

namespace SearchPath

/-- What the entries of a search give as their source. -/
def source : String := "galaxy3d::glsl::IncludeResolver"

/-- The roots in the order they are tried. -/
def roots (search : SearchPath) : List Path :=
  search.own ++ search.shared

/-- The text of an included file, with a warning if it is not well formed. -/
def decode (path : Path) (bytes : List UInt8) : Logged Text :=
  match Utf8.decode? bytes with
  | some text => pure text
  | none => do
    Logged.note (.report .warn source s!"{path.text} is not valid UTF-8, decoding lossily")
    pure (Utf8.decodeLossy bytes)

/-- Search for `name` through a list of roots. -/
def findFrom (tree : Tree) (name : String) : List Path → Logged (Option Found)
  | [] => pure none
  | root :: rest =>
    let candidate := root.join name
    if tree.isFile candidate then
      match tree.read candidate with
      | .ok bytes => do
        let content ← decode candidate bytes
        Logged.note (.report .trace source s!"Resolved `{name}` to {candidate.text}")
        pure (some ⟨candidate, content⟩)
      | .error fault => do
        Logged.note (.report .debug source
          s!"Skipping unreadable include candidate {candidate.text}: {fault.message}")
        findFrom tree name rest
    else findFrom tree name rest

/-- The file an include of `name` leads to. -/
def find (search : SearchPath) (tree : Tree) (name : String) : Logged (Option Found) :=
  if Path.isRooted ⟨name⟩ then do
    Logged.note (.report .debug source s!"Rejecting rooted include name `{name}`")
    pure none
  else findFrom tree name search.roots

end SearchPath

end ShaderBuild
