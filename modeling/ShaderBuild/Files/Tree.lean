import ShaderBuild.Files.Path

/-!
# The File Tree

The files that includes are looked up in: everything below one directory, the
one that relative paths start from. What stands at a location is a node.
Nodes are found by location alone, so a tree is a finite map, and the top is a
directory whether or not anything was ever put there.

## Main definitions

* `Node`: What stands at a location.
* `Tree`: The nodes below the starting directory.
* `Tree.node?`: The node at a location.
* `Tree.put`, `Tree.remove`, `Tree.clear`: A tree with one location changed.
-/

namespace ShaderBuild

/-- Where a node stands: the names that lead to it, outermost first. -/
abbrev Location := List String

/-- What stands at a location. -/
inductive Node where
  /-- A regular file with these bytes. -/
  | file (bytes : List UInt8)
  | directory
  /-- A symbolic link; the target starts from the link's directory. -/
  | link (target : Path)
  /-- A file that looks regular but cannot be read. It is itself reached
      through two links. -/
  | unreadable
  deriving DecidableEq, Repr

/-- The nodes below the starting directory. -/
structure Tree where
  nodes : List (Location × Node)
  deriving Repr

namespace Tree

/-- The tree with nothing in it. -/
def empty : Tree := ⟨[]⟩

instance : Inhabited Tree := ⟨empty⟩

/-- The node at a location. -/
def node? (tree : Tree) (location : Location) : Option Node :=
  if location = [] then some .directory else tree.nodes.lookup location

/-- A tree without a location and everything below it. -/
def remove (tree : Tree) (location : Location) : Tree :=
  ⟨tree.nodes.filter fun entry => !location.isPrefixOf entry.1⟩

/-- A tree without everything below a location. -/
def clear (tree : Tree) (location : Location) : Tree :=
  ⟨tree.nodes.filter fun entry => !location.isPrefixOf entry.1 || entry.1 = location⟩

/-- A tree with a node at a location, in place of whatever was there. -/
def put (tree : Tree) (location : Location) (node : Node) : Tree :=
  ⟨(location, node) :: (tree.remove location).nodes⟩

end Tree

end ShaderBuild
