/-!
# Context Versions

Every stage is compiled for the version of the device's context, which is
announced by the first line of the source. Numbering of the shading language
follows the context version except for the desktop contexts before 3.3, whose
language versions were counted on their own.

## Main definitions

* `ContextVersion`: The version of a context.
* `ContextVersion.directive`: The line that announces it.
-/

namespace ShaderBuild

/-- The version of a rendering context, desktop or embedded. -/
structure ContextVersion where
  major : Nat
  minor : Nat
  embedded : Bool
  deriving DecidableEq, Repr

namespace ContextVersion

/-- The language versions of the desktop contexts that came before the two
    were numbered alike. -/
def earlyLanguage : List ((Nat × Nat) × String) :=
  [((2, 0), "110"), ((2, 1), "120"), ((3, 0), "130"), ((3, 1), "140"), ((3, 2), "150")]

/-- The language version numbered like the context. -/
def aligned (v : ContextVersion) : String :=
  toString v.major ++ toString v.minor ++ "0"

/-- The language version, with the profile where it has to be named. -/
def language (v : ContextVersion) : String :=
  if v.embedded then v.aligned ++ " es"
  else (earlyLanguage.lookup (v.major, v.minor)).getD v.aligned

/-- The line that announces the language version. -/
def directive (v : ContextVersion) : String :=
  "#version " ++ v.language ++ "\n"

end ContextVersion

end ShaderBuild
