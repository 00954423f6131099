/-!
# Stages

The stages a program is compiled from.

## Main definitions

* `Stage`: A stage of the pipeline.
* `Stage.name`: What a stage is called in messages.
-/

namespace ShaderBuild

/-- A stage of the pipeline. -/
inductive Stage where
  | vertex
  | tessControl
  | tessEvaluation
  | geometry
  | fragment
  | compute
  deriving DecidableEq, Repr

namespace Stage

/-- What a stage is called in messages. -/
def name : Stage → String
  | .vertex => "Vertex"
  | .tessControl => "TessControl"
  | .tessEvaluation => "TessEvaluation"
  | .geometry => "Geometry"
  | .fragment => "Fragment"
  | .compute => "Compute"

/-- Every stage, in pipeline order. -/
def all : List Stage :=
  [.vertex, .tessControl, .tessEvaluation, .geometry, .fragment, .compute]

/-- The stage with a given name. -/
def named? (s : String) : Option Stage :=
  all.find? fun stage => stage.name = s

end Stage

end ShaderBuild
