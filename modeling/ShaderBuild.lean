import ShaderBuild.Device.Basic
import ShaderBuild.Device.Scripted
import ShaderBuild.Device.Session
import ShaderBuild.Directive.Comment
import ShaderBuild.Directive.Grammar
import ShaderBuild.Directive.Scan
import ShaderBuild.Directive.Token
import ShaderBuild.Failure
import ShaderBuild.Files.Edit
import ShaderBuild.Files.Path
import ShaderBuild.Files.Tree
import ShaderBuild.Files.Walk
import ShaderBuild.Include.Flatten
import ShaderBuild.Include.Search
import ShaderBuild.Include.Stack
import ShaderBuild.Include.Weight
import ShaderBuild.Log.Console
import ShaderBuild.Log.Entry
import ShaderBuild.Log.Timestamp
import ShaderBuild.Program.Basic
import ShaderBuild.Program.Operations
import ShaderBuild.Program.Phase
import ShaderBuild.Proofs.Device.Journal
import ShaderBuild.Proofs.Include.Expansion
import ShaderBuild.Proofs.Include.Graph
import ShaderBuild.Proofs.Include.Simulation
import ShaderBuild.Proofs.Include.Trace
import ShaderBuild.Proofs.Program.Binding
import ShaderBuild.Proofs.Program.Linking
import ShaderBuild.Proofs.Program.Poisoned
import ShaderBuild.Proofs.Program.Steps
import ShaderBuild.Stage
import ShaderBuild.Text.Basic
import ShaderBuild.Text.Space
import ShaderBuild.Text.Utf8
import ShaderBuild.Uniform.Registry
import ShaderBuild.Version
import ShaderBuild.Workspace.Basic
import ShaderBuild.Workspace.Named
import ShaderBuild.Proofs.Program.Staging
import ShaderBuild.Proofs.Program.Effects
import ShaderBuild.Proofs.Program.History
import ShaderBuild.Proofs.Files.Routes
import ShaderBuild.Proofs.Include.Containment
import ShaderBuild.Proofs.Directive.Concatenation
import ShaderBuild.Proofs.Include.Composition
import ShaderBuild.Proofs.Include.Substitution
import ShaderBuild.Proofs.Directive.Inert
import ShaderBuild.Proofs.Directive.Reading
import ShaderBuild.Proofs.Directive.VersionLine
import ShaderBuild.Proofs.Include.Settled
import ShaderBuild.Proofs.Include.SharedOutput
import ShaderBuild.Proofs.Include.Emission
import ShaderBuild.Proofs.Device.Apart
import ShaderBuild.Proofs.Device.Calmed
import ShaderBuild.Proofs.Program.Spared
import ShaderBuild.Proofs.Program.Discipline
import ShaderBuild.Proofs.Program.Tables
import ShaderBuild.Proofs.Include.Extension
import ShaderBuild.Proofs.Log.Reporting
import ShaderBuild.Proofs.Program.Parts
import ShaderBuild.Proofs.Program.Reporting
import ShaderBuild.Proofs.Program.IncludePaths
import ShaderBuild.Proofs.Program.Sharing
import ShaderBuild.Proofs.Workspace.Interference
import ShaderBuild.Proofs.Device.Lifetime
import ShaderBuild.Proofs.Program.Ends
import ShaderBuild.Proofs.Workspace.Lifecycle
import ShaderBuild.Proofs.Directive.Comments
import ShaderBuild.Proofs.Directive.Recognition
import ShaderBuild.Proofs.Directive.Rendering
import ShaderBuild.Proofs.Directive.Tracking
import ShaderBuild.Proofs.Include.LineNumbers
import ShaderBuild.Proofs.Directive.Cut
import ShaderBuild.Proofs.Include.Moves
import ShaderBuild.Proofs.Include.Termination
import ShaderBuild.Proofs.Include.Diagnosis
import ShaderBuild.Proofs.Include.Alignment
import ShaderBuild.Proofs.Include.Printing
import ShaderBuild.Proofs.Since
import ShaderBuild.Proofs.Uniform.History
