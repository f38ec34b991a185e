import PathTracer.Binary32
import PathTracer.Bsdf.Evaluation
import PathTracer.Bsdf.Lobe
import PathTracer.Bsdf.Parameters
import PathTracer.Bsdf.Sampling
import PathTracer.Bsdf.Warp
import PathTracer.Decimal.Literal
import PathTracer.Decimal.Rounding
import PathTracer.Decimal.Scaling
import PathTracer.Decimal.Shortest
import PathTracer.Decimal.Style
import PathTracer.Digest
import PathTracer.Error
import PathTracer.Expression.Basic
import PathTracer.Expression.Evaluation
import PathTracer.Expression.Lowering
import PathTracer.Expression.Parser
import PathTracer.Expression.Token
import PathTracer.Expression.Typing
import PathTracer.Expression.Value
import PathTracer.Geometry.Hit
import PathTracer.Geometry.Intersection
import PathTracer.Geometry.Placement
import PathTracer.Json.Basic
import PathTracer.Material.Inputs
import PathTracer.Material.Program
import PathTracer.Parsed
import PathTracer.Pipeline.Basic
import PathTracer.Pipeline.Command
import PathTracer.Pipeline.Renderer
import PathTracer.Pipeline.Tick
import PathTracer.Proofs.Binary32.Arithmetic
import PathTracer.Proofs.Binary32.Difference
import PathTracer.Proofs.Binary32.Error
import PathTracer.Proofs.Binary32.Exact
import PathTracer.Proofs.Binary32.Finite
import PathTracer.Proofs.Binary32.Floor
import PathTracer.Proofs.Binary32.Held
import PathTracer.Proofs.Binary32.Index
import PathTracer.Proofs.Binary32.Magnitude
import PathTracer.Proofs.Binary32.Quotient
import PathTracer.Proofs.Binary32.Results
import PathTracer.Proofs.Binary32.Rounding
import PathTracer.Proofs.Binary32.Value
import PathTracer.Proofs.Bsdf.Blending
import PathTracer.Proofs.Bsdf.Mixture
import PathTracer.Proofs.Bsdf.Opaque
import PathTracer.Proofs.Bsdf.Weights
import PathTracer.Proofs.Containers
import PathTracer.Proofs.Decimal.Brackets
import PathTracer.Proofs.Decimal.Middles
import PathTracer.Proofs.Decimal.Misses
import PathTracer.Proofs.Decimal.Nearness
import PathTracer.Proofs.Decimal.Ordinal
import PathTracer.Proofs.Decimal.Recovery
import PathTracer.Proofs.Decimal.Rounding
import PathTracer.Proofs.Decimal.Scaling
import PathTracer.Proofs.Decimal.Shortest
import PathTracer.Proofs.Decimal.Spelling
import PathTracer.Proofs.Decimal.Whole
import PathTracer.Proofs.Expression.Agreement
import PathTracer.Proofs.Expression.Bounds
import PathTracer.Proofs.Expression.Grammar
import PathTracer.Proofs.Expression.Identifiers
import PathTracer.Proofs.Expression.Lexing
import PathTracer.Proofs.Expression.Lowering
import PathTracer.Proofs.Expression.Padding
import PathTracer.Proofs.Expression.Parsing
import PathTracer.Proofs.Expression.References
import PathTracer.Proofs.Expression.Typing
import PathTracer.Proofs.Expression.Validity
import PathTracer.Proofs.Geometry.Candidates
import PathTracer.Proofs.Geometry.Directions
import PathTracer.Proofs.Geometry.Nearest
import PathTracer.Proofs.Geometry.Placements
import PathTracer.Proofs.Geometry.Slabs
import PathTracer.Proofs.Json.Documents
import PathTracer.Proofs.Json.Numbers
import PathTracer.Proofs.Material.Bodies
import PathTracer.Proofs.Material.Checking
import PathTracer.Proofs.Material.Execution
import PathTracer.Proofs.Material.Locals
import PathTracer.Proofs.Material.Naming
import PathTracer.Proofs.Pipeline.Atomicity
import PathTracer.Proofs.Pipeline.Budget
import PathTracer.Proofs.Pipeline.Chronicle
import PathTracer.Proofs.Pipeline.Convergence
import PathTracer.Proofs.Pipeline.Exposure
import PathTracer.Proofs.Pipeline.Independence
import PathTracer.Proofs.Pipeline.Queue
import PathTracer.Proofs.Pipeline.Range
import PathTracer.Proofs.Pipeline.Record
import PathTracer.Proofs.Pipeline.Reel
import PathTracer.Proofs.Pipeline.Requests
import PathTracer.Proofs.Pipeline.Reuse
import PathTracer.Proofs.Pipeline.Session
import PathTracer.Proofs.Pipeline.Step
import PathTracer.Proofs.Pipeline.Subject
import PathTracer.Proofs.Pipeline.Takes
import PathTracer.Proofs.Random.Streams
import PathTracer.Proofs.Render.Accumulation
import PathTracer.Proofs.Render.Averages
import PathTracer.Proofs.Render.Bounds
import PathTracer.Proofs.Render.Cameras
import PathTracer.Proofs.Render.Channels
import PathTracer.Proofs.Render.Codes
import PathTracer.Proofs.Render.Emitters
import PathTracer.Proofs.Render.Endings
import PathTracer.Proofs.Render.Lights
import PathTracer.Proofs.Render.Likeness
import PathTracer.Proofs.Render.Rays
import PathTracer.Proofs.Render.Salts
import PathTracer.Proofs.Render.Surfaces
import PathTracer.Proofs.Render.Thumbnail
import PathTracer.Proofs.Scene.Acceptance
import PathTracer.Proofs.Scene.Ahead
import PathTracer.Proofs.Scene.Balance
import PathTracer.Proofs.Scene.Building
import PathTracer.Proofs.Scene.Emission
import PathTracer.Proofs.Scene.Extension
import PathTracer.Proofs.Scene.Faults
import PathTracer.Proofs.Scene.Freezing
import PathTracer.Proofs.Scene.Indexing
import PathTracer.Proofs.Scene.Keeping
import PathTracer.Proofs.Scene.Keyframes
import PathTracer.Proofs.Scene.Layout
import PathTracer.Proofs.Scene.Likeness
import PathTracer.Proofs.Scene.Lookup
import PathTracer.Proofs.Scene.Meeting
import PathTracer.Proofs.Scene.Nesting
import PathTracer.Proofs.Scene.Numbering
import PathTracer.Proofs.Scene.Numbers
import PathTracer.Proofs.Scene.Provenance
import PathTracer.Proofs.Scene.Refresh
import PathTracer.Proofs.Scene.Renaming
import PathTracer.Proofs.Scene.Standstill
import PathTracer.Proofs.Scene.Structure
import PathTracer.Proofs.Scene.Tracing
import PathTracer.Proofs.Scene.Verdict
import PathTracer.Proofs.Settings.Printing
import PathTracer.Proofs.Settings.Saving
import PathTracer.Proofs.Shader.Blocks
import PathTracer.Proofs.Shader.Chains
import PathTracer.Proofs.Shader.Commenting
import PathTracer.Proofs.Shader.Dispatch
import PathTracer.Proofs.Shader.Execution
import PathTracer.Proofs.Shader.Generation
import PathTracer.Proofs.Shader.Lines
import PathTracer.Proofs.Shader.Outline
import PathTracer.Proofs.Shader.Precedence
import PathTracer.Proofs.Shader.Reading
import PathTracer.Proofs.Shader.Terms
import PathTracer.Proofs.Shader.Typing
import PathTracer.Proofs.Shader.Words
import PathTracer.Proofs.Shader.Writing
import PathTracer.Random.ChaCha
import PathTracer.Random.Pcg
import PathTracer.Render.Card
import PathTracer.Render.Film
import PathTracer.Render.Frame
import PathTracer.Render.Pass.Direct
import PathTracer.Render.Pass.Resolve
import PathTracer.Render.Pass.Scatter
import PathTracer.Render.Pass.Sight
import PathTracer.Render.Sample
import PathTracer.Render.Target
import PathTracer.Render.Tracer
import PathTracer.Scalar
import PathTracer.Scene.Builder
import PathTracer.Scene.Compile
import PathTracer.Scene.Context
import PathTracer.Scene.Help
import PathTracer.Scene.Node
import PathTracer.Scene.Options
import PathTracer.Scene.Shapes
import PathTracer.Scene.Traversal
import PathTracer.Settings.Basic
import PathTracer.Settings.Printer
import PathTracer.Settings.Reader
import PathTracer.Shader.Basic
import PathTracer.Shader.Program
import PathTracer.Shader.Template.Bindings
import PathTracer.Shader.Template.Geometry
import PathTracer.Shader.Template.Passes
import PathTracer.Shader.Template.Random
import PathTracer.Shader.Template.Scattering
import PathTracer.Shader.Text
import PathTracer.Text.Blank
import PathTracer.Text.Case
import PathTracer.Text.Letter
import PathTracer.Text.Ranges
import PathTracer.Vector
