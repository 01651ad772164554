import SceneTracer.Dialogue.Questions
import SceneTracer.Expr.Flatten
import SceneTracer.Expr.Scope
import SceneTracer.Journal
import SceneTracer.Main
import SceneTracer.Operator.Signature
import SceneTracer.Proofs.Expr.Parsing
import SceneTracer.Proofs.Scalar.Order
import SceneTracer.Proofs.Scene.Merge
import SceneTracer.Raster.Reading
import SceneTracer.Scene.Membership
import SceneTracer.Shape.Solid
import SceneTracer.Token.Written
import SceneTracer.Proofs.Scene.Crossings
import SceneTracer.Proofs.Evaluation.Frame
import SceneTracer.Proofs.Expr.Places
import SceneTracer.Proofs.Operator.Closures
import SceneTracer.Proofs.Dialogue.Faults
import SceneTracer.Proofs.Renderer.Questions
import SceneTracer.Proofs.Evaluation.Reach
import SceneTracer.Proofs.Evaluation.Scoping
import SceneTracer.Proofs.Scalar.Exact
import SceneTracer.Proofs.Transform.Matrices
import SceneTracer.Proofs.Evaluation.Simulation
import SceneTracer.Proofs.Transform.InversePair
import SceneTracer.Proofs.Evaluation.Shading
import SceneTracer.Proofs.Raster.Painting
import SceneTracer.Proofs.Renderer.Pixels
import SceneTracer.Proofs.Renderer.Stored
import SceneTracer.Proofs.Token.Lexemes
import SceneTracer.Proofs.Token.LongestMatch
import SceneTracer.Proofs.Token.Lines
import SceneTracer.Proofs.Program.Concatenation
import SceneTracer.Proofs.Scene.Moving
import SceneTracer.Proofs.Vec3.Algebra
import SceneTracer.Proofs.Tracer.Superposition
import SceneTracer.Proofs.Transform.Normals
import SceneTracer.Proofs.Shape.Boundary
import SceneTracer.Proofs.Scene.Normals
import SceneTracer.Token.Printed
import SceneTracer.Proofs.Evaluation.Rendering
import SceneTracer.Proofs.Token.Printing
import SceneTracer.Proofs.Scene.Difference
import SceneTracer.Proofs.Shape.Interior
import SceneTracer.Proofs.Token.Shifting
import SceneTracer.Proofs.Operator.Contract
import SceneTracer.Proofs.Tracer.Facing
import SceneTracer.Proofs.Scene.Exchange
import SceneTracer.Proofs.Scene.Selection
import SceneTracer.Proofs.Scene.Surfaces
import SceneTracer.Proofs.Shape.Support
import SceneTracer.Proofs.Tracer.Nearest
import SceneTracer.Proofs.Tracer.Shadows
import SceneTracer.Proofs.Operator.Integers
import SceneTracer.Proofs.RenderJob.Sizes
import SceneTracer.Proofs.Scalar.Rounding
import SceneTracer.Proofs.Raster.Encoding
import SceneTracer.Proofs.Files.Writing
import SceneTracer.Proofs.Renderer.Tracing
import SceneTracer.Proofs.Scene.Missed
import SceneTracer.Proofs.Scene.Touching
import SceneTracer.Proofs.Light.Intensity
import SceneTracer.Proofs.Operator.Placing
import SceneTracer.Proofs.Evaluation.Bindings
import SceneTracer.Proofs.Evaluation.Running
import SceneTracer.Proofs.Expr.Rejection
import SceneTracer.Proofs.Program.Words
import SceneTracer.Proofs.Program.Names
import SceneTracer.Proofs.Program.Factorial
import SceneTracer.Proofs.Dialogue.Records
import SceneTracer.Proofs.Tracer.Following
import SceneTracer.Proofs.Tracer.Reflections
import SceneTracer.Utf8
import SceneTracer.Token.Bytes
import SceneTracer.Proofs.Token.Encoding
import SceneTracer.Proofs.Token.Places
import SceneTracer.Proofs.Token.Readers
import SceneTracer.Proofs.Token.Pieces
import SceneTracer.Proofs.Token.Cuts
import SceneTracer.Proofs.Token.Slices
