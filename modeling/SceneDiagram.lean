import SceneDiagram.Main
import SceneDiagram.Token.Lexing
import SceneDiagram.Section.Reader
import SceneDiagram.Scene.Reading
import SceneDiagram.Relation.Mention
import SceneDiagram.Config
import SceneDiagram.Text.Path
import SceneDiagram.Proofs.Entity.Lookup
import SceneDiagram.Proofs.Relation.Adding
import SceneDiagram.Proofs.Relation.Resolution
import SceneDiagram.Proofs.Diagram.Reference
import SceneDiagram.Proofs.Diagram.Traversal
import SceneDiagram.Proofs.Diagram.Coverage
import SceneDiagram.Proofs.Diagram.Composition
import SceneDiagram.Proofs.Entity.Discovery
import SceneDiagram.Proofs.Diagram.Agreement
import SceneDiagram.Proofs.Project.Rearrangement
import SceneDiagram.Proofs.Section.Continuation
import SceneDiagram.Proofs.Section.Completeness
import SceneDiagram.Proofs.Section.Soundness
import SceneDiagram.Proofs.Section.Recognition
import SceneDiagram.Proofs.Section.Concatenation
import SceneDiagram.Proofs.Section.Faithfulness
import SceneDiagram.Proofs.Section.Placement
import SceneDiagram.Proofs.Section.Spacing
import SceneDiagram.Proofs.Scene.Meaning
import SceneDiagram.Proofs.Scene.Elaboration
import SceneDiagram.Proofs.Text.Line
import SceneDiagram.Proofs.Token.Padding
import SceneDiagram.Proofs.Scene.LineEnd
import SceneDiagram.Proofs.Section.Interruption
import SceneDiagram.Proofs.Section.Viability
import SceneDiagram.Proofs.Relation.Consistency
import SceneDiagram.Proofs.Relation.History
import SceneDiagram.Proofs.Text.Denotation
import SceneDiagram.Proofs.Token.Fault
import SceneDiagram.Proofs.Section.Refusal
import SceneDiagram.Proofs.Scene.Label
import SceneDiagram.Proofs.Diagram.Containment
import SceneDiagram.Proofs.Diagram.Member
import SceneDiagram.Proofs.Diagram.Arrow
import SceneDiagram.Proofs.Scene.Instance
import SceneDiagram.Proofs.Project.Instance
import SceneDiagram.Proofs.Entity.Fragment
import SceneDiagram.Proofs.Diagram.Link
import SceneDiagram.Proofs.Entity.Order
import SceneDiagram.Proofs.Token.Delimited
import SceneDiagram.Proofs.Section.Rendering
import SceneDiagram.Proofs.Files.Node
import SceneDiagram.Proofs.Files.Change
import SceneDiagram.Proofs.Run.Outcome
import SceneDiagram.Proofs.Files.Visible
import SceneDiagram.Proofs.Text.Path
import SceneDiagram.Proofs.Run.Again
import SceneDiagram.Proofs.Token.Escape
import SceneDiagram.Proofs.Token.Maximality
import SceneDiagram.Proofs.Scene.Phase
import SceneDiagram.Proofs.Token.Recovery
import SceneDiagram.Proofs.Section.Expectation
import SceneDiagram.Proofs.Diagram.Detail
import SceneDiagram.Proofs.Diagram.Injection
import SceneDiagram.Proofs.Diagram.Listing
import SceneDiagram.Proofs.Diagram.Constructor
import SceneDiagram.Proofs.Diagram.Serialization
import SceneDiagram.Proofs.Project.Output
import SceneDiagram.Proofs.Project.Destination
import SceneDiagram.Proofs.Run.Discovery
import SceneDiagram.Proofs.Text.Location
