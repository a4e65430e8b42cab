import PolicyDiagram.Main
import PolicyDiagram.Proofs.Config.Printing
import PolicyDiagram.Proofs.Policy.Entries
import PolicyDiagram.Proofs.Policy.Spelling
import PolicyDiagram.Proofs.Diagram.Fence
import PolicyDiagram.Proofs.Diagram.Growth
import PolicyDiagram.Proofs.Diagram.Writing
import PolicyDiagram.Proofs.Run.Traceless
import PolicyDiagram.Proofs.Run.EntryPoints
import PolicyDiagram.Proofs.Run.Repeating
import PolicyDiagram.Proofs.Run.Reordering
import PolicyDiagram.Proofs.Run.Loading
import PolicyDiagram.Proofs.Run.Statistics
