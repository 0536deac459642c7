import DsdlHeaders.CommandLine.Command
import DsdlHeaders.Document.Writer
import DsdlHeaders.Header.Normal
import DsdlHeaders.Main
import DsdlHeaders.Proofs.Document.RoundTrip
import DsdlHeaders.Proofs.Document.Shape
import DsdlHeaders.Proofs.Generation.Delivery
import DsdlHeaders.Proofs.Header.Codec
import DsdlHeaders.Proofs.Header.Expansion
import DsdlHeaders.Proofs.Header.Layout
import DsdlHeaders.Proofs.Header.Outcome
import DsdlHeaders.Proofs.Header.Tree
import DsdlHeaders.Proofs.Store.Enclosing
import DsdlHeaders.Proofs.Template.Emission
import DsdlHeaders.Proofs.Template.Literal
import DsdlHeaders.Proofs.Template.Markers
import DsdlHeaders.Proofs.Template.Nesting
import DsdlHeaders.Proofs.Template.Plain
import DsdlHeaders.Proofs.Template.Reading
import DsdlHeaders.Proofs.Template.Running
import DsdlHeaders.Proofs.Template.Scope
import DsdlHeaders.Proofs.Template.SecondPass
import DsdlHeaders.Proofs.Template.Walking
import DsdlHeaders.Template.Shipped
import DsdlHeaders.Text.Quoted
import DsdlHeaders.Text.Shortest
import DsdlHeaders.Proofs.Store.Growth
import DsdlHeaders.Proofs.Store.Hierarchy
import DsdlHeaders.Proofs.Generation.Stages
import DsdlHeaders.Proofs.Generation.Policies
import DsdlHeaders.Proofs.Generation.Residue
import DsdlHeaders.Proofs.Generation.Regeneration
import DsdlHeaders.Proofs.Template.Failing
import DsdlHeaders.Proofs.Header.Totality
import DsdlHeaders.Proofs.Header.Independence
import DsdlHeaders.Proofs.Generation.Independence
import DsdlHeaders.Proofs.Header.Guard
import DsdlHeaders.Proofs.Header.Constants
import DsdlHeaders.Proofs.Header.Names
import DsdlHeaders.Proofs.Model.Offences
import DsdlHeaders.Proofs.Generation.Preview
import DsdlHeaders.Proofs.Template.Sessions
import DsdlHeaders.Proofs.Text.Returns
import DsdlHeaders.Proofs.Template.LineEndings
import DsdlHeaders.Proofs.Template.Lockstep
import DsdlHeaders.Proofs.Header.NormalForm
import DsdlHeaders.Proofs.Store.Writing
import DsdlHeaders.Proofs.Header.Bracing
import DsdlHeaders.Proofs.Header.Inline
import DsdlHeaders.Proofs.Header.Balance
import DsdlHeaders.Proofs.Template.Comments
import DsdlHeaders.Proofs.Template.Consecutive
import DsdlHeaders.Proofs.Document.References
import DsdlHeaders.Proofs.Generation.Inclusion
import DsdlHeaders.Proofs.Header.Expressions
import DsdlHeaders.Proofs.Header.Members
import DsdlHeaders.Proofs.Template.Idempotence
import DsdlHeaders.Proofs.Template.Substitutions
import DsdlHeaders.Proofs.Document.Numbers
import DsdlHeaders.Proofs.Document.Ignorable
