import Dialogue.Indent
import Dialogue.Main
import Dialogue.Session
import Dialogue.Number.Shortest
import Dialogue.Proofs.Machine.Prompt
import Dialogue.Proofs.Check.Soundness
import Dialogue.Proofs.Image.RoundTrip
import Dialogue.Proofs.Source.RoundTrip
import Dialogue.Proofs.Machine.Events
import Dialogue.Proofs.Machine.Options
import Dialogue.Proofs.Machine.Handles
import Dialogue.Proofs.Machine.Relabel
import Dialogue.Proofs.Machine.Conversation
import Dialogue.Proofs.Image.Behaviour
import Dialogue.Proofs.Machine.Reset
import Dialogue.Proofs.Machine.Sharing
import Dialogue.Proofs.Check.Effects
import Dialogue.Proofs.Check.Recovery
import Dialogue.Proofs.Check.Paths
import Dialogue.Proofs.Machine.Failure
import Dialogue.Proofs.Machine.StepLimit
import Dialogue.Proofs.Machine.Limits
import Dialogue.Proofs.Image.Truncation
import Dialogue.Proofs.Image.Operands
import Dialogue.Proofs.Image.Defects
import Dialogue.Proofs.Image.ByteOrder
import Dialogue.Proofs.Image.Canonical
import Dialogue.Proofs.Source.Statement
import Dialogue.Proofs.Source.Columns
import Dialogue.Proofs.Source.Diagnostics
import Dialogue.Proofs.Check.Knowledge
import Dialogue.Proofs.NodeOrder
import Dialogue.Proofs.Source.Grammar
import Dialogue.Proofs.Source.Layout
import Dialogue.Proofs.Console.Answers
