import Descriptor.Main
import Descriptor.Value.Json
import Descriptor.Proofs.Equality
import Descriptor.Proofs.Frames
import Descriptor.Proofs.Grammar.Writing.Program
import Descriptor.Proofs.Grammar.View.Statement
import Descriptor.Proofs.Exchange.Text
import Descriptor.Proofs.History
import Descriptor.Proofs.Normalization.Idempotence
import Descriptor.Proofs.Readonly
import Descriptor.Proofs.Scoping
import Descriptor.Proofs.Scanning.Coverage
import Descriptor.Proofs.Normalization.English
import Descriptor.Proofs.Normalization.Marks
import Descriptor.Proofs.Rendering.Readable
import Descriptor.Proofs.Exchange.Scan
import Descriptor.Proofs.Agreement
import Descriptor.Proofs.Walk
import Descriptor.Proofs.Documents
import Descriptor.Proofs.Exchange.Tree
import Descriptor.Proofs.Exchange
import Descriptor.Proofs.Grammar.Writing.Continued
import Descriptor.Proofs.Grammar.Recovery
import Descriptor.Proofs.Grammar.Height
import Descriptor.Proofs.Cursor.Following
import Descriptor.Proofs.Cursor.Expression
import Descriptor.Proofs.Cursor.Record
import Descriptor.Proofs.Cursor.Statement
import Descriptor.Proofs.Cursor.Program
import Descriptor.Proofs.Diagnostics
import Descriptor.Proofs.Ownership
import Descriptor.Proofs.PropertyWrite
import Descriptor.Proofs.Cursor.Ending
import Descriptor.Proofs.Grammar.Limit.Unlimited
import Descriptor.Proofs.Scanning.Respaced
import Descriptor.Proofs.Growth
import Descriptor.Proofs.GrowthLimit
import Descriptor.Proofs.Reports
import Descriptor.Proofs.Scanning.Neighbours
import Descriptor.Proofs.Observers
import Descriptor.Proofs.Number.Nearest
import Descriptor.Proofs.Number.Grammar
import Descriptor.Proofs.Number.RoundTrip
import Descriptor.Proofs.Parentheses
import Descriptor.Proofs.Equality.Operators
import Descriptor.Proofs.Prompt
import Descriptor.Proofs.Printing
import Descriptor.Proofs.Places
import Descriptor.Proofs.Insertion
