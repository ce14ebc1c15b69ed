import Conform.DataType
import Conform.Explanation
import Conform.Pattern.Object
import Conform.Pattern.Phrase
import Conform.Pattern.Template
import Conform.Proofs.Declaration
import Conform.Proofs.Location
import Conform.Proofs.Selection
import Conform.Script
import Conform.Session
import Conform.Shared.Registers
import Conform.Proofs.Fields
import Conform.Proofs.Induction
import Conform.Proofs.WholeNumber
import Conform.Proofs.Exchange
import Conform.Proofs.DataType
import Conform.Proofs.Equality
import Conform.Proofs.Template
import Conform.Proofs.Persistence
import Conform.Proofs.Workshop
import Conform.Proofs.Trace
import Conform.Proofs.Narrowing
import Conform.Proofs.Calls
import Conform.Proofs.Making
import Conform.Proofs.Sources
import Conform.Proofs.Identity
import Conform.Proofs.Precedence
import Conform.Proofs.Positions
import Conform.Proofs.Repair
import Conform.Proofs.NameOrder
import Conform.Proofs.Satisfiable
import Conform.Proofs.Places
import Conform.Proofs.Offence
import Conform.Proofs.LiteralShape
import Conform.Proofs.Rendering
import Conform.Proofs.Redeclaration
import Conform.Proofs.Rearrangement
import Conform.Proofs.Extension
import Conform.Proofs.Reordering
import Conform.Proofs.Unsigned
import Conform.Proofs.PartialEquivalence
import Conform.Proofs.Congruence
import Conform.Proofs.Complement
import Conform.Proofs.TypedClause
import Conform.Proofs.NumberList
import Conform.Proofs.Delimited
import Conform.Proofs.Naming
import Conform.Proofs.PathText
import Conform.Proofs.Nearest
import Conform.Proofs.Rounding
import Conform.Proofs.Integers
import Conform.Proofs.NumberText
import Conform.Proofs.Quotation
import Conform.Proofs.Layout
import Conform.Proofs.Unambiguous
import Conform.Proofs.Trail
import Conform.Proofs.PositionName
import Conform.Proofs.Phrase
