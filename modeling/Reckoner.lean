import Reckoner.Main
import Reckoner.Proofs.Arithmetic.Counts
import Reckoner.Proofs.Arithmetic.Postfix
import Reckoner.Proofs.Arithmetic.Spelling
import Reckoner.Proofs.Arithmetic.Yard
import Reckoner.Proofs.Cache.Inclusion
import Reckoner.Proofs.Cache.Integrity
import Reckoner.Proofs.Cache.Lru
import Reckoner.Proofs.Cache.Residency
import Reckoner.Proofs.Dates.Anniversary
import Reckoner.Proofs.Dates.Difference
import Reckoner.Proofs.Dates.Feedback
import Reckoner.Proofs.Dates.Reader
import Reckoner.Proofs.Dates.Shift
import Reckoner.Proofs.Dates.Sum
import Reckoner.Proofs.Dates.Weekday
import Reckoner.Proofs.Dates.Workdays
import Reckoner.Proofs.Decimal.Display
import Reckoner.Proofs.Engine.Clock
import Reckoner.Proofs.Engine.Fallback
import Reckoner.Proofs.Engine.Routes
import Reckoner.Proofs.Engine.Transparency
import Reckoner.Proofs.Expression.Conversion
import Reckoner.Proofs.Expression.Lossless
import Reckoner.Proofs.Expression.Pointing
import Reckoner.Proofs.Expression.Spacing
import Reckoner.Proofs.Expression.Validate
import Reckoner.Proofs.Expression.Validated
import Reckoner.Proofs.Logic.Bitwise
import Reckoner.Proofs.Logic.Boolean
import Reckoner.Proofs.Logic.Comparison
import Reckoner.Proofs.Logic.Duality
import Reckoner.Proofs.Logic.Literals
import Reckoner.Proofs.Logic.Substitution
import Reckoner.Proofs.Logic.WellFormed
import Reckoner.Proofs.Setup
import Reckoner.Proofs.Units.Outcome
import Reckoner.Proofs.Units.Usable
