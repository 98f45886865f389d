import Metrology.Declaration.Implementation
import Metrology.Worksheet
import Metrology.Proofs.Assignment
import Metrology.Proofs.Decimal.Canonical
import Metrology.Proofs.Declaration.Attribute
import Metrology.Proofs.Declaration.Edit
import Metrology.Proofs.Declaration.Entry
import Metrology.Proofs.Declaration.Implementation
import Metrology.Proofs.Declaration.Last
import Metrology.Proofs.Dimension.Base
import Metrology.Proofs.Engineering.Accuracy
import Metrology.Proofs.Engineering.Mantissa
import Metrology.Proofs.Engineering.Nearest
import Metrology.Proofs.Engineering.Order
import Metrology.Proofs.Engineering.Range
import Metrology.Proofs.Engineering.Reading
import Metrology.Proofs.Engineering.RoundTrip
import Metrology.Proofs.Json.Tagged
import Metrology.Proofs.Log
import Metrology.Proofs.Quantity.Bracketing
import Metrology.Proofs.Quantity.Choice
import Metrology.Proofs.Quantity.Covariance
import Metrology.Proofs.Quantity.PrintedUnit
import Metrology.Proofs.Quantity.Root
import Metrology.Proofs.Quantity.Sign
import Metrology.Proofs.Quantity.Steps
import Metrology.Proofs.Unit.Lookup
import Metrology.Proofs.Worksheet
