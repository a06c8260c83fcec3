import Reckon.Main
import Reckon.Proofs.Expression.Substitution
import Reckon.Proofs.Expression.ViablePrefix
import Reckon.Proofs.Expression.Breakdown
import Reckon.Proofs.Builtin.Counting
import Reckon.Proofs.Expression.Spacing
import Reckon.Proofs.Calculator.Changes
import Reckon.Proofs.Calculator.Reaching
import Reckon.Proofs.Calculator.Printed
import Reckon.Proofs.Calculator.StandIn
import Reckon.Proofs.CommandLine.Lines
import Reckon.Proofs.CommandLine.Definition
import Reckon.Proofs.Session.Isolation
import Reckon.Proofs.Calculator.Integrity
import Reckon.Proofs.Expression.Position
import Reckon.Proofs.Expression.Termination
import Reckon.Proofs.Expression.Guarded
import Reckon.Proofs.Expression.ArgumentLoop
import Reckon.Proofs.Calculator.Rounded
import Reckon.Proofs.Builtin.Saturation
import Reckon.Proofs.Cursor.Motion
