import RouteGeometry.Number.Decimal
import RouteGeometry.Number.Expansion
import RouteGeometry.Point
import RouteGeometry.Coordinate
import RouteGeometry.Coordinate.Exact
import RouteGeometry.Coordinate.Determinant
import RouteGeometry.Coordinate.Binary
import RouteGeometry.Coordinate.Kind
import RouteGeometry.Point.Arithmetic
import RouteGeometry.Point.Comparison
import RouteGeometry.Line
import RouteGeometry.Line.Meeting
import RouteGeometry.Polyline
import RouteGeometry.Polyline.Position
import RouteGeometry.Bend
import RouteGeometry.Chain
import RouteGeometry.Chain.Thinning
import RouteGeometry.Polyline.Normalization
import RouteGeometry.Thinning
import RouteGeometry.Sample
import RouteGeometry.Proofs.Number.Comparison
import RouteGeometry.Proofs.Number.Rounding
import RouteGeometry.Proofs.Number.Packing
import RouteGeometry.Proofs.Number.Arithmetic
import RouteGeometry.Proofs.Number.Interval
import RouteGeometry.Proofs.Number.Moderate
import RouteGeometry.Proofs.Number.Signless
import RouteGeometry.Proofs.Number.Closest
import RouteGeometry.Proofs.Number.Quotient
import RouteGeometry.Proofs.Number.Bounded
import RouteGeometry.Proofs.Coordinate.FixedInt
import RouteGeometry.Proofs.Coordinate.Faithful
import RouteGeometry.Proofs.Coordinate.CrossSign
import RouteGeometry.Proofs.Coordinate.FirstStage
import RouteGeometry.Proofs.Coordinate.Turn
import RouteGeometry.Proofs.Coordinate.Conversion
import RouteGeometry.Proofs.Locus
import RouteGeometry.Proofs.Orientation
import RouteGeometry.Proofs.Segment.Inside
import RouteGeometry.Proofs.Line.Meeting
import RouteGeometry.Proofs.Line.Crossing
import RouteGeometry.Proofs.Line.Itself
import RouteGeometry.Proofs.Line.AxisCrossing
import RouteGeometry.Proofs.Containment
import RouteGeometry.Proofs.Bend
import RouteGeometry.Proofs.Bend.Range
import RouteGeometry.Proofs.Chain.Linked
import RouteGeometry.Proofs.Chain.Refinement
import RouteGeometry.Proofs.Thinning
import RouteGeometry.Proofs.Thinning.Fixpoint
import RouteGeometry.Proofs.Thinning.Account
import RouteGeometry.Proofs.Thinning.Repeats
import RouteGeometry.Proofs.Thinning.Sweeps
import RouteGeometry.Proofs.Chain.Termination
import RouteGeometry.Proofs.Chain.Counted
import RouteGeometry.Proofs.Polyline.Refinement
import RouteGeometry.Proofs.Chain.WellLinked
import RouteGeometry.Proofs.Chain.History
import RouteGeometry.Proofs.Chain.Loose
import RouteGeometry.Proofs.Chain.Stages
import RouteGeometry.Proofs.Polyline.WellLinked
import RouteGeometry.Proofs.Polyline.Places
import RouteGeometry.Proofs.Polyline.Account
import RouteGeometry.Proofs.Polyline.Anchors
import RouteGeometry.Proofs.Polyline.Fixpoint
import RouteGeometry.Proofs.Polyline.Unify
import RouteGeometry.Proofs.Polyline.Agreement
import RouteGeometry.Proofs.Polyline.Shortcut
import RouteGeometry.Proofs.Polyline.Straightened
import RouteGeometry.Proofs.Polyline.Route
import RouteGeometry.Proofs.Polyline.FirstSweep
import RouteGeometry.Proofs.Polyline.Collapse
import RouteGeometry.Proofs.Polyline.Length
import RouteGeometry.Proofs.Polyline.Position
import RouteGeometry.Proofs.Overflow
