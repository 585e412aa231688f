import LaneChart.Main
import LaneChart.Proofs.Neighborhood.BreadthFirst
import LaneChart.Proofs.Crossing.Settled
import LaneChart.Proofs.View.Display
import LaneChart.Proofs.View.Copies
import LaneChart.Proofs.View.Finite
import LaneChart.Proofs.View.Session
import LaneChart.Proofs.View.Stability
import LaneChart.Proofs.Layout.Trajectory
import LaneChart.Proofs.View.Refine
import LaneChart.Proofs.View.Labels
import LaneChart.Proofs.View.Walk
import LaneChart.Proofs.Neighborhood.Cap
import LaneChart.Proofs.Neighborhood.Reach
import LaneChart.Proofs.Neighborhood.StandIns
import LaneChart.Proofs.Neighborhood.Mentions
import LaneChart.Proofs.Layout.Account
import LaneChart.Proofs.Layout.Repulsion
import LaneChart.Proofs.Layout.Divergence
import LaneChart.Proofs.Crossing.Resolve
import LaneChart.Proofs.Crossing.Pairs
import LaneChart.Proofs.Crossing.Unplaced
import LaneChart.Proofs.Json.Scan
import LaneChart.Proofs.Json.Written
import LaneChart.Proofs.Json.Typed
import LaneChart.Proofs.Documents.Sector
import LaneChart.Proofs.Cli.Layers
import LaneChart.Proofs.Documents.Settings
import LaneChart.Proofs.Crossing.Rational
import LaneChart.Proofs.Neighborhood.Queue
import LaneChart.Proofs.Layout.Preorder
import LaneChart.Proofs.Documents.Constants
