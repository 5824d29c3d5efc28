import Storyboard.Font.Format
import Storyboard.Host.Disk
import Storyboard.Main
import Storyboard.Proofs.Anchors
import Storyboard.Proofs.Arrange
import Storyboard.Proofs.Assets
import Storyboard.Proofs.Binary64
import Storyboard.Proofs.Binary64.Nearest
import Storyboard.Proofs.Binary64.Order
import Storyboard.Proofs.Binary64.Rank
import Storyboard.Proofs.Binary64.Reach
import Storyboard.Proofs.Binary64.Spans
import Storyboard.Proofs.Binary64.Sum
import Storyboard.Proofs.Box
import Storyboard.Proofs.Bytes
import Storyboard.Proofs.Checks
import Storyboard.Proofs.Collapse
import Storyboard.Proofs.Command
import Storyboard.Proofs.Compiler
import Storyboard.Proofs.Composition
import Storyboard.Proofs.ConfigText
import Storyboard.Proofs.Consistency
import Storyboard.Proofs.Correspondence
import Storyboard.Proofs.Cue
import Storyboard.Proofs.Deeds
import Storyboard.Proofs.Degenerate
import Storyboard.Proofs.Duration
import Storyboard.Proofs.Enlarging
import Storyboard.Proofs.Filling
import Storyboard.Proofs.FirstFault
import Storyboard.Proofs.Fitting
import Storyboard.Proofs.FontTable
import Storyboard.Proofs.Group
import Storyboard.Proofs.Host
import Storyboard.Proofs.Host.Disk
import Storyboard.Proofs.IdleItems
import Storyboard.Proofs.Ids
import Storyboard.Proofs.Inspection
import Storyboard.Proofs.Json.Change
import Storyboard.Proofs.Json.Codec
import Storyboard.Proofs.Json.Given
import Storyboard.Proofs.Json.Local
import Storyboard.Proofs.Json.Number
import Storyboard.Proofs.Json.Place
import Storyboard.Proofs.Json.Quoted
import Storyboard.Proofs.Json.Reordered
import Storyboard.Proofs.Json.Replace
import Storyboard.Proofs.Json.Slot
import Storyboard.Proofs.Json.Sound
import Storyboard.Proofs.Json.Written
import Storyboard.Proofs.Json.Yields
import Storyboard.Proofs.Labels
import Storyboard.Proofs.LargestSizes
import Storyboard.Proofs.LayoutForms
import Storyboard.Proofs.LikeItems
import Storyboard.Proofs.Lookups
import Storyboard.Proofs.Numbering
import Storyboard.Proofs.Overflow
import Storyboard.Proofs.Overlaps
import Storyboard.Proofs.Paths
import Storyboard.Proofs.Pixels
import Storyboard.Proofs.Placement
import Storyboard.Proofs.ProjectFinite
import Storyboard.Proofs.ProjectText
import Storyboard.Proofs.Proportions
import Storyboard.Proofs.Rational
import Storyboard.Proofs.References
import Storyboard.Proofs.Regions
import Storyboard.Proofs.Rewording
import Storyboard.Proofs.Shapes
import Storyboard.Proofs.Sizing
import Storyboard.Proofs.Spacing
import Storyboard.Proofs.SpecFinite
import Storyboard.Proofs.Table
import Storyboard.Proofs.Timeline
import Storyboard.Proofs.Traversal
import Storyboard.Proofs.Turning
import Storyboard.Proofs.Verdict
import Storyboard.Proofs.Views
