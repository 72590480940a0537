import LabelledMap.Decimal.Double
import LabelledMap.Layer
import LabelledMap.Proofs.Overlay.Alignment
import LabelledMap.Proofs.Pass.Failures
import LabelledMap.Proofs.Pass.FirstFit
import LabelledMap.Proofs.Renderer.Hover
import LabelledMap.Proofs.View.Accounting
import LabelledMap.Proofs.View.Labels
import LabelledMap.Proofs.View.Paging
import LabelledMap.Proofs.View.Panel
import LabelledMap.Scalar.Double
import LabelledMap.View
import LabelledMap.Proofs.Renderer.OptionChanges
import LabelledMap.Proofs.Renderer.PassInputs
import LabelledMap.Proofs.Layer.Runs
import LabelledMap.Proofs.Layer.Hover
import LabelledMap.Proofs.Overlay.WholePixels
import LabelledMap.Proofs.Layer.TextsInPlace
import LabelledMap.Proofs.View.Detail
import LabelledMap.Proofs.Pass.Pens
import LabelledMap.Proofs.View.Documents
import LabelledMap.Proofs.View.Overrides
import LabelledMap.Proofs.Pass.Suppressed
import LabelledMap.Proofs.Layer.Preparation
import LabelledMap.Proofs.Feature.Halfway
import LabelledMap.Proofs.Feature.ConvexRings
import LabelledMap.Proofs.Feature.Edges
import LabelledMap.Proofs.Renderer.Sampling
import LabelledMap.Proofs.Renderer.Topmost
import LabelledMap.Proofs.View.FilterHistory
import LabelledMap.Proofs.View.Visible
import LabelledMap.Proofs.View.Colours
import LabelledMap.Proofs.Pass.Overlap
import LabelledMap.Proofs.Globe.Mercator
import LabelledMap.Proofs.Overlay.Covering
