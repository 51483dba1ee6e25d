import SampleShape.Main
import SampleShape.Sketch.Join
import SampleShape.Binary64.Arithmetic
import SampleShape.Text.Incoming
import SampleShape.Yaml.Source
import SampleShape.Proofs.Equivalence
import SampleShape.Proofs.Joining
import SampleShape.Proofs.NormalForm
import SampleShape.Proofs.Samples
import SampleShape.Proofs.Validity
import SampleShape.Proofs.Conformance
import SampleShape.Proofs.Observations
import SampleShape.Proofs.Folding
import SampleShape.Proofs.SampleOrder
import SampleShape.Proofs.Joineries
import SampleShape.Proofs.Construction
import SampleShape.Proofs.Legibility
import SampleShape.Proofs.Access
import SampleShape.Proofs.Absence
import SampleShape.Proofs.Rearrangement
import SampleShape.Proofs.Verbatim
import SampleShape.Proofs.Forgery
import SampleShape.Proofs.JoinLaws
import SampleShape.Proofs.KeyOrder
import SampleShape.Proofs.TreeGrowth
import SampleShape.Proofs.RunEffects
import SampleShape.Proofs.SameShape
import SampleShape.Proofs.Placeholder
import SampleShape.Proofs.Optionality
import SampleShape.Proofs.Writing
import SampleShape.Proofs.Refusals
import SampleShape.Proofs.NormalShapes
import SampleShape.Proofs.LeafOrder
import SampleShape.Proofs.VisibleText
import SampleShape.Proofs.Indentation
import SampleShape.Proofs.Representatives
import SampleShape.Proofs.Settings
import SampleShape.Proofs.TypeName
import SampleShape.Proofs.Sessions
import SampleShape.Proofs.Commands
import SampleShape.Proofs.Nesting
