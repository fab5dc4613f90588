import BundlePlan.Main
import BundlePlan.Proofs.Arcs
import BundlePlan.Proofs.Reach
import BundlePlan.Proofs.Worklist
import BundlePlan.Proofs.Closure
import BundlePlan.Proofs.Rounds
import BundlePlan.Proofs.Heap
import BundlePlan.Proofs.ShortestWalk
import BundlePlan.Proofs.Chain
import BundlePlan.Proofs.Acceptance
import BundlePlan.Proofs.Bundling
import BundlePlan.Proofs.Layers
import BundlePlan.Proofs.Checks
import BundlePlan.Proofs.Locality
import BundlePlan.Proofs.Reading
import BundlePlan.Proofs.LiveRows
import BundlePlan.Proofs.Dependencies
import BundlePlan.Proofs.Distances
import BundlePlan.Proofs.Composition
import BundlePlan.Proofs.Transcript
import BundlePlan.Proofs.Enumeration
import BundlePlan.Proofs.Monotonicity
import BundlePlan.Proofs.Likeness
import BundlePlan.Proofs.Reproducibility
import BundlePlan.Proofs.Commands
import BundlePlan.Proofs.Places
import BundlePlan.Proofs.Storage
import BundlePlan.Proofs.Deliveries
import BundlePlan.Proofs.JsonGrammar
import BundlePlan.Proofs.JsonText
import BundlePlan.Proofs.TomlText
import BundlePlan.Proofs.Edges
import BundlePlan.Proofs.Walks
import BundlePlan.Proofs.Lookups
import BundlePlan.Proofs.Isolation
import BundlePlan.Proofs.InlineManifests
import BundlePlan.Proofs.Pieces
import BundlePlan.Proofs.Segments
import BundlePlan.Proofs.TableOrder
import BundlePlan.Proofs.EnabledPlugins
import BundlePlan.Proofs.Rendering
import BundlePlan.Proofs.AbsolutePaths
import BundlePlan.Proofs.Insertions
import BundlePlan.Proofs.Integrity
import BundlePlan.Proofs.Beginnings
import BundlePlan.Proofs.Writing
