import Metamodel.Compilation
import Metamodel.Config.File
import Metamodel.Data.Event
import Metamodel.Data.Graph
import Metamodel.Graph.View
import Metamodel.Proofs.Blueprint.Checks
import Metamodel.Proofs.Blueprint.Specials
import Metamodel.Proofs.Graph.Fresh
import Metamodel.Proofs.Lineage
import Metamodel.Proofs.Lineage.Roles
import Metamodel.Proofs.Lineage.Numbers
import Metamodel.Proofs.Lineage.Agreement
import Metamodel.Proofs.Graph.Placement
import Metamodel.Proofs.Graph.Growth
import Metamodel.Proofs.Graph.Ancestry
import Metamodel.Proofs.Registration
import Metamodel.Proofs.Resolution.Agreement
import Metamodel.Proofs.Resolution.Rounds
import Metamodel.Proofs.Resolution.Development
import Metamodel.Proofs.Settlement
import Metamodel.Proofs.Graph.Twins
import Metamodel.Proofs.Declaration.Set
import Metamodel.Proofs.Declaration.Index
import Metamodel.Proofs.Reordering
import Metamodel.Proofs.Declaration.Legal
import Metamodel.Proofs.Legality
import Metamodel.Proofs.Calls
import Metamodel.Proofs.WellFormed
import Metamodel.Proofs.Roles
import Metamodel.Proofs.Views
import Metamodel.Proofs.Schedules
import Metamodel.Proofs.Alteration
import Metamodel.Proofs.Records
import Metamodel.Proofs.Permanence
import Metamodel.Proofs.Independence
import Metamodel.Proofs.Numbering
import Metamodel.Proofs.Timing
import Metamodel.Proofs.Linking
import Metamodel.Proofs.OnDemand
import Metamodel.Proofs.Standing
import Metamodel.Proofs.Dependencies
import Metamodel.Proofs.Kinds
import Metamodel.Proofs.Recording
import Metamodel.Proofs.Trace
import Metamodel.Proofs.Departure
import Metamodel.Proofs.Inheritance
import Metamodel.Proofs.Stalling
import Metamodel.Proofs.Graph.Renaming
import Metamodel.Proofs.Naming
import Metamodel.Proofs.Registration.Agreement
import Metamodel.Proofs.Configuration
import Metamodel.Proofs.Resolution.Growth
import Metamodel.Proofs.Extension
import Metamodel.Proofs.Blueprint.Blame
import Metamodel.Proofs.Ascent
import Metamodel.Proofs.Graph.Whole
import Metamodel.Proofs.Failure
import Metamodel.Proofs.Cycles
import Metamodel.Proofs.Closure
import Metamodel.Proofs.Accounting
import Metamodel.Proofs.Paths
import Metamodel.Proofs.Members
import Metamodel.Proofs.Overrides
import Metamodel.Proofs.Blame
import Metamodel.Proofs.Suffixes
import Metamodel.Proofs.ClassNames
import Metamodel.Proofs.Rendering
import Metamodel.Proofs.Toml.Keys
import Metamodel.Proofs.Loading
import Metamodel.Proofs.Formulas
