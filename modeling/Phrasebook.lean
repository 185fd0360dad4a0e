import Phrasebook.Main
import Phrasebook.Proofs.Catalog.Edits
import Phrasebook.Proofs.Catalog.Operations
import Phrasebook.Proofs.Check.BrokenSources
import Phrasebook.Proofs.Check.Verdict
import Phrasebook.Proofs.Config.Search
import Phrasebook.Proofs.Drift.Account
import Phrasebook.Proofs.Drift.Effect
import Phrasebook.Proofs.Drift.Sentinel
import Phrasebook.Proofs.Entry.Rewriting
import Phrasebook.Proofs.Extraction.Grouping
import Phrasebook.Proofs.Project.Sources
import Phrasebook.Proofs.Reconciliation.Interleaving
import Phrasebook.Proofs.Reconciliation.Outcome
import Phrasebook.Proofs.Reconciliation.Pending
import Phrasebook.Proofs.Registry
import Phrasebook.Proofs.Resolution.Blank
import Phrasebook.Proofs.Resolution.Identity
import Phrasebook.Proofs.Resolution.Preserved
import Phrasebook.Proofs.Resolution.Tiers
import Phrasebook.Proofs.Source.Extraction
import Phrasebook.Proofs.Source.Usages
