import MigrationSetup.Builder
import MigrationSetup.Files.Search
import MigrationSetup.Load
import MigrationSetup.Prepare
import MigrationSetup.Proofs.Canonical
import MigrationSetup.Proofs.Probing
import MigrationSetup.Refusal
import MigrationSetup.Proofs.Binding
import MigrationSetup.Proofs.Reporting
import MigrationSetup.Proofs.Building
import MigrationSetup.Proofs.Precedence
import MigrationSetup.Proofs.Sheets
import MigrationSetup.Proofs.Views
import MigrationSetup.Proofs.Prepare
import MigrationSetup.Proofs.Layering
import MigrationSetup.Proofs.Loading
import MigrationSetup.Proofs.Placement
import MigrationSetup.Proofs.Overlay
import MigrationSetup.Proofs.Parts
import MigrationSetup.Proofs.Reading
import MigrationSetup.Proofs.Together
import MigrationSetup.Proofs.Twin
import MigrationSetup.Proofs.Merging
import MigrationSetup.Proofs.Unfolding
import MigrationSetup.Proofs.Embedding
import MigrationSetup.Proofs.Copying
import MigrationSetup.Proofs.Glance
import MigrationSetup.Proofs.Branching
import MigrationSetup.Proofs.Joining
import MigrationSetup.Proofs.Landing
import MigrationSetup.Proofs.Uniting
import MigrationSetup.Proofs.Respelling
import MigrationSetup.Proofs.Clashes
import MigrationSetup.Proofs.Spelling
import MigrationSetup.Proofs.Identifying
import MigrationSetup.Proofs.Failing
import MigrationSetup.Proofs.Searching
import MigrationSetup.Proofs.Visiting
import MigrationSetup.Proofs.Repeating
import MigrationSetup.Proofs.Fingerprints
import MigrationSetup.Proofs.Grammar
import MigrationSetup.Proofs.Grouping
import MigrationSetup.Proofs.ModeNames
import MigrationSetup.Proofs.Listing
import MigrationSetup.Proofs.Reordering
import MigrationSetup.Proofs.Addressing
import MigrationSetup.Proofs.Filtering
import MigrationSetup.Proofs.Collapsing
import MigrationSetup.Proofs.Meaning
import MigrationSetup.Proofs.Growing
import MigrationSetup.Proofs.Tracking
import MigrationSetup.Proofs.Expanding
import MigrationSetup.Proofs.Sharing
import MigrationSetup.Proofs.Aliasing
import MigrationSetup.Proofs.Neutral
import MigrationSetup.Proofs.Accounting
import MigrationSetup.Proofs.Recording
