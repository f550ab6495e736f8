import SchemaTables.Main
import SchemaTables.Storage.Disk
import SchemaTables.Proofs.AliasChain
import SchemaTables.Proofs.Settlement
import SchemaTables.Proofs.Resolution
import SchemaTables.Proofs.Faithfulness
import SchemaTables.Proofs.FirstFault
import SchemaTables.Proofs.Closure
import SchemaTables.Proofs.PathIdentifier
import SchemaTables.Proofs.Coverage
import SchemaTables.Proofs.Stroll
import SchemaTables.Proofs.Links
import SchemaTables.Proofs.Titles
import SchemaTables.Proofs.Extension
import SchemaTables.Proofs.Legibility
import SchemaTables.Proofs.Course
import SchemaTables.Proofs.AllOrNothing
import SchemaTables.Proofs.Stages
import SchemaTables.Proofs.Endings
import SchemaTables.Proofs.Visits
import SchemaTables.Proofs.Identity
import SchemaTables.Proofs.ReferenceSearch
import SchemaTables.Proofs.Collisions
import SchemaTables.Proofs.Acceptance
import SchemaTables.Proofs.HiddenDescriptions
import SchemaTables.Proofs.Rows
import SchemaTables.Proofs.Heap
import SchemaTables.Proofs.HeapVisits
import SchemaTables.Proofs.Wholeness
import SchemaTables.Proofs.Dialects
import SchemaTables.Proofs.Configurations
import SchemaTables.Proofs.Retitling
