import BulkAssessment.Config
import BulkAssessment.Http.Service
import BulkAssessment.Main
import BulkAssessment.Proofs.Dossier
import BulkAssessment.Proofs.Cells
import BulkAssessment.Proofs.Locality
import BulkAssessment.Proofs.Runs
import BulkAssessment.Proofs.MandatoryGate
import BulkAssessment.Proofs.KeyedLists
import BulkAssessment.Proofs.Stubs
import BulkAssessment.Proofs.Rows
import BulkAssessment.Proofs.Strays
import BulkAssessment.Proofs.Review
import BulkAssessment.Proofs.Blanks
import BulkAssessment.Proofs.Stores
import BulkAssessment.Proofs.Saving
import BulkAssessment.Proofs.Outcomes
import BulkAssessment.Proofs.Reports
import BulkAssessment.Proofs.Dates
import BulkAssessment.Proofs.Completion
import BulkAssessment.Proofs.Verification
import BulkAssessment.Proofs.Submissions
import BulkAssessment.Proofs.Success
import BulkAssessment.Proofs.Comments
import BulkAssessment.Proofs.Rejections
import BulkAssessment.Proofs.History
import BulkAssessment.Proofs.Reordering
import BulkAssessment.Proofs.Repetition
import BulkAssessment.Proofs.Columns
import BulkAssessment.Proofs.Constraints
import BulkAssessment.Proofs.People
import BulkAssessment.Proofs.Verdicts
import BulkAssessment.Proofs.Meanings
import BulkAssessment.Proofs.Effects
import BulkAssessment.Proofs.Reopening
import BulkAssessment.Proofs.Attachments
import BulkAssessment.Proofs.ReadBack
import BulkAssessment.Proofs.Splitting
import BulkAssessment.Proofs.Assembling
import BulkAssessment.Proofs.Aggregation
import BulkAssessment.Proofs.Impacts
import BulkAssessment.Proofs.Picks
