import IpDocket.Lib.Run
import IpDocket.Lib.Keyed
import IpDocket.Lib.Table
import IpDocket.Lib.Text
import IpDocket.Lib.Time
import IpDocket.Ops.DurableQueueDedupe
import IpDocket.Queues.MatterStatusRecalcRequests
import IpDocket.Queues.AnnuitySyncRequests
import IpDocket.Billing.InsertIdsWindows
import IpDocket.Billing.DepositOverdraft
import IpDocket.Billing.DepositCancellation
import IpDocket.Case.OurRefDistinct
import IpDocket.Billing.DepositInvariant
import IpDocket.Case.OurRefTemplate
import IpDocket.Case.OurRefReservation
import IpDocket.Accounting.Journal
import IpDocket.Ops.AfterCommitEnqueue
import IpDocket.Accounting.Periods
import IpDocket.Accounting.Statements
import IpDocket.Billing.RetainerBounds
import IpDocket.Billing.InvoiceStatus
import IpDocket.Billing.InvoiceNumbers
import IpDocket.Billing.InvoiceNumbersUnique
import IpDocket.Billing.Statistics
import IpDocket.Lib.Decimal
import IpDocket.Billing.PaymentMeta
import IpDocket.Billing.BankAllocations
import IpDocket.Billing.EffectivePaid
import IpDocket.Billing.Collections
import IpDocket.Billing.CollectionsWithin
import IpDocket.Billing.RetainerPrograms
import IpDocket.Billing.RetainerBooks
import IpDocket.Billing.RetainerRaces
import IpDocket.Accounting.Reversals
import IpDocket.Accounting.ReversalsMirror
import IpDocket.Ops.EnqueueSessions
import IpDocket.Ops.EnqueueOneActive
import IpDocket.Ops.StartupRecovery
import IpDocket.Ops.StartupDeployment
import IpDocket.Queues.MatterStatusRecalcLocks
import IpDocket.Queues.MatterStatusRecalcRevival
import IpDocket.Queues.AnnuitySyncStranded
import IpDocket.Queues.AnnuitySyncTask
import IpDocket.Lib.Calendar
import IpDocket.Deletion.Archive
import IpDocket.Deletion.ArchiveComplete
import IpDocket.Deletion.DocketDates
import IpDocket.Deletion.Restore
import IpDocket.Deletion.RoundTrip
import IpDocket.Deletion.DeleteRestore
import IpDocket.Deletion.RestoreOnce
import IpDocket.Search.Expression
import IpDocket.Search.FilterAgreement
import IpDocket.Workflows.DueDateSync
import IpDocket.Case.OurRefSequence
import IpDocket.Case.OurRefPattern
import IpDocket.Case.OurRefRoundTrip
import IpDocket.Annuity.Watermark
import IpDocket.Workflows.Assignments
import IpDocket.Workflows.AssignmentsConfirmed
import IpDocket.Annuity.Policy
import IpDocket.Lib.Lines
import IpDocket.Workflows.AnnuityTasks
import IpDocket.Workflows.AnnuityTaskWrites
import IpDocket.Workflows.AnnuityTaskPass
import IpDocket.Workflows.AnnuityTasksExact
import IpDocket.Deadlines.ForeignRules
import IpDocket.Ops.RetryCause
import IpDocket.Annuity.Anniversaries
import IpDocket.Deadlines.DoneDates
import IpDocket.Queues.FileDelete
import IpDocket.Queues.AnnuitySyncFailure
import IpDocket.Deadlines.DocketRows
import IpDocket.Deadlines.OfficeActionDockets
import IpDocket.Deadlines.DocketUpsert
import IpDocket.Lib.JsonEquality
import IpDocket.Deadlines.NoticeDocuments
import IpDocket.Deadlines.NoticeSend
import IpDocket.Deadlines.NoticeSendHistories
import IpDocket.Annuity.Generation
import IpDocket.Annuity.GenerationSteps
import IpDocket.Annuity.GenerationYears
import IpDocket.Annuity.GenerationTrademarks
import IpDocket.Annuity.GenerationRuns
import IpDocket.Billing.SqlPlaceholders
import IpDocket.Search.ExpressionParser
import IpDocket.Search.DatabaseSearch
import IpDocket.Billing.SubmittedItems
import IpDocket.Lib.DecimalContext
import IpDocket.Billing.InvoiceTotals
import IpDocket.Billing.VatRates
import IpDocket.Billing.BulkVoid
import IpDocket.Billing.BulkVoidOutcomes
import IpDocket.Billing.EditDeposit
import IpDocket.Billing.EditDepositAtomic
import IpDocket.Billing.Conversions
import IpDocket.Billing.ConversionsAgree
import IpDocket.Clients.MergeProfile
import IpDocket.Clients.MergeProfileKeeps
import IpDocket.Clients.MergeProfileLossless
import IpDocket.Clients.MergeAttachments
import IpDocket.Clients.MergeAttachmentsReachable
import IpDocket.Clients.MergeReferences
import IpDocket.Clients.MergeReferencesMoved
import IpDocket.Clients.MergeReferencesExact
import IpDocket.Annuity.GenerationStable
import IpDocket.Uploads.ZipSafety
import IpDocket.Billing.SqlScripts
import IpDocket.History.MergeGroups
import IpDocket.History.MergeGroupsDisjoint
import IpDocket.History.MergeGroupsNormal
import IpDocket.Tasks.DistributionRules
import IpDocket.Tasks.DistributionDecision
import IpDocket.Tasks.DistributionResolve
import IpDocket.Tasks.TaskMerge
import IpDocket.Tasks.TaskMergeOrder
import IpDocket.Billing.FormatNotes
import IpDocket.Billing.FormatNotesLines
import IpDocket.Billing.FormatNotesNested
import IpDocket.Annuity.GenerationRecords
import IpDocket.Lib.Incidence
import IpDocket.Matters.Families
import IpDocket.Matters.FamilyLinks
import IpDocket.Matters.FamilyRuns
import IpDocket.Lib.Ranges
import IpDocket.Access.CountryBlocks
import IpDocket.Calendars.CalendarFile
