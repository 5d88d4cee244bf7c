import Rozi.Layout.Scalar
import Rozi.Layout.Tiling
import Rozi.Layout.Shared
import Rozi.Layout.Validate
import Rozi.Layout.ValidateReasons
import Rozi.Session.Lease
import Rozi.Library.Custody
import Rozi.Session.LeaseSafety
import Rozi.Library.ReplacementQueue
import Rozi.Library.LaneOrder
import Rozi.Session.Outbox
import Rozi.Session.SeedPump
import Rozi.Session.OutboxOutcome
import Rozi.Session.OutboxAccounting
import Rozi.Session.Barrier
import Rozi.Session.Delivery
import Rozi.Session.DeliverySound
import Rozi.Session.DeliveryPush
import Rozi.Session.DeliveryPump
import Rozi.Session.DeliveryOrder
import Rozi.Session.DeliveryLoss
import Rozi.Control.Requests
import Rozi.Layout.Edit
import Rozi.Layout.Placements
import Rozi.Session.Spawn
import Rozi.Session.Writes
import Rozi.Session.Atomic
import Rozi.Session.Revisions
import Rozi.Session.LayoutRun
import Rozi.Session.FreeSession
import Rozi.Library.BigEndian
import Rozi.Library.Incremental
import Rozi.Session.Framing
import Rozi.Session.FramingRoundTrip
import Rozi.Library.Yielding
import Rozi.Recording.Queue
import Rozi.Recording.QueueSafety
import Rozi.Library.Transcript
import Rozi.Session.ByteQueue
import Rozi.Session.Ingress
import Rozi.Session.IngressPop
import Rozi.Session.MediaStream
import Rozi.Library.Pieces
import Rozi.Session.MediaOutput
import Rozi.Session.MediaCommit
import Rozi.Session.MediaFence
import Rozi.Session.Mailbox
import Rozi.Session.MailboxOrder
import Rozi.Session.MailboxSlots
import Rozi.Library.Stretches
import Rozi.Recording.RowCells
import Rozi.Recording.RowDiff
import Rozi.Recording.Encode
import Rozi.Recording.EncodeReplay
import Rozi.Library.Budget
import Rozi.Session.ByteQueueRun
import Rozi.Session.ReplayFence
import Rozi.Layout.Allocate
import Rozi.Layout.Source
import Rozi.Layout.Settled
import Rozi.Layout.EditRun
import Rozi.Layout.EditSafety
import Rozi.Layout.Live
import Rozi.Layout.LivePlacement
import Rozi.Library.Justified
import Rozi.Session.Acquisition
import Rozi.Session.AcquisitionSafety
import Rozi.Session.WaitRun
import Rozi.Session.WaitSafety
import Rozi.Session.WaitLives
import Rozi.Extension.Store
import Rozi.Extension.StoreRun
import Rozi.Extension.StoreSafety
import Rozi.Extension.StorePrune
import Rozi.Library.KeyedTotals
import Rozi.State.Orphan
import Rozi.State.OrphanLedger
import Rozi.Session.OutboxShedding
import Rozi.Agent.History
import Rozi.Agent.Stages
import Rozi.Agent.Flicker
import Rozi.Session.FramingCanonical
import Rozi.Session.FramingPanics
import Rozi.Session.Browse
import Rozi.Session.BrowseSafety
import Rozi.Library.Numbered
import Rozi.Session.Events
import Rozi.Library.Visits
import Rozi.Session.Subscriptions
import Rozi.Session.SubscriptionsSafety
import Rozi.Session.SubscriptionsRun
import Rozi.Recording.Format
import Rozi.Recording.Play
import Rozi.Recording.Watch
import Rozi.Pane.MarkerFilter
import Rozi.Pane.Markers
import Rozi.Pane.MarkerCuts
import Rozi.Pane.Log
import Rozi.Extension.Bundle
import Rozi.Extension.BundleArchive
import Rozi.Extension.BundleNames
import Rozi.Extension.BundleStaging
import Rozi.Extension.BundleReadBack
import Rozi.Extension.BundleStored
import Rozi.Extension.Invocations
import Rozi.Extension.InvocationsRun
import Rozi.Extension.InvocationsSafety
import Rozi.Extension.InvocationsSound
import Rozi.Extension.InvocationsOrderly
import Rozi.Extension.OutputLog
import Rozi.Extension.OutputLogSound
import Rozi.Extension.OutputLogSteps
import Rozi.Extension.OutputLogGuarded
import Rozi.Extension.OutputLogKept
import Rozi.Layout.Profile
import Rozi.Layout.Cells
import Rozi.Layout.DwindlePartition
import Rozi.Layout.Redock
import Rozi.Layout.Strips
import Rozi.Layout.Bands
import Rozi.Layout.Strip
import Rozi.Layout.FloatResize
import Rozi.State.SidebarForest
import Rozi.State.SidebarListing
import Rozi.State.SidebarFlatten
import Rozi.State.SidebarAccount
import Rozi.Library.ShellWords
import Rozi.Pane.PromptLine
import Rozi.Pane.PromptReading
import Rozi.Pane.ScreenWait
import Rozi.Pane.ScreenWaitShows
import Rozi.Pane.ScreenWaitTiming
import Rozi.Layout.Resize
import Rozi.Layout.ResizeHold
import Rozi.Layout.ResizeTouch
import Rozi.Layout.ResizeOne
import Rozi.Library.LexicalPath
import Rozi.Layout.HostPath
import Rozi.Layout.HostPathBelow
import Rozi.Layout.HostPathRebase
import Rozi.Layout.WorktreeSeed
import Rozi.Layout.WorktreeRebase
import Rozi.Recording.PlayRun
import Rozi.Recording.PlaySeek
import Rozi.Recording.SeekWatch
import Rozi.Layout.ProfileRestore
import Rozi.Layout.ProfileTiling
import Rozi.Recording.PlayTotal
import Rozi.Recording.ReplayBudget
import Rozi.Layout.ProfileAccepted
import Rozi.Layout.ProfileLoads
import Rozi.Layout.ProfileReplace
