import HawkGate.Guarantees.RateIsolation
import HawkGate.Guarantees.SessionMobility
import HawkGate.Guarantees.BindingFreshness
import HawkGate.Guarantees.SessionExpiry
import HawkGate.Guarantees.ReaderAgreement
import HawkGate.Guarantees.IngressEnforcement
import HawkGate.Guarantees.UploadPacing
import HawkGate.Guarantees.UploadAdmission
import HawkGate.Guarantees.EdtProgress
import HawkGate.Guarantees.DownloadBacklog
import HawkGate.Guarantees.FlowRemoval
import HawkGate.Guarantees.ShapingWindow
import HawkGate.Guarantees.NatIntegrity
import HawkGate.Guarantees.Classification
import HawkGate.Guarantees.AddUndo
import HawkGate.Guarantees.NatTransparency
import HawkGate.Guarantees.PortalGate
import HawkGate.Guarantees.AllowList
import HawkGate.Guarantees.Noninterference
import HawkGate.Guarantees.TableOccupancy
import HawkGate.Guarantees.ConfiguredLimits
import HawkGate.Guarantees.ConnectionSafety
import HawkGate.Guarantees.ExplicitLogin
import HawkGate.Guarantees.EdgeReadiness
import HawkGate.Guarantees.GardenCoverage
import HawkGate.Guarantees.RuleText
import HawkGate.Guarantees.RequestPieces
import HawkGate.Guarantees.RequestRoundTrip
import HawkGate.Guarantees.ContentLength
import HawkGate.Guarantees.HeaderCase
import HawkGate.Guarantees.FormFields
import HawkGate.Guarantees.ResponseFraming
import HawkGate.Guarantees.AddArguments
import HawkGate.Guarantees.TrafficAccounting
import HawkGate.Guarantees.ExpiryClocks
import HawkGate.Guarantees.RemainingTime
import HawkGate.Guarantees.ReportedRates
import HawkGate.Guarantees.RequestedView
import HawkGate.Guarantees.SingleReport
import HawkGate.Guarantees.DescriptorBalance
import HawkGate.Guarantees.InlineComments
import HawkGate.Guarantees.ConfigRoundTrip
import HawkGate.Guarantees.StartCleanup
import HawkGate.Guarantees.FailedStart
import HawkGate.Guarantees.Granting
import HawkGate.Guarantees.Admission
import HawkGate.Guarantees.Boot
import HawkGate.Guarantees.CommandLine
import HawkGate.Guarantees.Isolation
import HawkGate.Guarantees.Quiescence
import HawkGate.Guarantees.EndToEnd
import HawkGate.Guarantees.Totals
import HawkGate.Guarantees.LiveTotals
