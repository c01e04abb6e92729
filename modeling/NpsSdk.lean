import NpsSdk.NopScheduling
import NpsSdk.NopCallback
import NpsSdk.NopCallbackGuard
import NpsSdk.NopClusterDelegation
import NpsSdk.NopLease
import NpsSdk.NopReporting
import NpsSdk.NopSagaScope
import NpsSdk.NipReputationLog
import NpsSdk.NipSerials
import NpsSdk.NipBootstrapTokens
import NpsSdk.NipRegistration
import NpsSdk.NipRevocationAnswers
import NpsSdk.NipMalleability
import NpsSdk.NipRevocation
import NpsSdk.NcpFailover
import NpsSdk.FrameIntegers
import NpsSdk.NdpSignedForm
import NpsSdk.NipX509
import NpsSdk.NdpFederation
import NpsSdk.NdpRegistryAnswers
import NpsSdk.NdpCluster
import NpsSdk.CaServerRuns
import NpsSdk.NwpLlmContextIsolation
import NpsSdk.NdpGraph
import NpsSdk.NwpAnchorEpoch
import NpsSdk.NwpInMemoryFilter
import NpsSdk.NwpPagination
import NpsSdk.NcpNegotiation
import NpsSdk.CoreVectorSafety
import NpsSdk.NipFullVerification
import NpsSdk.NipSessionTimes
import NpsSdk.CoreAnchorCache
import NpsSdk.NopDelegation
