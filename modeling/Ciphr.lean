import Ciphr.AuditAnchorLines
import Ciphr.AuditArchiveNames
import Ciphr.AuditFragments
import Ciphr.AuditHeadScan
import Ciphr.AuditTimestamps
import Ciphr.CiDelivery
import Ciphr.CliArchived
import Ciphr.CliTokenLifetime
import Ciphr.CliVerifyRuns
import Ciphr.CliVersions
import Ciphr.ExportDelivery
import Ciphr.PolicyValid
import Ciphr.RunHandover
import Ciphr.RunSecrecy
import Ciphr.SdkUrl
import Ciphr.ServerAuditPages
import Ciphr.ServerHealth
import Ciphr.ServerLatch
import Ciphr.ServerListing
import Ciphr.ServerOidcSound
import Ciphr.ServerSilence
import Ciphr.ServerStanzas
import Ciphr.ServerUnseen
import Ciphr.StoreListingReaders
import Ciphr.StoreLockExclusion
import Ciphr.StoreOpenRuns
import Ciphr.StoreSealRuns
