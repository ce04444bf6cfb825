import OpsSysd.ManifestMgmtIntf
import OpsSysd.ManifestExact
import OpsSysd.ManifestDaemons
import OpsSysd.ManifestSafety
import OpsSysd.FruIntegrity
import OpsSysd.FruRoundTrip
import OpsSysd.FruBounds
import OpsSysd.FruRead
import OpsSysd.Completion
import OpsSysd.TransactionDiscipline
import OpsSysd.Handshake
import OpsSysd.MainLoop
import OpsSysd.PackageAtomicity
import OpsSysd.PackageSafety
import OpsSysd.TimezoneTree
import OpsSysd.MacPool
import OpsSysd.Contention
import OpsSysd.OsRelease
import OpsSysd.SplitGraph
import OpsSysd.OptionalPolicies
import OpsSysd.ArrayBounds
import OpsSysd.TimezoneTokens
import OpsSysd.BasePath
import OpsSysd.SpeedsString
import OpsSysd.SysdDump
import OpsSysd.SysCmdOut
import OpsSysd.ShowSystem
import OpsSysd.Retention
import OpsSysd.Survival
import OpsSysd.ConfigureSettings
import OpsSysd.OvsdbApply
import OpsSysd.BootRun
import OpsSysd.LocalTime
import OpsSysd.FileLinks
import OpsSysd.HwDesc
import OpsSysd.StartUp
import OpsSysd.ConfigurePolicies
import OpsSysd.WholeDatabase
import OpsSysd.PackageRows
import OpsSysd.ShowFru
import OpsSysd.Lifecycle
import OpsSysd.ClockLink
