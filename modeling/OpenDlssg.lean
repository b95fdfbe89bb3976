import OpenDlssg.ByteSearch
import OpenDlssg.ProcessMemory
import OpenDlssg.PatternScan
import OpenDlssg.LastWriteMap
import OpenDlssg.ProviderIndex
import OpenDlssg.ContainerFormat
import OpenDlssg.FatbinRetarget
import OpenDlssg.ProviderLookup
import OpenDlssg.ProviderAnswers
import OpenDlssg.SoleClaims
import OpenDlssg.ContainerLookup
import OpenDlssg.Substitute
import OpenDlssg.SubstituteSafety
import OpenDlssg.PtxTextRoute
import OpenDlssg.ProviderAttribution
import OpenDlssg.CubinParams
import OpenDlssg.CubinRoute
import OpenDlssg.PluginAnalysis
import OpenDlssg.MultiFrameGates
import OpenDlssg.ComponentClaims
import OpenDlssg.LoadProgress
import OpenDlssg.WorkerOrder
import OpenDlssg.LoadCompletion
import OpenDlssg.MarkedText
import OpenDlssg.TargetDirective
import OpenDlssg.LaunchInterface
import OpenDlssg.RetargetOutput
import OpenDlssg.BlobFieldView
import OpenDlssg.WidePaths
import OpenDlssg.SpoofCallers
import OpenDlssg.ArchAnswers
import OpenDlssg.FrameGeneration
import OpenDlssg.ForcedMultiplier
import OpenDlssg.BlockRestoration
import OpenDlssg.CachedLayout
import OpenDlssg.RegisterStores
import OpenDlssg.RewrittenStores
import OpenDlssg.MarkerPath
import OpenDlssg.DriverProtocol
import OpenDlssg.ExclusiveClaims
import OpenDlssg.CheckedCubin
import OpenDlssg.CheckedFatbin
import OpenDlssg.ActiveTarget
import OpenDlssg.TrailingBytes
import OpenDlssg.ComponentSpelling
import OpenDlssg.VulkanResolutions
import OpenDlssg.KernelSummary
import OpenDlssg.IniFile
import OpenDlssg.IniFormat
import OpenDlssg.IniSettings
import OpenDlssg.SettingReports
import OpenDlssg.SpoofCallersSetting
import OpenDlssg.LogFields
import OpenDlssg.PathRedaction
import OpenDlssg.JsonText
import OpenDlssg.LogRecords
import OpenDlssg.LastTarget
import OpenDlssg.AnalysisReads
import OpenDlssg.ImageEnd
import OpenDlssg.HookInstallation
import OpenDlssg.RunningCode
import OpenDlssg.AnswerTable
import OpenDlssg.ChangeReports
import OpenDlssg.PluginPatching
import OpenDlssg.UnlockedRuntime
import OpenDlssg.CallTraces
import OpenDlssg.ReflexPacing
import OpenDlssg.ModuleRoutes
import OpenDlssg.NestedLoads
import OpenDlssg.OptionCalls
import OpenDlssg.SupportedOnly
import OpenDlssg.ProxyForwarding
import OpenDlssg.LogPruning
import OpenDlssg.LogSessions
