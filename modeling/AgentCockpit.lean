import AgentCockpit.Mux.SeedBarrier
import AgentCockpit.Mux.RawDelivery
import AgentCockpit.Mux.Recoverability
import AgentCockpit.Mux.DestroyFrame
import AgentCockpit.Mux.Handoff.PaneExit
import AgentCockpit.Remote.MuxExit
import AgentCockpit.Remote.MuxConnection
import AgentCockpit.Remote.PaneInput
import AgentCockpit.Local.TmuxControl
import AgentCockpit.Helper.Serve
import AgentCockpit.Helper.Correlation
import AgentCockpit.Providers.Eviction
import AgentCockpit.Providers.WorktreeWatch
import AgentCockpit.Helper.WatchTree
import AgentCockpit.Callback.Broker
import AgentCockpit.Callback.ListenerPath
import AgentCockpit.Remote.RequestCorrelation
import AgentCockpit.Callback.OpenPath
import AgentCockpit.Mux.AttachFailure
import AgentCockpit.Renderer.TopologyOrder
import AgentCockpit.Renderer.PanelLoads
import AgentCockpit.Renderer.TerminalTabs
import AgentCockpit.Remote.HelperCalls
import AgentCockpit.Renderer.FoldingView
import AgentCockpit.Renderer.ChangesRefresh
import AgentCockpit.Renderer.ControlReinit
import AgentCockpit.Mux.TerminalReset
import AgentCockpit.Mux.SavedCursor
import AgentCockpit.Mux.DividerDrag
import AgentCockpit.Mux.SelectionFailure
import AgentCockpit.Remote.PaneOutput
import AgentCockpit.Helper.GitStatus
import AgentCockpit.Callback.RateLimit
import AgentCockpit.Mux.AttachRelay
import AgentCockpit.Mux.Persistence.Eviction
import AgentCockpit.Mux.GroundedKeyframes
import AgentCockpit.Callback.OpenTarget
import AgentCockpit.Mux.OutputFrames
import AgentCockpit.Mux.AlternateScreen
import AgentCockpit.Mux.CreateFailure
import AgentCockpit.Remote.InputEncoding
import AgentCockpit.Renderer.TerminalInput
import AgentCockpit.Renderer.InBandResize
import AgentCockpit.Renderer.ScrollbackSources
import AgentCockpit.Renderer.PaneFocus
import AgentCockpit.Renderer.ReservedWindows
import AgentCockpit.Renderer.ScreenTitles
import AgentCockpit.Renderer.ParsePatch
import AgentCockpit.Renderer.WordDiff
import AgentCockpit.Renderer.GhostRows
import AgentCockpit.Renderer.TableQueries
import AgentCockpit.Renderer.FocusedGraph
import AgentCockpit.Renderer.YamlAnchors
import AgentCockpit.Renderer.FindInContent
import AgentCockpit.Renderer.LineSearch
import AgentCockpit.Projects.ProjectOrder
import AgentCockpit.Projects.Relabel
import AgentCockpit.Providers.WorktreeListing
import AgentCockpit.Mux.ProjectIsolation
import AgentCockpit.Mux.IdentifierFreshness
import AgentCockpit.Mux.Ownership
