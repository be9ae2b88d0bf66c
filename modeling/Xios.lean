import Xios.Lib.Machine
import Xios.Lib.Mask
import Xios.Lib.Rect
import Xios.Lib.Framing
import Xios.Lib.Draining
import Xios.Lib.Shell
import Xios.Lib.Banded
import Xios.Lib.Worklist
import Xios.Protocol.Message
import Xios.Output.Queue
import Xios.Output.Ownership
import Xios.Output.Fence
import Xios.Output.Damage
import Xios.Output.Repaint
import Xios.Output.RepaintLaws
import Xios.Desktop.ShellText
import Xios.Input.Socket
import Xios.Input.SocketLaws
import Xios.SysInt.Link
import Xios.SysInt.LinkLaws
import Xios.Clipboard.Bridge
import Xios.Clipboard.BridgeLaws
import Xios.Windows.Stack
import Xios.Windows.StackLaws
import Xios.Windows.Requests
import Xios.Windows.RequestsLaws
import Xios.Surface.Server
import Xios.Surface.ServerLaws
import Xios.Surface.Release
import Xios.App.Connection
import Xios.App.StreamView
import Xios.App.ConnectionLaws
import Xios.App.Table
import Xios.Surface.Wire
import Xios.Surface.Streams
import Xios.Surface.Agreement
import Xios.Surface.ClientTable
import Xios.Surface.ClientTableLaws
import Xios.Surface.Pacing
import Xios.Input.Lifetime
import Xios.Input.Path
import Xios.Lib.Alternation
import Xios.Lib.Cycle
import Xios.Seat.Confinement
import Xios.Seat.GrabCommits
import Xios.Seat.GrabRuns
import Xios.SysInt.Wire
import Xios.SysInt.WireLaws
import Xios.Text.TextInput
import Xios.Text.TextInputLaws
import Xios.Audio.Link
import Xios.Audio.LinkLaws
import Xios.Audio.Unit
import Xios.Audio.UnitLaws
import Xios.Audio.Ring
import Xios.Clipboard.Primary
import Xios.Clipboard.PrimaryLaws
import Xios.Desktop.Sessions
import Xios.Desktop.SessionsLaws
import Xios.Lib.Comparison
import Xios.Lib.Dict
import Xios.Lib.PyText
import Xios.Repo.Merge
import Xios.Repo.Make
import Xios.Repo.MergeLaws
import Xios.Repo.MakeLaws
import Xios.Canvas.Handover
import Xios.Output.Feedback
import Xios.Output.FeedbackLaws
import Xios.Seat.Held
import Xios.Seat.HeldLaws
import Xios.Seat.Pointer
import Xios.Seat.PointerLaws
import Xios.Windows.Parents
import Xios.Clipboard.Hosts
import Xios.Clipboard.HostsLaws
import Xios.Desktop.EntryLaws
import Xios.Desktop.ArgvLaws
import Xios.Desktop.Resolve
import Xios.Lib.Forest
import Xios.Windows.Subsurface
import Xios.Windows.SubsurfaceLaws
import Xios.Windows.Geometry
import Xios.Windows.Placement
import Xios.Windows.PlacementLaws
import Xios.Clipboard.Stores
import Xios.Clipboard.StoresLaws
import Xios.Clipboard.Wire
import Xios.Clipboard.WireLaws
import Xios.Output.Texture
import Xios.Output.TextureLaws
import Xios.Output.SceneLaws
import Xios.Output.ScreenLaws
import Xios.Lib.Lines
import Xios.Windows.WmSocket
import Xios.Windows.WmSocketLaws
import Xios.Seat.Shift
import Xios.Seat.ShiftLaws
import Xios.Seat.Pen
import Xios.Seat.PenLaws
import Xios.Seat.Hints
import Xios.Seat.HintsLaws
import Xios.Seat.Touch
import Xios.Seat.TouchLaws
import Xios.Repo.Scope
import Xios.Repo.ScopeLaws
import Xios.Repo.Solvable
import Xios.Debs.Ar
import Xios.Debs.ArLaws
import Xios.Debs.Control
import Xios.Debs.Rewrite
import Xios.Debs.RewriteLaws
import Xios.Lib.Sweep
import Xios.Lib.Splitting
import Xios.Debs.Fields
import Xios.Debs.Floors
import Xios.Debs.FloorsLaws
import Xios.Debs.Clauses
import Xios.Debs.Merging
import Xios.Debs.EditSteps
import Xios.Debs.EditLaws
import Xios.Debs.EditAgain
import Xios.Debs.EditWeight
import Xios.Debs.EditExact
import Xios.Lib.Words
import Xios.Lib.Patching
import Xios.Macho.Weaken
import Xios.Macho.Image
import Xios.Macho.Steps
import Xios.Macho.Runs
import Xios.Macho.Bits
import Xios.Macho.Laws
import Xios.Macho.Again
import Xios.Macho.Files
import Xios.Macho.Exact
import Xios.Lib.Signed
import Xios.Lib.Painter
import Xios.Output.Extent
import Xios.Output.Viewport
import Xios.Output.ExtentLaws
import Xios.Output.Occlusion
import Xios.Output.Requested
import Xios.Output.RequestedExact
import Xios.Output.RequestedLaws
import Xios.Output.Stretch
import Xios.Windows.Resize
import Xios.Output.Reconfigure
import Xios.Output.ReconfigureLaws
import Xios.Windows.Popups
import Xios.Windows.Families
import Xios.Seat.Drag
import Xios.Seat.DragLaws
import Xios.Seat.DragEnd
import Xios.Output.DamageExact
import Xios.Lib.PanZoom
import Xios.App.FitTransform
import Xios.App.FitTransformLaws
import Xios.Output.BufferAge
import Xios.Lib.Utf8
import Xios.Input.TextRecords
import Xios.Lib.Newest
import Xios.SysInt.Settings
import Xios.SysInt.SettingsLaws
import Xios.Surface.ClientReader
import Xios.Surface.ClientReaderLaws
import Xios.App.Records
import Xios.App.RecordsLaws
import Xios.App.Frames
import Xios.Surface.Images
