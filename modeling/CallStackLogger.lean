import CallStackLogger.Core.Run
import CallStackLogger.Trace.Depth
import CallStackLogger.Trace.Levels
import CallStackLogger.Format.Layout
import CallStackLogger.Trace.Effects
import CallStackLogger.Trace.Cursor
import CallStackLogger.Reconcile.Exit
import CallStackLogger.Trace.Patching
import CallStackLogger.Program.Machine
import CallStackLogger.Program.Pairing
import CallStackLogger.Program.LiveLevels
import CallStackLogger.Program.Overflow
import CallStackLogger.Program.Exits
import CallStackLogger.Program.Tree
import CallStackLogger.Program.Inline
import CallStackLogger.Program.Catch
import CallStackLogger.Trace.OffStack
import CallStackLogger.Trace.Opening
import CallStackLogger.Program.Unwind
import CallStackLogger.Program.Durations
import CallStackLogger.Trace.Handlers
import CallStackLogger.Trace.Shutdown
import CallStackLogger.Core.NodeMap
import CallStackLogger.Reconcile.Kept
import CallStackLogger.Resolve.Agreement
import CallStackLogger.Reconcile.Cut
import CallStackLogger.Reconcile.LastComponent
import CallStackLogger.Resolve.NamingPaths
import CallStackLogger.Core.Checked
import CallStackLogger.Elf.Notes
import CallStackLogger.Elf.Layout
import CallStackLogger.Format.Ideal
import CallStackLogger.Resolve.Locations
import CallStackLogger.Program.Layouts
import CallStackLogger.Resolve.StdFilter
import CallStackLogger.Core.CBuffer
import CallStackLogger.Format.DurationField
import CallStackLogger.Core.CText
import CallStackLogger.Format.Sanitize
import CallStackLogger.Resolve.Maps
import CallStackLogger.Resolve.CallStack
import CallStackLogger.Resolve.StackThread
import CallStackLogger.Core.Forest
import CallStackLogger.Format.Reader
import CallStackLogger.Program.Listing
import CallStackLogger.Program.Process
import CallStackLogger.Core.Growing
import CallStackLogger.Elf.Opens
import CallStackLogger.Elf.Registering
import CallStackLogger.Resolve.Loading
import CallStackLogger.Format.PrettyTime
