import Woos.Lib.Memory
import Woos.Lib.Arena
import Woos.Lib.Run
import Woos.Lib.RingBuffer
import Woos.Lib.Word
import Woos.Lib.CString
import Woos.KHeap.Basic
import Woos.KHeap.Refinement
import Woos.KHeap.Repr
import Woos.KHeap.Live
import Woos.KHeap.Session
import Woos.Ipc
import Woos.Pmm.Basic
import Woos.Pmm.Search
import Woos.Pmm.Ownership
import Woos.KHeap.Client
import Woos.Window.Stack
import Woos.Window.Buffers
import Woos.Window.Ownership
import Woos.Input
import Woos.Vmm.Basic
import Woos.Sched.Table
import Woos.Sched.Kernel
import Woos.Sched.Switch
import Woos.Sched.Create
import Woos.Sched.Calls
import Woos.Sched.States
import Woos.Sched.Instances
import Woos.Sched.Messages
import Woos.Lib.CountedRing
import Woos.Net.Lwip
import Woos.Net.Socket
import Woos.Net.Stream
import Woos.Net.Resolve
import Woos.Lib.Slots
import Woos.Net.Blocks
import Woos.Net.Handles
import Woos.Net.Callbacks
import Woos.Net.Calls
import Woos.Net.Closing
import Woos.Net.Sockets
import Woos.Lib.Paging
import Woos.Vmm.Tables
import Woos.Vmm.Separation
import Woos.Vmm.Mapping
import Woos.Vmm.Spaces
import Woos.Vmm.Isolation
import Woos.Vmm.Accounting
import Woos.Vmm.Reclaim
import Woos.Vmm.LargePages
import Woos.KHeap.Reclamation
import Woos.Pmm.Counting
import Woos.Lib.Marking
import Woos.Window.Focus
import Woos.Ps2.Demux
import Woos.Fb.OnScreen
import Woos.Lib.FreeRing
import Woos.VirtioNet.Rings
import Woos.VirtioNet.Accounting
import Woos.Lib.Bytes
import Woos.Vfs.Basic
import Woos.Wasi.Descriptors
import Woos.Wasi.Validity
import Woos.Lib.Records
import Woos.Wasi.Dirents
import Woos.Wasi.Readdir
import Woos.Wasi.Listing
import Woos.Compositor.Sync
import Woos.Compositor.Desktop
import Woos.Compositor.Grid
import Woos.Compositor.Stability
import Woos.Lib.Masking
import Woos.Sched.Masking
import Woos.Sched.WakeUps
import Woos.KHeap.Contents
import Woos.Pmm.Completeness
import Woos.Pmm.FreeRows
import Woos.Lib.Cyclic
import Woos.Sched.Choice
import Woos.Clock
import Woos.Calc
import Woos.Text.Utf8
import Woos.Lib.Codes
import Woos.Text.Characters
import Woos.FileDialog
import Woos.Lib.Shift
import Woos.Notepad.Rows
import Woos.Notepad.Files
import Woos.Notepad.Dialog
import Woos.Notepad.Editor
import Woos.Notepad.Editing
import Woos.Notepad.RoundTrip
import Woos.Browser.Bytes
import Woos.Browser.Page
import Woos.Browser.Parser
import Woos.Browser.Safety
import Woos.Sched.Ticks
import Woos.Wasi.Accesses
import Woos.Vfs.Files
import Woos.Wasi.Seek
import Woos.Wasi.Positioned
import Woos.Http.Chunks
import Woos.Http.Unchunk
import Woos.Http.Message
import Woos.Http.Complete
import Woos.Http.Body
import Woos.Http.Url
import Woos.Http.Request
import Woos.Http.Redirect
import Woos.Lib.Calls
import Woos.Http.Fetch
import Woos.Http.Save
import Woos.Window.Order
import Woos.Fb.Compose
import Woos.Window.Restore
import Woos.Fb.Fill
import Woos.Image.Bmp
import Woos.Ps2.Modifiers
import Woos.Image.Bounds
import Woos.Image.Scale
import Woos.Lib.Painting
import Woos.Image.Blit
import Woos.Image.Direct
import Woos.Lib.Headers
import Woos.Lib.Wrapping
import Woos.Terminal.Grid
import Woos.AppHeap.Basic
import Woos.AppHeap.Refinement
import Woos.AppHeap.Live
import Woos.AppHeap.Session
import Woos.Explorer.Paste
import Woos.Explorer.Listing
import Woos.Explorer.Names
import Woos.Lib.StringBuffer
import Woos.Explorer.Paths
import Woos.Compositor.Recycle
import Woos.Browser.Resolve
import Woos.Browser.Navigate
import Woos.Browser.Encoding
import Woos.Browser.Keys
import Woos.Ps2.Packets
import Woos.Browser.History
import Woos.Notepad.Undo
import Woos.Lib.Visits
import Woos.BuildFat.Basic
import Woos.BuildFat.Volume
import Woos.BuildFat.Directory
import Woos.BuildFat.Reading
import Woos.BuildFat.Image
import Woos.BuildFat.Build
import Woos.BuildFat.Contents
import Woos.Lib.Numerals
import Woos.Net.Strings
import Woos.Printf.Basic
import Woos.Printf.Directives
import Woos.Printf.Numbers
import Woos.Printf.Output
import Woos.Lib.Transfers
import Woos.Storage.Basic
import Woos.Storage.Ahci
import Woos.Storage.Ata
import Woos.Storage.Diskio
import Woos.Storage.Exact
import Woos.Gpu.Control
import Woos.Gpu.Sessions
import Woos.Gpu.Presents
import Woos.Fetch.Shows
import Woos.Wasm.RunFile
import Woos.VirtioNet.Frames
import Woos.Text.Draw
import Woos.Compositor.Shell
import Woos.Compositor.Capture
import Woos.Compositor.Routing
import Woos.Compositor.Damage
import Woos.Compositor.Icons
