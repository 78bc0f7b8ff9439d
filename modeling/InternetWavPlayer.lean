import InternetWavPlayer.Run
import InternetWavPlayer.LcdEvent
import InternetWavPlayer.Drain
import InternetWavPlayer.Overlay
import InternetWavPlayer.Display
import InternetWavPlayer.Songlist
import InternetWavPlayer.Webclient
import InternetWavPlayer.ResponseText
import InternetWavPlayer.Pages
import InternetWavPlayer.LcdThread
import InternetWavPlayer.Dispatch
import InternetWavPlayer.Scene
import InternetWavPlayer.Effects
import InternetWavPlayer.PageSwitch
import InternetWavPlayer.Playlists
import InternetWavPlayer.Listing
import InternetWavPlayer.Fetching
import InternetWavPlayer.PlaylistBounds
import InternetWavPlayer.PlaylistHeap
import InternetWavPlayer.Selection
import InternetWavPlayer.SongCache
import InternetWavPlayer.Wavplayer
import InternetWavPlayer.Handshake
import InternetWavPlayer.Playback
import InternetWavPlayer.Toggles
import InternetWavPlayer.Screen
import InternetWavPlayer.DrawnLists
import InternetWavPlayer.DrawnPages
import InternetWavPlayer.SavedNames
import InternetWavPlayer.AddressWindow
import InternetWavPlayer.DrvLcd
import InternetWavPlayer.Filling
import InternetWavPlayer.ErrorSteps
import InternetWavPlayer.LineDrawing
import InternetWavPlayer.MessageQueue
import InternetWavPlayer.EventQueue
import InternetWavPlayer.Gestures
import InternetWavPlayer.FlexibleButton
import InternetWavPlayer.KeyGestures
import InternetWavPlayer.Highlighting
import InternetWavPlayer.ResourceLedger
import InternetWavPlayer.Scratch
import InternetWavPlayer.ScratchRelease
import InternetWavPlayer.Vsnprintf
import InternetWavPlayer.PlainFormats
import InternetWavPlayer.TextDrawing
import InternetWavPlayer.TextCells
import InternetWavPlayer.SongRows
import InternetWavPlayer.TextRows
import InternetWavPlayer.OutsideText
import InternetWavPlayer.DrawnTexts
import InternetWavPlayer.KeyPipeline
import InternetWavPlayer.Provenance
import InternetWavPlayer.LostKeys
import InternetWavPlayer.Reactions
import InternetWavPlayer.Rectangles
import InternetWavPlayer.GlyphStreams
import InternetWavPlayer.StringLayout
import InternetWavPlayer.Contract
import InternetWavPlayer.CJsonParse
import InternetWavPlayer.CJsonSafety
import InternetWavPlayer.CJsonMemory
import InternetWavPlayer.CJsonPrint
import InternetWavPlayer.CJsonPrinting
import InternetWavPlayer.CJsonReading
import InternetWavPlayer.CJsonRoundTrip
import InternetWavPlayer.CJsonPlaylist
import InternetWavPlayer.ByteMemory
import InternetWavPlayer.Tiling
import InternetWavPlayer.MemHeap
import InternetWavPlayer.HeapChain
import InternetWavPlayer.HeapEdits
import InternetWavPlayer.HeapCalls
import InternetWavPlayer.HeapResizing
import InternetWavPlayer.HeapRuns
import InternetWavPlayer.Ipc
import InternetWavPlayer.IpcMutex
import InternetWavPlayer.IpcSemaphore
import InternetWavPlayer.IpcEvent
import InternetWavPlayer.DisplayEvent
