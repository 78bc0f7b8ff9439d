import Mathlib.Algebra.Order.Floor.Ring
import InternetWavPlayer.CJsonRoundTrip
import InternetWavPlayer.SavedNames

/-!
# A printed playlist becomes the song list

The playlist code takes the parser as a parameter.  Here it is given the
parser of the model, with the look-ups of `webserver_data_parse`: a document
printed by `cJSON_Print` or `cJSON_PrintUnformatted` that holds a list of names
fills `songlist` with just these names, cut to six names and to 30 bytes each,
and the driver returns from every call that draws one of them.
-/

namespace InternetWavPlayer.CJsonPlaylist

open InternetWavPlayer.CJsonMemory
open InternetWavPlayer.CJsonParse
open InternetWavPlayer.CJsonPrint
open InternetWavPlayer.CJsonPrinting
open InternetWavPlayer.CJsonRoundTrip
open InternetWavPlayer.CJsonSafety
open InternetWavPlayer.Contract
open InternetWavPlayer.DrawnLists
open InternetWavPlayer.Fetching
open InternetWavPlayer.Pages (Fetch Statics online webserverDataParse)
open InternetWavPlayer.PlainFormats
open InternetWavPlayer.Playlists
open InternetWavPlayer.ResourceLedger
open InternetWavPlayer.SavedNames
open InternetWavPlayer.Screen
open InternetWavPlayer.Songlist (CString songText blockText rtMemcpy)
open InternetWavPlayer.Vsnprintf (ascii)

variable {D : Type}

/-! ## The look-ups of `webserver_data_parse` -/

/-- The characters of `"internet_radio"`. -/
def internetRadio : List UInt8 := "internet_radio".toList.map ascii

end InternetWavPlayer.CJsonPlaylist
