import InternetWavPlayer.PlaylistBounds
import InternetWavPlayer.Provenance

/-!
# What a page does about a message

A message is applied by the step that switches the page for its bit, or that
calls the handler with the event it left.  Such a step does what the page does
about that key: another page is entered, a song is selected, the volume is set,
the player is started, stopped, paused or resumed.
-/

namespace InternetWavPlayer.Reactions

open InternetWavPlayer.Run
open InternetWavPlayer.LcdEvent
open InternetWavPlayer.Songlist
open InternetWavPlayer.Webclient
open InternetWavPlayer.Pages
open InternetWavPlayer.LcdThread
open InternetWavPlayer.Dispatch
open InternetWavPlayer.Scene
open InternetWavPlayer.Effects
open InternetWavPlayer.Playlists
open InternetWavPlayer.Listing
open InternetWavPlayer.PlaylistBounds
open InternetWavPlayer.KeyPipeline
open InternetWavPlayer.Provenance

/-! ## The reactions -/

/-- The statics when the handler of a due page is called. -/
def called (scene : View) : Statics :=
  scene.statics.log (.handler scene.page .dynamicContent scene.event)

section Due

variable {env : Env} {scene : View} {done : Statics}

/-- The scene once the handler of a due page returned. -/
def handled (scene : View) (done : Statics) : View :=
  { scene with
    pc := .delay
    event := dueEvent scene.page scene.event
    cnt := 0
    statics := done }

end Due

/-! ## A page that is entered -/

/-- The scene once another page was entered. -/
def entered (target : Nat) (shown : Statics) : View where
  pc := .refresh
  page := target
  content := .staticContent
  event := shownEvent target .enter
  cnt := menuRefreshTime target
  statics := shown

section Switch

variable {env : Env} {scene : View} {target : Nat} {shown : Statics}

end Switch

/-! ## A message that is applied -/

/-- What holds of the threads in every run. -/
structure Grounded (tagged : Tagged) : Prop where
  provenant : Provenant tagged
  lists : ListInvariant (view tagged.threads.lcd)

/-- The playlist belongs to the LCD thread. -/
theorem Grounded.goes
    {size : Nat} {input : KeyPipeline.Input} {before after : Tagged}
    (grounded : Grounded before) (goes : Goes size before input after)
    (base : Base after.threads) : Grounded after := by
  refine ⟨provenant_goes grounded.provenant goes base, ?_⟩
  have lists := grounded.lists
  cases goes with
  | queue accepted received drops => exact lists
  | receive empty accepted received message => exact lists
  | process hand => exact lists
  | lcd stepped =>
      exact listInvariant_preserved _ _ _ lists
        (step_simulates.viewed grounded.provenant.base.thread stepped)

end InternetWavPlayer.Reactions
