import Mathlib.Algebra.Ring.Int.Defs
import Sober.App.Keyboard
import Sober.Transition.Run

/-! # The event loop

`main` polls the window's events until none is left, and then does what they asked for: at
the end of each turn the surface is resized, the app started, a game started, and the
pointer's motion passed on. Callbacks that the guest runs, on whatever thread, put events
of their own into the queue. A step of the loop here is one event, or one of the tasks at
the end of a turn; between any two of them the queue can grow. SDL may refuse an event.

A request to join a game sets six variables, one after the other, and nothing keeps the guest
from asking for them meanwhile. Each assignment and each answer is a step. -/
namespace Sober.App
open Transition

inductive MouseButton where
  | left
  | middle
  | right
  | other
  deriving DecidableEq

def MouseButton.id : MouseButton → ℤ
  | .left => 0
  | .right => 1
  | .middle => 3
  | .other => -1

/-- What `SDL_PollEvent` returns. `appStartup`, `startGame` and `reportBatteryStatus` are the
codes of the custom event; `ignored` is every event that no branch looks at. -/
inductive Event where
  | quit
  | key (down : Bool) (scancode : Scancode) (repeats : ℕ)
  | mouseButton (button : MouseButton) (state : Bool)
  | mouseMotion (x y xrel yrel : ℤ)
  | mouseWheel (preciseY : BitVec 32)
  | windowResized
  | windowShown
  | appStartup
  | startGame
  | reportBatteryStatus
  | ignored
  deriving DecidableEq

def Event.isCustom : Event → Bool
  | .appStartup | .startGame | .reportBatteryStatus => true
  | _ => false

/-- What the `StartGameParams` object answers from the `current_` variables. -/
structure StartGameParams where
  placeId : ℤ
  userId : ℤ
  joinRequestType : ℤ
  joinAttemptId : Option String
  joinAttemptOrigin : Option String
  referralPage : Option String
  deriving DecidableEq

def StartGameParams.initial : StartGameParams := ⟨-1, -1, -1, none, none, none⟩

inductive ParamField where
  | placeId
  | userId
  | joinRequestType
  | joinAttemptId
  | joinAttemptOrigin
  | referralPage
  deriving DecidableEq

/-- In the order of `set_start_game_params`. -/
def ParamField.all : List ParamField :=
  [.placeId, .userId, .joinRequestType, .joinAttemptId, .joinAttemptOrigin, .referralPage]

inductive ParamValue where
  | number (value : ℤ)
  | string (value : Option String)
  deriving DecidableEq

namespace StartGameParams

def get (params : StartGameParams) : ParamField → ParamValue
  | .placeId => .number params.placeId
  | .userId => .number params.userId
  | .joinRequestType => .number params.joinRequestType
  | .joinAttemptId => .string params.joinAttemptId
  | .joinAttemptOrigin => .string params.joinAttemptOrigin
  | .referralPage => .string params.referralPage

/-- One assignment of `set_start_game_params`. -/
def assign (params new : StartGameParams) : ParamField → StartGameParams
  | .placeId => { params with placeId := new.placeId }
  | .userId => { params with userId := new.userId }
  | .joinRequestType => { params with joinRequestType := new.joinRequestType }
  | .joinAttemptId => { params with joinAttemptId := new.joinAttemptId }
  | .joinAttemptOrigin => { params with joinAttemptOrigin := new.joinAttemptOrigin }
  | .referralPage => { params with referralPage := new.referralPage }

end StartGameParams

/-- The calls of guest routines, of SDL and of `global_window_destroy`. Positions and
distances are as they were before they are converted to `float`. -/
inductive Action where
  | passKeyEvent (down : Bool) (linuxKeycode androidKeycode : ℕ) (repeated : Bool)
  | passMouseButton (x y : ℤ) (state : Bool) (button : ℤ)
  | passMouseWheel (x y : ℤ) (preciseY : BitVec 32)
  | passMouseMove (x y delX delY : ℤ)
  | updateSurfaceApp
  | startAppWithParams
  | getLaunchId
  | doSubscribeRaw
  | startGameWithParam
  | reportBatteryStatus
  | reportBatteryStateChanged (level state : ℤ)
  | reportThermalStateChanged (state : ℤ)
  | destroyApp
  | setWindowFullscreen (on : Bool)
  | setWindowDisplayMode
  | setRelativeMouseMode (on : Bool)
  | warpMouseInWindow (x y : ℤ)
  | addTimer
  | globalWindowDestroy
  | sdlQuit
  deriving DecidableEq

inductive Record where
  | polled (event : Event)
  | called (action : Action)
  /-- A request to join a game, with what it is going to set the parameters to. -/
  | requested (params : StartGameParams)
  /-- The request is dealt with, and SDL has taken its event or not. -/
  | finished (pushed : Bool)
  /-- The guest asked for a parameter. -/
  | answered (field : ParamField) (value : ParamValue)
  deriving DecidableEq

def Record.isParam : Record → Bool
  | .polled _ | .called _ => false
  | .requested _ | .finished _ | .answered _ _ => true

/-- A run of `MessageBusCallback.run`, with the assignments that it has yet to make. -/
structure JoinCallback where
  params : StartGameParams
  remaining : List ParamField

inductive Phase where
  | polling
  | resize
  | startup
  | gameStart
  | mouseMotion
  | exited
  deriving DecidableEq

/-- The variables of `main`, the queue, the parameters of a game, and the callbacks that are
setting them. -/
structure AppState where
  isFullscreen : Bool
  isRunning : Bool
  windowPresented : Bool
  cursorGrabbed : Bool
  cursorLocked : Bool
  startupTask : Bool
  gameStartTask : Bool
  resizeTask : Bool
  mouseX : ℤ
  mouseY : ℤ
  frameDelX : ℤ
  frameDelY : ℤ
  mouseMotionTask : Bool
  phase : Phase
  queue : List Event
  params : StartGameParams
  callbacks : List JoinCallback
  /-- Newest first. -/
  log : List Record

def AppState.initial : AppState :=
  ⟨false, true, false, false, false, false, false, false, -1, -1, 0, 0, false, .polling, [],
    .initial, [], []⟩

inductive AppFault where
  | assertionFailed
  | overflow
  | exited
  | misplaced
  deriving DecidableEq

section Loop

def AppState.call (s : AppState) (action : Action) : AppState :=
  { s with log := .called action :: s.log }

/-- An `i32`, whose overflow is undefined. -/
def checked (value : ℤ) : Except AppFault ℤ :=
  if -2147483648 ≤ value ∧ value ≤ 2147483647 then .ok value else .error .overflow

def pressKey (scancode : Scancode) (s : AppState) : AppState :=
  if scancode = .f11 then
    if s.isFullscreen then
      { s with isFullscreen := false }.call (.setWindowFullscreen false)
    else
      (({ s with isFullscreen := true, cursorGrabbed := true }.call
        (.setWindowFullscreen true)).call .setWindowDisplayMode).call (.setRelativeMouseMode true)
  else if scancode = .escape then
    { s with cursorGrabbed := false }.call (.setRelativeMouseMode false)
  else s

/-- The branch of both key events. The table is only as long as the assertion says. -/
def passKey (down : Bool) (scancode : Scancode) (repeats : ℕ) (s : AppState) :
    Except AppFault AppState :=
  match linuxKeycodes[scancode]? with
  | some linuxKeycode =>
    .ok (s.call (.passKeyEvent down linuxKeycode (androidKeycode scancode) (0 < repeats)))
  | none => .error .assertionFailed

def grabCursor (s : AppState) : AppState :=
  if s.cursorGrabbed then s
  else { s with cursorGrabbed := true }.call (.setRelativeMouseMode true)

def pressButton (button : MouseButton) (state : Bool) (s : AppState) : AppState :=
  let s' := grabCursor (s.call (.passMouseButton s.mouseX s.mouseY state button.id))
  if button = .right then { s' with cursorLocked := state } else s'

/-- A locked pointer is put back where it was. -/
def movePointer (x y : ℤ) (s : AppState) : AppState :=
  if s.cursorLocked then s.call (.warpMouseInWindow s.mouseX s.mouseY)
  else { s with mouseX := x, mouseY := y }

def handle (s : AppState) : Event → Except AppFault AppState
  | .quit => .ok { s with isRunning := false }
  | .key down scancode repeats =>
    passKey down scancode repeats (if down then pressKey scancode s else s)
  | .mouseButton button state => .ok (pressButton button state s)
  | .mouseMotion x y xrel yrel =>
    (checked (s.frameDelX + xrel)).bind fun delX =>
    (checked (s.frameDelY + yrel)).bind fun delY =>
    .ok (movePointer x y { s with frameDelX := delX, frameDelY := delY, mouseMotionTask := true })
  | .mouseWheel preciseY => .ok (s.call (.passMouseWheel s.mouseX s.mouseY preciseY))
  | .windowResized => .ok { s with resizeTask := true }
  | .windowShown => .ok { s with windowPresented := true }
  | .appStartup => .ok { s with startupTask := true }
  | .startGame => .ok { s with gameStartTask := true }
  | .reportBatteryStatus => .ok (s.call .reportBatteryStatus)
  | .ignored => .ok s

def resize (s : AppState) : AppState :=
  if s.resizeTask then { s with resizeTask := false }.call .updateSurfaceApp else s

/-- The app is started, and asks to be told of requests to join a game. -/
def startup (s : AppState) : AppState :=
  if s.startupTask && s.windowPresented then
    ((({ s with startupTask := false }.call .startAppWithParams).call .getLaunchId).call
      .doSubscribeRaw).call .addTimer
  else s

/-- The routine gets an object that answers from the variables whenever it is asked. `H` is
pressed, for the guest to see that there is a keyboard. -/
def gameStart (s : AppState) : AppState :=
  if s.gameStartTask then
    let linuxKeycode := linuxKeycodes.getD Scancode.h 0
    let androidKeycode := androidKeycode Scancode.h
    (((({ s with gameStartTask := false }.call .startGameWithParam).call
      (.reportBatteryStateChanged 100 5)).call (.reportThermalStateChanged 0)).call
      (.passKeyEvent true linuxKeycode androidKeycode false)).call
      (.passKeyEvent false linuxKeycode androidKeycode false)
  else s

def passMotion (s : AppState) : AppState :=
  if s.mouseMotionTask then
    s.call (.passMouseMove s.mouseX s.mouseY s.frameDelX s.frameDelY)
  else s

/-- The variables of a turn are new in the next one; after the last turn the app is
destroyed. -/
def endFrame (s : AppState) : AppState :=
  let s' := { s with frameDelX := 0, frameDelY := 0, mouseMotionTask := false }
  if s.isRunning then { s' with phase := .polling }
  else (({ s' with phase := .exited }.call .destroyApp).call .globalWindowDestroy).call .sdlQuit

def mainStep (s : AppState) : Except AppFault AppState :=
  match s.phase with
  | .polling =>
    match s.queue with
    | event :: queue => handle { s with queue := queue, log := .polled event :: s.log } event
    | [] => .ok { s with phase := .resize }
  | .resize => .ok { resize s with phase := .startup }
  | .startup => .ok { startup s with phase := .gameStart }
  | .gameStart => .ok { gameStart s with phase := .mouseMotion }
  | .mouseMotion => .ok (endFrame (passMotion s))
  | .exited => .error .exited

end Loop

section Callbacks

structure JoinMessage where
  placeId : Option ℤ
  userId : Option ℤ
  joinAttemptId : Option String
  joinAttemptOrigin : Option String
  referralPage : Option String

/-- What a message asks for, unless it names neither a place nor a user. -/
def JoinMessage.params (message : JoinMessage) : Option StartGameParams :=
  let placeId := message.placeId.getD 0
  let userId := message.userId.getD (-1)
  let request (joinRequestType : ℤ) : StartGameParams :=
    ⟨placeId, userId, joinRequestType, some (message.joinAttemptId.getD ""),
      some (message.joinAttemptOrigin.getD ""), some (message.referralPage.getD "")⟩
  if placeId ≠ 0 ∧ userId = -1 then some (request 0)
  else if userId ≠ -1 then some (request 1)
  else none

/-- `SDL_PushEvent`, which does not always take the event. -/
def AppState.pushEvent (s : AppState) (event : Event) (pushed : Bool) : AppState :=
  if pushed then { s with queue := s.queue ++ [event] } else s

/-- `MessageBusCallback.run` up to `set_start_game_params`. -/
def messageBusCallback (message : JoinMessage) (s : AppState) : AppState :=
  match message.params with
  | some params =>
    { s with
      callbacks := s.callbacks ++ [⟨params, ParamField.all⟩]
      log := .requested params :: s.log }
  | none => s

def assignParam (callback : ℕ) (s : AppState) : Except AppFault AppState :=
  match s.callbacks[callback]? with
  | some ⟨params, field :: remaining⟩ =>
    .ok { s with
      params := s.params.assign params field
      callbacks := s.callbacks.set callback ⟨params, remaining⟩ }
  | _ => .error .misplaced

/-- The end of `MessageBusCallback.run`. -/
def pushStartGame (callback : ℕ) (pushed : Bool) (s : AppState) : Except AppFault AppState :=
  match s.callbacks[callback]? with
  | some ⟨_, []⟩ =>
    .ok ({ s with
      callbacks := s.callbacks.eraseIdx callback
      log := .finished pushed :: s.log }.pushEvent .startGame pushed)
  | _ => .error .misplaced

def getParam (field : ParamField) (s : AppState) : AppState :=
  { s with log := .answered field (s.params.get field) :: s.log }

def onDataModelNotification (type info : String) (pushed : Bool) (s : AppState) : AppState :=
  if type = "APP_READY" ∧ info = "Startup" then s.pushEvent .appStartup pushed else s

end Callbacks

inductive AppEvent where
  /-- SDL puts an event of the window or of a device into the queue. -/
  | push (event : Event)
  | dataModelNotification (type info : String) (pushed : Bool)
  | messageBus (message : JoinMessage)
  | assignParam (callback : ℕ)
  | pushStartGame (callback : ℕ) (pushed : Bool)
  | getParam (field : ParamField)
  | batteryTimer (pushed : Bool)
  | main

namespace AppEvent

def step (s : AppState) : AppEvent → Except AppFault AppState
  | push event => .ok (s.pushEvent event true)
  | dataModelNotification type info pushed => .ok (onDataModelNotification type info pushed s)
  | messageBus message => .ok (messageBusCallback message s)
  | assignParam callback => App.assignParam callback s
  | pushStartGame callback pushed => App.pushStartGame callback pushed s
  | getParam field => .ok (App.getParam field s)
  | batteryTimer pushed => .ok (s.pushEvent .reportBatteryStatus pushed)
  | main => mainStep s

/-- The custom events are the program's own. -/
def Allowed (_ : AppState) : AppEvent → Prop
  | push event => event.isCustom = false
  | _ => True

/-- A message that is dealt with from beginning to end, while nothing else happens. -/
def join (message : JoinMessage) : List AppEvent :=
  .messageBus message :: (List.replicate 6 (.assignParam 0) ++ [.pushStartGame 0 true])

end AppEvent

abbrev AppRun (es : List AppEvent) (s : AppState) : Prop :=
  Run AppEvent.step AppEvent.Allowed .initial es s

section Inversion
variable {s s' : AppState} {callback : ℕ} {pushed : Bool}

theorem assignParam_ok (h : assignParam callback s = .ok s') :
    ∃ params field remaining, s.callbacks[callback]? = some ⟨params, field :: remaining⟩ ∧
      s' = { s with
        params := s.params.assign params field
        callbacks := s.callbacks.set callback ⟨params, remaining⟩ } := by
  unfold assignParam at h
  split at h
  · cases h
    exact ⟨_, _, _, ‹_›, rfl⟩
  · cases h

theorem pushStartGame_ok (h : pushStartGame callback pushed s = .ok s') :
    ∃ params, s.callbacks[callback]? = some ⟨params, []⟩ ∧
      s' = { s with
        callbacks := s.callbacks.eraseIdx callback
        log := .finished pushed :: s.log }.pushEvent .startGame pushed := by
  unfold pushStartGame at h
  split at h
  · cases h
    exact ⟨_, ‹_›, rfl⟩
  · cases h

end Inversion

end Sober.App
