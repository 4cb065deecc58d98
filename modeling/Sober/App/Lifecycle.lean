import Sober.App.EventLoop

/-! # Starting and ending

When the app and its games are started, over a whole run of the event loop: what the guest
asks for is done, not before the window is there, and the guest is left alone after the end.
What a game is told of the request it was started for depends on when it asks. -/
namespace Sober.App
open Transition

section Log

/-- The app was asked to start and has not been started since. -/
def startupDue : List Record → Bool
  | [] => false
  | .polled .appStartup :: _ => true
  | .called .startAppWithParams :: _ => false
  | _ :: older => startupDue older

/-- The app is started only once its window has been shown. -/
def Shown : List Record → Prop
  | [] => True
  | .called .startAppWithParams :: older => .polled .windowShown ∈ older ∧ Shown older
  | _ :: older => Shown older

def lastRequest : List Record → StartGameParams
  | [] => .initial
  | .requested params :: _ => params
  | _ :: older => lastRequest older

def writing : List Record → Bool
  | [] => false
  | .requested _ :: _ => true
  | .finished _ :: _ => false
  | _ :: older => writing older

/-- SDL took the event of a request after the last game was started. -/
def gameDue : List Record → Bool
  | [] => false
  | .finished true :: _ => true
  | .called .startGameWithParam :: _ => false
  | _ :: older => gameDue older

/-- Between requests the guest is told what the last one asked for. -/
def Answered : List Record → Prop
  | [] => True
  | .answered field value :: older =>
    (writing older = false → value = (lastRequest older).get field) ∧ Answered older
  | _ :: older => Answered older

def requests : List Record → ℕ
  | [] => 0
  | .requested _ :: older => requests older + 1
  | _ :: older => requests older

/-- The requests whose event SDL took. -/
def pushes : List Record → ℕ
  | [] => 0
  | .finished true :: older => pushes older + 1
  | _ :: older => pushes older

def gameStarts : List Record → ℕ
  | [] => 0
  | .called .startGameWithParam :: older => gameStarts older + 1
  | _ :: older => gameStarts older

/-- The app is destroyed after a `quit`, and nothing follows but the end of its window and of
SDL. -/
def Ended : List Record → Prop
  | [] => True
  | .called action :: older =>
    (.called .destroyApp ∈ older → action = .globalWindowDestroy ∨ action = .sdlQuit) ∧
      (action = .destroyApp → .polled .quit ∈ older) ∧ Ended older
  | _ :: older => Ended older

end Log

structure Alive (s : AppState) : Prop where
  presented : s.windowPresented = true ↔ .polled .windowShown ∈ s.log
  startup : s.startupTask = startupDue s.log
  shown : Shown s.log
  /-- Past its task, a turn leaves only what waits for the window. -/
  waits : s.phase = .gameStart ∨ s.phase = .mouseMotion → s.startupTask = true →
    s.windowPresented = false
  game : gameDue s.log = true → .startGame ∈ s.queue ∨ s.gameStartTask = true
  running : s.isRunning = false → .polled .quit ∈ s.log
  exited : .called .destroyApp ∈ s.log → s.phase = .exited
  ended : Ended s.log

theorem alive_initial : Alive .initial where
  presented := by simp [AppState.initial]
  startup := rfl
  shown := trivial
  waits := by simp [AppState.initial]
  game := by simp [AppState.initial, gameDue]
  running := by simp [AppState.initial]
  exited := by simp [AppState.initial]
  ended := trivial

section Ordinary

def Action.isOrdinary : Action → Bool
  | .startAppWithParams | .startGameWithParam | .destroyApp | .globalWindowDestroy
  | .sdlQuit => false
  | _ => true

def Event.isOrdinary : Event → Bool
  | .quit | .windowShown | .appStartup | .startGame => false
  | _ => true

/-- One state follows another by nothing but such calls, and changes to the variables about
the window and the devices. -/
structure Ordinary (s s' : AppState) : Prop where
  windowPresented : s'.windowPresented = s.windowPresented
  startupTask : s'.startupTask = s.startupTask
  gameStartTask : s'.gameStartTask = s.gameStartTask
  isRunning : s'.isRunning = s.isRunning
  phase : s'.phase = s.phase
  queue : s'.queue = s.queue
  params : s'.params = s.params
  callbacks : s'.callbacks = s.callbacks
  log : ∃ actions : List Action, s'.log = actions.map .called ++ s.log ∧
    ∀ action ∈ actions, action.isOrdinary = true

namespace Ordinary
variable {s s' s'' : AppState}

theorem refl (s : AppState) : Ordinary s s :=
  ⟨rfl, rfl, rfl, rfl, rfl, rfl, rfl, rfl, [], rfl, List.forall_mem_nil _⟩

theorem trans (h : Ordinary s s') (h' : Ordinary s' s'') : Ordinary s s'' := by
  obtain ⟨actions, hlog, hactions⟩ := h.log
  obtain ⟨actions', hlog', hactions'⟩ := h'.log
  refine ⟨h'.windowPresented.trans h.windowPresented, h'.startupTask.trans h.startupTask,
    h'.gameStartTask.trans h.gameStartTask, h'.isRunning.trans h.isRunning,
    h'.phase.trans h.phase, h'.queue.trans h.queue, h'.params.trans h.params,
    h'.callbacks.trans h.callbacks, actions' ++ actions, ?_, ?_⟩
  · rw [hlog', hlog, List.map_append, List.append_assoc]
  · exact List.forall_mem_append.mpr ⟨hactions', hactions⟩

theorem call (h : Ordinary s s') {action : Action} (haction : action.isOrdinary = true) :
    Ordinary s (s'.call action) :=
  h.trans ⟨rfl, rfl, rfl, rfl, rfl, rfl, rfl, rfl, [action], rfl,
    List.forall_mem_singleton.mpr haction⟩

theorem devices (h : s' = { s with
      isFullscreen := s'.isFullscreen
      cursorGrabbed := s'.cursorGrabbed
      cursorLocked := s'.cursorLocked
      resizeTask := s'.resizeTask
      mouseX := s'.mouseX
      mouseY := s'.mouseY
      frameDelX := s'.frameDelX
      frameDelY := s'.frameDelY
      mouseMotionTask := s'.mouseMotionTask }) : Ordinary s s' := by
  rw [h]
  exact ⟨rfl, rfl, rfl, rfl, rfl, rfl, rfl, rfl, [], rfl, List.forall_mem_nil _⟩

theorem pressKey (scancode : Scancode) (s : AppState) : Ordinary s (pressKey scancode s) := by
  unfold App.pressKey
  split_ifs
  · refine call ?_ rfl
    exact devices rfl
  · refine call (call (call ?_ rfl) rfl) rfl
    exact devices rfl
  · refine call ?_ rfl
    exact devices rfl
  · exact refl s

theorem grabCursor (h : Ordinary s s') : Ordinary s (grabCursor s') := by
  unfold App.grabCursor
  split_ifs
  · exact h
  · refine call ?_ rfl
    exact h.trans (devices rfl)

theorem pressButton (button : MouseButton) (state : Bool) (s : AppState) :
    Ordinary s (pressButton button state s) := by
  have h : Ordinary s (App.grabCursor (s.call (.passMouseButton s.mouseX s.mouseY state
    button.id))) := ((refl s).call rfl).grabCursor
  unfold App.pressButton
  dsimp only
  split_ifs
  · exact h.trans (devices rfl)
  · exact h

theorem movePointer (h : Ordinary s s') (x y : ℤ) : Ordinary s (movePointer x y s') := by
  unfold App.movePointer
  split_ifs
  · exact h.call rfl
  · exact h.trans (devices rfl)

theorem passKey (h : Ordinary s s') {down : Bool} {scancode : Scancode} {repeats : ℕ}
    (hpass : passKey down scancode repeats s' = .ok s'') : Ordinary s s'' := by
  unfold App.passKey at hpass
  split at hpass
  · cases hpass
    exact h.call rfl
  · cases hpass

theorem handle {event : Event} (hevent : event.isOrdinary = true)
    (hhandle : handle s event = .ok s') : Ordinary s s' := by
  cases event with
  | quit | windowShown | appStartup | startGame => cases hevent
  | key down scancode repeats =>
    refine passKey ?_ hhandle
    split_ifs
    · exact pressKey scancode s
    · exact refl s
  | mouseButton button state =>
    cases hhandle
    exact pressButton button state s
  | mouseMotion x y xrel yrel =>
    obtain ⟨delX, -, hhandle⟩ := ok_of_bind hhandle
    obtain ⟨delY, -, hhandle⟩ := ok_of_bind hhandle
    cases hhandle
    refine movePointer ?_ x y
    exact devices rfl
  | mouseWheel preciseY =>
    cases hhandle
    exact (refl s).call rfl
  | windowResized =>
    cases hhandle
    exact devices rfl
  | reportBatteryStatus =>
    cases hhandle
    exact (refl s).call rfl
  | ignored =>
    cases hhandle
    exact refl s

theorem resize (s : AppState) : Ordinary s (resize s) := by
  unfold App.resize
  split_ifs
  · refine call ?_ rfl
    exact devices rfl
  · exact refl s

theorem passMotion (s : AppState) : Ordinary s (passMotion s) := by
  unfold App.passMotion
  split_ifs
  · exact (refl s).call rfl
  · exact refl s

end Ordinary

end Ordinary

namespace Alive
variable {s s' : AppState}

theorem call (h : Alive s) (hphase : s.phase ≠ .exited) {action : Action}
    (haction : action.isOrdinary = true) : Alive (s.call action) := by
  have hdestroy : .called .destroyApp ∉ s.log := fun hmem => hphase (h.exited hmem)
  have hpresented : s.windowPresented = true ↔
      .polled .windowShown ∈ Record.called action :: s.log := by
    rw [h.presented, List.mem_cons, or_iff_right (by simp)]
  have hne : action ≠ .destroyApp := by
    rintro rfl
    cases haction
  have hexited : .called .destroyApp ∈ Record.called action :: s.log → s.phase = .exited := by
    rw [List.mem_cons, Record.called.injEq]
    exact fun hmem => hmem.elim (fun heq => absurd heq.symm hne) h.exited
  have hrunning : s.isRunning = false → .polled .quit ∈ Record.called action :: s.log :=
    fun hquit => List.mem_cons_of_mem _ (h.running hquit)
  have hended : Ended (.called action :: s.log) :=
    ⟨fun hmem => absurd hmem hdestroy, fun heq => absurd heq hne, h.ended⟩
  cases action with
  | startAppWithParams | startGameWithParam | destroyApp | globalWindowDestroy | sdlQuit =>
    cases haction
  | _ => exact ⟨hpresented, h.startup, h.shown, h.waits, h.game, hrunning, hexited, hended⟩

theorem ordinary (h : Alive s) (hphase : s.phase ≠ .exited) (hs : Ordinary s s') : Alive s' := by
  obtain ⟨actions, hlog, hactions⟩ := hs.log
  have hcalls : Alive { s with log := actions.map .called ++ s.log } := by
    clear hlog
    induction actions with
    | nil => exact h
    | cons action actions ih =>
      rw [List.forall_mem_cons] at hactions
      exact (ih hactions.2).call hphase hactions.1
  constructor
  · rw [hs.windowPresented, hlog]
    exact hcalls.presented
  · rw [hs.startupTask, hlog]
    exact hcalls.startup
  · rw [hlog]
    exact hcalls.shown
  · rw [hs.phase, hs.startupTask, hs.windowPresented]
    exact hcalls.waits
  · rw [hs.queue, hs.gameStartTask, hlog]
    exact hcalls.game
  · rw [hs.isRunning, hlog]
    exact hcalls.running
  · rw [hs.phase, hlog]
    exact hcalls.exited
  · rw [hlog]
    exact hcalls.ended

/-- A turn of the polling loop. -/
theorem handle (h : Alive s) (hphase : s.phase = .polling) {event : Event} {queue : List Event}
    (hqueue : s.queue = event :: queue)
    (hhandle : handle { s with queue := queue, log := .polled event :: s.log } event = .ok s') :
    Alive s' := by
  have hwaits : ∀ {P : Prop}, s.phase = .gameStart ∨ s.phase = .mouseMotion → P := by
    simp [hphase]
  have hmem : ∀ {r : Record}, r ∈ s.log → r ∈ Record.polled event :: s.log :=
    fun hr => List.mem_cons_of_mem _ hr
  have hexited : .called .destroyApp ∈ Record.polled event :: s.log → s.phase = .exited := by
    simpa using h.exited
  have hpresented : event ≠ .windowShown →
      (s.windowPresented = true ↔ .polled .windowShown ∈ Record.polled event :: s.log) := by
    intro hne
    rw [h.presented, List.mem_cons, Record.polled.injEq, or_iff_right hne.symm]
  have hgame : event ≠ .startGame → gameDue s.log = true →
      .startGame ∈ queue ∨ s.gameStartTask = true := by
    intro hne hdue
    refine (h.game hdue).imp_left fun hin => ?_
    rw [hqueue] at hin
    exact (List.mem_cons.mp hin).resolve_left hne.symm
  have hrunning : s.isRunning = false → .polled .quit ∈ Record.polled event :: s.log :=
    fun hquit => hmem (h.running hquit)
  have hlive : s.phase ≠ .exited := by simp [hphase]
  cases event with
  | quit =>
    cases hhandle
    exact ⟨hpresented (by simp), h.startup, h.shown, hwaits, hgame (by simp),
      fun _ => List.mem_cons_self, hexited, h.ended⟩
  | windowShown =>
    cases hhandle
    exact ⟨iff_of_true rfl List.mem_cons_self, h.startup, h.shown, hwaits,
      hgame (by simp), hrunning, hexited, h.ended⟩
  | appStartup =>
    cases hhandle
    exact ⟨hpresented (by simp), rfl, h.shown, hwaits, hgame (by simp),
      hrunning, hexited, h.ended⟩
  | startGame =>
    cases hhandle
    exact ⟨hpresented (by simp), h.startup, h.shown, hwaits, fun _ => .inr rfl,
      hrunning, hexited, h.ended⟩
  | _ =>
    refine ordinary ?_ ?_ (Ordinary.handle (by rfl) hhandle)
    swap
    · exact hlive
    exact ⟨hpresented (by simp), h.startup, h.shown, hwaits, hgame (by simp),
      hrunning, hexited, h.ended⟩

/-- Going on to the next task, where nothing but a missing window keeps the app from being
started. -/
theorem withPhase (h : Alive s) (hlive : s.phase ≠ .exited) {phase : Phase}
    (hwaits : phase = .gameStart ∨ phase = .mouseMotion → s.startupTask = true →
      s.windowPresented = false) : Alive { s with phase := phase } where
  presented := h.presented
  startup := h.startup
  shown := h.shown
  waits := hwaits
  game := h.game
  running := h.running
  exited hmem := absurd (h.exited hmem) hlive
  ended := h.ended

/-- The start-up task, and the step to the next. -/
theorem startupStep (h : Alive s) (hlive : s.phase ≠ .exited) :
    Alive { App.startup s with phase := .gameStart } := by
  have hdestroy : .called .destroyApp ∉ s.log := fun hmem => hlive (h.exited hmem)
  unfold App.startup
  split_ifs with htask
  · rw [Bool.and_eq_true] at htask
    have hstarted : Alive ({ s with startupTask := false }.call .startAppWithParams) := by
      refine ⟨?_, rfl, ⟨h.presented.mp htask.2, h.shown⟩, fun _ => nofun, h.game,
        fun hquit => List.mem_cons_of_mem _ (h.running hquit), ?_,
        fun hmem => absurd hmem hdestroy, nofun, h.ended⟩
      · simp [AppState.call, h.presented]
      · simpa [AppState.call] using h.exited
    have hsubscribed : Alive (((({ s with startupTask := false }.call .startAppWithParams).call
        .getLaunchId).call .doSubscribeRaw).call .addTimer) :=
      ((hstarted.call hlive rfl).call hlive rfl).call hlive rfl
    exact hsubscribed.withPhase hlive fun _ => nofun
  · refine h.withPhase hlive fun _ htask' => ?_
    simpa [htask'] using htask

theorem gameStartStep (h : Alive s) (hphase : s.phase = .gameStart) :
    Alive { gameStart s with phase := .mouseMotion } := by
  have hlive : s.phase ≠ .exited := by simp [hphase]
  have hdestroy : .called .destroyApp ∉ s.log := fun hmem => hlive (h.exited hmem)
  have hwaits := h.waits (.inl hphase)
  unfold gameStart
  split_ifs
  · have hstarted : Alive ({ s with gameStartTask := false }.call .startGameWithParam) := by
      refine ⟨?_, h.startup, h.shown, h.waits, nofun,
        fun hquit => List.mem_cons_of_mem _ (h.running hquit), ?_,
        fun hmem => absurd hmem hdestroy, nofun, h.ended⟩
      · simp [AppState.call, h.presented]
      · simpa [AppState.call] using h.exited
    have hkeyboard : Alive ((((({ s with gameStartTask := false }.call
        .startGameWithParam).call (.reportBatteryStateChanged 100 5)).call
        (.reportThermalStateChanged 0)).call
        (.passKeyEvent true (linuxKeycodes.getD Scancode.h 0) (androidKeycode .h) false)).call
        (.passKeyEvent false (linuxKeycodes.getD Scancode.h 0) (androidKeycode .h) false)) :=
      (((hstarted.call hlive rfl).call hlive rfl).call hlive rfl).call hlive rfl
    exact hkeyboard.withPhase hlive fun _ => hwaits
  · exact h.withPhase hlive fun _ => hwaits

theorem endFrameStep (h : Alive s) (hlive : s.phase ≠ .exited) : Alive (endFrame s) := by
  have hdestroy : .called .destroyApp ∉ s.log := fun hmem => hlive (h.exited hmem)
  unfold endFrame
  split_ifs with hrunning
  · exact ⟨h.presented, h.startup, h.shown, nofun, h.game, h.running,
      fun hmem => absurd hmem hdestroy, h.ended⟩
  · have hquit := h.running (Bool.eq_false_iff.mpr hrunning)
    refine ⟨?_, h.startup, h.shown, nofun, h.game, fun _ => ?_, fun _ => rfl,
      fun _ => .inr rfl, nofun, fun _ => .inl rfl, nofun, fun hmem => absurd hmem hdestroy,
      fun _ => hquit, h.ended⟩
    · simp [AppState.call, h.presented]
    · simp [AppState.call, hquit]

theorem mainStep (h : Alive s) (hstep : mainStep s = .ok s') : Alive s' := by
  unfold App.mainStep at hstep
  split at hstep
  · rename_i hphase
    split at hstep
    · rename_i event queue hqueue
      exact h.handle hphase hqueue hstep
    · cases hstep
      exact h.withPhase (by simp [hphase]) (by simp)
  · rename_i hphase
    cases hstep
    have hresize := h.ordinary (by simp [hphase]) (Ordinary.resize s)
    refine hresize.withPhase ?_ (by simp)
    simp [(Ordinary.resize s).phase, hphase]
  · rename_i hphase
    cases hstep
    exact h.startupStep (by simp [hphase])
  · rename_i hphase
    cases hstep
    exact h.gameStartStep hphase
  · rename_i hphase
    cases hstep
    have hpass := h.ordinary (by simp [hphase]) (Ordinary.passMotion s)
    refine hpass.endFrameStep ?_
    simp [(Ordinary.passMotion s).phase, hphase]
  · cases hstep

theorem pushEvent (h : Alive s) (event : Event) (pushed : Bool) :
    Alive (s.pushEvent event pushed) := by
  unfold AppState.pushEvent
  split_ifs
  · exact ⟨h.presented, h.startup, h.shown, h.waits,
      fun hdue => (h.game hdue).imp_left (List.mem_append_left _), h.running, h.exited, h.ended⟩
  · exact h

/-- The parameters do not matter. -/
theorem elsewhere (h : Alive s) {params : StartGameParams} {callbacks : List JoinCallback} :
    Alive { s with params := params, callbacks := callbacks } :=
  ⟨h.presented, h.startup, h.shown, h.waits, h.game, h.running, h.exited, h.ended⟩

theorem record (h : Alive s) {r : Record} (hr : r.isParam = true)
    (hgame : gameDue (r :: s.log) = true → .startGame ∈ s.queue ∨ s.gameStartTask = true) :
    Alive { s with log := r :: s.log } := by
  have hpresented : s.windowPresented = true ↔ .polled .windowShown ∈ r :: s.log := by
    rw [h.presented, List.mem_cons, or_iff_right]
    rintro rfl
    cases hr
  have hrunning : s.isRunning = false → .polled .quit ∈ r :: s.log :=
    fun hquit => List.mem_cons_of_mem _ (h.running hquit)
  have hexited : .called .destroyApp ∈ r :: s.log → s.phase = .exited := by
    refine fun hmem => h.exited ((List.mem_cons.mp hmem).resolve_left ?_)
    rintro rfl
    cases hr
  cases r with
  | polled | called => cases hr
  | _ => exact ⟨hpresented, h.startup, h.shown, h.waits, hgame, hrunning, hexited, h.ended⟩

/-- The end of a request. -/
theorem finished (h : Alive s) (callbacks : List JoinCallback) (pushed : Bool) :
    Alive ({ s with callbacks := callbacks, log := .finished pushed :: s.log }.pushEvent
      .startGame pushed) := by
  cases pushed with
  | false => exact (h.record (r := .finished false) rfl h.game).elsewhere
  | true =>
    have hpushed := h.pushEvent .startGame true
    exact (hpushed.record (r := .finished true) rfl
      fun _ => .inl (List.mem_append_right _ List.mem_cons_self)).elsewhere

theorem step (h : Alive s) {e : AppEvent} (hstep : e.step s = .ok s') : Alive s' := by
  cases e with
  | push event =>
    cases hstep
    exact h.pushEvent event true
  | dataModelNotification type info pushed =>
    cases hstep
    unfold onDataModelNotification
    split_ifs
    · exact h.pushEvent _ _
    · exact h
  | messageBus message =>
    cases hstep
    unfold messageBusCallback
    split
    · exact (h.record (r := .requested _) rfl h.game).elsewhere
    · exact h
  | assignParam callback =>
    obtain ⟨params, field, remaining, -, rfl⟩ := assignParam_ok hstep
    exact h.elsewhere
  | pushStartGame callback pushed =>
    obtain ⟨params, -, rfl⟩ := pushStartGame_ok hstep
    exact h.finished _ _
  | getParam field =>
    cases hstep
    exact h.record rfl h.game
  | batteryTimer pushed =>
    cases hstep
    exact h.pushEvent _ _
  | main => exact h.mainStep hstep

end Alive

theorem AppRun.alive {es : List AppEvent} {s : AppState} (h : AppRun es s) : Alive s :=
  h.invariant (fun _ _ _ hs _ hstep => hs.step hstep) alive_initial

/-- Every game is started for an event of its own, and every event pushed for a request. -/
structure Owed (s : AppState) : Prop where
  started : gameStarts s.log + s.queue.count .startGame + s.gameStartTask.toNat ≤ pushes s.log
  pushed : pushes s.log + s.callbacks.length ≤ requests s.log

namespace Owed
variable {s s' : AppState}

theorem ordinary (h : Owed s) (hs : Ordinary s s') : Owed s' := by
  obtain ⟨actions, hlog, hactions⟩ := hs.log
  have hcalls : gameStarts (actions.map .called ++ s.log) = gameStarts s.log ∧
      pushes (actions.map .called ++ s.log) = pushes s.log ∧
      requests (actions.map .called ++ s.log) = requests s.log := by
    clear hlog
    induction actions with
    | nil => exact ⟨rfl, rfl, rfl⟩
    | cons action actions ih =>
      rw [List.forall_mem_cons] at hactions
      cases action with
      | startAppWithParams | startGameWithParam | destroyApp | globalWindowDestroy | sdlQuit =>
        cases hactions.1
      | _ => exact ih hactions.2
  constructor
  · rw [hlog, hs.queue, hs.gameStartTask, hcalls.1, hcalls.2.1]
    exact h.started
  · rw [hlog, hs.callbacks, hcalls.2.1, hcalls.2.2]
    exact h.pushed

theorem handle (h : Owed s) {event : Event} {queue : List Event} (hqueue : s.queue = event :: queue)
    (hhandle : handle { s with queue := queue, log := .polled event :: s.log } event = .ok s') :
    Owed s' := by
  have hstarted := h.started
  rw [hqueue, List.count_cons] at hstarted
  cases event with
  | startGame =>
    cases hhandle
    have hone : gameStarts s.log + queue.count .startGame + 1 ≤ pushes s.log := by
      rw [beq_self_eq_true, if_pos rfl] at hstarted
      omega
    exact ⟨hone, h.pushed⟩
  | quit | windowShown | appStartup =>
    cases hhandle
    exact ⟨hstarted, h.pushed⟩
  | _ =>
    refine ordinary ?_ (Ordinary.handle (by rfl) hhandle)
    exact ⟨hstarted, h.pushed⟩

theorem mainStep (h : Owed s) (hstep : mainStep s = .ok s') : Owed s' := by
  unfold App.mainStep at hstep
  split at hstep
  · split at hstep
    · rename_i event queue hqueue
      exact h.handle hqueue hstep
    · cases hstep
      exact ⟨h.started, h.pushed⟩
  · cases hstep
    have hresize : Owed (resize s) := h.ordinary (Ordinary.resize s)
    exact ⟨hresize.started, hresize.pushed⟩
  · cases hstep
    unfold App.startup
    split_ifs
    · exact ⟨h.started, h.pushed⟩
    · exact ⟨h.started, h.pushed⟩
  · cases hstep
    unfold gameStart
    split_ifs with htask
    · have hstarted := h.started
      rw [htask, Bool.toNat_true] at hstarted
      have hone : gameStarts s.log + 1 + s.queue.count .startGame + 0 ≤ pushes s.log := by
        omega
      exact ⟨hone, h.pushed⟩
    · exact ⟨h.started, h.pushed⟩
  · cases hstep
    have hpass : Owed (passMotion s) := h.ordinary (Ordinary.passMotion s)
    unfold endFrame
    split_ifs
    · exact ⟨hpass.started, hpass.pushed⟩
    · exact ⟨hpass.started, hpass.pushed⟩
  · cases hstep

theorem pushEvent (h : Owed s) {event : Event} (hevent : event ≠ .startGame) (pushed : Bool) :
    Owed (s.pushEvent event pushed) := by
  have hcount : (s.queue ++ [event]).count .startGame = s.queue.count .startGame := by
    rw [List.count_append, List.count_singleton, if_neg (by simpa using hevent), Nat.add_zero]
  unfold AppState.pushEvent
  split_ifs
  · refine ⟨?_, h.pushed⟩
    rw [hcount]
    exact h.started
  · exact h

/-- A callback ends, with its event pushed or not. -/
theorem finished (h : Owed s) {callback : ℕ} {c : JoinCallback}
    (hc : s.callbacks[callback]? = some c) (pushed : Bool) :
    Owed ({ s with
      callbacks := s.callbacks.eraseIdx callback
      log := .finished pushed :: s.log }.pushEvent .startGame pushed) := by
  have hlt : callback < s.callbacks.length := (List.getElem?_eq_some_iff.mp hc).1
  have hlength : (s.callbacks.eraseIdx callback).length + 1 = s.callbacks.length := by
    rw [List.length_eraseIdx_of_lt hlt]
    omega
  have hstarted := h.started
  have hpushed := h.pushed
  cases pushed with
  | false =>
    refine ⟨hstarted, ?_⟩
    change pushes s.log + (s.callbacks.eraseIdx callback).length ≤ requests s.log
    omega
  | true =>
    have hcount : (s.queue ++ [Event.startGame]).count .startGame =
        s.queue.count .startGame + 1 := by simp
    constructor
    · change gameStarts s.log + (s.queue ++ [Event.startGame]).count .startGame +
        s.gameStartTask.toNat ≤ pushes s.log + 1
      omega
    · change pushes s.log + 1 + (s.callbacks.eraseIdx callback).length ≤ requests s.log
      omega

theorem step (h : Owed s) {e : AppEvent} (he : e.Allowed s) (hstep : e.step s = .ok s') :
    Owed s' := by
  cases e with
  | push event =>
    cases hstep
    refine h.pushEvent ?_ true
    rintro rfl
    cases he
  | dataModelNotification type info pushed =>
    cases hstep
    unfold onDataModelNotification
    split_ifs
    · exact h.pushEvent (by simp) pushed
    · exact h
  | messageBus message =>
    cases hstep
    unfold messageBusCallback
    split
    · have hpushed := h.pushed
      refine ⟨h.started, ?_⟩
      simp only [List.length_append, List.length_singleton, pushes, requests]
      omega
    · exact h
  | assignParam callback =>
    obtain ⟨params, field, remaining, -, rfl⟩ := assignParam_ok hstep
    refine ⟨h.started, ?_⟩
    rw [List.length_set]
    exact h.pushed
  | pushStartGame callback pushed =>
    obtain ⟨params, hc, rfl⟩ := pushStartGame_ok hstep
    exact h.finished hc pushed
  | getParam field =>
    cases hstep
    exact ⟨h.started, h.pushed⟩
  | batteryTimer pushed =>
    cases hstep
    exact h.pushEvent (by simp) pushed
  | main => exact h.mainStep hstep

end Owed

theorem AppRun.owed {es : List AppEvent} {s : AppState} (h : AppRun es s) : Owed s :=
  h.invariant (fun _ _ _ hs he hstep => hs.step he hstep) ⟨Nat.le_refl 0, Nat.le_refl 0⟩

/-- Messages are dealt with one at a time. -/
def Serial (s : AppState) (e : AppEvent) : Prop :=
  e.Allowed s ∧ ∀ message, e = .messageBus message → s.callbacks = []

abbrev SerialRun (es : List AppEvent) (s : AppState) : Prop :=
  Run AppEvent.step Serial .initial es s

theorem SerialRun.appRun {es : List AppEvent} {s : AppState} (h : SerialRun es s) : AppRun es s :=
  h.mono fun _ _ hserial => hserial.1

section Message
variable {s : AppState} {message : JoinMessage} {params : StartGameParams}

theorem messageBus_step (hs : s.callbacks = []) (hparams : message.params = some params) :
    AppEvent.step s (.messageBus message) = .ok { s with
      callbacks := [⟨params, ParamField.all⟩]
      log := .requested params :: s.log } := by
  simp [AppEvent.step, messageBusCallback, hparams, hs]

/-- What a whole message leaves, when no other is being dealt with. -/
theorem join_run (hs : s.callbacks = []) (hparams : message.params = some params) :
    Run AppEvent.step Serial s (AppEvent.join message)
      { s with
        params := params
        queue := s.queue ++ [.startGame]
        log := .finished true :: .requested params :: s.log } := by
  refine .cons ⟨trivial, fun _ _ => hs⟩ (messageBus_step hs hparams) (.of_foldlM ?_ ?_)
  · intro e he s
    simp only [List.mem_append, List.mem_replicate, List.mem_singleton] at he
    rcases he with ⟨-, rfl⟩ | rfl <;> exact ⟨trivial, by simp⟩
  · rw [← hs]
    rfl

/-- What is answered after the first of the assignments. -/
theorem torn_run (hs : s.callbacks = []) (hparams : message.params = some params) :
    ∃ s', Run AppEvent.step Serial s
        [.messageBus message, .assignParam 0, .getParam .placeId, .getParam .userId] s' ∧
      s'.log = .answered .userId (.number s.params.userId) ::
        .answered .placeId (.number params.placeId) :: .requested params :: s.log := by
  refine ⟨_, .cons ⟨trivial, fun _ _ => hs⟩ (messageBus_step hs hparams) (.of_foldlM ?_ rfl), rfl⟩
  intro e he s
  simp only [List.mem_cons, List.not_mem_nil, or_false] at he
  rcases he with rfl | rfl | rfl <;> exact ⟨trivial, by simp⟩

end Message

section Loop
variable {s s' : AppState}

structure Aside (s s' : AppState) : Prop where
  params : s'.params = s.params
  callbacks : s'.callbacks = s.callbacks
  log : ∃ records : List Record, s'.log = records ++ s.log ∧ ∀ r ∈ records, r.isParam = false

theorem Ordinary.aside (h : Ordinary s s') : Aside s s' := by
  obtain ⟨actions, hlog, -⟩ := h.log
  refine ⟨h.params, h.callbacks, _, hlog, fun r hr => ?_⟩
  obtain ⟨action, -, rfl⟩ := List.mem_map.mp hr
  rfl

theorem handle_aside {event : Event} {queue : List Event}
    (h : handle { s with queue := queue, log := .polled event :: s.log } event = .ok s') :
    Aside s s' := by
  cases event with
  | quit | windowShown | appStartup | startGame =>
    cases h
    exact ⟨rfl, rfl, [_], rfl, List.forall_mem_singleton.mpr rfl⟩
  | _ =>
    obtain ⟨hparams, hcallbacks, records, hlog, hrecords⟩ := (Ordinary.handle (by rfl) h).aside
    refine ⟨hparams, hcallbacks, records ++ [_], by simpa using hlog, ?_⟩
    exact List.forall_mem_append.mpr ⟨hrecords, List.forall_mem_singleton.mpr rfl⟩

theorem mainStep_aside (h : mainStep s = .ok s') : Aside s s' := by
  unfold mainStep at h
  split at h
  · split at h
    · exact handle_aside h
    · cases h
      exact ⟨rfl, rfl, [], rfl, List.forall_mem_nil _⟩
  · cases h
    obtain ⟨hparams, hcallbacks, hlog⟩ := (Ordinary.resize s).aside
    exact ⟨hparams, hcallbacks, hlog⟩
  · cases h
    unfold startup
    split_ifs
    · exact ⟨rfl, rfl, [_, _, _, _], rfl, by simp [Record.isParam]⟩
    · exact ⟨rfl, rfl, [], rfl, List.forall_mem_nil _⟩
  · cases h
    unfold gameStart
    split_ifs
    · exact ⟨rfl, rfl, [_, _, _, _, _], rfl, by simp [Record.isParam]⟩
    · exact ⟨rfl, rfl, [], rfl, List.forall_mem_nil _⟩
  · cases h
    obtain ⟨hparams, hcallbacks, records, hlog, hrecords⟩ := (Ordinary.passMotion s).aside
    unfold endFrame
    split_ifs
    · exact ⟨hparams, hcallbacks, records, hlog, hrecords⟩
    · refine ⟨hparams, hcallbacks, [.called .sdlQuit, .called .globalWindowDestroy,
        .called .destroyApp] ++ records, ?_, ?_⟩
      · exact congrArg (Record.called .sdlQuit :: .called .globalWindowDestroy ::
          .called .destroyApp :: ·) hlog
      · exact List.forall_mem_append.mpr ⟨by simp [Record.isParam], hrecords⟩
  · cases h

end Loop

/-- The variables hold the last request, or are on their way to it. -/
structure Written (s : AppState) : Prop where
  params : (s.callbacks = [] ∧ writing s.log = false ∧ s.params = lastRequest s.log) ∨
    ∃ remaining, s.callbacks = [⟨lastRequest s.log, remaining⟩] ∧ writing s.log = true ∧
      ∀ field, field ∉ remaining → s.params.get field = (lastRequest s.log).get field
  answered : Answered s.log

namespace Written
variable {s s' : AppState}

theorem aside (h : Written s) (hs : Aside s s') : Written s' := by
  obtain ⟨records, hlog, hrecords⟩ := hs.log
  have hsame : lastRequest (records ++ s.log) = lastRequest s.log ∧
      writing (records ++ s.log) = writing s.log ∧ Answered (records ++ s.log) := by
    clear hlog
    induction records with
    | nil => exact ⟨rfl, rfl, h.answered⟩
    | cons r records ih =>
      rw [List.forall_mem_cons] at hrecords
      cases r with
      | polled | called => exact ih hrecords.2
      | _ => cases hrecords.1
  obtain ⟨hlast, hwriting, hanswered⟩ := hsame
  rw [← hlog] at hlast hwriting hanswered
  refine ⟨?_, hanswered⟩
  rw [hs.params, hs.callbacks, hlast, hwriting]
  exact h.params

theorem eq_of_get {params other : StartGameParams}
    (h : ∀ field, params.get field = other.get field) : params = other := by
  have hplaceId := h .placeId
  have huserId := h .userId
  have hjoinRequestType := h .joinRequestType
  have hjoinAttemptId := h .joinAttemptId
  have hjoinAttemptOrigin := h .joinAttemptOrigin
  have hreferralPage := h .referralPage
  cases params
  cases other
  simp_all [StartGameParams.get]

theorem get_assign (params new : StartGameParams) (field field' : ParamField) :
    (params.assign new field).get field' =
      if field' = field then new.get field' else params.get field' := by
  cases field <;> cases field' <;> rfl

/-- The only callback there is. -/
theorem callback_eq (h : Written s) {callback : ℕ} {c : JoinCallback}
    (hc : s.callbacks[callback]? = some c) :
    callback = 0 ∧ s.callbacks = [c] ∧ c.params = lastRequest s.log ∧ writing s.log = true ∧
      ∀ field, field ∉ c.remaining → s.params.get field = c.params.get field := by
  rcases h.params with ⟨hnone, -, -⟩ | ⟨remaining, hone, hwriting, hset⟩
  · simp [hnone] at hc
  · rw [hone] at hc
    obtain ⟨hlt, rfl⟩ := List.getElem?_eq_some_iff.mp hc
    have hzero : callback = 0 := by simpa using hlt
    subst hzero
    exact ⟨rfl, hone, rfl, hwriting, hset⟩

theorem pushEvent (h : Written s) (event : Event) (pushed : Bool) :
    Written (s.pushEvent event pushed) := by
  unfold AppState.pushEvent
  split_ifs
  · exact ⟨h.params, h.answered⟩
  · exact h

theorem step (h : Written s) {e : AppEvent} (he : Serial s e) (hstep : e.step s = .ok s') :
    Written s' := by
  cases e with
  | push event =>
    cases hstep
    exact h.pushEvent event true
  | dataModelNotification type info pushed =>
    cases hstep
    unfold onDataModelNotification
    split_ifs
    · exact h.pushEvent _ _
    · exact h
  | messageBus message =>
    cases hstep
    unfold messageBusCallback
    split
    · refine ⟨.inr ⟨ParamField.all, ?_, rfl, ?_⟩, h.answered⟩
      · rw [he.2 message rfl]
        rfl
      · rintro (_ | _ | _ | _ | _ | _) hfield <;> exact absurd (by decide) hfield
    · exact h
  | assignParam callback =>
    obtain ⟨params, field, remaining, hc, rfl⟩ := assignParam_ok hstep
    obtain ⟨rfl, hone, hlast, hwriting, hset⟩ := h.callback_eq hc
    refine ⟨.inr ⟨remaining, ?_, hwriting, fun field' hfield' => ?_⟩, h.answered⟩
    · rw [hone, ← hlast]
      rfl
    · rw [get_assign, ← hlast]
      split_ifs with hsame
      · rfl
      · exact hset field' (by simp [hsame, hfield'])
  | pushStartGame callback pushed =>
    obtain ⟨params, hc, rfl⟩ := pushStartGame_ok hstep
    obtain ⟨rfl, hone, hlast, -, hset⟩ := h.callback_eq hc
    have hdone : Written { s with
        callbacks := s.callbacks.eraseIdx 0
        log := .finished pushed :: s.log } := by
      refine ⟨.inl ⟨?_, rfl, ?_⟩, h.answered⟩
      · rw [hone]
        rfl
      · exact (eq_of_get fun field => hset field List.not_mem_nil).trans hlast
    exact hdone.pushEvent .startGame pushed
  | getParam field =>
    cases hstep
    refine ⟨h.params, fun hwriting => ?_, h.answered⟩
    rcases h.params with ⟨-, -, hparams⟩ | ⟨remaining, -, hwriting', -⟩
    · rw [hparams]
    · rw [hwriting] at hwriting'
      cases hwriting'
  | batteryTimer pushed =>
    cases hstep
    exact h.pushEvent _ _
  | main => exact h.aside (mainStep_aside hstep)

end Written

theorem SerialRun.written {es : List AppEvent} {s : AppState} (h : SerialRun es s) : Written s :=
  h.invariant (fun _ _ _ hs he hstep => hs.step he hstep) ⟨.inl ⟨rfl, rfl, rfl⟩, trivial⟩

section Theorems
variable {es : List AppEvent} {s : AppState} {recent older : List Record}

theorem Ended.destroyed (h : Ended (recent ++ .called .destroyApp :: older)) :
    .polled .quit ∈ older ∧
      ∀ action, .called action ∈ recent → action = .globalWindowDestroy ∨ action = .sdlQuit := by
  induction recent with
  | nil => exact ⟨h.2.1 rfl, fun _ hmem => absurd hmem List.not_mem_nil⟩
  | cons r recent ih =>
    cases r with
    | called action =>
      obtain ⟨hquit, hrecent⟩ := ih h.2.2
      refine ⟨hquit, fun other hmem => ?_⟩
      rcases List.mem_cons.mp hmem with heq | hmem
      · cases heq
        exact h.1 (List.mem_append_right _ List.mem_cons_self)
      · exact hrecent other hmem
    | _ =>
      obtain ⟨hquit, hrecent⟩ := ih h
      exact ⟨hquit, fun action hmem => hrecent action (by simpa using hmem)⟩

/-- An event that SDL took and that is not due any more has started a game. -/
theorem started_of_not_due (hdue : gameDue (recent ++ .finished true :: older) = false) :
    .called .startGameWithParam ∈ recent := by
  induction recent with
  | nil => cases hdue
  | cons r recent ih =>
    cases r with
    | called action =>
      cases action with
      | startGameWithParam => exact List.mem_cons_self
      | _ => exact List.mem_cons_of_mem _ (ih hdue)
    | finished pushed =>
      cases pushed with
      | false => exact List.mem_cons_of_mem _ (ih hdue)
      | true => cases hdue
    | _ => exact List.mem_cons_of_mem _ (ih hdue)

/-- Between requests a game is told what the last request asked for. There are no more games
than events pushed for requests, and when neither the queue nor the loop has a game to start,
one has been started since the last event that SDL took. -/
theorem join_requests_answered (h : SerialRun es s) :
    Answered s.log ∧ gameStarts s.log ≤ pushes s.log ∧ pushes s.log ≤ requests s.log ∧
      (.startGame ∉ s.queue → s.gameStartTask = false →
        ∀ recent older, s.log = recent ++ .finished true :: older →
          .called .startGameWithParam ∈ recent) := by
  have halive := h.appRun.alive
  obtain ⟨hstarted, hpushed⟩ := h.appRun.owed
  refine ⟨h.written.answered, by omega, by omega, fun hqueue htask recent older hlog => ?_⟩
  have hdue : gameDue s.log = false := by
    rw [Bool.eq_false_iff]
    intro hdue
    rcases halive.game hdue with hmem | htrue
    · exact hqueue hmem
    · rw [htask] at htrue
      cases htrue
  rw [hlog] at hdue
  exact started_of_not_due hdue

def gameTurn : List AppEvent := List.replicate 6 .main

theorem gameTurn_serial : ∀ e ∈ gameTurn, ∀ s, Serial s e := by
  intro e he s
  rw [List.eq_of_mem_replicate he]
  exact ⟨trivial, by simp⟩

theorem getParam_serial (s : AppState) (field : ParamField) : Serial s (.getParam field) :=
  ⟨trivial, by simp⟩

def exampleRequests : List AppEvent :=
  AppEvent.join ⟨some 1, none, none, none, none⟩ ++
    AppEvent.join ⟨none, some 2, none, none, none⟩ ++ gameTurn ++ [.getParam .userId]

theorem join_requests_answered_example :
    ∃ s recent older, SerialRun exampleRequests s ∧ requests s.log = 2 ∧ gameStarts s.log = 1 ∧
      s.log = recent ++ .finished true :: older ∧ .called .startGameWithParam ∈ recent ∧
      .answered .userId (.number 2) ∈ recent ∧ Answered s.log := by
  have hfirst : SerialRun (AppEvent.join ⟨some 1, none, none, none, none⟩) _ := join_run rfl rfl
  have hboth : SerialRun (AppEvent.join ⟨some 1, none, none, none, none⟩ ++
    AppEvent.join ⟨none, some 2, none, none, none⟩) _ := hfirst.append (join_run rfl rfl)
  have hgame := hboth.append (.of_foldlM gameTurn_serial rfl)
  have hrun : SerialRun exampleRequests _ :=
    hgame.append (.cons (getParam_serial _ .userId) rfl (.nil _))
  obtain ⟨hanswered, -, -, hstarted⟩ := join_requests_answered hrun
  have hmem := hstarted (by decide) rfl [_, _, _, _, _, _, _, _] _ rfl
  exact ⟨_, _, _, hrun, rfl, rfl, rfl, hmem, List.mem_cons_self, hanswered⟩

/-- A message that arrives after a game was started gives the game, when it asks before the
message was dealt with, the place of the one and the user of the other. -/
theorem join_parameters_mixed {first second : JoinMessage} {params params' : StartGameParams}
    (hfirst : first.params = some params) (hsecond : second.params = some params') :
    ∃ es s older, SerialRun es s ∧
      s.log = .answered .userId (.number params.userId) ::
        .answered .placeId (.number params'.placeId) :: .requested params' :: older ∧
      gameStarts older = 1 ∧ requests older = 1 ∧ lastRequest older = params := by
  have hjoin : SerialRun (AppEvent.join first) _ := join_run rfl hfirst
  obtain ⟨s₁, hgame, hidle, hparams, hlog₁⟩ :
      ∃ s₁, SerialRun (AppEvent.join first ++ gameTurn) s₁ ∧ s₁.callbacks = [] ∧
        s₁.params = params ∧ gameStarts s₁.log = 1 ∧ requests s₁.log = 1 ∧
        lastRequest s₁.log = params :=
    ⟨_, hjoin.append (.of_foldlM gameTurn_serial rfl), rfl, rfl, rfl, rfl, rfl⟩
  obtain ⟨s, htorn, hlog⟩ := torn_run hidle hsecond
  rw [hparams] at hlog
  exact ⟨_, s, _, hgame.append htorn, hlog, hlog₁⟩

theorem join_parameters_mixed_example :
    ∃ es s older, SerialRun es s ∧
      s.log = .answered .userId (.number (-1)) :: .answered .placeId (.number 0) ::
        .requested ⟨0, 2, 1, some "", some "", some ""⟩ :: older ∧
      gameStarts older = 1 ∧ requests older = 1 ∧
      lastRequest older = ⟨1, -1, 0, some "", some "", some ""⟩ :=
  join_parameters_mixed (show JoinMessage.params ⟨some 1, none, none, none, none⟩ = some _ from rfl)
    (show JoinMessage.params ⟨none, some 2, none, none, none⟩ = some _ from rfl)

end Theorems

end Sober.App
