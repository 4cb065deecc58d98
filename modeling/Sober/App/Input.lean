import Mathlib.Algebra.Group.Prod
import Sober.App.EventLoop

/-! # What the guest sees of the devices

Keys, the pointer and its motion, as they reach the guest over a whole run, in terms of the
events that were polled. -/
namespace Sober.App
open Transition

section Log

structure KeyCall where
  down : Bool
  linuxKeycode : ℕ
  androidKeycode : ℕ
  repeated : Bool
  deriving DecidableEq

def keyCall (down : Bool) (scancode : Scancode) (repeated : Bool) : KeyCall :=
  ⟨down, linuxKeycodes.getD scancode 0, androidKeycode scancode, repeated⟩

def keysPassed : List Record → List KeyCall
  | [] => []
  | .called (.passKeyEvent down linuxKeycode androidKeycode repeated) :: older =>
    ⟨down, linuxKeycode, androidKeycode, repeated⟩ :: keysPassed older
  | _ :: older => keysPassed older

/-- The keys there were: those of the keyboard, and `H` down and up for every game that was
started. -/
def keysPressed : List Record → List KeyCall
  | [] => []
  | .polled (.key down scancode repeats) :: older =>
    keyCall down scancode (0 < repeats) :: keysPressed older
  | .called .startGameWithParam :: older =>
    keyCall false .h false :: keyCall true .h false :: keysPressed older
  | _ :: older => keysPressed older

def motion : List Record → ℤ × ℤ
  | [] => 0
  | .polled (.mouseMotion _ _ xrel yrel) :: older => (xrel, yrel) + motion older
  | _ :: older => motion older

/-- How far the guest was told it moved. -/
def motionPassed : List Record → ℤ × ℤ
  | [] => 0
  | .called (.passMouseMove _ _ delX delY) :: older => (delX, delY) + motionPassed older
  | _ :: older => motionPassed older

def rightHeld : List Record → Bool
  | [] => false
  | .polled (.mouseButton .right state) :: _ => state
  | _ :: older => rightHeld older

/-- Where the pointer was last seen while the right button was not held. -/
def pointer : List Record → ℤ × ℤ
  | [] => (-1, -1)
  | .polled (.mouseMotion x y _ _) :: older => if rightHeld older then pointer older else (x, y)
  | _ :: older => pointer older

def relativeMouseMode : List Record → Bool
  | [] => false
  | .called (.setRelativeMouseMode on) :: _ => on
  | _ :: older => relativeMouseMode older

def windowFullscreen : List Record → Bool
  | [] => false
  | .called (.setWindowFullscreen on) :: _ => on
  | _ :: older => windowFullscreen older

def Action.position : Action → Option (ℤ × ℤ)
  | .passMouseButton x y _ _ | .passMouseWheel x y _ | .passMouseMove x y _ _
  | .warpMouseInWindow x y => some (x, y)
  | _ => none

def Located : List Record → Prop
  | [] => True
  | .called action :: older => (∀ p, action.position = some p → p = pointer older) ∧ Located older
  | _ :: older => Located older

end Log

/-- What the loop knows of the devices is what was polled, and what it has told the guest is
all that was polled, but for the keys in `due` and the motion of the turn under way. -/
structure Tracked (due : List KeyCall) (s : AppState) : Prop where
  keys : keysPressed s.log = due ++ keysPassed s.log
  motion : motion s.log = (s.frameDelX, s.frameDelY) + motionPassed s.log
  idle : s.mouseMotionTask = false → (s.frameDelX, s.frameDelY) = 0
  locked : s.cursorLocked = rightHeld s.log
  position : (s.mouseX, s.mouseY) = pointer s.log
  located : Located s.log
  grabbed : s.cursorGrabbed = relativeMouseMode s.log
  fullscreen : s.isFullscreen = windowFullscreen s.log

theorem Located.cons {log : List Record} (h : Located log) {action : Action}
    (hnone : action.position = none) : Located (.called action :: log) := by
  refine ⟨fun p hp => ?_, h⟩
  rw [hnone] at hp
  cases hp

theorem checked_eq {value result : ℤ} (h : checked value = .ok result) : result = value := by
  unfold checked at h
  split_ifs at h
  cases h
  rfl

theorem tracked_initial : Tracked [] .initial :=
  ⟨rfl, rfl, fun _ => rfl, rfl, rfl, trivial, rfl, rfl⟩

namespace Tracked
variable {due : List KeyCall} {s s' : AppState}

/-- Where the loop is, the queue and the parameters do not matter. -/
theorem elsewhere (h : Tracked due s) {phase : Phase} {queue : List Event}
    {params : StartGameParams} {callbacks : List JoinCallback} :
    Tracked due { s with
      phase := phase, queue := queue, params := params, callbacks := callbacks } := by
  cases h
  constructor <;> assumption

theorem record (h : Tracked due s) {r : Record} (hr : r.isParam = true) :
    Tracked due { s with log := r :: s.log } := by
  cases r with
  | polled | called => cases hr
  | _ =>
    cases h
    constructor <;> assumption

theorem pushEvent (h : Tracked due s) (event : Event) (pushed : Bool) :
    Tracked due (s.pushEvent event pushed) := by
  unfold AppState.pushEvent
  split_ifs
  · exact h.elsewhere
  · exact h

theorem pressKey (h : Tracked due s) (scancode : Scancode) :
    Tracked due (pressKey scancode s) := by
  unfold App.pressKey
  split_ifs
  · exact ⟨h.keys, h.motion, h.idle, h.locked, h.position, h.located.cons rfl, h.grabbed, rfl⟩
  · exact ⟨h.keys, h.motion, h.idle, h.locked, h.position,
      ((h.located.cons rfl).cons rfl).cons rfl, rfl, rfl⟩
  · exact ⟨h.keys, h.motion, h.idle, h.locked, h.position, h.located.cons rfl, rfl, h.fullscreen⟩
  · exact h

theorem passKey {down : Bool} {scancode : Scancode} {repeats : ℕ}
    (h : Tracked [keyCall down scancode (0 < repeats)] s)
    (hpass : passKey down scancode repeats s = .ok s') : Tracked [] s' := by
  unfold App.passKey at hpass
  split at hpass
  · rename_i linuxKeycode hlinux
    cases hpass
    have hkey : keyCall down scancode (0 < repeats) =
        ⟨down, linuxKeycode, androidKeycode scancode, 0 < repeats⟩ := by
      rw [keyCall, List.getD_eq_getElem?_getD, hlinux, Option.getD_some]
    rw [hkey] at h
    exact ⟨h.keys, h.motion, h.idle, h.locked, h.position, h.located.cons rfl, h.grabbed,
      h.fullscreen⟩
  · cases hpass

theorem grabCursor (h : Tracked due s) : Tracked due (grabCursor s) := by
  unfold App.grabCursor
  split_ifs
  · exact h
  · exact ⟨h.keys, h.motion, h.idle, h.locked, h.position, h.located.cons rfl, rfl, h.fullscreen⟩

/-- A call at the pointer that is neither of a key nor of a motion. -/
theorem callAt (h : Tracked due s) {action : Action}
    (haction : (∃ state id, action = .passMouseButton s.mouseX s.mouseY state id) ∨
      ∃ preciseY, action = .passMouseWheel s.mouseX s.mouseY preciseY) :
    Tracked due (s.call action) := by
  have hlocated : ∀ p, action.position = some p → p = pointer s.log := by
    intro p hp
    rcases haction with ⟨state, id, rfl⟩ | ⟨preciseY, rfl⟩
    · exact (Option.some.inj hp).symm.trans h.position
    · exact (Option.some.inj hp).symm.trans h.position
  rcases haction with ⟨state, id, rfl⟩ | ⟨preciseY, rfl⟩
  · exact ⟨h.keys, h.motion, h.idle, h.locked, h.position, ⟨hlocated, h.located⟩, h.grabbed,
      h.fullscreen⟩
  · exact ⟨h.keys, h.motion, h.idle, h.locked, h.position, ⟨hlocated, h.located⟩, h.grabbed,
      h.fullscreen⟩

theorem pressButton (h : Tracked [] s) (button : MouseButton) (state : Bool) :
    Tracked [] (pressButton button state
      { s with log := .polled (.mouseButton button state) :: s.log }) := by
  have hgrab : Tracked [] (App.grabCursor ({ s with
      cursorLocked := if button = MouseButton.right then state else s.cursorLocked
      log := .polled (.mouseButton button state) :: s.log }.call
        (.passMouseButton s.mouseX s.mouseY state button.id))) := by
    refine (callAt ?_ (.inl ⟨state, button.id, rfl⟩)).grabCursor
    cases button with
    | right =>
      exact ⟨h.keys, h.motion, h.idle, rfl, h.position, h.located, h.grabbed, h.fullscreen⟩
    | _ =>
      exact ⟨h.keys, h.motion, h.idle, h.locked, h.position, h.located, h.grabbed, h.fullscreen⟩
  convert hgrab using 1
  unfold App.pressButton App.grabCursor AppState.call
  cases button <;> cases s.cursorGrabbed <;> rfl

theorem movePointer (h : Tracked [] s) (x y xrel yrel : ℤ) :
    Tracked [] (movePointer x y { s with
      frameDelX := s.frameDelX + xrel, frameDelY := s.frameDelY + yrel, mouseMotionTask := true
      log := .polled (.mouseMotion x y xrel yrel) :: s.log }) := by
  have hmotion : (xrel, yrel) + App.motion s.log =
      (s.frameDelX + xrel, s.frameDelY + yrel) + motionPassed s.log := by
    rw [h.motion, ← add_assoc, add_comm (xrel, yrel)]
    rfl
  have hpointer : pointer (.polled (.mouseMotion x y xrel yrel) :: s.log) =
      if s.cursorLocked then (s.mouseX, s.mouseY) else (x, y) := by
    rw [pointer, h.locked, h.position]
  unfold App.movePointer
  split_ifs with hlocked
  · have hlocked' : s.cursorLocked = true := hlocked
    rw [hlocked', if_pos rfl] at hpointer
    exact ⟨h.keys, hmotion, nofun, h.locked, hpointer.symm,
      ⟨fun p hp => (Option.some.inj hp).symm.trans hpointer.symm, h.located⟩, h.grabbed,
      h.fullscreen⟩
  · have hlocked' : s.cursorLocked = false := Bool.eq_false_iff.mpr hlocked
    rw [hlocked', if_neg Bool.false_ne_true] at hpointer
    exact ⟨h.keys, hmotion, nofun, h.locked, hpointer.symm, h.located, h.grabbed, h.fullscreen⟩

/-- A turn of the polling loop. -/
theorem handle (h : Tracked [] s) {event : Event}
    (hhandle : handle { s with log := .polled event :: s.log } event = .ok s') :
    Tracked [] s' := by
  cases event with
  | key down scancode repeats =>
    have hpolled : Tracked [keyCall down scancode (0 < repeats)]
        { s with log := .polled (.key down scancode repeats) :: s.log } :=
      ⟨congrArg _ h.keys, h.motion, h.idle, h.locked, h.position, h.located, h.grabbed,
        h.fullscreen⟩
    refine passKey ?_ hhandle
    split_ifs
    · exact hpolled.pressKey scancode
    · exact hpolled
  | mouseButton button state =>
    cases hhandle
    exact h.pressButton button state
  | mouseMotion x y xrel yrel =>
    obtain ⟨delX, hX, hhandle⟩ := ok_of_bind hhandle
    obtain ⟨delY, hY, hhandle⟩ := ok_of_bind hhandle
    rw [checked_eq hX, checked_eq hY] at hhandle
    cases hhandle
    exact h.movePointer x y xrel yrel
  | mouseWheel preciseY =>
    cases hhandle
    refine callAt ?_ (.inr ⟨preciseY, rfl⟩)
    exact ⟨h.keys, h.motion, h.idle, h.locked, h.position, h.located, h.grabbed, h.fullscreen⟩
  | reportBatteryStatus =>
    cases hhandle
    exact ⟨h.keys, h.motion, h.idle, h.locked, h.position, h.located.cons rfl, h.grabbed,
      h.fullscreen⟩
  | _ =>
    cases hhandle
    exact ⟨h.keys, h.motion, h.idle, h.locked, h.position, h.located, h.grabbed, h.fullscreen⟩

/-- The tasks before the last leave the devices alone, but for the key a game starts with. -/
theorem tasks (h : Tracked [] s) :
    Tracked [] (resize s) ∧ Tracked [] (startup s) ∧ Tracked [] (gameStart s) := by
  refine ⟨?_, ?_, ?_⟩
  · unfold resize
    split_ifs
    · exact ⟨h.keys, h.motion, h.idle, h.locked, h.position, h.located.cons rfl, h.grabbed,
        h.fullscreen⟩
    · exact h
  · unfold startup
    split_ifs
    · exact ⟨h.keys, h.motion, h.idle, h.locked, h.position,
        (((h.located.cons rfl).cons rfl).cons rfl).cons rfl, h.grabbed, h.fullscreen⟩
    · exact h
  · unfold gameStart
    split_ifs
    · exact ⟨congrArg _ (congrArg _ h.keys), h.motion, h.idle, h.locked, h.position,
        ((((h.located.cons rfl).cons rfl).cons rfl).cons rfl).cons rfl, h.grabbed, h.fullscreen⟩
    · exact h

theorem endFrame (h : Tracked [] s) : Tracked [] (endFrame (passMotion s)) := by
  have hpass : Tracked [] { passMotion s with
      frameDelX := 0, frameDelY := 0, mouseMotionTask := false } := by
    unfold passMotion
    split_ifs with htask
    · refine ⟨h.keys, ?_, fun _ => rfl, h.locked, h.position,
        ⟨fun p hp => (Option.some.inj hp).symm.trans h.position, h.located⟩, h.grabbed,
        h.fullscreen⟩
      exact h.motion.trans (zero_add _).symm
    · refine ⟨h.keys, ?_, fun _ => rfl, h.locked, h.position, h.located, h.grabbed, h.fullscreen⟩
      have hidle := h.idle (Bool.eq_false_iff.mpr htask)
      exact h.motion.trans (congrArg (· + _) hidle)
  unfold App.endFrame
  split_ifs
  · exact ⟨hpass.keys, hpass.motion, hpass.idle, hpass.locked, hpass.position, hpass.located,
      hpass.grabbed, hpass.fullscreen⟩
  · exact ⟨hpass.keys, hpass.motion, hpass.idle, hpass.locked, hpass.position,
      ((hpass.located.cons rfl).cons rfl).cons rfl, hpass.grabbed, hpass.fullscreen⟩

theorem mainStep (h : Tracked [] s) (hstep : mainStep s = .ok s') : Tracked [] s' := by
  unfold App.mainStep at hstep
  split at hstep
  · split at hstep
    · rename_i event queue _
      have hpolled : Tracked [] { s with queue := queue } := h.elsewhere
      exact hpolled.handle hstep
    · cases hstep
      exact h.elsewhere
  · cases hstep
    exact h.tasks.1.elsewhere
  · cases hstep
    exact h.tasks.2.1.elsewhere
  · cases hstep
    exact h.tasks.2.2.elsewhere
  · cases hstep
    exact h.endFrame
  · cases hstep

theorem step (h : Tracked [] s) {e : AppEvent} (hstep : e.step s = .ok s') : Tracked [] s' := by
  cases e with
  | push event =>
    cases hstep
    exact h.pushEvent event true
  | dataModelNotification type info pushed =>
    cases hstep
    unfold onDataModelNotification
    split_ifs
    · exact h.pushEvent _ _
    · exact h
  | messageBus message =>
    cases hstep
    unfold messageBusCallback
    split
    · exact (h.record (r := .requested _) rfl).elsewhere
    · exact h
  | assignParam callback =>
    obtain ⟨params, field, remaining, -, rfl⟩ := assignParam_ok hstep
    exact h.elsewhere
  | pushStartGame callback pushed =>
    obtain ⟨params, -, rfl⟩ := pushStartGame_ok hstep
    exact pushEvent (h.record (r := .finished pushed) rfl).elsewhere _ _
  | getParam field =>
    cases hstep
    exact h.record rfl
  | batteryTimer pushed =>
    cases hstep
    exact h.pushEvent _ _
  | main => exact h.mainStep hstep

end Tracked

theorem AppRun.tracked {es : List AppEvent} {s : AppState} (h : AppRun es s) : Tracked [] s :=
  h.invariant (fun _ _ _ hs _ hstep => hs.step hstep) tracked_initial

section Theorems
variable {es : List AppEvent} {s : AppState} {recent older : List Record}

/-- At any moment of a run the guest has got every key that was polled, once and in order,
with `H` pressed and released at the start of each game, and it has been told of all the
pointer's motion but that of the turn under way. -/
theorem input_reaches_guest (h : AppRun es s) :
    keysPassed s.log = keysPressed s.log ∧
      (s.frameDelX, s.frameDelY) + motionPassed s.log = motion s.log ∧
      (s.mouseMotionTask = false → motionPassed s.log = motion s.log) := by
  have htracked := h.tracked
  refine ⟨htracked.keys.symm, htracked.motion.symm, fun htask => ?_⟩
  rw [htracked.motion, htracked.idle htask, zero_add]

/-- A key, a motion and a request to join a game; then the right button goes down and the
pointer moves on. -/
def exampleEvents : List AppEvent :=
  [.push (.key true 26 0), .push (.mouseMotion 40 30 5 (-3))] ++
    AppEvent.join ⟨some 1818, none, none, none, none⟩ ++
    [.push (.mouseButton .right true), .push (.mouseMotion 45 31 5 1)] ++ List.replicate 10 .main

theorem exampleEvents_allowed : ∀ e ∈ exampleEvents, ∀ s, AppEvent.Allowed s e := by
  intro e he s
  simp only [exampleEvents, AppEvent.join, List.mem_append, List.mem_cons, List.mem_replicate,
    List.not_mem_nil, or_false] at he
  rcases he with (((rfl | rfl) | rfl | ⟨-, rfl⟩ | rfl) | rfl | rfl) | ⟨-, rfl⟩ <;>
    first | rfl | trivial

theorem input_reaches_guest_example :
    ∃ s, AppRun exampleEvents s ∧ keysPassed s.log = keysPressed s.log ∧
      motionPassed s.log = (10, -2) := by
  obtain ⟨s, hs⟩ : ∃ s, exampleEvents.foldlM AppEvent.step .initial = .ok s := ⟨_, rfl⟩
  have hrun : AppRun exampleEvents s := .of_foldlM exampleEvents_allowed hs
  obtain ⟨hkeys, -, hmotion⟩ := input_reaches_guest hrun
  cases hs
  exact ⟨_, hrun, hkeys, hmotion rfl⟩

theorem pointer_of_held (hheld : rightHeld older = true)
    (hkeep : ∀ r ∈ recent, r ≠ .polled (.mouseButton .right false)) :
    rightHeld (recent ++ older) = true ∧ pointer (recent ++ older) = pointer older := by
  induction recent with
  | nil => exact ⟨hheld, rfl⟩
  | cons r recent ih =>
    rw [List.forall_mem_cons] at hkeep
    obtain ⟨hheld', hpointer⟩ := ih hkeep.2
    cases r with
    | polled event =>
      cases event with
      | mouseButton button state =>
        cases button with
        | right =>
          cases state with
          | false => exact absurd rfl hkeep.1
          | true => exact ⟨rfl, hpointer⟩
        | _ => exact ⟨hheld', hpointer⟩
      | mouseMotion x y xrel yrel =>
        refine ⟨hheld', ?_⟩
        rw [List.cons_append, pointer, if_pos hheld', hpointer]
      | _ => exact ⟨hheld', hpointer⟩
    | _ => exact ⟨hheld', hpointer⟩

theorem Located.position_of_held (h : Located (recent ++ older)) (hheld : rightHeld older = true)
    (hkeep : ∀ r ∈ recent, r ≠ .polled (.mouseButton .right false)) {action : Action} {p : ℤ × ℤ}
    (haction : .called action ∈ recent) (hp : action.position = some p) : p = pointer older := by
  induction recent with
  | nil => cases haction
  | cons r recent ih =>
    rw [List.forall_mem_cons] at hkeep
    rcases List.mem_cons.mp haction with rfl | hrecent
    · exact (h.1 p hp).trans (pointer_of_held hheld hkeep.2).2
    · cases r with
      | called other => exact ih h.2 hkeep.2 hrecent
      | _ => exact ih h hkeep.2 hrecent

/-- The program's idea of the cursor and of the window is SDL's, and while the right button
is held every position that is passed on, to the guest or back to SDL, is the one the pointer
had when the button went down. -/
theorem cursor_held_in_place (h : AppRun es s) :
    s.cursorGrabbed = relativeMouseMode s.log ∧ s.isFullscreen = windowFullscreen s.log ∧
      ∀ recent older, s.log = recent ++ older → rightHeld older = true →
        (∀ r ∈ recent, r ≠ .polled (.mouseButton .right false)) →
        ∀ action p, .called action ∈ recent → action.position = some p → p = pointer older := by
  have htracked := h.tracked
  refine ⟨htracked.grabbed, htracked.fullscreen, fun recent older hlog hheld hkeep action p => ?_⟩
  have hlocated := htracked.located
  rw [hlog] at hlocated
  exact hlocated.position_of_held hheld hkeep

theorem cursor_held_in_place_example :
    ∃ s recent older, AppRun exampleEvents s ∧ relativeMouseMode s.log = true ∧
      s.log = recent ++ older ∧ rightHeld older = true ∧
      .called (.passMouseMove 40 30 10 (-2)) ∈ recent ∧
      ∀ action p, .called action ∈ recent → action.position = some p → p = (40, 30) := by
  obtain ⟨s, hs⟩ : ∃ s, exampleEvents.foldlM AppEvent.step .initial = .ok s := ⟨_, rfl⟩
  have hrun : AppRun exampleEvents s := .of_foldlM exampleEvents_allowed hs
  obtain ⟨hgrabbed, -, hheld⟩ := cursor_held_in_place hrun
  have hlog := (List.take_append_drop 10 s.log).symm
  have hplace := hheld _ _ hlog
  cases hs
  exact ⟨_, _, _, hrun, hgrabbed.symm, hlog, rfl, by decide, hplace rfl (by decide)⟩

end Theorems

end Sober.App
