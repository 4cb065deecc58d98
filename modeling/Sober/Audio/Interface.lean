import Sober.Transition.Run
import Mathlib.Data.List.Basic

/-! # The audio device

The guest writes blocks of 2048 bytes into one buffer; the audio thread of the host
copies the buffer to its stream and then notifies the writer, who waits on a condition
variable with no predicate. A wake-up can belong to a copy of the block before, and it
can be spurious. Blocks are not lost when neither happens: no spurious wake-up, and no
block stored between a callback's copy and its notification.

The regions under the mutex are single steps, and so is the release of the mutex in the
wait. There is one writer, and the host calls the callback from one thread.
-/
namespace Sober
open Transition

abbrev audioBlockSize : ℕ := 2048

abbrev AudioBlock := { bytes : List (BitVec 8) // bytes.length = audioBlockSize }

inductive AudioFault where
  | misplaced
  | assertionFailed
  | overread

/-- The callback is outside, or it has copied the block and not yet notified. -/
inductive CallbackPhase where
  | idle
  | copied

inductive WriterPhase where
  | idle
  | waiting
  | woken

inductive AudioRecord where
  | stored (block : AudioBlock)
  | copied (block : AudioBlock)
  | returned

structure AudioState where
  audioBuffer : AudioBlock
  callback : CallbackPhase
  writer : WriterPhase
  /-- Newest first. -/
  log : List AudioRecord

def constantBlock (b : BitVec 8) : AudioBlock :=
  ⟨List.replicate audioBlockSize b, List.length_replicate⟩

def silence : AudioBlock := constantBlock 0

def AudioState.initial : AudioState := ⟨silence, .idle, .idle, []⟩

/-- A waiting writer becomes runnable; a notification with nobody waiting is lost. -/
def WriterPhase.wake : WriterPhase → WriterPhase
  | .waiting => .woken
  | phase => phase

def WriterPhase.unreturned : WriterPhase → ℕ
  | .idle => 0
  | _ => 1

def audioCallbackCopy (len : ℕ) (s : AudioState) : Except AudioFault AudioState :=
  if len ≠ audioBlockSize then .error .assertionFailed
  else match s.callback with
    | .idle => .ok { s with callback := .copied, log := .copied s.audioBuffer :: s.log }
    | .copied => .error .misplaced

def audioCallbackNotify (s : AudioState) : Except AudioFault AudioState :=
  match s.callback with
  | .copied => .ok { s with callback := .idle, writer := s.writer.wake }
  | .idle => .error .misplaced

def audioDeviceWrite (audioData : List (BitVec 8)) (size : ℕ) (s : AudioState) :
    Except AudioFault AudioState :=
  if size ≠ audioBlockSize then .error .assertionFailed
  else match s.writer with
    | .idle =>
      if h : audioBlockSize ≤ audioData.length then
        let block : AudioBlock := ⟨audioData.take audioBlockSize, by simp [h]⟩
        .ok { s with audioBuffer := block, writer := .waiting, log := .stored block :: s.log }
      else .error .overread
    | _ => .error .misplaced

inductive AudioEvent where
  | copy (len : ℕ)
  | notify
  | store (audioData : List (BitVec 8)) (size : ℕ)
  | spuriousWake
  | resume

namespace AudioEvent

def step (s : AudioState) : AudioEvent → Except AudioFault AudioState
  | copy len => audioCallbackCopy len s
  | notify => audioCallbackNotify s
  | store audioData size => audioDeviceWrite audioData size s
  | spuriousWake =>
    match s.writer with
    | .waiting => .ok { s with writer := .woken }
    | _ => .error .misplaced
  | resume =>
    match s.writer with
    | .woken => .ok { s with writer := .idle, log := .returned :: s.log }
    | _ => .error .misplaced

/-- The writer is not woken spuriously, and no block is stored between a callback's copy
and its notification. -/
def Orderly (s : AudioState) : AudioEvent → Prop
  | spuriousWake => False
  | store _ _ => s.callback = .idle
  | _ => True

end AudioEvent

section Log

/-- The last stored block has been copied since it was stored. -/
def Played (log : List AudioRecord) : Prop :=
  ∃ recent block older, log = recent ++ .stored block :: older ∧ .copied block ∈ recent ∧
    ∀ b, .stored b ∉ recent

/-- Whenever a write returned, its block had been copied since it was stored. -/
def NoBlockLost (log : List AudioRecord) : Prop :=
  ∀ recent older, log = recent ++ .returned :: older → Played older

def lastStored : List AudioRecord → AudioBlock
  | [] => silence
  | .stored block :: _ => block
  | _ :: older => lastStored older

/-- Every copy was of the block stored last. -/
def Genuine (log : List AudioRecord) : Prop :=
  ∀ recent block older, log = recent ++ .copied block :: older → block = lastStored older

def writes : List AudioRecord → ℕ
  | [] => 0
  | .stored _ :: older => writes older + 1
  | _ :: older => writes older

def returns : List AudioRecord → ℕ
  | [] => 0
  | .returned :: older => returns older + 1
  | _ :: older => returns older

/-- For each copy, newest first, the number of the write whose block was in the buffer;
zero is the silence at the start. -/
def playOrder : List AudioRecord → List ℕ
  | [] => []
  | .copied _ :: older => writes older :: playOrder older
  | _ :: older => playOrder older

def writtenBlock : List AudioRecord → ℕ → AudioBlock
  | [], _ => silence
  | .stored block :: older, i => if i = writes older + 1 then block else writtenBlock older i
  | _ :: older, i => writtenBlock older i

def copies : List AudioRecord → List AudioBlock
  | [] => []
  | .copied block :: older => block :: copies older
  | _ :: older => copies older

variable {log : List AudioRecord}

theorem NoBlockLost.cons (h : NoBlockLost log) {r : AudioRecord}
    (hr : r = .returned → Played log) : NoBlockLost (r :: log) := by
  intro recent older heq
  cases recent with
  | nil =>
    simp only [List.nil_append, List.cons.injEq] at heq
    obtain ⟨hreturned, rfl⟩ := heq
    exact hr hreturned
  | cons r' recent =>
    simp only [List.cons_append, List.cons.injEq] at heq
    exact h recent older heq.2

theorem Genuine.cons (h : Genuine log) {r : AudioRecord}
    (hr : ∀ block, r = .copied block → block = lastStored log) : Genuine (r :: log) := by
  intro recent block older heq
  cases recent with
  | nil =>
    simp only [List.nil_append, List.cons.injEq] at heq
    obtain ⟨hcopied, rfl⟩ := heq
    exact hr block hcopied
  | cons r' recent =>
    simp only [List.cons_append, List.cons.injEq] at heq
    exact h recent block older heq.2

theorem exists_lastStored (h : writes log ≠ 0) :
    ∃ recent older, log = recent ++ .stored (lastStored log) :: older ∧
      ∀ b, .stored b ∉ recent := by
  induction log with
  | nil => exact absurd rfl h
  | cons r log ih =>
    cases r with
    | stored b => exact ⟨[], log, rfl, by simp⟩
    | copied b =>
      obtain ⟨recent, older, heq, hnone⟩ := ih h
      exact ⟨.copied b :: recent, older, congrArg (List.cons _) heq, by simpa using hnone⟩
    | returned =>
      obtain ⟨recent, older, heq, hnone⟩ := ih h
      exact ⟨.returned :: recent, older, congrArg (List.cons _) heq, by simpa using hnone⟩

/-- A copy plays the block stored last. -/
theorem played_copy (h : writes log ≠ 0) : Played (.copied (lastStored log) :: log) := by
  obtain ⟨recent, older, heq, hnone⟩ := exists_lastStored h
  refine ⟨.copied (lastStored log) :: recent, lastStored log, older, ?_, List.mem_cons_self .., ?_⟩
  · exact congrArg (List.cons _) heq
  · simpa using hnone

theorem Played.cons (h : Played log) {r : AudioRecord} (hr : ∀ b, r ≠ .stored b) :
    Played (r :: log) := by
  obtain ⟨recent, block, older, rfl, hcopied, hnone⟩ := h
  refine ⟨r :: recent, block, older, rfl, List.mem_cons_of_mem _ hcopied, ?_⟩
  intro b hb
  rcases List.mem_cons.mp hb with heq | hb
  · exact hr b heq.symm
  · exact hnone b hb

theorem playOrder_le_writes {i : ℕ} (hi : i ∈ playOrder log) : i ≤ writes log := by
  induction log with
  | nil => simp [playOrder] at hi
  | cons r older ih =>
    cases r with
    | stored b => exact Nat.le_succ_of_le (ih hi)
    | copied b =>
      rcases List.mem_cons.mp hi with rfl | hi
      · exact Nat.le_refl _
      · exact ih hi
    | returned => exact ih hi

/-- Copies never go back to an earlier block. -/
theorem playOrder_sorted (log : List AudioRecord) : (playOrder log).Pairwise (· ≥ ·) := by
  induction log with
  | nil => exact .nil
  | cons r older ih =>
    cases r with
    | copied b => exact List.pairwise_cons.mpr ⟨fun i hi => playOrder_le_writes hi, ih⟩
    | stored b => exact ih
    | returned => exact ih

theorem writtenBlock_writes (log : List AudioRecord) :
    writtenBlock log (writes log) = lastStored log := by
  induction log with
  | nil => rfl
  | cons r older ih =>
    cases r with
    | stored b => exact if_pos rfl
    | copied b => exact ih
    | returned => exact ih

theorem Genuine.of_cons {r : AudioRecord} (h : Genuine (r :: log)) : Genuine log :=
  fun recent block older heq => h (r :: recent) block older (congrArg (List.cons r) heq)

/-- The copies are of the blocks whose numbers `playOrder` lists. -/
theorem Genuine.copies_eq (h : Genuine log) :
    copies log = (playOrder log).map (writtenBlock log) := by
  induction log with
  | nil => rfl
  | cons r older ih =>
    have hrest := ih h.of_cons
    cases r with
    | copied block =>
      have hblock : block = writtenBlock older (writes older) := by
        rw [writtenBlock_writes]
        exact h [] block older rfl
      rw [copies, playOrder, List.map_cons, hrest, hblock]
      rfl
    | stored block =>
      refine hrest.trans (List.map_congr_left fun i hi => (if_neg ?_).symm)
      have := playOrder_le_writes hi
      omega
    | returned => exact hrest

/-- Before the next store, a copy plays the last write. -/
theorem Played.mem_playOrder (h : Played log) : writes log ∈ playOrder log := by
  obtain ⟨recent, block, older, rfl, hcopied, hnone⟩ := h
  induction recent with
  | nil => cases hcopied
  | cons r recent ih =>
    have hnone' : ∀ b, .stored b ∉ recent := fun b hb => hnone b (List.mem_cons_of_mem _ hb)
    cases r with
    | stored b => exact absurd (List.mem_cons_self ..) (hnone b)
    | copied b => exact List.mem_cons_self ..
    | returned =>
      rcases List.mem_cons.mp hcopied with heq | hcopied
      · cases heq
      · exact ih hcopied hnone'

end Log

structure AudioState.Serving (s : AudioState) : Prop where
  buffer : s.audioBuffer = lastStored s.log
  genuine : Genuine s.log
  writing : returns s.log + s.writer.unreturned = writes s.log
  /-- A notification under way is for the block in the buffer. -/
  notifying : s.callback = .copied → s.writer = .waiting → Played s.log
  woken : s.writer = .woken → Played s.log
  kept : NoBlockLost s.log
  played : ∀ i, 0 < i → i ≤ returns s.log → i ∈ playOrder s.log

namespace AudioState.Serving
variable {s s' : AudioState}

theorem initial : AudioState.initial.Serving where
  buffer := rfl
  genuine recent block older heq := by simp [AudioState.initial] at heq
  writing := rfl
  notifying := nofun
  woken := nofun
  kept recent older heq := by simp [AudioState.initial] at heq
  played i hpos hle := absurd hle (by simp [AudioState.initial, returns]; omega)

theorem copy (h : s.Serving) :
    AudioState.Serving { s with callback := .copied, log := .copied s.audioBuffer :: s.log } where
  buffer := h.buffer
  genuine := h.genuine.cons (fun block heq => by cases heq; exact h.buffer)
  writing := h.writing
  notifying _ hwaiting := by
    have hwriting := h.writing
    rw [show s.writer = .waiting from hwaiting] at hwriting
    rw [h.buffer]
    apply played_copy
    simp only [WriterPhase.unreturned] at hwriting
    omega
  woken hwoken := (h.woken hwoken).cons nofun
  kept := h.kept.cons nofun
  played i hpos hle := List.mem_cons_of_mem _ (h.played i hpos hle)

theorem notify (h : s.Serving) (hcopied : s.callback = .copied) :
    AudioState.Serving { s with callback := .idle, writer := s.writer.wake } where
  buffer := h.buffer
  genuine := h.genuine
  writing := by
    have hwriting := h.writing
    cases hwriter : s.writer <;> rw [hwriter] at hwriting <;> exact hwriting
  notifying := nofun
  woken hwoken := by
    change s.writer.wake = .woken at hwoken
    cases hwriter : s.writer with
    | idle =>
      rw [hwriter] at hwoken
      cases hwoken
    | waiting => exact h.notifying hcopied hwriter
    | woken => exact h.woken hwriter
  kept := h.kept
  played := h.played

theorem store (h : s.Serving) (hidle : s.callback = .idle) (hwriter : s.writer = .idle)
    (block : AudioBlock) :
    AudioState.Serving
      { s with audioBuffer := block, writer := .waiting, log := .stored block :: s.log } where
  buffer := rfl
  genuine := h.genuine.cons nofun
  writing := by
    have hwriting := h.writing
    rw [hwriter] at hwriting
    simp only [WriterPhase.unreturned, returns, writes] at hwriting ⊢
    omega
  notifying hcopied := by
    rw [show s.callback = .copied from hcopied] at hidle
    cases hidle
  woken := nofun
  kept := h.kept.cons nofun
  played := h.played

theorem resume (h : s.Serving) (hwriter : s.writer = .woken) :
    AudioState.Serving { s with writer := .idle, log := .returned :: s.log } where
  buffer := h.buffer
  genuine := h.genuine.cons nofun
  writing := by
    have hwriting := h.writing
    rw [hwriter] at hwriting
    exact hwriting
  notifying _ := nofun
  woken := nofun
  kept := h.kept.cons (fun _ => h.woken hwriter)
  played i hpos hle := by
    have hwriting := h.writing
    rw [hwriter] at hwriting
    rcases Nat.lt_or_eq_of_le hle with hlt | heq
    · exact h.played i hpos (Nat.lt_succ_iff.mp hlt)
    · rw [heq]
      change returns s.log + 1 ∈ playOrder s.log
      simp only [WriterPhase.unreturned] at hwriting
      rw [hwriting]
      exact (h.woken hwriter).mem_playOrder

/-- One orderly step. -/
theorem step {e : AudioEvent} (h : s.Serving) (horderly : e.Orderly s)
    (hstep : e.step s = .ok s') : s'.Serving := by
  cases e with
  | copy len =>
    simp only [AudioEvent.step, audioCallbackCopy] at hstep
    split_ifs at hstep
    cases hcallback : s.callback with
    | idle =>
      simp only [hcallback, Except.ok.injEq] at hstep
      exact hstep ▸ h.copy
    | copied => simp [hcallback] at hstep
  | notify =>
    cases hcallback : s.callback with
    | idle => simp [AudioEvent.step, audioCallbackNotify, hcallback] at hstep
    | copied =>
      simp only [AudioEvent.step, audioCallbackNotify, hcallback, Except.ok.injEq] at hstep
      exact hstep ▸ h.notify hcallback
  | store audioData size =>
    rw [AudioEvent.step, audioDeviceWrite] at hstep
    cases hwriter : s.writer with
    | idle =>
      simp only [hwriter] at hstep
      split_ifs at hstep
      cases hstep
      exact h.store horderly hwriter _
    | waiting =>
      simp only [hwriter] at hstep
      split_ifs at hstep
    | woken =>
      simp only [hwriter] at hstep
      split_ifs at hstep
  | spuriousWake => exact horderly.elim
  | resume =>
    cases hwriter : s.writer with
    | woken =>
      simp only [AudioEvent.step, hwriter, Except.ok.injEq] at hstep
      exact hstep ▸ h.resume hwriter
    | idle => simp [AudioEvent.step, hwriter] at hstep
    | waiting => simp [AudioEvent.step, hwriter] at hstep

end AudioState.Serving

/-- In every orderly run, whenever a write has returned, its block had been copied to
the stream since it was stored. What is copied is the block stored last, every completed
write is played, and the blocks that are copied are those of the writes in their order. -/
theorem written_blocks_are_played {es : List AudioEvent} {s : AudioState}
    (hrun : Run AudioEvent.step AudioEvent.Orderly AudioState.initial es s) :
    NoBlockLost s.log ∧ Genuine s.log ∧
      (∀ i, 0 < i → i ≤ returns s.log → i ∈ playOrder s.log) ∧
      copies s.log = (playOrder s.log).map (writtenBlock s.log) ∧
      (playOrder s.log).Pairwise (· ≥ ·) := by
  have hserving : s.Serving :=
    hrun.invariant (fun _ _ _ hs horderly hstep => hs.step horderly hstep) .initial
  exact ⟨hserving.kept, hserving.genuine, hserving.played, hserving.genuine.copies_eq,
    playOrder_sorted s.log⟩

theorem store_ok {s : AudioState} (hwriter : s.writer = .idle) (block : AudioBlock) :
    AudioEvent.step s (.store block.1 audioBlockSize) = .ok { s with
      audioBuffer := block, writer := .waiting, log := .stored block :: s.log } := by
  have htake : block.1.take audioBlockSize = block.1 :=
    List.take_of_length_le (Nat.le_of_eq block.2)
  simp [AudioEvent.step, audioDeviceWrite, hwriter, block.2, htake]

theorem copy_ok {s : AudioState} (hcallback : s.callback = .idle) :
    AudioEvent.step s (.copy audioBlockSize) = .ok { s with
      callback := .copied, log := .copied s.audioBuffer :: s.log } := by
  simp [AudioEvent.step, audioCallbackCopy, hcallback]

theorem written_blocks_are_played_once : ∃ s,
    Run AudioEvent.step AudioEvent.Orderly AudioState.initial
      [.store (constantBlock 1).1 audioBlockSize, .copy audioBlockSize, .notify, .resume] s ∧
    NoBlockLost s.log ∧ 1 ∈ playOrder s.log ∧ copies s.log = [constantBlock 1] := by
  have hrun : Run AudioEvent.step AudioEvent.Orderly AudioState.initial
      [.store (constantBlock 1).1 audioBlockSize, .copy audioBlockSize, .notify, .resume] _ :=
    .cons rfl (store_ok rfl (constantBlock 1)) <| .cons trivial (copy_ok rfl) <|
    .cons trivial rfl <| .cons trivial rfl (.nil _)
  obtain ⟨hkept, -, hplayed, hcopies, -⟩ := written_blocks_are_played hrun
  exact ⟨_, hrun, hkept, hplayed 1 (by decide) (by decide), hcopies.trans rfl⟩

theorem not_played_stored (block : AudioBlock) (log : List AudioRecord) :
    ¬ Played (.stored block :: log) := by
  rintro ⟨recent, b, older, heq, hcopied, hnone⟩
  cases recent with
  | nil => cases hcopied
  | cons r recent =>
    simp only [List.cons_append, List.cons.injEq] at heq
    exact hnone block (by rw [← heq.1]; exact List.mem_cons_self ..)

/-- The first block is stored between a callback's copy and its notification: its write
returns before any copy of it, and the second block overwrites it unplayed. -/
theorem stored_block_is_overwritten : ∃ s,
    Run AudioEvent.step (fun _ _ => True) AudioState.initial
      [.copy audioBlockSize, .store (constantBlock 1).1 audioBlockSize, .notify, .resume,
        .store (constantBlock 2).1 audioBlockSize, .copy audioBlockSize, .notify, .resume] s ∧
    ¬ NoBlockLost s.log ∧ returns s.log = 2 ∧ playOrder s.log = [2, 0] := by
  refine ⟨_, .cons trivial (copy_ok rfl) <|
    .cons trivial (store_ok rfl (constantBlock 1)) <| .cons trivial rfl <|
    .cons trivial rfl <| .cons trivial (store_ok rfl (constantBlock 2)) <|
    .cons trivial (copy_ok rfl) <| .cons trivial rfl <| .cons trivial rfl (.nil _), ?_, rfl, rfl⟩
  intro hkept
  exact not_played_stored _ _
    (hkept [.returned, .copied (constantBlock 2), .stored (constantBlock 2)] _ rfl)

end Sober
