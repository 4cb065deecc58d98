import Sober.Pthread.Refinement

/-! # Key deletion

The deletion of a key frees every wrapper that the record of the key lists, takes one
reference off the deleting thread for each, and keeps the record. It never leaves the
record empty; it frees exactly the installed wrappers, with the right counts, exactly
if the record lists the deleting thread's own wrapper and nothing else.
-/
namespace Sober
open Machine Transition PthreadState ThreadContext

variable {s s' : PthreadState} {t : ThreadId} {key : PthreadKey}

/-- Just the wrappers installed under the key are freed, and each thread's count goes
down by its own. -/
structure ReleasesInstalled (s : PthreadState) (key : PthreadKey) (s' : PthreadState) : Prop where
  freed : ∀ p, s.heap p ≠ none ∧ s'.heap p = none ↔ ∃ t, s.pthreadGetspecific t key = some p
  counts : ∀ t, (s'.threads t).refCount.toNat + (s.pthreadGetspecific t key).toList.length =
    (s.threads t).refCount.toNat

/-- Deletion as one would expect it: it succeeds, releases the installed wrappers, and
leaves no record. -/
def DeletesExactly (s : PthreadState) (t : ThreadId) (key : PthreadKey) : Prop :=
  ∃ r, pthreadKeyDeleteImpl t key s = .ok r ∧ ReleasesInstalled s key r.2 ∧
    key ∉ r.2.keyDestructorMap

theorem deleteWrapper_inv {p : Word} (h : s.deleteWrapper p = .ok s') :
    s.heap p ≠ none ∧ s' = s.setHeap (Function.update s.heap p none) := by
  unfold PthreadState.deleteWrapper at h
  cases hp : s.heap p with
  | none => simp [hp] at h
  | some w =>
    simp only [hp, Except.ok.injEq] at h
    exact ⟨nofun, h.symm⟩

/-- The loop frees each listed wrapper once, or faults. -/
theorem deleteWrappers_inv {wrappers : List Word} (h : deleteWrappers t wrappers s = .ok s') :
    wrappers.Nodup ∧ (∀ p ∈ wrappers, s.heap p ≠ none) ∧
      (∀ p, s'.heap p = if p ∈ wrappers then none else s.heap p) ∧
      (∀ t', t' ≠ t → s'.threads t' = s.threads t') ∧
      s'.keyDestructorMap = s.keyDestructorMap := by
  induction wrappers generalizing s with
  | nil =>
    cases h
    simp
  | cons p rest ih =>
    obtain ⟨s₁, hdelete, hrest⟩ := Transition.ok_of_bind h
    obtain ⟨hp, rfl⟩ := deleteWrapper_inv hdelete
    obtain ⟨hnodup, hlive, hheap, hthreads, hmap⟩ := ih hrest
    have hheap₁ : ∀ q, q ≠ p → Function.update s.heap p none q = s.heap q :=
      fun q hq => Function.update_of_ne hq _ _
    have hnot : p ∉ rest := fun hmem => hlive p hmem (Function.update_self _ _ _)
    refine ⟨List.nodup_cons.mpr ⟨hnot, hnodup⟩, ?_, ?_, ?_, hmap⟩
    · intro q hq
      rcases List.mem_cons.mp hq with rfl | hq
      · exact hp
      · have hne : q ≠ p := fun he => hnot (he ▸ hq)
        rw [← hheap₁ q hne]
        exact hlive q hq
    · intro q
      rw [hheap q]
      by_cases hqp : q = p
      · subst hqp
        simp [hnot, PthreadState.setThread, setHeap]
      · simp [hqp, PthreadState.setThread, setHeap]
    · intro t' ht
      rw [hthreads t' ht]
      exact Function.update_of_ne ht _ _

/-- The host's part of the deletion leaves the heap, the counts and the record alone. -/
theorem pthreadKeyDelete_frame (s : PthreadState) (key : PthreadKey) :
    (s.pthreadKeyDelete key).2.heap = s.heap ∧
      (∀ t, ((s.pthreadKeyDelete key).2.threads t).refCount = (s.threads t).refCount) ∧
      (s.pthreadKeyDelete key).2.keyDestructorMap = s.keyDestructorMap := by
  unfold PthreadState.pthreadKeyDelete
  split_ifs
  · exact ⟨rfl, fun _ => rfl, rfl⟩
  · exact ⟨rfl, fun _ => rfl, rfl⟩

theorem pthreadKeyDeleteImpl_inv {r : BitVec 32 × PthreadState}
    (h : pthreadKeyDeleteImpl t key s = .ok r) :
    ∃ mapped, s.keyDestructorMap.lookup key = some mapped ∧ mapped.wrappers.Nodup ∧
      (∀ p ∈ mapped.wrappers, s.heap p ≠ none) ∧
      (∀ p, r.2.heap p = if p ∈ mapped.wrappers then none else s.heap p) ∧
      (∀ t', t' ≠ t → (r.2.threads t').refCount = (s.threads t').refCount) ∧
      r.2.keyDestructorMap = s.keyDestructorMap := by
  unfold pthreadKeyDeleteImpl at h
  cases hmapped : s.keyDestructorMap.lookup key with
  | none => simp [hmapped] at h
  | some mapped =>
    simp only [hmapped] at h
    obtain ⟨s₁, hdelete, hhost⟩ := Transition.ok_of_bind h
    cases hhost
    obtain ⟨hnodup, hlive, hheap, hthreads, hmap⟩ := deleteWrappers_inv hdelete
    obtain ⟨hheap', hrefs, hmap'⟩ := pthreadKeyDelete_frame s₁ key
    refine ⟨mapped, rfl, hnodup, hlive, ?_, ?_, hmap'.trans hmap⟩
    · intro p
      rw [hheap', hheap]
    · intro t' ht
      rw [hrefs, hthreads t' ht]

theorem not_deletesExactly (s : PthreadState) (t : ThreadId) (key : PthreadKey) :
    ¬ DeletesExactly s t key := by
  rintro ⟨r, hok, -, hnot⟩
  obtain ⟨mapped, hmapped, -, -, -, -, hmap⟩ := pthreadKeyDeleteImpl_inv hok
  rw [hmap] at hnot
  exact hnot (Finmap.mem_of_lookup_eq_some hmapped)

theorem ReleasesInstalled.listsOwn {r : BitVec 32 × PthreadState}
    (hok : pthreadKeyDeleteImpl t key s = .ok r) (h : ReleasesInstalled s key r.2) :
    ListsOwn s t key := by
  obtain ⟨mapped, hmapped, hnodup, hlive, hheap, hrefs, -⟩ := pthreadKeyDeleteImpl_inv hok
  have hlisted : ∀ p, p ∈ mapped.wrappers ↔ ∃ t', s.pthreadGetspecific t' key = some p := by
    intro p
    rw [← h.freed p, hheap p]
    constructor
    · exact fun hp => ⟨hlive p hp, if_pos hp⟩
    · rintro ⟨hp, hnone⟩
      by_contra hmem
      exact hp (by rwa [if_neg hmem] at hnone)
  have hother : ∀ t', t' ≠ t → s.pthreadGetspecific t' key = none := by
    intro t' ht
    have hcount := h.counts t'
    rw [hrefs t' ht] at hcount
    cases hget : s.pthreadGetspecific t' key with
    | none => rfl
    | some p => simp [hget] at hcount
  have hown : ∀ p, p ∈ mapped.wrappers ↔ p ∈ (s.pthreadGetspecific t key).toList := by
    intro p
    rw [hlisted p, Option.mem_toList]
    constructor
    · rintro ⟨t', hp⟩
      by_cases ht : t' = t
      · exact ht ▸ hp
      · rw [hother t' ht] at hp
        cases hp
    · exact fun hp => ⟨t, hp⟩
  intro mapped' hmapped'
  rw [hmapped, Option.some.injEq] at hmapped'
  subst hmapped'
  have hone : (s.pthreadGetspecific t key).toList.Nodup := by
    cases s.pthreadGetspecific t key <;> simp
  have hperm := (List.perm_ext_iff_of_nodup hnodup hone).mpr hown
  cases hget : s.pthreadGetspecific t key with
  | none =>
    rw [hget] at hperm
    exact hperm.eq_nil
  | some p =>
    rw [hget] at hperm
    exact List.perm_singleton.mp hperm

/-- Only the deleting thread has something under the key. -/
theorem ListsOwn.installed_iff (hown : ListsOwn s t key) (hs : s.Sound) (p : Word) :
    (∃ t', s.pthreadGetspecific t' key = some p) ↔ s.pthreadGetspecific t key = some p := by
  constructor
  · rintro ⟨t', hp⟩
    by_cases ht : t' = t
    · exact ht ▸ hp
    · rw [hown.other hs ht] at hp
      cases hp
  · exact fun hp => ⟨t, hp⟩

theorem ListsOwn.releasesInstalled_self (hown : ListsOwn s t key) (hs : s.Sound)
    (hget : s.pthreadGetspecific t key = none) : ReleasesInstalled s key s := by
  constructor
  · intro p
    rw [hown.installed_iff hs, hget]
    exact ⟨fun h => absurd h.2 h.1, nofun⟩
  · intro t'
    by_cases ht : t' = t
    · rw [ht, hget]
      rfl
    · rw [hown.other hs ht]
      rfl

theorem ListsOwn.releasesInstalled_releaseOwn (hown : ListsOwn s t key) (hs : s.Sound)
    (hguest : (s.threads t).InGuest) {p : Word} (hget : s.pthreadGetspecific t key = some p) :
    ReleasesInstalled s key ((s.setThread t ((s.threads t).subRef.clearSlot key)).setHeap
      (Function.update s.heap p none)) := by
  obtain ⟨w, hw⟩ := hs.owned.live (t, .slot key) p hget
  constructor
  · intro q
    rw [hown.installed_iff hs, hget, Option.some.injEq]
    change _ ∧ Function.update s.heap p none q = none ↔ _
    by_cases hqp : p = q
    · subst hqp
      simp [hw]
    · rw [Function.update_of_ne (Ne.symm hqp)]
      exact ⟨fun h => absurd h.2 h.1, fun h => absurd h hqp⟩
  · intro t'
    change (Function.update s.threads t _ t').refCount.toNat + _ = _
    by_cases ht : t' = t
    · subst ht
      rw [Function.update_self, hget]
      have hpos := hguest.card_lt_count
      have hsub := (hs.counted t').toNat_refCount_sub (by omega)
      have hrefs := (hs.counted t').refs
      change ((s.threads t').refCount - 1).toNat + 1 = _
      omega
    · rw [Function.update_of_ne ht, hown.other hs ht]
      rfl

theorem ListsOwn.releasesInstalled (hown : ListsOwn s t key) (hs : s.Sound)
    (hguest : (s.threads t).InGuest) (hmem : key ∈ s.keyDestructorMap) :
    ∃ r, pthreadKeyDeleteImpl t key s = .ok r ∧ ReleasesInstalled s key r.2 := by
  refine ⟨_, hown.pthreadKeyDeleteImpl_ok hs hmem, ?_⟩
  cases hget : s.pthreadGetspecific t key with
  | none =>
    have hsame := hown.releasesInstalled_self hs hget
    split_ifs
    · simp only [releaseOwn, hget]
      exact ⟨hsame.freed, hsame.counts⟩
    · exact hsame
  | some p =>
    have hreleases := hown.releasesInstalled_releaseOwn hs hguest hget
    rw [if_pos (hs.live t key p hget)]
    simp only [releaseOwn, hget]
    exact ⟨hreleases.freed, hreleases.counts⟩

/-- A deletion never leaves the key without a record. After a run of clean deletions, it
frees just the installed wrappers and keeps the counts right exactly if the record of
the key lists the deleting thread's own wrapper and nothing else. -/
theorem keyDelete_never_exact (s : PthreadState) (t : ThreadId) (key : PthreadKey) :
    ¬ DeletesExactly s t key ∧
    ∀ es, CleanRun es s → (PthreadEvent.keyDelete t key).Possible s →
      key ∈ s.keyDestructorMap →
        ((∃ r, pthreadKeyDeleteImpl t key s = .ok r ∧ ReleasesInstalled s key r.2) ↔
          ListsOwn s t key) := by
  refine ⟨not_deletesExactly s t key, ?_⟩
  intro es hrun hguest hmem
  constructor
  · rintro ⟨r, hok, hreleases⟩
    exact hreleases.listsOwn hok
  · exact fun hown => hown.releasesInstalled hrun.sound hguest hmem

/-- The thread that deletes a key is the only one with a value under it. -/
theorem keyDelete_never_exact_own : ∃ s, CleanRun
      [.create 1 0x100 0 0x10 0, .start 1, .keyCreate 1 5 0x900 0, .setSpecific 1 5 7 0x20 0] s ∧
    ¬ DeletesExactly s 1 5 ∧
    ∃ r, pthreadKeyDeleteImpl 1 5 s = .ok r ∧ ReleasesInstalled s 5 r.2 := by
  have hrun : CleanRun [.create 1 0x100 0 0x10 0, .start 1, .keyCreate 1 5 0x900 0,
      .setSpecific 1 5 7 0x20 0] _ :=
    .cons ⟨⟨rfl, by decide, rfl⟩, trivial⟩ rfl <|
    .cons ⟨⟨0x10, rfl⟩, trivial⟩ rfl <|
    .cons ⟨⟨trivial, fun _ => rfl⟩, trivial⟩ rfl <|
    .cons ⟨⟨trivial, by decide, rfl, nofun⟩, trivial⟩ rfl (.nil _)
  obtain ⟨hnever, hiff⟩ := keyDelete_never_exact _ 1 5
  refine ⟨_, hrun, hnever, (hiff _ hrun trivial (Finmap.mem_of_lookup_eq_some rfl)).mpr ?_⟩
  intro mapped hmapped
  cases hmapped
  rfl

/-- A thread has exited with a value under the key, and deleting the key frees the
wrapper a second time; another thread still has a value, and deleting the key takes
the deleting thread's only reference. -/
theorem keyDelete_frees_twice :
    (∃ s, Run PthreadEvent.step PthreadEvent.Possible PthreadState.initial
        [.create 1 0x100 0 0x10 0, .start 1, .create 2 0x200 0 0x11 0, .start 2,
          .keyCreate 1 5 0x900 0, .setSpecific 2 5 8 0x21 0, .finish 2, .destroy 2 5,
          .destroyed 2] s ∧
      (PthreadEvent.keyDelete 1 5).Possible s ∧
      pthreadKeyDeleteImpl 1 5 s = .error .doubleFree) ∧
    ∃ s s', Run PthreadEvent.step PthreadEvent.Possible PthreadState.initial
        [.create 1 0x100 0 0x10 0, .start 1, .create 2 0x200 0 0x11 0, .start 2,
          .keyCreate 1 5 0x900 0, .setSpecific 2 5 8 0x21 0] s ∧
      pthreadKeyDeleteImpl 1 5 s = .ok (0, s') ∧ 5 ∈ s'.keyDestructorMap ∧
      (s.threads 1).refCount = 1 ∧ (s'.threads 1).refCount = 0 ∧
      (s.threads 2).refCount = 2 ∧ (s'.threads 2).refCount = 2 := by
  constructor
  · exact ⟨_, .cons ⟨rfl, by decide, rfl⟩ rfl <| .cons ⟨0x10, rfl⟩ rfl <|
      .cons ⟨rfl, by decide, rfl⟩ rfl <| .cons ⟨0x11, rfl⟩ rfl <|
      .cons ⟨trivial, fun _ => rfl⟩ rfl <| .cons ⟨trivial, by decide, rfl, nofun⟩ rfl <|
      .cons ⟨0x11, rfl⟩ rfl <| .cons ⟨rfl, rfl, 0x21, rfl⟩ rfl <|
      .cons ⟨0x21, rfl⟩ rfl (.nil _), trivial, rfl⟩
  · exact ⟨_, _, .cons ⟨rfl, by decide, rfl⟩ rfl <| .cons ⟨0x10, rfl⟩ rfl <|
      .cons ⟨rfl, by decide, rfl⟩ rfl <| .cons ⟨0x11, rfl⟩ rfl <|
      .cons ⟨trivial, fun _ => rfl⟩ rfl <|
      .cons ⟨trivial, by decide, rfl, nofun⟩ rfl (.nil _), rfl,
      Finmap.mem_of_lookup_eq_some rfl, rfl, rfl, rfl, rfl⟩

end Sober
