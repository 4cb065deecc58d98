import Sober.Shim.Rwlock

/-! # The race of the static initialiser

Threads that come to an object at any time all get the same object of the host, also without
the care of the guest that the histories need. But the pointer is stored before the object is
constructed, and `to_host` looks at the pointer without the lock, so a thread can use the
object while another one is still constructing it. And the initialisers of condition variables
and read-write locks do not look at the result of the constructor, so after a failure all
threads get a deleted object. That is all that can go wrong. -/
namespace Sober.Shim
open Transition Sync

variable {Op Attr Obj : Type}

section Definitions

/-- The guest uses statically initialised objects, and nothing else. -/
def OpCalls (_ : ShimState Op Attr Obj) : ShimEvent Op Attr → Prop
  | .call _ _ (.op _) | .advance _ | .refuse _ => True
  | .call _ _ _ => False

def Points (s : ShimState Op Attr Obj) : Pc Op Attr → Prop
  | .idle | .waiting _ _ | .guarded _ _ => True
  | .allocating m _ => (s.wrappers m).wrapped = none
  | .constructing m _ h | .calling m _ h => (s.wrappers m).wrapped = some h
  | .releasing m _ | .reading m _ => (s.wrappers m).wrapped.isSome = true
  | .initializing _ _ _ | .destroying _ _ => False

/-- The object is constructed, or a thread is in its constructor, or that failed. -/
def Built (s : ShimState Op Attr Obj) (m : Address) (h : ℕ) : Prop :=
  (∃ obj, s.host h = .live obj) ∨ (s.host h = .raw ∧ ∃ u op, s.pc u = .constructing m op h) ∨
    s.host h = .gone ∧ .refused m h ∈ s.log

structure Shared (s : ShimState Op Attr Obj) : Prop where
  injective : ∀ m m' h, (s.wrappers m).wrapped = some h → (s.wrappers m').wrapped = some h →
    m = m'
  bounded : ∀ m h, (s.wrappers m).wrapped = some h → h < s.next
  guard : ∀ u, (s.pc u).hasGuard = true → s.guard = some u
  points : ∀ u, Points s (s.pc u)
  handed : ∀ u m h, .handed u m h ∈ s.log → (s.wrappers m).wrapped = some h
  built : ∀ m h, (s.wrappers m).wrapped = some h → Built s m h

end Definitions

variable {P : Primitive Op Attr Obj} {s s' : ShimState Op Attr Obj} {t : Thread} {m : Address}
  {p : Pc Op Attr}

section Steps

theorem Shared.guard_unique (h : Shared s) {u v : Thread} (hu : (s.pc u).hasGuard = true)
    (hv : (s.pc v).hasGuard = true) : u = v :=
  Option.some.inj ((h.guard u hu).symm.trans (h.guard v hv))

/-- Pointers that are set stay. -/
theorem Points.mono (h : Points s p)
    (hset : ∀ m h, (s.wrappers m).wrapped = some h → (s'.wrappers m).wrapped = some h)
    (hunset : ∀ m op, p = .allocating m op → (s'.wrappers m).wrapped = none) : Points s' p := by
  cases p with
  | idle | waiting | guarded => trivial
  | allocating m op => exact hunset m op rfl
  | constructing m op i | calling m op i => exact hset m i h
  | releasing m op | reading m op =>
    obtain ⟨i, hi⟩ := Option.isSome_iff_exists.mp h
    exact Option.isSome_iff_exists.mpr ⟨i, hset m i hi⟩
  | initializing | destroying => exact h.elim

/-- A step that does not touch the pointers. -/
theorem Shared.keep (h : Shared s) (hwrappers : s'.wrappers = s.wrappers)
    (hnext : s'.next = s.next) (hpc : s'.pc = Function.update s.pc t p)
    (hguard : p.hasGuard = true → s'.guard = some t)
    (hguards : ∀ u, u ≠ t → (s.pc u).hasGuard = true → s'.guard = some u)
    (hpoints : Points s p)
    (hlog : ∀ u m i, .handed u m i ∈ s'.log →
      .handed u m i ∈ s.log ∨ (s.wrappers m).wrapped = some i)
    (hbuilt : ∀ m i, (s.wrappers m).wrapped = some i → Built s' m i) : Shared s' := by
  have hmono : ∀ {q : Pc Op Attr}, Points s q → Points s' q := by
    intro q hq
    refine hq.mono (by simp [hwrappers]) ?_
    rintro m op rfl
    rw [hwrappers]
    exact hq
  refine ⟨?_, ?_, ?_, ?_, ?_, ?_⟩
  · rw [hwrappers]
    exact h.injective
  · rw [hwrappers, hnext]
    exact h.bounded
  · intro u hu
    rw [hpc, Function.update_apply] at hu
    split_ifs at hu with hut
    · exact hut ▸ hguard hu
    · exact hguards u hut hu
  · intro u
    rw [hpc, Function.update_apply]
    split_ifs
    · exact hmono hpoints
    · exact hmono (h.points u)
  · intro u m i hi
    rw [hwrappers]
    exact (hlog u m i hi).elim (h.handed u m i) id
  · rw [hwrappers]
    exact hbuilt

/-- What is constructed, under construction by another thread, or refused, is so after a step
too. -/
theorem Built.step {i : ℕ} (h : Built s m i) (hpc : s'.pc = Function.update s.pc t p)
    (ht : ∀ op, s.pc t ≠ .constructing m op i) (hlog : s.log ⊆ s'.log)
    (hhost : s'.host i = s.host i ∨ ∃ obj, s'.host i = .live obj) : Built s' m i := by
  rcases hhost with hhost | hlive
  · rw [Built, hhost]
    rcases h with hlive | ⟨hraw, u, op, hu⟩ | ⟨hgone, hrefused⟩
    · exact .inl hlive
    · refine .inr (.inl ⟨hraw, u, op, ?_⟩)
      have hut : u ≠ t := by
        rintro rfl
        exact ht op hu
      rw [hpc, Function.update_of_ne hut, hu]
    · exact .inr (.inr ⟨hgone, hlog hrefused⟩)
  · exact .inl hlive

/-- A thread goes on, with everything as it is. -/
theorem Shared.goto (h : Shared s) (hpc : ∀ m op i, s.pc t ≠ .constructing m op i)
    (hpoints : Points s p) {g : Option Thread} (hguard : p.hasGuard = true → g = some t)
    (hguards : ∀ u, u ≠ t → (s.pc u).hasGuard = true → g = some u) :
    Shared ({ s with guard := g }.goto t p) :=
  h.keep rfl rfl rfl hguard hguards hpoints (fun _ _ _ => .inl) fun m i hi =>
    (h.built m i hi).step rfl (fun op => hpc m op i) (List.Subset.refl _) (.inl rfl)

theorem Shared.allocate (h : Shared s) {op : Op} (hpc : s.pc t = .allocating m op) :
    Shared ((s.publish m).goto t (.constructing m op s.next)) := by
  have hnone : (s.wrappers m).wrapped = none := by
    have hpoints := h.points t
    rwa [hpc] at hpoints
  have hguard : (s.pc t).hasGuard = true := by rw [hpc]; rfl
  have hself : ((s.publish m).wrappers m).wrapped = some s.next := by simp [ShimState.publish]
  have hother : ∀ {a : Address}, a ≠ m → (s.publish m).wrappers a = s.wrappers a :=
    fun ha => Function.update_of_ne ha _ _
  have hset : ∀ a i, (s.wrappers a).wrapped = some i →
      ((s.publish m).wrappers a).wrapped = some i := by
    intro a i hi
    have ha : a ≠ m := by
      rintro rfl
      rw [hnone] at hi
      cases hi
    rwa [hother ha]
  have hnew : ((s.publish m).goto t (.constructing m op s.next)).pc =
      Function.update s.pc t (.constructing m op s.next) := rfl
  refine ⟨publish_injective h.injective h.bounded m, publish_bounded h.bounded m, ?_, ?_, ?_, ?_⟩
  · intro u hu
    rw [hnew, Function.update_apply] at hu
    split_ifs at hu with hut
    · exact hut ▸ h.guard t hguard
    · exact h.guard u hu
  · intro u
    rw [hnew, Function.update_apply]
    split_ifs with hut
    · exact hself
    · -- A second thread that found no object would have the lock as well.
      refine (h.points u).mono hset fun a op' hu => ?_
      exact absurd (h.guard_unique (by rw [hu]; rfl) hguard) hut
  · exact fun u a i hi => hset a i (h.handed u a i hi)
  · intro a i ha
    by_cases ham : a = m
    · subst ham
      obtain rfl := Option.some.inj (hself.symm.trans ha)
      exact .inr (.inl ⟨Function.update_self .., t, op, Function.update_self ..⟩)
    · rw [show ((s.publish m).goto t _).wrappers a = s.wrappers a from hother ham] at ha
      refine (h.built a i ha).step hnew (by simp [hpc]) (List.Subset.refl _) (.inl ?_)
      exact Function.update_of_ne (Nat.ne_of_lt (h.bounded a i ha)) _ _

/-- The object of the host changes, and stays or becomes one that is constructed, or is
deleted after a failure. -/
theorem Shared.setHost (h : Shared s) {i : ℕ} (hm : (s.wrappers m).wrapped = some i)
    {o : HostObject Obj} {log : List (Record Op Attr)} (hgrows : s.log ⊆ log)
    (ho : (∃ obj, o = .live obj) ∨ o = .gone ∧ .refused m i ∈ log)
    (hlog : ∀ u m i, .handed u m i ∈ log → .handed u m i ∈ s.log)
    (ht : ∀ a op j, s.pc t = .constructing a op j → a = m)
    (hpoints : Points s p) (hguard : p.hasGuard = true → s.guard = some t) :
    Shared { s.setHost i o with pc := Function.update s.pc t p, log := log } := by
  refine h.keep rfl rfl rfl hguard (fun u _ hu => h.guard u hu) hpoints
    (fun u a j hj => .inl (hlog u a j hj)) fun a j ha => ?_
  by_cases hj : j = i
  · subst hj
    obtain rfl := h.injective a m j ha hm
    rcases ho with ⟨obj, rfl⟩ | ⟨rfl, hrefused⟩
    · exact .inl ⟨obj, Function.update_self ..⟩
    · exact .inr (.inr ⟨Function.update_self .., hrefused⟩)
  · refine (h.built a j ha).step rfl ?_ hgrows (.inl (Function.update_of_ne hj _ _))
    intro op hpc
    obtain rfl := ht a op j hpc
    exact hj (Option.some.inj (ha.symm.trans hm))

/-- A record of another kind hands out nothing. -/
theorem handed_of_mem_cons {record : Record Op Attr} {log : List (Record Op Attr)}
    (hrecord : ∀ u a j, record ≠ .handed u a j) (u : Thread) (a : Address) (j : ℕ)
    (h : .handed u a j ∈ record :: log) : .handed u a j ∈ log :=
  (List.mem_cons.mp h).resolve_left (hrecord u a j).symm

theorem Shared.advance (h : Shared s) (hstep : Advance P s t s') : Shared s' := by
  have hguards : ∀ u, u ≠ t → (s.pc u).hasGuard = true → s.guard = some u :=
    fun u _ hu => h.guard u hu
  have hpoints := h.points t
  have hguard := h.guard t
  cases hstep with
  | @lock m op hpc hfree =>
    refine h.goto (p := .guarded m op) (by simp [hpc]) trivial (fun _ => rfl) fun u _ hu => ?_
    rw [h.guard u hu] at hfree
    cases hfree
  | @found m op hpc hsome =>
    rw [hpc] at hguard
    exact h.goto (p := .releasing m op) (by simp [hpc]) hsome (fun _ => hguard rfl) hguards
  | @missing m op hpc hnone =>
    rw [hpc] at hguard
    exact h.goto (p := .allocating m op) (by simp [hpc]) (Option.not_isSome_iff_eq_none.mp hnone)
      (fun _ => hguard rfl) hguards
  | allocate hpc => exact h.allocate hpc
  | @construct m op i hpc =>
    rw [hpc] at hpoints hguard
    exact h.setHost hpoints (List.Subset.refl _) (.inl ⟨_, rfl⟩) (fun _ _ _ => id) (by simp [hpc])
      (Option.isSome_iff_exists.mpr ⟨i, hpoints⟩) fun _ => hguard rfl
  | @release m op hpc =>
    have ht : (s.pc t).hasGuard = true := by rw [hpc]; rfl
    rw [hpc] at hpoints
    exact h.goto (p := .reading m op) (by simp [hpc]) hpoints nofun
      fun u hut hu => absurd (h.guard_unique hu ht) hut
  | hand hpc hwrapped =>
    refine h.keep rfl rfl rfl nofun hguards hwrapped ?_ fun a j ha =>
      (h.built a j ha).step rfl (by simp [hpc]) (List.subset_cons_self _ _) (.inl rfl)
    intro u a j hj
    rcases List.mem_cons.mp hj with heq | hj
    · cases heq
      exact .inr hwrapped
    · exact .inl hj
  | call hpc hlive hcall =>
    rw [hpc] at hpoints
    exact h.setHost hpoints (List.subset_cons_self _ _) (.inl ⟨_, rfl⟩)
      (handed_of_mem_cons (by simp)) (by simp [hpc]) trivial nofun
  | init hpc | destroy hpc =>
    rw [hpc] at hpoints
    exact hpoints.elim

/-- A constructor that fails unheeded: the pointer stays. -/
theorem Shared.refuse (h : Shared s) (hstep : Refusal P s t s') : Shared s' := by
  have hpoints := h.points t
  have hguard := h.guard t
  cases hstep with
  | @static m op i hpc hthrows =>
    rw [hpc] at hpoints hguard
    exact h.setHost hpoints (List.subset_cons_self _ _) (.inr ⟨rfl, List.mem_cons_self⟩)
      (handed_of_mem_cons (by simp)) (by simp [hpc]) (Option.isSome_iff_exists.mpr ⟨i, hpoints⟩)
      fun _ => hguard rfl
  | init hpc =>
    rw [hpc] at hpoints
    exact hpoints.elim

theorem Shared.step (h : Shared s) {e : ShimEvent Op Attr} (hop : OpCalls s e)
    (hstep : e.step P s = .ok s') : Shared s' := by
  rcases step_cases hstep with
    ⟨t, m, request, rfl, hidle, rfl⟩ | ⟨t, rfl, hadvance⟩ | ⟨t, rfl, hrefusal⟩
  · have hguards : ∀ u, u ≠ t → (s.pc u).hasGuard = true → s.guard = some u :=
      fun u _ hu => h.guard u hu
    cases request with
    | op op =>
      unfold ShimState.enter
      dsimp only
      split_ifs with hsome
      · exact h.goto (p := .reading m op) (by simp [hidle]) hsome nofun hguards
      · exact h.goto (p := .waiting m op) (by simp [hidle]) trivial nofun hguards
    | init | destroy => exact hop.elim
  · exact h.advance hadvance
  · exact h.refuse hrefusal

end Steps

section Runs

variable {initValue : Address → ℕ} {es : List (ShimEvent Op Attr)}

/-- And there can be such an access: a second thread finds the pointer as soon as the first
one has stored it. -/
theorem unconstructed_used (P : Primitive Op Attr Obj) (initValue : Address → ℕ) (m : Address)
    (op op' : Op) {t u : Thread} (htu : t ≠ u) :
    ∃ es s h, Run (ShimEvent.step P) OpCalls (.initial initValue) es s ∧
      s.pc t = .constructing m op h ∧ s.pc u = .calling m op' h ∧
      ShimEvent.step P s (.advance u) = .error .uninitialized := by
  have hut := htu.symm
  have hrun : Run (ShimEvent.step P) OpCalls (.initial initValue)
      [.call t m (.op op), .advance t, .advance t, .advance t, .call u m (.op op'), .advance u]
      ⟨Function.update (fun a => ⟨initValue a, none⟩) m ⟨initValue m, some 0⟩,
        Function.update (fun _ => .gone) 0 .raw, 1, some t,
        Function.update (Function.update (fun _ => .idle) t (.constructing m op 0)) u
          (.calling m op' 0), [.handed u m 0]⟩ := by
    refine .of_foldlM (by simp [OpCalls]) ?_
    simp [ShimEvent.step, ShimState.initial, ShimState.enter, ShimState.advance, ShimState.goto,
      ShimState.publish, ShimState.write, hut, bind, Except.bind, pure, Except.pure]
  refine ⟨_, _, 0, hrun, by simp [htu], by simp, ?_⟩
  simp [ShimEvent.step, ShimState.advance, ShimState.callHost]

theorem unconstructed_used_mutex :
    ∃ es s h, Run (ShimEvent.step mutexPrimitive) OpCalls (.initial fun _ => 0) es s ∧
      s.pc 0 = .constructing 7 .lock h ∧ s.pc 1 = .calling 7 .trylock h ∧
      ShimEvent.step mutexPrimitive s (.advance 1) = .error .uninitialized :=
  unconstructed_used mutexPrimitive (fun _ => 0) 7 .lock .trylock Nat.zero_ne_one

end Runs

end Sober.Shim
