import Sober.Shim.Construction

/-! # Histories of wrapped objects

The results that the guest gets are those it would get if each of its calls took effect at
once, on objects of its own that were there from the start. -/
namespace Sober.Shim
open Transition Sync

variable {Op Attr Obj : Type}

section Definitions

variable (P : Primitive Op Attr Obj)

/-- What a call of the guest means for its objects, `none` if it cannot have ended like this. -/
def Record.apply (objects : Address → Option Obj) :
    Record Op Attr → Option (Address → Option Obj)
  | .handed _ _ _ => some objects
  | .returned t m op result =>
    match objects m with
    | none => none
    | some obj =>
      match P.call t op obj with
      | .ok (r, obj') =>
        if P.report op r = result then some (Function.update objects m (some obj')) else none
      | .error _ => none
  | .initialized m attr => some (Function.update objects m (some (P.create attr)))
  | .refused m _ => some (Function.update objects m none)
  | .destroyed m =>
    match objects m with
    | none => none
    | some obj => if P.idle obj then some (Function.update objects m none) else none

def replay (initValue : Address → ℕ) : List (Record Op Attr) → Option (Address → Option Obj)
  | [] => some fun m => some (P.create (P.static (initValue m)))
  | record :: older => (replay initValue older).bind (record.apply P)

/-- The object that a record is about, if it changes one. -/
def Record.object : Record Op Attr → Option Address
  | .handed _ _ _ => none
  | .returned _ m _ _ | .initialized m _ | .refused m _ | .destroyed m => some m

/-- What a thread has of an object, going by the calls that returned 0 to it. -/
def tally {V : Type} (nothing : V) (count : Op → V → V) (t : Thread) (m : Address) :
    List (Record Op Attr) → V
  | [] => nothing
  | .handed _ _ _ :: older => tally nothing count t m older
  | .returned t' m' op result :: older =>
    if t' = t ∧ m' = m ∧ result = 0 then count op (tally nothing count t m older)
    else tally nothing count t m older
  | .initialized m' _ :: older | .destroyed m' :: older | .refused m' _ :: older =>
    if m' = m then nothing else tally nothing count t m older

def ShimState.view (s : ShimState Op Attr Obj) (m : Address) : Option Obj :=
  if destroyedIn m s.log then none
  else match s.status m with
    | some (_, .live obj) => some obj
    | _ => some (P.create (P.static (s.wrappers m).initValue))

def Pc.renews : Pc Op Attr → Option Address
  | .initializing m _ _ => some m
  | _ => none

/-- The log is a history of the guest's objects. -/
structure Explained (initValue : Address → ℕ) (s : ShimState Op Attr Obj) : Prop where
  unchanged : ∀ m, (s.wrappers m).initValue = initValue m
  replay : ∃ objects, replay P initValue s.log = some objects ∧
    ∀ m, (∀ u, (s.pc u).renews ≠ some m) → objects m = s.view P m

end Definitions

variable {P : Primitive Op Attr Obj} {initValue : Address → ℕ} {s s' : ShimState Op Attr Obj}
  {t : Thread} {m : Address} {p : Pc Op Attr}

theorem Pc.alone_of_renews (h : p.renews = some m) : p.alone = some m := by
  cases p <;> first | exact h | cases h

section Replay

variable {objects objects' : Address → Option Obj} {record : Record Op Attr}

theorem Record.apply_returned {op : Op} {result : ℕ}
    (h : Record.apply P objects (.returned t m op result) = some objects') :
    ∃ obj r obj', objects m = some obj ∧ P.call t op obj = .ok (r, obj') ∧
      P.report op r = result ∧ objects' = Function.update objects m (some obj') := by
  unfold Record.apply at h
  dsimp only at h
  split at h
  · cases h
  · rename_i obj hobj
    split at h
    · rename_i r obj' hcall
      split_ifs at h with hresult
      cases h
      exact ⟨obj, r, obj', hobj, hcall, hresult, rfl⟩
    · cases h

theorem Record.apply_destroyed (h : Record.apply P objects (.destroyed m) = some objects') :
    objects' = Function.update objects m none := by
  unfold Record.apply at h
  dsimp only at h
  split at h
  · cases h
  · split_ifs at h
    cases h
    rfl

/-- The other objects stay as they are. -/
theorem Record.apply_of_object_ne (h : record.apply P objects = some objects')
    (hm : record.object ≠ some m) : objects' m = objects m := by
  cases record with
  | handed u a i =>
    cases h
    rfl
  | returned u a op result =>
    obtain ⟨obj, r, obj', -, -, -, rfl⟩ := Record.apply_returned h
    exact Function.update_of_ne (fun heq => hm (congrArg some heq.symm)) _ _
  | initialized a attr | refused a i =>
    cases h
    exact Function.update_of_ne (fun heq => hm (congrArg some heq.symm)) _ _
  | destroyed a =>
    rw [Record.apply_destroyed h]
    exact Function.update_of_ne (fun heq => hm (congrArg some heq.symm)) _ _

theorem tally_of_object_ne {V : Type} {nothing : V} {count : Op → V → V}
    {log : List (Record Op Attr)} (hm : record.object ≠ some m) (t : Thread) :
    tally nothing count t m (record :: log) = tally nothing count t m log := by
  cases record with
  | handed => rfl
  | returned => exact if_neg fun h => hm (congrArg some h.2.1)
  | initialized | refused | destroyed => exact if_neg fun h => hm (congrArg some h)

/-- What every record keeps of one object and the history up to it holds at the end of a
history. -/
theorem replay_invariant {I : Option Obj → List (Record Op Attr) → Prop}
    (hstart : I (some (P.create (P.static (initValue m)))) [])
    (hother : ∀ o record older, record.object ≠ some m → I o older → I o (record :: older))
    (hreturned : ∀ t op r obj obj' older, P.call t op obj = .ok (r, obj') → I (some obj) older →
      I (some obj') (.returned t m op (P.report op r) :: older))
    (hinitialized : ∀ o attr older, I o older →
      I (some (P.create attr)) (.initialized m attr :: older))
    (hrefused : ∀ o i older, I o older → I none (.refused m i :: older))
    (hdestroyed : ∀ o older, I o older → I none (.destroyed m :: older))
    {log : List (Record Op Attr)} (h : replay P initValue log = some objects) :
    I (objects m) log := by
  induction log generalizing objects with
  | nil =>
    cases h
    exact hstart
  | cons record older ih =>
    obtain ⟨objects₀, hreplay, happly⟩ := Option.bind_eq_some_iff.mp h
    have holder : I (objects₀ m) older := ih hreplay
    by_cases hm : record.object = some m
    · cases record with
      | handed t a i => cases hm
      | returned t a op result =>
        cases hm
        obtain ⟨obj, r, obj', hobj, hcall, rfl, rfl⟩ := Record.apply_returned happly
        rw [hobj] at holder
        rw [Function.update_self]
        exact hreturned t op r obj obj' older hcall holder
      | initialized a attr =>
        cases hm
        cases happly
        rw [Function.update_self]
        exact hinitialized _ attr older holder
      | refused a i =>
        cases hm
        cases happly
        rw [Function.update_self]
        exact hrefused _ i older holder
      | destroyed a =>
        cases hm
        rw [Record.apply_destroyed happly, Function.update_self]
        exact hdestroyed _ older holder
    · rw [Record.apply_of_object_ne happly hm]
      exact hother _ record older hm holder

end Replay

section View

theorem view_congr (hstatus : s'.status m = s.status m)
    (hinit : (s'.wrappers m).initValue = (s.wrappers m).initValue)
    (hlog : destroyedIn m s'.log = destroyedIn m s.log) : s'.view P m = s.view P m := by
  rw [ShimState.view, ShimState.view, hstatus, hinit, hlog]

theorem view_live (hlog : destroyedIn m s.log = false) {i : ℕ} {obj : Obj}
    (hstatus : s.status m = some (i, .live obj)) : s.view P m = some obj := by
  rw [ShimState.view, hlog, hstatus]
  rfl

/-- An object that is not constructed yet is seen as the one it is going to be. -/
theorem view_static (hlog : destroyedIn m s.log = false)
    (hstatus : ∀ i obj, s.status m ≠ some (i, .live obj)) :
    s.view P m = some (P.create (P.static (s.wrappers m).initValue)) := by
  rw [ShimState.view, hlog, if_neg Bool.false_ne_true]
  split
  · rename_i i obj heq
    exact absurd heq (hstatus i obj)
  · rfl

theorem view_destroyed (hlog : destroyedIn m s.log = true) : s.view P m = none := by
  rw [ShimState.view, hlog]
  rfl

theorem initValue_publish (s : ShimState Op Attr Obj) (m m' : Address) :
    ((s.publish m).wrappers m').initValue = (s.wrappers m').initValue := by
  by_cases hm : m' = m
  · subst hm
    simp [ShimState.publish]
  · simp [ShimState.publish, Function.update_of_ne hm]

end View

section Steps

/-- A step that the guest does not see. -/
theorem Explained.silent (h : Explained P initValue s)
    (hinit : ∀ m, (s'.wrappers m).initValue = (s.wrappers m).initValue)
    (hlog : Shim.replay P initValue s'.log = Shim.replay P initValue s.log)
    (hpc : s'.pc = Function.update s.pc t p) (hrenews : (s.pc t).renews = none)
    (hview : ∀ m, p.renews ≠ some m → s'.view P m = s.view P m) : Explained P initValue s' := by
  obtain ⟨objects, hreplay, hobjects⟩ := h.replay
  refine ⟨fun m => (hinit m).trans (h.unchanged m), objects, hlog.trans hreplay, ?_⟩
  intro m hm
  rw [hpc] at hm
  have hp : p.renews ≠ some m := by simpa using hm t
  rw [hview m hp]
  refine hobjects m fun u => ?_
  by_cases hut : u = t
  · rw [hut, hrenews]
    exact Option.some_ne_none m ∘ Eq.symm
  · simpa [Function.update_of_ne hut] using hm u

/-- The end of a call. -/
theorem Explained.record (h : Explained P initValue s)
    (hinit : ∀ m, (s'.wrappers m).initValue = (s.wrappers m).initValue)
    {record : Record Op Attr} (hlog : s'.log = record :: s.log)
    (hpc : s'.pc = Function.update s.pc t .idle)
    (hrenews : ∀ m', (s.pc t).renews = some m' → m' = m)
    (hview : ∀ m', m' ≠ m → s'.view P m' = s.view P m')
    (happly : ∀ objects : Address → Option Obj,
      ((∀ u, (s.pc u).renews ≠ some m) → objects m = s.view P m) →
      record.apply P objects = some (Function.update objects m (s'.view P m))) :
    Explained P initValue s' := by
  obtain ⟨objects, hreplay, hobjects⟩ := h.replay
  refine ⟨fun m => (hinit m).trans (h.unchanged m), Function.update objects m (s'.view P m),
    ?_, ?_⟩
  · rw [hlog, Shim.replay, hreplay]
    exact happly objects (hobjects m)
  · intro m' hm'
    by_cases hm : m' = m
    · rw [hm, Function.update_self]
    · rw [Function.update_of_ne hm, hview m' hm]
      refine hobjects m' fun u hu => ?_
      by_cases hut : u = t
      · exact hm (hrenews m' (hut ▸ hu))
      · refine hm' u ?_
        rwa [hpc, Function.update_of_ne hut]

/-- A step that leaves the objects and the log as they are. -/
theorem Explained.goto (h : Explained P initValue s) (hrenews : (s.pc t).renews = none)
    {g : Option Thread} : Explained P initValue ({ s with guard := g }.goto t p) :=
  h.silent (fun _ => rfl) rfl rfl hrenews fun _ _ => rfl

theorem Explained.enter (h : Explained P initValue s) (hsound : Sound P s) (hidle : s.pc t = .idle)
    {request : Call Op Attr} (hcareful : Careful P s (.call t m request)) :
    Explained P initValue (s.enter t m request) := by
  have hrenews : (s.pc t).renews = none := by rw [hidle]; rfl
  cases request with
  | op op =>
    unfold ShimState.enter
    dsimp only
    split_ifs
    · exact h.goto (p := .reading m op) hrenews
    · exact h.goto (p := .waiting m op) hrenews
  | init attr =>
    refine h.silent (p := .initializing m attr s.next) (initValue_publish s m) rfl rfl hrenews ?_
    intro m' hm'
    have hne : m' ≠ m := by
      rintro rfl
      exact hm' rfl
    exact view_congr (status_publish_of_ne hsound hne) (initValue_publish s m m') rfl
  | destroy =>
    obtain ⟨hlive, hnobody, -⟩ := hcareful
    unfold ShimState.enter
    dsimp only
    split
    · exact h.goto (p := .destroying m _) hrenews
    · rename_i hw
      have hstatus : s.status m = none := by rw [ShimState.status, hw]; rfl
      have hlog : (s.write (.destroyed m)).log = .destroyed m :: s.log := rfl
      refine h.record (t := t) (m := m) (fun _ => rfl) hlog ?_ ?_ ?_ ?_
      · exact (Function.update_eq_self_iff.mpr hidle.symm).symm
      · intro m' hm'
        rw [hrenews] at hm'
        cases hm'
      · exact fun m' hm' => view_congr rfl rfl (if_neg hm'.symm)
      · intro objects hobjects
        have hm : ∀ u, (s.pc u).renews ≠ some m :=
          fun u hu => hnobody u (Pc.object_of_alone (Pc.alone_of_renews hu))
        have hobject := hobjects hm
        rw [view_static hlive (by simp [hstatus])] at hobject
        rw [view_destroyed (s := s.write (.destroyed m)) (if_pos rfl)]
        simp [Record.apply, hobject, P.idle_create]

/-- Nobody replaces an object while another thread is about it. -/
theorem Sound.not_renews (h : Sound P s) (ht : (s.pc t).object = some m)
    (halone : (s.pc t).renews = none) (u : Thread) : (s.pc u).renews ≠ some m := by
  intro hu
  have hut : t = u := h.alone u t m (Pc.alone_of_renews hu) ht
  rw [← hut, halone] at hu
  cases hu

theorem Explained.advance (h : Explained P initValue s) (hsound : Sound P s)
    (hstep : Advance P s t s') : Explained P initValue s' := by
  have hknows := hsound.knows t
  have hused := hsound.used t
  cases hstep with
  | @lock m op hpc hfree => exact h.goto (p := .guarded m op) (by rw [hpc]; rfl)
  | @found m op hpc hsome => exact h.goto (p := .releasing m op) (by rw [hpc]; rfl)
  | @missing m op hpc hnone => exact h.goto (p := .allocating m op) (by rw [hpc]; rfl)
  | @allocate m op hpc =>
    -- To the guest the object was there before, and is now what it will be.
    rw [hpc] at hknows hused
    refine h.silent (p := .constructing m op s.next) (initValue_publish s m) rfl rfl
      (by rw [hpc]; rfl) fun m' _ => ?_
    by_cases hm : m' = m
    · subst hm
      have hstatus : s.status m' = none := hknows
      have hraw : ((s.publish m').goto t (.constructing m' op s.next)).status m' =
          some (s.next, .raw) := status_publish_self s m'
      rw [view_static (hused m' rfl) (by simp [hstatus]),
        view_static (s := (s.publish m').goto t _) (hused m' rfl) (by simp [hraw])]
      exact congrArg (some <| P.create <| P.static ·) (initValue_publish s m' m')
    · exact view_congr (status_publish_of_ne hsound hm) (initValue_publish s m m') rfl
  | @construct m op i hpc =>
    rw [hpc] at hknows hused
    have hstatus : s.status m = some (i, .raw) := hknows
    refine h.silent (p := .releasing m op) (fun _ => rfl) rfl rfl (by rw [hpc]; rfl) fun m' _ => ?_
    by_cases hm : m' = m
    · subst hm
      rw [view_static (hused m' rfl) (by simp [hstatus])]
      exact view_live (s := (s.setHost i _).goto t _) (hused m' rfl)
        (status_setHost_self _ hstatus)
    · exact view_congr (status_setHost_of_ne hsound _ hstatus hm) rfl rfl
  | @release m op hpc => exact h.goto (p := .reading m op) (by rw [hpc]; rfl)
  | hand hpc hwrapped =>
    exact h.silent (fun _ => rfl) (Option.bind_fun_some _) rfl (by rw [hpc]; rfl) fun _ _ => rfl
  | @call m op i obj obj' result hpc hlive hcall =>
    have ht : (s.pc t).object = some m := by rw [hpc]; rfl
    have hrenews : (s.pc t).renews = none := by rw [hpc]; rfl
    rw [hpc] at hknows hused
    have hstatus : s.status m = some (i, .live obj) := by
      obtain ⟨obj₀, hstatus⟩ := hknows
      rwa [← (host_of_status hstatus).2, hlive] at hstatus
    refine h.record (t := t) (m := m) (fun _ => rfl) rfl rfl ?_ ?_ ?_
    · intro m' hm'
      rw [hrenews] at hm'
      cases hm'
    · exact fun m' hm' => view_congr (status_setHost_of_ne hsound _ hstatus hm') rfl rfl
    · intro objects hobjects
      have hobject := hobjects (hsound.not_renews ht hrenews)
      rw [view_live (hused m rfl) hstatus] at hobject
      have hview := view_live (P := P) (s := ((s.setHost i (.live obj')).goto t .idle).write
        (.returned t m op (P.report op result))) (hused m rfl) (status_setHost_self _ hstatus)
      rw [hview]
      simp [Record.apply, hobject, hcall]
  | @init m attr i hpc =>
    rw [hpc] at hknows
    have hstatus : s.status m = some (i, .raw) := hknows
    refine h.record (t := t) (m := m) (fun _ => rfl) rfl rfl ?_ ?_ ?_
    · rw [hpc]
      exact fun m' hm' => (Option.some.inj hm').symm
    · exact fun m' hm' => view_congr (status_setHost_of_ne hsound _ hstatus hm') rfl
        (if_neg hm'.symm)
    · intro objects _
      have hview := view_live (P := P) (s := ((s.setHost i (.live (P.create attr))).goto t
        .idle).write (.initialized m attr)) (if_pos rfl) (status_setHost_self _ hstatus)
      rw [hview]
      rfl
  | @destroy m i obj hpc hlive =>
    have ht : (s.pc t).object = some m := by rw [hpc]; rfl
    have hrenews : (s.pc t).renews = none := by rw [hpc]; rfl
    rw [hpc] at hknows hused
    obtain ⟨obj, hstatus, hidle⟩ := hknows
    refine h.record (t := t) (m := m) (fun _ => rfl) rfl rfl ?_ ?_ ?_
    · intro m' hm'
      rw [hrenews] at hm'
      cases hm'
    · exact fun m' hm' => view_congr (status_setHost_of_ne hsound _ hstatus hm') rfl
        (if_neg hm'.symm)
    · intro objects hobjects
      have hobject := hobjects (hsound.not_renews ht hrenews)
      rw [view_live (hused m rfl) hstatus] at hobject
      rw [view_destroyed (s := ((s.setHost i .gone).goto t .idle).write (.destroyed m))
        (if_pos rfl)]
      simp [Record.apply, hobject, hidle]

theorem Explained.refuse (h : Explained P initValue s) (hsound : Sound P s)
    (hcareful : Careful P s (.refuse t)) (hstep : Refusal P s t s') :
    Explained P initValue s' := by
  have hknows := hsound.knows t
  cases hstep with
  | static hpc hthrows => exact absurd hpc (hcareful _ _ _)
  | @init m attr i hpc =>
    rw [hpc] at hknows
    have hstatus : s.status m = some (i, .raw) := hknows
    refine h.record (t := t) (m := m) (fun _ => rfl) rfl rfl ?_ ?_ ?_
    · rw [hpc]
      exact fun m' hm' => (Option.some.inj hm').symm
    · exact fun m' hm' => view_congr (status_setHost_of_ne hsound _ hstatus hm') rfl
        (if_neg hm'.symm)
    · intro objects _
      rw [view_destroyed (s := ((s.setHost i .gone).goto t .idle).write (.refused m i))
        (if_pos rfl)]
      rfl

end Steps

section Runs

theorem sound_initial (initValue : Address → ℕ) : Sound P (.initial initValue) where
  injective := by simp [ShimState.initial]
  bounded := by simp [ShimState.initial]
  guard := by simp [ShimState.initial, Pc.hasGuard]
  alone := by simp [ShimState.initial, Pc.alone]
  knows _ := trivial
  settled := by simp [ShimState.initial, ShimState.status]
  used := by simp [ShimState.initial, Pc.uses, Pc.object]

theorem explained_initial (initValue : Address → ℕ) :
    Explained P initValue (.initial initValue) where
  unchanged _ := rfl
  replay := ⟨_, rfl, fun _ _ => rfl⟩

theorem Sound.step (h : Sound P s) {e : ShimEvent Op Attr} (hcareful : Careful P s e)
    (hstep : e.step P s = .ok s') : Sound P s' := by
  rcases step_cases hstep with
    ⟨t, m, request, rfl, hidle, rfl⟩ | ⟨t, rfl, hadvance⟩ | ⟨t, rfl, hrefusal⟩
  · exact h.enter hidle hcareful
  · exact h.advance hadvance
  · exact h.refuse hcareful hrefusal

theorem Explained.step (h : Explained P initValue s) (hsound : Sound P s)
    {e : ShimEvent Op Attr} (hcareful : Careful P s e) (hstep : e.step P s = .ok s') :
    Explained P initValue s' := by
  rcases step_cases hstep with
    ⟨t, m, request, rfl, hidle, rfl⟩ | ⟨t, rfl, hadvance⟩ | ⟨t, rfl, hrefusal⟩
  · exact h.enter hsound hidle hcareful
  · exact h.advance hsound hadvance
  · exact h.refuse hsound hcareful hrefusal

variable {es : List (ShimEvent Op Attr)}

theorem sound_of_run (hrun : Run (ShimEvent.step P) (Careful P) (.initial initValue) es s) :
    Sound P s :=
  hrun.invariant (fun _ _ _ h hcareful hstep => h.step hcareful hstep) (sound_initial initValue)

theorem explained_of_run (hrun : Run (ShimEvent.step P) (Careful P) (.initial initValue) es s) :
    Explained P initValue s :=
  (hrun.invariant (I := fun s => Sound P s ∧ Explained P initValue s)
    (fun _ _ _ h hcareful hstep => ⟨h.1.step hcareful hstep, h.2.step h.1 hcareful hstep⟩)
    ⟨sound_initial initValue, explained_initial initValue⟩).2

/-- No thread follows a pointer that is null, or to an object that is not constructed or is
gone. -/
theorem Sound.not_wild (h : Sound P s) {e : ShimEvent Op Attr} {fault : ShimFault}
    (hstep : e.step P s = .error fault) : fault.isWild = false := by
  cases e with
  | call t m request =>
    unfold ShimEvent.step at hstep
    dsimp only at hstep
    split at hstep
    · cases hstep
    · cases hstep
      rfl
  | advance t =>
    have hknows := h.knows t
    unfold ShimEvent.step ShimState.advance at hstep
    dsimp only at hstep
    cases hpc : s.pc t <;> rw [hpc] at hstep hknows <;> dsimp only at hstep
    case reading m op =>
      obtain ⟨i, obj, hstatus⟩ := hknows
      rw [(host_of_status hstatus).1] at hstep
      cases hstep
    case calling m op i =>
      obtain ⟨obj, hstatus⟩ := hknows
      unfold ShimState.callHost at hstep
      rw [(host_of_status hstatus).2] at hstep
      dsimp only at hstep
      split at hstep <;> cases hstep <;> rfl
    case destroying m i =>
      obtain ⟨obj, hstatus, -⟩ := hknows
      rw [(host_of_status hstatus).2] at hstep
      cases hstep
    case idle =>
      cases hstep
      rfl
    case waiting m op =>
      split at hstep <;> cases hstep
      rfl
    case guarded m op => split_ifs at hstep
    all_goals cases hstep
  | refuse t =>
    unfold ShimEvent.step ShimState.refuse at hstep
    dsimp only at hstep
    split at hstep
    · split_ifs at hstep
      cases hstep
      rfl
    · cases hstep
    · cases hstep
      rfl

end Runs

end Sober.Shim
