import Mathlib.Tactic.Common
import Sober.Shim.Wrapped

/-! # Construction of wrapped objects

As long as no thread comes to an object while another one is constructing it, each object is
constructed before it is used, and no thread uses one that is not there. -/
namespace Sober.Shim
open Transition Sync

variable {Op Attr Obj : Type}

section Definitions

namespace Pc

def object : Pc Op Attr → Option Address
  | .idle => none
  | .waiting m _ | .guarded m _ | .allocating m _ | .constructing m _ _ | .releasing m _
  | .reading m _ | .calling m _ _ | .initializing m _ _ | .destroying m _ => some m

def making : Pc Op Attr → Option Address
  | .constructing m _ _ | .initializing m _ _ | .destroying m _ => some m
  | _ => none

/-- The calls that the guest must not make beside others on the object. -/
def alone : Pc Op Attr → Option Address
  | .initializing m _ _ | .destroying m _ => some m
  | _ => none

/-- The object that a thread is about, other than to make it anew. -/
def uses : Pc Op Attr → Option Address
  | .initializing _ _ _ => none
  | p => p.object

def hasGuard : Pc Op Attr → Bool
  | .guarded _ _ | .allocating _ _ | .constructing _ _ _ | .releasing _ _ => true
  | _ => false

end Pc

/-- The last call about the object's life was `destroy`, or did not make it. -/
def destroyedIn (m : Address) : List (Record Op Attr) → Bool
  | [] => false
  | .initialized m' _ :: older => if m' = m then false else destroyedIn m older
  | .destroyed m' :: older | .refused m' _ :: older =>
    if m' = m then true else destroyedIn m older
  | _ :: older => destroyedIn m older

def ShimState.status (s : ShimState Op Attr Obj) (m : Address) : Option (ℕ × HostObject Obj) :=
  (s.wrappers m).wrapped.map fun h => (h, s.host h)

variable (P : Primitive Op Attr Obj)

/-- The guest follows the rules for such objects, no thread comes to one that is being made,
and the host makes the statically initialised ones. -/
def Careful (s : ShimState Op Attr Obj) : ShimEvent Op Attr → Prop
  | .call _ m (.op _) => destroyedIn m s.log = false ∧ ∀ u, (s.pc u).making ≠ some m
  | .call _ m (.init _) =>
    (destroyedIn m s.log = true ∨ s.status m = none) ∧ ∀ u, (s.pc u).object ≠ some m
  | .call _ m .destroy =>
    destroyedIn m s.log = false ∧ (∀ u, (s.pc u).object ≠ some m) ∧
      ∀ h obj, s.status m = some (h, .live obj) → P.idle obj = true
  | .advance _ => True
  | .refuse t => ∀ m op h, s.pc t ≠ .constructing m op h

def Knows (s : ShimState Op Attr Obj) : Pc Op Attr → Prop
  | .idle | .waiting _ _ | .guarded _ _ => True
  | .allocating m _ => s.status m = none
  | .constructing m _ h | .initializing m _ h => s.status m = some (h, .raw)
  | .releasing m _ | .reading m _ => ∃ h obj, s.status m = some (h, .live obj)
  | .calling m _ h => ∃ obj, s.status m = some (h, .live obj)
  | .destroying m h => ∃ obj, s.status m = some (h, .live obj) ∧ P.idle obj = true

structure Sound (s : ShimState Op Attr Obj) : Prop where
  injective : ∀ m m' h, (s.wrappers m).wrapped = some h → (s.wrappers m').wrapped = some h →
    m = m'
  bounded : ∀ m h, (s.wrappers m).wrapped = some h → h < s.next
  guard : ∀ u, (s.pc u).hasGuard = true → s.guard = some u
  alone : ∀ u v m, (s.pc u).alone = some m → (s.pc v).object = some m → v = u
  knows : ∀ u, Knows P s (s.pc u)
  /-- An object that is there is constructed, or about to be. -/
  settled : ∀ m h obj, s.status m = some (h, obj) → destroyedIn m s.log = false →
    (∃ o, obj = .live o) ∨ ∃ u, (s.pc u).making = some m
  /-- Objects in use have not been destroyed. -/
  used : ∀ u m, (s.pc u).uses = some m → destroyedIn m s.log = false

end Definitions

section Steps

variable {P : Primitive Op Attr Obj} {s s' : ShimState Op Attr Obj} {t : Thread} {m : Address}
  {p : Pc Op Attr}

theorem Pc.object_of_making (h : p.making = some m) : p.object = some m := by
  cases p <;> first | exact h | cases h

theorem Pc.object_of_alone (h : p.alone = some m) : p.object = some m := by
  cases p <;> first | exact h | cases h

theorem Pc.object_of_uses (h : p.uses = some m) : p.object = some m := by
  cases p <;> first | exact h | cases h

theorem Pc.uses_of_object (h : p.object = some m) (halone : p.alone = none) :
    p.uses = some m := by
  cases p <;> first | exact h | cases halone

theorem Pc.making_of_alone (h : p.alone = some m) : p.making = some m := by
  cases p <;> first | exact h | cases h

/-- A thread's knowledge is about its own object. -/
theorem Knows.congr (h : Knows P s p) (hsame : ∀ m, p.object = some m → s'.status m = s.status m) :
    Knows P s' p := by
  cases p <;> first | trivial | simpa only [Knows, hsame _ rfl] using h

structure Change (P : Primitive Op Attr Obj) (s s' : ShimState Op Attr Obj) (t : Thread)
    (m : Address) (p : Pc Op Attr) : Prop where
  pc : s'.pc = Function.update s.pc t p
  same : ∀ m', m' ≠ m → s'.status m' = s.status m'
  log : ∀ m', m' ≠ m → destroyedIn m' s'.log = destroyedIn m' s.log
  injective : ∀ m m' h, (s'.wrappers m).wrapped = some h → (s'.wrappers m').wrapped = some h →
    m = m'
  bounded : ∀ m h, (s'.wrappers m).wrapped = some h → h < s'.next
  guard : p.hasGuard = true → s'.guard = some t
  guards : ∀ u, u ≠ t → (s.pc u).hasGuard = true → s'.guard = some u
  before : ∀ m', (s.pc t).object = some m' → m' = m
  after : ∀ m', p.object = some m' → m' = m
  knows : Knows P s' p
  others : ∀ u, u ≠ t → (s.pc u).object = some m → Knows P s' (s.pc u) ∧
    (p.object = some m → p.alone = none ∧ (s.pc u).alone = none) ∧
    ((s.pc u).uses = some m → destroyedIn m s'.log = false)
  settled : ∀ h obj, s'.status m = some (h, obj) → destroyedIn m s'.log = false →
    (∃ o, obj = .live o) ∨ p.making = some m ∨ ∃ u, u ≠ t ∧ (s.pc u).making = some m
  used : p.uses = some m → destroyedIn m s'.log = false

theorem Sound.change (h : Sound P s) (hc : Change P s s' t m p) : Sound P s' where
  injective := hc.injective
  bounded := hc.bounded
  guard u hu := by
    rw [hc.pc, Function.update_apply] at hu
    split_ifs at hu with hut
    · exact hut ▸ hc.guard hu
    · exact hc.guards u hut hu
  alone u v m' hu hv := by
    rw [hc.pc, Function.update_apply] at hu hv
    split_ifs at hu hv with hut hvt hvt
    · exact hvt.trans hut.symm
    · obtain rfl := hc.after m' (Pc.object_of_alone hu)
      rw [((hc.others v hvt hv).2.1 (Pc.object_of_alone hu)).1] at hu
      cases hu
    · obtain rfl := hc.after m' hv
      rw [((hc.others u hut (Pc.object_of_alone hu)).2.1 hv).2] at hu
      cases hu
    · exact h.alone u v m' hu hv
  knows u := by
    rw [hc.pc, Function.update_apply]
    split_ifs with hut
    · exact hc.knows
    · by_cases hm : (s.pc u).object = some m
      · exact (hc.others u hut hm).1
      · refine (h.knows u).congr fun m' hm' => hc.same m' ?_
        rintro rfl
        exact hm hm'
  settled m' h' obj hstatus hlive := by
    rw [hc.pc]
    by_cases hm : m' = m
    · subst hm
      rcases hc.settled h' obj hstatus hlive with ho | hp | ⟨u, hut, hu⟩
      · exact .inl ho
      · exact .inr ⟨t, by rwa [Function.update_self]⟩
      · exact .inr ⟨u, by rwa [Function.update_of_ne hut]⟩
    · rw [hc.same m' hm] at hstatus
      rw [hc.log m' hm] at hlive
      refine (h.settled m' h' obj hstatus hlive).imp_right ?_
      rintro ⟨u, hu⟩
      have hut : u ≠ t := by
        rintro rfl
        exact hm (hc.before m' (Pc.object_of_making hu))
      exact ⟨u, by rwa [Function.update_of_ne hut]⟩
  used u m' hu := by
    rw [hc.pc, Function.update_apply] at hu
    split_ifs at hu with hut
    · obtain rfl := hc.after m' (Pc.object_of_uses hu)
      exact hc.used hu
    · by_cases hm : m' = m
      · subst hm
        exact (hc.others u hut (Pc.object_of_uses hu)).2.2 hu
      · rw [hc.log m' hm]
        exact h.used u m' hu

section Status

theorem status_publish_self (s : ShimState Op Attr Obj) (m : Address) :
    (s.publish m).status m = some (s.next, .raw) := by
  simp [ShimState.publish, ShimState.status]

theorem status_publish_of_ne (h : Sound P s) {m' : Address} (hm : m' ≠ m) :
    (s.publish m).status m' = s.status m' := by
  simp only [ShimState.publish, ShimState.status, Function.update_of_ne hm]
  cases hw : (s.wrappers m').wrapped with
  | none => rfl
  | some h' =>
    have hne : h' ≠ s.next := Nat.ne_of_lt (h.bounded m' h' hw)
    simp [Function.update_of_ne hne]

theorem status_setHost_self {h : ℕ} {o : HostObject Obj} (obj : HostObject Obj)
    (hstatus : s.status m = some (h, o)) : (s.setHost h obj).status m = some (h, obj) := by
  obtain ⟨h', hw, heq⟩ := Option.map_eq_some_iff.mp hstatus
  cases heq
  simp [ShimState.setHost, ShimState.status, hw]

theorem status_setHost_of_ne (h : Sound P s) {h' : ℕ} {o : HostObject Obj} (obj : HostObject Obj)
    (hstatus : s.status m = some (h', o)) {m' : Address} (hm : m' ≠ m) :
    (s.setHost h' obj).status m' = s.status m' := by
  obtain ⟨h₁, hw, heq⟩ := Option.map_eq_some_iff.mp hstatus
  cases heq
  simp only [ShimState.setHost, ShimState.status]
  cases hw' : (s.wrappers m').wrapped with
  | none => rfl
  | some h₂ =>
    have hne : h₂ ≠ h' := by
      rintro rfl
      exact hm (h.injective m' m h₂ hw' hw)
    simp [Function.update_of_ne hne]

theorem publish_injective
    (hinjective : ∀ m m' h, (s.wrappers m).wrapped = some h →
      (s.wrappers m').wrapped = some h → m = m')
    (hbounded : ∀ m h, (s.wrappers m).wrapped = some h → h < s.next) (m a b : Address) (i : ℕ)
    (ha : ((s.publish m).wrappers a).wrapped = some i)
    (hb : ((s.publish m).wrappers b).wrapped = some i) : a = b := by
  have hnew : ∀ {c : Address}, c ≠ m → ((s.publish m).wrappers c).wrapped = some i →
      (s.wrappers c).wrapped = some i ∧ i < s.next := by
    intro c hc hw
    simp only [ShimState.publish, Function.update_of_ne hc] at hw
    exact ⟨hw, hbounded c i hw⟩
  have hold : ((s.publish m).wrappers m).wrapped = some i → i = s.next := by
    intro hw
    simp only [ShimState.publish, Function.update_self, Option.some.injEq] at hw
    exact hw.symm
  by_cases ham : a = m
  · by_cases hbm : b = m
    · exact ham.trans hbm.symm
    · rw [ham] at ha
      have hlt := (hnew hbm hb).2
      rw [hold ha] at hlt
      exact absurd hlt (Nat.lt_irrefl _)
  · by_cases hbm : b = m
    · rw [hbm] at hb
      have hlt := (hnew ham ha).2
      rw [hold hb] at hlt
      exact absurd hlt (Nat.lt_irrefl _)
    · exact hinjective a b i (hnew ham ha).1 (hnew hbm hb).1

theorem publish_bounded (hbounded : ∀ m h, (s.wrappers m).wrapped = some h → h < s.next)
    (m a : Address) (i : ℕ)
    (ha : ((s.publish m).wrappers a).wrapped = some i) : i < (s.publish m).next := by
  by_cases ham : a = m
  · subst ham
    simp only [ShimState.publish, Function.update_self, Option.some.injEq] at ha
    exact ha ▸ Nat.lt_succ_self _
  · simp only [ShimState.publish, Function.update_of_ne ham] at ha
    exact Nat.lt_succ_of_lt (hbounded a i ha)

end Status

/-- Only the thread with the lock is between the two looks at the pointer. -/
theorem Sound.guard_unique (h : Sound P s) {u v : Thread} (hu : (s.pc u).hasGuard = true)
    (hv : (s.pc v).hasGuard = true) : u = v :=
  Option.some.inj ((h.guard u hu).symm.trans (h.guard v hv))

/-- Who else is about the object is not alone with it. -/
theorem Sound.alone_of_object (h : Sound P s) (ht : (s.pc t).object = some m) {u : Thread}
    (hut : u ≠ t) (hu : (s.pc u).object = some m) : (s.pc u).alone = none := by
  cases halone : (s.pc u).alone with
  | none => rfl
  | some m' =>
    have hm : m' = m := Option.some.inj ((Pc.object_of_alone halone).symm.trans hu)
    subst hm
    exact absurd (h.alone u t m' halone ht).symm hut

/-- A step that leaves the objects as they are. -/
theorem Sound.move (h : Sound P s) (hwrappers : s'.wrappers = s.wrappers)
    (hhost : s'.host = s.host) (hnext : s'.next = s.next)
    (hlog : ∀ m, destroyedIn m s'.log = destroyedIn m s.log)
    (hpc : s'.pc = Function.update s.pc t p) (hmaking : (s.pc t).making = none)
    (hguard : p.hasGuard = true → s'.guard = some t)
    (hguards : ∀ u, u ≠ t → (s.pc u).hasGuard = true → s'.guard = some u)
    (hbefore : ∀ m', (s.pc t).object = some m' → m' = m)
    (hafter : p.object = some m) (hknows : Knows P s p)
    (hothers : ∀ u, u ≠ t → (s.pc u).object = some m → p.alone = none ∧ (s.pc u).alone = none)
    (hused : destroyedIn m s.log = false) : Sound P s' := by
  have hstatus : ∀ m', s'.status m' = s.status m' := by
    intro m'
    rw [ShimState.status, ShimState.status, hwrappers, hhost]
  have hknows' : ∀ {q : Pc Op Attr}, Knows P s q → Knows P s' q :=
    fun hq => hq.congr fun m' _ => hstatus m'
  refine h.change (m := m) ⟨hpc, fun m' _ => hstatus m', fun m' _ => hlog m', ?_, ?_, hguard,
    hguards, hbefore, fun m' hm' => Option.some.inj (hm'.symm.trans hafter), hknows' hknows, ?_,
    ?_, fun _ => (hlog m).trans hused⟩
  · rw [hwrappers]
    exact h.injective
  · rw [hwrappers, hnext]
    exact h.bounded
  · intro u hut hu
    exact ⟨hknows' (h.knows u), fun _ => hothers u hut hu, fun _ => (hlog m).trans hused⟩
  · intro h' obj hobj hlive
    rw [hstatus] at hobj
    rw [hlog] at hlive
    refine (h.settled m h' obj hobj hlive).imp_right ?_
    rintro ⟨u, hu⟩
    refine .inr ⟨u, ?_, hu⟩
    rintro rfl
    rw [hmaking] at hu
    cases hu

/-- The pointer is set, and nobody is making the object: it is there. -/
theorem Sound.live_of_isSome (h : Sound P s) (hsome : (s.wrappers m).wrapped.isSome = true)
    (hlive : destroyedIn m s.log = false) (hmaking : ∀ u, (s.pc u).making ≠ some m) :
    ∃ h' obj, s.status m = some (h', .live obj) := by
  obtain ⟨h', hw⟩ := Option.isSome_iff_exists.mp hsome
  have hstatus : s.status m = some (h', s.host h') := by
    rw [ShimState.status, hw]
    rfl
  rcases h.settled m h' _ hstatus hlive with ⟨obj, hobj⟩ | ⟨u, hu⟩
  · exact ⟨h', obj, hobj ▸ hstatus⟩
  · exact absurd hu (hmaking u)

theorem status_none (hnone : ¬(s.wrappers m).wrapped.isSome = true) : s.status m = none := by
  rw [ShimState.status, Option.map_eq_none_iff]
  simpa using hnone

theorem Sound.enter (h : Sound P s) (hidle : s.pc t = .idle) {request : Call Op Attr}
    (hcareful : Careful P s (.call t m request)) : Sound P (s.enter t m request) := by
  have hmaking : (s.pc t).making = none := by rw [hidle]; rfl
  have hbefore : ∀ m', (s.pc t).object = some m' → m' = m := by
    rw [hidle]
    exact fun _ hm' => by cases hm'
  have hguards : ∀ u, u ≠ t → (s.pc u).hasGuard = true → s.guard = some u :=
    fun u _ hu => h.guard u hu
  cases request with
  | op op =>
    obtain ⟨hlive, hnobody⟩ := hcareful
    have hothers : ∀ u, u ≠ t → (s.pc u).object = some m → (s.pc u).alone = none := by
      intro u _ hu
      cases halone : (s.pc u).alone with
      | none => rfl
      | some m' =>
        have hm : m' = m := Option.some.inj ((Pc.object_of_alone halone).symm.trans hu)
        exact absurd (Pc.making_of_alone (hm ▸ halone)) (hnobody u)
    unfold ShimState.enter
    dsimp only
    split_ifs with hsome
    · exact h.move rfl rfl rfl (fun _ => rfl) rfl hmaking nofun hguards hbefore rfl
        (h.live_of_isSome hsome hlive hnobody) (fun u hut hu => ⟨rfl, hothers u hut hu⟩) hlive
    · exact h.move rfl rfl rfl (fun _ => rfl) rfl hmaking nofun hguards hbefore rfl trivial
        (fun u hut hu => ⟨rfl, hothers u hut hu⟩) hlive
  | init attr =>
    have hnobody := hcareful.2
    refine h.change (m := m) (t := t) (p := .initializing m attr s.next) ⟨rfl, ?_, fun _ _ => rfl,
      publish_injective h.injective h.bounded m, publish_bounded h.bounded m, nofun, hguards,
      hbefore, ?_, ?_, ?_, ?_, nofun⟩
    · exact fun m' hm' => status_publish_of_ne h hm'
    · exact fun m' hm' => (Option.some.inj hm').symm
    · exact status_publish_self s m
    · exact fun u _ hu => absurd hu (hnobody u)
    · exact fun _ _ _ _ => .inr (.inl rfl)
  | destroy =>
    obtain ⟨hlive, hnobody, hidle'⟩ := hcareful
    have hmaking' : ∀ u, (s.pc u).making ≠ some m :=
      fun u hu => hnobody u (Pc.object_of_making hu)
    unfold ShimState.enter
    dsimp only
    split
    · rename_i h' hw
      obtain ⟨h₁, obj, hstatus⟩ := h.live_of_isSome (by rw [hw]; rfl) hlive hmaking'
      have hh : h₁ = h' := by
        rw [ShimState.status, hw] at hstatus
        exact (congrArg Prod.fst (Option.some.inj hstatus)).symm
      subst hh
      exact h.move rfl rfl rfl (fun _ => rfl) rfl hmaking nofun hguards hbefore rfl
        ⟨obj, hstatus, hidle' _ obj hstatus⟩ (fun u _ hu => absurd hu (hnobody u)) hlive
    · rename_i hw
      have hpc : s.pc = Function.update s.pc t .idle := by rw [← hidle, Function.update_eq_self]
      have hstatus : s.status m = none := by rw [ShimState.status, hw]; rfl
      refine h.change (m := m) (t := t) (p := .idle) ⟨hpc, fun _ _ => rfl, ?_, h.injective,
        h.bounded, nofun, hguards, hbefore, nofun, trivial, ?_, ?_, nofun⟩
      · intro m' hm'
        exact if_neg hm'.symm
      · exact fun u _ hu => absurd hu (hnobody u)
      · intro h' obj hobj
        rw [show (s.write (.destroyed m)).status m = s.status m from rfl, hstatus] at hobj
        cases hobj

section Advance

/-- Who is about an object that is not there yet, without the lock, waits for it. -/
theorem Knows.of_not_live (h : Knows P s p) (hp : p.object = some m)
    (hstatus : ∀ i obj, s.status m ≠ some (i, .live obj)) (hguard : p.hasGuard = false)
    (halone : p.alone = none) (s' : ShimState Op Attr Obj) : Knows P s' p := by
  cases p with
  | idle => cases hp
  | waiting => trivial
  | reading m' op | calling m' op i =>
    cases hp
    simp [Knows, hstatus] at h
  | _ => first | cases hguard; done | cases halone

/-- Who is about an object that stays there is not concerned. -/
theorem Knows.of_live (h : Knows P s p) (hp : p.object = some m) (halone : p.alone = none)
    {i : ℕ} {obj obj' : Obj} (hstatus : s.status m = some (i, .live obj))
    (hstatus' : s'.status m = some (i, .live obj')) : Knows P s' p := by
  cases p with
  | idle => cases hp
  | initializing | destroying => cases halone
  | _ =>
    cases hp
    simp_all [Knows]

/-- The thread between the two looks finds nothing, and stores the pointer. -/
theorem Sound.allocate (h : Sound P s) {op : Op} (hpc : s.pc t = .allocating m op) :
    Sound P ((s.publish m).goto t (.constructing m op s.next)) := by
  have hstatus : s.status m = none := by
    have hknows := h.knows t
    rwa [hpc] at hknows
  have ht : (s.pc t).object = some m := by rw [hpc]; rfl
  have hguard : (s.pc t).hasGuard = true := by rw [hpc]; rfl
  refine h.change (m := m) ⟨rfl, fun m' hm' => status_publish_of_ne h hm', fun _ _ => rfl,
    publish_injective h.injective h.bounded m, publish_bounded h.bounded m,
    fun _ => h.guard t hguard, fun u _ hu => h.guard u hu, ?_, ?_, status_publish_self s m, ?_,
    ?_, ?_⟩
  · exact fun m' hm' => Option.some.inj (hm'.symm.trans ht)
  · exact fun m' hm' => (Option.some.inj hm').symm
  · intro u hut hu
    have halone := h.alone_of_object ht hut hu
    have hunguarded : (s.pc u).hasGuard = false := by
      rw [Bool.eq_false_iff]
      exact fun hu' => hut (h.guard_unique hu' hguard)
    exact ⟨(h.knows u).of_not_live hu (by simp [hstatus]) hunguarded halone _,
      fun _ => ⟨rfl, halone⟩, h.used u m⟩
  · exact fun _ _ _ _ => .inr (.inl rfl)
  · exact fun _ => h.used t m (by rw [hpc]; rfl)

/-- The host's constructor. -/
theorem Sound.construct (h : Sound P s) {op : Op} {i : ℕ} (hpc : s.pc t = .constructing m op i)
    (obj : Obj) : Sound P ((s.setHost i (.live obj)).goto t (.releasing m op)) := by
  have hstatus : s.status m = some (i, .raw) := by
    have hknows := h.knows t
    rwa [hpc] at hknows
  have ht : (s.pc t).object = some m := by rw [hpc]; rfl
  have hguard : (s.pc t).hasGuard = true := by rw [hpc]; rfl
  have hlive := status_setHost_self (.live obj) hstatus
  refine h.change (m := m) ⟨rfl, fun m' hm' => status_setHost_of_ne h _ hstatus hm',
    fun _ _ => rfl, h.injective, h.bounded, fun _ => h.guard t hguard,
    fun u _ hu => h.guard u hu, ?_, ?_, ⟨i, obj, hlive⟩, ?_, ?_, ?_⟩
  · exact fun m' hm' => Option.some.inj (hm'.symm.trans ht)
  · exact fun m' hm' => (Option.some.inj hm').symm
  · intro u hut hu
    have halone := h.alone_of_object ht hut hu
    have hunguarded : (s.pc u).hasGuard = false := by
      rw [Bool.eq_false_iff]
      exact fun hu' => hut (h.guard_unique hu' hguard)
    exact ⟨(h.knows u).of_not_live hu (by simp [hstatus]) hunguarded halone _,
      fun _ => ⟨rfl, halone⟩, h.used u m⟩
  · intro i' obj' hobj' _
    rw [show ((s.setHost i (.live obj)).goto t (.releasing m op)).status m = _ from hlive] at hobj'
    cases hobj'
    exact .inl ⟨obj, rfl⟩
  · exact fun _ => h.used t m (by rw [hpc]; rfl)

/-- The last statement of a call, in which the host's object changes. -/
theorem Sound.leave (h : Sound P s) (ht : (s.pc t).object = some m) {i : ℕ}
    {o obj : HostObject Obj} (hstatus : s.status m = some (i, o)) {record : Record Op Attr}
    (hlog : ∀ m', m' ≠ m → destroyedIn m' (record :: s.log) = destroyedIn m' s.log)
    (hothers : ∀ u, u ≠ t → (s.pc u).object = some m →
      Knows P (s.setHost i obj) (s.pc u) ∧ destroyedIn m (record :: s.log) = false)
    (hsettled : destroyedIn m (record :: s.log) = false → ∃ o, obj = .live o) :
    Sound P (((s.setHost i obj).goto t .idle).write record) := by
  have hchanged := status_setHost_self obj hstatus
  refine h.change (m := m) (t := t) (p := .idle) ⟨rfl,
    fun m' hm' => status_setHost_of_ne h obj hstatus hm', hlog, h.injective, h.bounded, nofun,
    fun u _ hu => h.guard u hu, ?_, nofun, trivial, ?_, ?_, nofun⟩
  · exact fun m' hm' => Option.some.inj (hm'.symm.trans ht)
  · intro u hut hu
    obtain ⟨hknows, hlive⟩ := hothers u hut hu
    exact ⟨hknows.congr fun _ _ => rfl, nofun, fun _ => hlive⟩
  · intro i' obj' hobj' hlive
    rw [show (((s.setHost i obj).goto t .idle).write record).status m = _ from hchanged] at hobj'
    cases hobj'
    exact .inl (hsettled hlive)

/-- A step of the thread that only goes on, with the object as it is. -/
theorem Sound.goOn (h : Sound P s) {q : Pc Op Attr} (hpc : s.pc t = q) (hq : q.object = some m)
    (hmaking : q.making = none) (halone : q.alone = none) (hp : p.object = some m)
    (hp' : p.alone = none) (hknows : Knows P s p) {g : Option Thread}
    (hguard : p.hasGuard = true → g = some t)
    (hguards : ∀ u, u ≠ t → (s.pc u).hasGuard = true → g = some u) :
    Sound P ({ s with guard := g }.goto t p) := by
  subst hpc
  exact h.move rfl rfl rfl (fun _ => rfl) rfl hmaking hguard hguards
    (fun _ hm' => Option.some.inj (hm'.symm.trans hq)) hp hknows
    (fun _ hut hu => ⟨hp', h.alone_of_object hq hut hu⟩) (h.used t m (Pc.uses_of_object hq halone))

/-- Under the lock, and with the object in use, nobody is making it. -/
theorem Sound.making_ne (h : Sound P s) (ht : (s.pc t).object = some m)
    (hguard : (s.pc t).hasGuard = true) (hmaking : (s.pc t).making = none) (u : Thread) :
    (s.pc u).making ≠ some m := by
  intro hu
  have hut : u ≠ t := by
    rintro rfl
    rw [hmaking] at hu
    cases hu
  have halone := h.alone_of_object ht hut (Pc.object_of_making hu)
  have hu' : (s.pc u).hasGuard = true := by
    cases hq : s.pc u <;> rw [hq] at hu halone <;> first | rfl | cases hu; done | cases halone
  exact hut (h.guard_unique hu' hguard)

theorem host_of_status {i : ℕ} {o : HostObject Obj} (hstatus : s.status m = some (i, o)) :
    (s.wrappers m).wrapped = some i ∧ s.host i = o := by
  obtain ⟨i', hw, heq⟩ := Option.map_eq_some_iff.mp hstatus
  cases heq
  exact ⟨hw, rfl⟩

/-- A thread's next statement, whoever else is about. -/
theorem Sound.advance (h : Sound P s) (hstep : Advance P s t s') : Sound P s' := by
  have hguards : ∀ u, u ≠ t → (s.pc u).hasGuard = true → s.guard = some u :=
    fun u _ hu => h.guard u hu
  have hknows := h.knows t
  have hguard := h.guard t
  have hused := h.used t
  cases hstep with
  | @lock m op hpc hfree =>
    refine h.goOn (p := .guarded m op) hpc rfl rfl rfl rfl rfl trivial (fun _ => rfl)
      fun u _ hu => ?_
    rw [h.guard u hu] at hfree
    cases hfree
  | @found m op hpc hsome =>
    -- Who is making the object has the lock, so at the second look nobody is.
    have hmaking : ∀ u, (s.pc u).making ≠ some m :=
      h.making_ne (by rw [hpc]; rfl) (by rw [hpc]; rfl) (by rw [hpc]; rfl)
    rw [hpc] at hguard hused
    exact h.goOn (p := .releasing m op) hpc rfl rfl rfl rfl rfl
      (h.live_of_isSome hsome (hused m rfl) hmaking) (fun _ => hguard rfl) hguards
  | @missing m op hpc hnone =>
    rw [hpc] at hguard
    exact h.goOn (p := .allocating m op) hpc rfl rfl rfl rfl rfl (status_none hnone)
      (fun _ => hguard rfl) hguards
  | allocate hpc => exact h.allocate hpc
  | construct hpc => exact h.construct hpc _
  | @release m op hpc =>
    have ht : (s.pc t).hasGuard = true := by rw [hpc]; rfl
    rw [hpc] at hknows
    exact h.goOn (p := .reading m op) hpc rfl rfl rfl rfl rfl hknows nofun
      fun u hut hu => absurd (h.guard_unique hu ht) hut
  | @hand m op i hpc hwrapped =>
    have ht : (s.pc t).object = some m := by rw [hpc]; rfl
    rw [hpc] at hknows hused
    obtain ⟨i', obj, hstatus⟩ := hknows
    have hi : i' = i := Option.some.inj ((host_of_status hstatus).1.symm.trans hwrapped)
    subst hi
    exact h.move rfl rfl rfl (fun _ => rfl) rfl (by rw [hpc]; rfl) nofun hguards
      (fun _ hm' => Option.some.inj (hm'.symm.trans ht)) rfl ⟨obj, hstatus⟩
      (fun u hut hu => ⟨rfl, h.alone_of_object ht hut hu⟩) (hused m rfl)
  | @call m op i obj obj' result hpc hlive hcall =>
    have ht : (s.pc t).object = some m := by rw [hpc]; rfl
    rw [hpc] at hknows hused
    obtain ⟨obj, hstatus⟩ := hknows
    refine h.leave ht hstatus (fun _ _ => rfl) (fun u hut hu => ⟨?_, hused m rfl⟩)
      fun _ => ⟨_, rfl⟩
    exact (h.knows u).of_live hu (h.alone_of_object ht hut hu) hstatus
      (status_setHost_self (.live obj') hstatus)
  | @init m attr i hpc =>
    have ht : (s.pc t).alone = some m := by rw [hpc]; rfl
    rw [hpc] at hknows
    refine h.leave (Pc.object_of_alone ht) hknows ?_ ?_ fun _ => ⟨_, rfl⟩
    · exact fun m' hm' => if_neg hm'.symm
    · exact fun u hut hu => absurd (h.alone t u m ht hu) hut
  | @destroy m i obj hpc hlive =>
    have ht : (s.pc t).alone = some m := by rw [hpc]; rfl
    rw [hpc] at hknows
    obtain ⟨obj, hstatus, -⟩ := hknows
    refine h.leave (Pc.object_of_alone ht) hstatus ?_ ?_ fun hlog => ?_
    · exact fun m' hm' => if_neg hm'.symm
    · exact fun u hut hu => absurd (h.alone t u m ht hu) hut
    · rw [destroyedIn, if_pos rfl] at hlog
      cases hlog

/-- A call of `init` that fails leaves the object as if it were destroyed. -/
theorem Sound.refuse (h : Sound P s) (hcareful : Careful P s (.refuse t))
    (hstep : Refusal P s t s') : Sound P s' := by
  have hknows := h.knows t
  cases hstep with
  | static hpc hthrows => exact absurd hpc (hcareful _ _ _)
  | @init m attr i hpc =>
    have ht : (s.pc t).alone = some m := by rw [hpc]; rfl
    rw [hpc] at hknows
    refine h.leave (Pc.object_of_alone ht) hknows ?_ ?_ fun hlog => ?_
    · exact fun m' hm' => if_neg hm'.symm
    · exact fun u hut hu => absurd (h.alone t u m ht hu) hut
    · rw [destroyedIn, if_pos rfl] at hlog
      cases hlog

end Advance

end Steps

end Sober.Shim
