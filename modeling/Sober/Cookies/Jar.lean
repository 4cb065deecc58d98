import Sober.Text.Scan
import Sober.Transition.Run
import Mathlib.Data.Finmap

/-! # The cookie file

`onSetCookie` stores the cookies of its headers in a map and rewrites the cookie file;
at the start the file is read back into an empty map. The writer puts a semicolon and a
blank between cookies and the reader splits at the semicolon, so every name after the
first comes back with a blank in front. The writer's loop reads the first entry of the
map before it asks whether there is one.
-/
namespace Sober
open Text Transition

abbrev CookieText := List Char

abbrev CookieMap := Finmap (fun _ : CookieText => CookieText)

inductive CookieFault where
  /-- The end of the map is dereferenced. -/
  | pastTheEnd

def cookieKey (cookie : CookieText) : CookieText := before cookie (find '=' cookie)

def cookieValue (cookie : CookieText) : CookieText := after cookie (find '=' cookie)

def assignCookie (cookies : CookieMap) (cookie : CookieText) : CookieMap :=
  cookies.insert (cookieKey cookie) (cookieValue cookie)

def headerCookie (header : CookieText) : CookieText := before header (find ';' header)

/-- The first loop of `onSetCookie`. -/
def assignHeaders (cookies : CookieMap) (headers : List CookieText) : CookieMap :=
  headers.foldl (fun cookies header => assignCookie cookies (headerCookie header)) cookies

structure Enumerates (entries : List (CookieText × CookieText)) (cookies : CookieMap) : Prop where
  nodup : (entries.map Prod.fst).Nodup
  mem_iff : ∀ key value, (key, value) ∈ entries ↔ cookies.lookup key = some value

def entryText (entry : CookieText × CookieText) : CookieText := entry.1 ++ '=' :: entry.2

/-- The second loop of `onSetCookie`: the text of the cookie file. -/
def writeCookies : List (CookieText × CookieText) → Except CookieFault CookieText
  | [] => .error .pastTheEnd
  | [entry] => .ok (entryText entry)
  | entry :: rest => do
    let text ← writeCookies rest
    .ok (entryText entry ++ ';' :: ' ' :: text)

/-- The loop of `main` over the cookie file. -/
def readCookies (text : CookieText) (cookies : CookieMap) : CookieMap :=
  (pieces ';' text).foldl assignCookie cookies

/-- Names without a semicolon and an equals sign, values without a semicolon. -/
def Plain (cookies : CookieMap) : Prop :=
  ∀ key value, cookies.lookup key = some value → ';' ∉ key ∧ '=' ∉ key ∧ ';' ∉ value

structure WellFormed (cookies : CookieMap) : Prop where
  plain : Plain cookies
  no_blank : ∀ key ∈ cookies, ∀ rest, key ≠ ' ' :: rest

def RoundTrips (entries : List (CookieText × CookieText)) (cookies : CookieMap) : Prop :=
  ∃ text, writeCookies entries = .ok text ∧ readCookies text ∅ = cookies

section Entries
variable {entry : CookieText × CookieText}

theorem cookieKey_entryText (hkey : '=' ∉ entry.1) : cookieKey (entryText entry) = entry.1 :=
  before_find_append hkey

theorem cookieValue_entryText (hkey : '=' ∉ entry.1) : cookieValue (entryText entry) = entry.2 :=
  after_find_append hkey

theorem entryText_ne_nil (entry : CookieText × CookieText) : entryText entry ≠ [] := by
  simp [entryText]

theorem semicolon_notMem_entryText (hkey : ';' ∉ entry.1) (hvalue : ';' ∉ entry.2) :
    ';' ∉ entryText entry := by
  simp [entryText, hkey, hvalue]

theorem semicolon_notMem_headerCookie (header : CookieText) : ';' ∉ headerCookie header :=
  notMem_before_find ';' header

theorem equals_notMem_cookieKey (cookie : CookieText) : '=' ∉ cookieKey cookie :=
  notMem_before_find '=' cookie

end Entries

/-- A map of one entry is read back. -/
theorem readCookies_singleton {entry : CookieText × CookieText} (hequals : '=' ∉ entry.1)
    (hkey : ';' ∉ entry.1) (hvalue : ';' ∉ entry.2) :
    readCookies (entryText entry) ∅ = (∅ : CookieMap).insert entry.1 entry.2 := by
  have hpieces := pieces_of_notMem (semicolon_notMem_entryText hkey hvalue) (entryText_ne_nil entry)
  rw [readCookies, hpieces, List.foldl_cons, List.foldl_nil, assignCookie,
    cookieKey_entryText hequals, cookieValue_entryText hequals]

theorem mem_assignCookies {key : CookieText} (cookies : List CookieText) (m : CookieMap) :
    key ∈ cookies.foldl assignCookie m ↔ key ∈ m ∨ ∃ cookie ∈ cookies, cookieKey cookie = key := by
  induction cookies generalizing m with
  | nil => simp
  | cons cookie rest ih =>
    rw [List.foldl_cons, ih, assignCookie, Finmap.mem_insert]
    simp only [List.mem_cons, exists_eq_or_imp, or_assoc]
    constructor
    · rintro (h | h | h)
      · exact .inr (.inl h.symm)
      · exact .inl h
      · exact .inr (.inr h)
    · rintro (h | h | h)
      · exact .inr (.inl h)
      · exact .inl h.symm
      · exact .inr (.inr h)

namespace Enumerates
variable {entries : List (CookieText × CookieText)} {cookies : CookieMap}

theorem length_eq (h : Enumerates entries cookies) : entries.length = cookies.keys.card := by
  have hkeys : cookies.keys = (entries.map Prod.fst).toFinset := by
    ext key
    simp only [Finmap.mem_keys, Finmap.mem_iff, List.mem_toFinset, List.mem_map, Prod.exists,
      h.mem_iff]
    constructor
    · rintro ⟨value, hvalue⟩
      exact ⟨key, value, hvalue, rfl⟩
    · rintro ⟨key', value, hvalue, rfl⟩
      exact ⟨value, hvalue⟩
  rw [hkeys, List.toFinset_card_of_nodup h.nodup, List.length_map]

theorem eq_insert {entry : CookieText × CookieText} (h : Enumerates [entry] cookies) :
    (∅ : CookieMap).insert entry.1 entry.2 = cookies := by
  apply Finmap.ext_lookup
  intro key
  by_cases hkey : key = entry.1
  · subst hkey
    rw [Finmap.lookup_insert]
    exact ((h.mem_iff _ _).mp (List.mem_singleton_self _)).symm
  · rw [Finmap.lookup_insert_of_ne _ hkey, Finmap.lookup_empty]
    cases hlookup : cookies.lookup key with
    | none => rfl
    | some value =>
      have hmem := List.mem_singleton.mp ((h.mem_iff key value).mpr hlookup)
      exact absurd (congrArg Prod.fst hmem) hkey

theorem plain_entry (h : Enumerates entries cookies) (hplain : Plain cookies)
    {entry : CookieText × CookieText} (hentry : entry ∈ entries) :
    ';' ∉ entry.1 ∧ '=' ∉ entry.1 ∧ ';' ∉ entry.2 :=
  hplain entry.1 entry.2 ((h.mem_iff _ _).mp hentry)

/-- A map with one cookie survives. -/
theorem roundTrips (h : Enumerates entries cookies) (hplain : Plain cookies)
    (hcard : cookies.keys.card = 1) : RoundTrips entries cookies := by
  obtain ⟨entry, rfl⟩ := List.length_eq_one_iff.mp (h.length_eq.trans hcard)
  obtain ⟨hkey, hequals, hvalue⟩ := h.plain_entry hplain (List.mem_singleton_self entry)
  refine ⟨entryText entry, rfl, ?_⟩
  rw [readCookies_singleton hequals hkey hvalue]
  exact h.eq_insert

end Enumerates

theorem writeCookies_cons_inv {entry : CookieText × CookieText}
    {rest : List (CookieText × CookieText)} {text : CookieText}
    (h : writeCookies (entry :: rest) = .ok text) :
    rest = [] ∧ text = entryText entry ∨
      ∃ more, writeCookies rest = .ok more ∧ text = entryText entry ++ ';' :: ' ' :: more := by
  cases rest with
  | nil =>
    cases h
    exact .inl ⟨rfl, rfl⟩
  | cons next rest =>
    obtain ⟨more, hrest, hmore⟩ := Transition.ok_of_bind h
    cases hmore
    exact .inr ⟨more, hrest, rfl⟩

theorem writeCookies_ok {entries : List (CookieText × CookieText)} (h : entries ≠ []) :
    ∃ text, writeCookies entries = .ok text := by
  induction entries with
  | nil => exact absurd rfl h
  | cons entry rest ih =>
    cases rest with
    | nil => exact ⟨_, rfl⟩
    | cons next rest =>
      obtain ⟨text, htext⟩ := ih nofun
      refine ⟨entryText entry ++ ';' :: ' ' :: text, ?_⟩
      rw [writeCookies, htext]
      · rfl
      · exact nofun

/-- The second cookie of a file comes back under a name with a blank in front. -/
theorem blank_mem_readCookies {first second : CookieText × CookieText}
    {rest : List (CookieText × CookieText)} {text : CookieText}
    (hfirst : ';' ∉ entryText first) (hsecond : ';' ∉ entryText second)
    (hequals : '=' ∉ second.1) (h : writeCookies (first :: second :: rest) = .ok text) :
    ' ' :: second.1 ∈ readCookies text ∅ := by
  obtain ⟨hnil, -⟩ | ⟨more, hmore, rfl⟩ := writeCookies_cons_inv h
  · cases hnil
  · have hblank : ' ' :: entryText second = entryText (' ' :: second.1, second.2) := rfl
    have hpiece : ';' ∉ entryText (' ' :: second.1, second.2) := by
      rw [← hblank]
      simpa using hsecond
    have hmem : entryText (' ' :: second.1, second.2) ∈ pieces ';' (' ' :: more) := by
      obtain ⟨-, rfl⟩ | ⟨last, -, rfl⟩ := writeCookies_cons_inv hmore
      · rw [hblank, pieces_of_notMem hpiece (entryText_ne_nil _)]
        exact List.mem_singleton_self _
      · rw [← List.cons_append, hblank, pieces_append hpiece]
        exact List.mem_cons_self ..
    have hkey : cookieKey (entryText (' ' :: second.1, second.2)) = ' ' :: second.1 :=
      cookieKey_entryText (by simpa using hequals)
    rw [readCookies, pieces_append hfirst]
    exact (mem_assignCookies _ _).mpr (.inr ⟨_, List.mem_cons_of_mem _ hmem, hkey⟩)

theorem roundTrips_iff {entries : List (CookieText × CookieText)} {cookies : CookieMap}
    (henum : Enumerates entries cookies) (hform : WellFormed cookies) :
    RoundTrips entries cookies ↔ cookies.keys.card = 1 := by
  constructor
  · rintro ⟨text, hwrite, hread⟩
    rw [← henum.length_eq]
    match entries with
    | [] => cases hwrite
    | [entry] => rfl
    | first :: second :: rest =>
      obtain ⟨hkey₁, -, hvalue₁⟩ := henum.plain_entry hform.plain (List.mem_cons_self ..)
      obtain ⟨hkey₂, hequals₂, hvalue₂⟩ :=
        henum.plain_entry hform.plain (List.mem_cons_of_mem _ (List.mem_cons_self ..))
      have hmem := blank_mem_readCookies (semicolon_notMem_entryText hkey₁ hvalue₁)
        (semicolon_notMem_entryText hkey₂ hvalue₂) hequals₂ hwrite
      rw [hread] at hmem
      exact absurd rfl (hform.no_blank _ hmem second.1)
  · exact henum.roundTrips hform.plain

/-- The map of the running process, and the file that outlives it. -/
structure CookieState where
  cookies : CookieMap
  file : CookieText

def CookieState.initial : CookieState := ⟨∅, []⟩

inductive CookieEvent where
  /-- A call with these headers; the map is written in this order. -/
  | onSetCookie (headers : List CookieText) (order : List (CookieText × CookieText))
  | restart

namespace CookieEvent

def headers : CookieEvent → List CookieText
  | onSetCookie headers _ => headers
  | restart => []

def step (s : CookieState) : CookieEvent → Except CookieFault CookieState
  | onSetCookie headers order =>
    (writeCookies order).map (fun text => ⟨assignHeaders s.cookies headers, text⟩)
  | restart => .ok ⟨readCookies s.file ∅, s.file⟩

def Possible (s : CookieState) : CookieEvent → Prop
  | onSetCookie headers order => Enumerates order (assignHeaders s.cookies headers)
  | restart => True

/-- There is a cookie to write, and at most one to read back. -/
def Fits (s : CookieState) : CookieEvent → Prop
  | onSetCookie headers _ => headers ≠ [] ∨ s.cookies ≠ ∅
  | restart => s.cookies.keys.card ≤ 1

end CookieEvent

theorem assignHeaders_append (cookies : CookieMap) (headers more : List CookieText) :
    assignHeaders cookies (headers ++ more) = assignHeaders (assignHeaders cookies headers) more :=
  List.foldl_append

theorem foldl_assignHeaders (es : List CookieEvent) (cookies : CookieMap) :
    es.foldl (fun cookies e => assignHeaders cookies e.headers) cookies =
      assignHeaders cookies (es.flatMap CookieEvent.headers) := by
  induction es generalizing cookies with
  | nil => rfl
  | cons e es ih => rw [List.foldl_cons, ih, List.flatMap_cons, assignHeaders_append]

theorem mem_assignHeaders {key : CookieText} (cookies : CookieMap) (headers : List CookieText) :
    key ∈ assignHeaders cookies headers ↔
      key ∈ cookies ∨ ∃ header ∈ headers, cookieKey (headerCookie header) = key := by
  have hmap : assignHeaders cookies headers =
      (headers.map headerCookie).foldl assignCookie cookies := List.foldl_map.symm
  rw [hmap, mem_assignCookies]
  simp

/-- What headers bring is plain. -/
theorem Plain.assignHeaders {cookies : CookieMap} (h : Plain cookies) (headers : List CookieText) :
    Plain (assignHeaders cookies headers) := by
  induction headers generalizing cookies with
  | nil => exact h
  | cons header rest ih =>
    apply ih
    intro key value hlookup
    change (cookies.insert _ _).lookup key = some value at hlookup
    have hcookie := semicolon_notMem_headerCookie header
    by_cases hkey : key = cookieKey (headerCookie header)
    · subst hkey
      rw [Finmap.lookup_insert, Option.some.injEq] at hlookup
      subst hlookup
      exact ⟨fun hmem => hcookie (mem_of_mem_before hmem), equals_notMem_cookieKey _,
        fun hmem => hcookie (mem_of_mem_after hmem)⟩
    · rw [Finmap.lookup_insert_of_ne _ hkey] at hlookup
      exact h key value hlookup

/-- The file holds the map, or neither has been written. -/
structure CookieState.Synced (s : CookieState) : Prop where
  plain : Plain s.cookies
  file : s.cookies = ∅ ∧ s.file = [] ∨
    ∃ order, Enumerates order s.cookies ∧ writeCookies order = .ok s.file

theorem CookieState.Synced.restart {s : CookieState} (h : s.Synced)
    (hcard : s.cookies.keys.card ≤ 1) : readCookies s.file ∅ = s.cookies := by
  rcases h.file with ⟨hempty, hfile⟩ | ⟨order, henum, hwrite⟩
  · rw [hempty, hfile]
    rfl
  · have hone : s.cookies.keys.card = 1 := by
      have hlength := henum.length_eq
      cases order with
      | nil => cases hwrite
      | cons entry rest =>
        rw [List.length_cons] at hlength
        omega
    obtain ⟨text, hwrite', hread⟩ := henum.roundTrips h.plain hone
    rw [hwrite, Except.ok.injEq] at hwrite'
    rwa [hwrite']

theorem CookieState.Synced.step {s s' : CookieState} {e : CookieEvent} (h : s.Synced)
    (hpossible : e.Possible s) (hfits : e.Fits s) (hstep : e.step s = .ok s') :
    s'.Synced ∧ s'.cookies = assignHeaders s.cookies e.headers := by
  cases e with
  | onSetCookie headers order =>
    obtain ⟨text, hwrite, rfl⟩ := Transition.ok_of_map hstep
    exact ⟨⟨h.plain.assignHeaders headers, .inr ⟨order, hpossible, hwrite⟩⟩, rfl⟩
  | restart =>
    cases hstep
    have hread := h.restart hfits
    refine ⟨⟨?_, ?_⟩, hread⟩
    · simpa only [hread] using h.plain
    · simpa only [hread] using h.file

/-- There is something to write when the call brings a cookie or one is there. -/
theorem CookieEvent.step_ok {s : CookieState} {e : CookieEvent} (hpossible : e.Possible s)
    (hfits : e.Fits s) : ∃ s', e.step s = .ok s' := by
  cases e with
  | restart => exact ⟨_, rfl⟩
  | onSetCookie headers order =>
    have hkey : ∃ key, key ∈ assignHeaders s.cookies headers := by
      rcases hfits with hheaders | hcookies
      · obtain ⟨header, hmem⟩ := List.exists_mem_of_ne_nil headers hheaders
        exact ⟨_, (mem_assignHeaders _ _).mpr (.inr ⟨header, hmem, rfl⟩)⟩
      · by_contra hnone
        apply hcookies
        apply Finmap.ext_lookup
        intro key
        rw [Finmap.lookup_empty, Finmap.lookup_eq_none]
        exact fun hmem => hnone ⟨key, (mem_assignHeaders _ _).mpr (.inl hmem)⟩
    obtain ⟨key, hkey⟩ := hkey
    obtain ⟨value, hvalue⟩ := Finmap.mem_iff.mp hkey
    have hentry := (hpossible.mem_iff key value).mpr hvalue
    obtain ⟨text, htext⟩ := writeCookies_ok (List.ne_nil_of_mem hentry)
    exact ⟨_, by rw [step, htext]; rfl⟩

theorem cookieRun_synced {es : List CookieEvent} {s : CookieState}
    (hrun : Run CookieEvent.step (fun s e => e.Possible s ∧ e.Fits s) CookieState.initial es s) :
    s.Synced ∧ s.cookies = assignHeaders ∅ (es.flatMap CookieEvent.headers) := by
  have hstart : CookieState.initial.Synced :=
    ⟨fun key value hlookup => by simp [CookieState.initial] at hlookup, .inl ⟨rfl, rfl⟩⟩
  rw [← foldl_assignHeaders]
  apply hrun.simulates (R := fun s cookies => s.Synced ∧ s.cookies = cookies) _ ⟨hstart, rfl⟩
  rintro s e s' _ ⟨hsynced, rfl⟩ ⟨hpossible, hfits⟩ hstep
  exact hsynced.step hpossible hfits hstep

/-- A well-formed map comes back exactly if it has one cookie. In every run that writes
only maps with a cookie and restarts only with at most one, the stored map is what the
headers received so far leave, the last one of a name winning, with one entry for each
name; and no call faults. -/
theorem cookies_survive_alone {cookies : CookieMap} {order : List (CookieText × CookieText)}
    (henum : Enumerates order cookies) (hform : WellFormed cookies) {es : List CookieEvent}
    {s : CookieState}
    (hrun : Run CookieEvent.step (fun s e => e.Possible s ∧ e.Fits s) CookieState.initial es s) :
    (RoundTrips order cookies ↔ cookies.keys.card = 1) ∧
    s.cookies = assignHeaders ∅ (es.flatMap CookieEvent.headers) ∧
    (∀ key, key ∈ s.cookies ↔
      ∃ header ∈ es.flatMap CookieEvent.headers, cookieKey (headerCookie header) = key) ∧
    ∀ e : CookieEvent, e.Possible s → e.Fits s → ∃ s', e.step s = .ok s' := by
  obtain ⟨-, hcookies⟩ := cookieRun_synced hrun
  refine ⟨roundTrips_iff henum hform, hcookies, ?_, fun e => CookieEvent.step_ok⟩
  intro key
  rw [hcookies, mem_assignHeaders]
  exact or_iff_right Finmap.notMem_empty

theorem Enumerates.nil : Enumerates [] (∅ : CookieMap) :=
  ⟨List.nodup_nil, by simp⟩

theorem Enumerates.cons {entries : List (CookieText × CookieText)} {cookies : CookieMap}
    (h : Enumerates entries cookies) {key : CookieText} (hkey : key ∉ cookies)
    (value : CookieText) : Enumerates ((key, value) :: entries) (cookies.insert key value) := by
  have hnot : ∀ v, (key, v) ∉ entries := by
    intro v hv
    exact hkey (Finmap.mem_of_lookup_eq_some ((h.mem_iff key v).mp hv))
  constructor
  · rw [List.map_cons, List.nodup_cons]
    refine ⟨?_, h.nodup⟩
    intro hmem
    obtain ⟨⟨key', v⟩, hv, rfl⟩ := List.mem_map.mp hmem
    exact hnot v hv
  · intro key' value'
    by_cases hk : key' = key
    · subst hk
      simp [hnot, eq_comm]
    · rw [Finmap.lookup_insert_of_ne _ hk, ← h.mem_iff]
      simp [hk]

/-- One cookie is set, survives a restart, and is set again. -/
theorem cookies_survive_alone_reset :
    RoundTrips [(['a'], ['1', '='])] ((∅ : CookieMap).insert ['a'] ['1', '=']) ∧
    ∃ s, Run CookieEvent.step (fun s e => e.Possible s ∧ e.Fits s) CookieState.initial
        [.onSetCookie [['a', '=', '1', ';', 'x']] [(['a'], ['1'])], .restart,
          .onSetCookie [['a', '=', '2']] [(['a'], ['2'])]] s ∧
      s.cookies = assignHeaders ∅ [['a', '=', '1', ';', 'x'], ['a', '=', '2']] := by
  have henum : Enumerates [(['a'], ['1', '='])] ((∅ : CookieMap).insert ['a'] ['1', '=']) :=
    .cons .nil Finmap.notMem_empty _
  have hform : WellFormed ((∅ : CookieMap).insert ['a'] ['1', '=']) := by
    constructor
    · intro key value hlookup
      have hmem := (henum.mem_iff key value).mpr hlookup
      cases List.mem_singleton.mp hmem
      decide
    · intro key hkey rest
      rcases Finmap.mem_insert.mp hkey with rfl | hkey
      · simp
      · exact absurd hkey Finmap.notMem_empty
  have hagain : Enumerates [(['a'], ['2'])]
      (((∅ : CookieMap).insert ['a'] ['1']).insert ['a'] ['2']) := by
    rw [Finmap.insert_insert]
    exact .cons .nil Finmap.notMem_empty _
  have hrun : Run CookieEvent.step (fun s e => e.Possible s ∧ e.Fits s) CookieState.initial
      [.onSetCookie [['a', '=', '1', ';', 'x']] [(['a'], ['1'])], .restart,
        .onSetCookie [['a', '=', '2']] [(['a'], ['2'])]] _ :=
    .cons ⟨.cons .nil Finmap.notMem_empty _, .inl nofun⟩ rfl <|
    .cons ⟨trivial, Nat.le_refl 1⟩ rfl <|
    .cons ⟨hagain, .inl nofun⟩ rfl (.nil _)
  obtain ⟨hround, hcookies, -⟩ := cookies_survive_alone henum hform hrun
  exact ⟨hround.mpr rfl, _, hrun, hcookies⟩

/-- The second of two cookies comes back under another name, and writing an empty map
runs past its end. -/
theorem second_cookie_is_renamed :
    (∃ s, Run CookieEvent.step CookieEvent.Possible CookieState.initial
        [.onSetCookie [['a', '=', '1'], ['b', '=', '2']] [(['b'], ['2']), (['a'], ['1'])],
          .restart] s ∧
      s.cookies.lookup ['a'] = none ∧ s.cookies.lookup [' ', 'a'] = some ['1']) ∧
    CookieEvent.Possible CookieState.initial (.onSetCookie [] []) ∧
    CookieEvent.step CookieState.initial (.onSetCookie [] []) = .error .pastTheEnd := by
  have henum : Enumerates [(['b'], ['2']), (['a'], ['1'])]
      (((∅ : CookieMap).insert ['a'] ['1']).insert ['b'] ['2']) :=
    .cons (.cons .nil Finmap.notMem_empty _) (by decide) _
  exact ⟨⟨_, .cons henum rfl <| .cons trivial rfl (.nil _), rfl, rfl⟩, .nil, rfl⟩

end Sober
