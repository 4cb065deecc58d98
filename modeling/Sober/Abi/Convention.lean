import Sober.Machine.Memory

/-! # Register and stack placement of doubleword arguments

A calling convention is given by the number of argument registers of each
kind. Parameters are placed from left to right; one that finds no register of
its kind left takes the next stack slot, whatever its kind. Placing a list of
arguments and reading it back at the same kinds gives the list again.
-/
namespace Sober.Abi
open Machine

inductive Kind where
  | integer
  | floating
  deriving DecidableEq, Repr

inductive Location where
  | register (kind : Kind) (index : ℕ)
  | stack (slot : ℕ)
  deriving DecidableEq, Repr

/-- Argument registers of each kind and the doubleword slots of the stack. -/
structure ArgState where
  reg : Kind → ℕ → Word
  stack : ℕ → Word

def ArgState.at (s : ArgState) : Location → Word
  | .register k i => s.reg k i
  | .stack j => s.stack j

def ArgState.set (s : ArgState) (l : Location) (v : Word) : ArgState :=
  match l with
  | .register k i => { s with reg := Function.update s.reg k (Function.update (s.reg k) i v) }
  | .stack j => { s with stack := Function.update s.stack j v }

@[simp] theorem ArgState.at_set_self (s : ArgState) (l : Location) (v : Word) :
    (s.set l v).at l = v := by
  cases l <;> simp [ArgState.set, ArgState.at]

theorem ArgState.at_set_of_ne (s : ArgState) {l l' : Location} (v : Word) (h : l' ≠ l) :
    (s.set l v).at l' = s.at l' := by
  cases l with
  | stack j =>
    cases l' with
    | register k i => rfl
    | stack j' =>
      have hj : j' ≠ j := fun e => h (by rw [e])
      simp [ArgState.set, ArgState.at, hj]
  | register k i =>
    cases l' with
    | stack j' => rfl
    | register k' i' =>
      by_cases hk : k' = k
      · subst hk
        have hi : i' ≠ i := fun e => h (by rw [e])
        simp [ArgState.set, ArgState.at, hi]
      · simp [ArgState.set, ArgState.at, hk]

structure Convention where
  limit : Kind → ℕ

def aapcs64 : Convention := ⟨fun _ => 8⟩

def systemV : Convention := ⟨fun | .integer => 6 | .floating => 8⟩

namespace Convention
variable (c : Convention)

/-- How many of the parameters find no register: each kind spills its excess. -/
def spilled (ks : List Kind) : ℕ :=
  (ks.count .integer - c.limit .integer) + (ks.count .floating - c.limit .floating)

/-- Where the parameter of kind `k` that follows the parameters `ks` goes. -/
def next (ks : List Kind) (k : Kind) : Location :=
  if ks.count k < c.limit k then .register k (ks.count k) else .stack (c.spilled ks)

/-- The location of every parameter, each decided by the parameters before it. -/
def locations (ks : List Kind) : List Location :=
  List.ofFn (fun i : Fin ks.length => c.next (ks.take i) ks[i])

theorem locations_getElem? (ks : List Kind) {i : ℕ} (hi : i < ks.length) :
    (c.locations ks)[i]? = some (c.next (ks.take i) ks[i]) := by
  simp [locations, hi]

@[simp] theorem locations_nil : c.locations [] = [] := rfl

theorem locations_concat (ks : List Kind) (k : Kind) :
    c.locations (ks ++ [k]) = c.locations ks ++ [c.next ks k] := by
  apply List.ext_getElem?
  intro i
  rcases lt_trichotomy i ks.length with hi | rfl | hi
  · have hlen : (c.locations ks).length = ks.length := by simp [locations]
    rw [List.getElem?_append_left (by omega), c.locations_getElem? ks hi,
      c.locations_getElem? (ks ++ [k]) (by simp; omega), List.take_append_of_le_length hi.le,
      List.getElem_append_left hi]
  · rw [c.locations_getElem? (ks ++ [k]) (by simp)]
    simp [locations]
  · simp [locations, hi]

theorem spilled_concat (ks : List Kind) (k : Kind) :
    c.spilled (ks ++ [k]) = c.spilled ks + if ks.count k < c.limit k then 0 else 1 := by
  cases k <;> simp only [spilled, List.count_append, List.count_singleton_self,
    List.count_singleton, beq_iff_eq, reduceCtorEq, if_false, add_zero] <;>
    split_ifs <;> omega

section Next
variable {c} {ks : List Kind} {k : Kind}

theorem next_of_lt (h : ks.count k < c.limit k) : c.next ks k = .register k (ks.count k) :=
  if_pos h

theorem next_of_not_lt (h : ¬ ks.count k < c.limit k) : c.next ks k = .stack (c.spilled ks) :=
  if_neg h

theorem spilled_concat_of_lt (h : ks.count k < c.limit k) :
    c.spilled (ks ++ [k]) = c.spilled ks := by
  rw [spilled_concat, if_pos h, Nat.add_zero]

theorem spilled_concat_of_not_lt (h : ¬ ks.count k < c.limit k) :
    c.spilled (ks ++ [k]) = c.spilled ks + 1 := by
  rw [spilled_concat, if_neg h]

end Next

/-- Register indices stay below what the parameters use, stack slots below what they spill. -/
def Occupied (ks : List Kind) : Location → Prop
  | .register k i => i < ks.count k
  | .stack j => j < c.spilled ks

theorem Occupied.concat {ks : List Kind} {l : Location} (h : c.Occupied ks l) (k : Kind) :
    c.Occupied (ks ++ [k]) l := by
  cases l with
  | register k' i =>
    simp only [Occupied, List.count_append] at h ⊢
    omega
  | stack j =>
    simp only [Occupied, spilled_concat] at h ⊢
    omega

theorem next_occupied (ks : List Kind) (k : Kind) : c.Occupied (ks ++ [k]) (c.next ks k) := by
  unfold next
  split_ifs with h
  · simp [Occupied]
  · simp [Occupied, spilled_concat, h]

theorem occupied_of_mem {ks : List Kind} {l : Location} (h : l ∈ c.locations ks) :
    c.Occupied ks l := by
  induction ks using List.reverseRecOn with
  | nil => simp at h
  | append_singleton ks k ih =>
    rw [locations_concat, List.mem_append, List.mem_singleton] at h
    rcases h with h | rfl
    · exact (ih h).concat c k
    · exact c.next_occupied ks k

/-- No earlier parameter sits where the next one goes. -/
theorem next_not_mem (ks : List Kind) (k : Kind) : c.next ks k ∉ c.locations ks := by
  intro h
  have ho := c.occupied_of_mem h
  unfold next at ho
  split_ifs at ho <;> simp [Occupied] at ho

/-- Parameters that fit the registers of their kind all travel in registers. -/
theorem register_of_mem {ks : List Kind} (hfit : ∀ k, ks.count k ≤ c.limit k) {l : Location}
    (h : l ∈ c.locations ks) : ∃ k i, l = .register k i ∧ i < ks.count k := by
  cases l with
  | register k i => exact ⟨k, i, rfl, c.occupied_of_mem h⟩
  | stack j =>
    have hj := c.occupied_of_mem h
    have hint := hfit .integer
    have hflt := hfit .floating
    simp only [Occupied, spilled] at hj
    omega

/-- Where everything fits, two conventions place the parameters alike. -/
theorem locations_eq_of_fit (d : Convention) {ks : List Kind}
    (hc : ∀ k, ks.count k ≤ c.limit k) (hd : ∀ k, ks.count k ≤ d.limit k) :
    c.locations ks = d.locations ks := by
  induction ks using List.reverseRecOn with
  | nil => rfl
  | append_singleton ks k ih =>
    have hle : ∀ k', ks.count k' ≤ (ks ++ [k]).count k' := by
      intro k'
      rw [List.count_append]
      exact Nat.le_add_right _ _
    have hlt : ks.count k < (ks ++ [k]).count k := by simp [List.count_append]
    rw [locations_concat, locations_concat,
      ih (fun k' => (hle k').trans (hc k')) (fun k' => (hle k').trans (hd k')),
      next, next, if_pos (hlt.trans_le (hc k)), if_pos (hlt.trans_le (hd k))]

/-- The values a callee with parameters of these kinds finds at its entry. -/
def read (ks : List Kind) (s : ArgState) : List Word := (c.locations ks).map s.at

@[simp] theorem read_nil (s : ArgState) : c.read [] s = [] := rfl

theorem read_concat (ks : List Kind) (k : Kind) (s : ArgState) :
    c.read (ks ++ [k]) s = c.read ks s ++ [s.at (c.next ks k)] := by
  simp [read, locations_concat]

/-- The values of the parameters that follow parameters of the kinds `ks`. -/
def readAfter (s : ArgState) : List Kind → List Kind → List Word
  | _, [] => []
  | ks, k :: ks' => s.at (c.next ks k) :: readAfter s (ks ++ [k]) ks'

theorem read_append (ks ks' : List Kind) (s : ArgState) :
    c.read (ks ++ ks') s = c.read ks s ++ c.readAfter s ks ks' := by
  induction ks' generalizing ks with
  | nil => simp [readAfter]
  | cons k ks' ih =>
    rw [List.append_cons, ih, read_concat, readAfter, List.append_assoc, List.singleton_append]

/-- Pass the arguments: write each to its location over the previous contents. -/
def place (args : List (Kind × Word)) (residue : ArgState) : ArgState :=
  ((c.locations (args.map Prod.fst)).zip (args.map Prod.snd)).foldl
    (fun s p => s.set p.1 p.2) residue

@[simp] theorem place_nil (residue : ArgState) : c.place [] residue = residue := rfl

theorem place_concat (args : List (Kind × Word)) (a : Kind × Word) (residue : ArgState) :
    c.place (args ++ [a]) residue =
      (c.place args residue).set (c.next (args.map Prod.fst) a.1) a.2 := by
  have hlen : (c.locations (args.map Prod.fst)).length = (args.map Prod.snd).length := by
    simp [locations]
  simp only [place, List.map_append, List.map_cons, List.map_nil, locations_concat]
  rw [List.zip_append hlen, List.foldl_append]
  rfl

theorem next_mem (ks : List Kind) (k : Kind) (ks' : List Kind) :
    c.next ks k ∈ c.locations (ks ++ k :: ks') := by
  induction ks' using List.reverseRecOn with
  | nil => simp [locations_concat]
  | append_singleton ks' k' ih =>
    rw [← List.cons_append, ← List.append_assoc, locations_concat]
    exact List.mem_append_left _ ih

/-- An argument stays where it was placed whatever follows it. -/
theorem place_at_next (args : List (Kind × Word)) (a : Kind × Word) (rest : List (Kind × Word))
    (residue : ArgState) :
    (c.place (args ++ a :: rest) residue).at (c.next (args.map Prod.fst) a.1) = a.2 := by
  induction rest using List.reverseRecOn with
  | nil => rw [place_concat, ArgState.at_set_self]
  | append_singleton rest b ih =>
    rw [← List.cons_append, ← List.append_assoc, place_concat, ArgState.at_set_of_ne, ih]
    intro h
    apply c.next_not_mem ((args ++ a :: rest).map Prod.fst) b.1
    rw [← h, List.map_append, List.map_cons]
    exact c.next_mem _ _ _

theorem read_set_next (ks : List Kind) (k : Kind) (s : ArgState) (v : Word) :
    c.read ks (s.set (c.next ks k) v) = c.read ks s := by
  apply List.map_congr_left
  intro l hl
  exact s.at_set_of_ne v (fun e => c.next_not_mem ks k (e ▸ hl))

/-- The callee finds exactly the arguments that were passed. -/
theorem read_place (args : List (Kind × Word)) (residue : ArgState) :
    c.read (args.map Prod.fst) (c.place args residue) = args.map Prod.snd := by
  induction args using List.reverseRecOn with
  | nil => rfl
  | append_singleton args a ih =>
    rw [place_concat, List.map_append, List.map_append, List.map_singleton, List.map_singleton,
      read_concat, ArgState.at_set_self, read_set_next, ih]

end Convention
end Sober.Abi
