import Mathlib.Data.List.Basic

/-! # Scanning text

`find`, the two halves of a text at a position that `find` returned, and reading a
text in pieces up to a delimiter, as the standard library of C++ has them. The text is
over any alphabet.
-/
namespace Text
variable {α : Type*}

def before (text : List α) : Option ℕ → List α
  | some pos => text.take pos
  | none => text

/-- `substr(pos + 1)`; one past `npos` is zero. -/
def after (text : List α) : Option ℕ → List α
  | some pos => text.drop (pos + 1)
  | none => text

theorem mem_of_mem_before {pos : Option ℕ} {d : α} {text : List α} (h : d ∈ before text pos) :
    d ∈ text := by
  cases pos with
  | none => exact h
  | some pos => exact List.mem_of_mem_take h

theorem mem_of_mem_after {pos : Option ℕ} {d : α} {text : List α} (h : d ∈ after text pos) :
    d ∈ text := by
  cases pos with
  | none => exact h
  | some pos => exact List.mem_of_mem_drop h

variable [DecidableEq α]

/-- The position of the first occurrence; `none` is `npos`. -/
def find (c : α) : List α → Option ℕ
  | [] => none
  | d :: rest => if d = c then some 0 else (find c rest).map (· + 1)

/-- Repeated `getline`, with what has been read of the piece at hand. A piece is lost
if the text ends before any of it was read. -/
def piecesFrom (delimiter : α) (line : List α) : List α → List (List α)
  | [] => if line = [] then [] else [line]
  | c :: rest =>
    if c = delimiter then line :: piecesFrom delimiter [] rest
    else piecesFrom delimiter (line ++ [c]) rest

def pieces (delimiter : α) (text : List α) : List (List α) := piecesFrom delimiter [] text

variable {c : α} {left right : List α}

theorem find_append (hleft : c ∉ left) :
    find c (left ++ c :: right) = some left.length := by
  induction left with
  | nil => simp [find]
  | cons d left ih =>
    obtain ⟨hd, hrest⟩ := not_or.mp (mt List.mem_cons.mpr hleft)
    rw [List.cons_append, find, if_neg (Ne.symm hd), ih hrest]
    rfl

theorem before_find_append (hleft : c ∉ left) :
    before (left ++ c :: right) (find c (left ++ c :: right)) = left := by
  rw [find_append hleft]
  exact List.take_left

theorem after_find_append (hleft : c ∉ left) :
    after (left ++ c :: right) (find c (left ++ c :: right)) = right := by
  rw [find_append hleft]
  change (left ++ c :: right).drop (left.length + 1) = right
  rw [← List.drop_drop, List.drop_left]
  rfl

/-- What stands before the first occurrence has none. -/
theorem notMem_before_find (c : α) (text : List α) : c ∉ before text (find c text) := by
  induction text with
  | nil => simp [find, before]
  | cons d rest ih =>
    rw [find]
    by_cases hd : d = c
    · simp [hd, before]
    · rw [if_neg hd]
      cases hfind : find c rest with
      | none =>
        rw [hfind] at ih
        exact List.not_mem_cons_of_ne_of_not_mem (Ne.symm hd) ih
      | some pos =>
        rw [hfind] at ih
        exact List.not_mem_cons_of_ne_of_not_mem (Ne.symm hd) ih

theorem piecesFrom_append (hleft : c ∉ left) (line : List α) :
    piecesFrom c line (left ++ right) = piecesFrom c (line ++ left) right := by
  induction left generalizing line with
  | nil => simp
  | cons d left ih =>
    obtain ⟨hd, hrest⟩ := not_or.mp (mt List.mem_cons.mpr hleft)
    rw [List.cons_append, piecesFrom, if_neg (Ne.symm hd), ih hrest]
    simp

/-- A piece that a delimiter ends. -/
theorem pieces_append (hleft : c ∉ left) :
    pieces c (left ++ c :: right) = left :: pieces c right := by
  rw [pieces, piecesFrom_append hleft, piecesFrom, if_pos rfl]
  rfl

/-- The last piece. -/
theorem pieces_of_notMem (hleft : c ∉ left) (hne : left ≠ []) : pieces c left = [left] := by
  have h : piecesFrom c [] (left ++ []) = piecesFrom c ([] ++ left) [] :=
    piecesFrom_append hleft []
  rw [List.append_nil] at h
  rw [pieces, h, piecesFrom, if_neg (by simpa using hne)]
  rfl

end Text
