/-!
Tables with text keys, kept in ascending order of the keys. Setting a key replaces what it held, and
what a table holds is read by looking keys up.
-/

set_option autoImplicit false
set_option relaxedAutoImplicit false

namespace ValvePipeline

/-- Entries in ascending order of their keys, one for each key. -/
abbrev Table (α : Type) := List (String × α)

namespace Table

variable {α : Type}

def get? (t : Table α) (key : String) : Option α :=
  match t with
  | [] => none
  | (k, v) :: rest => if k = key then some v else get? rest key

def set (t : Table α) (key : String) (value : α) : Table α :=
  match t with
  | [] => [(key, value)]
  | (k, v) :: rest =>
    if k = key then (key, value) :: rest
    else if key < k then (key, value) :: (k, v) :: rest
    else (k, v) :: set rest key value

def erase (t : Table α) (key : String) : Table α :=
  match t with
  | [] => []
  | (k, v) :: rest => if k = key then erase rest key else (k, v) :: erase rest key

/-- Enters pairs in their order, so that the last one with a key wins. -/
def ofPairs (pairs : List (String × α)) : Table α :=
  pairs.foldl (fun t (key, value) => t.set key value) []

def keys (t : Table α) : List String :=
  t.map (·.1)

theorem get?_set_self (t : Table α) (key : String) (value : α) :
    (t.set key value).get? key = some value := by
  induction t with
  | nil => simp [set, get?]
  | cons entry rest ih =>
    unfold set
    split
    · simp [get?]
    · split <;> simp_all [get?]

theorem get?_set_of_ne {key other : String} (h : other ≠ key) (t : Table α) (value : α) :
    (t.set key value).get? other = t.get? other := by
  induction t with
  | nil => simp [set, get?, h.symm]
  | cons entry rest ih =>
    unfold set
    split
    · simp_all [get?, h.symm]
    · split <;> simp_all [get?, h.symm]

theorem get?_set (t : Table α) (key other : String) (value : α) :
    (t.set key value).get? other = if other = key then some value else t.get? other := by
  split
  · next h => rw [h, get?_set_self]
  · next h => rw [get?_set_of_ne h]

theorem get?_erase (t : Table α) (key other : String) :
    (t.erase key).get? other = if other = key then none else t.get? other := by
  induction t with
  | nil => simp [erase, get?]
  | cons entry rest ih =>
    unfold erase
    split
    · next h => by_cases ho : other = key <;> simp_all [get?, Ne.symm]
    · next h => by_cases ho : other = key <;> simp_all [get?]

end Table

end ValvePipeline
