/-!
Values under keys, in the order in which the keys first came.

Putting a value under a key that is there keeps the key's place and replaces its value; a new key goes
to the end. Main statements: `keys_put` and `get?_put`.
-/

namespace EntityForge

abbrev Entries (α : Type) := List (String × α)

namespace Entries

variable {α : Type}

def keys (entries : Entries α) : List String := entries.map Prod.fst

def get? : Entries α → String → Option α
  | [], _ => none
  | (k, v) :: rest, key => if k = key then some v else get? rest key

def put : Entries α → String → α → Entries α
  | [], key, value => [(key, value)]
  | (k, v) :: rest, key, value =>
    if k = key then (k, value) :: rest else (k, v) :: put rest key value

def putAll (entries : Entries α) (more : List (String × α)) : Entries α :=
  more.foldl (fun entries entry => entries.put entry.1 entry.2) entries

/-- A repeated key keeps its first place and takes its last value. -/
def ofList (pairs : List (String × α)) : Entries α := putAll [] pairs

theorem keys_put (entries : Entries α) (key : String) (value : α) :
    (entries.put key value).keys =
      if key ∈ entries.keys then entries.keys else entries.keys ++ [key] := by
  induction entries with
  | nil => simp [put, keys]
  | cons entry rest ih =>
    obtain ⟨k, v⟩ := entry
    by_cases h : k = key
    · simp [put, keys, h]
    · have h' : ¬key = k := fun e => h e.symm
      simp only [put, h, if_false]
      simp only [keys, List.map_cons, List.mem_cons, h', false_or] at ih ⊢
      rw [ih]
      by_cases hmem : key ∈ List.map Prod.fst rest
      · simp only [hmem, if_true]
      · simp only [hmem, if_false, List.cons_append]

theorem get?_put (entries : Entries α) (key other : String) (value : α) :
    (entries.put key value).get? other =
      if key = other then some value else entries.get? other := by
  induction entries with
  | nil => simp [put, get?]
  | cons entry rest ih =>
    obtain ⟨k, v⟩ := entry
    by_cases h : k = key
    · subst h
      by_cases h' : k = other <;> simp [put, get?, h']
    · simp only [put, h, if_false, get?, ih]
      by_cases h' : k = other
      · have hne : ¬key = other := fun e => h (h'.trans e.symm)
        simp only [h', if_true, hne, if_false]
      · simp only [h', if_false]

end Entries

end EntityForge
