import EntityForge.Json.Basic

/-!
Deep merge of one value into another.

Objects merge key by key, arrays are joined, and in every other case the value that comes in replaces
the value that was there. The order of merging decides both who wins and the order of keys. Main
statements: `keys_mergeMembers` and `get?_mergeMembers_of_not_mem`.
-/

namespace EntityForge.Json

mutual

/-- The value `onto` after `value` has come in. -/
def merge (onto : Json) : Json → Json
  | .object members =>
    match onto with
    | .object present => .object (mergeMembers present members)
    | _ => .object members
  | .array items =>
    match onto with
    | .array present => .array (present ++ items)
    | _ => .array items
  | value => value

def mergeMembers (present : Entries Json) : List (String × Json) → Entries Json
  | [] => present
  | (key, value) :: members =>
    mergeMembers
      (present.put key
        (match present.get? key with
        | some old => merge old value
        | none => value))
      members

end

/-- Keys keep their places, and new ones follow in the order in which they come. -/
theorem keys_mergeMembers (members : List (String × Json)) (present : Entries Json) :
    (mergeMembers present members).keys =
      (members.map Prod.fst).foldl (fun ks k => if k ∈ ks then ks else ks ++ [k])
        present.keys := by
  induction members generalizing present with
  | nil => simp [mergeMembers]
  | cons member members ih =>
    obtain ⟨key, value⟩ := member
    simp only [mergeMembers, ih, Entries.keys_put, List.map_cons, List.foldl_cons]

theorem get?_mergeMembers_of_not_mem {members : List (String × Json)} {key : String}
    (h : key ∉ members.map Prod.fst) (present : Entries Json) :
    (mergeMembers present members).get? key = present.get? key := by
  induction members generalizing present with
  | nil => simp [mergeMembers]
  | cons member members ih =>
    obtain ⟨k, value⟩ := member
    simp only [List.map_cons, List.mem_cons, not_or] at h
    have hne : ¬k = key := fun e => h.1 e.symm
    simp only [mergeMembers, ih h.2, Entries.get?_put, hne, if_false]

end EntityForge.Json
