import EntityForge.Json.Merge
import EntityForge.Proofs.Json.RoundTrip
import EntityForge.Proofs.Refusal

/-!
What becomes of objects that are merged one after the other.

Under each key stands what came under it, merged in the order in which it came, and the keys stand in the
order in which they first came. Where no key comes twice, nothing is merged at all, and where one array comes
over another at the same place, its items follow those that were there. Members that come in under the very
keys that are there are merged one by one, and what goes for a value may take the place of what went for
another. Main statements: `keys_foldl_mergeMembers`, `get?_foldl_mergeMembers`, `foldl_mergeMembers_of_nodup`,
`member?_merge_array`, `readable_merge` and `Lists.merge`.
-/

namespace EntityForge.Json

/-- What stands under a key when something, or nothing, has come over what stood there. -/
def mergeOver : Option Json → Option Json → Option Json
  | old?, none => old?
  | none, some value => some value
  | some old, some value => some (merge old value)

section Keys

variable {key : String} {present : Entries Json} {members : List (String × Json)}

theorem get?_mergeMembers (hkeys : (members.map Prod.fst).Nodup) (present : Entries Json)
    (key : String) :
    (mergeMembers present members).get? key =
      mergeOver (present.get? key) (Entries.get? members key) := by
  induction members generalizing present with
  | nil => simp [mergeMembers, Entries.get?, mergeOver]
  | cons member members ih =>
    obtain ⟨first, value⟩ := member
    rw [List.map_cons, List.nodup_cons] at hkeys
    rw [mergeMembers, Entries.get?]
    by_cases hfirst : first = key
    · -- the other members leave alone what has just been put
      subst hfirst
      rw [get?_mergeMembers_of_not_mem hkeys.1, Entries.get?_put, if_pos rfl, if_pos rfl]
      cases present.get? first <;> rfl
    · rw [ih hkeys.2, Entries.get?_put, if_neg hfirst, if_neg hfirst]

/-- Taking in what is not there yet, one after the other, is the same as erasing every repetition. -/
theorem foldl_firsts (more : List String) {keys seen : List String} (h : keys = seen.eraseDups) :
    more.foldl (fun ks k => if k ∈ ks then ks else ks ++ [k]) keys = (seen ++ more).eraseDups := by
  induction more generalizing keys seen with
  | nil => rw [List.foldl_nil, List.append_nil, h]
  | cons key more ih =>
    have hstep : (if key ∈ keys then keys else keys ++ [key]) = (seen ++ [key]).eraseDups := by
      rw [Entries.eraseDups_concat, h]
      simp only [List.mem_eraseDups]
    rw [List.foldl_cons, ih hstep, List.append_assoc, List.singleton_append]

theorem keys_mergeMembers_of_eraseDups {seen : List String} (h : present.keys = seen.eraseDups) :
    (mergeMembers present members).keys = (seen ++ members.map Prod.fst).eraseDups := by
  rw [keys_mergeMembers, foldl_firsts _ h]

theorem nodup_mergeMembers (h : present.keys.Nodup) : (mergeMembers present members).keys.Nodup := by
  induction members generalizing present with
  | nil => rwa [mergeMembers]
  | cons member members ih =>
    rw [mergeMembers]
    exact ih (Entries.nodup_put h _ _)

theorem mergeMembers_of_nodup (h : ((present ++ members).map Prod.fst).Nodup) :
    mergeMembers present members = present ++ members := by
  induction members generalizing present with
  | nil => rw [mergeMembers, List.append_nil]
  | cons member members ih =>
    obtain ⟨key, value⟩ := member
    have hkey := Entries.not_mem_of_nodup h
    have hnone : present.get? key = none := Entries.get?_eq_none_iff.2 hkey
    rw [mergeMembers, hnone, Entries.put_of_not_mem hkey, ih (by simpa using h), List.append_assoc,
      List.singleton_append]

end Keys

section Run

variable {present : Entries Json} {parts : List (List (String × Json))}

theorem keys_foldl_mergeMembers (parts : List (List (String × Json))) :
    (parts.foldl mergeMembers []).keys = (parts.flatMap fun part => part.map Prod.fst).eraseDups := by
  have hrun (present : Entries Json) (seen : List String) (h : present.keys = seen.eraseDups) :
      (parts.foldl mergeMembers present).keys =
        (seen ++ parts.flatMap fun part => part.map Prod.fst).eraseDups := by
    induction parts generalizing present seen with
    | nil => rw [List.foldl_nil, List.flatMap_nil, List.append_nil, h]
    | cons part parts ih =>
      rw [List.foldl_cons, List.flatMap_cons, ih _ _ (keys_mergeMembers_of_eraseDups h),
        List.append_assoc]
  exact hrun [] [] rfl

/-- Under a key stands what the parts have under it, one merged over the other. -/
theorem get?_foldl_mergeMembers (hkeys : ∀ part ∈ parts, (part.map Prod.fst).Nodup)
    (present : Entries Json) (key : String) :
    (parts.foldl mergeMembers present).get? key =
      (parts.map fun part => Entries.get? part key).foldl mergeOver (present.get? key) := by
  induction parts generalizing present with
  | nil => rfl
  | cons part parts ih =>
    obtain ⟨hpart, hparts⟩ := List.forall_mem_cons.1 hkeys
    rw [List.foldl_cons, List.map_cons, List.foldl_cons, ih hparts, get?_mergeMembers hpart]

theorem foldl_mergeMembers_of_nodup (h : ((present ++ parts.flatten).map Prod.fst).Nodup) :
    parts.foldl mergeMembers present = present ++ parts.flatten := by
  induction parts generalizing present with
  | nil => rw [List.foldl_nil, List.flatten_nil, List.append_nil]
  | cons part parts ih =>
    rw [List.flatten_cons, ← List.append_assoc] at h
    have hpart : ((present ++ part).map Prod.fst).Nodup := by
      rw [List.map_append] at h
      exact h.of_append_left
    rw [List.foldl_cons, mergeMembers_of_nodup hpart, ih h, List.flatten_cons, List.append_assoc]

/-- What stands under a key is not touched by parts that have nothing under it. -/
theorem foldl_mergeOver_of_none {values : List (Option Json)} (h : ∀ value ∈ values, value = none)
    (old? : Option Json) : values.foldl mergeOver old? = old? := by
  induction values with
  | nil => rfl
  | cons value values ih =>
    obtain ⟨rfl, hvalues⟩ := List.forall_mem_cons.1 h
    rw [List.foldl_cons, mergeOver, ih hvalues]

/-- What only one of several has under a key stands there as it is, wherever that one comes. -/
theorem foldl_mergeOver_of_unique {α : Type} {values : List α} {valueOf : α → Option Json} {one : α}
    {value : Json} (hnodup : values.Nodup) (hone : one ∈ values) (hvalue : valueOf one = some value)
    (hothers : ∀ other ∈ values, other ≠ one → valueOf other = none) :
    (values.map valueOf).foldl mergeOver none = some value := by
  obtain ⟨before, after, rfl⟩ := List.append_of_mem hone
  have hfresh := (List.nodup_cons.1 (List.nodup_middle.1 hnodup)).1
  rw [List.mem_append, not_or] at hfresh
  have hbefore : ∀ found ∈ before.map valueOf, found = none :=
    List.forall_mem_map.2 fun other hother =>
      hothers other (List.mem_append_left _ hother) fun hsame => hfresh.1 (hsame ▸ hother)
  have hafter : ∀ found ∈ after.map valueOf, found = none :=
    List.forall_mem_map.2 fun other hother =>
      hothers other (List.mem_append_right _ (List.mem_cons_of_mem _ hother))
        fun hsame => hfresh.2 (hsame ▸ hother)
  rw [List.map_append, List.map_cons, List.foldl_append, List.foldl_cons,
    foldl_mergeOver_of_none hbefore, hvalue, foldl_mergeOver_of_none hafter, mergeOver]

end Run

theorem merge_object (present members : List (String × Json)) :
    merge (.object present) (.object members) = .object (mergeMembers present members) := by
  rw [merge]

theorem merge_array (present items : List Json) :
    merge (.array present) (.array items) = .array (present ++ items) := by
  rw [merge]

mutual

/-- What is merged of values that can be read back can be read back itself. -/
theorem readable_merge (value : Json) {room : Nat} {onto : Json} (honto : Readable room onto)
    (h : Readable room value) : Readable room (merge onto value) := by
  match value, onto with
  | .null, _ => exact h
  | .bool _, _ => exact h
  | .number _, _ => exact h
  | .string _, _ => exact h
  | .array items, .array present =>
    have hall := List.forall_mem_append.2 ⟨readableItems_iff.1 honto.2, readableItems_iff.1 h.2⟩
    rw [merge_array]
    exact readable_array h.1 hall
  | .array _, .null | .array _, .bool _ | .array _, .number _ | .array _, .string _
  | .array _, .object _ => exact h
  | .object members, .object present =>
    rw [merge_object]
    exact ⟨h.1, nodup_mergeMembers honto.2.1, readableMembers_mergeMembers members honto.2.2 h.2.2⟩
  | .object _, .null | .object _, .bool _ | .object _, .number _ | .object _, .string _
  | .object _, .array _ => exact h

theorem readableMembers_mergeMembers (members : List (String × Json)) {room : Nat}
    {present : Entries Json} (hpresent : ReadableMembers room present)
    (h : ReadableMembers room members) : ReadableMembers room (mergeMembers present members) := by
  match members with
  | [] => rwa [mergeMembers]
  | (key, value) :: members =>
    rw [mergeMembers]
    refine readableMembers_mergeMembers members ?_ h.2
    refine readableMembers_iff.2 fun entry hentry => ?_
    rcases Entries.mem_of_mem_put hentry with rfl | hentry
    · split
      · next old hold =>
        have hreadable := readableMembers_iff.1 hpresent _ (Entries.mem_of_get? hold)
        exact readable_merge value hreadable h.1
      · exact h.1
    · exact readableMembers_iff.1 hpresent entry hentry

end

theorem exists_members_of_get? {json value : Json} {key : String} (h : json.get? key = some value) :
    ∃ members, json = .object members ∧ Entries.get? members key = some value := by
  cases json with
  | object members => exact ⟨members, rfl, h⟩
  | _ => cases h

/-- The items of an array follow those of the array that stood at its place, however deep this lies. -/
theorem member?_merge_array {room : Nat} {onto value : Json} {keys : List String}
    {present items : List Json} (hreadable : Readable room value)
    (honto : onto.member? keys = some (.array present)) (h : value.member? keys = some (.array items)) :
    (merge onto value).member? keys = some (.array (present ++ items)) := by
  induction keys generalizing room onto value with
  | nil =>
    obtain rfl := Option.some.inj honto
    obtain rfl := Option.some.inj h
    rw [merge_array]
    rfl
  | cons key keys ih =>
    obtain ⟨old, hold, holds⟩ := Option.bind_eq_some_iff.1 honto
    obtain ⟨new, hnew, hnews⟩ := Option.bind_eq_some_iff.1 h
    obtain ⟨before, rfl, hbefore⟩ := exists_members_of_get? hold
    obtain ⟨members, rfl, hmembers⟩ := exists_members_of_get? hnew
    have hinner := readableMembers_iff.1 hreadable.2.2 _ (Entries.mem_of_get? hmembers)
    have hget : (merge (.object before) (.object members)).get? key = some (merge old new) := by
      rw [merge_object, get?, get?_mergeMembers hreadable.2.1, hbefore, hmembers, mergeOver]
    rw [member?, hget, Option.bind_some, ih hinner holds hnews]

section Sides

variable {key : String} {old value : Json} {present more : Entries Json} {members : List (String × Json)}

theorem mergeMembers_cons_of_not_mem (h : key ∉ members.map Prod.fst) :
    mergeMembers ((key, old) :: present) members = (key, old) :: mergeMembers present members := by
  induction members generalizing present with
  | nil => rfl
  | cons member members ih =>
    obtain ⟨other, value⟩ := member
    rw [List.map_cons, List.mem_cons, not_or] at h
    rw [mergeMembers, mergeMembers, Entries.get?, if_neg h.1, Entries.put, if_neg h.1, ih h.2]

theorem mergeMembers_cons_cons (h : key ∉ members.map Prod.fst) :
    mergeMembers ((key, old) :: present) ((key, value) :: members) =
      (key, merge old value) :: mergeMembers present members := by
  rw [mergeMembers, Entries.get?, if_pos rfl, Entries.put, if_pos rfl]
  exact mergeMembers_cons_of_not_mem h

/-- Members under keys that do not come in are left as they are. -/
theorem mergeMembers_append_of_disjoint (h : ∀ key ∈ present.keys, key ∉ members.map Prod.fst) :
    mergeMembers (present ++ more) members = present ++ mergeMembers more members := by
  induction present with
  | nil => rfl
  | cons entry present ih =>
    obtain ⟨hkey, hpresent⟩ := List.forall_mem_cons.1 h
    rw [List.cons_append, mergeMembers_cons_of_not_mem hkey, ih hpresent, List.cons_append]

/-- Members that come in under the first keys go no further. -/
theorem mergeMembers_append_of_keys (hkeys : present.keys = members.map Prod.fst)
    (hnodup : (members.map Prod.fst).Nodup) :
    mergeMembers (present ++ more) members = mergeMembers present members ++ more := by
  induction members generalizing present with
  | nil =>
    obtain rfl : present = [] := List.map_eq_nil_iff.1 hkeys
    rfl
  | cons member members ih =>
    cases present with
    | nil => cases hkeys
    | cons entry present =>
      obtain ⟨_, old⟩ := entry
      obtain ⟨key, value⟩ := member
      obtain ⟨rfl, hrest⟩ := List.cons.inj hkeys
      obtain ⟨hfirst, hnodup⟩ := List.nodup_cons.1 hnodup
      rw [List.cons_append, mergeMembers_cons_cons hfirst, mergeMembers_cons_cons hfirst, ih hrest hnodup,
        List.cons_append]

theorem get?_merge_object (h : (members.map Prod.fst).Nodup) (key : String) :
    (merge (.object present) (.object members)).get? key =
      mergeOver (Json.get? (.object present) key) (Json.get? (.object members) key) := by
  rw [merge_object, get?, get?_mergeMembers h]
  rfl

end Sides

/-- Members go for values: one for each, under its key, in their order. -/
def Lists {α : Type} (key : α → String) (GoesFor : α → Json → Prop) (values : List α)
    (members : Entries Json) : Prop :=
  List.Forall₂ (fun value member => member.1 = key value ∧ GoesFor value member.2) values members

namespace Lists

variable {α : Type} {key : α → String} {GoesFor : α → Json → Prop} {values others : List α}
  {members more : Entries Json}

theorem keys_eq (h : Lists key GoesFor values members) : members.keys = values.map key :=
  map_eq_map_of_forall₂ h fun _ _ hmember => hmember.1

theorem eq_map {json : α → Json} (h : Lists key (fun value member => member = json value) values members) :
    members = values.map fun value => (key value, json value) := by
  have hmap : members.map id = values.map fun value => (key value, json value) :=
    map_eq_map_of_forall₂ h fun value member hmember => Prod.ext hmember.1 hmember.2
  rwa [List.map_id] at hmap

theorem append (h : Lists key GoesFor values members) (hmore : Lists key GoesFor others more) :
    Lists key GoesFor (values ++ others) (members ++ more) := List.rel_append h hmore

theorem of_append (h : Lists key GoesFor (values ++ others) members) :
    ∃ first rest, members = first ++ rest ∧ Lists key GoesFor values first ∧
      Lists key GoesFor others rest := by
  induction values generalizing members with
  | nil => exact ⟨[], members, rfl, .nil, h⟩
  | cons value values ih =>
    cases h with
    | @cons _ member _ _ hmember hmembers =>
      obtain ⟨first, rest, rfl, hfirst, hrest⟩ := ih hmembers
      exact ⟨member :: first, rest, rfl, .cons hmember hfirst, hrest⟩

theorem of_map {json : α → Json} (h : ∀ value ∈ values, GoesFor value (json value)) :
    Lists key GoesFor values (values.map fun value => (key value, json value)) := by
  unfold Lists
  rw [List.forall₂_map_right_iff, List.forall₂_same]
  exact fun value hvalue => ⟨rfl, h value hvalue⟩

/-- Where the values that come in have the keys of those that are there, one for one, and each takes the place
of its counterpart, what is there goes for the values that came in. -/
theorem merge {json : α → Json} {Replaces : α → α → Prop}
    (hmerge : ∀ value other old, Replaces value other → GoesFor other old →
      GoesFor value (Json.merge old (json value)))
    (hreplaces : List.Forall₂ (fun value other => key other = key value ∧ Replaces value other) values others)
    (hnodup : (values.map key).Nodup) (h : Lists key GoesFor others members) :
    Lists key GoesFor values (mergeMembers members (values.map fun value => (key value, json value))) := by
  induction hreplaces generalizing members with
  | nil =>
    cases h
    exact .nil
  | @cons value other values others hfirst _ ih =>
    obtain ⟨hkey, hreplaces⟩ := hfirst
    cases h with
    | @cons _ member _ members hmember hmembers =>
      obtain ⟨name, old⟩ := member
      obtain ⟨rfl, hold⟩ := hmember
      obtain ⟨hnew, hnodup⟩ := List.nodup_cons.1 hnodup
      have hfresh : key value ∉ (values.map fun value => (key value, json value)).map Prod.fst := by
        rwa [List.map_map]
      rw [List.map_cons, hkey, mergeMembers_cons_cons hfresh]
      exact .cons ⟨rfl, hmerge _ _ _ hreplaces hold⟩ (ih hnodup hmembers)

end Lists

end EntityForge.Json
