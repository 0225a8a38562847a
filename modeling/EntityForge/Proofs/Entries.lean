import EntityForge.Entries
import Mathlib.Data.List.Induction
import Mathlib.Data.List.Nodup

/-!
Entries whose keys differ.

Putting values under keys never makes a key come twice, and where none does, an entry is found by its key.
Main statements: `ofList_spec`, `ofList_of_nodup`, `keys_ofList`, `get?_eq_some_iff` and
`get?_ofList_eq_some_iff`.
-/

namespace EntityForge.Entries

variable {α : Type} {entries : Entries α} {key : String} {value : α}

theorem mem_of_mem_put {entry : String × α} (h : entry ∈ entries.put key value) :
    entry = (key, value) ∨ entry ∈ entries := by
  induction entries with
  | nil => exact Or.inl (List.mem_singleton.1 h)
  | cons first entries ih =>
    obtain ⟨k, old⟩ := first
    rw [put] at h
    split at h
    · next hkey =>
      rcases List.mem_cons.1 h with rfl | h
      · exact Or.inl (by rw [hkey])
      · exact Or.inr (List.mem_cons_of_mem _ h)
    · rcases List.mem_cons.1 h with rfl | h
      · exact Or.inr List.mem_cons_self
      · exact (ih h).imp_right (List.mem_cons_of_mem _)

theorem nodup_put (h : entries.keys.Nodup) (key : String) (value : α) :
    (entries.put key value).keys.Nodup := by
  rw [keys_put]
  split
  · exact h
  · next hkey =>
    rw [← List.concat_eq_append]
    exact h.concat hkey

/-- However often a key came, it is there once, and every entry is one of those that came. -/
theorem ofList_spec (pairs : List (String × α)) :
    (ofList pairs).keys.Nodup ∧ ∀ entry ∈ ofList pairs, entry ∈ pairs := by
  have hputAll (more : List (String × α)) (entries : Entries α) (h : entries.keys.Nodup) :
      (entries.putAll more).keys.Nodup ∧ ∀ entry ∈ entries.putAll more, entry ∈ entries ++ more := by
    induction more generalizing entries with
    | nil => exact ⟨h, fun entry hentry => List.mem_append_left _ hentry⟩
    | cons first more ih =>
      obtain ⟨hnodup, hmem⟩ := ih _ (nodup_put h first.1 first.2)
      refine ⟨hnodup, fun entry hentry => ?_⟩
      rcases List.mem_append.1 (hmem entry hentry) with hput | hmore
      · rcases mem_of_mem_put hput with rfl | hold
        · exact List.mem_append_right _ List.mem_cons_self
        · exact List.mem_append_left _ hold
      · exact List.mem_append_right _ (List.mem_cons_of_mem _ hmore)
  exact hputAll pairs [] List.nodup_nil

theorem put_of_not_mem (h : key ∉ entries.map Prod.fst) (value : α) :
    entries.put key value = entries ++ [(key, value)] := by
  induction entries with
  | nil => rfl
  | cons entry entries ih =>
    obtain ⟨k, old⟩ := entry
    simp only [List.map_cons, List.mem_cons, not_or] at h
    have hne : ¬k = key := fun e => h.1 e.symm
    rw [put, if_neg hne, ih h.2, List.cons_append]

/-- A key that comes next, where none comes twice, has not come before. -/
theorem not_mem_of_nodup {more : List (String × α)}
    (h : ((entries ++ (key, value) :: more).map Prod.fst).Nodup) : key ∉ entries.map Prod.fst := by
  rw [List.map_append, List.map_cons, List.nodup_middle, List.nodup_cons] at h
  exact fun hmem => h.1 (List.mem_append_left _ hmem)

theorem putAll_of_nodup {more : List (String × α)} (h : ((entries ++ more).map Prod.fst).Nodup) :
    entries.putAll more = entries ++ more := by
  induction more generalizing entries with
  | nil => simp [putAll]
  | cons entry more ih =>
    obtain ⟨key, value⟩ := entry
    have hkey := not_mem_of_nodup h
    have hstep : entries.putAll ((key, value) :: more) = (entries.put key value).putAll more := rfl
    rw [hstep, put_of_not_mem hkey, ih (by simpa using h)]
    simp

/-- Where no key comes twice, every entry keeps its place. -/
theorem ofList_of_nodup {pairs : List (String × α)} (h : (pairs.map Prod.fst).Nodup) :
    ofList pairs = pairs := putAll_of_nodup h

theorem get?_eq_none_iff : entries.get? key = none ↔ key ∉ entries.keys := by
  induction entries with
  | nil => simp [get?, keys]
  | cons entry entries ih =>
    obtain ⟨k, old⟩ := entry
    rw [get?]
    split
    · next hkey => simp [keys, hkey]
    · next hkey =>
      have hne : key ≠ k := fun e => hkey e.symm
      rw [ih]
      simp [keys, hne]

theorem mem_of_get? (h : entries.get? key = some value) : (key, value) ∈ entries := by
  induction entries with
  | nil => cases h
  | cons entry entries ih =>
    obtain ⟨k, old⟩ := entry
    rw [get?] at h
    split at h
    · next hkey =>
      obtain rfl := Option.some.inj h
      rw [hkey]
      exact List.mem_cons_self
    · exact List.mem_cons_of_mem _ (ih h)

/-- Where no key comes twice, an entry is found by its key. -/
theorem get?_eq_some_iff (hkeys : entries.keys.Nodup) :
    entries.get? key = some value ↔ (key, value) ∈ entries := by
  constructor
  · exact mem_of_get?
  · intro hmem
    have hkey : key ∈ entries.keys := List.mem_map_of_mem hmem
    obtain ⟨found, hfound⟩ := Option.ne_none_iff_exists'.1 fun hnone => get?_eq_none_iff.1 hnone hkey
    have hpair := List.inj_on_of_nodup_map hkeys (mem_of_get? hfound) hmem rfl
    rw [hfound, (Prod.mk.inj hpair).2]

theorem get?_putAll_of_not_mem {more : List (String × α)} (h : key ∉ more.map Prod.fst) :
    (entries.putAll more).get? key = entries.get? key := by
  induction more generalizing entries with
  | nil => rfl
  | cons entry more ih =>
    simp only [List.map_cons, List.mem_cons, not_or] at h
    have hstep : entries.putAll (entry :: more) = (entries.put entry.1 entry.2).putAll more := rfl
    rw [hstep, ih h.2, get?_put, if_neg (Ne.symm h.1)]

theorem ofList_concat (pairs : List (String × α)) (entry : String × α) :
    ofList (pairs ++ [entry]) = (ofList pairs).put entry.1 entry.2 := by
  simp [ofList, putAll]

theorem eraseDups_concat (keys : List String) (key : String) :
    (keys ++ [key]).eraseDups =
      if key ∈ keys then keys.eraseDups else keys.eraseDups ++ [key] := by
  rw [List.eraseDups_append]
  by_cases hkey : key ∈ keys <;> simp [List.removeAll, hkey, List.eraseDups_cons]

/-- The keys stand in the order in which they first came. -/
theorem keys_ofList (pairs : List (String × α)) :
    (ofList pairs).keys = (pairs.map Prod.fst).eraseDups := by
  induction pairs using List.reverseRecOn with
  | nil => rfl
  | append_singleton pairs entry ih =>
    rw [ofList_concat, keys_put, List.map_append, List.map_singleton, eraseDups_concat, ih]
    simp only [List.mem_eraseDups]

/-- Under a key stands what came last for it. -/
theorem get?_ofList_eq_some_iff {pairs : List (String × α)} :
    (ofList pairs).get? key = some value ↔
      ∃ before after, pairs = before ++ (key, value) :: after ∧ key ∉ after.map Prod.fst := by
  constructor
  · intro h
    induction pairs using List.reverseRecOn with
    | nil => cases h
    | append_singleton pairs entry ih =>
      rw [ofList_concat, get?_put] at h
      split at h
      · next hkey => exact ⟨pairs, [], by rw [← hkey, ← Option.some.inj h], List.not_mem_nil⟩
      · next hkey =>
        obtain ⟨before, after, rfl, hafter⟩ := ih h
        refine ⟨before, after ++ [entry], by simp, ?_⟩
        simp [hafter, Ne.symm hkey]
  · rintro ⟨before, after, rfl, hafter⟩
    have hsplit : ofList (before ++ (key, value) :: after) =
        ((ofList before).put key value).putAll after := by
      simp [ofList, putAll]
    rw [hsplit, get?_putAll_of_not_mem hafter, get?_put, if_pos rfl]

end EntityForge.Entries
