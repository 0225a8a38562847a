import EntityForge.Proofs.Json.Merge

/-!
What stands at every path of a merged value.

A path leads through objects by their keys. Where both values have something at its end, the two are merged
there; where one has, its value is there, unless the value that came in ends the path sooner, with something
that is no object. Nothing else comes in, and nothing lies deeper than it did before. Main statements:
`member?_merge`, `keys_mergeMembers_of_nodup`, `keyed_merge`, `keyed_of_parse` and `depth_merge`.
-/

namespace EntityForge.Json

def isObject : Json → Bool
  | .object _ => true
  | _ => false

def isArray : Json → Bool
  | .array _ => true
  | _ => false

mutual

/-- No object within a value has a key twice. -/
def Keyed : Json → Prop
  | .null => True
  | .bool _ => True
  | .number _ => True
  | .string _ => True
  | .array items => KeyedItems items
  | .object members => (members.map Prod.fst).Nodup ∧ KeyedMembers members

def KeyedItems : List Json → Prop
  | [] => True
  | item :: items => Keyed item ∧ KeyedItems items

def KeyedMembers : List (String × Json) → Prop
  | [] => True
  | (_, value) :: members => Keyed value ∧ KeyedMembers members

end

theorem keyedItems_iff {items : List Json} : KeyedItems items ↔ ∀ item ∈ items, item.Keyed := by
  induction items with
  | nil => simp [KeyedItems]
  | cons item items ih => simp [KeyedItems, ih]

theorem keyedMembers_iff {members : List (String × Json)} :
    KeyedMembers members ↔ ∀ member ∈ members, member.2.Keyed := by
  induction members with
  | nil => simp [KeyedMembers]
  | cons member members ih => simp [KeyedMembers, ih]

theorem keyed_of_get? {value inner : Json} {key : String} (hvalue : value.Keyed)
    (h : value.get? key = some inner) : inner.Keyed := by
  obtain ⟨members, rfl, hmember⟩ := exists_members_of_get? h
  exact keyedMembers_iff.1 hvalue.2 _ (Entries.mem_of_get? hmember)

theorem keyed_of_member? {value found : Json} {path : List String} (hvalue : value.Keyed)
    (h : value.member? path = some found) : found.Keyed := by
  induction path generalizing value with
  | nil =>
    obtain rfl := Option.some.inj h
    exact hvalue
  | cons key path ih =>
    obtain ⟨inner, hinner, h⟩ := Option.bind_eq_some_iff.1 h
    exact ih (keyed_of_get? hvalue hinner) h

mutual

/-- What is read from a text has no key twice, whatever the text repeats. -/
theorem keyed_of_readJson (node : Node) {room : Nat} {value : Json} (h : node.readJson room = .ok value) :
    value.Keyed := by
  match node with
  | .word .null | .word .true | .word .false =>
    obtain rfl := Except.ok.inj h
    trivial
  | .numeral _ | .text _ =>
    obtain ⟨_, -, h⟩ := bind_eq_ok.1 h
    obtain rfl := pure_eq_ok.1 h
    trivial
  | .array items tear =>
    cases room with
    | zero => cases h
    | succ inner =>
      obtain ⟨values, hvalues, h⟩ := bind_eq_ok.1 h
      obtain ⟨-, -, h⟩ := bind_eq_ok.1 h
      obtain rfl := pure_eq_ok.1 h
      exact keyedItems_iff.2 (keyed_of_readJsonItems items hvalues)
  | .object members tear =>
    cases room with
    | zero => cases h
    | succ inner =>
      obtain ⟨pairs, hpairs, h⟩ := bind_eq_ok.1 h
      obtain ⟨-, -, h⟩ := bind_eq_ok.1 h
      obtain rfl := pure_eq_ok.1 h
      obtain ⟨hkeys, hmem⟩ := Entries.ofList_spec pairs
      exact ⟨hkeys, keyedMembers_iff.2 fun entry hentry =>
        keyed_of_readJsonMembers members hpairs entry (hmem entry hentry)⟩
  | .torn _ => cases h

theorem keyed_of_readJsonItems (items : List Node) {room : Nat} {values : List Json}
    (h : Node.readJsonItems room items = .ok values) : ∀ value ∈ values, value.Keyed := by
  match items with
  | [] =>
    obtain rfl := Except.ok.inj h
    exact List.forall_mem_nil _
  | item :: items =>
    obtain ⟨first, hfirst, h⟩ := bind_eq_ok.1 h
    obtain ⟨rest, hrest, h⟩ := bind_eq_ok.1 h
    obtain rfl := pure_eq_ok.1 h
    exact List.forall_mem_cons.2 ⟨keyed_of_readJson item hfirst, keyed_of_readJsonItems items hrest⟩

theorem keyed_of_readJsonMembers (members : List (Quoted × Node)) {room : Nat}
    {pairs : List (String × Json)} (h : Node.readJsonMembers room members = .ok pairs) :
    ∀ pair ∈ pairs, pair.2.Keyed := by
  match members with
  | [] =>
    obtain rfl := Except.ok.inj h
    exact List.forall_mem_nil _
  | (key, node) :: members =>
    obtain ⟨name, -, h⟩ := bind_eq_ok.1 h
    obtain ⟨first, hfirst, h⟩ := bind_eq_ok.1 h
    obtain ⟨rest, hrest, h⟩ := bind_eq_ok.1 h
    obtain rfl := pure_eq_ok.1 h
    exact List.forall_mem_cons.2 ⟨keyed_of_readJson node hfirst, keyed_of_readJsonMembers members hrest⟩

end

theorem keyed_of_parse {text : String} {value : Json} (h : parse text = .ok value) : value.Keyed := by
  obtain ⟨result, hresult, h⟩ := bind_eq_ok.1 h
  split at h
  · obtain rfl := pure_eq_ok.1 h
    exact keyed_of_readJson _ hresult
  · cases h

mutual

theorem keyed_merge (value : Json) {onto : Json} (honto : onto.Keyed) (h : value.Keyed) :
    (merge onto value).Keyed := by
  match value, onto with
  | .null, _ | .bool _, _ | .number _, _ | .string _, _ => exact h
  | .array items, .array present =>
    rw [merge_array]
    exact keyedItems_iff.2 (List.forall_mem_append.2 ⟨keyedItems_iff.1 honto, keyedItems_iff.1 h⟩)
  | .array _, .null | .array _, .bool _ | .array _, .number _ | .array _, .string _
  | .array _, .object _ => exact h
  | .object members, .object present =>
    rw [merge_object]
    exact ⟨nodup_mergeMembers honto.1, keyedMembers_mergeMembers members honto.2 h.2⟩
  | .object _, .null | .object _, .bool _ | .object _, .number _ | .object _, .string _
  | .object _, .array _ => exact h

theorem keyedMembers_mergeMembers (members : List (String × Json)) {present : Entries Json}
    (hpresent : KeyedMembers present) (h : KeyedMembers members) :
    KeyedMembers (mergeMembers present members) := by
  match members with
  | [] => rwa [mergeMembers]
  | (key, value) :: members =>
    rw [mergeMembers]
    refine keyedMembers_mergeMembers members (keyedMembers_iff.2 fun entry hentry => ?_) h.2
    rcases Entries.mem_of_mem_put hentry with rfl | hentry
    · split
      · next old hold =>
        exact keyed_merge value (keyedMembers_iff.1 hpresent _ (Entries.mem_of_get? hold)) h.1
      · exact h.1
    · exact keyedMembers_iff.1 hpresent entry hentry

end

/-- The keys that are there come first, and those that are new follow in their own order. -/
theorem keys_mergeMembers_of_nodup {present members : Entries Json} (h : members.keys.Nodup) :
    (mergeMembers present members).keys =
      present.keys ++ members.keys.filter fun key => key ∉ present.keys := by
  induction members generalizing present with
  | nil => simp [mergeMembers, Entries.keys]
  | cons member members ih =>
    obtain ⟨key, value⟩ := member
    obtain ⟨hnew, hrest⟩ := List.nodup_cons.1 h
    have hmembers : Entries.keys ((key, value) :: members) = key :: Entries.keys members := rfl
    rw [mergeMembers, ih hrest, Entries.keys_put, hmembers]
    by_cases hkey : key ∈ present.keys
    · rw [if_pos hkey, List.filter_cons_of_neg (by simpa using hkey)]
    · have hsame : (Entries.keys members).filter (fun k => k ∉ present.keys ++ [key]) =
          (Entries.keys members).filter fun k => k ∉ present.keys := by
        refine List.filter_congr fun other hother => ?_
        have hne : other ≠ key := fun e => hnew (e ▸ hother)
        simp [hne]
      rw [if_neg hkey, hsame, List.filter_cons_of_pos (by simpa using hkey), List.append_assoc,
        List.singleton_append]

section Paths

/-- A value ends a path too soon: above its end stands something that is no object. -/
def Cuts (value : Json) (path : List String) : Prop :=
  ∃ front key back, path = front ++ key :: back ∧
    ∃ found, value.member? front = some found ∧ found.isObject = false

variable {value onto : Json} {key : String} {path : List String}

theorem not_cuts_nil (value : Json) : ¬value.Cuts [] := by
  rintro ⟨front, key, back, hpath, -⟩
  simp at hpath

theorem cuts_cons_iff : value.Cuts (key :: path) ↔
    value.isObject = false ∨ ∃ inner, value.get? key = some inner ∧ inner.Cuts path := by
  constructor
  · rintro ⟨front, last, back, hpath, found, hfound, hobject⟩
    cases front with
    | nil =>
      obtain rfl := Option.some.inj hfound
      exact Or.inl hobject
    | cons first front =>
      obtain ⟨rfl, rfl⟩ := List.cons.inj hpath
      obtain ⟨inner, hinner, hfound⟩ := Option.bind_eq_some_iff.1 hfound
      exact Or.inr ⟨inner, hinner, front, last, back, rfl, found, hfound, hobject⟩
  · rintro (hobject | ⟨inner, hinner, front, last, back, rfl, found, hfound, hobject⟩)
    · exact ⟨[], key, path, rfl, value, rfl, hobject⟩
    · refine ⟨key :: front, last, back, rfl, found, ?_, hobject⟩
      rw [member?, hinner, Option.bind_some, hfound]

theorem get?_of_isObject_eq_false (h : value.isObject = false) (key : String) : value.get? key = none := by
  cases value with
  | object members => cases h
  | _ => rfl

theorem member?_of_cuts (h : value.Cuts path) : value.member? path = none := by
  induction path generalizing value with
  | nil => exact absurd h (not_cuts_nil value)
  | cons key path ih =>
    rw [member?]
    rcases cuts_cons_iff.1 h with hobject | ⟨inner, hinner, hcuts⟩
    · rw [get?_of_isObject_eq_false hobject, Option.bind_none]
    · rw [hinner, Option.bind_some, ih hcuts]

@[simp] theorem mergeOver_none_left (value? : Option Json) : mergeOver none value? = value? := by
  cases value? <;> rfl

@[simp] theorem mergeOver_none_right (old? : Option Json) : mergeOver old? none = old? := by
  cases old? <;> rfl

/-- Under a key that an object came with stands what came, merged with what was there; what is no object leaves
nothing that was there. -/
theorem get?_merge (h : value.Keyed) (onto : Json) (key : String) :
    (merge onto value).get? key =
      mergeOver (if value.isObject then onto.get? key else none) (value.get? key) := by
  cases value with
  | object members =>
    rw [isObject, if_pos rfl]
    cases onto with
    | object present => exact get?_merge_object h.1 key
    | _ => exact (mergeOver_none_left _).symm
  | array items => cases onto <;> rfl
  | _ => rfl

/-- At every path the two values are merged that stand there, unless the path is cut, and then nothing is. -/
theorem member?_merge (h : value.Keyed) (onto : Json) (path : List String) :
    (value.Cuts path → (merge onto value).member? path = none) ∧
      (¬value.Cuts path →
        (merge onto value).member? path = mergeOver (onto.member? path) (value.member? path)) := by
  induction path generalizing onto value with
  | nil => exact ⟨fun hcuts => absurd hcuts (not_cuts_nil value), fun _ => rfl⟩
  | cons key path ih =>
    rw [cuts_cons_iff, member?, member?, member?, get?_merge h]
    cases hobject : value.isObject with
    | false => simp [get?_of_isObject_eq_false hobject]
    | true =>
      cases hnew : value.get? key with
      | none => simp
      | some new =>
        have hcut : new.Cuts path → new.member? path = none := member?_of_cuts
        cases onto.get? key with
        | none => simpa using hcut
        | some old => simpa [mergeOver] using ih (keyed_of_get? h hnew) old

/-- What a merged value has at the end of a path, by what the value that was there and the one that came in have
there. -/
structure Merges (onto value merged : Json) (path : List String) : Prop where
  objects : ∀ present members : Entries Json, onto.member? path = some (.object present) →
    value.member? path = some (.object members) → ∃ both : Entries Json,
      merged.member? path = some (.object both) ∧
        both.keys = present.keys ++ members.keys.filter (fun key => key ∉ present.keys) ∧ both.keys.Nodup
  arrays : ∀ present items, onto.member? path = some (.array present) →
    value.member? path = some (.array items) → merged.member? path = some (.array (present ++ items))
  conflict : ∀ old new, onto.member? path = some old → value.member? path = some new →
    ¬(old.isObject = true ∧ new.isObject = true) → ¬(old.isArray = true ∧ new.isArray = true) →
      merged.member? path = some new
  new : ∀ new, onto.member? path = none → value.member? path = some new → merged.member? path = some new
  old : ∀ old, onto.member? path = some old → value.member? path = none → ¬value.Cuts path →
    merged.member? path = some old
  cut : value.Cuts path → merged.member? path = none
  none : onto.member? path = none → value.member? path = none → merged.member? path = none

theorem not_cuts_of_member? {found : Json} (h : value.member? path = some found) : ¬value.Cuts path := by
  intro hcuts
  rw [member?_of_cuts hcuts] at h
  cases h

/-- Values that are neither two objects nor two arrays are not merged: the one that came in is there. -/
theorem merge_of_conflict {old new : Json} (hobjects : ¬(old.isObject = true ∧ new.isObject = true))
    (harrays : ¬(old.isArray = true ∧ new.isArray = true)) : merge old new = new := by
  cases new with
  | object members =>
    cases old with
    | object present => exact absurd ⟨rfl, rfl⟩ hobjects
    | _ => rfl
  | array items =>
    cases old with
    | array present => exact absurd ⟨rfl, rfl⟩ harrays
    | _ => rfl
  | _ => rfl

theorem merges_merge (honto : onto.Keyed) (hvalue : value.Keyed) (path : List String) :
    Merges onto value (merge onto value) path := by
  obtain ⟨hcut, hmerge⟩ := member?_merge hvalue onto path
  -- where something came in, it is merged with what was there, if anything was
  have hcame {new : Json} (hnew : value.member? path = some new) :
      (merge onto value).member? path = mergeOver (onto.member? path) (some new) := by
    rw [hmerge (not_cuts_of_member? hnew), hnew]
  constructor
  case objects =>
    intro present members hold hnew
    have hmembers := keyed_of_member? hvalue hnew
    refine ⟨mergeMembers present members, ?_, keys_mergeMembers_of_nodup hmembers.1, ?_⟩
    · rw [hcame hnew, hold, mergeOver, merge_object]
    · exact nodup_mergeMembers (keyed_of_member? honto hold).1
  case arrays =>
    intro present items hold hnew
    rw [hcame hnew, hold, mergeOver, merge_array]
  case conflict =>
    intro old new hold hnew hobjects harrays
    rw [hcame hnew, hold, mergeOver, merge_of_conflict hobjects harrays]
  case new =>
    intro new hold hnew
    rw [hcame hnew, hold, mergeOver_none_left]
  case old =>
    intro old hold hnew hcuts
    rw [hmerge hcuts, hold, hnew, mergeOver_none_right]
  case cut => exact hcut
  case none =>
    intro hold hnew
    by_cases hcuts : value.Cuts path
    · exact hcut hcuts
    · rw [hmerge hcuts, hold, hnew, mergeOver_none_left]

end Paths

mutual

/-- How many arrays and objects lie in each other. -/
def depth : Json → Nat
  | .null => 0
  | .bool _ => 0
  | .number _ => 0
  | .string _ => 0
  | .array items => depthItems items + 1
  | .object members => depthMembers members + 1

def depthItems : List Json → Nat
  | [] => 0
  | item :: items => max item.depth (depthItems items)

def depthMembers : List (String × Json) → Nat
  | [] => 0
  | (_, value) :: members => max value.depth (depthMembers members)

end

section Depth

theorem depthItems_le_iff {items : List Json} {bound : Nat} :
    depthItems items ≤ bound ↔ ∀ item ∈ items, item.depth ≤ bound := by
  induction items with
  | nil => simp [depthItems]
  | cons item items ih => rw [depthItems, Nat.max_le, ih, List.forall_mem_cons]

theorem depthMembers_le_iff {members : List (String × Json)} {bound : Nat} :
    depthMembers members ≤ bound ↔ ∀ member ∈ members, member.2.depth ≤ bound := by
  induction members with
  | nil => simp [depthMembers]
  | cons member members ih => rw [depthMembers, Nat.max_le, ih, List.forall_mem_cons]

mutual

/-- Merging goes no deeper than the deeper of two values. -/
theorem depth_merge (value onto : Json) : (merge onto value).depth ≤ max onto.depth value.depth := by
  match value, onto with
  | .null, _ | .bool _, _ | .number _, _ | .string _, _ => exact Nat.le_max_right _ _
  | .array items, .array present =>
    rw [merge_array, depth, depth, depth, Nat.add_max_add_right, Nat.add_le_add_iff_right,
      depthItems_le_iff]
    refine List.forall_mem_append.2 ⟨?_, ?_⟩
    · exact depthItems_le_iff.1 (Nat.le_max_left _ _)
    · exact depthItems_le_iff.1 (Nat.le_max_right _ _)
  | .array _, .null | .array _, .bool _ | .array _, .number _ | .array _, .string _
  | .array _, .object _ => exact Nat.le_max_right _ _
  | .object members, .object present =>
    rw [merge_object, depth, depth, depth, Nat.add_max_add_right, Nat.add_le_add_iff_right]
    exact depthMembers_mergeMembers members present
  | .object _, .null | .object _, .bool _ | .object _, .number _ | .object _, .string _
  | .object _, .array _ => exact Nat.le_max_right _ _

theorem depthMembers_mergeMembers (members : List (String × Json)) (present : Entries Json) :
    depthMembers (mergeMembers present members) ≤ max (depthMembers present) (depthMembers members) := by
  match members with
  | [] =>
    rw [mergeMembers]
    exact Nat.le_max_left _ _
  | (key, value) :: members =>
    rw [mergeMembers, depthMembers]
    refine Nat.le_trans (depthMembers_mergeMembers members _) (Nat.max_le.2 ⟨depthMembers_le_iff.2 ?_, ?_⟩)
    · intro entry hentry
      rcases Entries.mem_of_mem_put hentry with rfl | hentry
      · split
        · next old hold =>
          have hpresent := depthMembers_le_iff.1 (Nat.le_refl _) _ (Entries.mem_of_get? hold)
          have hmerge := depth_merge value old
          simp only at hpresent ⊢
          omega
        · simp only
          omega
      · have hpresent := depthMembers_le_iff.1 (Nat.le_refl _) _ hentry
        omega
    · omega

end

end Depth

end EntityForge.Json
