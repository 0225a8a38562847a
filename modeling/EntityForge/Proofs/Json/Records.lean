import EntityForge.Json.Record
import EntityForge.Proofs.Entries
import EntityForge.Proofs.Refusal

/-!
What a record and a map take from the tree that they are read from.

Every component of a record is read from the one part of the tree that stands for its field, and is that of the
blank record if there is none. The values of a map stand in the order in which their keys first come in the text,
and each is read from what comes last under its key. Main statements: `Record.read_component` and
`Node.follows_of_readEntries`.
-/

namespace EntityForge

/-- What comes last under a key. -/
def Entries.IsLast {α : Type} (entries : Entries α) (key : String) (value : α) : Prop :=
  ∃ before after, entries = before ++ (key, value) :: after ∧ key ∉ after.map Prod.fst

theorem Entries.IsLast.unique {α : Type} {entries : Entries α} {key : String} {value other : α}
    (h : entries.IsLast key value) (hother : entries.IsLast key other) : value = other := by
  have hvalue := Entries.get?_ofList_eq_some_iff.2 h
  rw [Entries.get?_ofList_eq_some_iff.2 hother] at hvalue
  exact (Option.some.inj hvalue).symm

theorem Entries.IsLast.mem {α : Type} {entries : Entries α} {key : String} {value : α}
    (h : entries.IsLast key value) : (key, value) ∈ entries := by
  obtain ⟨before, after, rfl, -⟩ := h
  exact List.mem_append_right _ List.mem_cons_self

theorem Entries.IsLast.mem_keys {α : Type} {entries : Entries α} {key : String} {value : α}
    (h : entries.IsLast key value) : key ∈ entries.map Prod.fst := List.mem_map_of_mem h.mem

namespace Json

/-- Members in the order of the text, each under its key as it is read. -/
def keyed (members : List (Quoted × Node)) : Entries Node :=
  members.filterMap fun (key, value) =>
    match key.read with
    | .ok name => some (name, value)
    | .error _ => none

theorem keyed_cons {key : Quoted} {name : String} (h : key.read = .ok name) (value : Node)
    (members : List (Quoted × Node)) : keyed ((key, value) :: members) = (name, value) :: keyed members := by
  simp [keyed, h]

/-- The members of an object; whatever else a node is, it has none. -/
def Node.members : Node → Entries Node
  | .object members _ => keyed members
  | _ => []

/-- Values stand in the order in which their keys first come, and each is made from what comes last under its
key. -/
structure Follows {β : Type} (keyOf : β → String) (Made : Node → β → Prop) (parts : Entries Node)
    (values : List β) : Prop where
  keys : values.map keyOf = (parts.map Prod.fst).eraseDups
  made : ∀ value ∈ values, ∃ part, parts.IsLast (keyOf value) part ∧ Made part value

namespace Follows

variable {β γ : Type} {keyOf : β → String} {Made : Node → β → Prop} {parts : Entries Node} {values : List β}

theorem nil (keyOf : β → String) (Made : Node → β → Prop) : Follows keyOf Made [] [] :=
  ⟨rfl, nofun⟩

/-- However often a key comes, one value follows it. -/
theorem nodup (h : Follows keyOf Made parts values) : (values.map keyOf).Nodup := by
  rw [h.keys, ← Entries.keys_ofList]
  exact (Entries.ofList_spec parts).1

/-- What is made from the values one by one follows as they do. -/
theorem of_forall₂ (h : Follows keyOf Made parts values) {R : β → γ → Prop} {others : List γ}
    (hall : List.Forall₂ R values others) {keyOf' : γ → String} {Made' : Node → γ → Prop}
    (hkey : ∀ value other, R value other → keyOf value = keyOf' other)
    (hmade : ∀ part value other, Made part value → R value other → Made' part other) :
    Follows keyOf' Made' parts others where
  keys := (map_eq_map_of_forall₂ hall fun _ _ hR => (hkey _ _ hR).symm).trans h.keys
  made other hother := by
    obtain ⟨value, hvalue, hR⟩ := exists_of_forall₂_right hall hother
    obtain ⟨part, hlast, hpart⟩ := h.made value hvalue
    rw [hkey value other hR] at hlast
    exact ⟨part, hlast, hmade part value other hpart hR⟩

end Follows

theorem isLast_of_forall₂ {α : Type} {parts : Entries Node} {pairs : Entries α} {R : Node → α → Prop}
    (h : List.Forall₂ (fun part pair => pair.1 = part.1 ∧ R part.2 pair.2) parts pairs) {key : String}
    {value : α} (hlast : pairs.IsLast key value) : ∃ part, parts.IsLast key part ∧ R part value := by
  obtain ⟨before, after, rfl, hafter⟩ := hlast
  obtain ⟨entry, rest, ⟨hkey, hR⟩, hrest, hdrop⟩ :=
    List.forall₂_cons_right_iff.1 (List.forall₂_drop_append parts before _ h)
  obtain ⟨name, part⟩ := entry
  obtain rfl : key = name := hkey
  refine ⟨part, ⟨parts.take before.length, rest, ?_, ?_⟩, hR⟩
  · rw [← hdrop, List.take_append_drop]
  · rwa [← map_eq_map_of_forall₂ hrest fun _ _ hpair => hpair.1]

namespace Node

variable {α : Type}

theorem refuse_ne_ok {node : Node} {expected : Expected} {value : α} :
    node.refuse expected ≠ .ok value := by
  intro h
  obtain ⟨found, -, h⟩ := bind_eq_ok.1 h
  cases h

theorem forall₂_of_readMembers {read : Node → Read α} {members : List (Quoted × Node)}
    {pairs : List (String × α)} (h : readMembers read members = .ok pairs) :
    List.Forall₂ (fun part pair => pair.1 = part.1 ∧ read part.2 = .ok pair.2) (keyed members) pairs := by
  induction members generalizing pairs with
  | nil =>
    cases h
    exact .nil
  | cons member members ih =>
    obtain ⟨name, hname, h⟩ := bind_eq_ok.1 h
    obtain ⟨first, hfirst, h⟩ := bind_eq_ok.1 h
    obtain ⟨rest, hrest, h⟩ := bind_eq_ok.1 h
    obtain rfl := pure_eq_ok.1 h
    rw [keyed_cons hname]
    exact .cons ⟨rfl, hfirst⟩ (ih hrest)

/-- A map that is read follows the members of its object. -/
theorem follows_of_readEntries {read : Nat → Node → Read α} {room : Nat} {node : Node} {entries : Entries α}
    (h : readEntries read room node = .ok entries) :
    Follows Prod.fst (fun part entry => ∃ inner, read inner part = .ok entry.2) node.members entries := by
  cases node with
  | object members tear =>
    cases room with
    | zero => cases h
    | succ inner =>
      obtain ⟨pairs, hpairs, h⟩ := bind_eq_ok.1 h
      obtain ⟨-, -, h⟩ := bind_eq_ok.1 h
      obtain rfl := pure_eq_ok.1 h
      have hall := forall₂_of_readMembers hpairs
      have hkeys : pairs.map Prod.fst = (keyed members).map Prod.fst :=
        map_eq_map_of_forall₂ hall fun _ _ hpair => hpair.1
      refine ⟨(Entries.keys_ofList pairs).trans (congrArg List.eraseDups hkeys), ?_⟩
      rintro ⟨key, value⟩ hentry
      have hget := (Entries.get?_eq_some_iff (Entries.ofList_spec pairs).1).2 hentry
      obtain ⟨part, hlast, hread⟩ := isLast_of_forall₂ (R := fun part value => read inner part = .ok value) hall
        (Entries.get?_ofList_eq_some_iff.1 hget)
      exact ⟨part, hlast, inner, hread⟩
  | _ => exact absurd h refuse_ne_ok

theorem readOptional_spec {read : Node → Read α} {node : Node} {result : Option α}
    (h : readOptional read node = .ok result) : ∀ value ∈ result, read node = .ok value := by
  unfold readOptional at h
  split at h
  · cases h
    intro value hvalue
    cases hvalue
  · obtain ⟨value, hvalue, h⟩ := bind_eq_ok.1 h
    obtain rfl := pure_eq_ok.1 h
    intro other hother
    obtain rfl := Option.some.inj hother
    exact hvalue

end Node

namespace Record

variable {α β : Type}

/-- The parts of a record: the members of an object, or the items of an array under the keys of the fields that
they stand for. -/
def parts (r : Record α) : Node → Entries Node
  | .array items _ => (r.fields.map RecordField.key).zip items
  | node => node.members

/-- The part that stands for a field. -/
def part? (r : Record α) (node : Node) (key : String) : Option Node := (r.parts node).get? key

/-- A component of a record: one field reads it, and the others leave it as it is. -/
structure Component (fields : List (RecordField α)) (key : String) (read : Nat → Node → Read β)
    (get : α → β) : Prop where
  stored : ∀ field ∈ fields, field.key = key → ∀ room node record next,
    field.read room node record = .ok next → read room node = .ok (get next)
  spared : ∀ field ∈ fields, field.key ≠ key → ∀ room node record next,
    field.read room node record = .ok next → get next = get record

namespace Component

variable {fields : List (RecordField α)} {key : String} {read : Nat → Node → Read β} {get : α → β}

theorem nil (key : String) (read : Nat → Node → Read β) (get : α → β) : Component [] key read get :=
  ⟨nofun, nofun⟩

/-- The field that reads the component, which is made of what is read. -/
theorem store_map {γ : Type} {readOne : Nat → Node → Read γ} {f : γ → β}
    (h : Component fields key (fun room node => f <$> readOne room node) get) {required : Bool} {set : α → γ → α}
    (hset : ∀ record value, get (set record value) = f value) :
    Component (RecordField.of key required readOne set :: fields) key
      (fun room node => f <$> readOne room node) get where
  stored := by
    refine List.forall_mem_cons.2 ⟨fun _ room node record next hnext => ?_, h.stored⟩
    obtain ⟨value, hvalue, hnext⟩ := bind_eq_ok.1 hnext
    obtain rfl := pure_eq_ok.1 hnext
    rw [hset, hvalue]
    rfl
  spared := List.forall_mem_cons.2 ⟨fun hkey => absurd rfl hkey, h.spared⟩

/-- The field that reads the component as it is. -/
theorem store (h : Component fields key read get) {required : Bool} {set : α → β → α}
    (hset : ∀ record value, get (set record value) = value) :
    Component (RecordField.of key required read set :: fields) key read get := by
  have hread : (fun room node => id <$> read room node) = read := by
    funext room node
    exact id_map (read room node)
  rw [← hread] at h
  have hstored : Component (RecordField.of key required read set :: fields) key (fun room node => id <$> read room node)
      get := h.store_map hset
  rwa [hread] at hstored

/-- A field that reads another one. -/
theorem skip (h : Component fields key read get) {γ : Type} {other : String} (hkey : other ≠ key)
    {required : Bool} {readOther : Nat → Node → Read γ} {set : α → γ → α}
    (hset : ∀ record value, get (set record value) = get record) :
    Component (RecordField.of other required readOther set :: fields) key read get where
  stored := List.forall_mem_cons.2 ⟨fun hsame => absurd hsame hkey, h.stored⟩
  spared := by
    refine List.forall_mem_cons.2 ⟨fun _ room node record next hnext => ?_, h.spared⟩
    obtain ⟨value, -, hnext⟩ := bind_eq_ok.1 hnext
    obtain rfl := pure_eq_ok.1 hnext
    exact hset record value

theorem tail {field : RecordField α} (h : Component (field :: fields) key read get) :
    Component fields key read get :=
  ⟨fun f hf => h.stored f (List.mem_cons_of_mem _ hf), fun f hf => h.spared f (List.mem_cons_of_mem _ hf)⟩

end Component

variable {r : Record α} {key : String} {read : Nat → Node → Read β} {get : α → β} {room : Nat}

/-- A component comes from a part if there is one, and else it is as it was. -/
def Takes (read : Node → Read β) (part? : Option Node) (old new : β) : Prop :=
  match part? with
  | none => new = old
  | some part => read part = .ok new

/-- What a single member does to the fields that have been met and to the record. -/
inductive Absorbs (r : Record α) (room : Nat) : Quoted × Node → List String × α → List String × α → Prop
  | ignored {key : Quoted} {name : String} {value : Node} (state : List String × α) (hkey : key.read = .ok name)
    (unknown : r.field? name = none) (skipped : value.skip = .ok ()) : Absorbs r room (key, value) state state
  | stored {key : Quoted} {name : String} {value : Node} {field : RecordField α} {seen : List String}
    {record next : α} (hkey : key.read = .ok name) (known : r.field? name = some field) (fresh : name ∉ seen)
    (read : field.read room value record = .ok next) :
    Absorbs r room (key, value) (seen, record) (name :: seen, next)

/-- Members are taken in one after the other. -/
theorem readMembers_cons {member : Quoted × Node} {members : List (Quoted × Node)} {seen : List String} {record : α}
    {result : List String × α} :
    r.readMembers room seen record (member :: members) = .ok result ↔
      ∃ state, r.Absorbs room member (seen, record) state ∧
        r.readMembers room state.1 state.2 members = .ok result := by
  obtain ⟨key, value⟩ := member
  constructor
  · intro h
    obtain ⟨name, hname, h⟩ := bind_eq_ok.1 h
    cases hfield : r.field? name with
    | none =>
      simp only [hfield] at h
      obtain ⟨⟨⟩, hskip, h⟩ := bind_eq_ok.1 h
      exact ⟨_, .ignored _ hname hfield hskip, h⟩
    | some field =>
      simp only [hfield] at h
      split at h
      · cases h
      · next hnew =>
        obtain ⟨next, hnext, h⟩ := bind_eq_ok.1 h
        exact ⟨_, .stored hname hfield (by simpa using hnew) hnext, h⟩
  · rintro ⟨state, habsorbs, h⟩
    refine bind_eq_ok.2 ?_
    cases habsorbs with
    | ignored _ hkey unknown skipped =>
      refine ⟨_, hkey, ?_⟩
      simp only [unknown]
      exact bind_eq_ok.2 ⟨(), skipped, h⟩
    | stored hkey known fresh read =>
      refine ⟨_, hkey, ?_⟩
      simp only [known, List.contains_eq_mem, fresh, decide_false, Bool.false_eq_true, if_false]
      exact bind_eq_ok.2 ⟨_, read, h⟩

theorem readMembers_component (h : Component r.fields key read get)
    (hkey : key ∈ r.fields.map RecordField.key) {members : List (Quoted × Node)} {seen : List String}
    {record : α} {result : List String × α} (hread : r.readMembers room seen record members = .ok result) :
    (key ∈ seen → get result.2 = get record) ∧
      (key ∉ seen → Takes (read room) ((keyed members).get? key) (get record) (get result.2)) := by
  induction members generalizing seen record with
  | nil =>
    cases hread
    exact ⟨fun _ => rfl, fun _ => rfl⟩
  | cons member members ih =>
    obtain ⟨state, habsorbs, hread⟩ := readMembers_cons.1 hread
    obtain ⟨hseen, hunseen⟩ := ih hread
    cases habsorbs with
    | @ignored _ name _ _ hname unknown _ =>
      have hne : name ≠ key := by
        rintro rfl
        obtain ⟨field, hmem, hsame⟩ := List.mem_map.1 hkey
        simpa [hsame] using List.find?_eq_none.1 unknown field hmem
      rw [keyed_cons hname, Entries.get?, if_neg hne]
      exact ⟨hseen, hunseen⟩
    | @stored _ name value field _ _ next hname known fresh hnext =>
      have hmem := List.mem_of_find?_eq_some known
      have hfield : field.key = name := by simpa using List.find?_some known
      rw [keyed_cons hname, Entries.get?]
      by_cases hsame : name = key
      · subst hsame
        have hstored := h.stored field hmem hfield _ _ _ _ hnext
        refine ⟨fun hold => absurd hold fresh, fun _ => ?_⟩
        rw [if_pos rfl, Takes, hseen List.mem_cons_self]
        exact hstored
      · have hspared := h.spared field hmem (hfield ▸ hsame) _ _ _ _ hnext
        rw [if_neg hsame, ← hspared]
        refine ⟨fun hold => hseen (List.mem_cons_of_mem _ hold), fun hold => hunseen ?_⟩
        simp [hold, Ne.symm hsame]

theorem readItems_component {fields : List (RecordField α)} (h : Component fields key read get)
    (hkeys : (fields.map RecordField.key).Nodup) {tear : Option Tear} {items : List Node} {present : Nat}
    {record value : α} (hread : r.readItems room tear present record fields items = .ok value) :
    Takes (read room) (Entries.get? ((fields.map RecordField.key).zip items) key) (get record) (get value) := by
  induction fields generalizing items present record with
  | nil =>
    cases items with
    | nil =>
      obtain ⟨-, -, hread⟩ := bind_eq_ok.1 hread
      obtain rfl := pure_eq_ok.1 hread
      exact rfl
    | cons item items => cases hread
  | cons field fields ih =>
    obtain ⟨hnew, hrest⟩ := List.nodup_cons.1 hkeys
    cases items with
    | nil =>
      obtain ⟨-, -, hread⟩ := bind_eq_ok.1 hread
      split at hread
      · cases hread
      · have hblank := ih h.tail hrest hread
        rw [List.zip_nil_right] at hblank ⊢
        exact hblank
    | cons item items =>
      obtain ⟨next, hnext, hread⟩ := bind_eq_ok.1 hread
      have hvalue := ih h.tail hrest hread
      rw [List.map_cons, List.zip_cons_cons, Entries.get?]
      by_cases hfield : field.key = key
      · -- no field that is left has the key, so what this one has stored is left alone
        have hnone : Entries.get? ((fields.map RecordField.key).zip items) key = none := by
          refine Entries.get?_eq_none_iff.2 fun hmem => hnew ?_
          obtain ⟨⟨name, part⟩, hentry, rfl⟩ := List.mem_map.1 hmem
          exact hfield ▸ (List.of_mem_zip hentry).1
        rw [hnone] at hvalue
        rw [if_pos hfield, Takes, show get value = get next from hvalue]
        exact h.stored field List.mem_cons_self hfield _ _ _ _ hnext
      · rw [if_neg hfield, ← h.spared field List.mem_cons_self hfield _ _ _ _ hnext]
        exact hvalue

/-- A component of a record is read from the part that stands for its field, be the record written as an object
or as an array, and without such a part it is that of the blank record. -/
theorem read_component (h : Component r.fields key read get)
    (hkeys : (r.fields.map RecordField.key).Nodup) (hkey : key ∈ r.fields.map RecordField.key) {node : Node}
    {value : α} (hread : r.read room node = .ok value) :
    ∃ inner, Takes (read inner) (r.part? node key) (get r.blank) (get value) := by
  unfold Record.read at hread
  split at hread
  · split at hread
    · cases hread
    · next inner =>
      obtain ⟨⟨seen, result⟩, hresult, hread⟩ := bind_eq_ok.1 hread
      obtain ⟨-, -, hread⟩ := bind_eq_ok.1 hread
      split at hread
      · cases hread
      · obtain rfl := pure_eq_ok.1 hread
        exact ⟨inner, (readMembers_component h hkey hresult).2 List.not_mem_nil⟩
  · split at hread
    · cases hread
    · next inner => exact ⟨inner, readItems_component h hkeys hread⟩
  · exact absurd hread Node.refuse_ne_ok

/-- The members of a map that is part of a record. -/
def mapAt (r : Record α) (node : Node) (key : String) : Entries Node :=
  match r.part? node key with
  | none => []
  | some part => part.members

/-- A map that is a component of a record follows the members that stand in its place. -/
theorem follows_of_read {read : Nat → Node → Read β} {get : α → Entries β}
    (h : Component r.fields key (Node.readEntries read) get) (hkeys : (r.fields.map RecordField.key).Nodup)
    (hkey : key ∈ r.fields.map RecordField.key) (hblank : get r.blank = []) {node : Node} {value : α}
    (hread : r.read room node = .ok value) :
    Follows Prod.fst (fun part entry => ∃ inner, read inner part = .ok entry.2) (r.mapAt node key)
      (get value) := by
  obtain ⟨inner, htakes⟩ := read_component h hkeys hkey hread
  unfold mapAt
  cases hpart : r.part? node key with
  | none =>
    rw [hpart, hblank] at htakes
    rw [show get value = [] from htakes]
    exact .nil _ _
  | some part =>
    rw [hpart] at htakes
    exact Node.follows_of_readEntries htakes

theorem tear_of_checkEnd {tear : Option Tear} (h : checkEnd tear = .ok ()) : tear = none := by
  cases tear with
  | none => rfl
  | some t => cases h

theorem tear_of_readItems {tear : Option Tear} {fields : List (RecordField α)} {items : List Node}
    {present : Nat} {record value : α} (hread : r.readItems room tear present record fields items = .ok value) :
    tear = none := by
  induction fields generalizing items present record with
  | nil =>
    cases items with
    | nil =>
      obtain ⟨⟨⟩, hcheck, -⟩ := bind_eq_ok.1 hread
      exact tear_of_checkEnd hcheck
    | cons item items => cases hread
  | cons field fields ih =>
    cases items with
    | nil =>
      obtain ⟨⟨⟩, hcheck, -⟩ := bind_eq_ok.1 hread
      exact tear_of_checkEnd hcheck
    | cons item items =>
      obtain ⟨next, -, hread⟩ := bind_eq_ok.1 hread
      exact ih hread

/-- A record is read from an untorn tree only. -/
theorem untorn_of_read {node : Node} {value : α} (hread : r.read room node = .ok value) :
    node.tear? = none := by
  unfold Record.read at hread
  split at hread
  · split at hread
    · cases hread
    · obtain ⟨⟨seen, result⟩, -, hread⟩ := bind_eq_ok.1 hread
      obtain ⟨⟨⟩, hcheck, -⟩ := bind_eq_ok.1 hread
      exact tear_of_checkEnd hcheck
  · split at hread
    · cases hread
    · exact tear_of_readItems hread
  · exact absurd hread Node.refuse_ne_ok

end Record

end Json

end EntityForge
