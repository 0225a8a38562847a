import EntityForge.Proofs.Json.Records
import EntityForge.Proofs.Json.Whole
import Mathlib.Data.List.Pairwise

/-!
Trees that readers do not tell apart.

The members of a record may come in any order, and among others of which nothing is asked but that they are passed
over. The items of a list and the members of a map stay where they are, and each of them may vary in turn. A reader
that accepts a tree reads the same value from every one that varies from it in this way. Main statements:
`Varied.record`, `Varied.list` and `Varied.map`.
-/

namespace EntityForge.Json

/-- Items that vary one by one. -/
inductive Itemwise (vary : Node → Node → Prop) : Node → Node → Prop
  | same (node : Node) : Itemwise vary node node
  | items {items others : List Node} {tear : Option Tear} (each : List.Forall₂ vary items others) :
    Itemwise vary (.array items tear) (.array others tear)

/-- Members that vary one by one, each under its key. -/
inductive Memberwise (vary : Node → Node → Prop) : Node → Node → Prop
  | same (node : Node) : Memberwise vary node node
  | members {members others : List (Quoted × Node)} {tear : Option Tear}
    (each : List.Forall₂ (fun member other => other.1 = member.1 ∧ vary member.2 other.2) members others) :
    Memberwise vary (.object members tear) (.object others tear)

/-- How the components of a record vary, each under its key. All others stay as they are. -/
abbrev Inner := List (String × (Node → Node → Prop))

/-- A member that is as it was, or whose value varies as the component does that it stands for. -/
def Inner.Varies (inner : Inner) (member other : Quoted × Node) : Prop :=
  other.1 = member.1 ∧ (other.2 = member.2 ∨
    ∃ component ∈ inner, member.1.read = .ok component.1 ∧ component.2 member.2 other.2)

/-- A member that a record does not know. Its value may be any that is whole, however deep. -/
structure Record.Ignores {α : Type} (r : Record α) (member : Quoted × Node) : Prop where
  key : ∃ name, member.1.read = .ok name ∧ r.field? name = none
  value : member.2.Whole

/-- The members of a record in another order, and among others that the record does not know. -/
inductive Rearranged {α : Type} (r : Record α) (inner : Inner) : Node → Node → Prop
  | same (node : Node) : Rearranged r inner node node
  | members {members others extra arranged : List (Quoted × Node)} {tear : Option Tear}
    (each : List.Forall₂ inner.Varies members others) (ignored : ∀ member ∈ extra, r.Ignores member)
    (order : arranged.Perm (others ++ extra)) :
    Rearranged r inner (.object members tear) (.object arranged tear)

/-- A way in which trees vary that a reader does not notice. -/
structure Varied {α : Type} (vary : Node → Node → Prop) (read : Nat → Node → Read α) : Prop where
  whole : ∀ {node other : Node}, vary node other → node.Whole → other.Whole
  read_eq : ∀ {room : Nat} {node other : Node} {value : α}, vary node other → read room node = .ok value →
    read room other = .ok value

/-- Two fields of which it does not matter which one is read first. -/
def RecordField.Independent {α : Type} (field other : RecordField α) : Prop :=
  ∀ (room : Nat) (node part : Node) (record last : α),
    (field.read room node record >>= other.read room part) = .ok last ↔
      (other.read room part record >>= field.read room node) = .ok last

namespace RecordField

variable {α β γ : Type}

theorem Independent.symm {field other : RecordField α} (h : field.Independent other) : other.Independent field :=
  fun room node part record last => (h room part node record last).symm

instance : Std.Symm (@Independent α) := ⟨fun _ _ h => h.symm⟩

/-- So it is where one of them stores what the other one leaves alone. -/
@[simp] theorem independent_of {key other : String} {required requiredOther : Bool} {read : Nat → Node → Read β}
    {readOther : Nat → Node → Read γ} {set : α → β → α} {setOther : α → γ → α}
    (h : ∀ record value part, setOther (set record value) part = set (setOther record part) value) :
    (of key required read set).Independent (of other requiredOther readOther setOther) := by
  intro room node part record last
  simp only [of, bind_eq_ok, pure_eq_ok]
  constructor
  · rintro ⟨next, ⟨value, hvalue, rfl⟩, stored, hstored, rfl⟩
    exact ⟨_, ⟨stored, hstored, rfl⟩, value, hvalue, (h _ _ _).symm⟩
  · rintro ⟨next, ⟨stored, hstored, rfl⟩, value, hvalue, rfl⟩
    exact ⟨_, ⟨value, hvalue, rfl⟩, stored, hstored, h _ _ _⟩

end RecordField

namespace Record

variable {α : Type} {r : Record α}

/-- A component whose field does not notice how it varies. -/
structure Admits (r : Record α) (component : String × (Node → Node → Prop)) : Prop where
  field : ∃ field, r.field? component.1 = some field ∧ ∀ {room : Nat} {node other : Node} {record next : α},
    component.2 node other → field.read room node record = .ok next → field.read room other record = .ok next
  whole : ∀ {node other : Node}, component.2 node other → node.Whole → other.Whole

theorem Admits.of {β : Type} {key : String} {required : Bool} {read : Nat → Node → Read β} {set : α → β → α}
    {vary : Node → Node → Prop} (hfield : r.field? key = some (.of key required read set)) (h : Varied vary read) :
    r.Admits (key, vary) := by
  refine ⟨⟨_, hfield, fun {room node other record next} hvary hread => ?_⟩, h.whole⟩
  obtain ⟨value, hvalue, hset⟩ := bind_eq_ok.1 hread
  exact bind_eq_ok.2 ⟨value, h.read_eq hvary hvalue, hset⟩

/-- The same record, with the same fields met in whatever order. -/
structure Alike (state other : List String × α) : Prop where
  seen : state.1.Perm other.1
  record : state.2 = other.2

theorem Alike.refl (state : List String × α) : Alike state state := ⟨.refl _, rfl⟩

theorem Alike.trans {state other third : List String × α} (h : Alike state other) (h' : Alike other third) :
    Alike state third :=
  ⟨h.seen.trans h'.seen, h.record.trans h'.record⟩

variable {room : Nat} {member first second : Quoted × Node} {members arranged : List (Quoted × Node)}
  {seen : List String} {record : α} {state other middle result : List String × α}

section Order

/-- A member is taken in alike whatever the order in which the fields have been met. -/
theorem Absorbs.of_alike (h : r.Absorbs room member state middle) (halike : Alike state other) :
    ∃ middle', r.Absorbs room member other middle' ∧ Alike middle middle' := by
  obtain ⟨seen', record'⟩ := other
  cases h with
  | ignored _ hkey unknown skipped => exact ⟨_, .ignored _ hkey unknown skipped, halike⟩
  | @stored _ name _ _ seen record next hkey known fresh read =>
    obtain rfl : record = record' := halike.record
    exact ⟨_, .stored hkey known (fun hmem => fresh (halike.seen.mem_iff.2 hmem)) read, halike.seen.cons name, rfl⟩

/-- It does not matter which of two members comes first. -/
theorem Absorbs.swap (hind : r.fields.Pairwise RecordField.Independent) (h : r.Absorbs room first state middle)
    (h' : r.Absorbs room second middle result) :
    ∃ middle' result', r.Absorbs room second state middle' ∧ r.Absorbs room first middle' result' ∧
      Alike result result' := by
  cases h with
  | ignored _ hkey unknown skipped => exact ⟨_, _, h', .ignored _ hkey unknown skipped, .refl _⟩
  | @stored _ name value field seen record next hkey known fresh read =>
    cases h' with
    | ignored _ hkey' unknown skipped =>
      exact ⟨_, _, .ignored _ hkey' unknown skipped, .stored hkey known fresh read, .refl _⟩
    | @stored _ name' value' field' _ _ last hkey' known' fresh' read' =>
      obtain ⟨hne, hfresh'⟩ := not_or.1 (mt List.mem_cons.2 fresh')
      -- different names are names of different fields
      have hfields : field ≠ field' := by
        rintro rfl
        have hfield : field.key = name := by simpa using List.find?_some known
        have hfield' : field.key = name' := by simpa using List.find?_some known'
        exact hne (hfield'.symm.trans hfield)
      have hindependent := hind.forall (List.mem_of_find?_eq_some known) (List.mem_of_find?_eq_some known') hfields
      obtain ⟨between, hbetween, hlast⟩ := bind_eq_ok.1
        ((hindependent room value value' record last).1 (bind_eq_ok.2 ⟨next, read, read'⟩))
      have hfresh : name ∉ name' :: seen := mt List.mem_cons.1 (not_or.2 ⟨Ne.symm hne, fresh⟩)
      exact ⟨_, _, .stored hkey' known' hfresh' hbetween, .stored hkey known hfresh hlast, .swap .., rfl⟩

/-- Members are taken in alike whatever the order in which the fields before them have been met. -/
theorem readMembers_of_alike {before : List String × α} (halike : Alike state before)
    (h : r.readMembers room state.1 state.2 members = .ok result) :
    ∃ result', r.readMembers room before.1 before.2 members = .ok result' ∧ Alike result result' := by
  induction members generalizing state before with
  | nil =>
    cases h
    exact ⟨_, rfl, halike⟩
  | cons member members ih =>
    obtain ⟨middle, habsorbs, h⟩ := readMembers_cons.1 h
    obtain ⟨middle', habsorbs', hmiddle⟩ := habsorbs.of_alike halike
    obtain ⟨result', hread, hresult⟩ := ih hmiddle h
    exact ⟨result', readMembers_cons.2 ⟨middle', habsorbs', hread⟩, hresult⟩

/-- A record takes in its members alike in whatever order they come. -/
theorem readMembers_perm (hind : r.fields.Pairwise RecordField.Independent) (hperm : members.Perm arranged)
    (h : r.readMembers room seen record members = .ok result) :
    ∃ result', r.readMembers room seen record arranged = .ok result' ∧ Alike result result' := by
  induction hperm generalizing seen record result with
  | nil => exact ⟨result, h, .refl result⟩
  | cons member _ ih =>
    obtain ⟨middle, habsorbs, h⟩ := readMembers_cons.1 h
    obtain ⟨result', hread, hresult⟩ := ih h
    exact ⟨result', readMembers_cons.2 ⟨middle, habsorbs, hread⟩, hresult⟩
  | swap first second members =>
    obtain ⟨middle, hsecond, h⟩ := readMembers_cons.1 h
    obtain ⟨last, hfirst, h⟩ := readMembers_cons.1 h
    obtain ⟨middle', last', hfirst', hsecond', halike⟩ := hsecond.swap hind hfirst
    obtain ⟨result', hread, hresult⟩ := readMembers_of_alike halike h
    exact ⟨result', readMembers_cons.2 ⟨middle', hfirst', readMembers_cons.2 ⟨last', hsecond', hread⟩⟩, hresult⟩
  | trans _ _ ih ih' =>
    obtain ⟨between, hbetween, halike⟩ := ih h
    obtain ⟨result', hread, hresult⟩ := ih' hbetween
    exact ⟨result', hread, halike.trans hresult⟩

end Order

section Values

variable {inner : Inner} {others extra : List (Quoted × Node)}

/-- A record does not notice how a member varies that stands for one of its components. -/
theorem Absorbs.of_varies (hadmits : ∀ component ∈ inner, r.Admits component) {varied : Quoted × Node}
    (hvaries : inner.Varies member varied) (h : r.Absorbs room member state result) :
    r.Absorbs room varied state result := by
  obtain ⟨key, value⟩ := varied
  obtain ⟨rfl, rfl | ⟨component, hmem, hkey, hvary⟩⟩ := hvaries
  · exact h
  · obtain ⟨⟨field, hfield, hread⟩, -⟩ := hadmits component hmem
    cases h with
    | ignored _ hname unknown skipped =>
      obtain rfl := Except.ok.inj (hname.symm.trans hkey)
      rw [hfield] at unknown
      cases unknown
    | stored hname known fresh read =>
      obtain rfl := Except.ok.inj (hname.symm.trans hkey)
      obtain rfl := Option.some.inj (hfield.symm.trans known)
      exact .stored hname known fresh (hread hvary read)

theorem readMembers_of_varies (hadmits : ∀ component ∈ inner, r.Admits component)
    (hvaries : List.Forall₂ inner.Varies members others)
    (h : r.readMembers room seen record members = .ok result) :
    r.readMembers room seen record others = .ok result := by
  induction hvaries generalizing seen record with
  | nil => exact h
  | cons hmember _ ih =>
    obtain ⟨middle, habsorbs, h⟩ := readMembers_cons.1 h
    exact readMembers_cons.2 ⟨middle, habsorbs.of_varies hadmits hmember, ih h⟩

/-- Members that a record does not know leave it as it is. -/
theorem readMembers_of_ignored (hignored : ∀ member ∈ extra, r.Ignores member) :
    r.readMembers room seen record extra = .ok (seen, record) := by
  induction extra with
  | nil => rfl
  | cons member extra ih =>
    obtain ⟨⟨⟨name, hkey, unknown⟩, hwhole⟩, hextra⟩ := List.forall_mem_cons.1 hignored
    exact readMembers_cons.2 ⟨_, .ignored _ hkey unknown hwhole.skip_eq, ih hextra⟩

theorem readMembers_append (h : r.readMembers room seen record members = .ok middle)
    (hmore : r.readMembers room middle.1 middle.2 extra = .ok result) :
    r.readMembers room seen record (members ++ extra) = .ok result := by
  induction members generalizing seen record with
  | nil =>
    cases h
    exact hmore
  | cons member members ih =>
    obtain ⟨next, habsorbs, h⟩ := readMembers_cons.1 h
    exact readMembers_cons.2 ⟨next, habsorbs, ih h⟩

end Values

/-- What is missing does not depend on the order in which the fields have been met. -/
theorem missing?_of_perm {seen met : List String} (h : seen.Perm met) : r.missing? seen = r.missing? met := by
  simp only [missing?, h.contains_eq]

end Record

/-- A string that can be read has come to its end. -/
theorem Quoted.tear_of_readPieces {tear : Option Tear} {pieces : List Piece} {chars : List Char}
    (h : readPieces tear pieces = .ok chars) : tear = none := by
  fun_induction readPieces tear pieces generalizing chars with
  | case1 => assumption
  | case2 | case5 | case6 | case8 | case9 | case10 => cases h
  | case3 _ _ ih | case4 _ _ _ _ _ ih | case7 _ _ _ _ _ ih | case11 _ _ _ _ _ ih =>
    obtain ⟨rest, hrest, -⟩ := bind_eq_ok.1 h
    exact ih hrest

theorem Quoted.tear_of_read {q : Quoted} {text : String} (h : q.read = .ok text) : q.tear = none := by
  obtain ⟨chars, hchars, -⟩ := bind_eq_ok.1 h
  exact tear_of_readPieces hchars

namespace Node

variable {α : Type} {read : Node → Read α}

theorem readItems_of_forall₂ {items others : List Node} {values : List α}
    (each : List.Forall₂ (fun item other => ∀ value, read item = .ok value → read other = .ok value) items others)
    (h : readItems read items = .ok values) : readItems read others = .ok values := by
  induction each generalizing values with
  | nil => exact h
  | cons hitem _ ih =>
    obtain ⟨first, hfirst, h⟩ := bind_eq_ok.1 h
    obtain ⟨rest, hrest, h⟩ := bind_eq_ok.1 h
    exact bind_eq_ok.2 ⟨first, hitem first hfirst, bind_eq_ok.2 ⟨rest, ih hrest, h⟩⟩

theorem readMembers_of_forall₂ {members others : List (Quoted × Node)} {pairs : List (String × α)}
    (each : List.Forall₂ (fun member other => other.1 = member.1 ∧
      ∀ value, read member.2 = .ok value → read other.2 = .ok value) members others)
    (h : readMembers read members = .ok pairs) : readMembers read others = .ok pairs := by
  induction each generalizing pairs with
  | nil => exact h
  | @cons member other _ _ hmember _ ih =>
    obtain ⟨key, value⟩ := member
    obtain ⟨key', value'⟩ := other
    obtain ⟨rfl, hvalue⟩ := hmember
    obtain ⟨name, hname, h⟩ := bind_eq_ok.1 h
    obtain ⟨first, hfirst, h⟩ := bind_eq_ok.1 h
    obtain ⟨rest, hrest, h⟩ := bind_eq_ok.1 h
    exact bind_eq_ok.2 ⟨name, hname, bind_eq_ok.2 ⟨first, hvalue first hfirst, bind_eq_ok.2 ⟨rest, ih hrest, h⟩⟩⟩

theorem readOptional_of_ne {node : Node} (h : node ≠ .word .null) :
    readOptional read node = (do return some (← read node)) := by
  unfold readOptional
  split
  · exact absurd rfl h
  · rfl

end Node

namespace Varied

variable {α : Type} {vary : Node → Node → Prop} {read : Nat → Node → Read α}

/-- A list is read from its items in their order, so each of them may vary. -/
theorem list (h : Varied vary read) : Varied (Itemwise vary) (Node.readList read) where
  whole hvary hwhole := by
    cases hvary with
    | same node => exact hwhole
    | items each =>
      cases hwhole with
      | array whole =>
        refine .array fun other hother => ?_
        obtain ⟨item, hitem, hvary⟩ := exists_of_forall₂_right each hother
        exact h.whole hvary (whole item hitem)
  read_eq {room node other value} hvary hread := by
    cases hvary with
    | same node => exact hread
    | items each =>
      cases room with
      | zero => cases hread
      | succ inner =>
        obtain ⟨values, hvalues, hread⟩ := bind_eq_ok.1 hread
        have hothers := Node.readItems_of_forall₂ (each.imp fun _ _ hvary _ => h.read_eq hvary) hvalues
        exact bind_eq_ok.2 ⟨values, hothers, hread⟩

/-- A map is read from its members in their order, so each of their values may vary. -/
theorem map (h : Varied vary read) : Varied (Memberwise vary) (Node.readEntries read) where
  whole hvary hwhole := by
    cases hvary with
    | same node => exact hwhole
    | members each =>
      cases hwhole with
      | object untorn whole =>
        refine .object (fun other hother => ?_) fun other hother => ?_ <;>
          obtain ⟨member, hmember, hkey, hvary⟩ := exists_of_forall₂_right each hother
        · exact hkey ▸ untorn member hmember
        · exact h.whole hvary (whole member hmember)
  read_eq {room node other value} hvary hread := by
    cases hvary with
    | same node => exact hread
    | members each =>
      cases room with
      | zero => cases hread
      | succ inner =>
        obtain ⟨pairs, hpairs, hread⟩ := bind_eq_ok.1 hread
        have hothers := Node.readMembers_of_forall₂
          (each.imp fun _ _ hvary => ⟨hvary.1, fun _ => h.read_eq hvary.2⟩) hpairs
        exact bind_eq_ok.2 ⟨pairs, hothers, hread⟩

end Varied

theorem Memberwise.null_iff {vary : Node → Node → Prop} {node other : Node} (h : Memberwise vary node other) :
    node = .word .null ↔ other = .word .null := by
  cases h with
  | same => exact .rfl
  | members each => exact iff_of_false nofun nofun

theorem Rearranged.null_iff {α : Type} {r : Record α} {inner : Inner} {node other : Node}
    (h : Rearranged r inner node other) : node = .word .null ↔ other = .word .null := by
  cases h with
  | same => exact .rfl
  | members each ignored order => exact iff_of_false nofun nofun

namespace Varied

variable {α : Type} {vary : Node → Node → Prop} {read : Nat → Node → Read α}

/-- What may be missing varies as it does where it is there. -/
theorem optional (h : Varied vary read)
    (hnull : ∀ {node other : Node}, vary node other → (node = .word .null ↔ other = .word .null)) :
    Varied vary fun room => Node.readOptional (read room) where
  whole := h.whole
  read_eq {room node other result} hvary hread := by
    by_cases hnode : node = .word .null
    · rwa [(hnull hvary).1 hnode, ← hnode]
    · rw [Node.readOptional_of_ne hnode] at hread
      rw [Node.readOptional_of_ne (mt (hnull hvary).2 hnode)]
      obtain ⟨value, hvalue, hread⟩ := bind_eq_ok.1 hread
      exact bind_eq_ok.2 ⟨value, h.read_eq hvary hvalue, hread⟩

/-- A record is read from its members in whatever order, and they may vary as its components admit it. -/
theorem record {r : Record α} {inner : Inner} (hind : r.fields.Pairwise RecordField.Independent)
    (hinner : ∀ component ∈ inner, r.Admits component) : Varied (Rearranged r inner) r.read where
  whole hvary hwhole := by
    cases hvary with
    | same node => exact hwhole
    | members each ignored order =>
      cases hwhole with
      | object untorn whole =>
        refine .object (fun other hother => ?_) fun other hother => ?_ <;>
          rcases List.mem_append.1 (order.subset hother) with hother | hother
        · obtain ⟨member, hmember, hkey, -⟩ := exists_of_forall₂_right each hother
          exact hkey ▸ untorn member hmember
        · obtain ⟨name, hname, -⟩ := (ignored other hother).key
          exact Quoted.tear_of_read hname
        · obtain ⟨member, hmember, -, hvalue | ⟨component, hcomponent, -, hvary⟩⟩ :=
            exists_of_forall₂_right each hother
          · exact hvalue ▸ whole member hmember
          · exact (hinner component hcomponent).whole hvary (whole member hmember)
        · exact (ignored other hother).value
  read_eq {room node other value} hvary hread := by
    cases hvary with
    | same node => exact hread
    | members each ignored order =>
      cases room with
      | zero => cases hread
      | succ inner =>
        obtain ⟨⟨seen, record⟩, hstate, hread⟩ := bind_eq_ok.1 hread
        have hothers := Record.readMembers_of_varies hinner each hstate
        have hextra := Record.readMembers_append hothers (Record.readMembers_of_ignored ignored)
        obtain ⟨⟨met, last⟩, hmet, hseen, hrecord⟩ := Record.readMembers_perm hind order.symm hextra
        obtain rfl : record = last := hrecord
        refine bind_eq_ok.2 ⟨_, hmet, ?_⟩
        simpa only [Record.missing?_of_perm hseen] using hread

end Varied

end EntityForge.Json
