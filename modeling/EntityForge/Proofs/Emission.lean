import EntityForge.Proofs.Soundness
import EntityForge.Surface.Text

/-!
When a column that an accessor names is written down.

An accessor names columns of up to four entities. Other files refer to such a column as a member of its
entity's contract and as a column of its entity's table, and both have just the declared fields. Resolution
admits one more: the `id` that stands for the key of an entity which declares none. That one is assumed
everywhere and written nowhere. Main statements: `declares_iff_not_assumes`, `emits_iff` and
`columns_emitted_iff`.
-/

namespace EntityForge

/-- A text has this piece in it. -/
def IsPiece (piece text : String) : Prop := ∃ before after, text = before ++ piece ++ after

namespace IsPiece

variable {piece text : String}

theorem refl (piece : String) : IsPiece piece piece :=
  ⟨"", "", by rw [String.empty_append, String.append_empty]⟩

theorem append_left (h : IsPiece piece text) (before : String) : IsPiece piece (before ++ text) := by
  obtain ⟨above, below, rfl⟩ := h
  exact ⟨before ++ above, below, by simp only [String.append_assoc]⟩

theorem append_right (h : IsPiece piece text) (after : String) : IsPiece piece (text ++ after) := by
  obtain ⟨above, below, rfl⟩ := h
  exact ⟨above, below ++ after, by simp only [String.append_assoc]⟩

theorem join {pieces : List String} (h : piece ∈ pieces) : IsPiece piece (String.join pieces) := by
  obtain ⟨before, after, rfl⟩ := List.append_of_mem h
  refine ⟨String.join before, String.join after, ?_⟩
  rw [String.join_append, String.join_cons, String.append_assoc]

end IsPiece

/-- A text ends as its last part does. -/
theorem getLast?_append_text {s ending : String} {c : Char} (h : ending.toList.getLast? = some c) :
    (s ++ ending).toList.getLast? = some c := by
  rw [String.toList_append, List.getLast?_append, h, Option.some_or]

/-- Whatever a default is, it is a call of one of two names that begin alike. -/
theorem Drizzle.defaultText_some (value : DefaultValue) :
    ∃ rest, Drizzle.defaultText (some value) = ".default" ++ rest := by
  cases value with
  | now => exact ⟨"Now()", rfl⟩
  | _ => exact ⟨"(" ++ Drizzle.literal _ ++ ")", by simp only [← String.append_assoc]; rfl⟩

/-- The text of a surface has this piece in it. -/
def Surface.Writes (surface : Surface) (subject : Subject) (piece : String) : Prop :=
  IsPiece piece (surface.text subject)

namespace Entity

variable {entity : Entity} {column : String} {type : DataType}

def Declares (entity : Entity) (column : String) : Prop := ∃ field ∈ entity.fields, field.name = column

/-- What is found is either declared or assumed. -/
theorem declares_iff_not_assumes (h : entity.columnType? column = some type) :
    entity.Declares column ↔ ¬entity.Assumes column := by
  constructor
  · rintro ⟨field, hmem, rfl⟩ ⟨hname, hkeyless⟩
    exact (hkeyless field hmem).2 hname
  · intro hnot
    rcases columnType?_eq_some_iff_field?.1 h with ⟨field, hfield, -⟩ | ⟨hassumed, -⟩
    · exact ⟨field, mem_of_field? hfield⟩
    · exact absurd hassumed hnot

end Entity

namespace Subject

variable {subject : Subject} {column : String}

/-- The contract has a member of that name and the table a column, and both are written out. -/
structure Emits (subject : Subject) (column : String) : Prop where
  member : ∃ member ∈ (Contract.of subject).members, member.name = column ∧
    Surface.contract.Writes subject member.text
  column : ∃ tableColumn ∈ (Drizzle.Table.of subject).columns, tableColumn.name = column ∧
    Surface.drizzleTable.Writes subject tableColumn.text

theorem writes_member {member : ContractMember} (h : member ∈ (Contract.of subject).fields) :
    Surface.contract.Writes subject member.text := by
  have hfields : IsPiece member.text (String.join ((Contract.of subject).fields.map ContractMember.text)) :=
    .join (List.mem_map_of_mem h)
  exact ((((hfields.append_left _).append_right _).append_right _).append_left _)

theorem writes_column {tableColumn : Drizzle.Column}
    (h : tableColumn ∈ (Drizzle.Table.of subject).columns) :
    Surface.drizzleTable.Writes subject tableColumn.text := by
  have hcolumns : IsPiece tableColumn.text
      (String.join ((Drizzle.Table.of subject).columns.map Drizzle.Column.text)) :=
    .join (List.mem_map_of_mem h)
  exact (((hcolumns.append_left _).append_right _).append_left _).append_left _

/-- The declared fields are written, and no other column is. -/
theorem emits_iff : subject.Emits column ↔ subject.entity.Declares column := by
  constructor
  · rintro ⟨-, tableColumn, hcolumn, hname, -⟩
    obtain ⟨field, hfield, rfl⟩ := List.mem_map.1 hcolumn
    exact ⟨field, hfield, hname⟩
  · rintro ⟨field, hfield, hname⟩
    have hmember : (⟨field.name, false, field.contractType⟩ : ContractMember) ∈
        (Contract.of subject).fields := List.mem_map_of_mem hfield
    have hcolumn : Drizzle.Column.of field ∈ (Drizzle.Table.of subject).columns :=
      List.mem_map_of_mem hfield
    exact ⟨⟨_, List.mem_append_left _ hmember, hname, writes_member hmember⟩,
      ⟨_, hcolumn, hname, writes_column hcolumn⟩⟩

end Subject

namespace Accessor

/-- Every column that an accessor of `owner` names has some property, on the entity it is looked up on. -/
structure OnColumns (schema : Schema) (owner : Entity) (accessor : Accessor)
    (P : Entity → String → Prop) : Prop where
  parentKey : P owner accessor.association.firstHop.parentKey
  column : ∃ queried, schema.entity? accessor.association.firstHop.entity = some queried ∧
    P queried accessor.association.firstHop.column
  /-- With a join entity in between there are two columns more. -/
  secondHop : match accessor.association with
    | .direct _ => True
    | .joined through _ joinColumn targetColumn =>
      (∃ join, schema.entity? through = some join ∧ P join joinColumn) ∧
        ∃ target, schema.entity? accessor.target = some target ∧ P target targetColumn

variable {schema : Schema} {owner : Entity} {accessor : Accessor} {P Q : Entity → String → Prop}

theorem OnColumns.imp (h : accessor.OnColumns schema owner P) (howner : owner ∈ schema.entities)
    (himp : ∀ entity ∈ schema.entities, ∀ column, P entity column → Q entity column) :
    accessor.OnColumns schema owner Q := by
  have hfound {name column : String} (hP : ∃ entity, schema.entity? name = some entity ∧ P entity column) :
      ∃ entity, schema.entity? name = some entity ∧ Q entity column := by
    obtain ⟨entity, hentity, hcolumn⟩ := hP
    exact ⟨entity, hentity, himp entity (List.mem_of_find?_eq_some hentity) column hcolumn⟩
  obtain ⟨kind, name, target, association⟩ := accessor
  cases association with
  | direct lookup => exact ⟨himp owner howner _ h.parentKey, hfound h.column, trivial⟩
  | joined through lookup joinColumn targetColumn =>
    exact ⟨himp owner howner _ h.parentKey, hfound h.column, hfound h.secondHop.1,
      hfound h.secondHop.2⟩

/-- A relation that resolves names columns that are found. -/
theorem onColumns_of_resolve {relation : Relation} (h : resolve schema owner relation = .ok accessor) :
    accessor.OnColumns schema owner fun entity column => ∃ type, entity.columnType? column = some type := by
  obtain ⟨target, association, htarget, hassociates, rfl⟩ := resolve_eq_ok.1 h
  rw [← Schema.name_of_entity? htarget] at htarget
  cases association with
  | direct lookup =>
    obtain ⟨-, hlookup⟩ := associates_direct_iff.1 hassociates
    obtain ⟨hparent, type, hcolumn, rfl⟩ := keyLookup_eq_ok.1 hlookup
    exact ⟨hparent, ⟨target, htarget, type, hcolumn⟩, trivial⟩
  | joined through lookup joinColumn targetColumn =>
    obtain ⟨-, join, hjoin, hlookup, hjoinColumn, htargetColumn, -, -⟩ :=
      associates_joined_iff.1 hassociates
    obtain rfl := Schema.name_of_entity? hjoin
    obtain ⟨hparent, type, hcolumn, rfl⟩ := keyLookup_eq_ok.1 hlookup
    exact ⟨hparent, ⟨join, hjoin, type, hcolumn⟩, ⟨join, hjoin, hjoinColumn⟩,
      ⟨target, htarget, htargetColumn⟩⟩

end Accessor

/-- Every column that an accessor names is written in the contract and in the table of the entity it is looked
up on, unless it is the `id` that is assumed to be the key of an entity which declares neither; that one is
not written. -/
theorem columns_emitted_iff {schema : Schema} {resolved : List ResolvedEntity}
    (h : schema.resolve = .ok resolved) (policy : OwnerPolicy) {result : ResolvedEntity}
    (hresult : result ∈ resolved) {accessor : Accessor} (haccessor : accessor ∈ result.accessors) :
    accessor.OnColumns schema result.entity fun entity column =>
      (∃ other ∈ resolved, other.entity = entity) ∧ ∀ other ∈ resolved, other.entity = entity →
        ((Subject.of policy other).Emits column ↔ ¬entity.Assumes column) := by
  obtain ⟨howner, relation, -, hrelation⟩ := Schema.mem_accessors h hresult haccessor
  refine (Accessor.onColumns_of_resolve hrelation).imp howner ?_
  rintro entity hentity column ⟨type, hfound⟩
  constructor
  · rw [← Schema.entities_of_resolve h] at hentity
    exact List.mem_map.1 hentity
  · rintro other - rfl
    rw [Subject.emits_iff]
    exact Entity.declares_iff_not_assumes hfound

/-- A friendship declares no primary key, but that does not matter, as it is not looked up by one. -/
theorem columns_emitted_for_friends :
    people.resolve = .ok people.resolved ∧
      (Subject.of .standard people.resolved[0]).Emits "id" ∧
      (Subject.of .standard people.resolved[1]).Emits "friend_id" ∧
      (Subject.of .standard people.resolved[1]).Emits "maker_id" := by
  have hresult : people.resolved[0] ∈ people.resolved := by decide
  have hother : people.resolved[1] ∈ people.resolved := by decide
  have haccessor : people.resolved[0].accessors[1] ∈ people.resolved[0].accessors := by decide
  obtain ⟨⟨-, hparent⟩, ⟨queried, hqueried, -, hcolumn⟩, ⟨join, hjoin, -, hjoinColumn⟩, -⟩ :=
    columns_emitted_iff people_resolve .standard hresult haccessor
  obtain rfl : people.entities[1] = queried := Option.some.inj hqueried
  obtain rfl : people.entities[1] = join := Option.some.inj hjoin
  refine ⟨people_resolve, (hparent _ hresult rfl).2 ?_, (hcolumn _ hother rfl).2 ?_,
    (hjoinColumn _ hother rfl).2 ?_⟩
  · rintro ⟨-, hkeyless⟩
    exact absurd hkeyless (by decide)
  · rintro ⟨hname, -⟩
    exact absurd hname (by decide)
  · rintro ⟨hname, -⟩
    exact absurd hname (by decide)

/-- Employees, of whom one is the boss of another, without a key of their own. -/
def staff : Schema where
  entities := [
    { name := "Employee"
      tableName := "employees"
      fields := [
        ⟨"name", .string, true, false, false, none, none, none, none⟩,
        ⟨"boss_id", .integer, false, false, false, none, none, none, some "Employee"⟩]
      indexes := []
      relations := [⟨.belongsToOne, "Employee", "boss", "boss_id", none, none, none⟩] }]
  api := .standard

def staff.resolved : List ResolvedEntity := [
  { entity := staff.entities[0]
    accessors := [⟨.belongsToOne, "boss", "Employee", .direct ⟨"Employee", "id", "boss_id", .integer⟩⟩] }]

/-- A boss is looked up by an `id` that neither the contract nor the table of employees has. -/
theorem key_not_emitted_for_staff :
    staff.resolve = .ok staff.resolved ∧ ∃ accessor ∈ staff.resolved[0].accessors,
      ¬accessor.OnColumns staff staff.entities[0] fun entity column =>
        ∃ other ∈ staff.resolved, other.entity = entity ∧ (Subject.of .standard other).Emits column := by
  have hresolve : staff.resolve = .ok staff.resolved := by decide
  refine ⟨hresolve, staff.resolved[0].accessors[0], List.mem_cons_self, ?_⟩
  rintro ⟨-, ⟨queried, hqueried, other, -, rfl, hemits⟩, -⟩
  have hentity : staff.entities[0] = other.entity := Option.some.inj hqueried
  obtain ⟨field, hfield, hname⟩ := Subject.emits_iff.1 hemits
  change field ∈ other.entity.fields at hfield
  rw [← hentity] at hfield
  have hnone : ∀ field ∈ staff.entities[0].fields, field.name ≠ "id" := by decide
  exact hnone field hfield hname

end EntityForge
