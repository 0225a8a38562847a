import EntityForge.Proofs.Mirror
import EntityForge.Proofs.Runs
import EntityForge.Proofs.SearchKeys

/-!
What the surfaces of an entity say about whether a field may be null.

Eight surfaces say so of every field, each by a mark of its own, and each of them decides from the declaration of
the field alone. All but one go by whether the field is required. A Drizzle table looks first for a primary key:
the column of one is never null, whatever else the field says. Main statements: `Surface.states_iff` and
`nullability_agrees_iff`.
-/

namespace EntityForge

namespace Surface

/-- The surfaces that say of every field whether it may be null. -/
def typed : List Surface :=
  [.contract, .sequelizeModel, .drizzleTable, .graphqlSdl, .graphql, .openApi, .createDto, .updateDto]

/-- What a surface writes for a field, where it has a text for each one. -/
def fieldText? (field : Field) : Surface → Option String
  | .contract => some (ContractMember.text ⟨field.name, false, field.contractType⟩)
  | .sequelizeModel => some (Sequelize.Column.of field).text
  | .drizzleTable => some (Drizzle.Column.of field).text
  | .graphqlSdl => some (Graphql.FieldDefinition.ofField field).text
  | .graphql => some (Graphql.ScalarField.of field).text
  | .createDto | .updateDto => some (DtoProperty.ofBody field).text
  | _ => none

/-- The text of a field has the mark that a surface gives a field which may be null, or which may not. Where the
mark settles it, whatever comes after is left open. -/
inductive Marks (field : Field) : Surface → Bool → String → Prop
  | contract (nullable : Bool) : Marks field .contract nullable
      ("  " ++ field.name ++ ": " ++ field.surface.name ++ (if nullable then " | null" else "") ++ ";\n")
  | sequelize (nullable : Bool) (rest : String) : Marks field .sequelizeModel nullable
      ("  " ++ field.name ++ ": \x7b type: DataTypes." ++ field.dataType.sequelize
        ++ (if nullable then ", allowNull: true" else ", allowNull: false") ++ rest)
  /-- Neither mark stands in the whole text. -/
  | drizzlePlain : Marks field .drizzleTable true
      ("  " ++ field.name ++ ": " ++ (Drizzle.Builder.of field).text field.name
        ++ ((if field.unique then ".unique()" else "") ++ Drizzle.defaultText field.default? ++ ",\n"))
  | drizzleNotNull (rest : String) : Marks field .drizzleTable false
      ("  " ++ field.name ++ ": " ++ (Drizzle.Builder.of field).text field.name ++ (".notNull()" ++ rest))
  | drizzleKey (rest : String) : Marks field .drizzleTable false
      ("  " ++ field.name ++ ": " ++ (Drizzle.Builder.of field).text field.name ++ (".primaryKey()" ++ rest))
  | sdl (nullable : Bool) : Marks field .graphqlSdl nullable
      ("  " ++ field.name ++ ": " ++ field.dataType.graphql.name ++ (if nullable then "" else "!") ++ "\n")
  | object (nullable : Bool) : Marks field .graphql nullable
      ("    " ++ field.name ++ ": \x7b type: "
        ++ (if nullable then field.dataType.graphql.runtime
            else "new GraphQLNonNull(" ++ field.dataType.graphql.runtime ++ ")") ++ " \x7d,\n")
  | create (nullable : Bool) (rest : String) : Marks field .createDto nullable
      ((if nullable then "\n  @IsOptional()\n" else "\n  @IsDefined()\n") ++ rest)
  | update (nullable : Bool) (rest : String) : Marks field .updateDto nullable
      ((if nullable then "\n  @IsOptional()\n" else "\n  @IsDefined()\n") ++ rest)

/-- What a surface of an entity says of a field: by the mark of a text that it has for it, or by a list of names
that the field is in or not. -/
inductive States (subject : Subject) (field : Field) : Surface → Bool → Prop
  | text {surface : Surface} {text : String} {nullable : Bool} (htext : surface.fieldText? field = some text)
      (hwrites : surface.Writes subject text) (hmark : Marks field surface nullable text) :
      States subject field surface nullable
  | required {document : Json} {names : List Json} {nullable : Bool}
      (hparse : Json.parse (Surface.openApi.text subject) = .ok document)
      (hnames : document.member? ["components", "schemas", OpenApi.entitySchema subject.entity.name, "required"] =
        some (.array names))
      (habsent : nullable = true ↔ .string field.name ∉ names) : States subject field .openApi nullable

/-- Whether a field may be null as far as a surface goes. -/
def nullable (field : Field) : Surface → Bool
  | .drizzleTable => !field.required && !field.primaryKey
  | _ => !field.required

theorem nullable_of_ne {surface : Surface} (h : surface ≠ .drizzleTable) (field : Field) :
    surface.nullable field = !field.required := by
  cases surface
  case drizzleTable => exact absurd rfl h
  all_goals rfl

theorem nullable_drizzleTable_iff (field : Field) :
    drizzleTable.nullable field = (!field.required) ↔ (field.primaryKey = true → field.required = true) := by
  unfold nullable
  cases field.required <;> cases field.primaryKey <;> decide

variable {subject : Subject} {field : Field} {surface : Surface} {text : String} {a b : Bool}

theorem marks_contract (field : Field) : Marks field .contract (!field.required)
    (ContractMember.text ⟨field.name, false, field.contractType⟩) := by
  have htext : ContractMember.text ⟨field.name, false, field.contractType⟩ =
      "  " ++ field.name ++ ": " ++ field.surface.name ++ (if !field.required then " | null" else "") ++ ";\n" := by
    simp [ContractMember.text, Field.contractType, ContractType.text, String.append_assoc]
  exact htext ▸ .contract _

theorem marks_sequelize (field : Field) :
    Marks field .sequelizeModel (!field.required) (Sequelize.Column.of field).text := by
  have hmark : ", allowNull: " ++ toString (!field.required) =
      if !field.required then ", allowNull: true" else ", allowNull: false" := by
    cases field.required <;> rfl
  have htext : (Sequelize.Column.of field).text = "  " ++ field.name ++ ": \x7b type: DataTypes."
      ++ field.dataType.sequelize ++ (", allowNull: " ++ toString (!field.required))
      ++ ((if field.primaryKey then ", primaryKey: true" else "")
        ++ (if field.isSerial then ", autoIncrement: true" else "")
        ++ (if field.unique then ", unique: true" else "") ++ " \x7d,\n") := by
    simp only [Sequelize.Column.text, Sequelize.Column.of, String.append_assoc]
    rfl
  rw [htext, hmark]
  exact .sequelize _ _

theorem marks_drizzle (field : Field) :
    Marks field .drizzleTable (!field.required && !field.primaryKey) (Drizzle.Column.of field).text := by
  have htext : (Drizzle.Column.of field).text =
      "  " ++ field.name ++ ": " ++ (Drizzle.Builder.of field).text field.name
        ++ ((if field.primaryKey then ".primaryKey()" else "")
          ++ ((if field.required && !field.primaryKey then ".notNull()" else "")
          ++ ((if field.unique then ".unique()" else "") ++ Drizzle.defaultText field.default? ++ ",\n"))) := by
    simp only [Drizzle.Column.text, Drizzle.Column.of, String.append_assoc]
    rfl
  rw [htext]
  cases field.primaryKey with
  | true =>
    rw [Bool.not_true, Bool.and_false]
    exact .drizzleKey _
  | false =>
    rw [if_neg Bool.false_ne_true, String.empty_append, Bool.not_false, Bool.and_true, Bool.and_true]
    cases field.required with
    | true => exact .drizzleNotNull _
    | false =>
      rw [if_neg Bool.false_ne_true, String.empty_append]
      exact .drizzlePlain

theorem marks_sdl (field : Field) :
    Marks field .graphqlSdl (!field.required) (Graphql.FieldDefinition.ofField field).text := by
  have htext : (Graphql.FieldDefinition.ofField field).text =
      "  " ++ field.name ++ ": " ++ field.dataType.graphql.name ++ (if !field.required then "" else "!") ++ "\n" := by
    unfold Graphql.FieldDefinition.text Graphql.FieldDefinition.ofField
    cases field.required <;> simp [Graphql.TypeRef.text, String.append_assoc]
  exact htext ▸ .sdl _

theorem marks_object (field : Field) :
    Marks field .graphql (!field.required) (Graphql.ScalarField.of field).text := by
  have htype : (Graphql.ScalarField.of field).type.text =
      if !field.required then field.dataType.graphql.runtime
      else "new GraphQLNonNull(" ++ field.dataType.graphql.runtime ++ ")" := by
    unfold Graphql.ScalarField.of
    cases field.required <;> rfl
  have htext : (Graphql.ScalarField.of field).text =
      "    " ++ field.name ++ ": \x7b type: " ++ (Graphql.ScalarField.of field).type.text ++ " \x7d,\n" := rfl
  rw [htext, htype]
  exact .object _

theorem text_ofBody (field : Field) : ∃ rest, (DtoProperty.ofBody field).text =
    (if !field.required then "\n  @IsOptional()\n" else "\n  @IsDefined()\n") ++ rest := by
  have hmark : "\n" ++ ("  " ++ (if field.required then Decorator.isDefined else .isOptional).text ++ "\n") =
      if !field.required then "\n  @IsOptional()\n" else "\n  @IsDefined()\n" := by
    cases field.required <;> rfl
  refine ⟨"  " ++ field.surface.check.text ++ "\n" ++ "  " ++ field.name
    ++ (if !field.required then "?" else "") ++ ": " ++ field.contractType.text ++ ";\n", ?_⟩
  rw [← hmark]
  simp only [DtoProperty.text, DtoProperty.ofBody, List.map_cons, List.map_nil, String.join_cons, String.join_nil,
    String.append_empty, String.append_assoc]
  rfl

theorem marks_fieldText (h : surface.fieldText? field = some text) :
    surface.Marks field (surface.nullable field) text := by
  obtain ⟨rest, hbody⟩ := text_ofBody field
  cases surface <;> cases h
  case contract => exact marks_contract field
  case sequelizeModel => exact marks_sequelize field
  case drizzleTable => exact marks_drizzle field
  case graphqlSdl => exact marks_sdl field
  case graphql => exact marks_object field
  case createDto => exact hbody ▸ .create _ rest
  case updateDto => exact hbody ▸ .update _ rest

/-- A column of neither mark goes on with other letters than one of them. -/
theorem unmarked_ne (field : Field) {mark : String} (hmark : mark ∈ [".notNull()", ".primaryKey()"]) (rest : String) :
    (if field.unique then ".unique()" else "") ++ Drizzle.defaultText field.default? ++ ",\n" ≠ mark ++ rest := by
  have hdefault : Drizzle.defaultText field.default? = "" ∨
      ∃ value, Drizzle.defaultText field.default? = ".default" ++ value := by
    rcases field.default? with _ | value
    · exact Or.inl rfl
    · exact Or.inr (Drizzle.defaultText_some value)
  simp only [List.mem_cons, List.not_mem_nil, or_false] at hmark
  rcases hdefault with hdefault | ⟨value, hdefault⟩ <;> rcases hmark with rfl | rfl <;>
    cases field.unique <;> simp [hdefault, ← String.toList_inj]

/-- The two marks of a surface are told apart, whatever comes after them. -/
theorem Marks.ne {other : String} (h : surface.Marks field true text) (h' : surface.Marks field false other) :
    text ≠ other := by
  cases h with
  | contract => cases h'; simp [← String.toList_inj]
  | sequelize => cases h'; simp [← String.toList_inj]
  | drizzlePlain =>
    cases h' <;> rw [ne_eq, String.append_right_inj]
    case drizzleNotNull => exact unmarked_ne field List.mem_cons_self _
    case drizzleKey => exact unmarked_ne field (List.mem_cons_of_mem _ List.mem_cons_self) _
  | sdl => cases h'; simp [← String.toList_inj]
  | object =>
    cases h'
    simp [GraphqlScalar.runtime, ← String.toList_inj]
  | create => cases h'; simp [← String.toList_inj]
  | update => cases h'; simp [← String.toList_inj]

theorem Marks.unique (h : surface.Marks field a text) (h' : surface.Marks field b text) : a = b := by
  cases a <;> cases b
  case false.true => exact absurd rfl (h'.ne h)
  case true.false => exact absurd rfl (h.ne h')
  all_goals rfl

end Surface

/-- What a surface has for a field is among what it writes of the fields. -/
theorem Subject.writes_fieldText {subject : Subject} {field : Field} (h : field ∈ subject.entity.fields)
    {surface : Surface} {text : String} (htext : surface.fieldText? field = some text) :
    surface.Writes subject text := by
  have hrun : ∃ write ∈ surface.fieldTexts subject, write field = some text := by
    cases surface <;> cases htext <;> exact ⟨_, List.mem_cons_self, rfl⟩
  obtain ⟨write, hwrite, hfield⟩ := hrun
  exact (Surface.hasRuns_text subject surface).isPiece (List.mem_append_left _ (List.mem_map_of_mem hwrite))
    (List.mem_filterMap.2 ⟨field, h, hfield⟩)

namespace OpenApi

/-- A field that is required is in the list of its schema, and no other field of the entity is. -/
theorem mem_required_iff {entity : Entity} (hnames : (entity.fields.map Field.name).Nodup) {field : Field}
    (hfield : field ∈ entity.fields) : field.name ∈ required entity ↔ field.required = true := by
  rw [required, List.mem_map]
  constructor
  · rintro ⟨other, hother, hname⟩
    obtain ⟨hmem, hrequired⟩ := List.mem_filter.1 hother
    obtain rfl := List.inj_on_of_nodup_map hnames hmem hfield hname
    exact hrequired
  · intro hrequired
    exact ⟨field, List.mem_filter.2 ⟨hfield, hrequired⟩, rfl⟩

theorem member?_required (entity : Entity) :
    (fragment entity).member? ["components", "schemas", entitySchema entity.name, "required"] =
      some (.array ((required entity).map .string)) :=
  member?_schema List.mem_cons_self ["required"]

end OpenApi

namespace Surface

variable {subject : Subject} {field : Field} {surface : Surface} {stated : Bool}

theorem states_openApi_iff (hnames : (subject.entity.fields.map Field.name).Nodup)
    (hfield : field ∈ subject.entity.fields) :
    States subject field .openApi stated ↔ stated = !field.required := by
  have hrequired : Json.string field.name ∉ (OpenApi.required subject.entity).map Json.string ↔
      (!field.required) = true := by
    rw [List.mem_map_of_injective (fun _ _ => Json.string.inj), OpenApi.mem_required_iff hnames hfield, Bool.not_eq_true,
      Bool.not_eq_true']
  have hparse := PublishedApi.parse_openApi subject
  have hlist := OpenApi.member?_required subject.entity
  constructor
  · rintro (⟨htext, -, -⟩ | ⟨hparse', hlist', habsent⟩)
    · cases htext
    · obtain rfl := Except.ok.inj (hparse.symm.trans hparse')
      obtain rfl := Json.array.inj (Option.some.inj (hlist.symm.trans hlist'))
      exact Bool.eq_iff_iff.2 (habsent.trans hrequired)
  · rintro rfl
    exact .required hparse hlist hrequired.symm

/-- Every surface says one thing of a field, and this follows from the field alone. -/
theorem states_iff (hnames : (subject.entity.fields.map Field.name).Nodup) (hfield : field ∈ subject.entity.fields)
    (hsurface : surface ∈ typed) : surface.States subject field stated ↔ stated = surface.nullable field := by
  by_cases hopenApi : surface = .openApi
  · subst hopenApi
    exact states_openApi_iff hnames hfield
  · have htext : ∃ text, surface.fieldText? field = some text := by
      cases surface
      case openApi => exact absurd rfl hopenApi
      all_goals first
        | exact ⟨_, rfl⟩
        | exact absurd hsurface (by decide)
    obtain ⟨text, htext⟩ := htext
    constructor
    · rintro (⟨htext', -, hmark⟩ | -)
      · obtain rfl := Option.some.inj (htext.symm.trans htext')
        exact hmark.unique (marks_fieldText htext)
      · exact absurd rfl hopenApi
    · rintro rfl
      exact .text htext (Subject.writes_fieldText hfield htext) (marks_fieldText htext)

end Surface

section Loaded

variable {doc : Document} {schema : Schema} {subject : Subject} {field : Field}

/-- All surfaces say of a field that it may be null, or all say that it may not, unless the field is a primary key
that is not required. A Drizzle table says of such a field that it may not be null, and all others that it may. -/
theorem nullability_agrees_iff (hkeyed : doc.Keyed) (hload : Schema.load doc = .ok schema)
    (hentity : subject.entity ∈ schema.entities) (hfield : field ∈ subject.entity.fields) :
    (∀ surface ∈ Surface.typed, surface ≠ .drizzleTable → ∀ stated,
        surface.States subject field stated ↔ stated = !field.required) ∧
      (∀ stated, Surface.drizzleTable.States subject field stated ↔
        stated = (!field.required && !field.primaryKey)) ∧
      ((∃ stated, ∀ surface ∈ Surface.typed, surface.States subject field stated) ↔
        (field.primaryKey = true → field.required = true)) := by
  have hnames := (Schema.keyed_of_load hkeyed hload).fields _ hentity
  have hstates {surface : Surface} (hsurface : surface ∈ Surface.typed) (stated : Bool) :
      surface.States subject field stated ↔ stated = surface.nullable field :=
    Surface.states_iff hnames hfield hsurface
  have hcontract : Surface.contract ∈ Surface.typed := by decide
  have htable : Surface.drizzleTable ∈ Surface.typed := by decide
  refine ⟨fun surface hsurface hdrizzle stated => ?_, hstates htable, ?_, ?_⟩
  · rw [hstates hsurface, Surface.nullable_of_ne hdrizzle]
  · rintro ⟨stated, hall⟩
    have hrequired : stated = !field.required := (hstates hcontract stated).1 (hall _ hcontract)
    have hcolumn := (hstates htable stated).1 (hall _ htable)
    exact (Surface.nullable_drizzleTable_iff field).1 (hcolumn.symm.trans hrequired)
  · intro hkey
    refine ⟨!field.required, fun surface hsurface => (hstates hsurface _).2 ?_⟩
    by_cases hdrizzle : surface = .drizzleTable
    · rw [hdrizzle, (Surface.nullable_drizzleTable_iff field).2 hkey]
    · rw [Surface.nullable_of_ne hdrizzle]

/-- The key of a person is required, so that no surface lets it be null. -/
theorem nullability_agrees_for_people :
    people.document.Keyed ∧ Schema.load people.document = .ok people ∧
      ∃ subject field, subject.entity ∈ people.entities ∧ field ∈ subject.entity.fields ∧
        field.primaryKey = true ∧ ∀ surface ∈ Surface.typed, surface.States subject field false := by
  let subject := Subject.of .standard people.resolved[0]
  have hentity : subject.entity ∈ people.entities := by decide
  have hfield : people.entities[0].fields[0] ∈ subject.entity.fields := by decide
  obtain ⟨hothers, hdrizzle, -⟩ := nullability_agrees_iff people_keyed people_load hentity hfield
  refine ⟨people_keyed, people_load, subject, _, hentity, hfield, rfl, fun surface hsurface => ?_⟩
  by_cases htable : surface = .drizzleTable
  · rw [htable]
    exact (hdrizzle false).2 rfl
  · exact (hothers surface hsurface htable false).2 rfl

/-- The key of a tag is not required, and the contract lets it be null where the table does not. -/
theorem nullability_differs_for_tags :
    Schema.ofText tags.text = .ok tags ∧ tags.generate .standard .standard = .ok tags.artifacts ∧
      ∃ subject ∈ tags.subjects, ∃ field ∈ subject.entity.fields,
        Surface.contract.States subject field true ∧ Surface.drizzleTable.States subject field false ∧
          ¬∃ stated, ∀ surface ∈ Surface.typed, surface.States subject field stated := by
  let subject := Subject.of .standard ⟨tags.entities[0], []⟩
  have hnames : (subject.entity.fields.map Field.name).Nodup := by decide
  have hfield : tags.entities[0].fields[0] ∈ subject.entity.fields := by decide
  have hstates {surface : Surface} (hsurface : surface ∈ Surface.typed) (stated : Bool) :
      surface.States subject tags.entities[0].fields[0] stated ↔
        stated = surface.nullable tags.entities[0].fields[0] :=
    Surface.states_iff hnames hfield hsurface
  have hcontract : Surface.contract ∈ Surface.typed := by decide
  have htable : Surface.drizzleTable ∈ Surface.typed := by decide
  refine ⟨tags_ofText, tags_generate, subject, by decide, _, hfield, (hstates hcontract true).2 rfl,
    (hstates htable false).2 rfl, ?_⟩
  rintro ⟨stated, hall⟩
  have htrue : stated = true := (hstates hcontract stated).1 (hall _ hcontract)
  have hfalse : stated = false := (hstates htable stated).1 (hall _ htable)
  exact Bool.noConfusion (htrue.symm.trans hfalse)

end Loaded

end EntityForge
