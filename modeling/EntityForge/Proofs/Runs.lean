import EntityForge.Proofs.Emission

/-!
What a surface writes of the fields and of the accessors of an entity, one after the other.

It stands in the text of the surface in runs without a gap, those for the fields in the order of the fields, and
after them those for the accessors in the order of these. So each piece of a run is in the text, and it names what
it is for. Main statements: `Surface.hasRuns_text`, `Surface.isPiece_of_fieldTexts` and
`Surface.isPiece_of_accessorTexts`.
-/

namespace EntityForge

/-- Runs stand in a text one after the other, each without a gap. -/
def HasRuns : List (List String) → String → Prop
  | [], _ => True
  | run :: runs, text => ∃ before after, text = before ++ String.join run ++ after ∧ HasRuns runs after

namespace HasRuns

variable {run : List String} {runs : List (List String)} {text : String}

theorem append_left (h : HasRuns runs text) (before : String) : HasRuns runs (before ++ text) := by
  cases runs with
  | nil => trivial
  | cons run runs =>
    obtain ⟨above, below, rfl, hrest⟩ := h
    exact ⟨before ++ above, below, by simp only [String.append_assoc], hrest⟩

theorem append (h : HasRuns runs text) {more : List (List String)} {after : String}
    (hmore : HasRuns more after) : HasRuns (runs ++ more) (text ++ after) := by
  induction runs generalizing text with
  | nil => exact append_left hmore text
  | cons run runs ih =>
    obtain ⟨above, below, rfl, hrest⟩ := h
    exact ⟨above, below ++ after, by simp only [String.append_assoc], ih hrest⟩

theorem append_right (h : HasRuns runs text) (after : String) : HasRuns runs (text ++ after) := by
  have hnothing : HasRuns [] after := trivial
  have hlast := append h hnothing
  rwa [List.append_nil] at hlast

/-- A run and what comes after it. -/
theorem join_append (h : HasRuns runs text) (run : List String) :
    HasRuns (run :: runs) (String.join run ++ text) :=
  ⟨"", text, by rw [String.empty_append], h⟩

theorem join (run : List String) : HasRuns [run] (String.join run) :=
  ⟨"", "", by rw [String.empty_append, String.append_empty], trivial⟩

/-- A list may be left out where it is empty. -/
theorem ite {run : List String} {isEmpty : Bool} (hempty : isEmpty = true → run = []) {full : String}
    (hfull : HasRuns [run] full) (empty : String) : HasRuns [run] (if isEmpty then empty else full) := by
  cases isEmpty with
  | true =>
    rw [hempty rfl]
    exact (join []).append_right empty
  | false => exact hfull

/-- Every piece of a run is in the text. -/
theorem isPiece (h : HasRuns runs text) (hrun : run ∈ runs) {piece : String} (hpiece : piece ∈ run) :
    IsPiece piece text := by
  induction runs generalizing text with
  | nil => cases hrun
  | cons first runs ih =>
    obtain ⟨before, after, rfl, hrest⟩ := h
    rcases List.mem_cons.1 hrun with rfl | hrun
    · exact ((IsPiece.join hpiece).append_left _).append_right _
    · exact (ih hrest hrun).append_left _

theorem declaration {d : TypeScript.Declaration} (h : HasRuns runs d.body) : HasRuns runs d.text :=
  append_left h _

end HasRuns

namespace IsPiece

variable {piece : String}

theorem intercalate {first : String} (h : IsPiece piece first) (separator : String) (rest : List String) :
    IsPiece piece (separator.intercalate (first :: rest)) := by
  cases rest with
  | nil => rwa [String.intercalate_singleton]
  | cons next rest =>
    rw [String.intercalate_cons_cons, String.append_assoc]
    exact h.append_right _

theorem lines {line : String} (h : IsPiece piece line) (rest : List String) :
    IsPiece piece (TypeScript.lines (line :: rest)) := by
  rw [TypeScript.lines, List.map_cons, String.join_cons]
  exact (h.append_right _).append_right _

end IsPiece

namespace Surface

/-- What a surface writes of each field, run by run. A check of the length is written only of some. -/
def fieldTexts (subject : Subject) : Surface → List (Field → Option String)
  | .contract => [fun field => some (ContractMember.text ⟨field.name, false, field.contractType⟩)]
  | .sequelizeModel => [fun field => some (Sequelize.Column.of field).text]
  | .drizzleTable => [
    fun field => some (Drizzle.Column.of field).text,
    fun field => field.minLength.map fun least =>
      (Drizzle.Extra.minLength field.name least).text subject.entity.tableName]
  | .graphqlSdl => [fun field => some (Graphql.FieldDefinition.ofField field).text]
  | .graphql => [fun field => some (Graphql.ScalarField.of field).text]
  | .createDto | .updateDto => [fun field => some (DtoProperty.ofBody field).text]
  | .searchDto => [fun field => some (DtoProperty.ofSearch field).text]
  | .sequelizeAssociations | .drizzleRelations | .openApi | .controller | .service | .guard | .repository => []

/-- What a surface writes of each accessor, run by run. -/
def accessorTexts (subject : Subject) : Surface → List (Accessor → String)
  | .contract => [fun accessor => ContractMember.text ⟨accessor.name, true, accessor.contractType⟩]
  | .sequelizeAssociations => [fun accessor => (Sequelize.Association.of subject.entity accessor).text]
  | .drizzleRelations => [fun accessor => (Drizzle.RelationEntry.of accessor).text subject.names.tableBinding]
  | .graphqlSdl => [fun accessor => (Graphql.FieldDefinition.ofAccessor accessor).text]
  | .graphql => [
    fun accessor => (Graphql.RelationField.of subject.entity.name accessor).text,
    fun accessor => (Graphql.Resolver.of accessor).text]
  | .sequelizeModel | .drizzleTable | .openApi | .controller | .service | .guard | .repository | .createDto
  | .updateDto | .searchDto => []

/-- The runs of a surface: those over the fields, and then those over the accessors. -/
def runs (subject : Subject) (surface : Surface) : List (List String) :=
  (surface.fieldTexts subject).map (fun text => subject.entity.fields.filterMap text) ++
    (surface.accessorTexts subject).map fun text => subject.accessors.map text

variable (subject : Subject)

theorem hasRuns_contract : HasRuns (contract.runs subject) (contract.text subject) := by
  show HasRuns [List.filterMap _ _, List.map _ _] _
  rw [List.filterMap_eq_map']
  refine .declaration ?_
  simp only [Contract.declaration, Contract.of, List.map_map, List.isEmpty_map, Function.comp_def]
  refine .append_right ?_ _
  rw [String.append_assoc]
  refine .append_left (.join_append (.ite ?_ (.append_left (.join _) _) _) _) _
  intro hempty
  rw [List.isEmpty_iff.1 hempty, List.map_nil]

theorem hasRuns_sequelizeModel : HasRuns (sequelizeModel.runs subject) (sequelizeModel.text subject) := by
  show HasRuns [List.filterMap _ _] _
  rw [List.filterMap_eq_map']
  refine .declaration (.append_left ?_ _)
  simp only [Sequelize.Model.of, List.map_map, Function.comp_def]
  exact .append_right (.append_left (.join _) _) _

theorem hasRuns_sequelizeAssociations :
    HasRuns (sequelizeAssociations.runs subject) (sequelizeAssociations.text subject) := by
  show HasRuns [List.map _ _] (String.join (List.map _ (Sequelize.associations subject)))
  rw [Sequelize.associations, List.map_map]
  exact .join _

theorem hasRuns_drizzleTable : HasRuns (drizzleTable.runs subject) (drizzleTable.text subject) := by
  have hchecks : (subject.entity.fields.filterMap fun field => field.minLength.map fun least =>
      (Drizzle.Extra.minLength field.name least).text subject.entity.tableName) =
        (subject.entity.fields.filterMap fun field => field.minLength.map (.minLength field.name)).map
          (Drizzle.Extra.text subject.entity.tableName) := by
    simp only [List.map_filterMap, Option.map_map, Function.comp_def]
  show HasRuns [List.filterMap _ _, List.filterMap _ _] _
  rw [List.filterMap_eq_map', hchecks]
  refine .declaration (.append_left ?_ _)
  simp only [Drizzle.Table.of, List.map_map, Function.comp_def]
  rw [String.append_assoc]
  refine .append_left (.join_append (.ite ?_ ?_ _) _) _
  · intro hempty
    rw [(List.append_eq_nil_iff.1 (List.isEmpty_iff.1 hempty)).2, List.map_nil]
  · rw [List.map_append, String.join_append]
    exact .append_right (.append_left (.append_left (.join _) _) _) _

theorem hasRuns_drizzleRelations : HasRuns (drizzleRelations.runs subject) (drizzleRelations.text subject) := by
  show HasRuns [List.map _ _] (((Drizzle.Relations.of? subject).map _).getD "")
  rw [Drizzle.Relations.of?]
  cases subject.accessors with
  | nil => exact .join []
  | cons accessor accessors =>
    refine .declaration (.append_left ?_ _)
    simp only [List.map_map, Function.comp_def]
    exact .append_right (.append_left (.join _) _) _

theorem hasRuns_graphqlSdl : HasRuns (graphqlSdl.runs subject) (graphqlSdl.text subject) := by
  show HasRuns [List.filterMap _ _, List.map _ _] (Graphql.TypeDefinition.text _)
  simp only [List.filterMap_eq_map', Graphql.TypeDefinition.text, Graphql.TypeDefinition.of, List.map_append,
    List.map_map, Function.comp_def, String.join_append]
  exact .append_right (.append_left (.join_append (.join _) _) _) _

theorem hasRuns_objectType : HasRuns
    [subject.entity.fields.map fun field => (Graphql.ScalarField.of field).text,
      subject.accessors.map fun accessor => (Graphql.RelationField.of subject.entity.name accessor).text]
    (Graphql.ObjectType.of subject).declaration.text := by
  refine .declaration ?_
  simp only [Graphql.ObjectType.declaration, Graphql.ObjectType.of, List.map_map, Function.comp_def]
  refine .append_right ?_ _
  rw [String.append_assoc]
  exact .append_left (.join_append (.join _) _) _

theorem text_graphql : graphql.text subject = (Graphql.ObjectType.of subject).declaration.text ++
    (if subject.accessors.isEmpty then ""
      else "\n" ++ (Graphql.Resolvers.declaration
        ⟨subject.entity.name, subject.accessors.map .of⟩).text) := by
  rw [text, Graphql.items, Graphql.declarations, Graphql.Resolvers.of?]
  split <;> simp [TypeScript.spaced, TypeScript.Item.text, TypeScript.blankLine, String.join_cons]

theorem hasRuns_graphql : HasRuns (graphql.runs subject) (graphql.text subject) := by
  show HasRuns [List.filterMap _ _, List.map _ _, List.map _ _] _
  rw [List.filterMap_eq_map', text_graphql]
  refine (hasRuns_objectType subject).append (.ite ?_ (.append_left (.declaration (.append_left ?_ _)) _) _)
  · intro hempty
    rw [List.isEmpty_iff.1 hempty, List.map_nil]
  · refine .append_right (.append_left ?_ _) _
    rw [List.map_map]
    exact .join _

theorem hasRuns_dto (kind : DtoKind) {run : List String}
    (hrun : (Dto.of kind subject).properties.map DtoProperty.text = run) :
    HasRuns [run] (Dto.of kind subject).script.text := by
  refine .append_left ?_ _
  have hitems : String.join ((Dto.of kind subject).script.items.map TypeScript.Item.text) =
      (Dto.of kind subject).declaration.text := String.empty_append
  rw [hitems]
  exact .declaration (.append_right (.append_left (hrun ▸ .join _) _) _)

theorem hasRuns_text (surface : Surface) : HasRuns (surface.runs subject) (surface.text subject) := by
  cases surface with
  | contract => exact hasRuns_contract subject
  | sequelizeModel => exact hasRuns_sequelizeModel subject
  | sequelizeAssociations => exact hasRuns_sequelizeAssociations subject
  | drizzleTable => exact hasRuns_drizzleTable subject
  | drizzleRelations => exact hasRuns_drizzleRelations subject
  | graphqlSdl => exact hasRuns_graphqlSdl subject
  | graphql => exact hasRuns_graphql subject
  | createDto =>
    show HasRuns [List.filterMap _ _] _
    rw [List.filterMap_eq_map']
    exact hasRuns_dto subject .create List.map_map
  | updateDto =>
    show HasRuns [List.filterMap _ _] _
    rw [List.filterMap_eq_map']
    exact hasRuns_dto subject .update List.map_map
  | searchDto =>
    show HasRuns [List.filterMap _ _] _
    rw [List.filterMap_eq_map']
    exact hasRuns_dto subject .search List.map_map
  | openApi | controller | service | guard | repository => trivial

/-- What is written of a field has its name in it. -/
theorem isPiece_of_fieldTexts {surface : Surface} {text : Field → Option String}
    (htext : text ∈ surface.fieldTexts subject) {field : Field} {piece : String}
    (h : text field = some piece) : IsPiece field.name piece := by
  cases surface with
  | contract | sequelizeModel | graphqlSdl | graphql | createDto | updateDto =>
    obtain rfl := List.mem_singleton.1 htext
    obtain rfl := Option.some.inj h
    repeat first | exact .append_left (.refl _) _ | refine .append_right ?_ _
  | drizzleTable =>
    rcases List.mem_pair.1 htext with rfl | rfl
    · obtain rfl := Option.some.inj h
      repeat first | exact .append_left (.refl _) _ | refine .append_right ?_ _
    · obtain ⟨least, -, rfl⟩ := Option.map_eq_some_iff.1 h
      refine .append_right (.append_right (.append_right (.append_right (.append_right ?_ _) _) _) _) _
      exact .append_left (.refl _) _
  | searchDto =>
    obtain rfl := List.mem_singleton.1 htext
    obtain rfl := Option.some.inj h
    have hkey : IsPiece field.name (DtoProperty.searchKey field) := by
      unfold DtoProperty.searchKey
      split
      · exact .append_right (.refl _) _
      · exact .refl _
      · exact .refl _
    repeat first | exact .append_left hkey _ | refine .append_right ?_ _
  | sequelizeAssociations | drizzleRelations | openApi | controller | service | guard | repository => cases htext

/-- What is written of an accessor has its name in it. -/
theorem isPiece_of_accessorTexts {surface : Surface} {text : Accessor → String}
    (htext : text ∈ surface.accessorTexts subject) (accessor : Accessor) :
    IsPiece accessor.name (text accessor) := by
  cases surface with
  | contract | drizzleRelations | graphqlSdl =>
    obtain rfl := List.mem_singleton.1 htext
    repeat first | exact .append_left (.refl _) _ | refine .append_right ?_ _
  | sequelizeAssociations =>
    obtain rfl := List.mem_singleton.1 htext
    have hname : (Sequelize.Association.of subject.entity accessor).name = accessor.name := by
      unfold Sequelize.Association.of
      cases accessor.association with
      | joined through lookup joinColumn targetColumn => rfl
      | direct lookup => cases accessor.kind <;> rfl
    -- the name is the first of the options
    have hoption : IsPiece accessor.name
        ("as: " ++ Sequelize.inQuotes (Sequelize.Association.of subject.entity accessor).name) := by
      rw [hname]
      exact .append_left (.append_right (.append_left (.refl _) _) _) _
    exact .append_right (.append_left (hoption.intercalate _ _) _) _
  | graphql =>
    rcases List.mem_pair.1 htext with rfl | rfl
    · exact .lines (.append_right (.append_left (.refl _) _) _) _
    · refine .lines ?_ _
      repeat first | exact .append_left (.refl _) _ | refine .append_right ?_ _
  | sequelizeModel | drizzleTable | openApi | controller | service | guard | repository | createDto
  | updateDto | searchDto => cases htext

end Surface

end EntityForge
