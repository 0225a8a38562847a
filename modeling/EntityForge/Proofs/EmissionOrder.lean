import EntityForge.Proofs.DocumentOrder
import EntityForge.Proofs.Runs
import EntityForge.Proofs.SearchKeys

/-!
How the order of a text shows in all that is made from it.

A schema keeps the order of its text, accessors that of their relations, and what a surface writes of both stands
in runs in this order. The OpenAPI text is read back instead: what lists the fields in it has them in their order.
Four surfaces list neither fields nor accessors. Main statements: `OpenApi.lists_fragment`, `Subject.keepsOrder`
and `text_order_kept`.
-/

namespace EntityForge

/-- Four surfaces know an entity by its name, its key and its owner only. -/
theorem Surface.text_eq_of_unlisted (subject : Subject) {surface : Surface}
    (h : surface ∈ [controller, service, guard, repository])
    {other : Subject} (hname : other.entity.name = subject.entity.name)
    (hkey : other.entity.primaryKey = subject.entity.primaryKey) (howner : other.owner = subject.owner) :
    surface.text other = surface.text subject := by
  have hnames : other.names = subject.names := congrArg Names.ofModel hname
  simp only [List.mem_cons, List.not_mem_nil, or_false] at h
  rcases h with rfl | rfl | rfl | rfl
  · rw [text, text, Resource.Controller.script, Resource.Controller.script, hnames]
  · rw [text, text, Resource.Service.of, Resource.Service.of, hnames, hkey, howner]
  · rw [text, text, Resource.Guard.of, Resource.Guard.of, hnames, hkey, howner]
  · rw [text, text, Resource.repository, Resource.repository, hnames]

namespace OpenApi

/-- What of a document lists the fields of an entity has them in their order. -/
structure Lists (document : Json) (entity : Entity) : Prop where
  entityKeys : (document.member? ["components", "schemas", entitySchema entity.name, "properties"]).map Json.keys =
    some (entity.fields.map Field.name)
  required : document.member? ["components", "schemas", entitySchema entity.name, "required"] =
    some (.array ((entity.fields.filter Field.required).map fun field => .string field.name))
  classKeys : ∀ kind, (document.member?
    ["components", "schemas", Dto.nameOf kind entity.name, "properties"]).map Json.keys =
      some (entity.fields.map Field.name)
  parameters : queryNames document entity =
    some ((entity.fields.map DtoProperty.searchKey).map fun key => some (.string key))
  examples : ∀ operation ∈ [("/" ++ entity.directory, "post"), ("/" ++ entity.directory ++ "/\x7bid\x7d", "put"),
      ("/" ++ entity.directory ++ "/\x7bid\x7d", "patch")],
    (document.member? ["paths", operation.1, operation.2, "requestBody", "content", "application/json",
      "example"]).map Json.keys = some (entity.fields.map Field.name)

theorem lists_fragment {entity : Entity} (hnames : (entity.fields.map Field.name).Nodup) :
    Lists (fragment entity) entity where
  entityKeys := by
    rw [member?_schema List.mem_cons_self]
    exact congrArg some (keys_ofFields hnames property)
  required := by
    rw [member?_schema List.mem_cons_self]
    have hrequired : (required entity).map Json.string =
        (entity.fields.filter Field.required).map fun field => .string field.name := List.map_map
    rw [← hrequired]
    rfl
  classKeys kind := by
    have hmem : dtoSchema entity kind ∈ schemas entity :=
      List.mem_cons_of_mem _ (List.mem_map_of_mem (by cases kind <;> decide))
    rw [member?_schema hmem]
    exact congrArg some (keys_ofFields hnames property)
  parameters := queryNames_fragment entity
  examples := by
    have hsample : (some (sample entity)).map Json.keys = some (entity.fields.map Field.name) :=
      congrArg some (keys_ofFields hnames exampleValue)
    have hcollection : collection (.ofModel entity.name) ∈ pathItems entity := List.mem_cons_self
    have hsingle : single (.ofModel entity.name) entity ∈ pathItems entity :=
      List.mem_cons_of_mem _ (List.mem_cons_of_mem _ List.mem_cons_self)
    intro operation hoperation
    simp only [List.mem_cons, List.not_mem_nil, or_false] at hoperation
    rcases hoperation with rfl | rfl | rfl
    · exact (congrArg _ (member?_path hcollection _)).trans hsample
    · exact (congrArg _ (member?_path hsingle _)).trans hsample
    · exact (congrArg _ (member?_path hsingle _)).trans hsample

end OpenApi

/-- What of a relation its accessor has as well. -/
def Relation.heading (relation : Relation) : RelationKind × String × String :=
  (relation.kind, relation.name, relation.target)

def Accessor.heading (accessor : Accessor) : RelationKind × String × String :=
  (accessor.kind, accessor.name, accessor.target)

/-- All that is written of an entity has its fields in their order, and then its accessors: kind by kind, and those
of one kind in the order of its relations. -/
structure Subject.KeepsOrder (subject : Subject) : Prop where
  accessors : subject.accessors.map Accessor.heading =
    RelationKind.all.flatMap fun kind => (subject.entity.relationsOf kind).map Relation.heading
  texts : ∀ surface : Surface, HasRuns (surface.runs subject) (surface.text subject)
  fieldNames : ∀ surface : Surface, ∀ text ∈ surface.fieldTexts subject, ∀ field piece,
    text field = some piece → IsPiece field.name piece
  accessorNames : ∀ surface : Surface, ∀ text ∈ surface.accessorTexts subject, ∀ accessor : Accessor,
    IsPiece accessor.name (text accessor)
  document : ∃ document, Json.parse (Surface.openApi.text subject) = .ok document ∧
    OpenApi.Lists document subject.entity
  unlisted : ∀ surface ∈ [Surface.controller, .service, .guard, .repository], ∀ other : Subject,
    other.entity.name = subject.entity.name → other.entity.primaryKey = subject.entity.primaryKey →
      other.owner = subject.owner → surface.text other = surface.text subject

theorem Schema.headings_of_accessors {schema : Schema} {resolved : List ResolvedEntity}
    (h : schema.resolve = .ok resolved) {result : ResolvedEntity} (hresult : result ∈ resolved) :
    result.accessors.map Accessor.heading = result.entity.relations.map Relation.heading := by
  obtain ⟨entity, -, rfl, hrelations⟩ := exists_of_forall₂_right (resolve_eq_ok.1 h) hresult
  refine map_eq_map_of_forall₂ hrelations fun relation accessor hresolve => ?_
  obtain ⟨target, association, htarget, -, rfl⟩ := Accessor.resolve_eq_ok.1 hresolve
  rw [Accessor.heading, Relation.heading, Schema.name_of_entity? htarget]

theorem Subject.keepsOrder {schema : Schema} {resolved : List ResolvedEntity}
    (h : schema.resolve = .ok resolved) {result : ResolvedEntity} (hresult : result ∈ resolved)
    (hkinds : result.entity.relations = RelationKind.all.flatMap result.entity.relationsOf)
    (hnames : (result.entity.fields.map Field.name).Nodup) (policy : OwnerPolicy) :
    (Subject.of policy result).KeepsOrder where
  accessors := by
    rw [← List.map_flatMap, Subject.of, ← hkinds]
    exact Schema.headings_of_accessors h hresult
  texts := Surface.hasRuns_text _
  fieldNames _ _ htext _ _ hpiece := Surface.isPiece_of_fieldTexts _ htext hpiece
  accessorNames _ _ htext accessor := Surface.isPiece_of_accessorTexts _ htext accessor
  document := ⟨_, PublishedApi.parse_openApi _, OpenApi.lists_fragment hnames⟩
  unlisted _ hsurface _ := Surface.text_eq_of_unlisted _ hsurface

/-- A schema has its entities, the fields of each, and the targets of each kind of its relations in the order in
which their keys first come in the text; a key that is repeated has what came last for it. And where the schema
resolves, every surface of an entity has its fields in this order, and then its accessors, those that have one
first, then those that have many, those that belong to one, and those that belong to many. -/
theorem text_order_kept {text : String} {schema : Schema} (h : Schema.ofText text = .ok schema) :
    (∃ root, Json.lex text = root.lexemes ∧ schema.Keeps root) ∧
      ∀ policy subjects, schema.subjects policy = .ok subjects →
        subjects.map Subject.entity = schema.entities ∧ ∀ subject ∈ subjects, subject.KeepsOrder := by
  obtain ⟨root, hroot, hkeeps⟩ := Schema.keeps_of_ofText h
  refine ⟨⟨root, hroot, hkeeps⟩, ?_⟩
  intro policy subjects hsubjects
  obtain ⟨resolved, hresolve, hsubjects⟩ := bind_eq_ok.1 hsubjects
  obtain rfl := pure_eq_ok.1 hsubjects
  have hentities := Schema.entities_of_resolve hresolve
  refine ⟨by rw [List.map_map]; exact hentities, ?_⟩
  intro subject hsubject
  obtain ⟨result, hresult, rfl⟩ := List.mem_map.1 hsubject
  have hmem : result.entity ∈ schema.entities := by
    rw [← hentities]
    exact List.mem_map_of_mem hresult
  exact Subject.keepsOrder hresolve hresult (hkeeps.relations _ hmem).kinds
    ((Schema.keyed_of_ofText h).fields _ hmem) policy

/-- A document in which a model, a field and a relation come twice, and a block that begins with a kind which does
not come first. -/
def songs.lines : List String := [
  "\x7b\"models\": \x7b\"Song\": \x7b\"tableName\": \"old\"\x7d, ",
  "\"Album\": \x7b\"tableName\": \"albums\", \"fields\": \x7b\"title\": \x7b\"dataType\": \"string\"\x7d, ",
  "\"id\": \x7b\"dataType\": \"integer\"\x7d, \"title\": \x7b\"dataType\": \"text\"\x7d\x7d\x7d, ",
  "\"Song\": \x7b\"tableName\": \"songs\", \"fields\": \x7b\"id\": \x7b\"dataType\": \"integer\", ",
  "\"primaryKey\": true\x7d, \"album_id\": \x7b\"dataType\": \"integer\"\x7d\x7d\x7d\x7d, ",
  "\"relationships\": \x7b\"Song\": \x7b\"belongsToOne\": \x7b\"Album\": ",
  "\x7b\"alias\": \"album\", \"foreignKey\": \"album_id\"\x7d\x7d, ",
  "\"hasOne\": \x7b\"Album\": \x7b\"alias\": \"gone\", \"foreignKey\": \"gone\"\x7d, ",
  "\"Song\": \x7b\"alias\": \"remix\", \"foreignKey\": \"album_id\"\x7d, ",
  "\"Album\": \x7b\"alias\": \"single\", \"foreignKey\": \"id\"\x7d\x7d\x7d\x7d\x7d"]

def songs.text : String := String.join songs.lines

def songs : Schema where
  entities := [
    { name := "Song"
      tableName := "songs"
      fields := [
        ⟨"id", .integer, false, true, false, none, none, none, none⟩,
        ⟨"album_id", .integer, false, false, false, none, none, none, none⟩]
      indexes := []
      relations := [
        ⟨.hasOne, "Album", "single", "id", none, none, none⟩,
        ⟨.hasOne, "Song", "remix", "album_id", none, none, none⟩,
        ⟨.belongsToOne, "Album", "album", "album_id", none, none, none⟩] },
    { name := "Album"
      tableName := "albums"
      fields := [
        ⟨"title", .text, false, false, false, none, none, none, none⟩,
        ⟨"id", .integer, false, false, false, none, none, none, none⟩]
      indexes := []
      relations := [] }]
  api := .standard

theorem songs_ofText : Schema.ofText songs.text = .ok songs := by
  rw [Schema.ofText, Document.parse, Json.readText, Json.Node.ofText, Json.lex, songs.text, String.toList_join]
  decide +kernel

def songs.subjects : List Subject := [
  ⟨songs.entities[0], [
    ⟨.hasOne, "single", "Album", .direct ⟨"Album", "id", "id", .integer⟩⟩,
    ⟨.hasOne, "remix", "Song", .direct ⟨"Song", "album_id", "id", .integer⟩⟩,
    ⟨.belongsToOne, "album", "Album", .direct ⟨"Album", "id", "album_id", .integer⟩⟩], .fallback "owner_id"⟩,
  ⟨songs.entities[1], [], .fallback "owner_id"⟩]

theorem songs_subjects : Schema.subjects songs .standard = .ok songs.subjects := by decide

theorem text_order_kept_for_songs :
    Schema.ofText songs.text = .ok songs ∧ (∃ root, Json.lex songs.text = root.lexemes ∧ songs.Keeps root) ∧
      Schema.subjects songs .standard = .ok songs.subjects ∧
      songs.subjects.map Subject.entity = songs.entities ∧
      ∀ subject ∈ songs.subjects, subject.KeepsOrder := by
  obtain ⟨hkeeps, hsubjects⟩ := text_order_kept songs_ofText
  obtain ⟨hentities, hsurfaces⟩ := hsubjects .standard songs.subjects songs_subjects
  exact ⟨songs_ofText, hkeeps, songs_subjects, hentities, hsurfaces⟩

end EntityForge
