import EntityForge.Proofs.GraphqlTypes
import EntityForge.Proofs.Plurals
import EntityForge.Proofs.References

/-!
Where a generated module binds a name twice.

A module binds what it imports and what it declares, and most of those names are made from the names of
entities, in four ways: as they are, with an ending, as a plural with a small first letter, and in capitals.
Nothing compares them. Endings tell most of them apart; which ones meet is said exactly, for each of the
modules about all entities that declare constants, and for the enumeration of models. Main statements:
`plural_eq_append_iff`, `nodup_bound_sequelize`, `nodup_bound_drizzle`, `nodup_bound_graphql` and
`bindings_distinct_iff`.
-/

namespace EntityForge

open Text

namespace Identifier

variable {name other : String}

/-- A name that begins with an ASCII capital. -/
def isCapitalized (name : String) : Bool := name.toList.head?.any isAsciiUpper

theorem isCapitalized_iff :
    isCapitalized name = true ↔ ∃ c cs, name.toList = c :: cs ∧ isAsciiUpper c = true := by
  unfold isCapitalized
  cases name.toList <;> simp

theorem binding_of_isCapitalized {c : Char} {cs : List Char} (hname : name.toList = c :: cs)
    (h : isAsciiUpper c = true) : binding name = String.ofList (Char.ofNat (c.toNat + 32) :: cs) := by
  rw [binding, hname, mapFirst, lowerChar_of_upper h, List.singleton_append]

theorem binding_inj (hname : isCapitalized name = true) (hother : isCapitalized other = true) :
    binding name = binding other ↔ name = other := by
  obtain ⟨c, cs, hc, hupper⟩ := isCapitalized_iff.1 hname
  obtain ⟨d, ds, hd, hupper'⟩ := isCapitalized_iff.1 hother
  refine ⟨fun h => ?_, congrArg binding⟩
  rw [binding_of_isCapitalized hc hupper, binding_of_isCapitalized hd hupper', String.ofList_inj,
    List.cons.injEq] at h
  obtain ⟨hchar, rfl⟩ := h
  have hnat := congrArg Char.toNat hchar
  rw [toNat_lowered hupper, toNat_lowered hupper'] at hnat
  have hchars : c = d := Char.toNat_inj.1 (by omega)
  rw [← String.toList_inj, hc, hd, hchars]

theorem isCapitalized_append (h : isCapitalized name = true) (tail : String) :
    isCapitalized (name ++ tail) = true := by
  obtain ⟨c, cs, hname, hupper⟩ := isCapitalized_iff.1 h
  refine isCapitalized_iff.2 ⟨c, cs ++ tail.toList, ?_, hupper⟩
  rw [String.toList_append, hname, List.cons_append]

theorem binding_append (h : isCapitalized name = true) (tail : String) :
    binding (name ++ tail) = binding name ++ tail := by
  obtain ⟨c, cs, hname, hupper⟩ := isCapitalized_iff.1 h
  rw [← String.toList_inj, String.toList_append, binding, binding, String.toList_append, hname]
  simp [mapFirst]

/-- Where a word is no mere capital, its last letter stays. -/
theorem getLast?_binding (h : isCapitalized name = true) (hlast : name.toList.getLast? = some 's') :
    (binding name).toList.getLast? = some 's' := by
  obtain ⟨c, cs, hname, hupper⟩ := isCapitalized_iff.1 h
  rw [binding_of_isCapitalized hname hupper, String.toList_ofList]
  rw [hname] at hlast
  cases cs with
  | nil =>
    obtain rfl : c = 's' := Option.some.inj hlast
    exact absurd hupper (by decide)
  | cons d ds =>
    rw [List.getLast?_cons_cons] at hlast ⊢
    exact hlast

theorem isCapitalized_plural (h : isCapitalized name = true) : isCapitalized (plural name) = true := by
  obtain ⟨c, cs, hname, hupper⟩ := isCapitalized_iff.1 h
  obtain ⟨stem, ending, letters, hstem, hplural, hletters⟩ := pluralChars_eq name.toList
  rw [hname] at hstem
  refine isCapitalized_iff.2 ⟨c, stem.tail ++ letters ++ ['s'], ?_, hupper⟩
  rw [plural, String.toList_ofList, hplural]
  cases stem with
  | nil =>
    obtain rfl : c :: cs = ending := hstem
    have hsmall := hletters c (by simp)
    have hrange := toNat_of_upper hupper
    omega
  | cons d stem =>
    obtain ⟨rfl, -⟩ := List.cons.inj hstem
    rfl

theorem pluralChars_eq_concat_iff {cs word : List Char} (hlast : word.getLast? = some 'n') :
    pluralChars cs = word ++ ['s'] ↔ cs = word := by
  have hplain : pluralChars word = word ++ ['s'] := by
    obtain ⟨init, rfl⟩ := List.getLast?_eq_some_iff.1 hlast
    simp [pluralChars]
  rw [← hplain, pluralChars_eq_iff]
  refine or_iff_left ?_
  rintro (h | h)
  · have hother := h.getLast?.2
    rw [hlast] at hother
    cases hother
  · cases h <;> simp at hlast

/-- No plural but that of the same word with `Relation` ends so. -/
theorem plural_eq_append_iff (word : String) :
    plural name = word ++ "Relations" ↔ name = word ++ "Relation" := by
  have hlast : (word ++ "Relation").toList.getLast? = some 'n' := getLast?_append_text rfl
  rw [← String.toList_inj, ← String.toList_inj, plural, String.toList_ofList,
    ← pluralChars_eq_concat_iff hlast]
  simp

end Identifier

open TypeScript

namespace TypeScript

/-- The names that a module binds at its top level. -/
def Script.bound (script : Script) : List String :=
  script.imports.flatMap Import.imported ++ script.exports

def Item.exported? : Item → Option String
  | .declaration d => some d.name
  | .statement _ => none

theorem Script.exports_eq (script : Script) : script.exports = script.items.filterMap Item.exported? := by
  rw [exports, declarations, List.map_filterMap]
  congr 1
  funext item
  cases item <;> rfl

/-- What is put between the members of a list does not count where it gives nothing. -/
theorem flatMap_intersperse {α β : Type} {f : α → List β} {separator : α} (h : f separator = [])
    (l : List α) : (l.intersperse separator).flatMap f = l.flatMap f := by
  induction l with
  | nil => rfl
  | cons first rest ih =>
    cases rest with
    | nil => rfl
    | cons second rest =>
      rw [List.intersperse_cons_cons, List.flatMap_cons, List.flatMap_cons, List.flatMap_cons, ih, h,
        List.nil_append]

theorem exported_spaced (items : List Item) :
    (spaced items).filterMap Item.exported? = items.filterMap Item.exported? := by
  rw [spaced, List.filterMap_eq_flatMap_toList, List.filterMap_eq_flatMap_toList, flatMap_intersperse rfl]

theorem exported_blocks (blocks : List (List Item)) :
    ((blocks.intersperse [blankLine]).flatten).filterMap Item.exported? =
      blocks.flatMap fun block => block.filterMap Item.exported? := by
  rw [List.filterMap_flatten, ← List.flatMap_def, flatMap_intersperse rfl]

theorem exported_declarations (ds : List Declaration) :
    (ds.map Item.declaration).filterMap Item.exported? = ds.map Declaration.name := by
  rw [List.filterMap_map, ← List.filterMap_eq_map]
  rfl

end TypeScript

namespace Aggregate

variable (subjects : List Subject)

theorem exported_aggregate {α : Type} (of : α → Declaration) (values : List α) :
    (declarations of values).filterMap Item.exported? = values.map fun value => (of value).name := by
  have hitems : values.map (fun value => Item.declaration (of value)) = (values.map of).map .declaration := by
    rw [List.map_map]
    rfl
  rw [declarations, exported_spaced, hitems, exported_declarations, List.map_map]
  rfl

theorem exported_headed (heading : String) (items : List Item) :
    (headed heading items).filterMap Item.exported? = items.filterMap Item.exported? := by
  unfold headed
  cases items <;> rfl

theorem exports_sequelize : (sequelize subjects).exports = subjects.map fun s => s.entity.name := by
  have hnone (associations : List Sequelize.Association) :
      (associations.map fun a => Item.statement a.text).filterMap Item.exported? = [] := by
    rw [List.filterMap_map]
    exact List.filterMap_eq_nil_iff.2 fun _ _ => rfl
  rw [Script.exports_eq, sequelize, List.filterMap_append, exported_aggregate, exported_headed, hnone,
    List.append_nil, List.map_map]
  rfl

/-- The entities that have relations. -/
def related : List Subject := subjects.filter fun s => !s.accessors.isEmpty

theorem map_related {α : Type} (f : Subject → α) :
    (related subjects).map f = subjects.flatMap fun s => if s.accessors.isEmpty then [] else [f s] := by
  unfold related
  induction subjects with
  | nil => rfl
  | cons subject rest ih =>
    rw [List.flatMap_cons, List.filter_cons]
    cases subject.accessors.isEmpty with
    | true => exact ih
    | false => exact congrArg (_ :: ·) ih

theorem nodup_map_related {α : Type} {f : Subject → α} (h : (subjects.map f).Nodup) :
    ((related subjects).map f).Nodup :=
  h.sublist (List.filter_sublist.map f)

/-- The names of the tables. -/
def tables : List String := subjects.map fun s => s.names.tableBinding

/-- The names of the blocks of relations. -/
def blocks : List String := (related subjects).map fun s => s.names.tableBinding ++ "Relations"

theorem exports_drizzle : (drizzle subjects).exports = tables subjects ++ blocks subjects := by
  have hblocks : (subjects.filterMap Drizzle.Relations.of?).map (fun r => r.declaration.name) =
      blocks subjects := by
    rw [List.filterMap_eq_flatMap_toList, List.map_flatMap, blocks, map_related]
    congr 1
    funext s
    rw [Drizzle.Relations.of?]
    cases s.accessors.isEmpty <;> rfl
  rw [Script.exports_eq, drizzle, List.filterMap_append, exported_aggregate, exported_headed,
    exported_aggregate, hblocks, List.map_map]
  rfl

theorem exports_graphql : (graphql subjects).exports =
    "typeDefs" :: subjects.flatMap fun s => (s.entity.name ++ "Type") ::
      if s.accessors.isEmpty then [] else [s.entity.name ++ "Resolvers"] := by
  have hitems (s : Subject) : (Graphql.items s).filterMap Item.exported? =
      (s.entity.name ++ "Type") :: if s.accessors.isEmpty then [] else [s.entity.name ++ "Resolvers"] := by
    rw [Graphql.items, exported_spaced, exported_declarations, Graphql.declarations, Graphql.Resolvers.of?]
    cases s.accessors.isEmpty <;> rfl
  rw [Script.exports_eq, graphql, List.filterMap_cons, List.filterMap_cons, exported_blocks,
    List.flatMap_map]
  simp only [hitems]
  rfl

end Aggregate

/-- Each of these names ends in one of these letters. -/
def EndIn (names : List String) (letters : List Char) : Prop :=
  ∀ name ∈ names, name.toList.getLast? ∈ letters.map some

section EndIn

variable {first second : List String} {letters others : List Char}

theorem EndIn.append (h : EndIn first letters) (h' : EndIn second others) :
    EndIn (first ++ second) (letters ++ others) := by
  intro name hname
  rw [List.map_append]
  rcases List.mem_append.1 hname with hname | hname
  · exact List.mem_append_left _ (h name hname)
  · exact List.mem_append_right _ (h' name hname)

theorem endIn_map_append (ending : String) (c : Char) (h : ending.toList.getLast? = some c)
    (names : List String) : EndIn (names.map (· ++ ending)) [c] := by
  intro name hname
  obtain ⟨stem, -, rfl⟩ := List.mem_map.1 hname
  rw [getLast?_append_text h]
  exact List.mem_cons_self

/-- Names that end in other letters are other names. -/
theorem nodup_append_of_endings (h : EndIn first letters) (h' : EndIn second others)
    (hletters : letters.Disjoint others) : (first ++ second).Nodup ↔ first.Nodup ∧ second.Nodup := by
  rw [List.nodup_append, and_congr_right_iff]
  refine fun _ => and_iff_left ?_
  rintro name hname _ hother rfl
  obtain ⟨c, hc, hlast⟩ := List.mem_map.1 (h name hname)
  obtain ⟨d, hd, hlast'⟩ := List.mem_map.1 (h' name hother)
  obtain rfl : c = d := Option.some.inj (hlast.trans hlast'.symm)
  exact hletters hc hd

end EndIn

/-- Names that get one and the same ending differ as before. -/
theorem nodup_map_append {names : List String} (ending : String) :
    (names.map (· ++ ending)).Nodup ↔ names.Nodup :=
  List.nodup_map_iff fun _ _ h => (String.append_left_inj ending).1 h

namespace Aggregate

section Sequelize

variable {subjects : List Subject}
  (hnames : ∀ s ∈ subjects, Identifier.isCapitalized s.entity.name = true)

include hnames

theorem nodup_bound_sequelize : (sequelize subjects).bound.Nodup ↔
    (subjects.map fun s => s.entity.name).Nodup ∧ "DataTypes" ∉ subjects.map fun s => s.entity.name := by
  have hlibrary : "sequelize" ∉ subjects.map fun s => s.entity.name := by
    intro hmem
    obtain ⟨s, hs, hname⟩ := List.mem_map.1 hmem
    have hcapital := hnames s hs
    rw [hname] at hcapital
    exact absurd hcapital (by decide)
  have hbound : (sequelize subjects).bound =
      "DataTypes" :: "sequelize" :: subjects.map fun s => s.entity.name := by
    rw [Script.bound, exports_sequelize]
    rfl
  rw [hbound, List.nodup_cons, List.nodup_cons, List.mem_cons]
  simp [hlibrary, and_comm]

end Sequelize

section Drizzle

open Identifier

/-- What the file of tables imports. -/
def drizzleNames : List String := (drizzle []).imports.flatMap Import.imported

theorem drizzleNames_ending :
    ∀ name ∈ drizzleNames, name.toList.getLast? = some 's' → name = "relations" := by decide

theorem binding_mem_drizzleNames_iff {name : String} (hname : isCapitalized name = true)
    (hlast : name.toList.getLast? = some 's') : binding name ∈ drizzleNames ↔ name = "Relations" := by
  constructor
  · intro hmem
    have hbinding := drizzleNames_ending _ hmem (getLast?_binding hname hlast)
    exact (binding_inj hname (by decide : isCapitalized "Relations" = true)).1 hbinding
  · rintro rfl
    decide

variable {s t : Subject}

theorem tableBinding_append (ht : isCapitalized t.entity.name = true) :
    t.names.tableBinding ++ "Relations" = binding (plural t.entity.name ++ "Relations") :=
  (binding_append (isCapitalized_plural ht) "Relations").symm

theorem tableBinding_eq_append_iff (hs : isCapitalized s.entity.name = true)
    (ht : isCapitalized t.entity.name = true) :
    s.names.tableBinding = t.names.tableBinding ++ "Relations" ↔
      s.entity.name = plural t.entity.name ++ "Relation" := by
  rw [tableBinding_append ht, ← plural_eq_append_iff]
  exact binding_inj (isCapitalized_plural hs) (isCapitalized_append (isCapitalized_plural ht) _)

theorem tableBinding_mem_drizzleNames_iff (hs : isCapitalized s.entity.name = true) :
    s.names.tableBinding ∈ drizzleNames ↔ s.entity.name = "Relation" :=
  (binding_mem_drizzleNames_iff (isCapitalized_plural hs) (getLast?_plural _)).trans (plural_eq_append_iff "")

/-- A block is called after a table, so that its name is longer than `relations`. -/
theorem block_not_mem_drizzleNames (ht : isCapitalized t.entity.name = true) :
    t.names.tableBinding ++ "Relations" ∉ drizzleNames := by
  have hcapital := isCapitalized_plural ht
  rw [tableBinding_append ht,
    binding_mem_drizzleNames_iff (isCapitalized_append hcapital _) (getLast?_append_text rfl)]
  intro hsame
  have hempty : plural t.entity.name = "" := (String.append_left_inj "Relations").1 hsame
  rw [hempty] at hcapital
  exact absurd hcapital (by decide)

variable {subjects : List Subject} (hnames : ∀ s ∈ subjects, isCapitalized s.entity.name = true)

include hnames

theorem nodup_tables : (tables subjects).Nodup ↔ (subjects.map fun s => plural s.entity.name).Nodup := by
  unfold tables List.Nodup
  rw [List.pairwise_map, List.pairwise_map]
  exact List.Pairwise.iff_of_mem fun hs ht => not_congr
    (binding_inj (isCapitalized_plural (hnames _ hs)) (isCapitalized_plural (hnames _ ht)))

theorem tables_ne_blocks_iff : (∀ a ∈ tables subjects, ∀ b ∈ blocks subjects, a ≠ b) ↔
    ∀ t ∈ related subjects, plural t.entity.name ++ "Relation" ∉ subjects.map fun s => s.entity.name := by
  have hiff {s t : Subject} (hs : s ∈ subjects) (ht : t ∈ related subjects) :=
    tableBinding_eq_append_iff (hnames s hs) (hnames t (List.mem_of_mem_filter ht))
  constructor
  · intro hdistinct t ht hmem
    obtain ⟨s, hs, hname⟩ := List.mem_map.1 hmem
    exact hdistinct _ (List.mem_map_of_mem hs) _ (List.mem_map_of_mem ht) ((hiff hs ht).2 hname)
  · intro hnone a ha b hb hsame
    obtain ⟨s, hs, rfl⟩ := List.mem_map.1 ha
    obtain ⟨t, ht, rfl⟩ := List.mem_map.1 hb
    exact hnone t ht (List.mem_map.2 ⟨s, hs, (hiff hs ht).1 hsame⟩)

theorem drizzleNames_ne_iff : (∀ a ∈ drizzleNames, ∀ b ∈ tables subjects ++ blocks subjects, a ≠ b) ↔
    "Relation" ∉ subjects.map fun s => s.entity.name := by
  rw [List.mem_map]
  constructor
  · rintro hdistinct ⟨s, hs, hname⟩
    exact hdistinct _ ((tableBinding_mem_drizzleNames_iff (hnames s hs)).2 hname) _
      (List.mem_append_left _ (List.mem_map_of_mem hs)) rfl
  · rintro hnone a ha b hb rfl
    rcases List.mem_append.1 hb with hb | hb
    · obtain ⟨s, hs, rfl⟩ := List.mem_map.1 hb
      exact hnone ⟨s, hs, (tableBinding_mem_drizzleNames_iff (hnames s hs)).1 ha⟩
    · obtain ⟨t, ht, rfl⟩ := List.mem_map.1 hb
      exact block_not_mem_drizzleNames (hnames t (List.mem_of_mem_filter ht)) ha

theorem nodup_bound_drizzle : (drizzle subjects).bound.Nodup ↔
    (subjects.map fun s => plural s.entity.name).Nodup ∧
      "Relation" ∉ (subjects.map fun s => s.entity.name) ∧
      ∀ t ∈ related subjects, plural t.entity.name ++ "Relation" ∉ subjects.map fun s => s.entity.name := by
  have hbound : (drizzle subjects).bound = drizzleNames ++ (tables subjects ++ blocks subjects) := by
    rw [Script.bound, exports_drizzle]
    rfl
  have himported : drizzleNames.Nodup := by decide
  -- The blocks of relations are as distinct as the tables that they are called after.
  have hblocks : (tables subjects).Nodup → (blocks subjects).Nodup := by
    intro htables
    have hnodup := (nodup_map_append "Relations").2 (nodup_map_related subjects htables)
    rwa [List.map_map] at hnodup
  rw [hbound, List.nodup_append, List.nodup_append, tables_ne_blocks_iff hnames, drizzleNames_ne_iff hnames,
    nodup_tables hnames]
  constructor
  · rintro ⟨-, ⟨hplurals, -, hacross⟩, hoverlap⟩
    exact ⟨hplurals, hoverlap, hacross⟩
  · rintro ⟨hplurals, hoverlap, hacross⟩
    exact ⟨himported, ⟨hplurals, hblocks ((nodup_tables hnames).2 hplurals), hacross⟩, hoverlap⟩

end Drizzle

section Graphql

variable (subjects : List Subject)

/-- What the file of object types imports from libraries. -/
def graphqlNames : List String :=
  ["GraphQLBoolean", "GraphQLFloat", "GraphQLInt", "GraphQLList", "GraphQLNonNull", "GraphQLObjectType",
    "GraphQLString", "Container"]

/-- The members of the enumeration of models. -/
def members : List String := subjects.map fun s => Identifier.screamingSnake s.entity.name

theorem bound_graphql : (graphql subjects).bound = graphqlNames ++
    ((subjects.map fun s => s.entity.name ++ "Entity") ++
      (members subjects).map (· ++ "_REPO_INJECT_TOKEN")) ++
      (["typeDefs"] ++ subjects.flatMap fun s => [s.entity.name ++ "Type"] ++
        if s.accessors.isEmpty then [] else [s.entity.name ++ "Resolvers"]) := by
  have htokens (d : Subject → String) :
      (subjects.map fun s => Import.named [s.names.token] (d s)).flatMap Import.imported =
        (members subjects).map (· ++ "_REPO_INJECT_TOKEN") := by
    rw [members, List.flatMap_map, List.map_map, List.map_eq_flatMap]
    rfl
  rw [Script.bound, exports_graphql, graphql, repositoryImports, List.flatMap_cons, List.flatMap_cons,
    List.flatMap_cons, htokens]
  rfl

/-- The types and the resolvers of one entity stand together; set apart, they go by their endings. -/
theorem perm_bound_graphql : (graphql subjects).bound.Perm
    (graphqlNames ++ (subjects.map fun s => s.entity.name).map (· ++ "Type") ++
      (subjects.map fun s => s.entity.name).map (· ++ "Entity") ++
      (members subjects).map (· ++ "_REPO_INJECT_TOKEN") ++
      (["typeDefs"] ++ ((related subjects).map fun s => s.entity.name).map (· ++ "Resolvers"))) := by
  have hexports := List.flatMap_append_perm subjects (fun s => [s.entity.name ++ "Type"]) fun s =>
    if s.accessors.isEmpty then [] else [s.entity.name ++ "Resolvers"]
  rw [bound_graphql, List.perm_iff_count]
  intro name
  have hcount := hexports.count_eq name
  rw [← List.map_eq_flatMap, ← map_related subjects fun s => s.entity.name ++ "Resolvers"] at hcount
  simp only [List.map_map, Function.comp_def, List.count_append] at hcount ⊢
  omega

variable {subjects}

theorem nodup_graphqlTypes {names : List String} :
    (graphqlNames ++ names.map (· ++ "Type")).Nodup ↔ names.Nodup ∧ "GraphQLObject" ∉ names := by
  have himported : graphqlNames.Nodup := by decide
  have hending : ∀ name ∈ graphqlNames,
      name.toList.getLast? = some 'e' → name = "GraphQLObject" ++ "Type" := by decide
  rw [List.nodup_append, nodup_map_append, and_iff_right himported]
  refine and_congr_right fun _ => ?_
  constructor
  · intro hdisjoint hmem
    exact hdisjoint ("GraphQLObject" ++ "Type") (by decide) _ (List.mem_map_of_mem hmem) rfl
  · rintro hnone a ha b hb rfl
    obtain ⟨name, hname, rfl⟩ := List.mem_map.1 hb
    obtain rfl := (String.append_left_inj "Type").1 (hending _ ha (getLast?_append_text rfl))
    exact hnone hname

/-- No resolvers are called `typeDefs`, which is too short a name for that. -/
theorem nodup_resolvers {names : List String} (h : names.Nodup) :
    (["typeDefs"] ++ names.map (· ++ "Resolvers")).Nodup := by
  refine List.nodup_cons.2 ⟨?_, (nodup_map_append _).2 h⟩
  intro hmem
  obtain ⟨name, -, hname⟩ := List.mem_map.1 hmem
  have hlength := congrArg String.length hname
  rw [String.length_append] at hlength
  have hshorter : "typeDefs".length < "Resolvers".length := by decide
  omega

theorem nodup_bound_graphql : (graphql subjects).bound.Nodup ↔
    (members subjects).Nodup ∧ "GraphQLObject" ∉ subjects.map fun s => s.entity.name := by
  have himported : EndIn graphqlNames ['n', 't', 'l', 'e', 'g', 'r'] := by
    unfold EndIn
    decide
  have hdefinitions : EndIn ["typeDefs"] ['s'] := by
    unfold EndIn
    decide
  have htypes := himported.append (endIn_map_append "Type" 'e' rfl (subjects.map fun s => s.entity.name))
  have hentities := endIn_map_append "Entity" 'y' rfl (subjects.map fun s => s.entity.name)
  have htokens := endIn_map_append "_REPO_INJECT_TOKEN" 'N' rfl (members subjects)
  have hresolvers := hdefinitions.append
    (endIn_map_append "Resolvers" 's' rfl ((related subjects).map fun s => s.entity.name))
  rw [(perm_bound_graphql subjects).nodup_iff,
    nodup_append_of_endings ((htypes.append hentities).append htokens) hresolvers (by simp),
    nodup_append_of_endings (htypes.append hentities) htokens (by simp),
    nodup_append_of_endings htypes hentities (by simp), nodup_graphqlTypes, nodup_map_append,
    nodup_map_append]
  constructor
  · rintro ⟨⟨⟨⟨-, hobject⟩, -⟩, htokens⟩, -⟩
    exact ⟨htokens, hobject⟩
  · rintro ⟨htokens, hobject⟩
    -- Names that are the same are the same in capitals.
    have hnames : (subjects.map fun s => s.entity.name).Nodup := by
      refine List.Nodup.of_map Identifier.screamingSnake ?_
      rwa [List.map_map]
    exact ⟨⟨⟨⟨hnames, hobject⟩, hnames⟩, htokens⟩, nodup_resolvers (nodup_map_related subjects hnames)⟩

end Graphql

theorem text_modelTypes (subjects : List Subject) :
    (modelTypes subjects).text = lines (["export enum ModelTypes \x7b"] ++
      ((members subjects).map fun member => s!"  {member} = \"{member}\",") ++ ["\x7d"]) := by
  have htext : (modelTypes subjects).text = "export enum ModelTypes" ++ lines ([" \x7b"] ++
      ((members subjects).map fun member => s!"  {member} = \"{member}\",") ++ ["\x7d"]) := by
    rw [members, List.map_map]
    simp only [Script.text, modelTypes, List.map_cons, List.map_nil, String.join_cons, String.join_nil,
      String.append_empty]
    rfl
  rw [htext, lines, lines, List.append_assoc, List.append_assoc, List.singleton_append, List.singleton_append,
    List.map_cons, List.map_cons, String.join_cons, String.join_cons, ← String.append_assoc]
  rfl

end Aggregate

section Schema

variable {schema : Schema} {policy : OwnerPolicy} {subjects : List Subject}
  (h : schema.subjects policy = .ok subjects)

include h

theorem accessors_eq_nil_iff {subject : Subject} (hsubject : subject ∈ subjects) :
    subject.accessors = [] ↔ subject.entity.relations = [] := by
  obtain ⟨resolved, hresolve, hmap⟩ := bind_eq_ok.1 h
  obtain rfl := pure_eq_ok.1 hmap
  obtain ⟨result, hresult, rfl⟩ := List.mem_map.1 hsubject
  have hkinds := congrArg List.length (Graphql.kinds_of_accessors hresolve hresult)
  rw [List.length_map, List.length_map] at hkinds
  rw [← List.length_eq_zero_iff, ← List.length_eq_zero_iff]
  exact Eq.congr hkinds rfl

theorem map_names_of_subjects {α : Type} (f : String → α) :
    (subjects.map fun s => f s.entity.name) = schema.entities.map fun entity => f entity.name := by
  rw [← Schema.entities_of_subjects h, List.map_map]
  rfl

theorem forall_subjects_iff {P : Entity → Prop} :
    (∀ s ∈ subjects, P s.entity) ↔ ∀ entity ∈ schema.entities, P entity := by
  rw [← Schema.entities_of_subjects h, List.forall_mem_map]

/-- A block of relations stands for an entity that has some. -/
theorem forall_related_iff {P : Entity → Prop} :
    (∀ s ∈ Aggregate.related subjects, P s.entity) ↔
      ∀ entity ∈ schema.entities, entity.relations ≠ [] → P entity := by
  rw [← forall_subjects_iff h, Aggregate.related, List.forall_mem_filter]
  refine forall₂_congr fun s hs => ?_
  rw [ne_eq, ← accessors_eq_nil_iff h hs]
  simp

end Schema

/-- Where the names of entities begin with a capital, a module about all entities binds distinct names as long
as what is made of them stays apart from what is imported and among itself. Two plurals can be the same, and
so can two names in capitals; and one entity can be called like the relations of another. -/
theorem bindings_distinct_iff {schema : Schema} {policy : OwnerPolicy} {layout : Layout}
    {artifacts : List Artifact} (h : schema.generate policy layout = .ok artifacts)
    (hnames : ∀ entity ∈ schema.entities, Identifier.isCapitalized entity.name = true) :
    ∃ subjects, schema.subjects policy = .ok subjects ∧
      (∀ file ∈ Aggregate.scripts subjects, ∃ a ∈ artifacts,
        a.path = layout.generated.join ⟨file.1⟩ ∧ a.contents = file.2.text) ∧
      ((Aggregate.sequelize subjects).bound.Nodup ↔
        (schema.entities.map Entity.name).Nodup ∧ "DataTypes" ∉ schema.entities.map Entity.name) ∧
      ((Aggregate.drizzle subjects).bound.Nodup ↔
        (schema.entities.map fun entity => Identifier.plural entity.name).Nodup ∧
          "Relation" ∉ schema.entities.map Entity.name ∧
          ∀ entity ∈ schema.entities, entity.relations ≠ [] →
            Identifier.plural entity.name ++ "Relation" ∉ schema.entities.map Entity.name) ∧
      ((Aggregate.graphql subjects).bound.Nodup ↔
        (schema.entities.map fun entity => Identifier.screamingSnake entity.name).Nodup ∧
          "GraphQLObject" ∉ schema.entities.map Entity.name) ∧
      (Aggregate.modelTypes subjects).text = lines (["export enum ModelTypes \x7b"] ++
        ((Aggregate.members subjects).map fun member => s!"  {member} = \"{member}\",") ++ ["\x7d"]) ∧
      ((Aggregate.members subjects).Nodup ↔
        (schema.entities.map fun entity => Identifier.screamingSnake entity.name).Nodup) := by
  obtain ⟨subjects, -, hsubjects, -, -⟩ := artifacts_of_generate h
  have hcapital := (forall_subjects_iff hsubjects).2 hnames
  have hentity : (subjects.map fun s => s.entity.name) = schema.entities.map Entity.name :=
    map_names_of_subjects hsubjects id
  have hplural := map_names_of_subjects hsubjects Identifier.plural
  have hscreaming := map_names_of_subjects hsubjects Identifier.screamingSnake
  refine ⟨subjects, hsubjects, ?_, ?_, ?_, ?_, Aggregate.text_modelTypes subjects, ?_⟩
  · intro file hfile
    exact exists_artifact_of_module h hsubjects (mem_modules_of_scripts hfile)
  · rw [Aggregate.nodup_bound_sequelize hcapital, hentity]
  · have hblocks := forall_related_iff hsubjects (P := fun entity =>
      Identifier.plural entity.name ++ "Relation" ∉ schema.entities.map Entity.name)
    rw [Aggregate.nodup_bound_drizzle hcapital, hplural, hentity, hblocks]
  · rw [Aggregate.nodup_bound_graphql, Aggregate.members, hscreaming, hentity]
  · rw [Aggregate.members, hscreaming]

theorem bindings_distinct_for_people :
    ∃ artifacts subjects, people.generate .standard .standard = .ok artifacts ∧
      people.subjects .standard = .ok subjects ∧ (Aggregate.sequelize subjects).bound.Nodup ∧
      (Aggregate.drizzle subjects).bound.Nodup ∧ (Aggregate.graphql subjects).bound.Nodup ∧
      (Aggregate.members subjects).Nodup := by
  obtain ⟨artifacts, hgenerate⟩ := Schema.generate_of_resolve people_resolve .standard .standard
  obtain ⟨subjects, hsubjects, -, hsequelize, hdrizzle, hgraphql, -, hmembers⟩ :=
    bindings_distinct_iff hgenerate (by decide)
  exact ⟨artifacts, subjects, hgenerate, hsubjects, hsequelize.2 (by decide), hdrizzle.2 (by decide),
    hgraphql.2 (by decide), hmembers.2 (by decide)⟩

/-- Entities that are called after what is imported, and two whose names differ in case alone. -/
def homonyms : Schema where
  entities := ["DataTypes", "Relation", "GraphQLObject", "User", "USER"].map fun name =>
    { name, tableName := Identifier.snake name, fields := [], indexes := [], relations := [] }
  api := .standard

/-- All four files bind a name twice, though every name is of letters and begins with a capital. -/
theorem bindings_clash_for_homonyms :
    ∃ artifacts subjects, homonyms.generate .standard .standard = .ok artifacts ∧
      homonyms.subjects .standard = .ok subjects ∧ (homonyms.entities.map Entity.name).Nodup ∧
      (∀ entity ∈ homonyms.entities, Identifier.isCapitalized entity.name = true ∧
        entity.name.toList.all isAsciiLetter = true) ∧
      ¬(Aggregate.sequelize subjects).bound.Nodup ∧ ¬(Aggregate.drizzle subjects).bound.Nodup ∧
      ¬(Aggregate.graphql subjects).bound.Nodup ∧ ¬(Aggregate.members subjects).Nodup := by
  have hresolve : homonyms.resolve = .ok (homonyms.entities.map (⟨·, []⟩)) := by decide
  obtain ⟨artifacts, hgenerate⟩ := Schema.generate_of_resolve hresolve .standard .standard
  have hsubjects := subjects_of_resolve hresolve .standard
  have hcapital : ∀ entity ∈ homonyms.entities, Identifier.isCapitalized entity.name = true := by decide
  have hnames := (forall_subjects_iff hsubjects).2 hcapital
  refine ⟨artifacts, _, hgenerate, hsubjects, by decide, by decide, ?_, ?_, ?_, by decide⟩
  · rw [Aggregate.nodup_bound_sequelize hnames]
    decide
  · rw [Aggregate.nodup_bound_drizzle hnames]
    decide
  · rw [Aggregate.nodup_bound_graphql]
    decide

end EntityForge
