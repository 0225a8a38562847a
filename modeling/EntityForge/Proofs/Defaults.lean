import EntityForge.Proofs.DocumentOrder
import EntityForge.Proofs.Json.Literal
import EntityForge.Proofs.Json.RoundTrip
import EntityForge.Proofs.Runs

/-!
How the default of a field comes from a text into the table of its entity.

A text states it by a node that is read as one of five forms, and a table by the last call of the column. Which call
this is follows from the node alone: integers and words are spelled alike in both, a string is quoted in the table so
that it is read back, and a field without a default has no such call. Main statements: `Drizzle.defaultCall_of_read`
and `defaults_survive`.
-/

namespace EntityForge

open Json (Node Numeral Follows)
open Json.Record (Component Takes)

/-- The node that states the default of a field. -/
def Document.defaultIn (part : Node) : Option Node := fieldRecord.part? part "defaultValue"

namespace Document

theorem component_default : Component fieldRecord.fields "defaultValue"
    (fun room node => some <$> DefaultDecl.read room node) FieldDecl.default? := by
  refine .skip (.skip (.skip (.skip (.skip (.skip (.store_map (.skip (.nil _ _ _) ?_ ?_) ?_)
    ?_ ?_) ?_ ?_) ?_ ?_) ?_ ?_) ?_ ?_) ?_ ?_ <;>
      first | exact fun _ _ => rfl | decide

/-- A field has the default that its node is read as, and none without a node. -/
theorem default_of_read {room : Nat} {part : Node} {decl : FieldDecl} (h : fieldRecord.read room part = .ok decl) :
    (defaultIn part = none ∧ decl.default? = none) ∨ ∃ inner node value, defaultIn part = some node ∧
      DefaultDecl.read inner node = .ok value ∧ decl.default? = some value := by
  obtain ⟨inner, htakes⟩ := Json.Record.read_component component_default (by decide) (by decide) h
  change Takes _ (defaultIn part) none decl.default? at htakes
  cases hnode : defaultIn part with
  | none =>
    rw [hnode] at htakes
    exact .inl ⟨rfl, htakes⟩
  | some node =>
    rw [hnode] at htakes
    obtain ⟨value, hvalue, hsome⟩ := map_eq_ok.1 htakes
    exact .inr ⟨inner, node, value, rfl, hvalue, hsome.symm⟩

end Document

theorem FieldDecl.load_default? {name : String} {decl : FieldDecl} {field : Field} (h : decl.load name = .ok field) :
    field.default? = decl.default?.map DefaultDecl.value := by
  unfold load at h
  split at h
  · cases h
  · exact congrArg Field.default? (Except.ok.inj h).symm

namespace Json.Numeral

/-- An integer of 64 bits with a sign; a zero that has one is not meant. -/
structure IsInt64 (n : Numeral) : Prop where
  integral : n.IsIntegral
  signed : ¬n.IsMinusZero
  low : Int64.minValue.toInt ≤ n.integer
  high : n.integer ≤ Int64.maxValue.toInt

theorem IsInt64.read {n : Numeral} (h : n.IsInt64) (hplain : n.IsPlain) : n.read = .ok (.int n.integer) := by
  have hlow : -9223372036854775808 ≤ n.integer := h.low
  have hhigh : n.integer ≤ 9223372036854775807 := h.high
  have hsize : UInt64.size = 18446744073709551616 := rfl
  have hread : (ofInt n.integer).read = .ok (.int n.integer) := read_ofInt (by omega) (by omega)
  rwa [← eq_ofInt hplain h.integral h.signed] at hread

end Json.Numeral

namespace Json.Node

variable {room : Nat} {tear : Option Tear} {json : Json}

theorem eq_array_of_readJson {items : List Node} (h : (array items tear).readJson room = .ok json) :
    ∃ values, json = .array values := by
  cases room with
  | zero => cases h
  | succ inner =>
    obtain ⟨values, -, h⟩ := bind_eq_ok.1 h
    obtain ⟨-, -, h⟩ := bind_eq_ok.1 h
    exact ⟨values, (pure_eq_ok.1 h).symm⟩

theorem eq_object_of_readJson {members : List (Quoted × Node)} (h : (object members tear).readJson room = .ok json) :
    ∃ pairs, json = .object pairs := by
  cases room with
  | zero => cases h
  | succ inner =>
    obtain ⟨pairs, -, h⟩ := bind_eq_ok.1 h
    obtain ⟨-, -, h⟩ := bind_eq_ok.1 h
    exact ⟨Entries.ofList pairs, (pure_eq_ok.1 h).symm⟩

end Json.Node

theorem DefaultDecl.read_eq_ok {room : Nat} {node : Node} {decl : DefaultDecl} :
    read room node = .ok decl ↔ ∃ json, node.readJson room = .ok json ∧ ofJson? json = some decl := by
  refine bind_eq_ok.trans (exists_congr fun json => and_congr_right fun _ => ?_)
  cases ofJson? json with
  | none => exact ⟨nofun, nofun⟩
  | some value => exact pure_eq_ok.trans Option.some_inj.symm

namespace Drizzle

/-- The call by which a column states the default that a node stands for. Of other numbers only the form of the call
is said. -/
inductive DefaultCall : Node → String → Prop
  | null : DefaultCall (.word .null) ".default(null)"
  | true : DefaultCall (.word .true) ".default(true)"
  | false : DefaultCall (.word .false) ".default(false)"
  | now {q : Json.Quoted} (hread : q.read = .ok "now") : DefaultCall (.text q) ".defaultNow()"
  | text {q : Json.Quoted} {s literal : String} (hread : q.read = .ok s) (hnow : s ≠ "now")
      (hliteral : Json.parse literal = .ok (.string s)) : DefaultCall (.text q) (".default(" ++ literal ++ ")")
  | integer {n : Numeral} (hint : n.IsInt64) :
      DefaultCall (.numeral n) (".default(" ++ String.ofList n.spelled ++ ")")
  | number {n : Numeral} (hint : ¬n.IsInt64) (literal : String) :
      DefaultCall (.numeral n) (".default(" ++ literal ++ ")")

theorem defaultCall_word {room : Nat} {w : Json.Word} {decl : DefaultDecl}
    (h : DefaultDecl.read room (.word w) = .ok decl) : DefaultCall (.word w) (defaultText (some decl.value)) := by
  obtain ⟨json, hjson, hdecl⟩ := DefaultDecl.read_eq_ok.1 h
  cases w
  all_goals
    obtain rfl := Except.ok.inj hjson
    obtain rfl := Option.some.inj hdecl
  · exact .null
  · exact .true
  · exact .false

theorem defaultCall_text {room : Nat} {q : Json.Quoted} {decl : DefaultDecl}
    (h : DefaultDecl.read room (.text q) = .ok decl) : DefaultCall (.text q) (defaultText (some decl.value)) := by
  obtain ⟨json, hjson, hdecl⟩ := DefaultDecl.read_eq_ok.1 h
  obtain ⟨s, hs, hjson⟩ := bind_eq_ok.1 hjson
  obtain rfl := pure_eq_ok.1 hjson
  obtain rfl := Option.some.inj hdecl
  by_cases hnow : s = "now"
  · subst hnow
    exact .now hs
  · have hliteral := Json.parse_compactText (Json.readable_string Node.depthLimit s)
    rw [DefaultDecl.value, if_neg hnow]
    exact .text hs hnow hliteral

theorem defaultCall_numeral {room : Nat} {n : Numeral} (hplain : n.IsPlain) {decl : DefaultDecl}
    (h : DefaultDecl.read room (.numeral n) = .ok decl) :
    DefaultCall (.numeral n) (defaultText (some decl.value)) := by
  obtain ⟨json, hjson, hdecl⟩ := DefaultDecl.read_eq_ok.1 h
  obtain ⟨number, hnumber, hjson⟩ := bind_eq_ok.1 hjson
  obtain rfl := pure_eq_ok.1 hjson
  by_cases hint : n.IsInt64
  · obtain rfl := Except.ok.inj ((hint.read hplain).symm.trans hnumber)
    rw [DefaultDecl.ofJson?, if_pos hint.high] at hdecl
    obtain rfl := Option.some.inj hdecl
    have hspelled : String.ofList n.spelled = toString n.integer := by
      conv_lhs => rw [Numeral.eq_ofInt hplain hint.integral hint.signed]
      exact Numeral.spelled_ofInt n.integer
    have hcall := DefaultCall.integer hint
    rwa [hspelled] at hcall
  · -- whether such a number is read as an integer or as a float, the call has this form
    have hform : ∃ literal, defaultText (some decl.value) = ".default(" ++ literal ++ ")" := by
      cases number with
      | int value =>
        rw [DefaultDecl.ofJson?] at hdecl
        split at hdecl <;> exact Option.some.inj hdecl ▸ ⟨_, rfl⟩
      | float value => exact Option.some.inj hdecl ▸ ⟨_, rfl⟩
    obtain ⟨literal, hliteral⟩ := hform
    rw [hliteral]
    exact .number hint literal

/-- The default that is read from a node is stated by the call for this node. -/
theorem defaultCall_of_read {room : Nat} {node : Node} (hplain : ∀ n, node = .numeral n → n.IsPlain)
    {decl : DefaultDecl} (h : DefaultDecl.read room node = .ok decl) :
    DefaultCall node (defaultText (some decl.value)) := by
  cases node with
  | word w => exact defaultCall_word h
  | numeral n => exact defaultCall_numeral (hplain n rfl) h
  | text q => exact defaultCall_text h
  | array items tear =>
    obtain ⟨json, hjson, hdecl⟩ := DefaultDecl.read_eq_ok.1 h
    obtain ⟨values, rfl⟩ := Node.eq_array_of_readJson hjson
    cases hdecl
  | object members tear =>
    obtain ⟨json, hjson, hdecl⟩ := DefaultDecl.read_eq_ok.1 h
    obtain ⟨pairs, rfl⟩ := Node.eq_object_of_readJson hjson
    cases hdecl
  | torn t =>
    obtain ⟨json, hjson, -⟩ := DefaultDecl.read_eq_ok.1 h
    cases hjson

/-- The calls of a column that are about anything but its default. -/
def flags (field : Field) : String :=
  (if field.primaryKey then ".primaryKey()" else "")
    ++ (if field.required && !field.primaryKey then ".notNull()" else "")
    ++ (if field.unique then ".unique()" else "")

/-- The calls that a column makes on its builder. -/
def calls (field : Field) : String := flags field ++ defaultText field.default?

/-- The line of a column: its name, its builder, and the calls on it. -/
def line (field : Field) : String :=
  "  " ++ field.name ++ ": " ++ (Builder.of field).text field.name ++ calls field ++ ",\n"

theorem text_of (field : Field) : (Column.of field).text = line field := by
  simp only [Column.text, Column.of, line, calls, flags, String.append_assoc]
  rfl

/-- A column has the call if and only if its field has a default, since no other call has an `f` in it. -/
theorem isPiece_default_iff (field : Field) : IsPiece ".default" (calls field) ↔ field.default? ≠ none := by
  constructor
  · rintro ⟨before, after, hcalls⟩ hnone
    have hmem : 'f' ∈ (calls field).toList := by
      rw [hcalls]
      simp
    rw [calls, flags, hnone] at hmem
    revert hmem
    cases field.primaryKey <;> cases field.required <;> cases field.unique <;> decide
  · intro hsome
    obtain ⟨value, hvalue⟩ := Option.ne_none_iff_exists'.1 hsome
    obtain ⟨rest, hrest⟩ := defaultText_some value
    rw [calls, hvalue, hrest]
    exact .append_left (.append_right (.refl _) _) _

/-- The calls of a column state the default of a part of the text, if it has one, and end with it. -/
structure KeepsDefault (part : Node) (field : Field) : Prop where
  absent : Document.defaultIn part = none ↔ ¬IsPiece ".default" (calls field)
  stated : ∀ node, Document.defaultIn part = some node →
    ∃ before call, DefaultCall node call ∧ calls field = before ++ call

theorem keepsDefault_of_declaredBy {part : Node} (hplain : ∀ n, .numeral n ∈ part.lexemes → n.IsPlain) {field : Field}
    (h : field.DeclaredBy part) : KeepsDefault part field := by
  obtain ⟨room, decl, hread, hload⟩ := h
  have hdefault := FieldDecl.load_default? hload
  rcases Document.default_of_read hread with ⟨hnode, hnone⟩ | ⟨inner, node, value, hnode, hvalue, hsome⟩
  · rw [hnone, Option.map_none] at hdefault
    refine ⟨iff_of_true hnode ?_, fun node hsome => absurd (hnode.symm.trans hsome) nofun⟩
    rwa [isPiece_default_iff, not_not]
  · rw [hsome, Option.map_some] at hdefault
    have hcalled : IsPiece ".default" (calls field) := by
      rw [isPiece_default_iff, hdefault]
      exact Option.some_ne_none _
    have hnumeral (n : Numeral) (hn : node = .numeral n) : n.IsPlain := by
      refine hplain n (Json.Record.lexemes_of_part? hnode ?_)
      rw [hn]
      exact List.mem_cons_self
    refine ⟨iff_of_false (hnode ▸ Option.some_ne_none node) (not_not.2 hcalled), fun other hother => ?_⟩
    obtain rfl := Option.some.inj (hnode.symm.trans hother)
    refine ⟨flags field, _, defaultCall_of_read hnumeral hvalue, ?_⟩
    rw [calls, hdefault]

/-- A table begins with the lines of the fields, in their order. -/
theorem text_drizzleTable (subject : Subject) : ∃ rest, Surface.drizzleTable.text subject =
    "export const " ++ subject.names.tableBinding ++ " = pgTable(\"" ++ subject.entity.tableName ++ "\", \x7b\n"
      ++ String.join (subject.entity.fields.map line) ++ "\x7d" ++ rest := by
  have hend (isEmpty : Bool) (extras : String) : ∃ rest,
      (if isEmpty then "\x7d);\n" else "\x7d, (table) => [\n" ++ extras ++ "]);\n") = "\x7d" ++ rest := by
    cases isEmpty with
    | true => exact ⟨");\n", rfl⟩
    | false => exact ⟨", (table) => [\n" ++ extras ++ "]);\n", by simp only [← String.append_assoc]; rfl⟩
  obtain ⟨rest, hrest⟩ := hend (Table.of subject).extras.isEmpty
    (String.join ((Table.of subject).extras.map (Extra.text subject.entity.tableName)))
  have hlines : (Table.of subject).columns.map Column.text = subject.entity.fields.map line := by
    rw [Table.of, List.map_map]
    exact List.map_congr_left fun field _ => text_of field
  have hbody : (Table.of subject).declaration.body = " = " ++ ("pgTable(\"" ++ subject.entity.tableName
      ++ "\", \x7b\n" ++ String.join ((Table.of subject).columns.map Column.text) ++ ("\x7d" ++ rest)) := by
    rw [← hrest]
    rfl
  refine ⟨rest, ?_⟩
  calc
    Surface.drizzleTable.text subject
      = "" ++ "export " ++ "const" ++ " " ++ subject.names.tableBinding ++ (Table.of subject).declaration.body := rfl
    _ = "export const " ++ subject.names.tableBinding ++ " = pgTable(\"" ++ subject.entity.tableName
        ++ "\", \x7b\n" ++ String.join (subject.entity.fields.map line) ++ "\x7d" ++ rest := by
      have hhead : "export const " = "" ++ "export " ++ "const" ++ " " := rfl
      have hopen : " = pgTable(\"" = " = " ++ "pgTable(\"" := rfl
      rw [hbody, hlines, hhead, hopen]
      simp only [String.append_assoc]

end Drizzle

/-- The table of an entity states the defaults of the fields as a model of the text does. -/
structure Entity.KeepsDefaults (model : Node) (entity : Entity) : Prop where
  lines : ∀ subject : Subject, subject.entity = entity → ∃ rest, Surface.drizzleTable.text subject =
    "export const " ++ subject.names.tableBinding ++ " = pgTable(\"" ++ entity.tableName ++ "\", \x7b\n"
      ++ String.join (entity.fields.map Drizzle.line) ++ "\x7d" ++ rest
  fields : Follows Field.name Drizzle.KeepsDefault (Document.fieldsIn model) entity.fields

/-- Every default of a text is stated by the column of its field, and no column states another one. -/
theorem defaults_survive {text : String} {schema : Schema} (h : Schema.ofText text = .ok schema) :
    ∃ root, Json.lex text = root.lexemes ∧
      Follows Entity.name Entity.KeepsDefaults (Document.modelsIn root) schema.entities := by
  obtain ⟨root, hlex, hkeeps⟩ := Schema.keeps_of_ofText h
  refine ⟨root, hlex, hkeeps.entities.keys, fun entity hentity => ?_⟩
  obtain ⟨model, hmodel, hdeclared⟩ := hkeeps.entities.made entity hentity
  refine ⟨model, hmodel, ?_, hdeclared.fields.keys, fun field hfield => ?_⟩
  · rintro subject rfl
    exact Drizzle.text_drizzleTable subject
  · obtain ⟨part, hpart, hfield⟩ := hdeclared.fields.made field hfield
    refine ⟨part, hpart, Drizzle.keepsDefault_of_declaredBy (fun n hn => ?_) hfield⟩
    have hmodelPart : part.lexemes ⊆ model.lexemes := Json.Record.lexemes_of_mapAt hpart.mem
    have hrootPart : model.lexemes ⊆ root.lexemes := Json.Record.lexemes_of_mapAt hmodel.mem
    apply Json.isPlain_of_mem_lex
    rw [hlex]
    exact hrootPart (hmodelPart hn)

/-- A document with a default of every kind but a number that is none of 64 bits. -/
def notes.lines : List String := [
  "\x7b\"models\": \x7b\"Note\": \x7b\"tableName\": \"notes\", \"fields\": \x7b",
  "\"rank\": \x7b\"dataType\": \"integer\", \"defaultValue\": -9223372036854775808, \"required\": true\x7d, ",
  "\"sent_at\": \x7b\"dataType\": \"datetime\", \"defaultValue\": \"n\\u006fw\"\x7d, ",
  "\"title\": \x7b\"dataType\": \"string\", \"defaultValue\": \"say \\\"now\\\"\\n\", \"unique\": true\x7d, ",
  "\"body\": \x7b\"dataType\": \"text\", \"defaultValue\": null\x7d, ",
  "\"color\": \x7b\"dataType\": \"string\"\x7d, ",
  "\"done\": \x7b\"dataType\": \"boolean\", \"defaultValue\": false\x7d\x7d\x7d\x7d\x7d"]

def notes.text : String := String.join notes.lines

def notes : Schema where
  entities := [
    { name := "Note"
      tableName := "notes"
      fields := [
        ⟨"rank", .integer, true, false, false, none, none, some (.int (-9223372036854775808)), none⟩,
        ⟨"sent_at", .datetime, false, false, false, none, none, some .now, none⟩,
        ⟨"title", .string, false, false, true, none, none, some (.text "say \"now\"\n"), none⟩,
        ⟨"body", .text, false, false, false, none, none, some .null, none⟩,
        ⟨"color", .string, false, false, false, none, none, none, none⟩,
        ⟨"done", .boolean, false, false, false, none, none, some (.flag false), none⟩]
      indexes := []
      relations := [] }]
  api := .standard

theorem notes_ofText : Schema.ofText notes.text = .ok notes := by
  rw [Schema.ofText, Document.parse, Json.readText, Json.Node.ofText, Json.lex, notes.text, String.toList_join]
  decide +kernel

theorem defaults_survive_for_notes :
    Schema.ofText notes.text = .ok notes ∧
      (∃ root, Json.lex notes.text = root.lexemes ∧
        Follows Entity.name Entity.KeepsDefaults (Document.modelsIn root) notes.entities) ∧
      (notes.entities.flatMap Entity.fields).map Drizzle.calls = [
        ".notNull().default(-9223372036854775808)",
        ".defaultNow()",
        ".unique().default(\"say \\\"now\\\"\\n\")",
        ".default(null)",
        "",
        ".default(false)"] :=
  ⟨notes_ofText, defaults_survive notes_ofText, by decide +kernel⟩

end EntityForge
