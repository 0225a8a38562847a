import EntityForge.Proofs.DocumentOrder
import EntityForge.Proofs.Json.Variation

/-!
Texts that hold the same document.

Wherever a part of a document is written as an object, its members may come in any order and among others that the
part does not know. The entries of a map and the items of a list stay where they are. Main statement:
`Document.parse_of_varies`.
-/

namespace EntityForge

open Json (Inner Itemwise Memberwise Node Quoted Rearranged Record Varied membersOf membersOf_eq_map nodeOf quotedOf
  read_quotedOf whole_nodeOf)

namespace Document

/-! How the parts of a document vary, each with the parts that it is made of. -/

def ReferenceVaries : Node → Node → Prop := Rearranged referenceRecord []

def FieldVaries : Node → Node → Prop := Rearranged fieldRecord [("references", ReferenceVaries)]

def IndexVaries : Node → Node → Prop := Rearranged indexRecord []

def ModelVaries : Node → Node → Prop :=
  Rearranged modelRecord [("fields", Memberwise FieldVaries), ("indexes", Itemwise IndexVaries)]

def RelationVaries : Node → Node → Prop := Rearranged relationRecord []

def BlockVaries : Node → Node → Prop :=
  Rearranged relationBlockRecord (RelationKind.all.map fun kind => (kind.name, Memberwise RelationVaries))

def ServerVaries : Node → Node → Prop := Rearranged serverRecord []

def ApiVaries : Node → Node → Prop := Rearranged apiRecord [("servers", Itemwise ServerVaries)]

/-- A tree that holds the members of each part of a document in another order, or among others. -/
def Varies : Node → Node → Prop :=
  Rearranged record [("models", Memberwise ModelVaries), ("relationships", Memberwise BlockVaries),
    ("api", ApiVaries)]

/-! The reader of a part does not notice how it varies: no field stores what another one does, and the readers of the
parts in it do not notice how those vary. -/

theorem varied_reference : Varied ReferenceVaries referenceRecord.read :=
  .record (by simp [referenceRecord]) nofun

theorem varied_field : Varied FieldVaries fieldRecord.read := by
  refine .record (by simp [fieldRecord]) (List.forall_mem_singleton.2 ?_)
  exact .of rfl (varied_reference.optional Rearranged.null_iff)

theorem varied_index : Varied IndexVaries indexRecord.read := .record (by simp [indexRecord]) nofun

theorem varied_model : Varied ModelVaries modelRecord.read := by
  refine .record (by simp [modelRecord]) (List.forall_mem_cons.2 ⟨?_, List.forall_mem_singleton.2 ?_⟩)
  · exact .of rfl varied_field.map
  · exact .of rfl varied_index.list

theorem varied_relation : Varied RelationVaries relationRecord.read := .record (by simp [relationRecord]) nofun

theorem varied_block : Varied BlockVaries relationBlockRecord.read := by
  refine .record (by simp [relationBlockRecord]) fun component hcomponent => ?_
  obtain ⟨kind, -, rfl⟩ := List.mem_map.1 hcomponent
  cases kind <;> exact .of rfl varied_relation.map

theorem varied_server : Varied ServerVaries serverRecord.read := .record (by simp [serverRecord]) nofun

theorem varied_api : Varied ApiVaries apiRecord.read := by
  refine .record (by simp [apiRecord]) (List.forall_mem_singleton.2 ?_)
  exact .of rfl varied_server.list

theorem varied_record : Varied Varies record.read := by
  refine .record (by simp [record]) (List.forall_mem_cons.2 ⟨?_, List.forall_mem_cons.2 ⟨?_,
    List.forall_mem_singleton.2 ?_⟩⟩)
  · exact .of rfl (varied_model.map.optional Memberwise.null_iff)
  · exact .of rfl varied_block.map
  · exact .of rfl varied_api

/-- What a text holds does not depend on the order in which its parts have their members, nor on any members that
they do not know. It may be laid out anew as well. -/
theorem parse_of_varies {text other : String} {doc : Document} {tree : Node} (h : parse text = .ok doc)
    (hvaries : Varies (Node.ofText text).1 tree) (hlex : Json.lex other = tree.lexemes) : parse other = .ok doc := by
  obtain ⟨value, hvalue, hrest⟩ := bind_eq_ok.1 h
  obtain rfl : value = doc := by
    split at hrest
    · exact pure_eq_ok.1 hrest
    · cases hrest
  have hwhole := varied_record.whole hvaries (Json.whole_of_untorn (Record.untorn_of_read hvalue))
  rw [parse, Json.readText, Json.ofText_of_whole hwhole hlex]
  exact bind_eq_ok.2 ⟨value, varied_record.read_eq hvaries hvalue, rfl⟩

/-! Two texts of one document. In the second one every part has its members the other way round, after a deep value
under a key that no part knows. -/

def albums.lines : List String := [
  "\x7b\"models\": \x7b\"Song\": \x7b\"tableName\": \"songs\", \"fields\": \x7b\"album\": ",
  "\x7b\"dataType\": \"integer\", \"references\": \x7b\"model\": \"Album\"\x7d\x7d\x7d\x7d\x7d, ",
  "\"api\": \x7b\"title\": \"Songs\"\x7d\x7d"]

def albums.turnedLines : List String := [
  "\x7b\"#\": [[[]]], \"api\": \x7b\"#\": [[[]]], \"title\": \"Songs\"\x7d, \"models\": ",
  "\x7b\"Song\": \x7b\"#\": [[[]]], \"fields\": \x7b\"album\": \x7b\"#\": [[[]]], \"references\": ",
  "\x7b\"#\": [[[]]], \"model\": \"Album\"\x7d, \"dataType\": \"integer\"\x7d\x7d, ",
  "\"tableName\": \"songs\"\x7d\x7d\x7d"]

def albums : Document where
  models := some [("Song", ⟨"songs",
    [("album", ⟨"integer", false, false, false, none, none, none, some "Album"⟩)], []⟩)]
  relationships := []
  api := { ApiHeader.standard with title := "Songs" }

/-- What both texts say, where `part` makes a part of its members. -/
def albums.json (part : List (String × Json) → Json) : Json :=
  part [
    ("models", .object [("Song", part [
      ("tableName", .string "songs"),
      ("fields", .object [("album", part [
        ("dataType", .string "integer"),
        ("references", part [("model", .string "Album")])])])])]),
    ("api", part [("title", .string "Songs")])]

def unknown : Json := .array [.array [.array []]]

def turned (members : List (String × Json)) : Json := .object (("#", unknown) :: members.reverse)

theorem rearranged_turned {α : Type} {r : Record α} {inner : Inner} (hunknown : r.field? "#" = none)
    {members others : List (String × Json)} (each : List.Forall₂ inner.Varies (membersOf members) (membersOf others)) :
    Rearranged r inner (nodeOf (.object members)) (nodeOf (turned others)) := by
  have hignored : r.Ignores (quotedOf "#", nodeOf unknown) :=
    ⟨⟨"#", read_quotedOf "#", hunknown⟩, whole_nodeOf unknown⟩
  refine .members each (List.forall_mem_singleton.2 hignored) ?_
  simp only [membersOf_eq_map, List.map_cons, List.map_reverse]
  exact ((List.reverse_perm _).cons _).trans (List.perm_append_singleton _ _).symm

theorem varies_under {inner : Inner} {key : String} {vary : Node → Node → Prop} {node other : Node}
    (hmem : (key, vary) ∈ inner) (h : vary node other) : inner.Varies (quotedOf key, node) (quotedOf key, other) :=
  ⟨rfl, .inr ⟨_, hmem, read_quotedOf key, h⟩⟩

theorem albums_vary : Varies (nodeOf (albums.json .object)) (nodeOf (albums.json turned)) := by
  have hsame {inner : Inner} (member : Quoted × Node) : inner.Varies member member := ⟨rfl, .inl rfl⟩
  refine rearranged_turned rfl (.cons (varies_under (.head _) (.members (.cons ⟨rfl, ?_⟩ .nil)))
    (.cons (varies_under (.tail _ (.tail _ (.head _))) ?_) .nil))
  · refine rearranged_turned rfl (.cons (hsame _)
      (.cons (varies_under (.head _) (.members (.cons ⟨rfl, ?_⟩ .nil))) .nil))
    refine rearranged_turned rfl (.cons (hsame _) (.cons (varies_under (.head _) ?_) .nil))
    exact rearranged_turned rfl (.cons (hsame _) .nil)
  · exact rearranged_turned rfl (.cons (hsame _) .nil)

theorem parse_of_turned_albums :
    parse (String.join albums.lines) = .ok albums ∧
      Varies (Node.ofText (String.join albums.lines)).1 (nodeOf (albums.json turned)) ∧
      Json.lex (String.join albums.turnedLines) = (nodeOf (albums.json turned)).lexemes ∧
      parse (String.join albums.turnedLines) = .ok albums := by
  have hlex : Json.lex (String.join albums.lines) = (nodeOf (albums.json .object)).lexemes := by
    rw [Json.lex, String.toList_join]
    decide +kernel
  have hparse : parse (String.join albums.lines) = .ok albums := by
    rw [parse, Json.readText, Json.ofText_of_whole (whole_nodeOf _) hlex]
    decide +kernel
  have hvaries : Varies (Node.ofText (String.join albums.lines)).1 (nodeOf (albums.json turned)) := by
    rw [Json.ofText_of_whole (whole_nodeOf _) hlex]
    exact albums_vary
  have hturned : Json.lex (String.join albums.turnedLines) = (nodeOf (albums.json turned)).lexemes := by
    rw [Json.lex, String.toList_join]
    decide +kernel
  exact ⟨hparse, hvaries, hturned, parse_of_varies hparse hvaries hturned⟩

end Document

end EntityForge
