import EntityForge.Proofs.Json.MergePaths
import EntityForge.PublishedApi

/-!
Fragments merged into a document one after the other, some of which may be refused.

A text that is no JSON is reported and leaves the document as it is, so that in the end all those texts have been
merged that are JSON, in their order, and nothing else has happened. Main statements: `takeAll_eq`,
`mergeTexts_eq_ok_iff` and `merging_keeps`.
-/

namespace EntityForge

namespace PublishedApi

/-- The document after a fragment has been handed in, and what that was refused for if it was. -/
def take (document : Json) (fragment : String) : Json × Option Json.Fault :=
  match mergeText document fragment with
  | .ok merged => (merged, none)
  | .error fault => (document, some fault)

/-- The document after all fragments have been handed in, and what became of each. -/
def takeAll (document : Json) : List String → Json × List (Option Json.Fault)
  | [] => (document, [])
  | fragment :: fragments =>
    let next := take document fragment
    let last := takeAll next.1 fragments
    (last.1, next.2 :: last.2)

/-- What a text says that is JSON. -/
def valueOf? (fragment : String) : Option Json :=
  match Json.parse fragment with
  | .ok value => some value
  | .error _ => none

/-- What a text is refused for that is no JSON. -/
def faultOf? (fragment : String) : Option Json.Fault :=
  match Json.parse fragment with
  | .ok _ => none
  | .error fault => some fault

theorem take_of_parse {fragment : String} {value : Json} (h : Json.parse fragment = .ok value)
    (document : Json) : take document fragment = (document.merge value, none) := by
  rw [take, mergeText, h]
  rfl

theorem take_of_fault {fragment : String} {fault : Json.Fault} (h : Json.parse fragment = .error fault)
    (document : Json) : take document fragment = (document, some fault) := by
  rw [take, mergeText, h]
  rfl

/-- The document is merged with every text that is JSON, and each of the others is reported. -/
theorem takeAll_eq (document : Json) (fragments : List String) :
    takeAll document fragments =
      ((fragments.filterMap valueOf?).foldl Json.merge document, fragments.map faultOf?) := by
  induction fragments generalizing document with
  | nil => rfl
  | cons fragment fragments ih =>
    rw [takeAll, ih, List.map_cons, faultOf?]
    cases hparse : Json.parse fragment with
    | ok value =>
      have hvalue : valueOf? fragment = some value := by rw [valueOf?, hparse]
      rw [take_of_parse hparse, List.filterMap_cons_some hvalue, List.foldl_cons]
    | error fault =>
      have hvalue : valueOf? fragment = none := by rw [valueOf?, hparse]
      rw [take_of_fault hparse, List.filterMap_cons_none hvalue]

/-- Fragments that are merged all or none come to the same document where none of them is refused. -/
theorem mergeTexts_eq_ok_iff {document merged : Json} {fragments : List String} :
    mergeTexts document fragments = .ok merged ↔
      takeAll document fragments = (merged, fragments.map fun _ => none) := by
  rw [takeAll_eq, Prod.mk.injEq, List.map_inj_left]
  induction fragments generalizing document with
  | nil => simp [mergeTexts, pure, Except.pure]
  | cons fragment fragments ih =>
    unfold mergeTexts at ih ⊢
    rw [List.foldlM_cons, List.forall_mem_cons, faultOf?, mergeText]
    cases hparse : Json.parse fragment with
    | ok value =>
      have hvalue : valueOf? fragment = some value := by rw [valueOf?, hparse]
      rw [List.filterMap_cons_some hvalue, List.foldl_cons]
      simpa [bind, Except.bind, pure, Except.pure] using ih
    | error fault => simp [bind, Except.bind]

/-- Where no object of the document has a key twice, none has later. -/
theorem keyed_takeAll {document : Json} (h : document.Keyed) (fragments : List String) :
    (takeAll document fragments).1.Keyed := by
  induction fragments generalizing document with
  | nil => exact h
  | cons fragment fragments ih =>
    rw [takeAll]
    refine ih ?_
    cases hparse : Json.parse fragment with
    | ok value =>
      rw [take_of_parse hparse]
      exact Json.keyed_merge value h (Json.keyed_of_parse hparse)
    | error fault => rwa [take_of_fault hparse]

theorem keyed_header (api : ApiHeader) : (header api).Keyed := by
  have hservers : Json.KeyedItems (api.servers.map fun server =>
      .object [("url", .string server.url), ("description", .string server.description)]) := by
    refine Json.keyedItems_iff.2 fun item hitem => ?_
    obtain ⟨server, -, rfl⟩ := List.mem_map.1 hitem
    simp [Json.Keyed, Json.KeyedMembers]
  simp [header, Json.Keyed, Json.KeyedMembers, hservers]

end PublishedApi

open PublishedApi (takeAll valueOf? faultOf?)

/-- In a run of fragments all texts that are JSON are merged, and the others are reported and do nothing. A
single merge loses nothing: every path leads to what one of the two values has there, or to both, merged,
unless the value that comes in ends the path sooner with something that is no object. -/
theorem merging_keeps {onto value : Json} (honto : onto.Keyed) (hvalue : value.Keyed) :
    (∀ document fragments, takeAll document fragments =
      ((fragments.filterMap valueOf?).foldl Json.merge document, fragments.map faultOf?)) ∧
      (∀ path, Json.Merges onto value (Json.merge onto value) path) ∧ (Json.merge onto value).Keyed ∧
      (Json.merge onto value).depth ≤ max onto.depth value.depth :=
  ⟨PublishedApi.takeAll_eq, Json.merges_merge honto hvalue, Json.keyed_merge value honto hvalue,
    Json.depth_merge value onto⟩

/-- A place with an object, a list and a text in it. -/
def settings : Json :=
  .object [("x", .object [("k", Json.ofInt 1), ("list", .array [Json.ofInt 1])]), ("s", .string "old")]

/-- Something new for each of them. -/
def changes : Json :=
  .object [("x", .object [("j", Json.ofInt 2), ("list", .array [Json.ofInt 2])]), ("s", .string "new")]

theorem merging_keeps_settings :
    settings.Keyed ∧ changes.Keyed ∧
      ((Json.merge settings changes).member? ["x"]).map Json.keys = some ["k", "list", "j"] ∧
      (Json.merge settings changes).member? ["x", "k"] = some (Json.ofInt 1) ∧
      (Json.merge settings changes).member? ["x", "list"] = some (.array [Json.ofInt 1, Json.ofInt 2]) ∧
      (Json.merge settings changes).member? ["s"] = some (.string "new") ∧
      (Json.merge settings changes).depth ≤ 3 := by
  have hsettings : settings.Keyed := by
    simp [settings, Json.Keyed, Json.KeyedMembers, Json.KeyedItems, Json.ofInt]
  have hchanges : changes.Keyed := by
    simp [changes, Json.Keyed, Json.KeyedMembers, Json.KeyedItems, Json.ofInt]
  obtain ⟨-, hmerges, -, hdepth⟩ := merging_keeps hsettings hchanges
  refine ⟨hsettings, hchanges, by decide, (hmerges ["x", "k"]).old _ rfl rfl ?_,
    (hmerges ["x", "list"]).arrays _ _ rfl rfl,
    (hmerges ["s"]).conflict _ _ rfl rfl (by decide) (by decide), hdepth⟩
  simp [changes, Json.cuts_cons_iff, Json.not_cuts_nil, Json.get?, Entries.get?, Json.isObject]

/-- A place with something below it. -/
def filled : Json :=
  .object [("a", .object [("b", Json.ofInt 1)])]

/-- The same place, with a number there. -/
def plain : Json :=
  .object [("a", Json.ofInt 5)]

/-- What stands below a place is lost where something comes in that is no object, though at its own path there
is nothing it is in conflict with. -/
theorem filled_not_kept :
    filled.Keyed ∧ plain.Keyed ∧ filled.member? ["a", "b"] = some (Json.ofInt 1) ∧
      plain.member? ["a", "b"] = none ∧ (Json.merge filled plain).member? ["a", "b"] = none := by
  have hfilled : filled.Keyed := by simp [filled, Json.Keyed, Json.KeyedMembers, Json.ofInt]
  have hplain : plain.Keyed := by simp [plain, Json.Keyed, Json.KeyedMembers, Json.ofInt]
  exact ⟨hfilled, hplain, rfl, rfl, rfl⟩

end EntityForge
