import EntityForge.Proofs.Json.MergePaths
import Mathlib.Data.List.Perm.Basic

/-!
Merging two values in either order.

Two values that hold objects or arrays wherever both hold something can be merged into a third one in either
order. At every path the two results are the same, but for the order of the keys of an object, and for the order
of the items of an array that has some from either. What one of the two alone brings comes in whole. Main
statement: `merge_commutes`.
-/

namespace EntityForge.Json

/-- Wherever both values have something, both have an object or both have an array. -/
def Compatible (x y : Json) : Prop :=
  ∀ path u v, x.member? path = some u → y.member? path = some v →
    (u.isObject = true ∧ v.isObject = true) ∨ (u.isArray = true ∧ v.isArray = true)

/-- Both values have an array at the end of a path. -/
def ShareArray (x y : Json) (path : List String) : Prop :=
  ∃ items more, x.member? path = some (.array items) ∧ y.member? path = some (.array more)

/-- Two values are the same up to the order of their keys or, if this is `free`, of their items. -/
inductive Alike (free : Prop) : Json → Json → Prop
  | same {value : Json} (h : value.isObject = false) : Alike free value value
  | object {members others : Entries Json} (h : members.keys.Perm others.keys) :
      Alike free (.object members) (.object others)
  | array {items others : List Json} (hfree : free) (h : items.Perm others) :
      Alike free (.array items) (.array others)

theorem Alike.refl {free : Prop} (value : Json) : Alike free value value := by
  cases value with
  | object members => exact .object (.refl _)
  | _ => exact .same rfl

theorem Alike.rel_refl {free : Prop} (value? : Option Json) : Option.Rel (Alike free) value? value? := by
  cases value? with
  | none => exact .none
  | some value => exact .some (.refl value)

section Twice

/-- What stands where an object comes in keeps its keys in front, whatever it is. -/
theorem exists_mergeOver_object (old? : Option Json) : ∃ front : List String, ∀ members : Entries Json,
    members.keys.Nodup → ∃ merged : Entries Json,
      mergeOver old? (some (.object members)) = some (.object merged) ∧
        merged.keys = front ++ members.keys.filter fun key => key ∉ front := by
  by_cases hobject : ∃ present, old? = some (.object present)
  · obtain ⟨present, rfl⟩ := hobject
    exact ⟨Entries.keys present, fun members hmembers =>
      ⟨_, congrArg some (merge_object present members), keys_mergeMembers_of_nodup hmembers⟩⟩
  · refine ⟨[], fun members _ => ⟨members, ?_, by simp⟩⟩
    rcases old? with _ | old
    · rfl
    · cases old with
      | object present => exact absurd ⟨present, rfl⟩ hobject
      | _ => rfl

/-- What stands where an array comes in keeps its items in front, whatever it is. -/
theorem exists_mergeOver_array (old? : Option Json) : ∃ front : List Json, ∀ items,
    mergeOver old? (some (.array items)) = some (.array (front ++ items)) := by
  rcases old? with _ | old
  · exact ⟨[], fun items => rfl⟩
  · cases old with
    | array present => exact ⟨present, fun items => congrArg some (merge_array present items)⟩
    | _ => exact ⟨[], fun items => rfl⟩

/-- Keys that come in after others, each where it is new, are the same in either order. -/
theorem perm_keys {front keys more : List String} (hkeys : keys.Nodup) (hmore : more.Nodup) :
    ((front ++ keys.filter fun k => k ∉ front) ++
        more.filter fun k => k ∉ front ++ keys.filter fun k => k ∉ front).Perm
      ((front ++ more.filter fun k => k ∉ front) ++
        keys.filter fun k => k ∉ front ++ more.filter fun k => k ∉ front) := by
  have hnew {first second : List String} (hfirst : first.Nodup) (hsecond : second.Nodup) :
      (first.filter (fun k => k ∉ front) ++
        second.filter fun k => k ∉ front ++ first.filter fun k => k ∉ front).Nodup := by
    refine List.nodup_append.2 ⟨hfirst.filter _, hsecond.filter _, ?_⟩
    rintro key hkey _ hother rfl
    have hnot := (List.mem_filter.1 hother).2
    simp only [decide_eq_true_eq] at hnot
    exact hnot (List.mem_append_right _ hkey)
  rw [List.append_assoc, List.append_assoc]
  refine List.Perm.append_left front ((List.perm_ext_iff_of_nodup (hnew hkeys hmore) (hnew hmore hkeys)).2 ?_)
  intro key
  simp only [List.mem_append, List.mem_filter, decide_eq_true_eq, not_or, not_and, not_not]
  tauto

variable {x y u v : Json}

/-- Where both values have an object, or both an array, the order in which they come shows in nothing else. -/
theorem alike_mergeOver {free : Prop} (hu : u.Keyed) (hv : v.Keyed)
    (h : (u.isObject = true ∧ v.isObject = true) ∨ (u.isArray = true ∧ v.isArray = true))
    (hfree : u.isArray = true → free) (old? : Option Json) :
    Option.Rel (Alike free) (mergeOver (mergeOver old? (some u)) (some v))
      (mergeOver (mergeOver old? (some v)) (some u)) := by
  rcases h with ⟨hobject, hother⟩ | ⟨harray, hother⟩
  · obtain ⟨members, rfl⟩ : ∃ members, u = .object members := by cases u <;> simp_all [isObject]
    obtain ⟨others, rfl⟩ : ∃ others, v = .object others := by cases v <;> simp_all [isObject]
    obtain ⟨front, hfront⟩ := exists_mergeOver_object old?
    have htwice {first second : Entries Json} (hfirst : first.keys.Nodup) (hsecond : second.keys.Nodup) :
        ∃ merged : Entries Json, mergeOver (mergeOver old? (some (.object first))) (some (.object second)) =
            some (.object merged) ∧
          merged.keys = (front ++ first.keys.filter fun k => k ∉ front) ++
            second.keys.filter fun k => k ∉ front ++ first.keys.filter fun k => k ∉ front := by
      obtain ⟨next, hnext, hkeys⟩ := hfront first hfirst
      refine ⟨mergeMembers next second, ?_, ?_⟩
      · rw [hnext]
        exact congrArg some (merge_object next second)
      · rw [keys_mergeMembers_of_nodup hsecond, hkeys]
    obtain ⟨merged, hmerged, hkeys⟩ := htwice hu.1 hv.1
    obtain ⟨merged', hmerged', hkeys'⟩ := htwice hv.1 hu.1
    rw [hmerged, hmerged']
    refine .some (.object ?_)
    rw [hkeys, hkeys']
    exact perm_keys hu.1 hv.1
  · obtain ⟨items, rfl⟩ : ∃ items, u = .array items := by cases u <;> simp_all [isArray]
    obtain ⟨more, rfl⟩ : ∃ more, v = .array more := by cases v <;> simp_all [isArray]
    obtain ⟨front, hfront⟩ := exists_mergeOver_array old?
    rw [hfront items, hfront more, mergeOver, mergeOver, merge_array, merge_array, List.append_assoc,
      List.append_assoc]
    exact .some (.array (hfree harray) (List.perm_append_comm.append_left front))

/-- What stands at the end of a path is not cut off, and above it stand objects alone. -/
theorem exists_object_of_member? {value found : Json} {front back : List String} {key : String}
    (h : value.member? (front ++ key :: back) = some found) :
    ∃ above, value.member? front = some above ∧ above.isObject = true := by
  induction front generalizing value with
  | nil =>
    refine ⟨value, rfl, ?_⟩
    by_contra hobject
    obtain ⟨inner, hinner, -⟩ := Option.bind_eq_some_iff.1 h
    rw [get?_of_isObject_eq_false (Bool.not_eq_true _ ▸ hobject)] at hinner
    cases hinner
  | cons first front ih =>
    obtain ⟨inner, hinner, h⟩ := Option.bind_eq_some_iff.1 h
    obtain ⟨above, habove, hobject⟩ := ih h
    refine ⟨above, ?_, hobject⟩
    rw [member?, hinner, Option.bind_some, habove]

theorem Compatible.symm (h : Compatible x y) : Compatible y x :=
  fun path u v hu hv => (h path v u hv hu).imp And.symm And.symm

/-- A value does not cut a path that a compatible one follows to its end. -/
theorem Compatible.not_cuts (h : Compatible x y) {path : List String} {found : Json}
    (hfound : x.member? path = some found) : ¬y.Cuts path := by
  rintro ⟨front, key, back, rfl, other, hother, hobject⟩
  obtain ⟨above, habove, hisObject⟩ := exists_object_of_member? hfound
  rcases h front above other habove hother with ⟨-, hother'⟩ | ⟨harray, -⟩
  · exact Bool.noConfusion (hobject.symm.trans hother')
  · cases above <;> simp_all [isObject, isArray]

/-- A path that one of two compatible values cuts leads nowhere in the end, whichever comes first. -/
theorem member?_merge_merge_of_cuts (hx : x.Keyed) (hy : y.Keyed) (h : Compatible x y) (d : Json)
    {path : List String} (hcuts : y.Cuts path) :
    (merge (merge d x) y).member? path = none ∧ (merge (merge d y) x).member? path = none := by
  refine ⟨(member?_merge hy _ path).1 hcuts, ?_⟩
  by_cases hcutsX : x.Cuts path
  · exact (member?_merge hx _ path).1 hcutsX
  · have hnone : x.member? path = none := by
      cases hfound : x.member? path with
      | none => rfl
      | some found => exact absurd hcuts (h.not_cuts hfound)
    rw [(member?_merge hx _ path).2 hcutsX, (member?_merge hy _ path).1 hcuts, hnone, mergeOver]

/-- Each value is merged with what stands at the end of a path that neither cuts. -/
theorem member?_merge_merge (hx : x.Keyed) (hy : y.Keyed) (d : Json) {path : List String}
    (hcutsX : ¬x.Cuts path) (hcutsY : ¬y.Cuts path) :
    (merge (merge d x) y).member? path =
      mergeOver (mergeOver (d.member? path) (x.member? path)) (y.member? path) := by
  rw [(member?_merge hy _ path).2 hcutsY, (member?_merge hx _ path).2 hcutsX]

theorem alike_merge_merge (hx : x.Keyed) (hy : y.Keyed) (h : Compatible x y) (d : Json) (path : List String) :
    Option.Rel (Alike (ShareArray x y path)) ((merge (merge d x) y).member? path)
      ((merge (merge d y) x).member? path) := by
  by_cases hcutsY : y.Cuts path
  · obtain ⟨hxy, hyx⟩ := member?_merge_merge_of_cuts hx hy h d hcutsY
    rw [hxy, hyx]
    exact .none
  by_cases hcutsX : x.Cuts path
  · obtain ⟨hyx, hxy⟩ := member?_merge_merge_of_cuts hy hx h.symm d hcutsX
    rw [hxy, hyx]
    exact .none
  rw [member?_merge_merge hx hy d hcutsX hcutsY, member?_merge_merge hy hx d hcutsY hcutsX]
  cases hu : x.member? path with
  | none =>
    rw [mergeOver_none_right, mergeOver_none_right]
    exact Alike.rel_refl _
  | some u =>
    cases hv : y.member? path with
    | none =>
      rw [mergeOver_none_right, mergeOver_none_right]
      exact Alike.rel_refl _
    | some v =>
      have hkinds := h path u v hu hv
      refine alike_mergeOver (keyed_of_member? hx hu) (keyed_of_member? hy hv) hkinds ?_ _
      intro harray
      rcases hkinds with ⟨hobject, -⟩ | ⟨-, hother⟩
      · cases u <;> simp_all [isObject, isArray]
      · cases u <;> cases v <;> simp_all [isArray, ShareArray]

end Twice

theorem compatible_object {members others : Entries Json}
    (h : ∀ key u v, members.get? key = some u → others.get? key = some v → Compatible u v) :
    Compatible (.object members) (.object others) := by
  intro path u v hu hv
  cases path with
  | nil =>
    obtain rfl := Option.some.inj hu
    obtain rfl := Option.some.inj hv
    exact Or.inl ⟨rfl, rfl⟩
  | cons key path =>
    obtain ⟨first, hfirst, hu⟩ := Option.bind_eq_some_iff.1 hu
    obtain ⟨second, hsecond, hv⟩ := Option.bind_eq_some_iff.1 hv
    exact h key first second hfirst hsecond path u v hu hv

theorem compatible_array (items more : List Json) : Compatible (.array items) (.array more) := by
  intro path u v hu hv
  cases path with
  | nil =>
    obtain rfl := Option.some.inj hu
    obtain rfl := Option.some.inj hv
    exact Or.inr ⟨rfl, rfl⟩
  | cons key path => cases hu

/-- Two compatible values are merged into a third one in either order, with results that are the same at every path
up to the order of keys, and of the items of an array that both of them have there. -/
theorem merge_commutes {x y d : Json} (hx : x.Keyed) (hy : y.Keyed) (hd : d.Keyed) (h : Compatible x y) :
    (merge (merge d x) y).Keyed ∧ (merge (merge d y) x).Keyed ∧
      ∀ path, Option.Rel (Alike (ShareArray x y path)) ((merge (merge d x) y).member? path)
        ((merge (merge d y) x).member? path) :=
  ⟨keyed_merge y (keyed_merge x hd hx) hy, keyed_merge x (keyed_merge y hd hy) hx,
    alike_merge_merge hx hy h d⟩

/-- A fragment with a path and a tag of its own. -/
def tagged (name : String) : Json :=
  .object [("paths", .object [("/" ++ name, .object [])]), ("tags", .array [.string name])]

/-- A place where fragments find a tag, and something that is no object. -/
def untagged : Json := .object [("paths", .null), ("tags", .array [.string "all"])]

theorem compatible_tagged (name other : String) : Compatible (tagged name) (tagged other) := by
  refine compatible_object fun key u v hu hv => ?_
  have hu : key = "paths" ∧ u = .object [("/" ++ name, .object [])] ∨
      key = "tags" ∧ u = .array [.string name] := by simpa using Entries.mem_of_get? hu
  have hv : key = "paths" ∧ v = .object [("/" ++ other, .object [])] ∨
      key = "tags" ∧ v = .array [.string other] := by simpa using Entries.mem_of_get? hv
  rcases hu with ⟨rfl, rfl⟩ | ⟨rfl, rfl⟩ <;> rcases hv with ⟨hkey, rfl⟩ | ⟨hkey, rfl⟩
  · refine compatible_object fun inner first second hfirst hsecond => ?_
    obtain ⟨-, rfl⟩ := Prod.mk.inj (List.mem_singleton.1 (Entries.mem_of_get? hfirst))
    obtain ⟨-, rfl⟩ := Prod.mk.inj (List.mem_singleton.1 (Entries.mem_of_get? hsecond))
    exact compatible_object fun _ _ _ hnone => nomatch hnone
  · exact absurd hkey (by decide)
  · exact absurd hkey (by decide)
  · exact compatible_array _ _

/-- The order of two fragments shows in the order of their paths and tags. -/
theorem merge_commutes_for_tagged :
    (tagged "x").Keyed ∧ (tagged "y").Keyed ∧ untagged.Keyed ∧ Compatible (tagged "x") (tagged "y") ∧
      ((merge (merge untagged (tagged "x")) (tagged "y")).member? ["paths"]).map Json.keys = some ["/x", "/y"] ∧
      ((merge (merge untagged (tagged "y")) (tagged "x")).member? ["paths"]).map Json.keys = some ["/y", "/x"] ∧
      ∀ path, Option.Rel (Alike (ShareArray (tagged "x") (tagged "y") path))
        ((merge (merge untagged (tagged "x")) (tagged "y")).member? path)
        ((merge (merge untagged (tagged "y")) (tagged "x")).member? path) := by
  have hkeyed (name : String) : (tagged name).Keyed := by simp [tagged, Keyed, KeyedMembers, KeyedItems]
  have huntagged : untagged.Keyed := by simp [untagged, Keyed, KeyedMembers, KeyedItems]
  have hcompatible := compatible_tagged "x" "y"
  obtain ⟨-, -, halike⟩ := merge_commutes (hkeyed "x") (hkeyed "y") huntagged hcompatible
  exact ⟨hkeyed "x", hkeyed "y", huntagged, hcompatible, by decide, by decide, halike⟩

end EntityForge.Json
