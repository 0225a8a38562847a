import EntityForge.FileTree.Walk
import EntityForge.Path
import Mathlib.Algebra.Order.BigOperators.Group.List
import Mathlib.Algebra.Order.Ring.Nat
import Mathlib.Data.List.Basic
import Mathlib.Tactic.Common

/-!
What putting one path under another, and going from a path to what it lies in, do to the names a path
consists of. Everything is said of three views of a path: the `trail` of places it names, the `way` of
parts that are not idle, and the steps a walk takes. Main statements: `trail_join`, `components_join`,
`steps_join` and `parent?_of_way`.
-/

namespace EntityForge

theorem splitSlash_ne_nil (s : List Char) : splitSlash s ≠ [] := by
  cases s with
  | nil => simp [splitSlash]
  | cons c cs =>
    unfold splitSlash
    split
    · simp
    · split <;> simp

theorem splitSlash_slash (s t : List Char) :
    splitSlash (s ++ '/' :: t) = splitSlash s ++ splitSlash t := by
  induction s with
  | nil => simp [splitSlash]
  | cons c cs ih =>
    by_cases hc : c = '/'
    · simp [splitSlash, hc, ih]
    · simp only [List.cons_append, splitSlash, hc, if_false, ih]
      cases hcs : splitSlash cs with
      | nil => exact absurd hcs (splitSlash_ne_nil cs)
      | cons first rest => simp

theorem not_mem_of_mem_splitSlash {s part : List Char} (h : part ∈ splitSlash s) :
    '/' ∉ part := by
  induction s generalizing part with
  | nil => simp_all [splitSlash]
  | cons c cs ih =>
    unfold splitSlash at h
    by_cases hc : c = '/'
    · simp only [hc, if_true, List.mem_cons] at h
      rcases h with rfl | h
      · simp
      · exact ih h
    · simp only [hc, if_false] at h
      cases hcs : splitSlash cs with
      | nil => exact absurd hcs (splitSlash_ne_nil cs)
      | cons first rest =>
        simp only [hcs, List.mem_cons] at h
        rcases h with rfl | h
        · have hfirst : '/' ∉ first := ih (by simp [hcs])
          simp only [List.mem_cons, not_or]
          exact ⟨fun e => hc e.symm, hfirst⟩
        · exact ih (by simp [hcs, h])

/-- What is written after the last slash belongs to the last part. -/
theorem splitSlash_append_of_not_mem {s e last : List Char} {parts : List (List Char)}
    (hs : splitSlash s = parts ++ [last]) (he : '/' ∉ e) :
    splitSlash (s ++ e) = parts ++ [last ++ e] := by
  induction s generalizing parts last with
  | nil =>
    have hparts : parts = [] ∧ last = [] := by
      cases parts with
      | nil => simpa [splitSlash] using hs.symm
      | cons first rest => simp [splitSlash] at hs
    simp [hparts.1, hparts.2, splitSlash_of_not_mem he]
  | cons c cs ih =>
    obtain ⟨init, final, hcs⟩ : ∃ init final, splitSlash cs = init ++ [final] :=
      ⟨_, _, (List.dropLast_append_getLast (splitSlash_ne_nil cs)).symm⟩
    by_cases hc : c = '/'
    · simp only [splitSlash, hc, if_true, hcs] at hs
      rw [← List.cons_append] at hs
      obtain ⟨rfl, hlast⟩ := List.append_inj' hs rfl
      obtain rfl := List.singleton_inj.1 hlast
      simp [splitSlash, hc, ih hcs]
    · simp only [splitSlash, hc, if_false, List.cons_append, ih hcs]
      simp only [splitSlash, hc, if_false, hcs] at hs
      cases init with
      | nil =>
        have hparts : parts = [] ∧ last = c :: final := by
          cases parts with
          | nil => simpa using hs.symm
          | cons first rest => simp at hs
        simp [hparts.1, hparts.2]
      | cons first rest =>
        simp only [List.cons_append] at hs
        rw [← List.cons_append] at hs
        obtain ⟨rfl, hlast⟩ := List.append_inj' hs rfl
        obtain rfl := List.singleton_inj.1 hlast
        simp

theorem joinSlash_cons {s : List Char} {parts : List (List Char)} (h : parts ≠ []) :
    joinSlash (s :: parts) = s ++ '/' :: joinSlash parts := by
  cases parts with
  | nil => exact absurd rfl h
  | cons t ts => rfl

theorem joinSlash_splitSlash (s : List Char) : joinSlash (splitSlash s) = s := by
  induction s with
  | nil => rfl
  | cons c cs ih =>
    obtain ⟨first, rest, hcs⟩ := List.exists_cons_of_ne_nil (splitSlash_ne_nil cs)
    rw [hcs] at ih
    by_cases hc : c = '/'
    · rw [splitSlash, if_pos hc, hcs, joinSlash_cons (List.cons_ne_nil _ _), ih, hc]
      rfl
    · simp only [splitSlash, hc, if_false, hcs]
      cases rest with
      | nil => simpa [joinSlash] using ih
      | cons other more => simpa [joinSlash] using ih

theorem joinSlash_prefix (parts more : List (List Char)) :
    joinSlash parts <+: joinSlash (parts ++ more) := by
  induction parts with
  | nil => exact List.nil_prefix
  | cons part parts ih =>
    cases parts with
    | nil =>
      cases more with
      | nil => exact List.prefix_rfl
      | cons next rest => 
        rw [List.singleton_append, joinSlash_cons (List.cons_ne_nil next rest)]
        exact List.prefix_append part _
    | cons next rest =>
      rw [List.cons_append] at ih ⊢
      rw [joinSlash_cons (List.cons_ne_nil next rest), List.cons_append,
        joinSlash_cons (List.cons_ne_nil next (rest ++ more)), List.prefix_append_right_inj,
        List.prefix_cons_inj]
      exact ih

theorem bytes_joinSlash {parts : List (List Char)} (h : parts ≠ []) :
    (String.ofList (joinSlash parts)).utf8ByteSize + 1 =
      (parts.map fun part => (String.ofList part).utf8ByteSize + 1).sum := by
  induction parts with
  | nil => exact absurd rfl h
  | cons part rest ih =>
    by_cases hrest : rest = []
    · simp [hrest, joinSlash]
    · have hslash : (String.ofList ['/']).utf8ByteSize = 1 := by decide
      rw [joinSlash_cons hrest, List.append_cons, String.ofList_append, String.ofList_append,
        String.utf8ByteSize_append, String.utf8ByteSize_append, hslash, Nat.add_assoc, ih hrest,
        List.map_cons, List.sum_cons]

namespace Path

theorem eq_of_parts {path other : Path} (h : path.parts = other.parts) : path = other := by
  have hinj : Function.Injective (List.map String.ofList) :=
    List.map_injective_iff.2 fun _ _ => String.ofList_inj.1
  have hsplit : splitSlash path.text.toList = splitSlash other.text.toList := hinj h
  rw [Path.mk.injEq, ← String.toList_inj, ← joinSlash_splitSlash path.text.toList, hsplit,
    joinSlash_splitSlash]

/-- A path is as long as its parts, with a slash between any two of them. -/
theorem bytes_text (path : Path) :
    path.text.utf8ByteSize + 1 = (path.parts.map fun part => part.utf8ByteSize + 1).sum := by
  have hbytes := bytes_joinSlash (splitSlash_ne_nil path.text.toList)
  rw [joinSlash_splitSlash, String.ofList_toList] at hbytes
  rw [hbytes, parts, List.map_map]
  rfl

theorem bytes_le {path : Path} {limit : Nat} (h : ∀ part ∈ path.parts, part.utf8ByteSize < limit) :
    path.text.utf8ByteSize < path.parts.length * limit := by
  have hsum := List.sum_le_card_nsmul (path.parts.map fun part => part.utf8ByteSize + 1) limit
    (List.forall_mem_map.2 h)
  rw [← path.bytes_text, List.length_map, nsmul_eq_mul] at hsum
  exact hsum

theorem parts_ne_nil (path : Path) : path.parts ≠ [] := by
  simp [parts, splitSlash_ne_nil]

@[simp] theorem parts_empty : (Path.mk "").parts = [""] := rfl

theorem parts_of_not_mem {text : String} (h : '/' ∉ text.toList) :
    (Path.mk text).parts = [text] := by
  simp [parts, splitSlash_of_not_mem h]

theorem parts_slash (s t : String) :
    (Path.mk (s ++ "/" ++ t)).parts = (Path.mk s).parts ++ (Path.mk t).parts := by
  simp [parts, splitSlash_slash]

theorem not_mem_of_mem_parts {path : Path} {part : String} (h : part ∈ path.parts) :
    '/' ∉ part.toList := by
  obtain ⟨cs, hcs, rfl⟩ := List.mem_map.1 h
  simpa using not_mem_of_mem_splitSlash hcs

/-- A path whose parts another one begins with is what the text of that one begins with. -/
theorem text_prefix {path other : Path} (h : path.parts <+: other.parts) :
    path.text.toList <+: other.text.toList := by
  obtain ⟨more, hmore⟩ := h
  have hsplit : splitSlash other.text.toList = splitSlash path.text.toList ++ more.map String.toList := by
    have hlists := congrArg (List.map String.toList) hmore
    simpa [parts, Function.comp_def] using hlists.symm
  rw [← joinSlash_splitSlash path.text.toList, ← joinSlash_splitSlash other.text.toList, hsplit]
  exact joinSlash_prefix _ _

theorem mem_joinSlash_iff {c : Char} (hc : c ≠ '/') (parts : List (List Char)) :
    c ∈ joinSlash parts ↔ ∃ part ∈ parts, c ∈ part := by
  induction parts with
  | nil => simp [joinSlash]
  | cons part parts ih =>
    cases parts with
    | nil => simp [joinSlash]
    | cons next rest =>
      rw [joinSlash_cons (List.cons_ne_nil next rest), List.mem_append, List.mem_cons, ih]
      simp [hc]

/-- A character other than a slash is in a path when it is in one of its parts. -/
theorem mem_text_iff {path : Path} {c : Char} (hc : c ≠ '/') :
    c ∈ path.text.toList ↔ ∃ part ∈ path.parts, c ∈ part.toList := by
  have htext := mem_joinSlash_iff hc (splitSlash path.text.toList)
  rw [joinSlash_splitSlash] at htext
  rw [htext]
  simp [parts]

/-- The parts of a path that is made of parts, each of which may be a path in turn. -/
theorem parts_ofParts {names : List String} (h : names ≠ []) :
    (ofParts names).parts = names.flatMap fun name => (Path.mk name).parts := by
  induction names with
  | nil => exact absurd rfl h
  | cons name names ih =>
    cases names with
    | nil => simp [ofParts, joinSlash, parts]
    | cons other rest =>
      have htext : (ofParts (name :: other :: rest)) =
          ⟨name ++ "/" ++ (ofParts (other :: rest)).text⟩ := by
        rw [Path.mk.injEq, ← String.toList_inj]
        simp [ofParts, joinSlash]
      rw [htext, parts_slash, ih (by simp)]
      simp only [List.flatMap_cons]

theorem parts_ofParts_of_plain {names : List String} (h : names ≠ [])
    (hplain : ∀ name ∈ names, '/' ∉ name.toList) : (ofParts names).parts = names := by
  have hparts (name : String) (hname : name ∈ names) : (Path.mk name).parts = [name] :=
    parts_of_not_mem (hplain name hname)
  rw [parts_ofParts h, List.flatMap_congr hparts, List.flatMap_singleton']

/-- The places a path names, without the one it starts from. -/
def trail (path : Path) : List Component := path.parts.filterMap componentOf?

/-- The parts of a path that name something. -/
def way (path : Path) : List String := path.parts.filter fun part => !isIdle part

theorem way_eq_filter (path : Path) : path.way = (FileTree.steps path).filter (· ≠ ".") := by
  rw [FileTree.steps, List.filter_filter, way]
  refine List.filter_congr fun part _ => ?_
  rw [Bool.and_comm]
  simp [isIdle, Bool.beq_eq_decide_eq]

/-- What the components of a path start with before its trail. -/
def lead (path : Path) : List Component :=
  if path.isAbsolute then [.root] else if path.parts.head? == some "." then [.here] else []

theorem components_eq (path : Path) : path.components = path.lead ++ path.trail := by
  unfold components lead trail
  split
  · rfl
  · split <;> rfl

/-- The parts that stay in front when another path is put under this one. -/
def stem (base : Path) : List String :=
  if base.text.isEmpty then [] else if base.endsInSlash then base.parts.dropLast else base.parts

theorem parts_of_endsInSlash {base : Path} (h : base.endsInSlash = true) :
    ∃ s : String, base.text = s ++ "/" ∧ base.parts = (Path.mk s).parts ++ [""] := by
  obtain ⟨cs, hcs⟩ : ∃ cs, base.text.toList = cs ++ ['/'] :=
    List.getLast?_eq_some_iff.1 (by simpa [endsInSlash] using h)
  have htext : base.text = String.ofList cs ++ "/" := by
    rw [← String.toList_inj]
    simp [hcs]
  have hparts := parts_slash (String.ofList cs) ""
  rw [String.append_empty, ← htext] at hparts
  exact ⟨String.ofList cs, htext, hparts⟩

theorem parts_eq_stem (base : Path) :
    base.parts = base.stem ∨ base.parts = base.stem ++ [""] := by
  unfold stem
  split
  · next hempty =>
    right
    have htext : base = ⟨""⟩ := by
      rw [Path.mk.injEq]
      exact String.isEmpty_iff.1 hempty
    rw [htext]
    rfl
  · split
    · next hslash =>
      right
      obtain ⟨s, -, hparts⟩ := parts_of_endsInSlash hslash
      rw [hparts, List.dropLast_concat]
    · exact Or.inl rfl

theorem stem_ne_nil {base : Path} (h : base.text ≠ "") : base.stem ≠ [] := by
  have hempty : ¬ base.text.isEmpty = true := by simpa [String.isEmpty_iff] using h
  unfold stem
  rw [if_neg hempty]
  split
  · next hslash =>
    obtain ⟨s, -, hparts⟩ := parts_of_endsInSlash hslash
    rw [hparts, List.dropLast_concat]
    exact parts_ne_nil ⟨s⟩
  · exact base.parts_ne_nil

theorem text_join (base : Path) {path : Path} (h : path.isAbsolute = false) : (base.join path).text =
    base.text ++ (if base.text.isEmpty || base.endsInSlash then "" else "/") ++ path.text := by
  unfold join
  rw [if_neg (by simp [h])]
  split <;> simp

/-- What comes between two paths of which one lies under the other. -/
theorem exists_text_join (base : Path) {path : Path} (h : path.isAbsolute = false) :
    ∃ between ∈ ["", "/"], (base.join path).text = base.text ++ between ++ path.text := by
  refine ⟨_, ?_, base.text_join h⟩
  split <;> simp

theorem bytes_join_le (base : Path) {path : Path} (h : path.isAbsolute = false) :
    (base.join path).text.utf8ByteSize ≤ base.text.utf8ByteSize + 1 + path.text.utf8ByteSize := by
  obtain ⟨between, hbetween, htext⟩ := base.exists_text_join h
  have hshort : ∀ between ∈ ["", "/"], between.utf8ByteSize ≤ 1 := by decide
  have hone := hshort between hbetween
  rw [htext, String.utf8ByteSize_append, String.utf8ByteSize_append]
  omega

theorem parts_join {base path : Path} (h : path.isAbsolute = false) :
    (base.join path).parts = base.stem ++ path.parts := by
  unfold join stem
  rw [h]
  by_cases hempty : base.text.isEmpty
  · have htext : base.text = "" := String.isEmpty_iff.1 hempty
    simp [htext]
  · by_cases hslash : base.endsInSlash
    · obtain ⟨s, htext, hparts⟩ := parts_of_endsInSlash hslash
      have hjoined : base.text ++ path.text = s ++ "/" ++ path.text := by rw [htext]
      simp only [Bool.false_eq_true, if_false, hempty, hslash, Bool.or_true, if_true, hparts,
        List.dropLast_concat, hjoined, parts_slash]
    · simp [hempty, hslash, parts_slash]

theorem trail_join {base path : Path} (h : path.isAbsolute = false) :
    (base.join path).trail = base.trail ++ path.trail := by
  unfold trail
  rw [parts_join h, List.filterMap_append]
  rcases base.parts_eq_stem with hbase | hbase <;> simp [hbase, componentOf?, isIdle]

theorem way_join {base path : Path} (h : path.isAbsolute = false) :
    (base.join path).way = base.way ++ path.way := by
  unfold way
  rw [parts_join h, List.filter_append]
  rcases base.parts_eq_stem with hbase | hbase <;> simp [hbase, isIdle]

theorem steps_join {base path : Path} (h : path.isAbsolute = false) :
    FileTree.steps (base.join path) = FileTree.steps base ++ FileTree.steps path := by
  unfold FileTree.steps
  rw [parts_join h, List.filter_append]
  rcases base.parts_eq_stem with hbase | hbase <;> simp [hbase]

theorem isAbsolute_join {base path : Path} (h : path.isAbsolute = false) :
    (base.join path).isAbsolute = base.isAbsolute := by
  unfold join
  rw [h]
  by_cases hempty : base.text.isEmpty
  · have htext : base.text = "" := String.isEmpty_iff.1 hempty
    simp only [Bool.false_eq_true, if_false, hempty, Bool.true_or, if_true]
    simpa [isAbsolute, htext] using h
  · have hne : base.text.toList ≠ [] := by
      simpa [String.isEmpty_iff] using hempty
    obtain ⟨c, cs, hcs⟩ := List.exists_cons_of_ne_nil hne
    by_cases hslash : base.endsInSlash <;> simp [hempty, hslash, isAbsolute, hcs]

theorem endsInSlash_join {base path : Path} (h : path.isAbsolute = false)
    (hne : path.text ≠ "") : (base.join path).endsInSlash = path.endsInSlash := by
  have hlist : path.text.toList ≠ [] := by simpa using hne
  obtain ⟨init, last, htext⟩ : ∃ init last, path.text.toList = init ++ [last] :=
    ⟨_, _, (List.dropLast_append_getLast hlist).symm⟩
  unfold join
  rw [h]
  simp only [Bool.false_eq_true, if_false]
  split
  · simp [endsInSlash, htext]
  · have hlast : ('/' :: (init ++ [last])).getLast? = some last := by
      rw [← List.cons_append, List.getLast?_concat]
    simp [endsInSlash, htext, hlast]

/-- Whether a slash is missing at the end of a path is up to what was put there last. -/
theorem open_join (base : Path) {path : Path} (h : path.isAbsolute = false) :
    ((base.join path).text.isEmpty || (base.join path).endsInSlash) =
      (path.text.isEmpty || path.endsInSlash) := by
  by_cases hempty : path.text = ""
  · have hjoin := base.text_join h
    rw [hempty, String.append_empty] at hjoin
    by_cases hopen : base.text.isEmpty || base.endsInSlash
    · rw [if_pos hopen, String.append_empty] at hjoin
      rw [endsInSlash, hjoin, ← endsInSlash, hopen, hempty]
      rfl
    · rw [if_neg hopen] at hjoin
      simp [endsInSlash, hjoin, hempty]
  · have hne : (base.join path).text ≠ "" := by
      simp [base.text_join h, hempty]
    rw [endsInSlash_join h hempty, Bool.eq_iff_iff]
    simp [String.isEmpty_iff, hempty, hne]

/-- A path under a path under another one, as long as it does not stand for itself. -/
theorem join_join (base : Path) {mid path : Path} (h : (mid.join path).isAbsolute = false) :
    base.join (mid.join path) = (base.join mid).join path := by
  have hpath : path.isAbsolute = false := by
    by_contra habsolute
    have hself : mid.join path = path := by
      unfold join
      rw [if_pos (by simpa using habsolute)]
    exact habsolute (hself ▸ h)
  have hmid : mid.isAbsolute = false := (isAbsolute_join hpath).symm.trans h
  rw [Path.mk.injEq, text_join base h, text_join mid hpath, text_join _ hpath, open_join base hmid,
    text_join base hmid]
  simp only [String.append_assoc]

/-- Putting a path under another one says first what the other says and then what it says itself. A path
that starts with a single dot says less when something stands in front of it. -/
theorem components_join {base path : Path} (h : path.isAbsolute = false)
    (hlead : base.text ≠ "" ∨ path.lead = []) :
    (base.join path).components = base.components ++ path.trail := by
  have hhead : (base.join path).lead = base.lead := by
    by_cases hempty : base.text = ""
    · have hpath : path.lead = [] := hlead.resolve_left (fun hne => hne hempty)
      have hjoin : base.join path = path := by
        unfold join
        simp [h, hempty]
      have hbase : base.lead = [] := by
        have : base = ⟨""⟩ := by rw [Path.mk.injEq]; exact hempty
        rw [this]
        rfl
      rw [hjoin, hpath, hbase]
    · have hfirst : (base.join path).parts.head? = base.parts.head? := by
        obtain ⟨first, rest, hrest⟩ := List.exists_cons_of_ne_nil (stem_ne_nil hempty)
        rw [parts_join h]
        rcases base.parts_eq_stem with hbase | hbase <;> simp [hbase, hrest]
      simp only [lead, isAbsolute_join h, hfirst]
  rw [components_eq, components_eq, hhead, trail_join h, List.append_assoc]

theorem isAbsolute_iff {path : Path} {first : String} {rest : List String}
    (h : path.parts = first :: rest) :
    path.isAbsolute = true ↔ first = "" ∧ rest ≠ [] := by
  unfold isAbsolute
  cases htext : path.text.toList with
  | nil =>
    simp only [parts, htext, splitSlash, List.map_cons, List.map_nil, List.cons.injEq] at h
    simp [← h.2]
  | cons c cs =>
    simp only [parts, htext, splitSlash] at h
    by_cases hc : c = '/'
    · simp only [hc, if_true, List.map_cons, List.cons.injEq] at h
      have hrest : rest ≠ [] := by
        rw [← h.2]
        simpa using splitSlash_ne_nil cs
      simp [hc, ← h.1, hrest]
    · have hfirst : first ≠ "" := by
        simp only [hc, if_false] at h
        cases hcs : splitSlash cs with
        | nil => exact absurd hcs (splitSlash_ne_nil cs)
        | cons part others =>
          simp only [hcs, List.map_cons, List.cons.injEq] at h
          rw [← h.1]
          simp
      simp [hc, hfirst]

theorem parts_ofEnds {first : String} {others : List String} (hfirst : '/' ∉ first.toList)
    (hothers : ∀ part ∈ others, '/' ∉ part.toList) :
    (ofEnds first others).parts = first :: others.reverse ∨
      others = [] ∧ first = "" ∧ ofEnds first others = ⟨"/"⟩ := by
  cases others with
  | nil =>
    by_cases hempty : first = ""
    · exact Or.inr ⟨rfl, hempty, by simp [ofEnds, hempty]⟩
    · left
      simp [ofEnds, String.isEmpty_iff, hempty, parts_of_not_mem hfirst]
  | cons last rest =>
    left
    refine parts_ofParts_of_plain (List.cons_ne_nil _ _) ?_
    intro part hpart
    rcases List.mem_cons.1 hpart with rfl | hpart
    · exact hfirst
    · exact hothers part (List.mem_reverse.1 hpart)

theorem filter_dropWhile_idle (parts : List String) :
    (parts.dropWhile isIdle).filter (fun part => !isIdle part) =
      parts.filter fun part => !isIdle part := by
  induction parts with
  | nil => rfl
  | cons part parts ih =>
    by_cases hidle : isIdle part <;> simp [hidle, ih]

theorem way_ofEnds {first : String} {others : List String} (hfirst : '/' ∉ first.toList)
    (hothers : ∀ part ∈ others, '/' ∉ part.toList) :
    (ofEnds first others).way = (first :: others.reverse).filter fun part => !isIdle part := by
  rcases parts_ofEnds hfirst hothers with hparts | ⟨rfl, rfl, hroot⟩
  · rw [way, hparts]
  · rw [hroot]
    rfl

theorem isAbsolute_ofEnds {first : String} {others : List String} (hfirst : '/' ∉ first.toList)
    (hothers : ∀ part ∈ others, '/' ∉ part.toList) :
    (ofEnds first others).isAbsolute = true ↔ first = "" := by
  rcases parts_ofEnds hfirst hothers with hparts | ⟨rfl, rfl, hroot⟩
  · rw [isAbsolute_iff hparts, and_iff_left_iff_imp]
    rintro rfl hnil
    rw [List.reverse_eq_nil_iff.1 hnil] at hparts
    simp [ofEnds, parts, splitSlash] at hparts
  · simp [hroot, isAbsolute]

theorem shorter_of_dropWhile {parts more : List String} {last : String}
    (h : parts.dropWhile isIdle = last :: more) :
    shorter parts = more.dropWhile isIdle :: shorter more := by
  induction parts with
  | nil => simp at h
  | cons part parts ih =>
    by_cases hidle : isIdle part
    · rw [List.dropWhile_cons, if_pos hidle] at h
      rw [shorter, if_pos hidle, ih h]
    · rw [List.dropWhile_cons, if_neg hidle] at h
      obtain ⟨rfl, rfl⟩ := List.cons.inj h
      rw [shorter, if_neg hidle]

theorem shorter_dropWhile (parts : List String) : shorter (parts.dropWhile isIdle) = shorter parts := by
  induction parts with
  | nil => rfl
  | cons part parts ih =>
    by_cases hidle : isIdle part
    · rw [List.dropWhile_cons, if_pos hidle, ih, shorter, if_pos hidle]
    · rw [List.dropWhile_cons, if_neg hidle]

theorem shorter_of_idle {parts : List String} (h : parts.dropWhile isIdle = []) :
    shorter parts = [] := by
  induction parts with
  | nil => rfl
  | cons part parts ih =>
    by_cases hidle : isIdle part
    · rw [List.dropWhile_cons, if_pos hidle] at h
      rw [shorter, if_pos hidle, ih h]
    · rw [List.dropWhile_cons, if_neg hidle] at h
      cases h

/-- A path that ends in a name, as far as its last name goes: what stands before the name and which parts
after it are idle. -/
theorem parts_of_way {path : Path} {names : List String} {name : String}
    (hway : path.way = names ++ [name]) :
    isIdle name = false ∧ ∃ before after, path.parts = before ++ name :: after ∧
      (∀ part ∈ after, isIdle part = true) ∧
      before.filter (fun part => !isIdle part) = names := by
  obtain ⟨before, ending, hparts, hbefore, hending⟩ := List.filter_eq_append_iff.1 hway
  obtain ⟨idle, after, rfl, hidle, hname, hafter⟩ := List.filter_eq_cons_iff.1 hending
  refine ⟨by simpa using hname, before ++ idle, after, by simp [hparts], ?_, ?_⟩
  · simpa using List.filter_eq_nil_iff.1 hafter
  · have hnone : idle.filter (fun part => !isIdle part) = [] := by
      simpa using hidle
    rw [List.filter_append, hbefore, hnone, List.append_nil]

theorem text_ne_empty_of_way {path : Path} {names : List String} {name : String}
    (hway : path.way = names ++ [name]) : path.text ≠ "" := by
  intro htext
  obtain rfl : path = ⟨""⟩ := by rw [Path.mk.injEq, htext]
  have hempty : (Path.mk "").way = [] := by decide
  rw [hempty] at hway
  simp at hway

/-- A path that ends in a name has components. -/
theorem components_of_way {path : Path} {names : List String} {name : String}
    (hway : path.way = names ++ [name]) : path.components.isEmpty = false := by
  obtain ⟨hidle, before, after, hparts, -⟩ := parts_of_way hway
  have hsome : ∃ component, componentOf? name = some component := by
    unfold componentOf?
    rw [if_neg (by simp [hidle])]
    split <;> exact ⟨_, rfl⟩
  obtain ⟨component, hcomponent⟩ := hsome
  rw [components_eq, List.isEmpty_eq_false_iff]
  apply List.append_ne_nil_of_right_ne_nil
  rw [trail, hparts]
  exact List.ne_nil_of_mem (List.mem_filterMap.2 ⟨name, by simp, hcomponent⟩)

/-- A path whose steps end as its way does, so that nothing idle comes after its last name. -/
def EndsInWay (path : Path) : Prop :=
  ∀ names name, path.way = names ++ [name] → ∃ before, FileTree.steps path = before ++ [name]

theorem endsInWay_of_parts {path : Path} (above : List String) {last : String}
    (hparts : path.parts = above ++ [last]) (h : isIdle last = false ∨ path.way = []) :
    path.EndsInWay := by
  intro names name hway
  rcases h with hlast | hnone
  · have hne : last ≠ "" := by
      rintro rfl
      cases hlast
    rw [way, hparts, List.filter_append, List.filter_singleton, hlast] at hway
    obtain ⟨-, hname⟩ := List.append_inj' hway rfl
    rw [FileTree.steps, hparts, List.filter_append, List.filter_singleton, ← List.singleton_inj.1 hname]
    exact ⟨above.filter (· ≠ ""), by simp [hne]⟩
  · rw [hnone] at hway
    simp at hway

theorem endsInWay_ofEnds {first : String} {others : List String} (hfirst : '/' ∉ first.toList)
    (hplain : ∀ part ∈ others.dropWhile isIdle, '/' ∉ part.toList) :
    (ofEnds first (others.dropWhile isIdle)).EndsInWay := by
  rcases parts_ofEnds hfirst hplain with hparts | ⟨-, -, hroot⟩
  · cases hdrop : others.dropWhile isIdle with
    | nil =>
      rw [hdrop] at hparts
      refine endsInWay_of_parts [] hparts ?_
      by_cases hidle : isIdle first
      · right
        rw [way, hparts]
        simp [hidle]
      · exact Or.inl (by simpa using hidle)
    | cons last rest =>
      have hlast := List.head_dropWhile_not isIdle (l := others) (by simp [hdrop])
      simp only [hdrop, List.head_cons] at hlast
      rw [hdrop, List.reverse_cons, ← List.cons_append] at hparts
      exact endsInWay_of_parts (first :: rest.reverse) hparts (Or.inl hlast)
  · rw [hroot]
    have hparts : (Path.mk "/").parts = [""] ++ [""] := by decide
    exact endsInWay_of_parts [""] hparts (Or.inr (by decide))

theorem parts_of_ends {path : Path} {first : String} {others : List String}
    (h : path.ends = (first, others)) : path.parts = first :: others.reverse := by
  obtain ⟨head, rest, hparts⟩ := List.exists_cons_of_ne_nil path.parts_ne_nil
  rw [ends, hparts, Prod.mk.injEq] at h
  rw [hparts, h.1, ← h.2, List.reverse_reverse]

/-- A path that ends in a name, from its end on: the name is the first part or one of the others, and what comes
after it is idle. -/
theorem ends_of_way {path : Path} {names : List String} {name : String}
    (hway : path.way = names ++ [name]) : isIdle name = false ∧
      ((∃ idle, path.ends = (name, idle) ∧ idle.dropWhile isIdle = [] ∧ names = []) ∨
        ∃ first others before, path.ends = (first, others) ∧ others.dropWhile isIdle = name :: before ∧
          names = (first :: before.reverse).filter fun part => !isIdle part) := by
  obtain ⟨hname, before, after, hparts, hafter, hnames⟩ := parts_of_way hway
  have hdrop (others : List String) :
      (after.reverse ++ others).dropWhile isIdle = others.dropWhile isIdle := by
    rw [List.dropWhile_append_of_pos fun part hpart => hafter part (List.mem_reverse.1 hpart)]
  refine ⟨hname, ?_⟩
  cases before with
  | nil => exact Or.inl ⟨after.reverse, by simp [ends, hparts], by simpa using hdrop [], hnames.symm⟩
  | cons first rest =>
    refine Or.inr ⟨first, after.reverse ++ name :: rest.reverse, rest.reverse,
      by simp [ends, hparts], ?_, by rw [List.reverse_reverse, hnames]⟩
    rw [hdrop, List.dropWhile_cons, if_neg (by simp [hname])]

theorem self_mem_ancestors (path : Path) : path ∈ path.ancestors := List.mem_cons_self

/-- The paths that a path made of its ends lies in, which has no idle parts at its end. -/
theorem ancestors_ofEnds {first : String} {others : List String} (hfirst : '/' ∉ first.toList)
    (hplain : ∀ part ∈ others.dropWhile isIdle, '/' ∉ part.toList) :
    (ofEnds first (others.dropWhile isIdle)).ancestors = ofEnds first (others.dropWhile isIdle) ::
      ((shorter others).map (ofEnds first) ++ if first.isEmpty then [] else [⟨""⟩]) := by
  rcases parts_ofEnds hfirst hplain with hparts | ⟨hnone, rfl, hroot⟩
  · have hends : (ofEnds first (others.dropWhile isIdle)).ends = (first, others.dropWhile isIdle) := by
      simp [ends, hparts]
    rw [ancestors, hends]
    simp only [shorter_dropWhile]
  · rw [hroot, shorter_of_idle hnone]
    decide

/-- A path whose first part is its only name lies in the empty path alone. -/
theorem ancestors_of_first {path : Path} {name : String} {idle : List String} (hname : isIdle name = false)
    (hends : path.ends = (name, idle)) (hidle : idle.dropWhile isIdle = []) :
    path.ancestors = [path, ⟨""⟩] ∧ path.isAbsolute = false := by
  have hne : name ≠ "" := by
    rintro rfl
    cases hname
  constructor
  · rw [ancestors, hends]
    simp [shorter_of_idle hidle, String.isEmpty_iff, hne]
  · have habsolute := isAbsolute_iff (parts_of_ends hends)
    simpa [hne] using habsolute

/-- What a path lies in, for a path that ends in a name: the path without that name, and what that lies in. -/
theorem ancestors_of_way {path : Path} {names : List String} {name : String}
    (hway : path.way = names ++ [name]) : ∃ parent : Path, path.ancestors = path :: parent.ancestors ∧
      parent.way = names ∧ parent.isAbsolute = path.isAbsolute ∧ parent.EndsInWay := by
  obtain ⟨hname, ⟨idle, hends, hidle, rfl⟩ | ⟨first, others, before, hends, hlast, rfl⟩⟩ := ends_of_way hway
  · obtain ⟨hancestors, habsolute⟩ := ancestors_of_first hname hends hidle
    have hempty : (Path.mk "").ancestors = [⟨""⟩] := by decide
    exact ⟨⟨""⟩, by rw [hancestors, hempty], by decide, habsolute.symm,
      endsInWay_of_parts [] parts_empty (Or.inr (by decide))⟩
  · have hparts := parts_of_ends hends
    have hslash (part : String) (hpart : part ∈ first :: others) : '/' ∉ part.toList := by
      refine not_mem_of_mem_parts (?_ : part ∈ path.parts)
      simpa [hparts] using hpart
    have hbefore : before.dropWhile isIdle <:+ others :=
      ((List.dropWhile_suffix isIdle).trans (List.suffix_cons name before)).trans
        (hlast ▸ List.dropWhile_suffix isIdle)
    have hfirst : '/' ∉ first.toList := hslash first List.mem_cons_self
    have hplain (part : String) (hpart : part ∈ before.dropWhile isIdle) : '/' ∉ part.toList :=
      hslash part (List.mem_cons_of_mem first (hbefore.subset hpart))
    refine ⟨ofEnds first (before.dropWhile isIdle), ?_, ?_, ?_, ?_⟩
    · rw [ancestors_ofEnds hfirst hplain, ancestors, hends]
      simp only [shorter_of_dropWhile hlast, List.map_cons, List.cons_append]
    · rw [way_ofEnds hfirst hplain, List.filter_cons, List.filter_cons, List.filter_reverse,
        filter_dropWhile_idle, ← List.filter_reverse]
    · rw [Bool.eq_iff_iff, isAbsolute_ofEnds hfirst hplain, isAbsolute_iff hparts, iff_self_and]
      rintro -
      simpa using List.ne_nil_of_mem ((hlast ▸ List.dropWhile_suffix isIdle).subset List.mem_cons_self)
    · exact endsInWay_ofEnds hfirst hplain

/-- A path that ends in a name lies in the path that says everything but that name. -/
theorem parent?_of_way {path : Path} {names : List String} {name : String}
    (hway : path.way = names ++ [name]) (hup : name ≠ "..") :
    path.fileName? = some name ∧ ∃ parent, path.parent? = some parent ∧ parent.way = names ∧
      parent.isAbsolute = path.isAbsolute := by
  obtain ⟨parent, hancestors, hparentWay, habsolute, -⟩ := ancestors_of_way hway
  refine ⟨?_, parent, by rw [parent?, hancestors]; rfl, hparentWay, habsolute⟩
  obtain ⟨hname, ⟨idle, hends, hidle, -⟩ | ⟨first, others, before, hends, hlast, -⟩⟩ := ends_of_way hway
  · simp [fileName?, hends, hidle, hname, hup]
  · simp [fileName?, hends, hlast, hname, hup]

theorem suffix_of_mem_shorter {parts others : List String} (h : others ∈ shorter parts) :
    parts ≠ [] ∧ others <:+ parts := by
  induction parts with
  | nil => cases h
  | cons part parts ih =>
    refine ⟨List.cons_ne_nil part parts, ?_⟩
    rw [shorter] at h
    split at h
    · exact (ih h).2.trans (List.suffix_cons part parts)
    · rcases List.mem_cons.1 h with rfl | h
      · exact (List.dropWhile_suffix _).trans (List.suffix_cons part parts)
      · exact (ih h).2.trans (List.suffix_cons part parts)

/-- What a path lies in begins where it begins, and says less. -/
theorem way_of_mem_ancestors {path above : Path} (h : above ∈ path.ancestors) :
    above.way <+: path.way ∧ above.isAbsolute = path.isAbsolute := by
  obtain ⟨first, rest, hparts⟩ := List.exists_cons_of_ne_nil path.parts_ne_nil
  have hends : path.ends = (first, rest.reverse) := by rw [ends, hparts]
  have hslash (part : String) (hpart : part ∈ path.parts) : '/' ∉ part.toList :=
    not_mem_of_mem_parts hpart
  rw [ancestors, hends] at h
  simp only [List.mem_cons, List.mem_append, List.mem_map] at h
  rcases h with rfl | ⟨others, hothers, rfl⟩ | h
  · exact ⟨List.prefix_rfl, rfl⟩
  · obtain ⟨hne, hsuffix⟩ := suffix_of_mem_shorter hothers
    have hfirst : '/' ∉ first.toList := hslash first (by rw [hparts]; exact List.mem_cons_self)
    have hplain (part : String) (hpart : part ∈ others) : '/' ∉ part.toList := by
      apply hslash
      rw [hparts]
      exact List.mem_cons_of_mem first (List.mem_reverse.1 (hsuffix.subset hpart))
    have hbegins : others.reverse <+: rest := by
      rw [← List.reverse_reverse rest]
      exact List.reverse_prefix.2 hsuffix
    constructor
    · rw [way_ofEnds hfirst hplain, way, hparts]
      exact (List.prefix_cons_inj first |>.2 hbegins).filter _
    · rw [Bool.eq_iff_iff, isAbsolute_ofEnds hfirst hplain, isAbsolute_iff hparts]
      have hrest : rest ≠ [] := by simpa using hne
      simp [hrest]
  · split at h
    · cases h
    · next hfirst =>
      rw [List.mem_singleton.1 h]
      refine ⟨List.nil_prefix, ?_⟩
      rw [eq_comm, Bool.eq_iff_iff, isAbsolute_iff hparts]
      have hne : first ≠ "" := by simpa [String.isEmpty_iff] using hfirst
      simp [hne, isAbsolute]

/-- The text of what a path lies in is what its own text begins with. -/
theorem text_of_mem_ancestors {path above : Path} (h : above ∈ path.ancestors) :
    above.text.toList <+: path.text.toList := by
  obtain ⟨first, rest, hparts⟩ := List.exists_cons_of_ne_nil path.parts_ne_nil
  have hends : path.ends = (first, rest.reverse) := by rw [ends, hparts]
  rw [ancestors, hends] at h
  simp only [List.mem_cons, List.mem_append, List.mem_map] at h
  rcases h with rfl | ⟨others, hothers, rfl⟩ | h
  · exact List.prefix_rfl
  · obtain ⟨hne, hsuffix⟩ := suffix_of_mem_shorter hothers
    have hbegins : others.reverse <+: rest := by
      rw [← List.reverse_reverse rest]
      exact List.reverse_prefix.2 hsuffix
    have hslash (part : String) (hpart : part ∈ first :: others.reverse) : '/' ∉ part.toList := by
      refine not_mem_of_mem_parts (?_ : part ∈ path.parts)
      rw [hparts]
      exact ((List.prefix_cons_inj first).2 hbegins).subset hpart
    have hothersPlain (part : String) (hpart : part ∈ others) : '/' ∉ part.toList :=
      hslash part (List.mem_cons_of_mem first (List.mem_reverse.2 hpart))
    rcases parts_ofEnds (hslash first List.mem_cons_self) hothersPlain with
      hofEnds | ⟨rfl, rfl, hroot⟩
    · apply text_prefix
      rw [hofEnds, hparts]
      exact (List.prefix_cons_inj first).2 hbegins
    · have habsolute : path.isAbsolute = true := (isAbsolute_iff hparts).2 ⟨rfl, by simpa using hne⟩
      rw [isAbsolute, beq_iff_eq] at habsolute
      obtain ⟨chars, hchars⟩ := List.head?_eq_some_iff.1 habsolute
      rw [hroot, hchars]
      exact ⟨chars, rfl⟩
  · split at h
    · cases h
    · rw [List.mem_singleton.1 h]
      exact List.nil_prefix

theorem bytes_of_mem_ancestors {path above : Path} (h : above ∈ path.ancestors) :
    above.text.utf8ByteSize ≤ path.text.utf8ByteSize := by
  obtain ⟨more, hmore⟩ := text_of_mem_ancestors h
  have htext : path.text = above.text ++ String.ofList more := by
    rw [← String.toList_inj, ← hmore, String.toList_append, String.toList_ofList]
  rw [htext, String.utf8ByteSize_append]
  omega

end Path

/-- A part of a path that is the name of a place. -/
structure IsName (part : String) : Prop where
  ne_empty : part ≠ ""
  ne_here : part ≠ "."
  ne_up : part ≠ ".."

instance (part : String) : Decidable (IsName part) :=
  decidable_of_iff (part ≠ "" ∧ part ≠ "." ∧ part ≠ "..")
    ⟨fun ⟨hempty, hhere, hup⟩ => ⟨hempty, hhere, hup⟩, fun h => ⟨h.ne_empty, h.ne_here, h.ne_up⟩⟩

theorem isName_of_getLast? {part : String} {c : Char} (h : part.toList.getLast? = some c)
    (hc : c ≠ '.') : IsName part := by
  constructor <;> rintro rfl
  · cases h
  · exact hc (Option.some.inj h).symm
  · exact hc (Option.some.inj h).symm

namespace Path

theorem isName_of_mem_way {path : Path} {part : String} (h : part ∈ path.way) (hup : part ≠ "..") :
    IsName part := by
  obtain ⟨-, hidle⟩ := List.mem_filter.1 h
  simp only [isIdle, Bool.not_eq_true', Bool.or_eq_false_iff, beq_eq_false_iff_ne] at hidle
  exact ⟨hidle.1, hidle.2, hup⟩

theorem componentOf?_of_isName {part : String} (h : IsName part) :
    componentOf? part = some (.name part) := by
  simp [componentOf?, isIdle, h.ne_empty, h.ne_here, h.ne_up]

/-- The last part of a text ends as the text does. -/
theorem parts_of_getLast? {text : String} {c : Char} (h : text.toList.getLast? = some c)
    (hc : c ≠ '/') :
    ∃ above last, (Path.mk text).parts = above ++ [last] ∧ last.toList.getLast? = some c := by
  obtain ⟨cs, hcs⟩ := List.getLast?_eq_some_iff.1 h
  obtain ⟨above, last, hsplit⟩ : ∃ above last, splitSlash cs = above ++ [last] :=
    ⟨_, _, (List.dropLast_append_getLast (splitSlash_ne_nil cs)).symm⟩
  have hwhole := splitSlash_append_of_not_mem hsplit (show '/' ∉ [c] by simpa using hc.symm)
  refine ⟨above.map String.ofList, String.ofList (last ++ [c]), ?_, by simp⟩
  simp [parts, hcs, hwhole]

theorem parts_append {text ending last : String} {above : List String}
    (hparts : (Path.mk text).parts = above ++ [last]) (hending : '/' ∉ ending.toList) :
    (Path.mk (text ++ ending)).parts = above ++ [last ++ ending] := by
  have hsplit : splitSlash text.toList = above.map String.toList ++ [last.toList] := by
    have := congrArg (List.map String.toList) hparts
    simpa [parts, Function.comp_def] using this
  have hwhole := splitSlash_append_of_not_mem hsplit hending
  simp [parts, hwhole, Function.comp_def]

end Path

/-- A path all of whose parts are names: it stays below whatever it is put under. -/
def Path.IsProper (path : Path) : Prop := ∀ part ∈ path.parts, IsName part

instance (path : Path) : Decidable path.IsProper :=
  inferInstanceAs (Decidable (∀ part ∈ path.parts, IsName part))

namespace Path.IsProper

variable {path : Path}

theorem isAbsolute_eq (h : path.IsProper) : path.isAbsolute = false := by
  obtain ⟨first, rest, hparts⟩ := List.exists_cons_of_ne_nil path.parts_ne_nil
  have hfirst : first ≠ "" := (h first (by simp [hparts])).ne_empty
  have := isAbsolute_iff hparts
  simpa [hfirst] using this

theorem endsInSlash_eq (h : path.IsProper) : path.endsInSlash = false := by
  by_contra hslash
  obtain ⟨s, -, hparts⟩ := parts_of_endsInSlash (by simpa using hslash)
  exact (h "" (by simp [hparts])).ne_empty rfl

theorem text_ne_empty (h : path.IsProper) : path.text ≠ "" := by
  intro htext
  have hpath : path = ⟨""⟩ := by rw [Path.mk.injEq, htext]
  exact (h "" (by simp [hpath])).ne_empty rfl

theorem steps_eq (h : path.IsProper) : FileTree.steps path = path.parts := by
  rw [FileTree.steps, List.filter_eq_self]
  intro part hpart
  simpa using (h part hpart).ne_empty

theorem way_eq (h : path.IsProper) : path.way = path.parts := by
  rw [way, List.filter_eq_self]
  intro part hpart
  have hname := h part hpart
  simp [isIdle, hname.ne_empty, hname.ne_here]

theorem trail_eq (h : path.IsProper) : path.trail = path.parts.map Component.name := by
  rw [trail, ← List.filterMap_eq_map]
  exact List.filterMap_congr fun part hpart => componentOf?_of_isName (h part hpart)

theorem lead_eq (h : path.IsProper) : path.lead = [] := by
  have hhead : path.parts.head? ≠ some "." := fun hhead =>
    (h "." (List.mem_of_head? hhead)).ne_here rfl
  simp [lead, h.isAbsolute_eq, hhead]

theorem components_eq_map (h : path.IsProper) :
    path.components = path.parts.map Component.name := by
  rw [components_eq, h.lead_eq, h.trail_eq, List.nil_append]

theorem isSame_iff {other : Path} (h : path.IsProper) (hother : other.IsProper) :
    path.isSame other = true ↔ path.parts = other.parts := by
  have hinj : Function.Injective (List.map Component.name) :=
    List.map_injective_iff.2 fun _ _ => Component.name.inj
  rw [isSame, beq_iff_eq, h.components_eq_map, hother.components_eq_map, hinj.eq_iff]

theorem of_join {base : Path} (h : (base.join path).IsProper) : path.IsProper := by
  by_cases habsolute : path.isAbsolute = true
  · unfold Path.join at h
    rwa [if_pos habsolute] at h
  · intro part hpart
    apply h
    rw [parts_join (by simpa using habsolute)]
    exact List.mem_append_right _ hpart

theorem endsInWay_join (h : path.IsProper) (base : Path) : (base.join path).EndsInWay := by
  obtain ⟨names, name, hparts⟩ : ∃ names name, path.parts = names ++ [name] :=
    ⟨_, _, (List.dropLast_append_getLast path.parts_ne_nil).symm⟩
  have hname : IsName name := h name (by simp [hparts])
  have hwhole : (base.join path).parts = base.stem ++ names ++ [name] := by
    rw [parts_join h.isAbsolute_eq, hparts, List.append_assoc]
  refine endsInWay_of_parts _ hwhole (Or.inl ?_)
  simp [isIdle, hname.ne_empty, hname.ne_here]

theorem join {base : Path} (hbase : ∀ part ∈ base.stem, IsName part) (h : path.IsProper) :
    (base.join path).IsProper := by
  intro part hpart
  rw [parts_join h.isAbsolute_eq, List.mem_append] at hpart
  rcases hpart with hpart | hpart
  · exact hbase part hpart
  · exact h part hpart

end Path.IsProper

/-- A path that leads down from wherever it is put, by names and by nothing else. Idle parts may stand between
the names and after them. -/
structure Path.Descends (path : Path) : Prop where
  text_ne_empty : path.text ≠ ""
  relative : path.isAbsolute = false
  not_here : Component.here ∉ path.components
  not_up : Component.up ∉ path.components

namespace Path.Descends

variable {path other : Path}

theorem lead_eq (h : path.Descends) : path.lead = [] := by
  have hhere : Component.here ∉ path.lead := by
    intro hmem
    apply h.not_here
    rw [components_eq]
    exact List.mem_append_left _ hmem
  unfold lead at hhere ⊢
  rw [h.relative] at hhere ⊢
  split
  · next hroot => cases hroot
  · split
    · next hfirst =>
      rw [if_neg (by simp), if_pos hfirst] at hhere
      exact absurd List.mem_cons_self hhere
    · rfl

theorem isName_of_mem_way (h : path.Descends) {part : String} (hpart : part ∈ path.way) : IsName part := by
  refine Path.isName_of_mem_way hpart ?_
  rintro rfl
  apply h.not_up
  rw [components_eq, h.lead_eq, List.nil_append, trail, List.mem_filterMap]
  exact ⟨"..", (List.mem_filter.1 hpart).1, rfl⟩

theorem components_eq_map (h : path.Descends) : path.components = path.way.map Component.name := by
  rw [components_eq, h.lead_eq, List.nil_append, trail, way, ← List.filterMap_eq_map,
    List.filterMap_filter]
  apply List.filterMap_congr
  intro part hpart
  cases hidle : isIdle part with
  | true => simp [componentOf?, hidle]
  | false =>
    have hmem : part ∈ path.way := List.mem_filter.2 ⟨hpart, by simp [hidle]⟩
    simp [componentOf?_of_isName (h.isName_of_mem_way hmem)]

theorem way_ne_nil (h : path.Descends) : path.way ≠ [] := by
  obtain ⟨first, rest, hparts⟩ := List.exists_cons_of_ne_nil path.parts_ne_nil
  have hempty : first ≠ "" := by
    rintro rfl
    have hrest : rest ≠ [] := by
      rintro rfl
      exact h.text_ne_empty (congrArg Path.text (eq_of_parts (hparts.trans parts_empty.symm)))
    have habsolute := (isAbsolute_iff hparts).2 ⟨rfl, hrest⟩
    rw [h.relative] at habsolute
    cases habsolute
  have hhere : first ≠ "." := by
    rintro rfl
    have hlead := h.lead_eq
    simp [lead, h.relative, hparts] at hlead
  apply List.ne_nil_of_mem (a := first)
  rw [way, List.mem_filter, hparts]
  exact ⟨List.mem_cons_self, by simp [isIdle, hempty, hhere]⟩

theorem exists_way (h : path.Descends) :
    ∃ names name, path.way = names ++ [name] ∧ (∀ part ∈ names, IsName part) ∧ IsName name := by
  obtain ⟨names, name, hway⟩ : ∃ names name, path.way = names ++ [name] :=
    ⟨_, _, (List.dropLast_append_getLast h.way_ne_nil).symm⟩
  refine ⟨names, name, hway, ?_, ?_⟩
  · intro part hpart
    exact h.isName_of_mem_way (by simp [hway, hpart])
  · exact h.isName_of_mem_way (by simp [hway])

theorem way_inj (h : path.Descends) (hother : other.Descends) :
    path.components = other.components ↔ path.way = other.way := by
  have hinj : Function.Injective (List.map Component.name) :=
    List.map_injective_iff.2 fun _ _ => Component.name.inj
  rw [h.components_eq_map, hother.components_eq_map, hinj.eq_iff]

end Path.Descends

theorem Path.IsProper.descends {path : Path} (h : path.IsProper) : path.Descends where
  text_ne_empty := h.text_ne_empty
  relative := h.isAbsolute_eq
  not_here := by simp [h.components_eq_map]
  not_up := by simp [h.components_eq_map]

end EntityForge
