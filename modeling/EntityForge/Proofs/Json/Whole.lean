import EntityForge.Proofs.Json.RoundTrip
import EntityForge.Proofs.Json.Source

/-!
Trees of texts that are JSON from beginning to end.

A tree is whole if no part of it is torn. The tree of a text is whole as soon as its root is untorn, since a tear
marks everything around it; and the lexemes of a whole tree are built into that tree and nothing else, whatever
comes after them. Main statements: `whole_of_untorn`, `build_of_whole` and `ofText_of_whole`.
-/

namespace EntityForge.Json

/-- A tree without a tear anywhere in it. -/
inductive Node.Whole : Node → Prop
  | word (w : Word) : Whole (.word w)
  | numeral (n : Numeral) : Whole (.numeral n)
  | text {q : Quoted} (untorn : q.tear = none) : Whole (.text q)
  | array {items : List Node} (whole : ∀ item ∈ items, item.Whole) : Whole (.array items none)
  | object {members : List (Quoted × Node)} (untorn : ∀ member ∈ members, member.1.tear = none)
      (whole : ∀ member ∈ members, member.2.Whole) : Whole (.object members none)

theorem Node.Whole.tear_eq {node : Node} (h : node.Whole) : node.tear? = none := by
  cases h with
  | text untorn => exact untorn
  | _ => rfl

/-- A whole value is passed over. -/
theorem Node.Whole.skip_eq {node : Node} (h : node.Whole) : node.skip = .ok () := by
  rw [Node.skip, h.tear_eq]

theorem membersOf_eq_map (members : List (String × Json)) :
    membersOf members = members.map fun (key, value) => (quotedOf key, nodeOf value) := by
  induction members with
  | nil => rfl
  | cons member members ih => rw [membersOf, ih, List.map_cons]

mutual

/-- What is printed has a whole tree. -/
theorem whole_nodeOf (value : Json) : (nodeOf value).Whole := by
  match value with
  | .null => exact .word .null
  | .bool true => exact .word .true
  | .bool false => exact .word .false
  | .number (.int value) => exact .numeral (.ofInt value)
  | .number (.float _) => exact .word .null
  | .string s => exact .text rfl
  | .array items => exact .array (whole_nodesOf items)
  | .object members =>
    have h := whole_membersOf members
    exact .object (fun member hmember => (h member hmember).1) fun member hmember => (h member hmember).2

theorem whole_nodesOf (items : List Json) : ∀ node ∈ nodesOf items, node.Whole := by
  match items with
  | [] => exact nofun
  | item :: items => exact List.forall_mem_cons.2 ⟨whole_nodeOf item, whole_nodesOf items⟩

theorem whole_membersOf (members : List (String × Json)) :
    ∀ member ∈ membersOf members, member.1.tear = none ∧ member.2.Whole := by
  match members with
  | [] => exact nofun
  | (key, value) :: members => exact List.forall_mem_cons.2 ⟨⟨rfl, whole_nodeOf value⟩, whole_membersOf members⟩

end

/-- All that is open is whole so far. A key is only looked at once its colon has come. -/
inductive Frame.Whole : Frame → Prop
  | array {items : List Node} (whole : ∀ item ∈ items, item.Whole) : Whole (.array items)
  | object {members : List (Quoted × Node)} {key : Quoted} (untorn : ∀ member ∈ members, member.1.tear = none)
      (whole : ∀ member ∈ members, member.2.Whole) (key_untorn : key.tear = none) : Whole (.object members key)

/-- What has been built is whole, unless it has been torn for good. -/
def Progress.Whole : Progress → Prop
  | .more _ frames => ∀ frame ∈ frames, frame.Whole
  | .root node => node.tear? = none → node.Whole

section Steps

variable {frame : Frame} {frames : List Frame} {node : Node}

theorem Frame.Whole.push (h : frame.Whole) (hnode : node.Whole) : (frame.push node).Whole := by
  cases h with
  | array whole => exact .array (List.forall_mem_cons.2 ⟨hnode, whole⟩)
  | object untorn whole key_untorn =>
    exact .object (List.forall_mem_cons.2 ⟨key_untorn, untorn⟩) (List.forall_mem_cons.2 ⟨hnode, whole⟩) key_untorn

theorem Frame.Whole.close (h : frame.Whole) : (frame.close none).Whole := by
  cases h with
  | array whole => exact .array fun item hitem => whole item (List.mem_reverse.1 hitem)
  | object untorn whole key_untorn =>
    exact .object (fun member hmember => untorn member (List.mem_reverse.1 hmember))
      fun member hmember => whole member (List.mem_reverse.1 hmember)

theorem whole_of_torn (h : node.tear? ≠ none) : (Progress.root node).Whole := fun hroot => absurd hroot h

variable (h : ∀ frame ∈ frames, frame.Whole)

include h

theorem whole_complete (hnode : node.Whole) : (Progress.complete frames node).Whole := by
  cases frames with
  | nil => exact fun _ => hnode
  | cons frame frames =>
    obtain ⟨hframe, hframes⟩ := List.forall_mem_cons.1 h
    exact List.forall_mem_cons.2 ⟨hframe.push hnode, hframes⟩

theorem whole_close : (Progress.close frames).Whole := by
  cases frames with
  | nil => exact whole_of_torn (tear?_abandon .malformed [])
  | cons frame frames =>
    obtain ⟨hframe, hframes⟩ := List.forall_mem_cons.1 h
    exact whole_complete hframes hframe.close

theorem whole_value (token : Token) : (Progress.value frames token).Whole := by
  cases token with
  | word w => exact whole_complete h (.word w)
  | numeral n => exact whole_complete h (.numeral n)
  | quoted q =>
    rw [Progress.value, Progress.withText]
    cases hq : q.tear with
    | none => exact whole_complete h (.text hq)
    | some t =>
      refine whole_of_torn (tear?_unwind ?_ frames)
      rw [Node.tear?, hq]
      exact Option.some_ne_none t
  | mark m =>
    cases m with
    | openBracket => exact List.forall_mem_cons.2 ⟨.array (List.forall_mem_nil _), h⟩
    | openBrace => exact List.forall_mem_cons.2 ⟨.object (List.forall_mem_nil _) (List.forall_mem_nil _) rfl, h⟩
    | _ => exact whole_of_torn (tear?_unwind (torn_ne_none _) frames)
  | torn t => exact whole_of_torn (tear?_unwind (torn_ne_none t) frames)
  | stray => exact whole_of_torn (tear?_unwind (torn_ne_none _) frames)

theorem whole_withKey (q : Quoted) : (Progress.withKey frames q).Whole := by
  cases frames with
  | nil => exact whole_of_torn (tear?_abandon .malformed [])
  | cons frame frames =>
    obtain ⟨hframe, hframes⟩ := List.forall_mem_cons.1 h
    cases hframe with
    | array whole => exact whole_of_torn (tear?_abandon .malformed _)
    | object untorn whole key_untorn =>
      unfold Progress.withKey
      cases hq : q.tear with
      | none => exact List.forall_mem_cons.2 ⟨.object untorn whole hq, hframes⟩
      | some t => exact whole_of_torn (tear?_unwind (torn_ne_none t) _)

theorem whole_key (token : Token) : (Progress.key frames token).Whole := by
  cases token with
  | quoted q => exact whole_withKey h q
  | _ => exact whole_of_torn (tear?_abandon .malformed _)

theorem whole_separator (token : Token) : (Progress.separator frames token).Whole := by
  unfold Progress.separator
  split
  · exact h
  · exact h
  · exact whole_close h
  · exact whole_close h
  · exact whole_of_torn (tear?_abandon .malformed _)

/-- One lexeme more leaves whole what is whole, or tears the root. -/
theorem whole_step (expecting : Expecting) (token : Token) : (Progress.step expecting frames token).Whole := by
  unfold Progress.step
  split
  · exact whole_value h token
  · exact whole_close h
  · exact whole_value h token
  · exact whole_close h
  · exact whole_key h token
  · exact whole_key h token
  · exact h
  · exact whole_of_torn (tear?_unwind (torn_ne_none _) frames)
  · exact whole_separator h token

theorem whole_build (expecting : Expecting) (tokens : List Token)
    (hroot : (build expecting frames tokens).1.tear? = none) : (build expecting frames tokens).1.Whole := by
  induction tokens generalizing expecting frames with
  | nil => exact absurd hroot (tear?_atEnd expecting frames)
  | cons token tokens ih =>
    have hstep := whole_step h expecting token
    rw [build] at hroot ⊢
    cases hnext : Progress.step expecting frames token with
    | more expecting frames =>
      rw [hnext] at hroot hstep
      exact ih hstep expecting hroot
    | root node =>
      rw [hnext] at hroot hstep
      exact hstep hroot

end Steps

/-- The tree of a text is whole if its root is untorn. -/
theorem whole_of_untorn {text : String} (h : (Node.ofText text).1.tear? = none) : (Node.ofText text).1.Whole :=
  whole_build (List.forall_mem_nil Frame.Whole) .value (lex text) h

section Lexemes

/-- The items of an array, with their commas, and the bracket after them. -/
theorem build_of_items {items : List Node} (hne : items ≠ [])
    (h : ∀ item ∈ items, ∀ {expecting : Expecting}, expecting = .value ∨ expecting = .itemOrEnd →
      ∀ (frames : List Frame) (rest : List Token),
        build expecting frames (item.lexemes ++ rest) = resume (Progress.complete frames item) rest)
    {expecting : Expecting} (hvalue : expecting = .value ∨ expecting = .itemOrEnd) (before : List Node)
    (frames : List Frame) (rest : List Token) :
    build expecting (.array before :: frames)
        ([.mark .comma].intercalate (Node.itemLexemes items) ++ .mark .closeBracket :: rest) =
      resume (Progress.complete frames (.array (before.reverse ++ items) none)) rest := by
  induction items generalizing expecting before with
  | nil => exact absurd rfl hne
  | cons item items ih =>
    obtain ⟨hitem, hitems⟩ := List.forall_mem_cons.1 h
    cases items with
    | nil =>
      rw [Node.itemLexemes, Node.itemLexemes, List.intercalate_singleton, hitem hvalue, ← List.reverse_cons]
      exact build_cons _ _ _ _
    | cons next items =>
      have hrest := ih (List.cons_ne_nil _ _) hitems (Or.inl rfl) (item :: before)
      rw [List.reverse_cons, List.append_assoc] at hrest
      rw [Node.itemLexemes, Node.itemLexemes, List.intercalate_cons_cons, ← Node.itemLexemes, List.append_assoc,
        List.append_assoc, hitem hvalue]
      exact (build_cons .separator (.array (item :: before) :: frames) (.mark .comma) _).trans hrest

/-- The same of the members of an object. -/
theorem build_of_members {members : List (Quoted × Node)} (hne : members ≠ [])
    (huntorn : ∀ member ∈ members, member.1.tear = none)
    (h : ∀ member ∈ members, ∀ {expecting : Expecting}, expecting = .value ∨ expecting = .itemOrEnd →
      ∀ (frames : List Frame) (rest : List Token),
        build expecting frames (member.2.lexemes ++ rest) = resume (Progress.complete frames member.2) rest)
    {expecting : Expecting} (hkey : expecting = .key ∨ expecting = .keyOrEnd) (before : List (Quoted × Node))
    (last : Quoted) (frames : List Frame) (rest : List Token) :
    build expecting (.object before last :: frames)
        ([.mark .comma].intercalate (Node.memberLexemes members) ++ .mark .closeBrace :: rest) =
      resume (Progress.complete frames (.object (before.reverse ++ members) none)) rest := by
  induction members generalizing expecting before last with
  | nil => exact absurd rfl hne
  | cons member members ih =>
    obtain ⟨key, value⟩ := member
    obtain ⟨hkeyUntorn, huntorn⟩ := List.forall_mem_cons.1 huntorn
    obtain ⟨hmember, hmembers⟩ := List.forall_mem_cons.1 h
    -- the key and the colon after it lead to the place of the value
    have hopen (more : List Token) : build expecting (.object before last :: frames)
        (.quoted key :: .mark .colon :: more) = build .value (.object before key :: frames) more := by
      have hwith : Progress.withKey (.object before last :: frames) key =
          .more .colon (.object before key :: frames) := by
        simp only [Progress.withKey, show key.tear = none from hkeyUntorn]
      have hstep : Progress.step expecting (.object before last :: frames) (.quoted key) =
          .more .colon (.object before key :: frames) := by
        rcases hkey with rfl | rfl <;> exact hwith
      rw [build_cons, hstep]
      rfl
    cases members with
    | nil =>
      rw [Node.memberLexemes, Node.memberLexemes, List.intercalate_singleton, List.cons_append, List.cons_append,
        hopen, hmember (Or.inl rfl), ← List.reverse_cons]
      exact build_cons _ _ _ _
    | cons next members =>
      have hrest := ih (List.cons_ne_nil _ _) huntorn hmembers (Or.inl rfl) ((key, value) :: before) key
      rw [List.reverse_cons, List.append_assoc] at hrest
      rw [Node.memberLexemes, Node.memberLexemes, List.intercalate_cons_cons, ← Node.memberLexemes, List.append_assoc,
        List.append_assoc, List.cons_append, List.cons_append, hopen, hmember (Or.inl rfl)]
      exact (build_cons .separator (.object ((key, value) :: before) key :: frames) (.mark .comma) _).trans hrest

/-- Where a value may stand, the lexemes of a whole tree add that tree to what is there, and nothing else. -/
theorem build_of_whole {node : Node} (h : node.Whole) {expecting : Expecting}
    (hvalue : expecting = .value ∨ expecting = .itemOrEnd) (frames : List Frame) (rest : List Token) :
    build expecting frames (node.lexemes ++ rest) = resume (Progress.complete frames node) rest := by
  induction h generalizing expecting frames rest with
  | word w => rcases hvalue with rfl | rfl <;> exact build_cons _ _ _ _
  | numeral n => rcases hvalue with rfl | rfl <;> exact build_cons _ _ _ _
  | @text q untorn =>
    have hwith : Progress.withText frames q = Progress.complete frames (.text q) := by
      simp only [Progress.withText, untorn]
    rw [← hwith]
    rcases hvalue with rfl | rfl <;> exact build_cons _ _ _ _
  | @array items whole ih =>
    rw [Node.lexemes, List.cons_append, List.append_assoc, build_cons]
    cases items with
    | nil => rcases hvalue with rfl | rfl <;> exact build_cons _ _ _ _
    | cons item items =>
      have hitems := build_of_items (List.cons_ne_nil item items) ih (Or.inr rfl) [] frames rest
      rcases hvalue with rfl | rfl <;> exact hitems
  | @object members untorn whole ih =>
    rw [Node.lexemes, List.cons_append, List.append_assoc, build_cons]
    cases members with
    | nil => rcases hvalue with rfl | rfl <;> exact build_cons _ _ _ _
    | cons member members =>
      have hmembers := build_of_members (List.cons_ne_nil member members) untorn ih (Or.inr rfl) [] ⟨[], none⟩ frames
        rest
      rcases hvalue with rfl | rfl <;> exact hmembers

/-- A text that consists of the lexemes of a whole tree has that tree, and nothing after it. -/
theorem ofText_of_whole {node : Node} (h : node.Whole) {text : String} (hlex : lex text = node.lexemes) :
    Node.ofText text = (node, []) := by
  rw [Node.ofText, hlex, ← List.append_nil node.lexemes, build_of_whole h (Or.inl rfl)]
  rfl

end Lexemes

end EntityForge.Json
