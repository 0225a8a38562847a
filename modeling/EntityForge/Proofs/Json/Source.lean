import EntityForge.Json.Tree

/-!
What a tree keeps of its text.

A text that does not break off before its root is complete is the lexemes of its tree, one after the other and
each at its place, and what follows the root. While the tree is built, the lexemes that have been read can be
told from the open frames and from what may come next. Main statements: `step_accounts` and `lex_eq_lexemes`.
-/

namespace EntityForge.Json

mutual

/-- The lexemes of a tree in the order of the text. -/
def Node.lexemes : Node → List Token
  | .word w => [.word w]
  | .numeral n => [.numeral n]
  | .text q => [.quoted q]
  | .array items _ =>
    .mark .openBracket :: ([.mark .comma].intercalate (Node.itemLexemes items) ++ [.mark .closeBracket])
  | .object members _ =>
    .mark .openBrace :: ([.mark .comma].intercalate (Node.memberLexemes members) ++ [.mark .closeBrace])
  | .torn t => [.torn t]

def Node.itemLexemes : List Node → List (List Token)
  | [] => []
  | item :: items => item.lexemes :: Node.itemLexemes items

def Node.memberLexemes : List (Quoted × Node) → List (List Token)
  | [] => []
  | (key, value) :: members =>
    (.quoted key :: .mark .colon :: value.lexemes) :: Node.memberLexemes members

end

theorem Node.itemLexemes_eq (items : List Node) : itemLexemes items = items.map lexemes := by
  induction items with
  | nil => rfl
  | cons item items ih => rw [itemLexemes, ih, List.map_cons]

theorem Node.memberLexemes_eq (members : List (Quoted × Node)) : memberLexemes members =
    members.map fun member => .quoted member.1 :: .mark .colon :: member.2.lexemes := by
  induction members with
  | nil => rfl
  | cons member members ih => rw [memberLexemes, ih, List.map_cons]

/-- Parts of an array or object, each with the comma after it. -/
def withCommas (parts : List (List Token)) : List Token := parts.flatMap fun part => part ++ [.mark .comma]

theorem withCommas_concat (parts : List (List Token)) (part : List Token) :
    withCommas (parts ++ [part]) = withCommas parts ++ part ++ [.mark .comma] := by
  simp [withCommas]

theorem intercalate_concat (parts : List (List Token)) (last : List Token) :
    [.mark .comma].intercalate (parts ++ [last]) = withCommas parts ++ last := by
  induction parts with
  | nil => simp [withCommas]
  | cons part parts ih =>
    obtain ⟨next, rest, hnext⟩ := List.exists_cons_of_ne_nil (List.append_ne_nil_of_right_ne_nil parts
      (List.cons_ne_nil last []))
    rw [List.cons_append, hnext, List.intercalate_cons_cons, ← hnext, ih]
    simp [withCommas]

/-- What has been read of an array or object when its next part begins. -/
def Frame.front : Frame → List Token
  | .array items => .mark .openBracket :: withCommas (Node.itemLexemes items.reverse)
  | .object members _ => .mark .openBrace :: withCommas (Node.memberLexemes members.reverse)

/-- The lexemes that have been read when the text goes on inside the open frames. All frames but the innermost
wait for a value. -/
inductive Reads : Expecting → List Frame → List Token → Prop
  | start : Reads .value [] []
  | item {frames : List Frame} {before : List Token} (items : List Node) (h : Reads .value frames before) :
    Reads .value (.array items :: frames) (before ++ Frame.front (.array items))
  | memberValue {frames : List Frame} {before : List Token} (members : List (Quoted × Node)) (key : Quoted)
    (h : Reads .value frames before) : Reads .value (.object members key :: frames)
      (before ++ Frame.front (.object members key) ++ [.quoted key, .mark .colon])
  | itemOrEnd {frames : List Frame} {before : List Token} (h : Reads .value frames before) :
    Reads .itemOrEnd (.array [] :: frames) (before ++ [.mark .openBracket])
  | keyOrEnd {frames : List Frame} {before : List Token} (key : Quoted) (h : Reads .value frames before) :
    Reads .keyOrEnd (.object [] key :: frames) (before ++ [.mark .openBrace])
  | key {frames : List Frame} {before : List Token} (members : List (Quoted × Node)) (key : Quoted)
    (h : Reads .value frames before) :
    Reads .key (.object members key :: frames) (before ++ Frame.front (.object members key))
  | colon {frames : List Frame} {before : List Token} (members : List (Quoted × Node)) (key : Quoted)
    (h : Reads .value frames before) : Reads .colon (.object members key :: frames)
      (before ++ Frame.front (.object members key) ++ [.quoted key])
  | afterItem {frames : List Frame} {before : List Token} (items : List Node) (item : Node)
    (h : Reads .value frames before) : Reads .separator (.array (item :: items) :: frames)
      (before ++ Frame.front (.array items) ++ item.lexemes)
  | afterMember {frames : List Frame} {before : List Token} (members : List (Quoted × Node)) (key last : Quoted)
    (value : Node) (h : Reads .value frames before) :
    Reads .separator (.object ((key, value) :: members) last :: frames)
      (before ++ Frame.front (.object members key) ++ .quoted key :: .mark .colon :: value.lexemes)

/-- What has been read is accounted for by the open frames, or by the root if that is untorn. -/
def Progress.Accounts (read : List Token) : Progress → Prop
  | .more expecting frames => Reads expecting frames read
  | .root node => node.tear? = none → read = node.lexemes

section Steps

variable {frames : List Frame} {before : List Token}

theorem torn_ne_none (t : Tear) : (Node.torn t).tear? ≠ none := Option.some_ne_none t

theorem tear?_unwind {t : Tear} {node : Node} (h : node.tear? ≠ none) (frames : List Frame) :
    (unwind t frames node).tear? ≠ none := by
  induction frames generalizing node with
  | nil => exact h
  | cons frame frames ih =>
    refine ih ?_
    cases frame <;> exact nofun

theorem tear?_abandon (b : Break) (frames : List Frame) : (abandon b frames).tear? ≠ none := by
  cases frames with
  | nil => exact torn_ne_none _
  | cons frame frames =>
    refine tear?_unwind ?_ frames
    cases frame <;> exact nofun

theorem unwind_accounts {t : Tear} {node : Node} (h : node.tear? ≠ none) (frames : List Frame)
    (read : List Token) : (Progress.root (unwind t frames node)).Accounts read :=
  fun hroot => absurd hroot (tear?_unwind h frames)

theorem torn_accounts (t : Tear) (frames : List Frame) (read : List Token) :
    (Progress.root (unwind t frames (.torn t))).Accounts read :=
  unwind_accounts (torn_ne_none t) frames read

theorem abandon_accounts (b : Break) (frames : List Frame) (read : List Token) :
    (Progress.root (abandon b frames)).Accounts read :=
  fun hroot => absurd hroot (tear?_abandon b frames)

theorem complete_accounts (h : Reads .value frames before) (node : Node) :
    (Progress.complete frames node).Accounts (before ++ node.lexemes) := by
  cases h with
  | start => exact fun _ => List.nil_append _
  | item items h => exact .afterItem items node h
  | memberValue members key h =>
    have hnext := Reads.afterMember members key key node h
    simpa [Progress.complete, Progress.Accounts, Frame.push] using hnext

theorem value_accounts (h : Reads .value frames before) (token : Token) :
    (Progress.value frames token).Accounts (before ++ [token]) := by
  cases token with
  | word w => exact complete_accounts h (.word w)
  | numeral n => exact complete_accounts h (.numeral n)
  | quoted q =>
    rw [Progress.value, Progress.withText]
    cases hq : q.tear with
    | none => exact complete_accounts h (.text q)
    | some t =>
      refine unwind_accounts ?_ frames _
      rw [Node.tear?, hq]
      exact Option.some_ne_none t
  | mark m =>
    cases m with
    | openBracket => exact .itemOrEnd h
    | openBrace => exact .keyOrEnd _ h
    | _ => exact torn_accounts _ frames _
  | torn t => exact torn_accounts t frames _
  | stray => exact torn_accounts _ frames _

theorem key_accounts (h : Reads .value frames before) (members : List (Quoted × Node)) (last : Quoted)
    (token : Token) : (Progress.key (.object members last :: frames) token).Accounts
      (before ++ Frame.front (.object members last) ++ [token]) := by
  cases token with
  | quoted q =>
    rw [Progress.key, Progress.withKey]
    cases hq : q.tear with
    | none => exact .colon members q h
    | some t => exact torn_accounts t _ _
  | _ => exact abandon_accounts _ _ _

theorem lexemes_array (items : List Node) (item : Node) (tear : Option Tear) :
    (Node.array (item :: items).reverse tear).lexemes =
      Frame.front (.array items) ++ item.lexemes ++ [.mark .closeBracket] := by
  rw [Node.lexemes, Frame.front, Node.itemLexemes_eq, List.reverse_cons, List.map_append, List.map_singleton,
    intercalate_concat, ← Node.itemLexemes_eq]
  simp

theorem lexemes_object (members : List (Quoted × Node)) (key last : Quoted) (value : Node)
    (tear : Option Tear) : (Node.object ((key, value) :: members).reverse tear).lexemes =
      Frame.front (.object members last) ++ .quoted key :: .mark .colon :: value.lexemes ++
        [.mark .closeBrace] := by
  rw [Node.lexemes, Frame.front, Node.memberLexemes_eq, List.reverse_cons, List.map_append, List.map_singleton,
    intercalate_concat, ← Node.memberLexemes_eq]
  simp

theorem front_array_cons (items : List Node) (item : Node) : Frame.front (.array (item :: items)) =
    Frame.front (.array items) ++ item.lexemes ++ [.mark .comma] := by
  rw [Frame.front, Frame.front, Node.itemLexemes_eq, List.reverse_cons, List.map_append, List.map_singleton,
    withCommas_concat, ← Node.itemLexemes_eq]
  simp

theorem front_object_cons (members : List (Quoted × Node)) (key last : Quoted) (value : Node) :
    Frame.front (.object ((key, value) :: members) last) =
      Frame.front (.object members key) ++ .quoted key :: .mark .colon :: value.lexemes ++
        [.mark .comma] := by
  rw [Frame.front, Frame.front, Node.memberLexemes_eq, List.reverse_cons, List.map_append, List.map_singleton,
    withCommas_concat, ← Node.memberLexemes_eq]
  simp

theorem itemOrEnd_accounts (h : Reads .value frames before) (token : Token) :
    (Progress.step .itemOrEnd (.array [] :: frames) token).Accounts (before ++ [.mark .openBracket] ++ [token]) := by
  cases token with
  | mark m =>
    cases m with
    | closeBracket =>
      rw [List.append_assoc]
      exact complete_accounts h (.array [] none)
    | _ => exact value_accounts (.item [] h) _
  | _ => exact value_accounts (.item [] h) _

theorem keyOrEnd_accounts (h : Reads .value frames before) (key : Quoted) (token : Token) :
    (Progress.step .keyOrEnd (.object [] key :: frames) token).Accounts
      (before ++ [.mark .openBrace] ++ [token]) := by
  cases token with
  | mark m =>
    cases m with
    | closeBrace =>
      rw [List.append_assoc]
      exact complete_accounts h (.object [] none)
    | _ => exact key_accounts h [] key _
  | _ => exact key_accounts h [] key _

theorem colon_accounts (h : Reads .value frames before) (members : List (Quoted × Node)) (key : Quoted)
    (token : Token) : (Progress.step .colon (.object members key :: frames) token).Accounts
      (before ++ Frame.front (.object members key) ++ [.quoted key] ++ [token]) := by
  cases token with
  | mark m =>
    cases m with
    | colon =>
      rw [List.append_assoc]
      exact .memberValue members key h
    | _ => exact torn_accounts _ _ _
  | _ => exact torn_accounts _ _ _

/-- After an item a comma goes on to the next one, and a bracket completes the array. -/
theorem afterItem_accounts (h : Reads .value frames before) (items : List Node) (item : Node) (token : Token) :
    (Progress.step .separator (.array (item :: items) :: frames) token).Accounts
      (before ++ Frame.front (.array items) ++ item.lexemes ++ [token]) := by
  cases token with
  | mark m =>
    cases m with
    | comma =>
      rw [List.append_assoc, List.append_assoc, ← List.append_assoc _ item.lexemes, ← front_array_cons]
      exact .item (item :: items) h
    | closeBracket =>
      have hnext := complete_accounts h (.array (item :: items).reverse none)
      rw [lexemes_array, ← List.append_assoc, ← List.append_assoc] at hnext
      exact hnext
    | _ => exact abandon_accounts _ _ _
  | _ => exact abandon_accounts _ _ _

/-- After a member a comma goes on to the next key, and a brace completes the object. -/
theorem afterMember_accounts (h : Reads .value frames before) (members : List (Quoted × Node))
    (key last : Quoted) (value : Node) (token : Token) :
    (Progress.step .separator (.object ((key, value) :: members) last :: frames) token).Accounts
      (before ++ Frame.front (.object members key) ++ .quoted key :: .mark .colon :: value.lexemes ++
        [token]) := by
  cases token with
  | mark m =>
    cases m with
    | comma =>
      rw [List.append_assoc, List.append_assoc, ← List.append_assoc _ (_ :: _), ← front_object_cons]
      exact .key ((key, value) :: members) last h
    | closeBrace =>
      have hnext := complete_accounts h (.object ((key, value) :: members).reverse none)
      rw [lexemes_object members key key, ← List.append_assoc, ← List.append_assoc] at hnext
      exact hnext
    | _ => exact abandon_accounts _ _ _
  | _ => exact abandon_accounts _ _ _

/-- One lexeme more is accounted for, whatever it is. -/
theorem step_accounts {expecting : Expecting} {read : List Token} (h : Reads expecting frames read)
    (token : Token) : (Progress.step expecting frames token).Accounts (read ++ [token]) := by
  cases h with
  | start => exact value_accounts .start token
  | item items h => exact value_accounts (.item items h) token
  | memberValue members key h => exact value_accounts (.memberValue members key h) token
  | itemOrEnd h => exact itemOrEnd_accounts h token
  | keyOrEnd key h => exact keyOrEnd_accounts h key token
  | key members last h => exact key_accounts h members last token
  | colon members key h => exact colon_accounts h members key token
  | afterItem items item h => exact afterItem_accounts h items item token
  | afterMember members key last value h => exact afterMember_accounts h members key last value token

theorem tear?_atEnd (expecting : Expecting) (frames : List Frame) : (atEnd expecting frames).tear? ≠ none := by
  cases expecting with
  | value | colon => exact tear?_unwind (torn_ne_none _) frames
  | _ => exact tear?_abandon .cutShort frames

theorem build_accounts {expecting : Expecting} {read : List Token} (h : Reads expecting frames read)
    (rest : List Token) (hroot : (build expecting frames rest).1.tear? = none) :
    read ++ rest = (build expecting frames rest).1.lexemes ++ (build expecting frames rest).2 := by
  induction rest generalizing expecting frames read with
  | nil => exact absurd hroot (tear?_atEnd expecting frames)
  | cons token rest ih =>
    have hstep := step_accounts h token
    rw [build] at hroot ⊢
    cases hnext : Progress.step expecting frames token with
    | more expecting frames =>
      rw [hnext] at hroot hstep
      rw [← ih hstep hroot, List.append_assoc, List.singleton_append]
    | root node =>
      rw [hnext] at hroot hstep
      rw [← hstep hroot, List.append_assoc, List.singleton_append]

end Steps

/-- An untorn text is the lexemes of its tree and what follows them. -/
theorem lex_eq_lexemes {text : String} (h : (Node.ofText text).1.tear? = none) :
    lex text = (Node.ofText text).1.lexemes ++ (Node.ofText text).2 :=
  build_accounts .start (lex text) h

end EntityForge.Json
