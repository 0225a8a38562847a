import EntityForge.Proofs.Entries
import EntityForge.Proofs.Json.Lexeme

/-!
What is printed can be read back.

A value is compared with what it is on every level between the two texts: its tokens, and its tree. Both
are the same however the value is laid out in lines. Main statements: `parse_prettyText` and
`parse_compactText`.
-/

namespace EntityForge

namespace Json

open Text (isAsciiDigit)

mutual

/-- The tokens of a value that holds no number but whole ones. -/
def spelling : Json → List Token
  | .null => [.word .null]
  | .bool true => [.word .true]
  | .bool false => [.word .false]
  | .number (.int value) => [.numeral (.ofInt value)]
  | .number (.float _) => []
  | .string s => [.quoted (quotedOf s)]
  | .array items => .mark .openBracket :: (spellingItems items ++ [.mark .closeBracket])
  | .object members => .mark .openBrace :: (spellingMembers members ++ [.mark .closeBrace])

def spellingItems : List Json → List Token
  | [] => []
  | [item] => spelling item
  | item :: items => spelling item ++ .mark .comma :: spellingItems items

def spellingMembers : List (String × Json) → List Token
  | [] => []
  | [(key, value)] => .quoted (quotedOf key) :: .mark .colon :: spelling value
  | (key, value) :: members =>
    .quoted (quotedOf key) :: .mark .colon ::
      (spelling value ++ .mark .comma :: spellingMembers members)

end

mutual

/-- The tree of a value that holds no number but whole ones. -/
def nodeOf : Json → Node
  | .null => .word .null
  | .bool true => .word .true
  | .bool false => .word .false
  | .number (.int value) => .numeral (.ofInt value)
  | .number (.float _) => .word .null
  | .string s => .text (quotedOf s)
  | .array items => .array (nodesOf items) none
  | .object members => .object (membersOf members) none

def nodesOf : List Json → List Node
  | [] => []
  | item :: items => nodeOf item :: nodesOf items

def membersOf : List (String × Json) → List (Quoted × Node)
  | [] => []
  | (key, value) :: members => (quotedOf key, nodeOf value) :: membersOf members

end

mutual

/-- A value of which nothing gets lost when it is printed and read: its numbers are whole and have 64 bits,
no key comes twice in an object, and no more than `room` arrays and objects lie in each other. -/
def Readable (room : Nat) : Json → Prop
  | .null => True
  | .bool _ => True
  | .number (.int value) => -(UInt64.size / 2 : Nat) ≤ value ∧ value < UInt64.size
  | .number (.float _) => False
  | .string _ => True
  | .array items => 0 < room ∧ ReadableItems (room - 1) items
  | .object members =>
    0 < room ∧ (members.map Prod.fst).Nodup ∧ ReadableMembers (room - 1) members

def ReadableItems (room : Nat) : List Json → Prop
  | [] => True
  | item :: items => Readable room item ∧ ReadableItems room items

def ReadableMembers (room : Nat) : List (String × Json) → Prop
  | [] => True
  | (_, value) :: members => Readable room value ∧ ReadableMembers room members

end

theorem readableItems_iff {room : Nat} {items : List Json} :
    ReadableItems room items ↔ ∀ item ∈ items, Readable room item := by
  induction items with
  | nil => simp [ReadableItems]
  | cons item items ih => simp [ReadableItems, ih]

theorem readableMembers_iff {room : Nat} {members : List (String × Json)} :
    ReadableMembers room members ↔ ∀ member ∈ members, Readable room member.2 := by
  induction members with
  | nil => simp [ReadableMembers]
  | cons member members ih => simp [ReadableMembers, ih]

theorem readable_object {room : Nat} {members : List (String × Json)} (hroom : 0 < room)
    (hkeys : (members.map Prod.fst).Nodup)
    (hvalues : ∀ member ∈ members, Readable (room - 1) member.2) :
    Readable room (.object members) := ⟨hroom, hkeys, readableMembers_iff.2 hvalues⟩

theorem readable_array {room : Nat} {items : List Json} (hroom : 0 < room)
    (hitems : ∀ item ∈ items, Readable (room - 1) item) : Readable room (.array items) :=
  ⟨hroom, readableItems_iff.2 hitems⟩

@[simp] theorem readable_string (room : Nat) (s : String) : Readable room (.string s) := trivial

@[simp] theorem readable_bool (room : Nat) (b : Bool) : Readable room (.bool b) := trivial

/-- An object made of any entries, each of which can be read. -/
theorem readable_ofList {room : Nat} {pairs : List (String × Json)} (hroom : 0 < room)
    (hvalues : ∀ pair ∈ pairs, Readable (room - 1) pair.2) :
    Readable room (.object (Entries.ofList pairs)) := by
  obtain ⟨hkeys, hmem⟩ := Entries.ofList_spec pairs
  exact readable_object hroom hkeys fun entry hentry => hvalues entry (hmem entry hentry)

theorem tokens_indent (depth : Nat) (rest : List Char) :
    tokens .idle (indent depth ++ rest) = tokens .idle rest := by
  have hspaces (n : Nat) : tokens .idle (List.replicate n ' ' ++ rest) = tokens .idle rest := by
    induction n with
    | zero => rfl
    | succ n ih =>
      rw [← ih]
      rfl
  exact hspaces (2 * depth)

theorem tokens_newline (rest : List Char) : tokens .idle ('\n' :: rest) = tokens .idle rest := rfl

theorem tokens_word (word : Word) (rest : List Char) :
    tokens .idle (word.text ++ rest) = .word word :: tokens .idle rest := by
  cases word <;> cases rest <;> rfl

theorem ends_close {c : Char} (h : c = '\n' ∨ c = ',' ∨ c = ']' ∨ c = '\x7d') (rest : List Char) :
    Ends (c :: rest) := by
  intro d hd
  obtain rfl := Option.some.inj hd
  rcases h with rfl | rfl | rfl | rfl <;> decide

theorem tokens_close {c : Char} {mark : Mark} (h : Scan.start c = ([.mark mark], .idle))
    (depth : Nat) (rest : List Char) :
    tokens .idle ('\n' :: (indent depth ++ c :: rest)) = .mark mark :: tokens .idle rest := by
  rw [tokens_newline, tokens_indent, tokens_idle_cons, h]
  rfl

mutual

/-- The lines of a value come apart into its tokens, whatever follows that ends it. -/
theorem tokens_pretty (value : Json) (depth : Nat) {room : Nat} (h : Readable room value)
    {rest : List Char} (hrest : Ends rest) :
    tokens .idle (pretty depth value ++ rest) = spelling value ++ tokens .idle rest := by
  match value with
  | .null => exact tokens_word .null rest
  | .bool true => exact tokens_word .true rest
  | .bool false => exact tokens_word .false rest
  | .number (.int value) => exact Numeral.tokens_integer value hrest
  | .number (.float _) => exact absurd h (by simp [Readable])
  | .string s => exact tokens_quote s rest
  | .array [] => rfl
  | .object [] => rfl
  | .array (item :: items) =>
    have hitems := tokens_prettyItems (item :: items) (List.cons_ne_nil _ _) (depth + 1) h.2
      (ends_close (Or.inl rfl) (indent depth ++ ']' :: rest))
    have hclose : Scan.start ']' = ([.mark .closeBracket], .idle) := by decide
    have hopen (cs : List Char) :
        tokens .idle ('[' :: '\n' :: cs) = .mark .openBracket :: tokens .idle cs := rfl
    rw [tokens_close hclose] at hitems
    simp only [pretty, spelling, List.cons_append, List.append_assoc, List.nil_append]
    rw [hopen, hitems]
  | .object (member :: members) =>
    have hmembers := tokens_prettyMembers (member :: members) (List.cons_ne_nil _ _) (depth + 1)
      h.2.2 (ends_close (Or.inl rfl) (indent depth ++ '\x7d' :: rest))
    have hclose : Scan.start '\x7d' = ([.mark .closeBrace], .idle) := by decide
    have hopen (cs : List Char) :
        tokens .idle ('\x7b' :: '\n' :: cs) = .mark .openBrace :: tokens .idle cs := rfl
    rw [tokens_close hclose] at hmembers
    simp only [pretty, spelling, List.cons_append, List.append_assoc, List.nil_append]
    rw [hopen, hmembers]

theorem tokens_prettyItems (items : List Json) (hne : items ≠ []) (depth : Nat) {room : Nat}
    (h : ReadableItems room items) {rest : List Char} (hrest : Ends rest) :
    tokens .idle (prettyItems depth items ++ rest) = spellingItems items ++ tokens .idle rest := by
  match items with
  | [] => exact absurd rfl hne
  | [item] =>
    rw [prettyItems, spellingItems, List.append_assoc, tokens_indent]
    exact tokens_pretty item depth h.1 hrest
  | item :: next :: items =>
    have hitems := tokens_prettyItems (next :: items) (List.cons_ne_nil _ _) depth h.2 hrest
    have hcomma (cs : List Char) :
        tokens .idle (',' :: '\n' :: cs) = .mark .comma :: tokens .idle cs := rfl
    have hitem := tokens_pretty item depth h.1
      (ends_close (Or.inr (Or.inl rfl)) ('\n' :: (prettyItems depth (next :: items) ++ rest)))
    rw [hcomma, hitems] at hitem
    rw [prettyItems, spellingItems, List.append_assoc, tokens_indent]
    · simp only [List.append_assoc, List.cons_append] at hitem ⊢
      exact hitem
    · exact List.cons_ne_nil _ _
    · exact List.cons_ne_nil _ _

theorem tokens_prettyMembers (members : List (String × Json)) (hne : members ≠ []) (depth : Nat)
    {room : Nat} (h : ReadableMembers room members) {rest : List Char} (hrest : Ends rest) :
    tokens .idle (prettyMembers depth members ++ rest) =
      spellingMembers members ++ tokens .idle rest := by
  have hcolon (cs : List Char) :
      tokens .idle (':' :: ' ' :: cs) = .mark .colon :: tokens .idle cs := rfl
  match members with
  | [] => exact absurd rfl hne
  | [(key, value)] =>
    rw [prettyMembers, spellingMembers, List.append_assoc, tokens_indent, List.append_assoc,
      tokens_quote, List.cons_append, List.cons_append, hcolon,
      tokens_pretty value depth h.1 hrest]
    rfl
  | (key, value) :: next :: members =>
    have hmembers := tokens_prettyMembers (next :: members) (List.cons_ne_nil _ _) depth h.2 hrest
    have hcomma (cs : List Char) :
        tokens .idle (',' :: '\n' :: cs) = .mark .comma :: tokens .idle cs := rfl
    have hvalue := tokens_pretty value depth h.1
      (ends_close (Or.inr (Or.inl rfl)) ('\n' :: (prettyMembers depth (next :: members) ++ rest)))
    rw [hcomma, hmembers] at hvalue
    rw [prettyMembers, spellingMembers, List.append_assoc, tokens_indent, List.append_assoc,
      tokens_quote]
    · simp only [List.append_assoc, List.cons_append] at hvalue ⊢
      rw [hcolon, hvalue]
    · exact List.cons_ne_nil _ _
    · exact List.cons_ne_nil _ _

end

mutual

/-- The text of a value in a single line comes apart into the same tokens. -/
theorem tokens_compact (value : Json) {room : Nat} (h : Readable room value) {rest : List Char}
    (hrest : Ends rest) :
    tokens .idle (compact value ++ rest) = spelling value ++ tokens .idle rest := by
  match value with
  | .null => exact tokens_word .null rest
  | .bool true => exact tokens_word .true rest
  | .bool false => exact tokens_word .false rest
  | .number (.int value) => exact Numeral.tokens_integer value hrest
  | .number (.float _) => exact absurd h (by simp [Readable])
  | .string s => exact tokens_quote s rest
  | .array items =>
    have hitems := tokens_compactItems items h.2 (ends_close (Or.inr (Or.inr (Or.inl rfl))) rest)
    have hopen (cs : List Char) : tokens .idle ('[' :: cs) = .mark .openBracket :: tokens .idle cs := rfl
    have hclose : tokens .idle (']' :: rest) = .mark .closeBracket :: tokens .idle rest := rfl
    simp only [compact, spelling, List.cons_append, List.append_assoc, List.nil_append]
    rw [hopen, hitems, hclose]
  | .object members =>
    have hmembers := tokens_compactMembers members h.2.2 (ends_close (Or.inr (Or.inr (Or.inr rfl))) rest)
    have hopen (cs : List Char) : tokens .idle ('\x7b' :: cs) = .mark .openBrace :: tokens .idle cs := rfl
    have hclose : tokens .idle ('\x7d' :: rest) = .mark .closeBrace :: tokens .idle rest := rfl
    simp only [compact, spelling, List.cons_append, List.append_assoc, List.nil_append]
    rw [hopen, hmembers, hclose]

theorem tokens_compactItems (items : List Json) {room : Nat} (h : ReadableItems room items)
    {rest : List Char} (hrest : Ends rest) :
    tokens .idle (compactItems items ++ rest) = spellingItems items ++ tokens .idle rest := by
  match items with
  | [] => rfl
  | [item] => exact tokens_compact item h.1 hrest
  | item :: next :: items =>
    have hitems := tokens_compactItems (next :: items) h.2 hrest
    have hcomma (cs : List Char) : tokens .idle (',' :: cs) = .mark .comma :: tokens .idle cs := rfl
    have hitem := tokens_compact item h.1
      (ends_close (Or.inr (Or.inl rfl)) (compactItems (next :: items) ++ rest))
    rw [hcomma, hitems] at hitem
    rw [compactItems, spellingItems]
    · simp only [List.append_assoc, List.cons_append] at hitem ⊢
      exact hitem
    · exact List.cons_ne_nil _ _
    · exact List.cons_ne_nil _ _

theorem tokens_compactMembers (members : List (String × Json)) {room : Nat}
    (h : ReadableMembers room members) {rest : List Char} (hrest : Ends rest) :
    tokens .idle (compactMembers members ++ rest) = spellingMembers members ++ tokens .idle rest := by
  have hcolon (cs : List Char) : tokens .idle (':' :: cs) = .mark .colon :: tokens .idle cs := rfl
  match members with
  | [] => rfl
  | [(key, value)] =>
    rw [compactMembers, spellingMembers, List.append_assoc, tokens_quote, List.cons_append, hcolon,
      tokens_compact value h.1 hrest]
    rfl
  | (key, value) :: next :: members =>
    have hmembers := tokens_compactMembers (next :: members) h.2 hrest
    have hcomma (cs : List Char) : tokens .idle (',' :: cs) = .mark .comma :: tokens .idle cs := rfl
    have hvalue := tokens_compact value h.1
      (ends_close (Or.inr (Or.inl rfl)) (compactMembers (next :: members) ++ rest))
    rw [hcomma, hmembers] at hvalue
    rw [compactMembers, spellingMembers, List.append_assoc, tokens_quote]
    · simp only [List.append_assoc, List.cons_append] at hvalue ⊢
      rw [hcolon, hvalue]
    · exact List.cons_ne_nil _ _
    · exact List.cons_ne_nil _ _

end

/-- How the tree goes on from some progress. -/
def resume : Progress → List Token → Node × List Token
  | .more expecting frames, rest => build expecting frames rest
  | .root node, rest => (node, rest)

theorem build_cons (expecting : Expecting) (frames : List Frame) (token : Token)
    (rest : List Token) :
    build expecting frames (token :: rest) = resume (Progress.step expecting frames token) rest := by
  rw [build]
  cases Progress.step expecting frames token <;> rfl

mutual

/-- Where a value may stand, its tokens add its tree to what is there, and nothing else. -/
theorem build_spelling (value : Json) {room : Nat} (h : Readable room value)
    {expecting : Expecting} (hvalue : expecting = .value ∨ expecting = .itemOrEnd)
    (frames : List Frame) (rest : List Token) :
    build expecting frames (spelling value ++ rest) =
      resume (Progress.complete frames (nodeOf value)) rest := by
  match value with
  | .null => rcases hvalue with rfl | rfl <;> exact build_cons _ _ _ _
  | .bool true => rcases hvalue with rfl | rfl <;> exact build_cons _ _ _ _
  | .bool false => rcases hvalue with rfl | rfl <;> exact build_cons _ _ _ _
  | .number (.int value) => rcases hvalue with rfl | rfl <;> exact build_cons _ _ _ _
  | .number (.float _) => exact absurd h (by simp [Readable])
  | .string s => rcases hvalue with rfl | rfl <;> exact build_cons _ _ _ _
  | .array [] => rcases hvalue with rfl | rfl <;> exact (build_cons _ _ _ _).trans (build_cons _ _ _ _)
  | .object [] => rcases hvalue with rfl | rfl <;> exact (build_cons _ _ _ _).trans (build_cons _ _ _ _)
  | .array (item :: items) =>
    have hitems := build_spellingItems (item :: items) (List.cons_ne_nil _ _) h.2
      (Or.inr rfl) [] frames rest
    rw [spelling, List.cons_append, List.append_assoc, build_cons]
    rcases hvalue with rfl | rfl <;> exact hitems
  | .object (member :: members) =>
    have hmembers := build_spellingMembers (member :: members) (List.cons_ne_nil _ _) h.2.2
      (Or.inr rfl) [] ⟨[], none⟩ frames rest
    rw [spelling, List.cons_append, List.append_assoc, build_cons]
    rcases hvalue with rfl | rfl <;> exact hmembers

theorem build_spellingItems (items : List Json) (hne : items ≠ []) {room : Nat}
    (h : ReadableItems room items) {expecting : Expecting}
    (hvalue : expecting = .value ∨ expecting = .itemOrEnd) (before : List Node)
    (frames : List Frame) (rest : List Token) :
    build expecting (.array before :: frames)
        (spellingItems items ++ .mark .closeBracket :: rest) =
      resume (Progress.complete frames (.array (before.reverse ++ nodesOf items) none)) rest := by
  match items with
  | [] => exact absurd rfl hne
  | [item] =>
    rw [spellingItems, build_spelling item h.1 hvalue, nodesOf, nodesOf, ← List.reverse_cons]
    exact build_cons _ _ _ _
  | item :: next :: items =>
    have hitems := build_spellingItems (next :: items) (List.cons_ne_nil _ _) h.2 (Or.inl rfl)
      (nodeOf item :: before) frames rest
    rw [spellingItems, List.append_assoc, build_spelling item h.1 hvalue, nodesOf]
    · rw [List.reverse_cons, List.append_assoc] at hitems
      refine (build_cons .separator (.array (nodeOf item :: before) :: frames) (.mark .comma)
        (spellingItems (next :: items) ++ .mark .closeBracket :: rest)).trans ?_
      exact hitems
    · exact List.cons_ne_nil _ _

theorem build_spellingMembers (members : List (String × Json)) (hne : members ≠ []) {room : Nat}
    (h : ReadableMembers room members) {expecting : Expecting}
    (hkey : expecting = .key ∨ expecting = .keyOrEnd) (before : List (Quoted × Node)) (key : Quoted)
    (frames : List Frame) (rest : List Token) :
    build expecting (.object before key :: frames)
        (spellingMembers members ++ .mark .closeBrace :: rest) =
      resume (Progress.complete frames (.object (before.reverse ++ membersOf members) none)) rest := by
  -- the key and the colon after it lead to the place of the value
  have hopen (name : String) (more : List Token) :
      build expecting (.object before key :: frames)
          (.quoted (quotedOf name) :: .mark .colon :: more) =
        build .value (.object before (quotedOf name) :: frames) more := by
    rcases hkey with rfl | rfl <;> rfl
  match members with
  | [] => exact absurd rfl hne
  | [(name, value)] =>
    rw [spellingMembers, List.cons_append, List.cons_append, hopen,
      build_spelling value h.1 (Or.inl rfl), membersOf, membersOf, ← List.reverse_cons]
    exact build_cons _ _ _ _
  | (name, value) :: next :: members =>
    have hmembers := build_spellingMembers (next :: members) (List.cons_ne_nil _ _) h.2
      (Or.inl rfl) ((quotedOf name, nodeOf value) :: before) (quotedOf name) frames rest
    rw [spellingMembers, List.cons_append, List.cons_append, hopen, List.append_assoc,
      build_spelling value h.1 (Or.inl rfl), membersOf]
    · rw [List.reverse_cons, List.append_assoc] at hmembers
      refine (build_cons .separator
        (.object ((quotedOf name, nodeOf value) :: before) (quotedOf name) :: frames) (.mark .comma)
        (spellingMembers (next :: members) ++ .mark .closeBrace :: rest)).trans ?_
      exact hmembers
    · exact List.cons_ne_nil _ _

end

mutual

/-- The tree of a value is read as that value. -/
theorem readJson_nodeOf (value : Json) {room : Nat} (h : Readable room value) :
    Node.readJson room (nodeOf value) = .ok value := by
  match value with
  | .null => rfl
  | .bool true => rfl
  | .bool false => rfl
  | .number (.int value) =>
    rw [nodeOf, Node.readJson, Numeral.read_ofInt h.1 h.2]
    rfl
  | .number (.float _) => exact absurd h (by simp [Readable])
  | .string s =>
    rw [nodeOf, Node.readJson, read_quotedOf]
    rfl
  | .array items =>
    obtain ⟨inner, rfl⟩ : ∃ inner, room = inner + 1 := ⟨room - 1, by have := h.1; omega⟩
    have hitems : ReadableItems inner items := h.2
    rw [nodeOf, Node.readJson, readJsonItems_nodesOf items hitems]
    rfl
  | .object members =>
    obtain ⟨inner, rfl⟩ : ∃ inner, room = inner + 1 := ⟨room - 1, by have := h.1; omega⟩
    have hmembers : ReadableMembers inner members := h.2.2
    rw [nodeOf, Node.readJson, readJsonMembers_membersOf members hmembers]
    exact congrArg (Except.ok ∘ Json.object) (Entries.ofList_of_nodup h.2.1)

theorem readJsonItems_nodesOf (items : List Json) {room : Nat} (h : ReadableItems room items) :
    Node.readJsonItems room (nodesOf items) = .ok items := by
  match items with
  | [] => rfl
  | item :: items =>
    rw [nodesOf, Node.readJsonItems, readJson_nodeOf item h.1, readJsonItems_nodesOf items h.2]
    rfl

theorem readJsonMembers_membersOf (members : List (String × Json)) {room : Nat}
    (h : ReadableMembers room members) :
    Node.readJsonMembers room (membersOf members) = .ok members := by
  match members with
  | [] => rfl
  | (key, value) :: members =>
    rw [membersOf, Node.readJsonMembers, read_quotedOf, readJson_nodeOf value h.1,
      readJsonMembers_membersOf members h.2]
    rfl

end

/-- Every text that comes apart into the tokens of a value is read as that value. -/
theorem parse_of_lex {value : Json} (h : Readable Node.depthLimit value) {text : String}
    (hlex : lex text = spelling value) : parse text = .ok value := by
  have hbuild := build_spelling value h (Or.inl rfl) [] []
  rw [List.append_nil] at hbuild
  rw [parse, readText, Node.ofText, hlex, hbuild]
  have hread := readJson_nodeOf value h
  simp [resume, Progress.complete, hread, bind, Except.bind, pure, Except.pure]

theorem parse_compactText {value : Json} (h : Readable Node.depthLimit value) :
    parse value.compactText = .ok value := by
  apply parse_of_lex h
  have htokens := tokens_compact value h (show Ends [] from fun _ h => by cases h)
  rw [List.append_nil] at htokens
  rw [lex, compactText, String.toList_ofList, htokens]
  exact List.append_nil _

/-- The lines of a value are read as that value, whatever blanks follow. -/
theorem parse_pretty {value : Json} (h : Readable Node.depthLimit value) {rest : List Char}
    (hrest : Ends rest) (hblank : tokens .idle rest = []) :
    parse (String.ofList (value.pretty 0 ++ rest)) = .ok value := by
  apply parse_of_lex h
  rw [lex, String.toList_ofList, tokens_pretty value 0 h hrest, hblank, List.append_nil]

theorem parse_prettyText {value : Json} (h : Readable Node.depthLimit value) :
    parse value.prettyText = .ok value := by
  have hparse := parse_pretty h (show Ends [] from fun _ h => by cases h) rfl
  rwa [List.append_nil] at hparse

/-- So it is as a file of its own, which ends in a newline. -/
theorem parse_prettyText_newline {value : Json} (h : Readable Node.depthLimit value) :
    parse (value.prettyText ++ "\n") = .ok value := by
  have htext : value.prettyText ++ "\n" = String.ofList (value.pretty 0 ++ ['\n']) := by
    rw [prettyText, String.ofList_append]
  rw [htext]
  exact parse_pretty h (ends_close (Or.inl rfl) []) rfl

end Json

end EntityForge
