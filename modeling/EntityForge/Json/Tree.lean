import EntityForge.Json.Token

/-!
The structure of JSON text, as far as it goes.

Every text has a tree. Where the text breaks off the tree holds a tear, and every array and object
around the tear is marked with it, so a reader that goes through the tree from left to right meets the
first fault of the text first, and one that passes over a subtree needs only its root.
-/

namespace EntityForge.Json

inductive Node where
  | word (w : Word)
  | numeral (n : Numeral)
  | text (q : Quoted)
  | array (items : List Node) (tear : Option Tear)
  | object (members : List (Quoted × Node)) (tear : Option Tear)
  /-- No value begins where one should. -/
  | torn (t : Tear)
  deriving Repr

namespace Node

def tear? : Node → Option Tear
  | .word _ => none
  | .numeral _ => none
  | .text q => q.tear
  | .array _ t => t
  | .object _ t => t
  | .torn t => some t

end Node

/-- An array or object that is open; what it holds so far is in reverse. -/
inductive Frame where
  | array (items : List Node)
  | object (members : List (Quoted × Node)) (key : Quoted)
  deriving Repr

namespace Frame

def push (value : Node) : Frame → Frame
  | .array items => .array (value :: items)
  | .object members key => .object ((key, value) :: members) key

def close (tear : Option Tear) : Frame → Node
  | .array items => .array items.reverse tear
  | .object members _ => .object members.reverse tear

end Frame

/-- What may come next. -/
inductive Expecting where
  | value
  | itemOrEnd
  | keyOrEnd
  | key
  | colon
  | separator
  deriving Repr, DecidableEq

/-- Either the text goes on inside the open frames, or its root is complete. -/
inductive Progress where
  | more (expecting : Expecting) (frames : List Frame)
  | root (node : Node)

/-- Closes every open frame around a node that holds the tear. -/
def unwind (t : Tear) : List Frame → Node → Node
  | [], node => node
  | frame :: frames, node => unwind t frames ((frame.push node).close (some t))

/-- Closes every open frame; the tear is in the innermost one itself. -/
def abandon (b : Break) : List Frame → Node
  | [] => .torn (.both b)
  | frame :: frames => unwind (.both b) frames (frame.close (some (.both b)))

namespace Progress

def complete (frames : List Frame) (node : Node) : Progress :=
  match frames with
  | [] => .root node
  | frame :: frames => .more .separator (frame.push node :: frames)

def withText (frames : List Frame) (q : Quoted) : Progress :=
  match q.tear with
  | none => complete frames (.text q)
  | some t => .root (unwind t frames (.text q))

def value (frames : List Frame) : Token → Progress
  | .word w => complete frames (.word w)
  | .numeral n => complete frames (.numeral n)
  | .quoted q => withText frames q
  | .mark .openBracket => .more .itemOrEnd (.array [] :: frames)
  | .mark .openBrace => .more .keyOrEnd (.object [] ⟨[], none⟩ :: frames)
  | .torn t => .root (unwind t frames (.torn t))
  | .mark _ | .stray => .root (unwind (.both .malformed) frames (.torn (.both .malformed)))

/-- The key takes its place in the innermost frame. -/
def withKey (frames : List Frame) (q : Quoted) : Progress :=
  match frames with
  | .object members _ :: frames =>
    match q.tear with
    | none => .more .colon (.object members q :: frames)
    | some t => .root (unwind t (.object members q :: frames) (.torn t))
  | _ => .root (abandon .malformed frames)

def key (frames : List Frame) : Token → Progress
  | .quoted q => withKey frames q
  | _ => .root (abandon .malformed frames)

def close (frames : List Frame) : Progress :=
  match frames with
  | frame :: frames => complete frames (frame.close none)
  | [] => .root (abandon .malformed [])

/-- Which mark ends the innermost frame, and what follows a comma in it. -/
def separator (frames : List Frame) (token : Token) : Progress :=
  match frames, token with
  | .array _ :: _, .mark .comma => .more .value frames
  | .object .. :: _, .mark .comma => .more .key frames
  | .array _ :: _, .mark .closeBracket => close frames
  | .object .. :: _, .mark .closeBrace => close frames
  | _, _ => .root (abandon .malformed frames)

def step (expecting : Expecting) (frames : List Frame) (token : Token) : Progress :=
  match expecting, token with
  | .value, _ => value frames token
  | .itemOrEnd, .mark .closeBracket => close frames
  | .itemOrEnd, _ => value frames token
  | .keyOrEnd, .mark .closeBrace => close frames
  | .keyOrEnd, _ => key frames token
  | .key, _ => key frames token
  | .colon, .mark .colon => .more .value frames
  | .colon, _ =>
    .root (unwind (.both .malformed) frames (.torn (.both .malformed)))
  | .separator, _ => separator frames token

end Progress

/-- The tree when the text ends here. -/
def atEnd (expecting : Expecting) (frames : List Frame) : Node :=
  match expecting with
  | .value | .colon => unwind (.both .cutShort) frames (.torn (.both .cutShort))
  | .itemOrEnd | .keyOrEnd | .key | .separator => abandon .cutShort frames

/-- The tree, and the tokens after it. -/
def build : Expecting → List Frame → List Token → Node × List Token
  | expecting, frames, [] => (atEnd expecting frames, [])
  | expecting, frames, token :: tokens =>
    match Progress.step expecting frames token with
    | .more expecting frames => build expecting frames tokens
    | .root node => (node, tokens)

def Node.ofText (text : String) : Node × List Token := build .value [] (lex text)

end EntityForge.Json
