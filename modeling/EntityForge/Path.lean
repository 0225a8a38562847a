/-!
Paths as they are written: names between slashes.

A path is kept as its text, which is what is shown; two texts may name the same place, and `components`
says when. Nothing here looks at a disk, so `..` is never folded. Main statement:
`splitSlash_joinSlash`, by which the parts of a text can be had back from it.
-/

namespace EntityForge

/-- The stretches between slashes, the empty ones included. -/
def splitSlash : List Char → List (List Char)
  | [] => [[]]
  | c :: cs =>
    if c = '/' then [] :: splitSlash cs
    else
      match splitSlash cs with
      | [] => [[c]]
      | s :: ss => (c :: s) :: ss

def joinSlash : List (List Char) → List Char
  | [] => []
  | [s] => s
  | s :: ss => s ++ '/' :: joinSlash ss

theorem splitSlash_of_not_mem {s : List Char} (h : '/' ∉ s) : splitSlash s = [s] := by
  induction s with
  | nil => rfl
  | cons c cs ih =>
    simp only [List.mem_cons, not_or] at h
    have hc : ¬c = '/' := fun e => h.1 e.symm
    simp [splitSlash, hc, ih h.2]

theorem splitSlash_append {s : List Char} (h : '/' ∉ s) (rest : List Char) :
    splitSlash (s ++ '/' :: rest) = s :: splitSlash rest := by
  induction s with
  | nil => simp [splitSlash]
  | cons c cs ih =>
    simp only [List.mem_cons, not_or] at h
    have hc : ¬c = '/' := fun e => h.1 e.symm
    simp [splitSlash, hc, ih h.2]

theorem splitSlash_joinSlash {parts : List (List Char)} (hne : parts ≠ [])
    (h : ∀ s ∈ parts, '/' ∉ s) : splitSlash (joinSlash parts) = parts := by
  induction parts with
  | nil => exact absurd rfl hne
  | cons s ss ih =>
    have hs : '/' ∉ s := h s List.mem_cons_self
    cases ss with
    | nil => exact splitSlash_of_not_mem hs
    | cons t ts =>
      rw [joinSlash, splitSlash_append hs,
        ih (List.cons_ne_nil t ts) fun x hx => h x (List.mem_cons_of_mem s hx)]
      exact List.cons_ne_nil t ts

structure Path where
  text : String
  deriving Repr, DecidableEq

namespace Path

inductive Component where
  | root
  /-- The place itself, where the path says so at its start. -/
  | here
  | up
  | name (text : String)
  deriving Repr, DecidableEq

def parts (path : Path) : List String := (splitSlash path.text.toList).map String.ofList

def ofParts (parts : List String) : Path :=
  ⟨String.ofList (joinSlash (parts.map String.toList))⟩

def isAbsolute (path : Path) : Bool := path.text.toList.head? == some '/'

def endsInSlash (path : Path) : Bool := path.text.toList.getLast? == some '/'

/-- A part that names nothing. -/
def isIdle (part : String) : Bool := part == "" || part == "."

def componentOf? (part : String) : Option Component :=
  if isIdle part then none else if part == ".." then some .up else some (.name part)

/-- What a path says, one place after the other: two paths with the same components are equal. -/
def components (path : Path) : List Component :=
  let named := path.parts.filterMap componentOf?
  if path.isAbsolute then .root :: named
  else if path.parts.head? == some "." then .here :: named
  else named

def isSame (path other : Path) : Bool := path.components == other.components

/-- A path under another. An absolute path stands for itself wherever it is put. -/
def join (base path : Path) : Path :=
  if path.isAbsolute then path
  else if base.text.isEmpty || base.endsInSlash then ⟨base.text ++ path.text⟩
  else ⟨base.text ++ "/" ++ path.text⟩

/-- The first part, and the others from the last one on. -/
def ends (path : Path) : String × List String :=
  match path.parts with
  | [] => ("", [])
  | first :: rest => (first, rest.reverse)

/-- The first part of an absolute path is empty, and is shown as a slash where it stands alone. -/
def ofEnds (first : String) : List String → Path
  | [] => if first.isEmpty then ⟨"/"⟩ else ⟨first⟩
  | last :: rest => ofParts (first :: (last :: rest).reverse)

/-- What is left of some parts, last one first, when one name after the other is taken from them. -/
def shorter : List String → List (List String)
  | [] => []
  | part :: rest =>
    if isIdle part then shorter rest else rest.dropWhile isIdle :: shorter rest

/-- The path, what it lies in, and so on. A relative path lies in the empty one at last. -/
def ancestors (path : Path) : List Path :=
  let (first, rest) := path.ends
  path :: ((shorter rest).map (ofEnds first) ++ (if first.isEmpty then [] else [⟨""⟩]))

def parent? (path : Path) : Option Path := path.ancestors.tail.head?

/-- The name at the end of a path, if it ends in a name. -/
def fileName? (path : Path) : Option String :=
  let (first, rest) := path.ends
  let last := (rest.dropWhile isIdle).head?.getD first
  if isIdle last || last == ".." then none else some last

/-- The path beside this one that ends in another name. -/
def withFileName (path : Path) (name : String) : Path :=
  match path.fileName?, path.parent? with
  | some _, some parent => parent.join ⟨name⟩
  | _, _ => path.join ⟨name⟩

end Path

end EntityForge
