import EntityForge.Path

/-!
A tree of directories, files and symbolic links, as what stands at each place.

A place is named by the way to it from the root, which is always a directory. Main statements:
`get?_set` and `get?_erase`.
-/

namespace EntityForge

/-- The names on the way from the root. -/
abbrev Location := List String

inductive Entry where
  | directory
  | file (contents : String)
  | link (target : Path)
  deriving Repr, DecidableEq

/-- All places but the root. -/
structure FileTree where
  entries : List (Location × Entry)
  deriving Repr, DecidableEq

namespace FileTree

def empty : FileTree := ⟨[]⟩

def find? : List (Location × Entry) → Location → Option Entry
  | [], _ => none
  | (place, entry) :: rest, location =>
    if place = location then some entry else find? rest location

def get? (tree : FileTree) (location : Location) : Option Entry :=
  if location = [] then some .directory else find? tree.entries location

def replace : List (Location × Entry) → Location → Entry → List (Location × Entry)
  | [], location, entry => [(location, entry)]
  | (place, old) :: rest, location, entry =>
    if place = location then (place, entry) :: rest else (place, old) :: replace rest location entry

def set (tree : FileTree) (location : Location) (entry : Entry) : FileTree :=
  ⟨replace tree.entries location entry⟩

def without : List (Location × Entry) → Location → List (Location × Entry)
  | [], _ => []
  | (place, entry) :: rest, location =>
    if place = location then without rest location else (place, entry) :: without rest location

def erase (tree : FileTree) (location : Location) : FileTree :=
  ⟨without tree.entries location⟩

theorem find?_replace (entries : List (Location × Entry)) (location other : Location)
    (entry : Entry) :
    find? (replace entries location entry) other =
      if location = other then some entry else find? entries other := by
  induction entries with
  | nil => simp [replace, find?]
  | cons e rest ih =>
    obtain ⟨place, old⟩ := e
    by_cases h : place = location
    · subst h
      by_cases h' : place = other <;> simp [replace, find?, h']
    · simp only [replace, h, if_false, find?, ih]
      by_cases h' : place = other
      · have hne : ¬location = other := fun e => h (h'.trans e.symm)
        simp only [h', if_true, hne, if_false]
      · simp only [h', if_false]

theorem get?_set (tree : FileTree) (location other : Location) (entry : Entry)
    (h : other ≠ []) :
    (tree.set location entry).get? other =
      if location = other then some entry else tree.get? other := by
  simp only [get?, set, h, if_false, find?_replace]

theorem find?_without (entries : List (Location × Entry)) (location other : Location) :
    find? (without entries location) other =
      if location = other then none else find? entries other := by
  induction entries with
  | nil => simp [without, find?]
  | cons e rest ih =>
    obtain ⟨place, entry⟩ := e
    by_cases h : place = location
    · subst h
      simp only [without, if_true, ih, find?]
      by_cases h' : place = other <;> simp only [h', if_true, if_false]
    · simp only [without, h, if_false, find?, ih]
      by_cases h' : place = other
      · have hne : ¬location = other := fun e => h (h'.trans e.symm)
        simp only [h', if_true, hne, if_false]
      · simp only [h', if_false]

theorem get?_erase (tree : FileTree) (location other : Location) (h : other ≠ []) :
    (tree.erase location).get? other =
      if location = other then none else tree.get? other := by
  simp only [get?, erase, h, if_false, find?_without]

/-- What lies below a place, each with the way to it from there. -/
def below (tree : FileTree) (location : Location) : List (Location × Entry) :=
  tree.entries.filterMap fun (place, entry) =>
    if location.isPrefixOf place && place ≠ location then
      some (place.drop location.length, entry)
    else none

end FileTree

end EntityForge
