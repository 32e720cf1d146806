import Docset.Text.Words

/-!
# Paths

A path is kept as it was written and shown that way. It is compared and taken
apart by its components: repeated slashes and inner `.` components say nothing,
while `..` is kept, since what it means depends on the file system.
-/
namespace Docset

structure Path where
  text : String
  deriving DecidableEq, Repr, Inhabited

/-- What a path is made of. -/
inductive Path.Component where
  | root
  | current
  | parent
  | name (s : String)
  deriving DecidableEq, Repr

namespace Path.Component

/-- The order in which kinds of components sort. -/
def rank : Path.Component → Nat
  | root => 0
  | current => 1
  | parent => 2
  | name _ => 3

def before : Path.Component → Path.Component → Bool
  | name s, name t => s < t
  | a, b => a.rank < b.rank

end Path.Component

namespace Path

/-- The pieces between slashes. -/
def pieces (p : Path) : List String := (Text.split (· = '/') p.text.toList).map String.ofList

def isAbsolute (p : Path) : Bool := p.text.toList.head? = some '/'

/-- The component that a piece past the first one writes. -/
def innerComponent? (piece : String) : Option Component :=
  if piece = "" ∨ piece = "." then none
  else if piece = ".." then some .parent
  else some (.name piece)

def components (p : Path) : List Component :=
  match p.pieces with
  | [] => []
  | first :: rest =>
      let start :=
        if p.isAbsolute then [Component.root]
        else if first = "." then [Component.current]
        else (innerComponent? first).toList
      start ++ rest.filterMap innerComponent?

/-- Whether two paths have the same components. -/
def same (p q : Path) : Bool := p.components = q.components

/-- The lexicographic order of component lists. -/
def componentsLe : List Component → List Component → Bool
  | [], _ => true
  | _ :: _, [] => false
  | a :: as, b :: bs => a.before b || (a = b && componentsLe as bs)

/-- Paths sort by their components. -/
def le (p q : Path) : Bool := componentsLe p.components q.components

/-- `q` seen from the folder `p`. -/
def join (p q : Path) : Path :=
  if q.isAbsolute then q
  else if p.text = "" ∨ p.text.toList.getLast? = some '/' then ⟨p.text ++ q.text⟩
  else ⟨p.text ++ "/" ++ q.text⟩

/-- The path without slashes at its end, the root apart. -/
def withoutEndSlashes (p : Path) : Path :=
  match p.text.toList.reverse.dropWhile (· = '/') with
  | [] => p
  | kept => ⟨String.ofList kept.reverse⟩

/-- The last component, if it is a name. -/
def fileName? (p : Path) : Option String :=
  match p.components.getLast? with
  | some (.name s) => some s
  | _ => none

/-- Drops pieces that write no component from the end of a reversed list. -/
def dropIdle (pieces : List String) : List String :=
  pieces.dropWhile fun piece => (innerComponent? piece).isNone

/-- The path without its last component, as far as it was written before that. -/
def parent? (p : Path) : Option Path :=
  match p.pieces with
  | [] => none
  | first :: rest =>
      if p.isAbsolute then
        match dropIdle rest.reverse with
        | [] => none
        | _ :: before => some ⟨"/" ++ "/".intercalate (dropIdle before).reverse⟩
      else
        match dropIdle rest.reverse with
        | _ :: before => some ⟨"/".intercalate (first :: (dropIdle before).reverse)⟩
        | [] => if first = "" then none else some ⟨""⟩

end Path

end Docset
