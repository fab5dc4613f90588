/-! File paths as written, and their parts. Repeated and trailing slashes and inner single dots
carry no meaning; two paths name the same file when their parts are equal. A relative path is
made absolute on its parts alone, without looking at any file. -/
namespace BundlePlan

structure FilePath where
  text : String
deriving DecidableEq, Inhabited

namespace FilePath

instance : ToString FilePath := ⟨FilePath.text⟩

@[simp] theorem text_inj {a b : FilePath} : a.text = b.text ↔ a = b := by
  cases a; cases b; simp

inductive Part
  | root
  | current
  | up
  | name (text : String)
deriving DecidableEq, Repr

/-- What stands between two slashes; a single dot is kept only where a path begins with it. -/
def Part.ofPiece? (piece : List Char) : Option Part :=
  match piece with
  | [] => none
  | ['.'] => none
  | ['.', '.'] => some .up
  | piece => some (.name (String.ofList piece))

def parts (path : FilePath) : List Part :=
  match path.text.toList.splitOn '/' with
  | [] => []
  | [] :: rest => if path.text.isEmpty then [] else .root :: rest.filterMap Part.ofPiece?
  | ['.'] :: rest => .current :: rest.filterMap Part.ofPiece?
  | first :: rest => (first :: rest).filterMap Part.ofPiece?

def Part.spell : Part → List Char
  | .root => []
  | .current => ['.']
  | .up => ['.', '.']
  | .name text => text.toList

def ofParts (parts : List Part) : FilePath :=
  if parts = [.root] then ⟨"/"⟩
  else ⟨String.ofList (['/'].intercalate (parts.map Part.spell))⟩

def parentParts? (parts : List Part) : Option (List Part) :=
  match parts.getLast? with
  | none => none
  | some .root => none
  | some _ => some parts.dropLast

/-- The spellings with one more slash and piece each, from `reached` on, that end with a part; the
longest comes first. -/
def longer (reached : List Char) : List (List Char) → List FilePath
  | [] => []
  | piece :: rest =>
    let further := reached ++ '/' :: piece
    longer further rest ++
      if (Part.ofPiece? piece).isSome then [⟨String.ofList further⟩] else []

/-- The path up to each of its parts but the root, spelled as it is; the longest comes first. -/
def beginnings (path : FilePath) : List FilePath :=
  match path.text.toList.splitOn '/' with
  | [] => []
  | first :: rest => longer first rest ++ if first.isEmpty then [] else [⟨String.ofList first⟩]

/-- The directories that the path passes through, the root apart, the innermost first. -/
def enclosing (path : FilePath) : List FilePath := path.beginnings.tail

def beneath (dir : FilePath) (name : String) : FilePath :=
  if dir.text.isEmpty then ⟨name⟩
  else if dir.text.toList.getLast? = some '/' then ⟨dir.text ++ name⟩
  else ⟨dir.text ++ "/" ++ name⟩

/-- Follows one more part from the place reached so far; one cannot go above the root, nor
above nothing. -/
def follow (reached : List Part) : Part → List Part
  | .up => if reached = [.root] then reached else reached.dropLast
  | .name text => reached ++ [.name text]
  | .root => reached
  | .current => reached

def start (base : List Part) (first : Part) : List Part :=
  match first with
  | .root => [.root]
  | .current => base
  | .up => (parentParts? base).getD (if base = [.root] then [.root] else [])
  | .name text => base ++ [.name text]

/-- The path as seen from the directory `base`. Double dots inside `base` itself stay. -/
def absoluteFrom (base path : FilePath) : FilePath :=
  match path.parts with
  | [] => base
  | first :: rest => ofParts (rest.foldl follow (start base.parts first))

end FilePath
end BundlePlan
