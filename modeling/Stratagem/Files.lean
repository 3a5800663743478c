import Stratagem.Document.Parser
import Stratagem.Draft

/-!
# Files

Documents in files. The files are those below one folder, where all paths start. A path is shown without
what it says twice or in vain, and an empty document is as good as none.
-/

namespace Stratagem

/-- The texts of files by their paths from the folder. -/
abbrev Files := List (String × String)

namespace Files

/-! ## Paths -/

/-- The parts of a path, without empty ones and ones that stay in place. -/
def parts (path : String) : List String :=
  (path.splitOn "/").filter fun part => part != "" && part != "."

/-- What a path starts with: nothing, one slash, or exactly two. -/
def root (path : String) : String :=
  match path.toList with
  | '/' :: '/' :: '/' :: _ => "/"
  | '/' :: '/' :: _ => "//"
  | '/' :: _ => "/"
  | _ => ""

def normalPath (path : String) : String :=
  let shown := root path ++ "/".intercalate (parts path)
  if shown.isEmpty then "." else shown

inductive Place where
  | file (path text : String)
  | folder (parts : List String)
  /-- The folder that holds the folder of the files, or one that holds that. -/
  | above
  | nothing
  | nameTooLong

def joined (parts : List String) : String := "/".intercalate parts

def nameLimit : Nat := 255

def hasFolder (files : Files) (folder : List String) : Bool :=
  folder.isEmpty || files.any fun (path, _) => (joined folder ++ "/").toList.isPrefixOf path.toList

def enter (files : Files) (place : Place) (part : String) : Place :=
  match place with
  | .folder folder =>
    if part == ".." then if folder.isEmpty then .above else .folder folder.dropLast
    else if nameLimit < Text.byteSize part then .nameTooLong
    else
      let path := folder ++ [part]
      match files.lookup (joined path) with
      | some text => .file (joined path) text
      | none => if files.hasFolder path then .folder path else .nothing
  | .above => if part == ".." then .above else .nothing
  | .nameTooLong => .nameTooLong
  | .file _ _ | .nothing => .nothing

def locate (files : Files) (path : String) : Place :=
  let start : Place := if (root path).isEmpty then .folder [] else .above
  (parts path).foldl files.enter start

/-! ## Reading -/

/-- The document in a file. A path that was lost is no path. -/
def read (files : Files) (path? : Option String) : Except Failure Document :=
  match path? with
  | none => .error (.file .noPath)
  | some path =>
    let shown := normalPath path
    match files.locate path with
    | .nothing => .error (.file (.missing shown))
    | .nameTooLong => .error (.file (.nameTooLong shown))
    | .folder _ | .above => .error (.file (.isDirectory shown))
    | .file _ text =>
      match Document.parse text with
      | .error .malformed => .error (.format (.unparsable shown))
      | .error (.tooLong digits) => .error (.coercion (.tooManyDigits digits))
      | .error .tooDeep => .error .depth
      | .ok .null => .error (.format (.emptyFile shown))
      | .ok d => .ok d

def draft (files : Files) (base : Except Failure Trade) (path? : Option String) :
    Except Failure Draft := do
  Draft.ofDocument base (← files.read path?)

/-- The selection in a file: a list of indicators, or a record that holds one. -/
def selection (files : Files) (path : String) : Except Failure Selection := do
  let items := match ← files.read (some path) with
    | .record ms => Document.member ms "indicators"
    | d => d
  match items with
  | .list xs => Selection.ofDocument (.list xs)
  | _ => .error (.format (.notIndicatorList path))

def logic (files : Files) (path? : Option String) : Except Failure Compiled.Logic := do
  Compiled.Logic.ofDocument (Compiled.Logic.sectionOf (← files.read path?))

/-! ## Writing -/

/-- Whether a file may have the path. A half of a surrogate pair stands for a byte or for nothing. -/
def isEncodable (path : String) : Bool :=
  (Text.points path.toList).all fun n => !Text.Point.isHalf n || (0xDC80 ≤ n && n < 0xDD00)

/-- Goes from a folder to the part of a path, making the folder that the part names if need be. -/
def make (files : Files) (shown : String) (place : Place) (part : String) : Except Failure Place :=
  match place, files.enter place part with
  | .file _ _, _ => .error (.file (.notDirectory shown))
  | .folder folder, .nothing => .ok (.folder (folder ++ [part]))
  | _, .nameTooLong => .error (.file (.nameTooLong shown))
  | _, .nothing => .ok .above
  | _, place => .ok place

/-- Where a text is written that is written to the path: the path from the folder of the files, or none
if it leads elsewhere. The folders on the way are made. -/
def target (files : Files) (path : String) : Except Failure (Option String) := do
  let shown := normalPath path
  if !isEncodable path then throw (.file .notEncodable)
  if path.toList.contains '\x00' then throw (.file .badPath)
  let start : Place := if (root path).isEmpty then .folder [] else .above
  match ← (parts path).dropLast.foldlM (files.make shown) start, (parts path).getLast? with
  | .file _ _, some _ => throw (.file (.inTheWay shown))
  | folder, some name =>
    match folder, files.enter folder name with
    | _, .nameTooLong => throw (.file (.nameTooLong shown))
    | _, .file path _ => return some path
    | .folder folder, .nothing => return some (joined (folder ++ [name]))
    | _, .nothing => return none
    | _, _ => throw (.file (.isDirectory shown))
  | _, none => throw (.file (.isDirectory shown))

end Files

end Stratagem
