namespace QueryShape.Path

/-! Paths whose parts stand between slashes. The root is the part `/`; a part `.` counts only where
a relative path begins with it. -/

/-- The parts between slashes, empty ones too. -/
def pieces : List Char → List (List Char)
  | [] => [[]]
  | c :: rest =>
      if c = '/' then [] :: pieces rest
      else
        match pieces rest with
        | [] => [[c]]
        | p :: ps => (c :: p) :: ps

/-- The parts that lead somewhere. -/
def steps (ps : List (List Char)) : List (List Char) :=
  ps.filter fun p => !p.isEmpty && p != ['.']

/-- The parts of a path, from its root on if it has one. -/
def parts (path : List Char) : List (List Char) :=
  match path with
  | '/' :: _ => ['/'] :: steps (pieces path)
  | _ =>
      match pieces path with
      | ['.'] :: rest => ['.'] :: steps rest
      | ps => steps ps

def ofParts (ps : List (List Char)) : List Char :=
  ['/'].intercalate ps

/-- The last part, unless the path ends in the root or in dots that lead to a directory. -/
def fileName? (path : List Char) : Option (List Char) :=
  (parts path).getLast?.filter fun p => p != ['/'] && p != ['.'] && p != ['.', '.']

/-- What stands before and after the last dot. -/
def splitAtLastDot? : List Char → Option (List Char × List Char)
  | [] => none
  | c :: rest =>
      match splitAtLastDot? rest with
      | some (before, after) => some (c :: before, after)
      | none => if c = '.' then some ([], rest) else none

/-- The stem and the extension of a file name. A dot at the start of the name begins no
extension. -/
def stemAndExtension (name : List Char) : List Char × Option (List Char) :=
  match splitAtLastDot? name with
  | some (c :: stem, extension) => (c :: stem, some extension)
  | _ => (name, none)

/-- What stands behind the last dot of the file name. -/
def extension? (path : List Char) : Option (List Char) :=
  (fileName? path).bind fun name => (stemAndExtension name).2

/-- The path, given from its end, without what follows its last part. -/
def trimEnd : List Char → List Char
  | '/' :: rest => trimEnd rest
  | '.' :: '/' :: rest => trimEnd rest
  | path => path

/-- The path without the extension of its file name. -/
def upToStem (path : List Char) : List Char :=
  match fileName? path with
  | none => path
  | some name =>
      let path := (trimEnd path.reverse).reverse
      path.take (path.length - name.length + (stemAndExtension name).1.length)

/-- The path without the extension of its file name. As many characters as the extension has are
taken from the end first, so that a name such as `..sql` leaves the parts `..`. -/
def withoutExtension (path : List Char) : List Char :=
  upToStem (path.take (path.length - ((extension? path).getD []).length))

/-- The steps from a directory to a path, if the path is below the directory. -/
def stepsBelow? : List (List Char) → List (List Char) → Option (List (List Char))
  | [], path => some path
  | _, [] => none
  | d :: directory, p :: path => if d = p then stepsBelow? directory path else none

/-- The path from a directory on; the path itself if it is not below the directory. -/
def relativeTo (directory path : List Char) : List Char :=
  match stepsBelow? (parts directory) (parts path) with
  | some ps => ofParts ps
  | none => path

def below (directory path : List Char) : List Char :=
  directory ++ '/' :: ofParts (steps (pieces path))

end QueryShape.Path
