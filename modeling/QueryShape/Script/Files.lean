import QueryShape.Fault
import QueryShape.KeyMap
import QueryShape.Path
import QueryShape.Text.Encoding
import QueryShape.Text.IgnoreCase
import QueryShape.Unit

namespace QueryShape

open QueryShape.Text

namespace Script

/-- The identity of a script at a path below a directory: its parts from there on, without the
extension. -/
def identityOfPath (directory path : String) : String :=
  String.ofList
    (Path.ofParts
      (Path.parts (Path.withoutExtension (Path.relativeTo directory.toList path.toList))))

end Script

/-- A file with its path. -/
structure ScriptFile where
  path : String
  bytes : ByteArray

namespace ScriptFile

/-- Whether a file has the extension of scripts. -/
def isScript (f : ScriptFile) : Bool :=
  match Path.extension? f.path.toList with
  | some e => sameIgnoringCase (String.ofList e) "sql"
  | none => false

/-- The script that a file holds, unless it cannot be decoded. -/
def read (directory : String) (f : ScriptFile) : Except Fault Script :=
  match decode? f.bytes with
  | some text => .ok { identity := Script.identityOfPath directory f.path, text }
  | none => .error (.undecodableFile f.path)

/-- The files below a directory whose paths are given from there on. Of two files with one path the
later counts. -/
def tree (directory : String) (files : List ScriptFile) : List ScriptFile :=
  let byPath := KeyMap.ofList (files.map fun f =>
    (String.ofList (Path.below directory.toList f.path.toList), f.bytes))
  byPath.entries.map fun e => ⟨e.1, e.2⟩

end ScriptFile

/-- The scripts among the files of a directory, in the order of their identities. -/
def loadScripts (directory : String) (files : List ScriptFile) : Except Fault (List Script) :=
  let scripts := (ScriptFile.tree directory files).filter ScriptFile.isScript
  (scripts.mapM (ScriptFile.read directory)).map fun ss =>
    ss.mergeSort fun a b => decide (a.identity ≤ b.identity)

end QueryShape
