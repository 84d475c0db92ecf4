import QueryShape.Assembly.Assemble
import QueryShape.Script.Files

namespace QueryShape

/-- Script files below one directory. -/
structure ScriptDirectory where
  name : String
  files : List ScriptFile

/-- Reads the scripts, connects and makes the model. Nothing is asked of the server before all
scripts are read. -/
def inferModel {σ : Type} (rules : RuleSet) (directory : Option ScriptDirectory)
    (options : RunOptions) : Session σ Model := do
  let scripts ←
    match directory with
    | some d => Session.ofExcept (loadScripts d.name d.files)
    | none => pure []
  let primary ← Session.require .openingPrimary Dialogue.connect
  assemble primary true rules scripts options

end QueryShape
