import QueryShape.Glob.Match
import QueryShape.Rule.Basic

namespace QueryShape

/-- The kinds of objects that rules are for. -/
inductive RuleScope where
  | procedures
  | scripts
  | tables
  deriving DecidableEq, Repr

namespace RuleScope

def label : RuleScope → String
  | procedures => "procedure"
  | scripts => "script"
  | tables => "table"

end RuleScope

/-- A procedure or script as rules know it. -/
inductive UnitKey where
  | procedure (name : QualifiedName)
  | script (identity : String)
  deriving DecidableEq, Repr

namespace UnitKey

def scope : UnitKey → RuleScope
  | procedure _ => .procedures
  | script _ => .scripts

/-- The text that patterns are matched with. -/
def subject : UnitKey → String
  | procedure name => name.plain
  | script identity => identity

def label (k : UnitKey) : String :=
  k.scope.label ++ " '" ++ k.subject ++ "'"

end UnitKey

/-- The objects a rule is for: those of a scope whose name one pattern matches and no other of a
list does. -/
structure Selector where
  scope : RuleScope
  pattern : Glob.Pattern
  except : List Glob.Pattern := []
  deriving DecidableEq, Repr

namespace Selector

/-- Whether a name matches, and is not among the exceptions. -/
def selects (s : Selector) (name : String) : Bool :=
  s.pattern.accepts name && !s.except.any (·.accepts name)

end Selector

/-- A rule in the form in which it is checked for use: its objects and the keys it has settings
for. -/
structure DeclaredRule where
  description : String
  selector : Selector
  /-- With the `@`. -/
  parameterNames : List String
  columnNames : List String
  deriving DecidableEq, Repr

/-- What a run asks of its configuration. -/
structure RuleSet where
  ruleFor : UnitKey → EffectiveRule
  includesProcedure : QualifiedName → Bool
  includesTable : QualifiedName → Bool
  skipsColumn : QualifiedName → String → Bool
  tableScripts : QualifiedName → List TableScriptRule
  declared : List DeclaredRule

/-- A rule for the objects that its selector matches. -/
structure ObjectRule where
  selector : Selector
  inclusion : Option Bool := none
  /-- By parameter key. -/
  parameters : KeyMap ParameterRule := .empty
  /-- By column key. -/
  columns : KeyMap ColumnRule := .empty
  tempTables : List String := []
  tableScripts : List TableScriptRule := []
  checkUnused : Option Bool := none

namespace ObjectRule

def withParameter (r : ObjectRule) (name : String) (rule : ParameterRule) : ObjectRule :=
  { r with parameters := r.parameters.insert (Identifier.parameterKey name) rule }

def withColumn (r : ObjectRule) (name : String) (rule : ColumnRule) : ObjectRule :=
  { r with columns := r.columns.insert (columnKey name) rule }

/-- Whether the rule is about an object. -/
def appliesTo (r : ObjectRule) (scope : RuleScope) (name : String) : Bool :=
  r.selector.scope == scope && r.selector.selects name

/-- Adds what a rule says to what earlier rules came to. -/
def addTo (e : EffectiveRule) (r : ObjectRule) : EffectiveRule :=
  let e := r.parameters.entries.foldl (fun e (key, rule) => e.addParameter key rule) e
  let e := r.columns.entries.foldl (fun e (key, rule) => e.addColumn key rule) e
  { e with
    tempTables := e.tempTables ++ r.tempTables
    checkUnused := r.checkUnused.getD e.checkUnused }

/-- What a rule names, as warnings tell of it. -/
def declared (r : ObjectRule) : DeclaredRule where
  description := r.selector.scope.label ++ " rule '" ++ r.selector.pattern.text ++ "'"
  selector := r.selector
  parameterNames := r.parameters.keys.map ("@" ++ ·)
  columnNames := r.columns.keys

end ObjectRule

/-- Rules in the order in which they were declared. Of two rules that make one setting for one
object the later has it. -/
structure GlobRules where
  rules : List ObjectRule

namespace GlobRules

def applying (g : GlobRules) (scope : RuleScope) (name : String) : List ObjectRule :=
  g.rules.filter (·.appliesTo scope name)

/-- What rules come to for a unit. -/
def ruleFor (g : GlobRules) (unit : UnitKey) : EffectiveRule :=
  (g.applying unit.scope unit.subject).foldl ObjectRule.addTo {}

/-- Whether an object is included: the last rule that says so decides. -/
def includes (g : GlobRules) (scope : RuleScope) (name : QualifiedName) : Bool :=
  ((g.applying scope name.plain).filterMap (·.inclusion)).getLast?.getD false

/-- Whether rules leave a column out of a table. -/
def skipsColumn (g : GlobRules) (table : QualifiedName) (column : String) : Bool :=
  (((g.applying .tables table.plain).filterMap fun r => r.columns.get? (columnKey column)).foldl
    ColumnRule.merge {}).isSkipped

/-- Puts a request last and removes an earlier one for the same script. -/
def addScript (table : QualifiedName) (requests : List TableScriptRule)
    (request : TableScriptRule) : List TableScriptRule :=
  (requests.filter fun r => r.identity table != request.identity table) ++ [request]

/-- The scripts that rules ask for a table. -/
def tableScripts (g : GlobRules) (table : QualifiedName) : List TableScriptRule :=
  ((g.applying .tables table.plain).flatMap (·.tableScripts)).foldl (addScript table) []

/-- The answers of rules. -/
def toRuleSet (g : GlobRules) : RuleSet where
  ruleFor := g.ruleFor
  includesProcedure := g.includes .procedures
  includesTable := g.includes .tables
  skipsColumn := g.skipsColumn
  tableScripts := g.tableScripts
  declared := g.rules.map ObjectRule.declared

end GlobRules

end QueryShape
