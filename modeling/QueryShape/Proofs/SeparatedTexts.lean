import QueryShape.Proofs.GlobalTokens.Readers
import QueryShape.TempTable.Sandbox

/-!
Texts that are made global in parts. The main statement says that a text can be cut at each
character which no name holds, so the name that a sandbox drops a table by is the one that its
definition and the scripts have after they were made global.
-/

namespace QueryShape

open QueryShape.TempTable

namespace TempTable

variable {insertion xs ys : List Char} {before : Option Char} {c : Char}

theorem startsName_append (h : startsName ys = false) (xs : List Char) :
    startsName (xs ++ ys) = startsName xs := by
  cases xs with
  | nil => simpa [startsName] using h
  | cons x rest => rfl

theorem insertInNames_append (insertion : List Char) (before : Option Char) (xs : List Char)
    (h : startsName ys = false) :
    insertInNames insertion before (xs ++ ys) =
      insertInNames insertion before xs ++ insertInNames insertion (xs.getLast?.or before) ys := by
  induction xs generalizing before with
  | nil => rfl
  | cons x rest ih =>
      have hlast : (x :: rest).getLast?.or before = rest.getLast?.or (some x) := by
        rw [List.getLast?_cons]
        cases rest.getLast? <;> rfl
      rw [List.cons_append, insertInNames_cons, insertInNames_cons, ih, hlast,
        writtenAfter_congr (startsName_append h rest)]
      simp

theorem startsName_of_isNamePart (h : isNamePart c = false) (rest : List Char) :
    startsName (c :: rest) = false := by
  rw [← Bool.not_eq_true]
  intro hstarts
  rw [isNamePart_of_startsName hstarts] at h
  cases h

/-- A character that no name holds ends the name before it, and after it a name may begin as it may
at the start of a text. -/
theorem insertInNames_separated (insertion : List Char) (before : Option Char) (xs ys : List Char)
    (hc : isNamePart c = false) :
    insertInNames insertion before (xs ++ c :: ys) =
      insertInNames insertion before xs ++ c :: insertInNames insertion none ys := by
  have hhash : c ≠ '#' := by
    rintro rfl
    cases hc
  have hends : endsName (some c) = endsName none := by simp [endsName, hc]
  rw [insertInNames_append _ _ _ (startsName_of_isNamePart hc ys), insertInNames_cons_of_ne hhash,
    insertInNames_congr hends]

/-- A search from the left finds in a text what it finds in the parts. The match at the start of the
second part takes nothing before its name where the one in the whole text takes the character at
which the text is cut. -/
theorem replaceMatches_separated (insertion xs ys : List Char) (hc : isNamePart c = false) :
    replaceMatches insertion true (xs ++ c :: ys) =
      replaceMatches insertion true xs ++ c :: replaceMatches insertion true ys := by
  have hsearch (cs : List Char) :
      replaceMatches insertion true cs = insertInNames insertion none cs :=
    replaceMatches_eq_insertInNames insertion none cs nofun
  rw [hsearch, hsearch, hsearch]
  exact insertInNames_separated insertion none xs ys hc

end TempTable

/-- A text around a character. -/
def joinedAt (c : Char) (front back : String) : String :=
  front ++ String.singleton c ++ back

theorem toList_joinedAt (c : Char) (front back : String) :
    (joinedAt c front back).toList = front.toList ++ c :: back.toList := by
  simp [joinedAt]

theorem RunToken.globalize_joinedAt (t : RunToken) {c : Char} (hc : isNamePart c = false)
    (front back : String) :
    t.globalize (joinedAt c front back) = joinedAt c (t.globalize front) (t.globalize back) := by
  apply String.toList_inj.1
  rw [toList_globalize, toList_joinedAt, toList_joinedAt, toList_globalize, toList_globalize]
  exact insertInNames_separated t.insertion none front.toList back.toList hc

namespace Sandbox

theorem names_getElem? {s : Sandbox} {i : Nat} {table : TempTable} (h : s.tables[i]? = some table) :
    s.names[i]? = some (s.placed table.name) := by
  simp [names, h]

theorem definitions_getElem? {s : Sandbox} {i : Nat} {table : TempTable}
    (h : s.tables[i]? = some table) :
    s.definitions[i]? = some (s.placed table.definition) := by
  simp [definitions, h]

/-- A text that is cut at a character which no name holds is made global part by part, and a search
from the left comes to the same. So where the name of a table of a sandbox stands between such
characters, in its definition or in a script, there stands afterwards the name under which the
sandbox knows the table on the server. -/
theorem globalize_parts (t : RunToken) {c : Char} (hc : isNamePart c = false) (a b : String) :
    t.globalize (joinedAt c a b) = joinedAt c (t.globalize a) (t.globalize b) ∧
      replaceMatches t.insertion true (joinedAt c a b).toList =
        replaceMatches t.insertion true a.toList ++
          c :: replaceMatches t.insertion true b.toList ∧
      ∀ (tables : List TempTable) (i : Nat) (table : TempTable) (d : Char),
        tables[i]? = some table → isNamePart d = false →
          (Sandbox.mk tables .script t).names[i]? = some (t.globalize table.name) ∧
            (∀ text, text = joinedAt c a (joinedAt d table.name b) →
              t.globalize text = joinedAt c (t.globalize a)
                (joinedAt d (t.globalize table.name) (t.globalize b))) ∧
            (table.definition = joinedAt c a (joinedAt d table.name b) →
              (Sandbox.mk tables .script t).definitions[i]? = some (joinedAt c (t.globalize a)
                (joinedAt d (t.globalize table.name) (t.globalize b)))) := by
  refine ⟨t.globalize_joinedAt hc a b, ?_, ?_⟩
  · rw [toList_joinedAt]
    exact replaceMatches_separated t.insertion a.toList b.toList hc
  · intro tables i table d htable hd
    have hplace : t.globalize (joinedAt c a (joinedAt d table.name b)) =
        joinedAt c (t.globalize a) (joinedAt d (t.globalize table.name) (t.globalize b)) := by
      rw [t.globalize_joinedAt hc, t.globalize_joinedAt hd]
    refine ⟨names_getElem? htable, ?_, ?_⟩
    · rintro text rfl
      exact hplace
    · intro hdefinition
      rw [definitions_getElem? htable, hdefinition]
      exact congrArg some hplace

/-- A temp table that is defined by its name in brackets. -/
def bracketTable : TempTable where
  name := "#ids"
  definition := "CREATE TABLE [#ids](Id int)"

/-- The first part ends in a hash, and after the bracket stands a name. -/
theorem bracketTable_parts : isNamePart '[' = false ∧ isNamePart ']' = false ∧
    ((RunToken.ofText "run").forUnit 3).globalize "SELECT * FROM #a#[#ids" =
      "SELECT * FROM ##run_3_a#[##run_3_ids" ∧
    (Sandbox.mk [bracketTable] .script ((RunToken.ofText "run").forUnit 3)).names[0]? =
      some "##run_3_ids" ∧
    (Sandbox.mk [bracketTable] .script ((RunToken.ofText "run").forUnit 3)).definitions[0]? =
      some "CREATE TABLE [##run_3_ids](Id int)" := by
  have hopen : isNamePart '[' = false := by decide
  have hclose : isNamePart ']' = false := by decide
  obtain ⟨htext, -, -⟩ :=
    globalize_parts ((RunToken.ofText "run").forUnit 3) hopen "SELECT * FROM #a#" "#ids"
  obtain ⟨-, -, htables⟩ :=
    globalize_parts ((RunToken.ofText "run").forUnit 3) hopen "CREATE TABLE " "(Id int)"
  obtain ⟨hname, -, hdefinition⟩ := htables [bracketTable] 0 bracketTable ']' rfl hclose
  refine ⟨hopen, hclose, htext.trans (by decide +kernel), hname.trans (by decide +kernel), ?_⟩
  exact (hdefinition (by decide +kernel)).trans (by decide +kernel)

end Sandbox

end QueryShape
