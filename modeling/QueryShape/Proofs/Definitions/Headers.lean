import QueryShape.Proofs.Cascade
import QueryShape.Proofs.Definitions.Parameters

namespace QueryShape

open QueryShape.Identifier

namespace ProcedureHeader

open QueryShape.TempTable
open QueryShape.VariableScan (commaSeparated)

variable {t : Token} {ts rest : List Token} {parenthesized : Bool}

theorem isKeyword_nameToken (w : WrittenParameter) {keyword : String}
    (hkeyword : '@' ∉ keyword.toList) : w.nameToken.isKeyword keyword = false :=
  VariableScan.isKeyword_of_startsWithAt (w := ⟨"@" ++ w.name, w.delimiter⟩)
    (by rw [String.toList_append]; rfl) hkeyword

theorem not_isBlank_of_endsParameter (ht : endsParameter t = true) : (!t.isBlank) = true :=
  not_isBlank_of_endsValue (endsValue_of_endsParameter ht)

theorem parametersFrom_parameter (w : WrittenParameter) (hrest : StartsWith endsParameter rest) :
    parametersFrom parenthesized (afterBlanks (w.tokens ++ rest)) =
      w.header :: parametersFrom parenthesized (afterComma rest) := by
  obtain ⟨behind, htokens, hparameter⟩ := w.parameter_tokens hrest
  have hblanks := (hrest.mono fun _ => not_isBlank_of_endsParameter).afterBlanks_eq
  have hgoesOn : ¬ (w.nameToken.isKeyword "AS" || w.nameToken.isKeyword "WITH" ||
      (parenthesized && w.nameToken == .closeParen)) = true := by
    rw [isKeyword_nameToken w (by decide), isKeyword_nameToken w (by decide)]
    simp [WrittenParameter.nameToken]
  rw [htokens, afterBlanks_replicate, afterBlanks_cons_of_not_isBlank rfl, parametersFrom,
    if_neg hgoesOn, hparameter, hblanks]
  rfl

/-- Tokens at which a list of parameters is at its end. -/
structure EndsList (parenthesized : Bool) (ts : List Token) : Prop where
  startsWith : StartsWith endsParameter ts
  noComma : afterComma ts = ts
  noParameters : parametersFrom parenthesized ts = []

theorem parametersFrom_commaSeparated (ps : List WrittenParameter)
    (h : EndsList parenthesized rest) :
    parametersFrom parenthesized (afterBlanks (commaSeparated (ps.map (·.tokens)) ++ rest)) =
      ps.map (·.header) := by
  cases ps with
  | nil =>
      have hblanks := (h.startsWith.mono fun _ => not_isBlank_of_endsParameter).afterBlanks_eq
      rw [List.map_nil, commaSeparated, List.nil_append, hblanks, h.noParameters, List.map_nil]
  | cons w ps =>
      rw [List.map_cons, commaSeparated, List.append_assoc, List.map_cons]
      induction ps generalizing w with
      | nil =>
          rw [List.map_nil, List.flatMap_nil, List.nil_append,
            parametersFrom_parameter w h.startsWith, h.noComma, h.noParameters, List.map_nil]
      | cons v ps ih =>
          rw [List.map_cons, List.flatMap_cons, List.append_assoc, List.cons_append,
            parametersFrom_parameter w (startsWith_cons_iff.2 rfl), List.map_cons, ← ih v]
          rfl

theorem endsList_word {w : Word} (h : w.isKeyword "AS" = true ∨ w.isKeyword "WITH" = true)
    (body : List Token) : EndsList parenthesized (.word w :: body) where
  startsWith := startsWith_cons_iff.2 (by simpa [endsParameter, Token.isKeyword] using h)
  noComma := rfl
  noParameters := by
    rw [parametersFrom, if_pos (by rw [Bool.or_eq_true, Bool.or_eq_true]; exact .inl h)]

theorem endsList_closeParen (ts : List Token) : EndsList true (.closeParen :: ts) where
  startsWith := startsWith_cons_iff.2 rfl
  noComma := rfl
  noParameters := by
    rw [parametersFrom, if_pos (show (_ || _ || (true && _)) = true from rfl)]

theorem startsWith_commaSeparated (ps : List WrittenParameter)
    (hrest : StartsWith endsParameter rest) :
    StartsWith endsType (afterBlanks (commaSeparated (ps.map (·.tokens)) ++ rest)) := by
  cases ps with
  | nil =>
      rw [List.map_nil, commaSeparated, List.nil_append,
        (hrest.mono fun _ => not_isBlank_of_endsParameter).afterBlanks_eq]
      exact hrest.mono fun _ => endsType_of_endsParameter
  | cons w ps =>
      rw [List.map_cons, commaSeparated, WrittenParameter.tokens, List.append_assoc,
        List.append_assoc, afterBlanks_replicate, List.append_assoc, afterBlanks_spaced rfl]
      exact startsWith_cons_iff.2 rfl

theorem WrittenVerb.exists_tokens_eq (verb : WrittenVerb) :
    ∃ w more, verb.tokens = WrittenWord.tokens w ++ more := by
  cases verb with
  | create w h => exact ⟨w, [], (List.append_nil _).symm⟩
  | createOrAlter w middle last h hmiddle hlast => exact ⟨w, _, rfl⟩
  | alter w h => exact ⟨w, [], (List.append_nil _).symm⟩

theorem take?_keyword {w : WrittenWord} {keyword : String} (h : w.word.isKeyword keyword = true)
    (hrest : afterBlanks rest = rest) :
    take? (·.isKeyword keyword) (w.tokens ++ rest) = some rest := by
  rw [take?_word _ _ hrest]
  exact if_pos h

theorem afterVerb?_tokens (verb : WrittenVerb) (hrest : afterBlanks rest = rest)
    (hor : take? (·.isKeyword "OR") rest = none) :
    afterVerb? (verb.tokens ++ rest) = some rest := by
  cases verb with
  | create w h =>
      rw [WrittenVerb.tokens, afterVerb?, take?_keyword h hrest]
      dsimp only
      rw [hor]
  | createOrAlter w middle last h hmiddle hlast =>
      rw [WrittenVerb.tokens, List.append_assoc, List.append_assoc, afterVerb?,
        take?_keyword h (afterBlanks_word middle _)]
      dsimp only
      rw [take?_keyword hmiddle (afterBlanks_word last _)]
      exact take?_keyword hlast hrest
  | alter w h =>
      have hcreate : w.word.isKeyword "CREATE" = false :=
        Word.isKeyword_eq_false (Word.upper_of_isKeyword h) (by decide)
      rw [WrittenVerb.tokens, afterVerb?, take?_word _ _ hrest,
        if_neg (by simp [Token.isKeyword, hcreate])]
      exact take?_keyword h hrest

namespace WrittenDefinition

variable (d : WrittenDefinition)

theorem endsList_start : EndsList false (.word d.start :: d.body) :=
  endsList_word d.start_isKeyword d.body

theorem parameterList_behindName :
    parameterList (afterBlanks d.behindName) = d.parameters.map (·.header) := by
  cases hparentheses : d.parentheses with
  | none =>
      have hno : take? (· == .openParen) (afterBlanks
          (commaSeparated (d.parameters.map (·.tokens)) ++ .word d.start :: d.body)) = none := by
        refine (startsWith_commaSeparated d.parameters d.endsList_start.startsWith).take?_eq_none ?_
        intro t ht
        simpa using (Bool.and_eq_true_iff.1 ht).2
      rw [behindName, listTokens, hparentheses]
      dsimp only
      rw [parameterTokens, parameterList, hno]
      exact parametersFrom_commaSeparated d.parameters d.endsList_start
  | some blanks =>
      rw [behindName, listTokens, hparentheses]
      dsimp only
      rw [List.append_assoc, afterBlanks_spaced rfl, parameterList, take?_spaced,
        if_pos (beq_self_eq_true _), List.append_assoc]
      exact parametersFrom_commaSeparated d.parameters (endsList_closeParen _)

theorem startsWith_behindName : StartsWith endsName (afterBlanks d.behindName) := by
  cases hparentheses : d.parentheses with
  | none =>
      rw [behindName, listTokens, hparentheses]
      exact (startsWith_commaSeparated d.parameters d.endsList_start.startsWith).mono fun _ =>
        endsName_of_endsType
  | some blanks =>
      rw [behindName, listTokens, hparentheses]
      dsimp only
      rw [List.append_assoc, afterBlanks_spaced rfl]
      exact startsWith_cons_iff.2 rfl

theorem afterVerb?_afterBlanks_tokens : afterVerb? (afterBlanks d.tokens) =
    some (d.kind.tokens ++ (d.name.tokens ++ d.behindName)) := by
  obtain ⟨w, more, hverb⟩ := d.verb.exists_tokens_eq
  have hor : d.kind.word.isKeyword "OR" = false := by
    rcases d.kind_isKeyword with h | h
    · exact Word.isKeyword_eq_false (Word.upper_of_isKeyword h) (by decide)
    · exact Word.isKeyword_eq_false (Word.upper_of_reads h (by decide)) (by decide)
  have hkind : take? (·.isKeyword "OR")
      (d.kind.tokens ++ (d.name.tokens ++ d.behindName)) = none := by
    rw [take?_word _ _ (d.name.afterBlanks_tokens _), if_neg (by simp [Token.isKeyword, hor])]
  have hblanks : afterBlanks d.tokens =
      d.verb.tokens ++ (d.kind.tokens ++ (d.name.tokens ++ d.behindName)) := by
    rw [tokens, afterBlanks_replicate, hverb, List.append_assoc, afterBlanks_word]
  rw [hblanks, afterVerb?_tokens _ (afterBlanks_word d.kind _) hkind]

theorem ofTokens?_tokens : ofTokens? d.tokens = some d.header := by
  obtain ⟨after, hname, hafter⟩ := objectName?_tokens d.name d.startsWith_behindName
  have hkind : take? (fun t => t.isKeyword "PROCEDURE" || t.reads "PROC")
      (d.kind.tokens ++ (d.name.tokens ++ d.behindName)) =
        some (d.name.tokens ++ d.behindName) := by
    rw [take?_word _ _ (d.name.afterBlanks_tokens _), if_pos]
    simpa [Token.isKeyword, Token.reads] using d.kind_isKeyword
  simp [ofTokens?, afterVerb?_afterBlanks_tokens, hkind, hname, hafter, parameterList_behindName,
    header]

end WrittenDefinition

theorem get?_procedureDefaults {sql : String} {header : ProcedureHeader}
    (h : read? sql = some header) (key : String) :
    (procedureDefaults sql).get? key = (header.parameters.filterMap fun p =>
      if parameterKey p.name = key then p.default? else none).getLast? := by
  have hentry (p : HeaderParameter) : ((p.default?.map (parameterKey p.name, ·)).bind fun e =>
      if e.1 = key then some e.2 else none) =
        if parameterKey p.name = key then p.default? else none := by
    cases p.default? <;> simp
  unfold procedureDefaults
  rw [h]
  dsimp only
  rw [get?_ofList, List.filterMap_filterMap]
  simp only [hentry]

end ProcedureHeader

open ProcedureHeader Token

/-- A definition with what a definition may have. -/
def findText : String :=
  "CREATE OR ALTER PROC [sales].Find (@a AS nvarchar (9) = N'it''s' /* name */ OUT,\n" ++
    "@b dbo.Ids READONLY) WITH RECOMPILE AS SELECT @c = 1"

/-- A parameter with a default value and one with a table type. -/
def findParameters : List WrittenParameter :=
  [{ name := "a"
     blanksBehindName := 1
     asWord := some ⟨⟨"AS", none⟩, 1⟩
     type :=
      { name := .plain ⟨⟨"nvarchar", none⟩, 1⟩
        facets := some ⟨[.number "9" false], 1, by decide⟩
        goesOn := by decide +kernel }
     default := some ⟨[.blank, .nationalString "it's", .blank, .blank, .blank], by decide⟩
     flagsAfter := [⟨.output, ⟨⟨"OUT", none⟩, 0⟩, "OUT", by decide, by decide⟩]
     asWord_isKeyword := by decide +kernel
     varying_reads := by decide },
   { blanks := 1
     name := "b"
     blanksBehindName := 1
     type :=
      { name := .qualified ⟨⟨"dbo", none⟩, 0⟩ 0 ⟨⟨"Ids", none⟩, 1⟩
        goesOn := by decide +kernel }
     flagsAfter := [⟨.readonly, ⟨⟨"READONLY", none⟩, 0⟩, "READONLY", by decide, by decide⟩]
     asWord_isKeyword := by decide
     varying_reads := by decide }]

def findDefinition : WrittenDefinition where
  verb := .createOrAlter ⟨⟨"CREATE", none⟩, 1⟩ ⟨⟨"OR", none⟩, 1⟩ ⟨⟨"ALTER", none⟩, 1⟩
    (by decide +kernel) (by decide +kernel) (by decide +kernel)
  kind := ⟨⟨"PROC", none⟩, 1⟩
  name := .qualified ⟨⟨"sales", some .bracket⟩, 0⟩ 0 ⟨⟨"Find", none⟩, 1⟩
  parentheses := some (0, 1)
  parameters := findParameters
  start := ⟨"WITH", none⟩
  body := [.blank, .word ⟨"RECOMPILE", none⟩, .blank, .word ⟨"AS", none⟩, .blank,
    .word ⟨"SELECT", none⟩, .blank, .word ⟨"@c", none⟩, .blank, .equals, .blank, .number "1" false]
  kind_isKeyword := .inr (by decide)
  start_isKeyword := .inr (by decide +kernel)

end QueryShape
