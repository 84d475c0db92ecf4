import QueryShape.Proofs.CreatedTables
import QueryShape.Proofs.QuotedNames
import QueryShape.Proofs.Variables.Declarations

/-!
How a scan for variables depends on what stands in front of a text and on the names of its temp
tables. Wherever a scan comes from, it finds no undeclared variables that it would not find from the
start, and it finds the same ones where the temp tables are made global.
-/

namespace QueryShape

open QueryShape.Identifier
open QueryShape.TempTable

namespace TempTable

variable {c : Char} {cs : List Char} {insertion : List Char} {before behind : Option Char}
  {t t' : Token} {ts ts' : List Token} {name : String}

/-- A variable that the tokenizer reads as a whole and inside of which no name of a temp table
begins. -/
def IsWholeVariable (name : String) : Prop :=
  IsRegularVariable name ∧ ∀ c ∈ name.toList, isNamePart c = true

theorem insertInNames_of_isNamePart {b : Char} (hb : isNamePart b = true)
    (hcs : ∀ c ∈ cs, isNamePart c = true) : insertInNames insertion (some b) cs = cs := by
  induction cs generalizing b with
  | nil => rfl
  | cons c cs ih =>
      obtain ⟨hc, hcs⟩ := List.forall_mem_cons.1 hcs
      rw [insertInNames_cons_inside hb, ih hc hcs]

theorem IsWholeVariable.insertInNames_eq (h : IsWholeVariable name) :
    insertInNames insertion before name.toList = name.toList := by
  obtain ⟨⟨c, cs, hname, -⟩, hparts⟩ := h
  rw [hname] at hparts ⊢
  obtain ⟨hat, hparts⟩ := List.forall_mem_cons.1 hparts
  rw [insertInNames_cons_of_ne (by decide), insertInNames_of_isNamePart hat hparts]

theorem hash_mem_insertInNames (h : '#' ∈ cs) : '#' ∈ insertInNames insertion before cs := by
  by_contra hno
  rw [insertInNames_eq_self hno] at hno
  exact hno h

theorem Word.head?_of_isVariable {w : Word} (h : w.isVariable = true) :
    w.value.toList.head? = some '@' := by
  obtain ⟨c, rest, hvalue, -⟩ := Word.isVariable_iff.1 h
  rw [hvalue]
  rfl

theorem isVariable_insertInNames (value : List Char) (delimiter : Option Delimiter) :
    (Word.mk (String.ofList (insertInNames insertion before value)) delimiter).isVariable =
      (Word.mk (String.ofList value) delimiter).isVariable := by
  by_cases hat : value.head? = some '@'
  · obtain ⟨rest, rfl⟩ := List.head?_eq_some_iff.1 hat
    rw [insertInNames_cons_of_ne (by decide)]
    cases rest with
    | nil => rfl
    | cons d rest =>
        rw [insertInNames_cons_inside (by decide)]
        simp [Word.isVariable]
  · have hno {cs : List Char} (hcs : cs.head? ≠ some '@') :
        (Word.mk (String.ofList cs) delimiter).isVariable = false := by
      rw [← Bool.not_eq_true]
      intro h
      have hhead := Word.head?_of_isVariable h
      rw [String.toList_ofList] at hhead
      exact hcs hhead
    rw [hno hat, hno (by rwa [head?_insertInNames])]

theorem reads_insertInNames {text : String} (htext : '#' ∉ text.toList) (value : List Char)
    (delimiter : Option Delimiter) :
    (Word.mk (String.ofList (insertInNames insertion before value)) delimiter).reads text =
      (Word.mk (String.ofList value) delimiter).reads text := by
  by_cases hvalue : '#' ∈ value
  · have hno {cs : List Char} (hcs : '#' ∈ cs) :
        (Word.mk (String.ofList cs) delimiter).reads text = false := by
      rw [← Bool.not_eq_true]
      intro h
      have hmem : '#' ∈ Text.folded text := by
        rw [← Text.sameIgnoringCase_iff.1 h, Text.mem_folded_iff (by decide), String.toList_ofList]
        exact hcs
      exact htext ((Text.mem_folded_iff (by decide)).1 hmem)
    rw [hno hvalue, hno (hash_mem_insertInNames hvalue)]
  · rw [insertInNames_of_not_mem hvalue]

theorem Renamed.exists_value {w : Word} (h : Renamed insertion before (.word w) t' behind) :
    ∃ b, t' = .word ⟨String.ofList (insertInNames insertion b w.value.toList), w.delimiter⟩ := by
  cases h with
  | bare value => exact ⟨before, by rw [String.toList_ofList]⟩
  | delimited d value => exact ⟨some d.opening, by rw [String.toList_ofList]⟩
  | literal h => contradiction
  | sign h => contradiction

theorem Renamed.exists_word_iff (h : Renamed insertion before t t' behind) :
    (∃ w, t' = .word w) ↔ ∃ w, t = .word w := by
  cases h with
  | literal h h' => cases t <;> cases t' <;> simp_all [Token.IsLiteral]
  | _ => simp

theorem Renamed.eq_equals_iff (h : Renamed insertion before t t' behind) :
    t' = .equals ↔ t = .equals := by
  cases h with
  | literal h h' => cases t <;> cases t' <;> simp_all [Token.IsLiteral]
  | _ => simp

end TempTable

namespace VariableScan

variable {insertion : List Char} {before behind : Option Char} {t t' : Token}
  {ts ts' us : List Token} {r : Reading}

theorem afterWord_insertInNames (s : State) (w : Word) (b : Option Char) :
    s.afterWord ⟨String.ofList (insertInNames insertion b w.value.toList), w.delimiter⟩ =
      s.afterWord w := by
  have hkeyword (verb : String) (hverb : '#' ∉ verb.toList) :
      (Word.mk (String.ofList (insertInNames insertion b w.value.toList)) w.delimiter).isKeyword
        verb = w.isKeyword verb := by
    rw [isKeyword_insertInNames hverb, String.ofList_toList]
  have hreads (text : String) (htext : '#' ∉ text.toList) :
      (Word.mk (String.ofList (insertInNames insertion b w.value.toList)) w.delimiter).reads text =
        w.reads text := by
    rw [reads_insertInNames htext, String.ofList_toList]
  have hstarts : startsStatement
      ⟨String.ofList (insertInNames insertion b w.value.toList), w.delimiter⟩ =
        startsStatement w := by
    have hhashes : ∀ text ∈ statementWords, '#' ∉ text.toList := by decide
    unfold startsStatement
    rw [Bool.eq_iff_iff, Bool.and_eq_true, Bool.and_eq_true, List.any_eq_true, List.any_eq_true]
    refine and_congr_right fun _ => exists_congr fun text => and_congr_right fun htext => ?_
    rw [hreads text (hhashes text htext)]
  have hvariable := @isVariable_insertInNames insertion b w.value.toList w.delimiter
  rw [String.ofList_toList] at hvariable
  unfold State.afterWord
  rw [hvariable, hkeyword "DECLARE" (by decide), hkeyword "EXEC" (by decide),
    hkeyword "EXECUTE" (by decide), hstarts]

theorem after_of_renamed (s : State) (h : Renamed insertion before t t' behind) :
    s.after t' = s.after t := by
  by_cases hword : ∃ w, t = .word w
  · obtain ⟨w, rfl⟩ := hword
    obtain ⟨b, rfl⟩ := h.exists_value
    exact afterWord_insertInNames s w b
  · cases h with
    | bare => exact absurd ⟨_, rfl⟩ hword
    | delimited => exact absurd ⟨_, rfl⟩ hword
    | literal h h' => cases t <;> cases t' <;> first | rfl | contradiction
    | _ => rfl

/-- Tokens of a text and the tokens in their places where names are written into the text. -/
def AreRenamed (insertion : List Char) (ts ts' : List Token) : Prop :=
  List.Forall₂ (fun t t' => ∃ before behind, Renamed insertion before t t' behind) ts ts'

theorem areRenamed_visible (h : RenamedFrom insertion before ts ts') :
    AreRenamed insertion (ts.filter isVisible) (ts'.filter isVisible) := by
  induction h with
  | nil => exact .nil
  | cons hfirst _ ih =>
      have hvisible : isVisible _ = isVisible _ := congrArg not hfirst.isBlank_eq
      rw [List.filter_cons, List.filter_cons, hvisible]
      split
      · exact .cons ⟨_, _, hfirst⟩ ih
      · exact ih

theorem AreRenamed.head?_eq_equals_iff (h : AreRenamed insertion ts ts') :
    ts'.head? = some .equals ↔ ts.head? = some .equals := by
  cases h with
  | nil => rfl
  | cons hfirst _ =>
      obtain ⟨_, _, hrenamed⟩ := hfirst
      simpa using hrenamed.eq_equals_iff

/-- Where all variables that are found are whole, names of temp tables can be made global. -/
theorem readings_of_areRenamed (h : AreRenamed insertion ts ts') (s : State)
    (hwhole : ∀ r ∈ readings s ts, IsWholeVariable r.1) : readings s ts' = readings s ts := by
  induction h generalizing s with
  | nil => rfl
  | @cons t t' ts ts' hfirst hrest ih =>
      obtain ⟨before, behind, hrenamed⟩ := hfirst
      rw [readings_cons] at hwhole
      obtain ⟨hhere, hwhole⟩ := List.forall_mem_append.1 hwhole
      rw [readings_cons, readings_cons, after_of_renamed s hrenamed, ih _ hwhole]
      congr 2
      by_cases hword : ∃ w, t = .word w
      · obtain ⟨w, rfl⟩ := hword
        obtain ⟨b, rfl⟩ := hrenamed.exists_value
        have hfollowing : (ts'.head? == some .equals) = (ts.head? == some .equals) := by
          rw [Bool.eq_iff_iff, beq_iff_eq, beq_iff_eq]
          exact AreRenamed.head?_eq_equals_iff hrest
        have hvariable := @isVariable_insertInNames insertion b w.value.toList w.delimiter
        rw [String.ofList_toList] at hvariable
        unfold mention? at hhere ⊢
        dsimp only at hhere ⊢
        rw [hvariable, hfollowing]
        split
        · rename_i hmention
          rw [if_pos hmention] at hhere
          have hname : IsWholeVariable w.value := hhere _ (List.mem_singleton_self _)
          rw [hname.insertInNames_eq, String.ofList_toList]
        · rfl
      · have hword' : ¬ ∃ w, t' = .word w := fun h => hword (hrenamed.exists_word_iff.1 h)
        have hnone {u : Token} (hu : ¬ ∃ w, u = .word w) (following : Option Token) :
            mention? s ⟨u, 0⟩ following = none := by
          cases u with
          | word w => exact absurd ⟨w, rfl⟩ hu
          | _ => rfl
        rw [hnone hword, hnone hword']

/-- A scan that has seen no declaration and no call stays that way until one begins, and then it is
where every scan would be. -/
theorem after_statement (s : State) (depth : Nat) (t : Token) :
    (∃ depth', State.after ⟨.statement, depth⟩ t = ⟨.statement, depth'⟩) ∨
      s.after t = State.after ⟨.statement, depth⟩ t := by
  have hstays : State.leaveCallStart ⟨.statement, depth⟩ = ⟨.statement, depth⟩ := rfl
  cases t with
  | word w =>
      simp only [State.after, State.afterWord]
      split
      · exact .inl ⟨depth, rfl⟩
      split
      · exact .inr rfl
      split
      · exact .inr rfl
      split
      · exact .inl ⟨depth, rfl⟩
      · exact .inl ⟨depth, hstays⟩
  | openParen => exact .inl ⟨depth + 1, rfl⟩
  | closeParen => exact .inl ⟨depth - 1, rfl⟩
  | semicolon => exact .inr rfl
  | _ => exact .inl ⟨depth, rfl⟩

/-- From anywhere a scan finds no variables that it would not find from the start, and declared are
at least those that would be. -/
theorem readings_from (s : State) (depth : Nat) (ts : List Token) :
    (∀ r ∈ readings s ts, ∃ declared, (r.1, declared) ∈ readings ⟨.statement, depth⟩ ts) ∧
      ∀ r ∈ readings ⟨.statement, depth⟩ ts, r.2 = true → r ∈ readings s ts := by
  induction ts generalizing s depth with
  | nil => exact ⟨nofun, nofun⟩
  | cons t ts ih =>
      have hrest : (∀ r ∈ readings (s.after t) ts,
          ∃ declared, (r.1, declared) ∈ readings (State.after ⟨.statement, depth⟩ t) ts) ∧
          ∀ r ∈ readings (State.after ⟨.statement, depth⟩ t) ts, r.2 = true →
            r ∈ readings (s.after t) ts := by
        rcases after_statement s depth t with ⟨depth', heq⟩ | heq
        · rw [heq]
          exact ih (s.after t) depth'
        · rw [heq]
          exact ⟨fun r hr => ⟨r.2, hr⟩, fun r hr _ => hr⟩
      -- In a statement each variable is read, and none is declared.
      by_cases hvariable : t.isVariable = true
      · cases t with
        | word w =>
            have hhere := readings_cons_variable (s := ⟨.statement, depth⟩) ts hvariable rfl
            rw [hhere, readings_cons, ← after_variable hvariable]
            constructor
            · intro r hr
              rcases List.mem_append.1 hr with hr | hr
              · unfold mention? at hr
                dsimp only at hr
                split at hr
                · obtain rfl := List.mem_singleton.1 hr
                  exact ⟨_, List.mem_cons_self⟩
                · cases hr
              · obtain ⟨declared, hmem⟩ := hrest.1 r hr
                exact ⟨declared, List.mem_cons_of_mem _ hmem⟩
            · intro r hr hdeclared
              rcases List.mem_cons.1 hr with rfl | hr
              · cases hdeclared
              · exact List.mem_append_right _ (hrest.2 r hr hdeclared)
        | _ => cases hvariable
      · have hquiet : t.isVariable = false := Bool.eq_false_iff.2 hvariable
        rw [readings_cons_of_isVariable _ hquiet, readings_cons_of_isVariable _ hquiet]
        exact hrest

theorem exists_readings_append (s : State) (us : List Token)
    (hts : ∀ t ∈ ts, t.isVariable = false) :
    ∃ s', readings s (ts ++ us) = readings s' us := by
  induction ts generalizing s with
  | nil => exact ⟨s, rfl⟩
  | cons t ts ih =>
      obtain ⟨ht, hts⟩ := List.forall_mem_cons.1 hts
      rw [List.cons_append, readings_cons_of_isVariable _ ht]
      exact ih _ hts

end VariableScan

end QueryShape
