import QueryShape.Proofs.GeneratedText.Lexemes
import QueryShape.Proofs.Variables.Readings

/-!
The variables in a statement that is put together from wording, names in brackets and variables. The
main statement says what a scan finds in a text whose tokens begin no declaration and no call: every
variable, in order and undeclared.
-/

namespace QueryShape

open QueryShape.Identifier
open QueryShape.TempTable
open QueryShape.VariableScan

namespace Token

/-- Tokens that begin no declaration and no call. -/
def isQuiet : Token → Bool
  | word w => !w.isKeyword "DECLARE" && !w.isKeyword "EXEC" && !w.isKeyword "EXECUTE"
  | _ => true

theorem variableName?_of_isBlank {t : Token} (h : t.isBlank = true) : t.variableName? = none := by
  cases t with
  | blank => rfl
  | _ => cases h

theorem isQuiet_word_of_delimiter (value : String) (d : Delimiter) :
    (word ⟨value, some d⟩).isQuiet = true :=
  rfl

end Token

namespace VariableScan

variable {ts : List Token}

theorem after_of_isQuiet {t : Token} (h : t.isQuiet = true) (depth : Nat) :
    ∃ depth', (⟨.statement, depth⟩ : State).after t = ⟨.statement, depth'⟩ := by
  cases t with
  | word w =>
      simp only [Token.isQuiet, Bool.and_eq_true, Bool.not_eq_true'] at h
      obtain ⟨⟨hdeclare, hexec⟩, hexecute⟩ := h
      refine ⟨depth, ?_⟩
      change (⟨.statement, depth⟩ : State).afterWord w = _
      simp [State.afterWord, State.afterVariable, State.declares, State.leaveCallStart, hdeclare,
        hexec, hexecute]
  | openParen => exact ⟨depth + 1, rfl⟩
  | closeParen => exact ⟨depth - 1, rfl⟩
  | semicolon => exact ⟨0, rfl⟩
  | _ => exact ⟨depth, rfl⟩

/-- In a statement every variable is read, and none is declared. -/
theorem readings_of_isQuiet (h : ∀ t ∈ ts, t.isQuiet = true) (depth : Nat) :
    readings ⟨.statement, depth⟩ ts = (ts.filterMap Token.variableName?).map (·, false) := by
  induction ts generalizing depth with
  | nil => rfl
  | cons t rest ih =>
      obtain ⟨ht, hrest⟩ := List.forall_mem_cons.1 h
      obtain ⟨depth', hafter⟩ := after_of_isQuiet ht depth
      cases hvariable : t.isVariable with
      | false =>
          have hnone : t.variableName? = none := by
            cases t with
            | word w =>
                have hw : w.isVariable = false := hvariable
                simp [Token.variableName?, hw]
            | _ => rfl
          rw [readings_cons_of_isVariable _ hvariable, hafter, ih hrest,
            List.filterMap_cons_none hnone]
      | true =>
          cases t with
          | word w =>
              have hw : w.isVariable = true := hvariable
              have hsome : (Token.word w).variableName? = some w.value := by
                simp [Token.variableName?, hw]
              rw [readings_cons_variable _ hw rfl, ← after_variable hw, hafter, ih hrest,
                List.filterMap_cons_some hsome]
              rfl
          | _ => cases hvariable

end VariableScan

/-- The text begins no declaration and no call, and the variables in it are these. -/
def Mentions (text : String) (names : List String) : Prop :=
  ∃ ts, Spells text.toList ts ∧ (∀ t ∈ ts, t.isQuiet = true) ∧
    ts.filterMap Token.variableName? = names

variable {text rest : String} {names ms ns : List String}

/-- The variables of a statement are undeclared, each key once and in order of first use. -/
theorem Mentions.scanVariables (h : Mentions text names) :
    ∃ found, scanVariables text = some found ∧ found.declared = [] ∧
      found.undeclared.map (·.name) = firstOfEach parameterKey names := by
  obtain ⟨ts, hspells, hquiet, hnames⟩ := h
  have hvisible : visibleTokens text = some (ts.filter fun t => !t.isBlank) := by
    rw [visibleTokens, tokens_eq_some_iff.2 hspells, Option.map_some]
  have hvariables : (ts.filter fun t => !t.isBlank).filterMap Token.variableName? = names := by
    rw [List.filterMap_filter, ← hnames]
    apply List.filterMap_congr
    intro t _
    by_cases ht : t.isBlank = true
    · simp [ht, Token.variableName?_of_isBlank ht]
    · simp [ht]
  obtain ⟨found, hscan, hreadings⟩ := exists_scanVariables hvisible
  rw [readings_of_isQuiet (fun t ht => hquiet t (List.mem_filter.1 ht).1), hvariables]
    at hreadings
  have hundeclared : ∀ name, (summary found).isDeclared name = false := by
    intro name
    rw [← Bool.not_eq_true, isDeclared_summary_iff, hreadings]
    rintro ⟨r, hr, hdeclared, -⟩
    obtain ⟨n, -, rfl⟩ := List.mem_map.1 hr
    cases hdeclared
  have hdeclared : (found.filter (·.declared)) = [] := by
    apply List.filter_eq_nil_iff.2
    intro m hm hdeclared
    have hmem : m.reading ∈ names.map (·, false) := hreadings ▸ List.mem_map_of_mem hm
    obtain ⟨n, -, hn⟩ := List.mem_map.1 hmem
    have hfalse : m.declared = false := (congrArg Prod.snd hn).symm
    rw [hfalse] at hdeclared
    cases hdeclared
  refine ⟨_, hscan, ?_, ?_⟩
  · rw [summary, hdeclared]
    simp [orderedKeys, firstOfEach]
  · have hall : ((summary found).references.map (·.name)).filter
        (fun n => !(summary found).isDeclared n) = (summary found).references.map (·.name) := by
      apply List.filter_eq_self.2
      intro name _
      rw [hundeclared name]
      rfl
    rw [map_name_undeclared, hall, map_name_references, hreadings, List.map_map]
    congr 1
    exact List.map_id _

/-- A text of that kind which may stand behind a word. -/
structure Trails (text : String) (names : List String) : Prop where
  mentions : Mentions text names
  endsWord : EndsWord text.toList

/-- A text that adds its variables to those of what follows it, where that may stand behind a
word. -/
def IsPhrase (text : String) (names : List String) : Prop :=
  ∀ ⦃rest : String⦄ ⦃ns : List String⦄, Trails rest ns → Mentions (text ++ rest) (names ++ ns)

theorem trails_empty : Trails "" [] :=
  ⟨⟨[], .nil, List.forall_mem_nil _, rfl⟩, endsWord_nil⟩

theorem mentions_append_of_spells (ts : List Token) (hrest : Mentions rest ns)
    (hspells : ∀ us, Spells rest.toList us → Spells (text ++ rest).toList (ts ++ us))
    (hquiet : ∀ t ∈ ts, t.isQuiet = true) (hnames : ts.filterMap Token.variableName? = names) :
    Mentions (text ++ rest) (names ++ ns) := by
  obtain ⟨us, hus, hquiet', rfl⟩ := hrest
  refine ⟨ts ++ us, hspells us hus, List.forall_mem_append.2 ⟨hquiet, hquiet'⟩, ?_⟩
  rw [List.filterMap_append, hnames]

theorem mentions_append_of_nameless (ts : List Token) (hrest : Mentions rest ns)
    (hspells : ∀ us, Spells rest.toList us → Spells (text ++ rest).toList (ts ++ us))
    (hquiet : ∀ t ∈ ts, t.isQuiet = true) (hnames : ts.filterMap Token.variableName? = []) :
    Mentions (text ++ rest) ns :=
  mentions_append_of_spells ts hrest hspells hquiet hnames

theorem isPhrase_of_spells {t : Token} (hquiet : t.isQuiet = true) (hspells : ∀ {cs us},
    EndsWord cs → Spells cs us → Spells (text.toList ++ cs) (t :: us)) :
    IsPhrase text t.variableName?.toList := by
  intro rest ns hrest
  apply mentions_append_of_spells [t] hrest.mentions
  · intro us hus
    rw [String.toList_append]
    exact hspells hrest.endsWord hus
  · exact List.forall_mem_singleton.2 hquiet
  · cases ht : t.variableName? with
    | none => rw [List.filterMap_cons_none ht]; rfl
    | some name => rw [List.filterMap_cons_some ht]; rfl

/-- Names that no variable has. -/
def LacksSigil (name : String) : Prop :=
  name.toList.head? ≠ some '@'

instance (name : String) : Decidable (LacksSigil name) :=
  inferInstanceAs (Decidable (_ ≠ _))

theorem LacksSigil.variableName?_eq {name : String} (h : LacksSigil name)
    (delimiter : Option Delimiter) : (Token.word ⟨name, delimiter⟩).variableName? = none := by
  have hvariable : ¬ (Word.mk name delimiter).isVariable = true := by
    rw [Word.isVariable_iff]
    rintro ⟨c, cs, hname, -⟩
    exact h (by rw [hname]; rfl)
  simp [Token.variableName?, hvariable]

theorem isPhrase_quote {name : String} (h : LacksSigil name) : IsPhrase (quote name) [] := by
  have hphrase := isPhrase_of_spells (Token.isQuiet_word_of_delimiter name .bracket)
    (fun hend => spells_quote name hend)
  rwa [h.variableName?_eq] at hphrase

theorem isPhrase_fullName {name : QualifiedName} (hschema : LacksSigil name.schema)
    (hname : LacksSigil name.name) : IsPhrase name.full [] := by
  intro rest ns hrest
  refine mentions_append_of_nameless
    [.word ⟨name.schema, some .bracket⟩, .period, .word ⟨name.name, some .bracket⟩]
    hrest.mentions (fun us hus => ?_) (by simp [Token.isQuiet, Word.isKeyword]) ?_
  · rw [String.toList_append]
    exact spells_fullName name hrest.endsWord hus
  · rw [List.filterMap_cons_none (hschema.variableName?_eq _), List.filterMap_cons_none rfl,
      List.filterMap_cons_none (hname.variableName?_eq _)]
    rfl

theorem isPhrase_variable {name : String} (h : IsRegularVariable name) :
    IsPhrase name [name] := by
  have hquiet : (Token.word ⟨name, none⟩).isQuiet = true := by
    simp [Token.isQuiet, isKeyword_of_isVariable (h.isVariable none)]
  have hphrase := isPhrase_of_spells hquiet (fun hend => spells_variable h hend)
  rwa [show (Token.word ⟨name, none⟩).variableName? = some name by
    simp [Token.variableName?, h.isVariable]] at hphrase

/-- Fixed wording without variables that begins no declaration and no call. -/
def isFixedWording (text : String) : Bool :=
  text.toList.all isWording &&
    (tokens text).any (·.all fun t => t.isQuiet && t.variableName?.isNone)

theorem mentions_wording (htext : isFixedWording text = true)
    (hend : (∀ d ∈ text.toList.getLast?, Token.isIdentifierPart d = false) ∨
      EndsWord rest.toList) (hrest : Mentions rest ns) : Mentions (text ++ rest) ns := by
  obtain ⟨hwording, htokens⟩ := Bool.and_eq_true_iff.1 htext
  cases hts : tokens text with
  | none =>
      rw [hts] at htokens
      cases htokens
  | some ts =>
      rw [hts, Option.any_some, List.all_eq_true] at htokens
      refine mentions_append_of_nameless ts hrest (fun us hus => ?_) ?_ ?_
      · rw [String.toList_append]
        exact (tokens_eq_some_iff.1 hts).append_of_isWording (List.all_eq_true.1 hwording) hend hus
      · exact fun t ht => (Bool.and_eq_true_iff.1 (htokens t ht)).1
      · apply List.filterMap_eq_nil_iff.2
        exact fun t ht => Option.isNone_iff_eq_none.1 (Bool.and_eq_true_iff.1 (htokens t ht)).2

/-- Wording whose last word ends in it. -/
def isClosedWording (text : String) : Bool :=
  isFixedWording text && text.toList.getLast?.all fun d => !Token.isIdentifierPart d

theorem mentions_closed (htext : isClosedWording text = true)
    (hrest : Mentions rest ns) : Mentions (text ++ rest) ns := by
  obtain ⟨hfixed, hlast⟩ := Bool.and_eq_true_iff.1 htext
  refine mentions_wording hfixed (.inl fun d hd => ?_) hrest
  rw [Option.mem_def] at hd
  simpa [hd] using hlast

/-- Whether a text that is not empty may stand behind a word. -/
def endsWordBefore (text : String) : Bool :=
  text.toList.head?.any fun c => !Token.isIdentifierPart c && c != ']' && c != '\''

theorem endsWord_append (h : endsWordBefore text = true) (rest : String) :
    EndsWord (text ++ rest).toList := by
  rw [String.toList_append]
  unfold endsWordBefore at h
  cases htext : text.toList with
  | nil =>
      rw [htext] at h
      cases h
  | cons c cs =>
      rw [htext] at h
      exact endsWord_cons (by simpa [and_assoc] using h)

theorem isPhrase_empty : IsPhrase "" [] := by
  intro rest ns hrest
  rw [String.empty_append, List.nil_append]
  exact hrest.mentions

theorem IsPhrase.intercalate {ι : Type} {sep : String} {text : ι → String}
    {names : ι → List String} {items : List ι}
    (hsep : ∀ {rest ns}, Mentions rest ns → Trails (sep ++ rest) ns)
    (hitems : ∀ i ∈ items, IsPhrase (text i) (names i)) :
    IsPhrase (sep.intercalate (items.map text)) (items.flatMap names) := by
  induction items with
  | nil => exact isPhrase_empty
  | cons i items ih =>
      obtain ⟨hi, hitems⟩ := List.forall_mem_cons.1 hitems
      cases items with
      | nil =>
          intro rest ns hrest
          have hmentions := hi hrest
          simpa using hmentions
      | cons j items =>
          intro rest ns hrest
          have hmentions := hi (hsep (ih hitems hrest))
          rw [List.map_cons, List.map_cons, String.intercalate_cons_cons, String.append_assoc,
            String.append_assoc, List.flatMap_cons, List.append_assoc]
          exact hmentions

end QueryShape
