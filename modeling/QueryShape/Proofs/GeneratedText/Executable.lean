import QueryShape.Inference.ResultSet
import QueryShape.Proofs.GeneratedText.Phrases

namespace QueryShape

open QueryShape.Identifier
open QueryShape.Inference
open QueryShape.TempTable
open QueryShape.VariableScan

variable {text rest : String} {ts us : List Token}

/-- Whether a scan looks at a token. -/
def isVisible (t : Token) : Bool :=
  !t.isBlank

theorem visibleTokens_append (text : String) (ts : List Token)
    (hrest : visibleTokens rest = some us)
    (hspells : ∀ us, Spells rest.toList us → Spells (text ++ rest).toList (ts ++ us)) :
    visibleTokens (text ++ rest) = some (ts.filter isVisible ++ us) := by
  obtain ⟨all, hall, rfl⟩ := Option.map_eq_some_iff.1 hrest
  have happend := tokens_eq_some_iff.2 (hspells all (tokens_eq_some_iff.1 hall))
  rw [visibleTokens, happend, Option.map_some, List.filter_append]
  rfl

theorem visibleTokens_empty : visibleTokens "" = some [] := by
  have htokens : tokens "" = some [] := tokens_eq_some_iff.2 .nil
  rw [visibleTokens, htokens]
  rfl

namespace TempTable

open QueryShape.Token

variable {c : Char} {cs ds : List Char}

theorem next_of_isDigit (hc : c.isDigit = true) (rest : List Char) :
    next c rest = some (numeral (c :: rest)) := by
  have hne : ∀ d : Char, d.isDigit = false → c ≠ d := by
    rintro d hd rfl
    rw [hc] at hd
    cases hd
  have hcode := Text.isDigit_iff.1 hc
  have hblank : ¬ Unicode.isBlank c = true :=
    Unicode.not_isBlank_of_toNat (by omega) (by omega)
  unfold next Token.visible
  rw [if_neg hblank, if_neg fun h => hne '-' (by decide) h.1,
    if_neg fun h => hne '/' (by decide) h.1, if_neg (hne '\'' (by decide)),
    if_neg (hne '[' (by decide)), if_neg (hne '"' (by decide)),
    if_pos (by simp [hc])]

theorem spells_digits (hds : ds ≠ []) (hdigits : ∀ d ∈ ds, d.isDigit = true)
    (hc : c = ')' ∨ c = ',') (h : Spells (c :: cs) us) :
    Spells (ds ++ c :: cs) (.number (String.ofList ds) false :: us) := by
  obtain ⟨d, ds, rfl⟩ := List.exists_cons_of_ne_nil hds
  have hstop : ¬ c.isDigit = true := by
    rcases hc with rfl | rfl <;> decide
  have htake : (d :: ds ++ c :: cs).takeWhile Char.isDigit = d :: ds := by
    rw [List.takeWhile_append_of_pos hdigits, List.takeWhile_cons_of_neg hstop, List.append_nil]
  have hdrop : (d :: ds ++ c :: cs).dropWhile Char.isDigit = c :: cs := by
    rw [List.dropWhile_append_of_pos hdigits, List.dropWhile_cons_of_neg hstop]
  have hnumeral : numeral (d :: ds ++ c :: cs) =
      (.number (String.ofList (d :: ds)) false, c :: cs) := by
    unfold numeral
    rw [htake, hdrop]
    rcases hc with rfl | rfl <;> simp [numberAfter, exponent]
  exact .cons ((next_of_isDigit (hdigits d List.mem_cons_self) _).trans (congrArg some hnumeral)) h

theorem spells_nat (n : Nat) (hc : c = ')' ∨ c = ',') (h : Spells (c :: cs) us) :
    Spells ((toString n).toList ++ c :: cs) (.number (toString n) false :: us) := by
  have hdigits : (toString n).toList = Nat.toDigits 10 n := by simp
  have hspells := spells_digits Nat.toDigits_ne_nil
    (fun d hd => Nat.isDigit_of_mem_toDigits (n := n) (b := 10) (by decide) (by decide) hd) hc h
  rwa [← hdigits, String.ofList_toList] at hspells

end TempTable

theorem isRegularVariable_of_isAlphanum {name : String} {c : Char} {cs : List Char}
    (hname : name.toList = '@' :: c :: cs)
    (h : ∀ d ∈ c :: cs, (d.isAlphanum || d == '_') = true) : IsRegularVariable name := by
  refine ⟨c, cs, hname, ?_, fun d hd => isIdentifierPart_of_isAlphanum (h d hd)⟩
  rintro rfl
  exact absurd (h '@' List.mem_cons_self) (by decide)

/-- A text of a type, which begins nothing wherever a word may end. -/
def IsInertText (text : String) : Prop :=
  ∃ ts, isInert 0 (ts.filter isVisible) = true ∧
    ∀ {cs us}, EndsWord cs → Spells cs us → Spells (text.toList ++ cs) (ts ++ us)

theorem isHarmless_delimited {name : String} (h : LacksSigil name) (d : Delimiter) :
    isHarmless ⟨name, some d⟩ = true := by
  have hvariable : (Word.mk name (some d)).isVariable = false := by
    rw [← Bool.not_eq_true, Word.isVariable_iff]
    rintro ⟨c, cs, hname, -⟩
    exact h (by rw [hname]; rfl)
  simp [isHarmless, hvariable, Word.isKeyword, startsStatement]

theorem isInertText_fullName {name : QualifiedName} (hschema : LacksSigil name.schema)
    (hname : LacksSigil name.name) : IsInertText name.full := by
  refine ⟨[.word ⟨name.schema, some .bracket⟩, .period, .word ⟨name.name, some .bracket⟩], ?_,
    fun hend h => spells_fullName name hend h⟩
  simp [isVisible, Token.isBlank, isInert, isHarmless_delimited hschema,
    isHarmless_delimited hname]

theorem isHarmless_typeName {t : SqlType} (ht : t ∈ SqlType.all) :
    isHarmless ⟨t.name, none⟩ = true := by
  have hall : ∀ t ∈ SqlType.all, isHarmless ⟨t.name, none⟩ = true := by decide +kernel
  exact hall t ht

theorem spells_typeName {t : SqlType} {cs : List Char} (ht : t ∈ SqlType.all) (hcs : EndsWord cs)
    (h : Spells cs us) : Spells (t.name.toList ++ cs) (.word ⟨t.name, none⟩ :: us) := by
  have hall : ∀ t ∈ SqlType.all, t.name.toList.head?.any Char.isAlpha = true ∧
      t.name.toList.all Token.isIdentifierPart = true := by
    decide +kernel
  obtain ⟨hfirst, hparts⟩ := hall t ht
  cases hname : t.name.toList with
  | nil =>
      rw [hname] at hfirst
      cases hfirst
  | cons c ds =>
      rw [hname] at hfirst hparts
      have hds : ∀ d ∈ ds, Token.isIdentifierPart d = true :=
        (List.forall_mem_cons.1 (List.all_eq_true.1 hparts)).2
      have hnext := next_word hfirst hds hcs
      rw [← hname, String.ofList_toList] at hnext
      exact .cons hnext h

theorem isInertText_typeName {t : SqlType} (ht : t ∈ SqlType.all) : IsInertText t.name := by
  refine ⟨[.word ⟨t.name, none⟩], ?_, fun hend h => spells_typeName ht hend h⟩
  simp [isVisible, Token.isBlank, isInert, isHarmless_typeName ht]

theorem isInertText_unlimited {t : SqlType} (ht : t ∈ SqlType.all) :
    IsInertText (t.name ++ "(max)") := by
  refine ⟨[.word ⟨t.name, none⟩, .openParen, .word ⟨"max", none⟩, .closeParen], ?_,
    fun hend h => ?_⟩
  · have hmax : isHarmless ⟨"max", none⟩ = true := by decide
    simp [isVisible, Token.isBlank, isInert, isHarmless_typeName ht, hmax]
  · rw [String.toList_append, List.append_assoc]
    exact spells_typeName ht (endsWord_cons (by decide)) (.cons rfl (.cons rfl (.cons rfl h)))

theorem isInertText_sized {t : SqlType} (ht : t ∈ SqlType.all) (n : Nat) :
    IsInertText (t.name ++ "(" ++ toString n ++ ")") := by
  refine ⟨[.word ⟨t.name, none⟩, .openParen, .number (toString n) false, .closeParen], ?_,
    fun hend h => ?_⟩
  · simp [isVisible, Token.isBlank, isInert, isHarmless_typeName ht]
  · have hsize := spells_nat n (.inl rfl) (.cons rfl h)
    simp only [String.toList_append, List.append_assoc]
    exact spells_typeName ht (endsWord_cons (by decide)) (.cons rfl hsize)

theorem isInertText_precise {t : SqlType} (ht : t ∈ SqlType.all) (m n : Nat) :
    IsInertText (t.name ++ "(" ++ toString m ++ "," ++ toString n ++ ")") := by
  refine ⟨[.word ⟨t.name, none⟩, .openParen, .number (toString m) false, .comma,
    .number (toString n) false, .closeParen], ?_, fun hend h => ?_⟩
  · simp [isVisible, Token.isBlank, isInert, isHarmless_typeName ht]
  · have hscale := spells_nat n (.inl rfl) (.cons rfl h)
    have hprecision := spells_nat m (.inr rfl) (.cons rfl hscale)
    simp only [String.toList_append, List.append_assoc]
    exact spells_typeName ht (endsWord_cons (by decide)) (.cons rfl hprecision)

theorem isInertText_declaration {t : SqlType} (ht : t ∈ SqlType.all) (size : Int)
    (precision scale : Nat) : IsInertText (t.declaration size precision scale) := by
  unfold SqlType.declaration
  split
  · split
    · exact isInertText_unlimited ht
    · obtain ⟨n, hn⟩ := Int.eq_ofNat_of_zero_le (show 0 ≤ max size 1 by omega)
      rw [hn]
      exact isInertText_sized ht n
  split
  · exact isInertText_precise ht _ _
  split
  · exact isInertText_sized ht scale
  · exact isInertText_typeName ht

/-- The tokens of a text in front of a semicolon, if they begin nothing. -/
def IsInertBody (text : String) : Prop :=
  ∃ ts, isInert 0 (ts.filter isVisible) = true ∧
    ∀ {cs us}, Spells (';' :: cs) us → Spells (text.toList ++ ';' :: cs) (ts ++ us)

theorem IsInertText.isInertBody (h : IsInertText text) : IsInertBody text := by
  obtain ⟨ts, hinert, hspells⟩ := h
  exact ⟨ts, hinert, fun hus => hspells (endsWord_cons (by decide)) hus⟩

/-- The built-in literals that are quoted. -/
def quotedBuildValues : List String :=
  ["", "1900-01-01", "00:00:00", "00000000-0000-0000-0000-000000000000"]

theorem exists_spells_buildValue {value : String}
    (h : value ∈ SqlType.all.map (·.buildValue)) : ∃ t : Token, t.isBlank = false ∧
      (∀ depth ts, isInert depth (t :: ts) = isInert depth ts) ∧
      ∀ {cs us}, Spells (';' :: cs) us → Spells (value.toList ++ ';' :: cs) (t :: us) := by
  have hall : SqlType.all.map (·.buildValue) ⊆
      ["0", "0x", "N''"] ++ quotedBuildValues.map fun body => "'" ++ body ++ "'" := by
    decide
  rcases List.mem_append.1 (hall h) with hplain | hquoted
  · simp only [List.mem_cons, List.not_mem_nil, or_false] at hplain
    rcases hplain with rfl | rfl | rfl
    · exact ⟨.number "0" false, rfl, fun _ _ => rfl, fun hus => .cons rfl hus⟩
    · exact ⟨.binary "", rfl, fun _ _ => rfl, fun hus => .cons rfl hus⟩
    · exact ⟨.nationalString "", rfl, fun _ _ => rfl, fun hus => .cons rfl hus⟩
  · obtain ⟨body, hbody, rfl⟩ := List.mem_map.1 hquoted
    have hquotes : ∀ body ∈ quotedBuildValues, '\'' ∉ body.toList := by decide
    refine ⟨.string body, rfl, fun _ _ => rfl, fun hus => ?_⟩
    have hspells := spells_string (hquotes body hbody) (by simp) hus
    rw [String.ofList_toList] at hspells
    simpa using hspells

theorem isInert_append {depth : Nat} (h : isInert depth ts = true) (us : List Token) :
    isInert depth (ts ++ us) = isInert 0 us := by
  fun_induction isInert depth ts with
  | case1 depth =>
      obtain rfl := eq_of_beq h
      rfl
  | case2 depth w tail ih =>
      obtain ⟨hw, htail⟩ := Bool.and_eq_true_iff.1 h
      rw [List.cons_append, isInert, hw, ih htail, Bool.true_and]
  | case3 depth tail ih => exact ih h
  | case4 depth tail ih =>
      obtain ⟨hdepth, htail⟩ := Bool.and_eq_true_iff.1 h
      rw [List.cons_append, isInert, hdepth, ih htail, Bool.true_and]
  | case5 depth tail ih =>
      obtain ⟨hdepth, htail⟩ := Bool.and_eq_true_iff.1 h
      rw [List.cons_append, isInert, hdepth, ih htail, Bool.true_and]
  | case6 => cases h
  | case7 depth t tail hword hopen hclose hcomma hsemicolon ih =>
      rw [List.cons_append, isInert] <;> first | exact ih h | assumption

namespace Inference.Command

variable {rule : EffectiveRule} {p : Parameter}

/-- The literal that a variable of a scalar type gets. -/
def literal (rule : EffectiveRule) (p : Parameter) (t : SqlType) : String :=
  ((rule.parameter? p.name).bind (·.buildValue)).getD t.buildValue

/-- What stands behind the name of a variable in its line. -/
def lineBody (rule : EffectiveRule) (p : Parameter) : String :=
  match p.type with
  | .table t => t.name.full
  | .scalar t => t.declaration p.size p.precision p.scale ++ " = " ++ literal rule p t

theorem variableLine_eq (rule : EffectiveRule) (p : Parameter) :
    variableLine rule p = "DECLARE " ++ p.name ++ " " ++ lineBody rule p ++ ";\n" := by
  unfold variableLine lineBody Parameter.variableDeclaration literal
  cases p.type with
  | table t => rfl
  | scalar t => simp only [String.append_assoc]

/-- A parameter whose line reads as the declaration of a variable: its name is that of a variable,
its type is built in or a table type, and its literal is a built-in one. -/
structure Declares (rule : EffectiveRule) (p : Parameter) : Prop where
  name : IsRegularVariable p.name
  notCursor : p.isCursor = false
  table : ∀ t, p.type = .table t → LacksSigil t.name.schema ∧ LacksSigil t.name.name
  scalar : ∀ t, p.type = .scalar t →
    t ∈ SqlType.all ∧ literal rule p t ∈ SqlType.all.map (·.buildValue)

theorem Declares.isInertBody (h : Declares rule p) : IsInertBody (lineBody rule p) := by
  unfold lineBody
  cases htype : p.type with
  | table t =>
      obtain ⟨hschema, hname⟩ := h.table t htype
      exact (isInertText_fullName hschema hname).isInertBody
  | scalar t =>
      obtain ⟨ht, hliteral⟩ := h.scalar t htype
      obtain ⟨ts, hinert, hspells⟩ :=
        isInertText_declaration ht p.size p.precision p.scale
      obtain ⟨value, hblank, hvalue, hliteral⟩ := exists_spells_buildValue hliteral
      refine ⟨ts ++ [.blank, .equals, .blank, value], ?_, fun hus => ?_⟩
      · have hvisible : isVisible value = true := by
          rw [isVisible, hblank]
          rfl
        rw [List.filter_append, isInert_append hinert]
        change isInert 0 (.equals :: [value].filter isVisible) = true
        rw [List.filter_cons_of_pos hvisible, isInert.eq_def]
        exact hvalue 0 []
      · simp only [String.toList_append, List.append_assoc]
        exact hspells (endsWord_cons (by decide)) (.cons rfl (.cons rfl (.cons rfl (hliteral hus))))

theorem exists_visibleTokens_variableLine (h : Declares rule p)
    (hrest : visibleTokens rest = some us) :
    ∃ ts, visibleTokens (variableLine rule p ++ rest) = some ts ∧
      readings {} ts = (p.name, true) :: readings {} us := by
  obtain ⟨ts, hinert, hspells⟩ := h.isInertBody
  refine ⟨_, visibleTokens_append (variableLine rule p) ([.word ⟨"DECLARE", none⟩, .blank,
    .word ⟨p.name, none⟩, .blank] ++ ts ++ [.semicolon, .blank]) hrest fun us hus => ?_, ?_⟩
  · have hbody := hspells (.cons rfl (.cons (c := '\n') rfl hus))
    have hname := spells_variable h.name (endsWord_cons (by decide)) (.cons (c := ' ') rfl hbody)
    rw [variableLine_eq]
    simp only [String.toList_append, List.append_assoc]
    exact .cons rfl (.cons rfl hname)
  · have hfilter : ([Token.word ⟨"DECLARE", none⟩, .blank, .word ⟨p.name, none⟩, .blank] ++ ts ++
        [Token.semicolon, .blank]).filter isVisible = .word ⟨"DECLARE", none⟩ ::
          .word ⟨p.name, none⟩ :: (ts.filter isVisible ++ [.semicolon]) := by
      rw [List.filter_append, List.filter_append]
      rfl
    rw [hfilter]
    simp only [List.cons_append, List.append_assoc, List.nil_append]
    rw [readings_declare _ (h.name.isVariable none), readings_append_of_isInert _ hinert,
      readings_cons_of_isVariable _ rfl]
    rfl

theorem exists_visibleTokens_variableLines {ps : List Parameter} (h : ∀ p ∈ ps, Declares rule p)
    (hrest : visibleTokens rest = some us) :
    ∃ ts, visibleTokens (String.join (ps.map (variableLine rule)) ++ rest) = some ts ∧
      readings {} ts = (ps.map fun p => (p.name, true)) ++ readings {} us := by
  induction ps with
  | nil => exact ⟨us, by simpa using hrest, rfl⟩
  | cons p ps ih =>
      obtain ⟨hp, hps⟩ := List.forall_mem_cons.1 h
      obtain ⟨ts, hts, hreadings⟩ := ih hps
      obtain ⟨all, hall, hline⟩ := exists_visibleTokens_variableLine hp hts
      refine ⟨all, ?_, ?_⟩
      · rwa [List.map_cons, String.join_cons, String.append_assoc]
      · rw [hline, hreadings]
        rfl

/-- An argument that gets the variable of its own name. -/
def argumentText (p : Parameter) : String :=
  p.name ++ " = " ++ p.name ++ p.direction

/-- An argument of a call: the name, the variable of that name and whether it comes back. -/
def argumentTokens (p : Parameter) : List Token :=
  .word ⟨p.name, none⟩ :: .equals :: .word ⟨p.name, none⟩ ::
    if p.isOutput then [.word ⟨"OUTPUT", none⟩] else []

theorem readings_call_name {w : Word} (hw : w.isVariable = true) (ts : List Token) :
    readings ⟨.call false, 0⟩ (.word w :: .equals :: ts) = readings ⟨.call false, 0⟩ ts := by
  rw [readings_cons, after_variable hw]
  unfold mention?
  dsimp only
  rw [hw]
  exact readings_cons_of_isVariable _ rfl

theorem readings_call_value {w : Word} (hw : w.isVariable = true) (hts : ts.head? ≠ some .equals) :
    readings ⟨.call false, 0⟩ (.word w :: ts) =
      (w.value, false) :: readings ⟨.call false, 0⟩ ts := by
  have hne : (ts.head? == some Token.equals) = false := by simpa using hts
  rw [readings_cons, after_variable hw]
  unfold mention?
  dsimp only
  rw [hw, hne, Bool.and_false]
  rfl

theorem readings_argument (hname : IsRegularVariable p.name)
    (hts : ts.head? ≠ some .equals) : readings ⟨.call false, 0⟩ (argumentTokens p ++ ts) =
      (p.name, false) :: readings ⟨.call false, 0⟩ ts := by
  have hvariable : (Word.mk p.name none).isVariable = true := hname.isVariable none
  unfold argumentTokens
  simp only [List.cons_append]
  rw [readings_call_name hvariable]
  cases p.isOutput with
  | false => exact readings_call_value hvariable hts
  | true =>
      have hafter : (⟨.call false, 0⟩ : State).after (.word ⟨"OUTPUT", none⟩) =
          ⟨.call false, 0⟩ := by
        decide
      rw [if_pos rfl, readings_call_value hvariable (by simp), List.singleton_append,
        readings_cons_of_isVariable _ (by decide), hafter]

theorem visibleTokens_argument (hname : IsRegularVariable p.name) (hend : EndsWord rest.toList)
    (hrest : visibleTokens rest = some us) :
    visibleTokens (argumentText p ++ rest) = some (argumentTokens p ++ us) := by
  have hvalue : visibleTokens (p.direction ++ rest) =
      some ((if p.isOutput then [.word ⟨"OUTPUT", none⟩] else []) ++ us) ∧
        EndsWord (p.direction ++ rest).toList := by
    unfold Parameter.direction
    cases p.isOutput with
    | false => exact ⟨by simpa using hrest, by simpa using hend⟩
    | true =>
        have houtput : ∀ d ∈ "UTPUT".toList, Token.isIdentifierPart d = true :=
          List.all_eq_true.1 (by decide)
        refine ⟨visibleTokens_append " OUTPUT" [.blank, .word ⟨"OUTPUT", none⟩] hrest
          fun us hus => ?_, endsWord_append (by decide) _⟩
        rw [String.toList_append]
        exact .cons rfl (.cons (next_word (by decide) houtput hend) hus)
  have hequals := visibleTokens_append (p.name ++ " = " ++ p.name)
    [.word ⟨p.name, none⟩, .blank, .equals, .blank, .word ⟨p.name, none⟩] hvalue.1 fun us hus => by
    simp only [String.toList_append, List.append_assoc] at hus hvalue ⊢
    exact spells_variable hname (endsWord_cons (by decide)) (.cons rfl (.cons rfl (.cons rfl
      (spells_variable hname hvalue.2 hus))))
  rwa [← String.append_assoc] at hequals

theorem exists_visibleTokens_arguments {ps : List Parameter}
    (hps : ∀ p ∈ ps, IsRegularVariable p.name) :
    ∃ ts, visibleTokens (", ".intercalate (ps.map argumentText)) = some ts ∧
      readings ⟨.call false, 0⟩ ts = ps.map fun p => (p.name, false) := by
  induction ps with
  | nil => exact ⟨[], visibleTokens_empty, rfl⟩
  | cons p ps ih =>
      obtain ⟨hp, hps⟩ := List.forall_mem_cons.1 hps
      obtain ⟨ts, hts, hreadings⟩ := ih hps
      cases ps with
      | nil =>
          have hempty : EndsWord "".toList := endsWord_nil
          have hargument := visibleTokens_argument hp hempty visibleTokens_empty
          refine ⟨argumentTokens p ++ [], ?_, ?_⟩
          · rwa [String.append_empty] at hargument
          · exact readings_argument hp (by simp)
      | cons q ps =>
          have hcomma := visibleTokens_append ", " [.comma, .blank] hts
            fun us hus => by
              rw [String.toList_append]
              exact .cons rfl (.cons rfl hus)
          have hargument := visibleTokens_argument hp (endsWord_append (by decide) _) hcomma
          refine ⟨argumentTokens p ++ (.comma :: ts), ?_, ?_⟩
          · rw [List.map_cons, List.map_cons, String.intercalate_cons_cons, String.append_assoc]
            exact hargument
          · rw [readings_argument hp (by simp), readings_cons_of_isVariable _ rfl]
            change _ :: readings ⟨.call false, 0⟩ ts = _
            rw [hreadings]
            rfl

theorem after_calledName {name : String} (h : LacksSigil name) (atStart : Bool) :
    (Token.word ⟨name, some .bracket⟩).isVariable = false ∧
      (⟨.call atStart, 0⟩ : State).after (.word ⟨name, some .bracket⟩) = ⟨.call false, 0⟩ := by
  have hharmless := isHarmless_delimited h .bracket
  simp only [isHarmless, Bool.and_eq_true, Bool.not_eq_true'] at hharmless
  obtain ⟨⟨⟨⟨hvariable, hdeclare⟩, hexec⟩, hexecute⟩, hstatement⟩ := hharmless
  refine ⟨hvariable, ?_⟩
  cases atStart <;>
    simp [State.after, State.afterWord, State.leaveCallStart, hvariable, hdeclare, hexec,
      hexecute, hstatement]

theorem readings_call {name : QualifiedName} (hschema : LacksSigil name.schema)
    (hname : LacksSigil name.name) (ts : List Token) :
    readings {} (.word ⟨"EXEC", none⟩ :: .word ⟨name.schema, some .bracket⟩ :: .period ::
      .word ⟨name.name, some .bracket⟩ :: ts) = readings ⟨.call false, 0⟩ ts := by
  have hexec : ({} : State).after (.word ⟨"EXEC", none⟩) = ⟨.call true, 0⟩ := by decide
  obtain ⟨hschemaVariable, hschemaAfter⟩ := after_calledName hschema true
  obtain ⟨hnameVariable, hnameAfter⟩ := after_calledName hname false
  rw [readings_cons_of_isVariable _ (by decide), hexec,
    readings_cons_of_isVariable _ hschemaVariable, hschemaAfter,
    readings_cons_of_isVariable _ rfl]
  change readings ⟨.call false, 0⟩ _ = _
  rw [readings_cons_of_isVariable _ hnameVariable, hnameAfter]

/-- What stands behind the name of a called procedure. -/
def argumentsText (ps : List Parameter) : String :=
  if ps.isEmpty then "" else " " ++ ", ".intercalate (ps.map argumentText)

theorem callText_eq {p : Procedure} (h : ∀ q ∈ p.parameters, q.isCursor = false) :
    callText p = "EXEC " ++ p.name.full ++ argumentsText p.parameters := by
  have hall : (p.parameters.filter fun q => !q.isCursor) = p.parameters := by
    apply List.filter_eq_self.2
    intro q hq
    rw [h q hq]
    rfl
  unfold callText argumentsText
  rw [hall]
  dsimp only
  rw [List.isEmpty_map]
  rfl

theorem endsWord_argumentsText (ps : List Parameter) : EndsWord (argumentsText ps).toList := by
  unfold argumentsText
  split
  · exact endsWord_nil
  · exact endsWord_append (by decide) _

theorem exists_visibleTokens_argumentsText {ps : List Parameter}
    (hps : ∀ p ∈ ps, IsRegularVariable p.name) :
    ∃ ts, visibleTokens (argumentsText ps) = some ts ∧
      readings ⟨.call false, 0⟩ ts = ps.map fun p => (p.name, false) := by
  obtain ⟨ts, hts, hreadings⟩ := exists_visibleTokens_arguments hps
  refine ⟨ts, ?_, hreadings⟩
  unfold argumentsText
  split
  · rename_i hempty
    rwa [List.isEmpty_iff.1 hempty] at hts
  · refine visibleTokens_append " " [.blank] hts fun us hus => ?_
    rw [String.toList_append]
    exact .cons rfl hus

/-- A call mentions the parameters and declares none. -/
theorem exists_visibleTokens_callText {p : Procedure} (hschema : LacksSigil p.name.schema)
    (hname : LacksSigil p.name.name) (hps : ∀ q ∈ p.parameters, Declares rule q) :
    ∃ ts, visibleTokens (callText p) = some ts ∧
      readings {} ts = p.parameters.map fun q => (q.name, false) := by
  obtain ⟨ts, hts, hreadings⟩ :=
    exists_visibleTokens_argumentsText fun q hq => (hps q hq).name
  have hend := endsWord_argumentsText p.parameters
  have hcall := visibleTokens_append ("EXEC " ++ p.name.full)
    [.word ⟨"EXEC", none⟩, .blank, .word ⟨p.name.schema, some .bracket⟩, .period,
      .word ⟨p.name.name, some .bracket⟩] hts fun us hus => by
    have hfull := spells_fullName p.name hend hus
    rw [String.toList_append, String.toList_append, List.append_assoc]
    generalize p.name.full.toList ++ (argumentsText p.parameters).toList = cs at hfull ⊢
    exact .cons rfl (.cons rfl hfull)
  rw [callText_eq fun q hq => (hps q hq).notCursor]
  exact ⟨_, hcall, (readings_call hschema hname ts).trans hreadings⟩

end Inference.Command

/-- The parameters of a procedure or script. -/
def ExecutableUnit.parameters : ExecutableUnit → List Parameter
  | procedure p => p.parameters
  | script s => s.parameters
  | tempTable _ => []

/-- A procedure whose name is taken for no variable, or a script without names of temp tables that
has a parameter for each of its undeclared variables. -/
def ExecutableUnit.PassesVariables : ExecutableUnit → Prop
  | procedure p => LacksSigil p.name.schema ∧ LacksSigil p.name.name
  | script s => '#' ∉ s.text.toList ∧ ∃ scanned, scanVariables s.text = some scanned ∧
      ∀ u ∈ scanned.undeclared, ∃ p ∈ s.parameters, p.key = u.key
  | tempTable _ => False

/-- What is put in front of a text that is run. -/
def runSettings : List String :=
  ["", "SET FMTONLY ON;\n", "SET ROWCOUNT 1;\n"]

theorem readings_setting (ts : List Token) (hquiet : ∀ t ∈ ts, t.isQuiet = true)
    (hnone : ∀ t ∈ ts, t.isVariable = false) (us : List Token) :
    readings {} (ts ++ .semicolon :: us) = readings {} us := by
  have hstatement : ∀ depth, readings ⟨.statement, depth⟩ (ts ++ .semicolon :: us) =
      readings {} us := by
    induction ts with
    | nil => exact fun depth => readings_cons_of_isVariable _ rfl
    | cons t ts ih =>
        obtain ⟨ht, hts⟩ := List.forall_mem_cons.1 hquiet
        obtain ⟨htnone, htsnone⟩ := List.forall_mem_cons.1 hnone
        intro depth
        obtain ⟨depth', hafter⟩ := after_of_isQuiet ht depth
        rw [List.cons_append, readings_cons_of_isVariable _ htnone, hafter, ih hts htsnone]
  exact hstatement 0

theorem exists_visibleTokens_setting {setting : String} (hsetting : setting ∈ runSettings)
    (hrest : visibleTokens rest = some us) :
    ∃ ts, visibleTokens (setting ++ rest) = some ts ∧ readings {} ts = readings {} us := by
  simp only [runSettings, List.mem_cons, List.not_mem_nil, or_false] at hsetting
  rcases hsetting with rfl | rfl | rfl
  · exact ⟨us, by rwa [String.empty_append], rfl⟩
  · have happend := visibleTokens_append "SET FMTONLY ON;\n" [.word ⟨"SET", none⟩, .blank,
      .word ⟨"FMTONLY", none⟩, .blank, .word ⟨"ON", none⟩, .semicolon, .blank] hrest
      fun us hus => by
        rw [String.toList_append]
        exact .cons rfl (.cons rfl (.cons rfl (.cons rfl (.cons rfl (.cons rfl (.cons rfl hus))))))
    exact ⟨_, happend, readings_setting [.word ⟨"SET", none⟩, .word ⟨"FMTONLY", none⟩,
      .word ⟨"ON", none⟩] (by decide) (by decide) us⟩
  · have happend := visibleTokens_append "SET ROWCOUNT 1;\n" [.word ⟨"SET", none⟩, .blank,
      .word ⟨"ROWCOUNT", none⟩, .blank, .number "1" false, .semicolon, .blank] hrest
      fun us hus => by
        rw [String.toList_append]
        exact .cons rfl (.cons rfl (.cons rfl (.cons rfl (.cons rfl (.cons rfl (.cons rfl hus))))))
    exact ⟨_, happend, readings_setting [.word ⟨"SET", none⟩, .word ⟨"ROWCOUNT", none⟩,
      .number "1" false] (by decide) (by decide) us⟩

namespace VariableScan

theorem undeclared_summary_eq_nil {ms : List Mention}
    (h : ∀ r ∈ ms.map Mention.reading, ∃ d ∈ ms.map Mention.reading,
      d.2 = true ∧ parameterKey d.1 = parameterKey r.1) : (summary ms).undeclared = [] := by
  apply List.filter_eq_nil_iff.2
  intro u hu hundeclared
  have hname : u.name ∈ (summary ms).references.map (·.name) := List.mem_map_of_mem hu
  rw [map_name_references] at hname
  obtain ⟨r, hr, hru⟩ := List.mem_map.1 ((firstOfEach_sublist _ _).subset hname)
  obtain ⟨d, hd, hdeclared, hkey⟩ := h r hr
  rw [isDeclared_summary_iff.2 ⟨d, hd, hdeclared, hru ▸ hkey⟩] at hundeclared
  cases hundeclared

end VariableScan

/-- The text that a unit runs behind its declarations mentions nothing but its parameters and what
the text itself declares. -/
theorem ExecutableUnit.PassesVariables.exists_readings {unit : ExecutableUnit}
    (h : unit.PassesVariables) {rule : EffectiveRule}
    (hparameters : ∀ p ∈ unit.parameters, Command.Declares rule p) (token : RunToken) :
    ∃ text ts, (Command.ofUnit token rule unit).executable =
        String.join (unit.parameters.map (Command.variableLine rule)) ++ text ∧
      visibleTokens text = some ts ∧ ∀ r ∈ readings {} ts,
        (∃ p ∈ unit.parameters, p.key = parameterKey r.1) ∨
          ∃ d ∈ readings {} ts, d.2 = true ∧ parameterKey d.1 = parameterKey r.1 := by
  have hlines : (unit.parameters.filter fun p => !p.isCursor) = unit.parameters := by
    apply List.filter_eq_self.2
    intro p hp
    rw [(hparameters p hp).notCursor]
    rfl
  cases unit with
  | procedure p =>
      obtain ⟨ts, hts, hreadings⟩ :=
        Command.exists_visibleTokens_callText h.1 h.2 hparameters
      refine ⟨Command.callText p, ts, ?_, hts, fun r hr => .inl ?_⟩
      · change String.join ((p.parameters.filter _).map _) ++ _ = _
        rw [show (p.parameters.filter fun q => !q.isCursor) = p.parameters from hlines]
        rfl
      · rw [hreadings] at hr
        obtain ⟨q, hq, rfl⟩ := List.mem_map.1 hr
        exact ⟨q, hq, rfl⟩
  | script s =>
      obtain ⟨hhash, scanned, hscan, hcovers⟩ := h
      have hglobal : token.globalize s.text = s.text := by
        apply String.toList_inj.1
        rw [RunToken.toList_globalize, insertInNames_of_not_mem hhash]
      obtain ⟨ts, hts⟩ := exists_visibleTokens hscan
      obtain ⟨ms, hms, hreadings⟩ := exists_scanVariables hts
      rw [hscan] at hms
      obtain rfl := Option.some.inj hms
      refine ⟨s.text, ts, ?_, hts, fun r hr => ?_⟩
      · change String.join ((s.parameters.filter _).map _) ++ token.globalize s.text = _
        rw [show (s.parameters.filter fun q => !q.isCursor) = s.parameters from hlines, hglobal]
        rfl
      · rw [← hreadings] at hr ⊢
        cases hdeclared : (summary ms).isDeclared r.1 with
        | true => exact .inr (isDeclared_summary_iff.1 hdeclared)
        | false =>
            obtain ⟨u, hu, hukey⟩ := exists_undeclared_of_reading hr hdeclared
            obtain ⟨p, hp, hpkey⟩ := hcovers u hu
            exact .inl ⟨p, hp, hpkey.trans hukey⟩
  | tempTable t => cases h

/-- In the batch that is run for a unit, with any of the settings in front, a scan finds no
undeclared variable: each parameter is declared, in any number and order, scalar or table, output or
not. -/
theorem undeclared_executable {unit : ExecutableUnit} (hunit : unit.PassesVariables)
    {rule : EffectiveRule} (hparameters : ∀ p ∈ unit.parameters, Command.Declares rule p)
    (token : RunToken) {setting : String} (hsetting : setting ∈ runSettings) :
    ∃ found,
      scanVariables (setting ++ (Command.ofUnit token rule unit).executable) = some found ∧
      found.undeclared = [] := by
  obtain ⟨text, ts, htext, hts, hreadings⟩ := hunit.exists_readings hparameters token
  obtain ⟨lines, hlines, hlineReadings⟩ :=
    Command.exists_visibleTokens_variableLines hparameters hts
  obtain ⟨all, hall, hsettingReadings⟩ := exists_visibleTokens_setting hsetting hlines
  obtain ⟨ms, hscan, hms⟩ := exists_scanVariables hall
  rw [hsettingReadings, hlineReadings] at hms
  refine ⟨summary ms, by rw [htext]; exact hscan, undeclared_summary_eq_nil fun r hr => ?_⟩
  rw [hms] at hr ⊢
  have hparameter : ∀ p ∈ unit.parameters, p.key = parameterKey r.1 →
      ∃ d ∈ (unit.parameters.map fun p => (p.name, true)) ++ readings {} ts,
        d.2 = true ∧ parameterKey d.1 = parameterKey r.1 := fun p hp hkey =>
    ⟨(p.name, true), List.mem_append_left _ (List.mem_map_of_mem hp), rfl, hkey⟩
  rcases List.mem_append.1 hr with hr | hr
  · obtain ⟨p, hp, rfl⟩ := List.mem_map.1 hr
    exact hparameter p hp rfl
  · rcases hreadings r hr with ⟨p, hp, hkey⟩ | ⟨d, hd, hdeclared⟩
    · exact hparameter p hp hkey
    · exact ⟨d, List.mem_append_right _ hd, hdeclared⟩

/-- A procedure that takes a table and gives back a number. -/
def importProcedure : Procedure where
  name := ⟨"dbo", "Import"⟩
  objectId := 7
  definition := ""
  parameters := [
    { name := "@rows", position := 1, type := .table ⟨301, ⟨"dbo", "Tags"⟩, []⟩ },
    { name := "@sum_2", position := 2, type := .scalar ⟨"decimal", .decimal, "0"⟩,
      precision := 10, scale := 2, isOutput := true }]

/-- The call gets a table and gives back a number. -/
theorem importProcedure_undeclared : ∃ found,
    scanVariables ("SET FMTONLY ON;\nDECLARE @rows [dbo].[Tags];\n" ++
      "DECLARE @sum_2 decimal(10,2) = 0;\n" ++
      "EXEC [dbo].[Import] @rows = @rows, @sum_2 = @sum_2 OUTPUT") = some found ∧
    found.undeclared = [] := by
  have htext : "SET FMTONLY ON;\nDECLARE @rows [dbo].[Tags];\n" ++
      "DECLARE @sum_2 decimal(10,2) = 0;\n" ++
      "EXEC [dbo].[Import] @rows = @rows, @sum_2 = @sum_2 OUTPUT" =
        "SET FMTONLY ON;\n" ++
          (Command.ofUnit (.ofText "run") {} (.procedure importProcedure)).executable := by
    decide +kernel
  have hnames : (ExecutableUnit.procedure importProcedure).PassesVariables :=
    ⟨by decide, by decide⟩
  rw [htext]
  refine undeclared_executable hnames ?_ (.ofText "run") (by decide)
  refine List.forall_mem_cons.2 ⟨⟨?_, rfl, ?_, nofun⟩,
    List.forall_mem_singleton.2 ⟨?_, rfl, nofun, ?_⟩⟩
  · exact isRegularVariable_of_isAlphanum (c := 'r') rfl (List.all_eq_true.1 (by decide))
  · rintro t ⟨⟩
    exact ⟨by decide, by decide⟩
  · exact isRegularVariable_of_isAlphanum (c := 's') rfl (List.all_eq_true.1 (by decide))
  · rintro t ⟨⟩
    exact ⟨by decide, by decide⟩

end QueryShape
