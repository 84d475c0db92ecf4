import QueryShape.Proofs.GeneratedText.Executable
import QueryShape.Proofs.Variables.Placeholder
import QueryShape.Proofs.WrittenBack.Tokens

/-!
The lines that declare pinned variables, as they are read: exactly when a line declares its variable
from the placeholder, and what the lines of several variables read as in front of a script.
-/

namespace QueryShape

open QueryShape.Identifier
open QueryShape.Inference
open QueryShape.TempTable
open QueryShape.VariableScan

/-- The text of a type as it is written into a declaration. -/
def Inference.PinnedType.text : PinnedType → String
  | .scalar declaration => declaration
  | .table type => type.name.full

variable {name text : String} {c d : Char} {cs ds rest tail : List Char} {ts us : List Token}

/-- The text ends inside a line comment, which takes in what is written behind it in the line. -/
def EndsInComment (text : String) : Prop :=
  tokens (text ++ " =\n") = tokens text

instance (text : String) : Decidable (EndsInComment text) :=
  inferInstanceAs (Decidable (_ = _))

theorem spells_of_endsInComment (hts : tokens text = some ts) (h : EndsInComment text)
    {line : List Char} (hline : '\n' ∉ line) (hrest : Spells rest us) :
    Spells (text.toList ++ ' ' :: (line ++ '\n' :: rest)) (ts ++ us) := by
  rcases (tokens_eq_some_iff.1 hts).append_blank with hclosed | hopen
  · have hequals : Spells [' ', '=', '\n'] [.blank, .equals, .blank] :=
      .cons rfl (.cons rfl (.cons rfl .nil))
    have hlonger : tokens (text ++ " =\n") = some (ts ++ [.blank, .equals, .blank]) := by
      rw [tokens_eq_some_iff, String.toList_append]
      exact hclosed _ _ hequals
    have hsame := Option.some.inj (hlonger.symm.trans (h.trans hts))
    simp at hsame
  · exact hopen line rest us hline hrest

theorem spells_of_not_endsInComment (hts : tokens text = some ts) (h : ¬ EndsInComment text)
    (hrest : Spells (' ' :: rest) us) : Spells (text.toList ++ ' ' :: rest) (ts ++ us) := by
  rcases (tokens_eq_some_iff.1 hts).append_blank with hclosed | hopen
  · exact hclosed rest us hrest
  · refine absurd ?_ h
    have hsame := hopen ['='] [] [] (by decide) .nil
    rw [List.append_nil] at hsame
    rw [EndsInComment, hts, tokens_eq_some_iff, String.toList_append]
    exact hsame

theorem newline_not_mem_of_isRegularVariable (h : IsRegularVariable name) :
    '\n' ∉ name.toList := by
  obtain ⟨c, cs, hname, -, hparts⟩ := h
  rw [hname]
  intro hmem
  rcases List.mem_cons.1 hmem with hat | hmem
  · cases hat
  · exact absurd (hparts '\n' hmem) (by decide)

theorem spells_declared (hname : IsRegularVariable name) (h : Spells cs us) :
    Spells ("DECLARE ".toList ++ (name.toList ++ ' ' :: cs))
      (.word ⟨"DECLARE", none⟩ :: .blank :: .word ⟨name, none⟩ :: .blank :: us) := by
  have hvariable := spells_variable hname (endsWord_cons (by decide)) (.cons (c := ' ') rfl h)
  exact .cons rfl (.cons rfl hvariable)

theorem spells_assigned (hname : IsRegularVariable name) (h : Spells cs us) :
    Spells (' ' :: ("= ".toList ++ (name.toList ++ (";\n".toList ++ cs))))
      (.blank :: .equals :: .blank :: .word ⟨name, none⟩ :: .semicolon :: .blank :: us) := by
  have hend : Spells (';' :: '\n' :: cs) (.semicolon :: .blank :: us) := .cons rfl (.cons rfl h)
  have hvariable := spells_variable hname (endsWord_cons (by decide)) hend
  exact .cons rfl (.cons rfl (.cons rfl hvariable))

theorem isIdentifierPart_of_next {w : Word} (h : Token.next c rest = some (.word w, tail))
    (hdelimiter : w.delimiter = none) (hvalue : w.value.toList = '@' :: d :: ds) (hd : d ≠ '@') :
    ∀ e ∈ ds, Token.isIdentifierPart e = true := by
  obtain ⟨value, delimiter⟩ := w
  obtain rfl : delimiter = none := hdelimiter
  obtain ⟨hvisible, -⟩ := Token.visible_of_next h nofun
  obtain hrespelled | hspelled := Token.eq_of_visible hvisible
  · cases hrespelled
  have htext : (Token.word ⟨value, none⟩).text = value := rfl
  rw [htext, show value.toList = _ from hvalue, List.cons_append, List.cons_append] at hspelled
  obtain ⟨rfl, rfl⟩ := List.cons.inj hspelled
  change some (Token.atAt (d :: (ds ++ tail))) = _ at h
  have hread := Option.some.inj h
  by_cases hgreater : d = '>'
  · subst hgreater
    cases hread
  by_cases hquestion : d = '?'
  · subst hquestion
    cases hread
  rw [atAt_of_word hgreater hquestion hd] at hread
  split at hread
  · cases hread
  · obtain ⟨hword, -⟩ := Prod.mk.inj hread
    have hlist := congrArg (fun t : Token => t.text.toList) hword
    change (String.ofList _).toList = value.toList at hlist
    rw [String.toList_ofList, show value.toList = _ from hvalue] at hlist
    obtain ⟨-, hparts⟩ := List.cons.inj (List.cons.inj hlist).2
    intro e he
    rw [← hparts] at he
    exact List.mem_takeWhile_imp he

namespace Inference.PinnedVariable

variable {t : RunToken} {v : PinnedVariable} {vs : List PinnedVariable}

/-- The visible tokens of the type that a variable is pinned to. -/
def typeTokens (v : PinnedVariable) : List Token :=
  (v.pin.bind fun p => visibleTokens p.text).getD []

/-- The text of the type is read on its own and begins nothing. -/
def hasInertType (v : PinnedVariable) : Bool :=
  v.pin.all fun p => (visibleTokens p.text).any (isInert 0)

theorem isInert_typeTokens (h : v.hasInertType = true) : isInert 0 v.typeTokens = true := by
  unfold hasInertType at h
  unfold typeTokens
  cases hpin : v.pin with
  | none => rfl
  | some p =>
      rw [hpin, Option.all_some] at h
      rw [Option.bind_some]
      cases htokens : visibleTokens p.text with
      | none =>
          rw [htokens] at h
          cases h
      | some ts =>
          rw [htokens, Option.any_some] at h
          exact h

theorem exists_tokens_of_hasInertType {p : PinnedType} (h : v.hasInertType = true)
    (hpin : v.pin = some p) :
    ∃ ts, tokens p.text = some ts ∧ v.typeTokens = ts.filter isVisible := by
  unfold hasInertType at h
  rw [hpin, Option.all_some, Option.any_eq_true] at h
  obtain ⟨visible, hvisible, -⟩ := h
  obtain ⟨ts, hts, rfl⟩ := Option.map_eq_some_iff.1 hvisible
  refine ⟨ts, hts, ?_⟩
  rw [typeTokens, hpin, Option.bind_some, hvisible]
  rfl

/-- The line of a pinned variable is read as it is meant: the name is one word, and no comment takes
in the placeholder. A variable that is not pinned has no line. -/
structure IsReadAsMeant (v : PinnedVariable) : Prop where
  name : v.pin.isSome → IsRegularVariable v.use.name
  type : ∀ d, v.pin = some (.scalar d) → ¬ EndsInComment d

theorem isReadAsMeant_iff : v.IsReadAsMeant ↔
    (v.pin.isSome → IsRegularVariable v.use.name) ∧
      v.pin.all (fun | .scalar d => !decide (EndsInComment d) | .table _ => true) = true := by
  constructor
  · rintro ⟨hname, htype⟩
    refine ⟨hname, ?_⟩
    rcases hpin : v.pin with _ | d | type
    · rfl
    · simpa using htype d hpin
    · rfl
  · rintro ⟨hname, htype⟩
    refine ⟨hname, fun d hpin => ?_⟩
    simpa [hpin] using htype

instance (v : PinnedVariable) : Decidable v.IsReadAsMeant :=
  decidable_of_iff _ isReadAsMeant_iff.symm

theorem isRegularVariable_placeholder (hplain : t.IsPlain) (h : IsRegularVariable v.use.name) :
    IsRegularVariable (v.placeholder t.placeholderStem) := by
  obtain ⟨c, cs, hname, hc, hparts⟩ := h
  have hbare : v.bareName.toList = c :: cs := by
    have hlist := name_toList ⟨c, cs, hname, hc⟩
    rw [hname] at hlist
    exact (List.cons.inj hlist).2.symm
  have hlist := placeholder_toList t v
  obtain ⟨e, es, hfront⟩ := List.exists_cons_of_ne_nil t.placeholderFront_ne_nil
  rw [hbare, hfront] at hlist
  refine ⟨e, es ++ c :: cs, hlist, ?_, ?_⟩
  · exact (hplain.ne_of_mem_placeholderFront (hfront ▸ List.mem_cons_self)).1
  · rw [← List.cons_append, ← hfront, List.forall_mem_append]
    exact ⟨fun d hd => isIdentifierPart_of_isAlphanum (hplain.of_mem_placeholderFront hd), hparts⟩

theorem declaration_of_pin_eq_none {stem : String} (hpin : v.pin = none) :
    v.declaration stem = "" := by
  rw [declaration, hpin]

theorem spells_tableDeclaration {stem : String} {type : TableType}
    (hname : IsRegularVariable v.use.name) (hpin : v.pin = some (.table type))
    (h : Spells cs us) :
    Spells ((v.declaration stem).toList ++ cs)
      ([.word ⟨"DECLARE", none⟩, .blank, .word ⟨v.use.name, none⟩, .blank,
        .word ⟨type.name.schema, some .bracket⟩, .period, .word ⟨type.name.name, some .bracket⟩,
        .semicolon, .blank] ++ us) := by
  have hend : Spells (';' :: '\n' :: cs) (.semicolon :: .blank :: us) := .cons rfl (.cons rfl h)
  have hline := spells_declared hname (spells_fullName type.name (endsWord_cons (by decide)) hend)
  rw [declaration, hpin]
  simpa using hline

/-- What each line reads as in front of anything gives what the lines of several variables do. -/
theorem exists_spells_lines {stem : String} {P : List PinnedVariable → List Token → Prop}
    (hnil : P [] [])
    (happend : ∀ {v vs ts us}, P [v] ts → P vs us → P (v :: vs) (ts ++ us))
    (hline : ∀ v ∈ vs, ∀ {cs us}, Spells cs us → ∃ ls,
      Spells ((v.declaration stem).toList ++ cs) (ls ++ us) ∧ P [v] (ls.filter isVisible))
    (h : Spells cs us) :
    ∃ ls, Spells ((String.join (vs.map (·.declaration stem))).toList ++ cs) (ls ++ us) ∧
      P vs (ls.filter isVisible) := by
  induction vs with
  | nil => exact ⟨[], by simpa using h, hnil⟩
  | cons v vs ih =>
      obtain ⟨hfirst, hothers⟩ := List.forall_mem_cons.1 hline
      obtain ⟨others, hspells, hP⟩ := ih hothers
      obtain ⟨first, hspells', hP'⟩ := hfirst hspells
      refine ⟨first ++ others, ?_, ?_⟩
      · rw [List.map_cons, String.join_cons, String.toList_append, List.append_assoc,
          List.append_assoc]
        exact hspells'
      · rw [List.filter_append]
        exact happend hP' hP

theorem exists_spells_declaration (hplain : t.IsPlain) (htype : v.hasInertType = true)
    (hreads : v.IsReadAsMeant) (h : Spells cs us) :
    ∃ ls, Spells ((v.declaration t.placeholderStem).toList ++ cs) (ls ++ us) ∧
      ls.filter isVisible = declarationTokens t.placeholderStem v.typeTokens v := by
  unfold declarationTokens
  rcases hpin : v.pin with _ | d | type
  · exact ⟨[], by rwa [declaration_of_pin_eq_none hpin], rfl⟩
  · have hname := hreads.name (by rw [hpin]; rfl)
    obtain ⟨ts, hts, htokens⟩ := exists_tokens_of_hasInertType htype hpin
    have hassigned := spells_assigned (isRegularVariable_placeholder hplain hname) h
    have hscalar := spells_of_not_endsInComment hts (hreads.type d hpin) hassigned
    have hline := spells_declared hname hscalar
    refine ⟨.word ⟨"DECLARE", none⟩ :: .blank :: .word ⟨v.use.name, none⟩ :: .blank ::
      (ts ++ [.blank, .equals, .blank, .word ⟨v.placeholder t.placeholderStem, none⟩, .semicolon,
        .blank]), ?_, ?_⟩
    · simpa [declaration, hpin, placeholder, PinnedType.text] using hline
    · rw [htokens]
      simp [isVisible, Token.isBlank]
  · have hname := hreads.name (by rw [hpin]; rfl)
    refine ⟨_, spells_tableDeclaration hname hpin h, ?_⟩
    obtain ⟨ts, hts, htokens⟩ := exists_tokens_of_hasInertType htype hpin
    obtain rfl := Option.some.inj ((tokens_fullName type.name).symm.trans hts)
    rw [htokens]
    rfl

theorem exists_spells_declarations (hplain : t.IsPlain)
    (htypes : ∀ v ∈ vs, v.hasInertType = true) (hreads : ∀ v ∈ vs, v.IsReadAsMeant)
    (h : Spells cs us) :
    ∃ ls, Spells ((String.join (vs.map (·.declaration t.placeholderStem))).toList ++ cs)
        (ls ++ us) ∧
      ls.filter isVisible =
        vs.flatMap fun v => declarationTokens t.placeholderStem v.typeTokens v := by
  refine exists_spells_lines
    (P := fun vs ts => ts = vs.flatMap fun v => declarationTokens t.placeholderStem v.typeTokens v)
    rfl ?_ ?_ h
  · rintro v vs _ _ rfl rfl
    simp only [List.flatMap_cons, List.flatMap_nil, List.append_nil]
  · intro v hv cs us h
    obtain ⟨ls, hls, hvisible⟩ := exists_spells_declaration hplain (htypes v hv) (hreads v hv) h
    exact ⟨ls, hls, hvisible.trans (List.flatMap_singleton _ _).symm⟩

/-- The tokens of the lines and the script are those of the lines and those of the script. -/
theorem visibleTokens_parameterBatch {script : Script} (hplain : t.IsPlain)
    (htypes : ∀ v ∈ vs, v.hasInertType = true) (hreads : ∀ v ∈ vs, v.IsReadAsMeant)
    (hts : visibleTokens script.text = some ts) :
    visibleTokens (parameterBatch t.placeholderStem vs script) =
      some (vs.flatMap (fun v => declarationTokens t.placeholderStem v.typeTokens v) ++ ts) := by
  obtain ⟨us, hus, rfl⟩ := Option.map_eq_some_iff.1 hts
  obtain ⟨ls, hls, hvisible⟩ :=
    exists_spells_declarations hplain htypes hreads (tokens_eq_some_iff.1 hus)
  rw [← String.toList_append] at hls
  rw [visibleTokens, parameterBatch, tokens_eq_some_iff.2 hls, Option.map_some,
    List.filter_append, ← hvisible]
  rfl

theorem isRegularVariable_of_visibleTokens {type : String} (hplain : t.IsPlain)
    (hname : IsVariableName v.use.name) (hpin : v.pin = some (.scalar type))
    (h : visibleTokens (v.declaration t.placeholderStem) =
      some (declarationTokens t.placeholderStem v.typeTokens v)) :
    IsRegularVariable v.use.name := by
  obtain ⟨ls, hls, hvisible⟩ := Option.map_eq_some_iff.1 h
  have hmem : Token.word ⟨v.placeholder t.placeholderStem, none⟩ ∈
      ls.filter fun t => !t.isBlank := by
    rw [hvisible, declarationTokens, hpin]
    simp
  obtain ⟨c, rest, tail, hnext⟩ :=
    Token.exists_next_of_mem (tokens_eq_some_iff.1 hls) _ (List.mem_filter.1 hmem).1
  have hlist := placeholder_toList t v
  obtain ⟨e, es, hfront⟩ := List.exists_cons_of_ne_nil t.placeholderFront_ne_nil
  rw [hfront, List.cons_append] at hlist
  have he := (hplain.ne_of_mem_placeholderFront (hfront ▸ List.mem_cons_self)).1
  have hparts := isIdentifierPart_of_next hnext rfl hlist he
  obtain ⟨d, ds, hd, hne⟩ := hname
  have hbare := name_toList ⟨d, ds, hd, hne⟩
  rw [hd] at hbare
  refine ⟨d, ds, hd, hne, fun x hx => hparts x (List.mem_append_right _ ?_)⟩
  rwa [← (List.cons.inj hbare).2]

/-- The line of a variable that is pinned to a scalar type declares the variable from the
placeholder exactly if it is read as it is meant. -/
theorem visibleTokens_declaration_iff {type : String} (hplain : t.IsPlain)
    (hname : IsVariableName v.use.name) (hpin : v.pin = some (.scalar type))
    (htype : v.hasInertType = true) :
    visibleTokens (v.declaration t.placeholderStem) =
        some (declarationTokens t.placeholderStem v.typeTokens v) ↔ v.IsReadAsMeant := by
  constructor
  · intro h
    have hregular := isRegularVariable_of_visibleTokens hplain hname hpin h
    refine ⟨fun _ => hregular, fun type' hpin' hopen => ?_⟩
    obtain rfl : type = type' := PinnedType.scalar.inj (Option.some.inj (hpin.symm.trans hpin'))
    obtain ⟨ts, hts, htokens⟩ := exists_tokens_of_hasInertType htype hpin
    -- A comment at the end of the type takes in the rest of the line.
    have hnewline := newline_not_mem_of_isRegularVariable
      (isRegularVariable_placeholder hplain hregular)
    have hline : '\n' ∉ "= ".toList ++ ((v.placeholder t.placeholderStem).toList ++ [';']) := by
      simp [hnewline]
    have hspells := spells_declared hregular (spells_of_endsInComment hts hopen hline .nil)
    rw [List.append_nil] at hspells
    have hread : tokens (v.declaration t.placeholderStem) =
        some (.word ⟨"DECLARE", none⟩ :: .blank :: .word ⟨v.use.name, none⟩ :: .blank :: ts) := by
      rw [tokens_eq_some_iff, declaration, hpin]
      simpa [placeholder, PinnedType.text] using hspells
    have hvisible : visibleTokens (v.declaration t.placeholderStem) =
        some (.word ⟨"DECLARE", none⟩ :: .word ⟨v.use.name, none⟩ :: ts.filter isVisible) := by
      rw [visibleTokens, hread]
      rfl
    rw [hvisible, declarationTokens, hpin, htokens] at h
    have hlength := congrArg List.length (Option.some.inj h)
    simp at hlength
  · intro h
    obtain ⟨ls, hls, hvisible⟩ := exists_spells_declaration hplain htype h .nil
    rw [List.append_nil, List.append_nil] at hls
    rw [visibleTokens, tokens_eq_some_iff.2 hls, ← hvisible]
    rfl

end Inference.PinnedVariable

end QueryShape
