import QueryShape.Proofs.DefaultText
import QueryShape.Proofs.WrittenBack.Tokens

namespace QueryShape

namespace Token

open QueryShape.TempTable

variable {c : Char} {cs tail rest : List Char} {t : Token} {ts : List Token}

/-- A text starts with tokens that are spelled as they are written back. Blanks and comments may be
spelled in any way. -/
inductive SpelledOut : List Char → List Token → List Char → Prop
  | nil (rest : List Char) : SpelledOut rest [] rest
  | blank {c : Char} {cs tail rest : List Char} {ts : List Token}
      (h : next c cs = some (.blank, tail)) (hts : SpelledOut tail ts rest) :
      SpelledOut (c :: cs) (.blank :: ts) rest
  | visible {c : Char} {cs tail rest : List Char} {t : Token} {ts : List Token}
      (h : next c cs = some (t, tail)) (ht : t ≠ .blank) (heq : c :: cs = t.text.toList ++ tail)
      (hts : SpelledOut tail ts rest) : SpelledOut (c :: cs) (t :: ts) rest

/-- Tokens other than blanks. -/
def visibleOnes (ts : List Token) : List Token :=
  ts.filter fun t => !t.isBlank

/-- The text in front of the first blank. -/
def unbroken (ts : List Token) : List Char :=
  (ts.takeWhile fun t => !t.isBlank).flatMap fun t => t.text.toList

theorem isBlank_eq_false (ht : t ≠ .blank) : t.isBlank = false := by
  rw [← Bool.not_eq_true, ProcedureHeader.isBlank_iff]
  exact ht

theorem unbroken_cons (ht : t ≠ .blank) (ts : List Token) :
    unbroken (t :: ts) = t.text.toList ++ unbroken ts := by
  rw [unbroken, List.takeWhile_cons_of_pos (by simp [isBlank_eq_false ht]), List.flatMap_cons]
  rfl

theorem SpelledOut.unbroken_prefix (h : SpelledOut cs ts rest) : unbroken ts <+: cs := by
  induction h with
  | nil rest => exact List.nil_prefix
  | blank => exact List.nil_prefix
  | visible hnext ht heq hts ih =>
      rw [unbroken_cons ht, heq]
      exact (List.prefix_append_right_inj _).2 ih

theorem written_eq_unbroken (ts : List Token) :
    written ts = unbroken ts ∨ ∃ more, written ts = unbroken ts ++ ' ' :: more := by
  induction ts with
  | nil => exact .inl rfl
  | cons t ts ih =>
      by_cases ht : t = .blank
      · subst ht
        cases ts with
        | nil => exact .inl rfl
        | cons u ts =>
            by_cases hu : u = .blank
            · subst hu
              rw [ProcedureHeader.written_blank_blank]
              exact ih
            · rw [ProcedureHeader.written_blank_cons (isBlank_eq_false hu)]
              exact .inr ⟨_, rfl⟩
      · rw [ProcedureHeader.written_cons_of_not_isBlank (isBlank_eq_false ht), unbroken_cons ht]
        refine ih.imp (congrArg _) ?_
        rintro ⟨more, hmore⟩
        exact ⟨more, by rw [hmore, List.append_assoc]⟩

theorem next_written (h : next c (cs ++ tail) = some (t, tail)) (ht : t ≠ .blank)
    (hts : unbroken ts <+: tail) : next c (cs ++ written ts) = some (t, written ts) := by
  obtain ⟨behind, rfl⟩ := hts
  rw [← List.append_assoc] at h
  have hcut := next_of_append h ht
  rcases written_eq_unbroken ts with hwritten | ⟨more, hwritten⟩
  · rw [hwritten]
    exact hcut
  · have hclosed : ¬ OpensComment c (cs ++ unbroken ts) := fun hopen =>
      (visible_of_next hcut ht).2.2.1 ⟨hopen.1, hopen.2.1⟩
    rw [hwritten, ← List.append_assoc]
    exact next_append_blank hcut hclosed more

/-- The tokens of a text that is written from tokens are those, but for the blanks. -/
theorem SpelledOut.spells_written (h : SpelledOut cs ts rest) :
    ∃ us, Spells (written ts) us ∧ visibleOnes us = visibleOnes ts := by
  induction h with
  | nil rest => exact ⟨[], .nil, rfl⟩
  | @blank c cs tail rest ts hnext hts ih =>
      obtain ⟨us, hus, hvisible⟩ := ih
      rw [written]
      split
      · exact ⟨us, hus, hvisible⟩
      · exact ⟨.blank :: us, .cons rfl hus, hvisible⟩
  | @visible c cs tail rest t ts hnext ht heq hts ih =>
      obtain ⟨us, hus, hvisible⟩ := ih
      obtain ⟨front, htext, rfl⟩ := exists_text_eq_cons hnext heq
      refine ⟨t :: us, ?_, ?_⟩
      · rw [ProcedureHeader.written_cons_of_not_isBlank (isBlank_eq_false ht), htext]
        exact .cons (next_written hnext ht hts.unbroken_prefix) hus
      · simp only [visibleOnes, List.filter_cons, isBlank_eq_false ht] at hvisible ⊢
        rw [hvisible]

theorem SpelledOut.dropBlanks (h : SpelledOut cs ts rest) :
    ∃ cs', SpelledOut cs' (ts.dropWhile isBlank) rest := by
  induction h with
  | nil rest => exact ⟨_, .nil rest⟩
  | blank hnext hts ih => exact ih
  | visible hnext ht heq hts ih =>
      rw [List.dropWhile_cons_of_neg (by simp [isBlank_eq_false ht])]
      exact ⟨_, .visible hnext ht heq hts⟩

theorem visibleOnes_dropBlanks (ts : List Token) :
    visibleOnes (ts.dropWhile isBlank) = visibleOnes ts := by
  induction ts with
  | nil => rfl
  | cons t ts ih =>
      cases ht : t.isBlank with
      | true => rw [List.dropWhile_cons_of_pos ht, ih, visibleOnes, visibleOnes,
          List.filter_cons_of_neg (by simp [ht])]
      | false => rw [List.dropWhile_cons_of_neg (by simp [ht])]

theorem written_of_visibleOnes_nil (h : visibleOnes ts = []) : written ts = [] := by
  have hblank : ∀ u ∈ ts, u.isBlank = true := by
    simpa [visibleOnes] using h
  induction ts with
  | nil => rfl
  | cons t ts ih =>
      obtain ⟨ht, hrest⟩ := List.forall_mem_cons.1 hblank
      have hnext : ts.head?.all isBlank = true := by
        cases ts with
        | nil => rfl
        | cons u ts => exact hrest u List.mem_cons_self
      rw [written, if_pos (by simp [ht, hnext])]
      exact ih (by simpa [visibleOnes] using hrest) hrest

theorem written_of_visibleOnes_singleton (h : visibleOnes ts = [t]) :
    written (ts.dropWhile isBlank) = t.text.toList := by
  induction ts with
  | nil => cases h
  | cons u ts ih =>
      cases hu : u.isBlank with
      | true =>
          rw [visibleOnes, List.filter_cons_of_neg (by simp [hu])] at h
          rw [List.dropWhile_cons_of_pos hu]
          exact ih h
      | false =>
          rw [visibleOnes, List.filter_cons_of_pos (by simp [hu])] at h
          obtain ⟨rfl, hnone⟩ := List.cons.inj h
          rw [List.dropWhile_cons_of_neg (by simp [hu]),
            ProcedureHeader.written_cons_of_not_isBlank hu, written_of_visibleOnes_nil hnone,
            List.append_nil]

end Token

namespace ProcedureHeader

open QueryShape.Token

variable {p : HeaderParameter} {ts rest after : List Token}

theorem afterBlanks_suffix (ts : List Token) : afterBlanks ts <:+ ts :=
  List.dropWhile_suffix _

theorem take?_suffix {q : Token → Bool} (h : take? q ts = some rest) : rest <:+ ts := by
  cases ts with
  | nil => cases h
  | cons t ts =>
      simp only [take?, Option.ite_none_right_eq_some, Option.some.injEq] at h
      exact (h.2 ▸ afterBlanks_suffix ts).trans (List.suffix_cons t ts)

theorem getD_take?_suffix (q : Token → Bool) (ts : List Token) : (take? q ts).getD ts <:+ ts := by
  cases h : take? q ts with
  | none => exact List.suffix_rfl
  | some rest => exact take?_suffix h

theorem upToClose_suffix (depth : Nat) (ts : List Token) : (upToClose depth ts).2 <:+ ts := by
  induction ts generalizing depth with
  | nil => exact List.suffix_rfl
  | cons t ts ih =>
      simp only [upToClose]
      split
      · exact List.suffix_cons t ts
      · exact (ih _).trans (List.suffix_cons t ts)

theorem typePart?_suffix {s : String} (h : typePart? ts = some (s, rest)) : rest <:+ ts := by
  unfold typePart? at h
  split at h
  · split at h
    · cases h
    · cases h
      exact List.suffix_cons _ _
  · cases h

theorem typeName?_suffix {s : String} (h : typeName? ts = some (s, rest)) : rest <:+ ts := by
  unfold typeName? at h
  split at h
  · cases h
  rename_i first behind hfirst
  have hbehind := (afterBlanks_suffix behind).trans (typePart?_suffix hfirst)
  split at h
  · cases h
    exact hbehind
  rename_i afterDot hdot
  have hdot := (take?_suffix hdot).trans hbehind
  split at h
  · cases h
    exact hdot
  · rename_i hsecond
    cases h
    exact (typePart?_suffix hsecond).trans hdot

theorem dataType?_suffix {s : String} (h : dataType? ts = some (s, rest)) : rest <:+ ts := by
  unfold dataType? at h
  split at h
  · cases h
  rename_i name behind hname
  have hbehind := (afterBlanks_suffix behind).trans (typeName?_suffix hname)
  split at h
  · rename_i inside hinside
    cases h
    rw [hinside] at hbehind
    exact (upToClose_suffix 0 inside).trans ((List.suffix_cons _ _).trans hbehind)
  · cases h
    exact hbehind

theorem defaultTokens_append (depth : Nat) (ts : List Token) :
    (defaultTokens depth ts).1 ++ (defaultTokens depth ts).2 = ts := by
  induction ts generalizing depth with
  | nil => rfl
  | cons t ts ih =>
      simp only [defaultTokens]
      split
      · rfl
      · rw [List.cons_append, ih]

/-- A default value is the text of tokens that stand together. -/
def TakesDefaultFrom (ts : List Token) (p : HeaderParameter) : Prop :=
  ∀ d, p.default? = some d → ∃ us, us <:+: ts ∧ d = defaultText us

theorem takesDefaultFrom_clauses {all : List Token} (hts : ts <:+ all)
    (h : TakesDefaultFrom all p) :
    (clauses p ts).2 <:+ all ∧ TakesDefaultFrom all (clauses p ts).1 := by
  fun_induction clauses p ts with
  | case1 p ts rest htake ih =>
      have hrest := (take?_suffix htake).trans hts
      have happend := defaultTokens_append 0 rest
      refine ih ((afterBlanks_suffix _).trans (.trans ⟨_, happend⟩ hrest)) ?_
      rintro d ⟨⟩
      exact ⟨_, List.IsInfix.trans ⟨[], _, happend⟩ hrest.isInfix, rfl⟩
  | case2 p ts _ rest htake ih => exact ih ((take?_suffix htake).trans hts) h
  | case3 p ts _ _ rest htake ih => exact ih ((take?_suffix htake).trans hts) h
  | case4 p ts _ _ _ rest htake ih => exact ih ((take?_suffix htake).trans hts) h
  | case5 => exact ⟨hts, h⟩

theorem takesDefaultFrom_parameter {all : List Token} (t : Token) (hrest : rest <:+ all) :
    (parameter t rest).2 <:+ all ∧ ∀ p ∈ (parameter t rest).1, TakesDefaultFrom all p := by
  unfold parameter
  split
  · exact ⟨hrest, nofun⟩
  rename_i name hname
  have hblanks := (afterBlanks_suffix rest).trans hrest
  have hbody := (getD_take?_suffix (·.isKeyword "AS") _).trans hblanks
  dsimp only
  split
  · exact ⟨(List.drop_suffix _ _).trans hbody, nofun⟩
  · rename_i dataType behind htype
    have hbehind := (afterBlanks_suffix behind).trans ((dataType?_suffix htype).trans hbody)
    have hnone : TakesDefaultFrom all { name, dataType } := fun d hd => by cases hd
    obtain ⟨hafter, hclauses⟩ := takesDefaultFrom_clauses hbehind hnone
    refine ⟨hafter, ?_⟩
    rintro p ⟨⟩
    exact hclauses

theorem takesDefaultFrom_parametersFrom {all : List Token} (parenthesized : Bool)
    (hts : ts <:+ all) : ∀ p ∈ parametersFrom parenthesized ts, TakesDefaultFrom all p := by
  fun_induction parametersFrom parenthesized ts with
  | case1 => exact List.forall_mem_nil _
  | case2 => exact List.forall_mem_nil _
  | case3 t rest _ ih =>
      obtain ⟨hbehind, hfirst⟩ :=
        takesDefaultFrom_parameter t ((List.suffix_cons t rest).trans hts)
      rintro p hp
      rcases List.mem_append.1 hp with hp | hp
      · exact hfirst p (Option.mem_toList.1 hp)
      · refine ih ?_ p hp
        exact (getD_take?_suffix (· == .comma) _).trans ((afterBlanks_suffix _).trans hbehind)

theorem takesDefaultFrom_parameterList {all : List Token} (hts : ts <:+ all) :
    ∀ p ∈ parameterList ts, TakesDefaultFrom all p := by
  unfold parameterList
  split
  · rename_i rest hopen
    exact takesDefaultFrom_parametersFrom true ((take?_suffix hopen).trans hts)
  · exact takesDefaultFrom_parametersFrom false hts

theorem objectName?_suffix {name : QualifiedName} (h : objectName? ts = some (name, rest)) :
    rest <:+ ts := by
  unfold objectName? at h
  split at h
  · rename_i first behind
    split at h
    · cases h
      exact List.suffix_cons _ _
    · rename_i second behind' hdot
      cases h
      exact (List.suffix_cons _ _).trans ((take?_suffix hdot).trans
        ((afterBlanks_suffix behind).trans (List.suffix_cons _ _)))
    · cases h
  · cases h

theorem afterVerb?_suffix (h : afterVerb? ts = some rest) : rest <:+ ts := by
  unfold afterVerb? at h
  split at h
  · exact take?_suffix h
  · rename_i behind hcreate
    split at h
    · cases h
      exact take?_suffix hcreate
    · rename_i behind' hor
      exact (take?_suffix h).trans ((take?_suffix hor).trans (take?_suffix hcreate))

theorem takesDefaultFrom_of_ofTokens? {header : ProcedureHeader}
    (h : ofTokens? ts = some header) : ∀ p ∈ header.parameters, TakesDefaultFrom ts p := by
  simp only [ofTokens?, Option.bind_eq_bind, Option.bind_eq_some_iff, Option.pure_def,
    Option.some.injEq, Prod.exists] at h
  obtain ⟨behindVerb, hverb, behindKind, hkind, name, behindName, hname, rfl⟩ := h
  apply takesDefaultFrom_parameterList
  exact (afterBlanks_suffix _).trans ((objectName?_suffix hname).trans ((take?_suffix hkind).trans
    ((afterVerb?_suffix hverb).trans (afterBlanks_suffix ts))))

/-- The text of a default reads as its tokens where those are spelled as they are written back. -/
theorem exists_tokens_defaultText {cs rest : List Char} (h : SpelledOut cs ts rest)
    (hts : ∀ t ∈ ts, t.isBlank = false → t.EndsVisibly) :
    ∃ us, tokens (defaultText ts) = some us ∧ visibleOnes us = visibleOnes ts := by
  obtain ⟨cs', hspelled⟩ := h.dropBlanks
  obtain ⟨us, hus, hvisible⟩ := hspelled.spells_written
  rw [visibleOnes_dropBlanks] at hvisible
  refine ⟨us, ?_, hvisible⟩
  rw [TempTable.tokens_eq_some_iff, defaultText_eq hts, String.toList_ofList]
  exact hus

theorem defaultText_of_visibleOnes {t : Token} (h : visibleOnes ts = [t]) (ht : t.EndsVisibly) :
    defaultText ts = t.text := by
  have hts : ∀ u ∈ ts, u.isBlank = false → u.EndsVisibly := by
    intro u hu hblank
    have hmem : u ∈ visibleOnes ts := List.mem_filter.2 ⟨hu, by simp [hblank]⟩
    rw [h, List.mem_singleton] at hmem
    exact hmem ▸ ht
  rw [defaultText_eq hts, written_of_visibleOnes_singleton h, String.ofList_toList]

end ProcedureHeader

open ProcedureHeader Token

/-- A token of a text comes back from what it is written back as exactly if it needs no escape for
that. The default values that a procedure definition gives are the texts of tokens that stand
together in it. A single token comes back from such a text under the same condition, and any tokens
do, blanks aside, that the definition spells as they are written back. -/
theorem tokens_comeBack {sql : String} {ts : List Token} (hts : tokens sql = some ts) :
    (∀ t ∈ ts, t ≠ .blank → (tokens t.text = some [t] ↔ t.WritesBack)) ∧
      (∀ header, read? sql = some header → ∀ p ∈ header.parameters, ∀ d, p.default? = some d →
        ∃ us, us <:+: ts ∧ d = defaultText us) ∧
      ∀ us, us <:+: ts → (∀ t ∈ us, t.isBlank = false → t.EndsVisibly) →
        (∀ t, visibleOnes us = [t] → (tokens (defaultText us) = some [t] ↔ t.WritesBack)) ∧
          ∀ cs rest, SpelledOut cs us rest →
            ∃ vs, tokens (defaultText us) = some vs ∧ visibleOnes vs = visibleOnes us := by
  have hback : ∀ t ∈ ts, t ≠ .blank → (tokens t.text = some [t] ↔ t.WritesBack) := by
    intro t ht hblank
    obtain ⟨c, cs, tail, hnext⟩ :=
      exists_next_of_mem (TempTable.tokens_eq_some_iff.1 hts) t ht
    exact tokens_text_iff hnext hblank
  refine ⟨hback, fun header hread p hp d hd => ?_, fun us hus hends =>
    ⟨fun t ht => ?_, fun cs rest hspelled => exists_tokens_defaultText hspelled hends⟩⟩
  · rw [read?, hts] at hread
    exact takesDefaultFrom_of_ofTokens? hread p hp d hd
  · have hmem : t ∈ visibleOnes us := ht ▸ List.mem_singleton_self t
    obtain ⟨hin, hvisible⟩ := List.mem_filter.1 hmem
    have hblank : t.isBlank = false := by simpa using hvisible
    rw [defaultText_of_visibleOnes ht (hends t hin hblank)]
    refine hback t (hus.subset hin) ?_
    rintro rfl
    cases hblank

/-- A definition with a comment behind the second default. -/
def priceText : String :=
  "CREATE PROC p @a nvarchar(9) = N'it''s', @b float = - 1.5/**/AS SELECT 1"

/-- The tokens of the second default. -/
def minusText : List Token :=
  [.symbol "-", .blank, .number "1.5" false, .blank]

theorem spelledOut_minusText :
    SpelledOut "- 1.5/**/AS".toList minusText "AS".toList :=
  .visible rfl nofun rfl (.blank rfl (.visible rfl nofun rfl (.blank rfl (.nil _))))

theorem priceText_comesBack : ∃ ts, tokens priceText = some ts ∧
    (∃ us, us <:+: ts ∧ "N'it''s'" = defaultText us) ∧
    tokens "N'it''s'" = some [.nationalString "it's"] ∧ minusText <:+: ts ∧
    ∃ vs, tokens (defaultText minusText) = some vs ∧ visibleOnes vs = visibleOnes minusText := by
  obtain ⟨ts, hts, hmem, hinfix⟩ : ∃ ts, tokens priceText = some ts ∧
      .nationalString "it's" ∈ ts ∧ minusText <:+: ts := by
    refine ⟨(tokens priceText).getD [], ?_⟩
    decide +kernel
  obtain ⟨hback, hdefaults, htexts⟩ := tokens_comeBack hts
  have hread : ∃ header p, read? priceText = some header ∧ p ∈ header.parameters ∧
      p.default? = some "N'it''s'" := by
    refine ⟨⟨⟨"dbo", "p"⟩, [⟨"a", "NVARCHAR(9)", false, false, some "N'it''s'"⟩,
      ⟨"b", "FLOAT", false, false, some "- 1.5"⟩]⟩, _, ?_, List.mem_cons_self, rfl⟩
    decide +kernel
  obtain ⟨header, p, hheader, hp, hd⟩ := hread
  have hends : ∀ t ∈ minusText, t.isBlank = false → t.EndsVisibly := by
    decide +kernel
  exact ⟨ts, hts, hdefaults header hheader p hp _ hd, (hback _ hmem nofun).2 (by decide), hinfix,
    (htexts minusText hinfix hends).2 _ _ spelledOut_minusText⟩

/-- A closing bracket inside a default in brackets is written once, so the rest of the default is
no longer in brackets. -/
theorem bracketDefault_comesBack_changed :
    (∃ ts, tokens "CREATE PROC p @a int = [x]]y] AS SELECT 1" = some ts ∧
      .word ⟨"x]y", some .bracket⟩ ∈ ts) ∧
    (procedureDefaults "CREATE PROC p @a int = [x]]y] AS SELECT 1").get? "a" = some "[x]y]" ∧
    Token.text (.word ⟨"x]y", some .bracket⟩) = "[x]y]" ∧
    tokens "[x]y]" = some [.word ⟨"x", some .bracket⟩, .word ⟨"y", none⟩, .symbol "]"] := by
  refine ⟨⟨(tokens "CREATE PROC p @a int = [x]]y] AS SELECT 1").getD [], ?_⟩, ?_⟩
  · decide +kernel
  · decide +kernel

end QueryShape
