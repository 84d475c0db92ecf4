import Mathlib.Data.List.TakeWhile
import QueryShape.Proofs.GlobalTokens.Readings

/-!
What a text reads as in front of a blank. Its tokens are those it has on its own, unless the last
one is a line comment that is still open, which then takes the rest of the line.
-/

namespace QueryShape

namespace TempTable

open QueryShape.Token

variable {c q : Char} {cs body tail rest : List Char} {t : Token} {ts us : List Token}

/-- What has been read of a text, with a blank and more text behind the rest. -/
def withBlank {α : Type} (rest : List Char) (r : α × List Char) : α × List Char :=
  (r.1, r.2 ++ ' ' :: rest)

theorem exists_of_append_blank_eq_cons (hc : c ≠ ' ') (h : cs ++ ' ' :: rest = c :: tail) :
    ∃ cs', cs = c :: cs' := by
  cases cs with
  | nil => exact absurd (List.cons.inj h).1.symm hc
  | cons d cs => exact ⟨cs, by rw [(List.cons.inj h).1]⟩

theorem takeWhile_append_blank {p : Char → Bool} (hp : p ' ' = false) (cs rest : List Char) :
    (cs ++ ' ' :: rest).takeWhile p = cs.takeWhile p := by
  induction cs with
  | nil => simp [hp]
  | cons c cs ih =>
      by_cases hc : p c = true
      · rw [List.cons_append, List.takeWhile_cons_of_pos hc, List.takeWhile_cons_of_pos hc, ih]
      · rw [List.cons_append, List.takeWhile_cons_of_neg hc, List.takeWhile_cons_of_neg hc]

theorem dropWhile_append_blank {p : Char → Bool} (hp : p ' ' = false) (cs rest : List Char) :
    (cs ++ ' ' :: rest).dropWhile p = cs.dropWhile p ++ ' ' :: rest := by
  induction cs with
  | nil => simp [hp]
  | cons c cs ih =>
      by_cases hc : p c = true
      · rw [List.cons_append, List.dropWhile_cons_of_pos hc, List.dropWhile_cons_of_pos hc, ih]
      · rw [List.cons_append, List.dropWhile_cons_of_neg hc, List.dropWhile_cons_of_neg hc,
          List.cons_append]

theorem isPrefixOf_append_blank {xs : List Char} (h : ' ' ∉ xs) (cs rest : List Char) :
    xs.isPrefixOf (cs ++ ' ' :: rest) = xs.isPrefixOf cs := by
  induction xs generalizing cs with
  | nil => simp
  | cons x xs ih =>
      obtain ⟨hx, hxs⟩ := List.ne_and_not_mem_of_not_mem_cons h
      cases cs with
      | nil => simp [List.isPrefixOf_cons_cons, hx.symm]
      | cons c cs =>
          rw [List.cons_append, List.isPrefixOf_cons_cons, List.isPrefixOf_cons_cons, ih hxs]

theorem wordAfter_append_blank (start cs rest : List Char) :
    wordAfter start (cs ++ ' ' :: rest) = withBlank rest (wordAfter start cs) := by
  unfold wordAfter
  rw [takeWhile_append_blank (by decide), dropWhile_append_blank (by decide)]
  rfl

/-- A reader that finds its end in a text finds it there too in front of a blank. -/
def SparesBlanks (reader : List Char → Option (List Char × List Char)) : Prop :=
  ∀ {cs body tail : List Char}, reader cs = some (body, tail) → ∀ rest,
    reader (cs ++ ' ' :: rest) = some (body, tail ++ ' ' :: rest)

theorem ClosesAt.closed_append_blank {reader : List Char → Option (List Char × List Char)}
    (hreader : ClosesAt reader q) (hq : q ≠ ' ') (hcs : cs.head? ≠ some q) (rest : List Char) :
    reader (q :: cs ++ ' ' :: rest) = some ([], cs ++ ' ' :: rest) := by
  rw [List.cons_append]
  apply hreader.closed
  cases cs with
  | nil => simpa using hq.symm
  | cons d cs => simpa using hcs

theorem sparesBlanks_quoted (hq : q ≠ ' ') : SparesBlanks (quoted q) := by
  intro cs body tail h rest
  fun_induction quoted q cs generalizing body with
  | case1 => cases h
  | case2 =>
      cases h
      exact (closesAt_quoted q).closed_append_blank hq (by simp) rest
  | case3 after ih =>
      obtain ⟨⟨inner, tail'⟩, hinner, heq⟩ := Option.map_eq_some_iff.1 h
      cases heq
      rw [List.cons_append, List.cons_append, (closesAt_quoted q).doubled, ih hinner]
      rfl
  | case4 d after hd =>
      cases h
      exact (closesAt_quoted q).closed_append_blank hq (by simpa using hd) rest
  | case5 c cs hc ih =>
      obtain ⟨⟨inner, tail'⟩, hinner, heq⟩ := Option.map_eq_some_iff.1 h
      cases heq
      rw [List.cons_append, quoted_takes hc, ih hinner]
      rfl

theorem sparesBlanks_controlQuoted : SparesBlanks controlQuoted := by
  intro cs body tail h rest
  fun_induction controlQuoted cs generalizing body with
  | case1 => cases h
  | case2 =>
      cases h
      exact closesAt_controlQuoted.closed_append_blank (by decide) (by simp) rest
  | case3 after ih =>
      obtain ⟨⟨inner, tail'⟩, hinner, heq⟩ := Option.map_eq_some_iff.1 h
      cases heq
      rw [List.cons_append, List.cons_append, closesAt_controlQuoted.doubled, ih hinner]
      rfl
  | case4 d after hd =>
      cases h
      exact closesAt_controlQuoted.closed_append_blank (by decide) (by simpa using hd) rest
  | case5 => cases h
  | case6 d after hquote ih =>
      obtain ⟨⟨inner, tail'⟩, hinner, heq⟩ := Option.map_eq_some_iff.1 h
      cases heq
      simp [controlQuoted, ih hinner]
  | case7 c cs hquote hescape ih =>
      obtain ⟨⟨inner, tail'⟩, hinner, heq⟩ := Option.map_eq_some_iff.1 h
      cases heq
      rw [List.cons_append, controlQuoted_takes hquote hescape, ih hinner]
      rfl

theorem codePoint_append {n : Nat} {e : Char} (h : codePoint n cs = some e) (more : List Char) :
    codePoint n (cs ++ more) = some e := by
  have hlength : n ≤ cs.length := by
    simp only [codePoint, Option.ite_none_right_eq_some] at h
    rw [← h.1.1]
    exact List.length_take_le' n cs
  rw [codePoint_congr (List.take_append_of_le_length hlength), h]

theorem escape_append_blank {e : Char} {n : Nat} (h : escape cs = some (e, n)) (rest : List Char) :
    escape (cs ++ ' ' :: rest) = some (e, n) := by
  cases cs with
  | nil => cases h
  | cons c cs =>
      rw [List.cons_append]
      by_cases hu : c = 'u'
      · subst hu
        change (codePoint 4 cs).map (·, 5) = _ at h
        obtain ⟨d, hd, heq⟩ := Option.map_eq_some_iff.1 h
        cases heq
        exact Option.map_eq_some_iff.2 ⟨_, codePoint_append hd _, rfl⟩
      by_cases hU : c = 'U'
      · subst hU
        change (codePoint 8 cs).map (·, 9) = _ at h
        obtain ⟨d, hd, heq⟩ := Option.map_eq_some_iff.1 h
        cases heq
        exact Option.map_eq_some_iff.2 ⟨_, codePoint_append hd _, rfl⟩
      have hhex := takeWhile_append_blank (p := isHexDigit) (by decide) cs rest
      have hoctal := takeWhile_append_blank (p := isOctalDigit) (by decide) cs rest
      rw [← h]
      simp only [escape, if_neg hu, if_neg hU, hhex, hoctal]

theorem sparesBlanks_escapedQuoted : SparesBlanks escapedQuoted := by
  intro cs body tail h rest
  fun_induction escapedQuoted cs generalizing body with
  | case1 => cases h
  | case2 =>
      cases h
      exact closesAt_escapedQuoted.closed_append_blank (by decide) (by simp) rest
  | case3 after ih =>
      obtain ⟨⟨inner, tail'⟩, hinner, heq⟩ := Option.map_eq_some_iff.1 h
      cases heq
      rw [List.cons_append, List.cons_append, closesAt_escapedQuoted.doubled, ih hinner]
      rfl
  | case4 d after hd =>
      cases h
      exact closesAt_escapedQuoted.closed_append_blank (by decide) (by simpa using hd) rest
  | case5 => cases h
  | case6 => cases h
  | case7 cs e n hescape hnull _ ih =>
      obtain ⟨⟨inner, tail'⟩, hinner, heq⟩ := Option.map_eq_some_iff.1 h
      cases heq
      -- The string goes on behind the escape, so the escape ends before the blank.
      have hlength : n ≤ cs.length := by
        by_contra hlonger
        rw [List.drop_eq_nil_of_le (by omega), escapedQuoted] at hinner
        cases hinner
      rw [List.cons_append, escapedQuoted.eq_def]
      simp [escape_append_blank hescape, hnull, List.drop_append_of_le_length hlength, ih hinner]
  | case8 c cs hquote hescape ih =>
      obtain ⟨⟨inner, tail'⟩, hinner, heq⟩ := Option.map_eq_some_iff.1 h
      cases heq
      rw [List.cons_append, escapedQuoted_takes hquote hescape, ih hinner]
      rfl

theorem sparesBlanks_upTo {closing : List Char} (hclosing : ' ' ∉ closing) (hne : closing ≠ []) :
    SparesBlanks (upTo closing) := by
  intro cs body tail h rest
  fun_induction upTo closing cs generalizing body with
  | case1 hnil => exact absurd hnil hne
  | case2 => cases h
  | case3 c cs hclosed =>
      cases h
      have hlength := (List.isPrefixOf_iff_prefix.1 hclosed).length_le
      have hclosed' := isPrefixOf_append_blank hclosing (c :: cs) rest
      rw [hclosed, List.cons_append] at hclosed'
      rw [List.cons_append, upTo, if_pos hclosed', ← List.cons_append,
        List.drop_append_of_le_length hlength]
  | case4 c cs hopen ih =>
      obtain ⟨⟨inner, tail'⟩, hinner, heq⟩ := Option.map_eq_some_iff.1 h
      cases heq
      have hopen' := isPrefixOf_append_blank hclosing (c :: cs) rest
      rw [Bool.eq_false_iff.2 hopen, List.cons_append] at hopen'
      rw [List.cons_append, upTo, if_neg (by simp [hopen']), ih hinner]
      rfl

theorem exponent_append_blank (cs rest : List Char) :
    exponent (cs ++ ' ' :: rest) = withBlank rest (exponent cs) := by
  have hdigit : Char.isDigit ' ' = false := by decide
  cases cs with
  | nil => simp [exponent, withBlank]
  | cons e cs =>
      have hsign : ((cs ++ ' ' :: rest).take 1).filter (fun c => c == '+' || c == '-') =
          (cs.take 1).filter fun c => c == '+' || c == '-' := by
        cases cs <;> simp
      have hlength : ((cs.take 1).filter fun c => c == '+' || c == '-').length ≤ cs.length :=
        (List.length_filter_le _ _).trans (List.length_take_le' _ _)
      simp only [List.cons_append, exponent, hsign, List.drop_append_of_le_length hlength,
        takeWhile_append_blank hdigit, dropWhile_append_blank hdigit]
      split
      · rfl
      · rfl

theorem numberAfter_append_blank (mantissa cs rest : List Char) :
    numberAfter mantissa (cs ++ ' ' :: rest) = withBlank rest (numberAfter mantissa cs) := by
  have hexponent := exponent_append_blank cs rest
  cases hcs : exponent cs with
  | mk power tail =>
      rw [hcs] at hexponent
      by_cases hlong : ∃ after, tail = 'L' :: after
      · obtain ⟨after, rfl⟩ := hlong
        rw [numberAfter_of_long hexponent, numberAfter_of_long hcs]
        rfl
      · have hshort : ∀ after, tail ≠ 'L' :: after := fun after heq => hlong ⟨after, heq⟩
        have hshort' : ∀ after, tail ++ ' ' :: rest ≠ 'L' :: after := fun after heq =>
          hlong (exists_of_append_blank_eq_cons (by decide) heq)
        rw [numberAfter_of_not_long hexponent hshort', numberAfter_of_not_long hcs hshort]
        rfl

theorem numeral_append_blank (cs rest : List Char) :
    numeral (cs ++ ' ' :: rest) = withBlank rest (numeral cs) := by
  have hdigit : Char.isDigit ' ' = false := by decide
  have hhexDigit : isHexDigit ' ' = false := by decide
  have hdrop := dropWhile_append_blank hdigit cs rest
  by_cases hhex : ∃ after, cs.dropWhile Char.isDigit = 'x' :: after
  · obtain ⟨after, hafter⟩ := hhex
    rw [hafter, List.cons_append] at hdrop
    rw [numeral_of_hex hdrop, numeral_of_hex hafter, takeWhile_append_blank hdigit,
      takeWhile_append_blank hhexDigit, dropWhile_append_blank hhexDigit]
    split
    · rfl
    · rfl
  by_cases hpoint : ∃ after, cs.dropWhile Char.isDigit = '.' :: after
  · obtain ⟨after, hafter⟩ := hpoint
    rw [hafter, List.cons_append] at hdrop
    rw [numeral_of_point hdrop, numeral_of_point hafter, takeWhile_append_blank hdigit,
      takeWhile_append_blank hdigit, dropWhile_append_blank hdigit]
    split
    · rfl
    · exact numberAfter_append_blank _ _ _
  · rw [numeral_of_whole, numeral_of_whole, takeWhile_append_blank hdigit, hdrop]
    · exact numberAfter_append_blank _ _ _
    · exact fun after heq => hhex ⟨after, heq⟩
    · exact fun after heq => hpoint ⟨after, heq⟩
    · exact fun after heq => hhex (exists_of_append_blank_eq_cons (by decide) (hdrop ▸ heq))
    · exact fun after heq => hpoint (exists_of_append_blank_eq_cons (by decide) (hdrop ▸ heq))

theorem operator_append_blank (c : Char) (cs rest : List Char) :
    operator c (cs ++ ' ' :: rest) = withBlank rest (operator c cs) := by
  have hblanks : ∀ o ∈ operators, ' ' ∉ o.toList := by decide
  have hfind : (operators.find? fun o => o.toList.isPrefixOf (c :: (cs ++ ' ' :: rest))) =
      operators.find? fun o => o.toList.isPrefixOf (c :: cs) :=
    List.find?_congr fun o ho => isPrefixOf_append_blank (hblanks o ho) (c :: cs) rest
  unfold operator
  rw [hfind]
  cases hfound : operators.find? fun o => o.toList.isPrefixOf (c :: cs) with
  | none => rfl
  | some o =>
      have hlength : o.length ≤ (c :: cs).length := by
        rw [← String.length_toList]
        have hprefix := List.find?_some hfound
        exact (List.isPrefixOf_iff_prefix.1 hprefix).length_le
      have hdrop : (c :: (cs ++ ' ' :: rest)).drop o.length =
          (c :: cs).drop o.length ++ ' ' :: rest :=
        List.drop_append_of_le_length hlength
      dsimp only
      rw [hdrop]
      rfl

theorem atHash_append_blank (cs rest : List Char) :
    atHash (cs ++ ' ' :: rest) = withBlank rest (atHash cs) := by
  cases cs with
  | nil => rfl
  | cons c cs =>
      rw [List.cons_append]
      by_cases hminus : c = '-'
      · subst hminus
        rfl
      by_cases hspace : c = ' '
      · subst hspace
        rfl
      by_cases hgreater : c = '>'
      · subst hgreater
        by_cases htwo : ∃ cs', cs = '>' :: cs'
        · obtain ⟨cs', rfl⟩ := htwo
          rfl
        · have hone : ∀ cs', cs ≠ '>' :: cs' := fun cs' heq => htwo ⟨cs', heq⟩
          have hone' : ∀ cs', cs ++ ' ' :: rest ≠ '>' :: cs' := fun cs' heq =>
            htwo (exists_of_append_blank_eq_cons (by decide) heq)
          rw [atHash_of_greater hone, atHash_of_greater hone']
          rfl
      · rw [atHash_of_word hminus hgreater hspace, atHash_of_word hminus hgreater hspace,
          wordAfter_append_blank]

theorem atTwoAts_append_blank (cs rest : List Char) :
    atTwoAts (cs ++ ' ' :: rest) = withBlank rest (atTwoAts cs) := by
  cases cs with
  | nil => rfl
  | cons c cs =>
      rw [List.cons_append]
      by_cases hspace : c = ' '
      · subst hspace
        rfl
      · rw [atTwoAts_of_word hspace, atTwoAts_of_word hspace, wordAfter_append_blank]

theorem atAt_append_blank (cs rest : List Char) :
    atAt (cs ++ ' ' :: rest) = withBlank rest (atAt cs) := by
  cases cs with
  | nil => rfl
  | cons c cs =>
      rw [List.cons_append]
      by_cases hgreater : c = '>'
      · subst hgreater
        rfl
      by_cases hquestion : c = '?'
      · subst hquestion
        rfl
      by_cases hat : c = '@'
      · subst hat
        exact atTwoAts_append_blank cs rest
      rw [atAt_of_word hgreater hquestion hat, atAt_of_word hgreater hquestion hat]
      split
      · rfl
      · exact wordAfter_append_blank _ _ _

theorem atDollar_append_blank {r : Token × List Char} (h : atDollar cs = some r)
    (rest : List Char) : atDollar (cs ++ ' ' :: rest) = some (withBlank rest r) := by
  have hblank : isTagPart ' ' = false := by decide
  have hdrop := dropWhile_append_blank hblank cs rest
  by_cases htag : ∃ after, cs.dropWhile isTagPart = '$' :: after
  · obtain ⟨after, hafter⟩ := htag
    rw [hafter, List.cons_append] at hdrop
    rw [atDollar_of_tag hafter] at h
    obtain ⟨⟨body, tail⟩, hbody, rfl⟩ := Option.map_eq_some_iff.1 h
    have hclosing : ' ' ∉ '$' :: (cs.takeWhile isTagPart ++ ['$']) := by
      simp [not_mem_takeWhile hblank]
    rw [atDollar_of_tag hdrop, takeWhile_append_blank hblank,
      sparesBlanks_upTo hclosing (List.cons_ne_nil _ _) hbody]
    rfl
  · have hno : ∀ after, cs.dropWhile isTagPart ≠ '$' :: after := fun after heq => htag ⟨after, heq⟩
    have hno' : ∀ after, (cs ++ ' ' :: rest).dropWhile isTagPart ≠ '$' :: after := fun after heq =>
      htag (exists_of_append_blank_eq_cons (by decide) (hdrop ▸ heq))
    rw [atDollar_of_not_tag hno] at h
    obtain rfl := Option.some.inj h
    rw [atDollar_of_not_tag hno', takeWhile_append_blank hblank, hdrop]
    rfl

theorem markedString_append_blank {r : Token × List Char} {marker : QuoteMarker}
    (h : markedString cs marker = some r) (rest : List Char) :
    markedString (cs ++ ' ' :: rest) marker = some (withBlank rest r) := by
  cases marker with
  | national =>
      obtain ⟨⟨body, tail⟩, hbody, rfl⟩ := Option.map_eq_some_iff.1 h
      exact Option.map_eq_some_iff.2 ⟨_, sparesBlanks_controlQuoted hbody rest, rfl⟩
  | binary =>
      obtain ⟨⟨body, tail⟩, hbody, rfl⟩ := Option.map_eq_some_iff.1 h
      exact Option.map_eq_some_iff.2 ⟨_, sparesBlanks_controlQuoted hbody rest, rfl⟩
  | escaped =>
      obtain ⟨⟨body, tail⟩, hbody, rfl⟩ := Option.map_eq_some_iff.1 h
      exact Option.map_eq_some_iff.2 ⟨_, sparesBlanks_escapedQuoted hbody rest, rfl⟩

theorem atLetter_append_blank {r : Token × List Char} (h : atLetter c cs = some r)
    (rest : List Char) : atLetter c (cs ++ ' ' :: rest) = some (withBlank rest r) := by
  by_cases hword : quoteMarker? c = none ∨ ∀ body, cs ≠ '\'' :: body
  · have hword' : quoteMarker? c = none ∨ ∀ body, cs ++ ' ' :: rest ≠ '\'' :: body := by
      refine hword.imp_right fun hno body heq => ?_
      obtain ⟨body', hbody'⟩ := exists_of_append_blank_eq_cons (by decide) heq
      exact hno body' hbody'
    rw [atLetter_of_word hword] at h
    obtain rfl := Option.some.inj h
    rw [atLetter_of_word hword', wordAfter_append_blank]
  · push Not at hword
    obtain ⟨marker, hmarker⟩ := Option.ne_none_iff_exists'.1 hword.1
    obtain ⟨body, rfl⟩ := hword.2
    rw [atLetter_of_quote hmarker] at h
    rw [List.cons_append, atLetter_of_quote hmarker]
    exact markedString_append_blank h rest

variable {r : Token × List Char}

theorem nameOrOperator_append_blank (h : nameOrOperator c cs = some r) (rest : List Char) :
    nameOrOperator c (cs ++ ' ' :: rest) = some (withBlank rest r) := by
  unfold nameOrOperator at h ⊢
  by_cases hhash : c = '#'
  · rw [if_pos hhash] at h ⊢
    rw [atHash_append_blank, Option.some.inj h]
  rw [if_neg hhash] at h ⊢
  by_cases hat : c = '@'
  · rw [if_pos hat] at h ⊢
    rw [atAt_append_blank, Option.some.inj h]
  rw [if_neg hat] at h ⊢
  by_cases hdollar : c = '$'
  · rw [if_pos hdollar] at h ⊢
    exact atDollar_append_blank h rest
  rw [if_neg hdollar] at h ⊢
  by_cases hquestion : c = '?'
  · rw [if_pos hquestion] at h ⊢
    obtain rfl := Option.some.inj h
    rw [takeWhile_append_blank (by decide), dropWhile_append_blank (by decide)]
    rfl
  rw [if_neg hquestion] at h ⊢
  by_cases hstart : isIdentifierStart c = true
  · rw [if_pos hstart] at h ⊢
    exact atLetter_append_blank h rest
  · rw [if_neg hstart] at h ⊢
    rw [operator_append_blank, Option.some.inj h]

theorem delimitedWord_append_blank {d : Delimiter} (h : delimitedWord d cs = some r)
    (rest : List Char) : delimitedWord d (cs ++ ' ' :: rest) = some (withBlank rest r) := by
  have hclosing : d.closing ≠ ' ' := by cases d <;> decide
  obtain ⟨⟨value, tail⟩, hvalue, rfl⟩ := Option.map_eq_some_iff.1 h
  exact Option.map_eq_some_iff.2 ⟨_, sparesBlanks_quoted hclosing hvalue rest, rfl⟩

theorem visible_append_blank (h : visible c cs = some r) (rest : List Char) :
    visible c (cs ++ ' ' :: rest) = some (withBlank rest r) := by
  unfold visible at h ⊢
  by_cases hquote : c = '\''
  · rw [if_pos hquote] at h ⊢
    obtain ⟨⟨body, tail⟩, hbody, rfl⟩ := Option.map_eq_some_iff.1 h
    exact Option.map_eq_some_iff.2 ⟨_, sparesBlanks_quoted (by decide) hbody rest, rfl⟩
  rw [if_neg hquote] at h ⊢
  by_cases hbracket : c = '['
  · rw [if_pos hbracket] at h ⊢
    exact delimitedWord_append_blank h rest
  rw [if_neg hbracket] at h ⊢
  by_cases hdouble : c = '"'
  · rw [if_pos hdouble] at h ⊢
    exact delimitedWord_append_blank h rest
  rw [if_neg hdouble] at h ⊢
  by_cases hnumber : (c.isDigit || c = '.') = true
  · rw [if_pos hnumber] at h ⊢
    rw [← List.cons_append, numeral_append_blank, Option.some.inj h]
  · rw [if_neg hnumber] at h ⊢
    exact nameOrOperator_append_blank h rest

theorem all_ne_of_not_mem (h : c ∉ cs) : ∀ d ∈ cs, (d != c) = true := by
  rintro d hd
  rw [bne_iff_ne]
  rintro rfl
  exact h hd

theorem afterLine_append_of_mem (h : '\n' ∈ cs) (more : List Char) :
    afterLine (cs ++ more) = afterLine cs ++ more := by
  have hdrop : cs.dropWhile (· != '\n') ≠ [] := by
    intro hnil
    simpa using List.dropWhile_eq_nil_iff.1 hnil '\n' h
  obtain ⟨d, after, hafter⟩ := List.exists_cons_of_ne_nil hdrop
  unfold afterLine
  rw [List.dropWhile_append, hafter]
  rfl

theorem afterLine_append_of_not_mem (h : '\n' ∉ cs) (rest : List Char) :
    afterLine (cs ++ '\n' :: rest) = rest := by
  unfold afterLine
  rw [List.dropWhile_append_of_pos (all_ne_of_not_mem h), List.dropWhile_cons_of_neg (by decide)]
  rfl

/-- A line comment that goes on behind the text. -/
def OpensComment (c : Char) (cs : List Char) : Prop :=
  c = '-' ∧ cs.head? = some '-' ∧ '\n' ∉ cs

theorem next_append_blank (h : next c cs = some r) (hclosed : ¬ OpensComment c cs)
    (rest : List Char) : next c (cs ++ ' ' :: rest) = some (withBlank rest r) := by
  have hhead : ∀ d, d ≠ ' ' → ((cs ++ ' ' :: rest).head? = some d ↔ cs.head? = some d) := by
    intro d hd
    cases cs with
    | nil => simp [hd.symm]
    | cons e cs => rfl
  have hdrop : ∀ d, cs.head? = some d → (cs ++ ' ' :: rest).drop 1 = cs.drop 1 ++ ' ' :: rest := by
    intro d hd
    obtain ⟨cs', rfl⟩ := List.head?_eq_some_iff.1 hd
    rfl
  unfold next at h ⊢
  simp only [hhead '\n' (by decide), hhead '-' (by decide), hhead '*' (by decide)]
  by_cases hblank : Unicode.isBlank c = true
  · rw [if_pos hblank] at h ⊢
    obtain rfl := Option.some.inj h
    split
    · rename_i hreturn
      rw [hdrop _ hreturn.2]
      rfl
    · rfl
  rw [if_neg hblank] at h ⊢
  by_cases hline : c = '-' ∧ cs.head? = some '-'
  · rw [if_pos hline] at h ⊢
    obtain rfl := Option.some.inj h
    -- The line of the comment ends before the blank.
    have hfeed : '\n' ∈ cs.drop 1 := by
      obtain ⟨cs', rfl⟩ := List.head?_eq_some_iff.1 hline.2
      have hmem : '\n' ∈ '-' :: cs' := by
        by_contra hnot
        exact hclosed ⟨hline.1, hline.2, hnot⟩
      simpa using hmem
    rw [hdrop _ hline.2, afterLine_append_of_mem hfeed]
    rfl
  rw [if_neg hline] at h ⊢
  by_cases hblock : c = '/' ∧ cs.head? = some '*'
  · rw [if_pos hblock] at h ⊢
    obtain ⟨tail, htail, rfl⟩ := Option.map_eq_some_iff.1 h
    obtain ⟨⟨body, tail'⟩, hbody, rfl⟩ := Option.map_eq_some_iff.1 htail
    have hclosing : ' ' ∉ ['*', '/'] := by decide
    have hspared := sparesBlanks_upTo hclosing (List.cons_ne_nil _ _) hbody rest
    rw [hdrop _ hblock.2, afterBlock, hspared]
    rfl
  · rw [if_neg hblock] at h ⊢
    exact visible_append_blank h rest

/-- An open line comment is all that is left of its text. It takes what stands in front of the next
line feed, and the line feed. -/
theorem next_of_opensComment (h : OpensComment c cs) : next c cs = some (.blank, []) ∧
    ∀ line rest, '\n' ∉ line → next c (cs ++ (line ++ '\n' :: rest)) = some (.blank, rest) := by
  obtain ⟨rfl, hdash, hfeed⟩ := h
  obtain ⟨cs', rfl⟩ := List.head?_eq_some_iff.1 hdash
  have hfeed' : '\n' ∉ cs' := fun hmem => hfeed (List.mem_cons_of_mem _ hmem)
  have hcomment (more : List Char) :
      next '-' ('-' :: more) = some (.blank, afterLine more) := rfl
  have htail : afterLine cs' = [] := by
    rw [afterLine, List.dropWhile_eq_nil_iff.2 (all_ne_of_not_mem hfeed')]
    rfl
  refine ⟨by rw [hcomment, htail], fun line rest hline => ?_⟩
  have hnone : '\n' ∉ cs' ++ line := by simp [hfeed', hline]
  rw [List.cons_append, hcomment, ← List.append_assoc, afterLine_append_of_not_mem hnone]

/-- The tokens of a text in front of a blank are its own, unless it ends inside a line comment. That
one takes whatever stands in front of the next line feed. -/
theorem Spells.append_blank (h : Spells cs ts) :
    (∀ rest us, Spells (' ' :: rest) us → Spells (cs ++ ' ' :: rest) (ts ++ us)) ∨
      ∀ line rest us, '\n' ∉ line → Spells rest us →
        Spells (cs ++ ' ' :: (line ++ '\n' :: rest)) (ts ++ us) := by
  induction h with
  | nil => exact .inl fun rest us hrest => hrest
  | @cons c cs tail t ts hnext hts ih =>
      by_cases hopen : OpensComment c cs
      · refine .inr fun line rest us hline hrest => ?_
        obtain ⟨hhere, hthere⟩ := next_of_opensComment hopen
        rw [hhere] at hnext
        obtain ⟨rfl, rfl⟩ := Prod.mk.inj (Option.some.inj hnext)
        cases hts
        have hline' : '\n' ∉ ' ' :: line := by simp [hline]
        exact .cons (hthere _ rest hline') hrest
      · rcases ih with ih | ih
        · exact .inl fun rest us hrest =>
            .cons (next_append_blank hnext hopen rest) (ih rest us hrest)
        · exact .inr fun line rest us hline hrest =>
            .cons (next_append_blank hnext hopen _) (ih line rest us hline hrest)

end TempTable

end QueryShape
