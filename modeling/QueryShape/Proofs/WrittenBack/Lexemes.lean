import Mathlib.Data.List.DropRight
import QueryShape.Proofs.NamesApart.Blanks
import QueryShape.Proofs.WrittenBack.Quotations

namespace QueryShape.Token

open QueryShape.Identifier
open QueryShape.TempTable

variable {c : Char} {cs tail z : List Char} {t : Token}

theorem dropWhile_of_append {p : Char → Bool} (h : (cs ++ z).dropWhile p = tail ++ z) :
    cs.dropWhile p = tail ∧ cs.takeWhile p = (cs ++ z).takeWhile p := by
  have happend := cs.takeWhile_append_dropWhile (p := p)
  by_cases hall : ∀ d ∈ cs, p d = true
  · rw [List.dropWhile_append_of_pos hall] at h
    have htake := z.takeWhile_append_dropWhile (p := p)
    rw [h, ← List.append_assoc, List.append_left_eq_self, List.append_eq_nil_iff] at htake
    rw [List.dropWhile_eq_nil_iff.2 hall, List.takeWhile_append_of_pos hall, htake.1, htake.2,
      List.takeWhile_eq_self_iff.2 hall, List.append_nil]
    exact ⟨rfl, rfl⟩
  · have hne : cs.dropWhile p ≠ [] := fun hnil => hall (List.dropWhile_eq_nil_iff.1 hnil)
    have hlength : (cs.takeWhile p).length ≠ cs.length := fun hlength =>
      hall (List.takeWhile_eq_self_iff.1 ((List.takeWhile_prefix p).eq_of_length hlength))
    rw [List.dropWhile_append, if_neg (by simpa using hne), List.append_left_inj] at h
    rw [List.takeWhile_append, if_neg hlength]
    exact ⟨h, rfl⟩

theorem exists_of_suffix {w : List Char} (h : tail ++ z <:+ w) : ∃ w', w = w' ++ z := by
  obtain ⟨front, rfl⟩ := h
  exact ⟨front ++ tail, (List.append_assoc _ _ _).symm⟩

theorem wordAfter_of_append {start : List Char} (h : wordAfter start (cs ++ z) = (t, tail ++ z)) :
    wordAfter start cs = (t, tail) := by
  obtain ⟨hword, htail⟩ := Prod.mk.inj h
  obtain ⟨hdrop, htake⟩ := dropWhile_of_append htail
  rw [wordAfter, hdrop, htake, hword]

/-- An exponent as it is written: a letter, a sign or none, and digits. -/
inductive IsExponent : List Char → Prop
  | intro {e d : Char} {sign ds : List Char} (he : e = 'e' ∨ e = 'E')
      (hsign : sign = [] ∨ sign = ['+'] ∨ sign = ['-']) (hds : ∀ c ∈ d :: ds, c.isDigit = true) :
      IsExponent (e :: (sign ++ d :: ds))

theorem exponent_append {power : List Char} (h : IsExponent power) (rest : List Char) :
    exponent (power ++ rest) =
      (power ++ rest.takeWhile Char.isDigit, rest.dropWhile Char.isDigit) := by
  obtain ⟨he, hsign, hds⟩ := h
  rename_i e d sign ds
  have hfilter : ((sign ++ d :: (ds ++ rest)).take 1).filter (fun c => c == '+' || c == '-') =
      sign := by
    rcases hsign with rfl | rfl | rfl
    · have hplus : d ≠ '+' := by
        rintro rfl
        exact absurd (hds '+' List.mem_cons_self) (by decide)
      have hminus : d ≠ '-' := by
        rintro rfl
        exact absurd (hds '-' List.mem_cons_self) (by decide)
      simp [hplus, hminus]
    · rfl
    · rfl
  have hdigits : (d :: (ds ++ rest)).takeWhile Char.isDigit =
      d :: ds ++ rest.takeWhile Char.isDigit := by
    rw [← List.cons_append, List.takeWhile_append_of_pos hds]
  have hbehind : (d :: (ds ++ rest)).dropWhile Char.isDigit = rest.dropWhile Char.isDigit := by
    rw [← List.cons_append, List.dropWhile_append_of_pos hds]
  rw [List.cons_append, List.append_assoc, List.cons_append]
  simp only [exponent, hfilter, List.drop_left, hdigits, hbehind]
  rw [if_pos ⟨he, by simp⟩]
  simp

theorem eq_of_exponent {power : List Char} (h : exponent cs = (power, tail)) :
    cs = power ++ tail ∧
      (power = [] ∨ IsExponent power ∧ tail.dropWhile Char.isDigit = tail) := by
  cases cs with
  | nil =>
      cases h
      exact ⟨rfl, .inl rfl⟩
  | cons e rest =>
      simp only [exponent] at h
      split at h
      · rename_i hexponent
        obtain ⟨rfl, rfl⟩ := Prod.mk.inj h
        have hsign : ∃ sign, (rest.take 1).filter (fun c => c == '+' || c == '-') = sign ∧
            sign <+: rest ∧ (sign = [] ∨ sign = ['+'] ∨ sign = ['-']) := by
          cases rest with
          | nil => exact ⟨[], rfl, List.nil_prefix, .inl rfl⟩
          | cons d rest =>
            by_cases hplus : d = '+'
            · subst hplus
              exact ⟨['+'], rfl, by simp, .inr (.inl rfl)⟩
            by_cases hminus : d = '-'
            · subst hminus
              exact ⟨['-'], rfl, by simp, .inr (.inr rfl)⟩
            · exact ⟨[], by simp [hplus, hminus], List.nil_prefix, .inl rfl⟩
        obtain ⟨sign, heq, ⟨digits, rfl⟩, hsign⟩ := hsign
        rw [heq, List.drop_left] at hexponent ⊢
        obtain ⟨d, ds, hds⟩ := List.exists_cons_of_ne_nil hexponent.2
        refine ⟨by simp, .inr ⟨?_, ?_⟩⟩
        · rw [hds]
          exact .intro hexponent.1 hsign fun c hc =>
            List.mem_takeWhile_imp (p := Char.isDigit) (hds ▸ hc)
        · exact List.dropWhile_idempotent Char.isDigit _
      · cases h
        exact ⟨rfl, .inl rfl⟩

theorem exponent_of_append {power : List Char} (h : exponent (cs ++ z) = (power, tail ++ z)) :
    exponent cs = (power, tail) := by
  obtain ⟨heq, hpower⟩ := eq_of_exponent h
  rw [← List.append_assoc, List.append_left_inj] at heq
  rcases hpower with rfl | ⟨hpower, htail⟩
  · obtain rfl : cs = tail := heq
    cases hcs : exponent cs with
    | mk power' tail' =>
        obtain ⟨heq', rfl | ⟨hpower', -⟩⟩ := eq_of_exponent hcs
        · rw [heq', List.nil_append]
        · rw [heq', List.append_assoc, exponent_append hpower'] at h
          obtain ⟨hnil, -⟩ := Prod.mk.inj h
          cases hpower'
          cases hnil
  · obtain ⟨hdrop, htake⟩ := dropWhile_of_append htail
    have happend := tail.takeWhile_append_dropWhile (p := Char.isDigit)
    rw [hdrop, List.append_left_eq_self] at happend
    rw [heq, exponent_append hpower, hdrop, happend, List.append_nil]

theorem numberAfter_of_append {mantissa : List Char}
    (h : numberAfter mantissa (cs ++ z) = (t, tail ++ z)) :
    numberAfter mantissa cs = (t, tail) := by
  cases hcs : exponent (cs ++ z) with
  | mk power behind =>
      by_cases hlong : ∃ after, behind = 'L' :: after
      · obtain ⟨after, rfl⟩ := hlong
        rw [numberAfter_of_long hcs] at h
        obtain ⟨rfl, rfl⟩ := Prod.mk.inj h
        rw [← List.cons_append] at hcs
        rw [numberAfter_of_long (exponent_of_append hcs)]
      · rw [numberAfter_of_not_long hcs fun after heq => hlong ⟨after, heq⟩] at h
        obtain ⟨rfl, rfl⟩ := Prod.mk.inj h
        have hshort : ∀ after, tail ≠ 'L' :: after := by
          rintro after rfl
          exact hlong ⟨after ++ z, rfl⟩
        rw [numberAfter_of_not_long (exponent_of_append hcs) hshort]

theorem eq_of_numberAfter {mantissa : List Char} (h : numberAfter mantissa cs = (t, tail)) :
    mantissa ++ cs = t.text.toList ++ tail := by
  cases hcs : exponent cs with
  | mk power behind =>
      obtain ⟨rfl, -⟩ := eq_of_exponent hcs
      by_cases hlong : ∃ after, behind = 'L' :: after
      · obtain ⟨after, rfl⟩ := hlong
        rw [numberAfter_of_long hcs] at h
        obtain ⟨rfl, rfl⟩ := Prod.mk.inj h
        simp [text]
      · rw [numberAfter_of_not_long hcs fun after heq => hlong ⟨after, heq⟩] at h
        obtain ⟨rfl, rfl⟩ := Prod.mk.inj h
        simp [text]

theorem dropWhile_cons_of_append {p : Char → Bool} {rest : List Char}
    (h : (cs ++ z).dropWhile p = c :: rest) (hrest : tail ++ z <:+ rest) :
    ∃ rest', rest = rest' ++ z ∧ cs.dropWhile p = c :: rest' ∧
      cs.takeWhile p = (cs ++ z).takeWhile p := by
  obtain ⟨rest', rfl⟩ := exists_of_suffix hrest
  exact ⟨rest', rfl, dropWhile_of_append (h.trans List.cons_append.symm)⟩

theorem numberAfter_dropWhile_of_append {mantissa : List Char}
    (h : numberAfter mantissa ((cs ++ z).dropWhile Char.isDigit) = (t, tail ++ z)) :
    (cs ++ z).dropWhile Char.isDigit = cs.dropWhile Char.isDigit ++ z ∧
      cs.takeWhile Char.isDigit = (cs ++ z).takeWhile Char.isDigit ∧
      numberAfter mantissa (cs.dropWhile Char.isDigit) = (t, tail) := by
  have hsuffix := numberAfter_suffix mantissa ((cs ++ z).dropWhile Char.isDigit)
  rw [h] at hsuffix
  obtain ⟨behind, hbehind⟩ := exists_of_suffix hsuffix
  obtain ⟨hdrop, htake⟩ := dropWhile_of_append hbehind
  rw [hbehind] at h
  rw [hdrop]
  exact ⟨hbehind, htake, numberAfter_of_append h⟩

theorem numeral_of_append (h : numeral (cs ++ z) = (t, tail ++ z)) : numeral cs = (t, tail) := by
  -- The digits end at the sign of a hexadecimal number, at a point, or at anything else.
  by_cases hhex : ∃ rest, (cs ++ z).dropWhile Char.isDigit = 'x' :: rest
  · obtain ⟨rest, hrest⟩ := hhex
    rw [numeral_of_hex hrest] at h
    split at h
    · rename_i hzero
      obtain ⟨rfl, hdrop⟩ := Prod.mk.inj h
      have hsuffix : tail ++ z <:+ rest := hdrop ▸ List.dropWhile_suffix _
      obtain ⟨rest', rfl, hcs, hwhole⟩ := dropWhile_cons_of_append hrest hsuffix
      obtain ⟨hbehind, hdigits⟩ := dropWhile_of_append hdrop
      rw [numeral_of_hex hcs, hwhole, if_pos hzero, hbehind, hdigits]
    · rename_i hzero
      obtain ⟨rfl, htail⟩ := Prod.mk.inj h
      obtain ⟨hcs, hwhole⟩ := dropWhile_of_append (hrest.trans htail)
      cases tail with
      | nil =>
          rw [numeral_of_whole (by simp [hcs]) (by simp [hcs]), hcs, hwhole]
          simp [numberAfter, exponent]
      | cons d tail =>
          obtain ⟨rfl, -⟩ := List.cons.inj htail
          rw [numeral_of_hex hcs, hwhole, if_neg hzero]
  by_cases hpoint : ∃ rest, (cs ++ z).dropWhile Char.isDigit = '.' :: rest
  · obtain ⟨rest, hrest⟩ := hpoint
    rw [numeral_of_point hrest] at h
    split at h
    · rename_i hempty
      obtain ⟨rfl, rfl⟩ := Prod.mk.inj h
      obtain ⟨rest', heq, hcs, hwhole⟩ := dropWhile_cons_of_append hrest List.suffix_rfl
      obtain rfl := (List.append_left_inj z).1 heq
      have hnone : tail.takeWhile Char.isDigit = [] := by
        have hhead := List.takeWhile_eq_nil_iff.1 hempty.2
        cases tail with
        | nil => rfl
        | cons d tail => exact List.takeWhile_cons_of_neg (hhead (Nat.succ_pos _))
      rw [numeral_of_point hcs, hwhole, if_pos ⟨hempty.1, hnone⟩]
    · rename_i hdigits
      have hsuffix := numberAfter_suffix
        ((cs ++ z).takeWhile Char.isDigit ++ '.' :: rest.takeWhile Char.isDigit)
        (rest.dropWhile Char.isDigit)
      rw [h] at hsuffix
      obtain ⟨rest', rfl, hcs, hwhole⟩ :=
        dropWhile_cons_of_append hrest (hsuffix.trans (List.dropWhile_suffix _))
      obtain ⟨-, hdecimals, hnumber⟩ := numberAfter_dropWhile_of_append h
      rw [numeral_of_point hcs, hwhole, hdecimals, if_neg hdigits, hnumber]
  · rw [numeral_of_whole (fun rest heq => hhex ⟨rest, heq⟩)
      fun rest heq => hpoint ⟨rest, heq⟩] at h
    obtain ⟨hdrop, hwhole, hnumber⟩ := numberAfter_dropWhile_of_append h
    rw [numeral_of_whole, hwhole, hnumber]
    · intro rest heq
      exact hhex ⟨rest ++ z, by rw [hdrop, heq]; rfl⟩
    · intro rest heq
      exact hpoint ⟨rest ++ z, by rw [hdrop, heq]; rfl⟩

theorem eq_of_numeral (h : numeral cs = (t, tail)) : cs = t.text.toList ++ tail := by
  have hcs := cs.takeWhile_append_dropWhile (p := Char.isDigit)
  by_cases hhex : ∃ rest, cs.dropWhile Char.isDigit = 'x' :: rest
  · obtain ⟨rest, hrest⟩ := hhex
    rw [numeral_of_hex hrest] at h
    rw [hrest] at hcs
    split at h
    · rename_i hzero
      obtain ⟨rfl, rfl⟩ := Prod.mk.inj h
      rw [hzero] at hcs
      simp [text, ← hcs]
    · obtain ⟨rfl, rfl⟩ := Prod.mk.inj h
      simpa [text] using hcs.symm
  by_cases hpoint : ∃ rest, cs.dropWhile Char.isDigit = '.' :: rest
  · obtain ⟨rest, hrest⟩ := hpoint
    rw [numeral_of_point hrest] at h
    rw [hrest] at hcs
    split at h
    · rename_i hempty
      obtain ⟨rfl, rfl⟩ := Prod.mk.inj h
      rw [hempty.1] at hcs
      exact hcs.symm
    · have hrest := eq_of_numberAfter h
      rw [List.append_assoc, List.cons_append, List.takeWhile_append_dropWhile] at hrest
      exact hcs.symm.trans hrest
  · rw [numeral_of_whole (fun rest heq => hhex ⟨rest, heq⟩)
      fun rest heq => hpoint ⟨rest, heq⟩] at h
    exact hcs.symm.trans (eq_of_numberAfter h)

theorem find?_operators_of_append {o : String}
    (h : (operators.find? fun o => o.toList.isPrefixOf (cs ++ z)) = some o)
    (hlength : o.length ≤ cs.length) :
    (operators.find? fun o => o.toList.isPrefixOf cs) = some o := by
  obtain ⟨hstarts, before, after, hsplit, hbefore⟩ := List.find?_eq_some_iff_append.1 h
  refine List.find?_eq_some_iff_append.2 ⟨?_, before, after, hsplit, fun a ha => ?_⟩
  · rw [List.isPrefixOf_iff_prefix] at hstarts ⊢
    exact List.prefix_of_prefix_length_le hstarts (List.prefix_append cs z)
      (by rwa [String.length_toList])
  · have hnot := hbefore a ha
    simp only [Bool.not_eq_true', ← Bool.not_eq_true, List.isPrefixOf_iff_prefix] at hnot ⊢
    exact fun hpre => hnot (hpre.trans (List.prefix_append cs z))

theorem operator_of_append (h : operator c (cs ++ z) = (t, tail ++ z)) :
    operator c cs = (t, tail) := by
  unfold operator at h ⊢
  rw [← List.cons_append] at h
  cases hfound : operators.find? fun o => o.toList.isPrefixOf (c :: cs ++ z) with
  | none =>
      rw [hfound] at h
      have hnone : (operators.find? fun o => o.toList.isPrefixOf (c :: cs)) = none := by
        rw [List.find?_eq_none] at hfound ⊢
        intro o ho
        have hnot := hfound o ho
        rw [List.isPrefixOf_iff_prefix] at hnot ⊢
        exact fun hpre => hnot (hpre.trans (List.prefix_append _ z))
      obtain ⟨rfl, htail⟩ := Prod.mk.inj h
      rw [hnone, (List.append_left_inj z).1 htail]
  | some o =>
      rw [hfound] at h
      obtain ⟨rfl, hdrop⟩ := Prod.mk.inj h
      have hlength : o.length ≤ (c :: cs).length := by
        have hfits := congrArg List.length hdrop
        have hfits' := List.find?_some hfound
        have hstarts := (List.isPrefixOf_iff_prefix.1 hfits').length_le
        simp only [List.length_drop, List.length_append, List.length_cons,
          String.length_toList] at hfits hstarts ⊢
        omega
      rw [List.drop_append_of_le_length hlength, List.append_left_inj] at hdrop
      rw [find?_operators_of_append hfound hlength, ← hdrop]

theorem eq_of_operator (h : operator c cs = (t, tail)) :
    t = .symbol "<>" ∨ c :: cs = t.text.toList ++ tail := by
  unfold operator at h
  split at h
  · rename_i o ho
    obtain ⟨rfl, rfl⟩ := Prod.mk.inj h
    by_cases hunequal : o = "!="
    · exact .inl (by rw [hunequal]; rfl)
    · have hstarts := List.find?_some ho
      obtain ⟨after, hafter⟩ := List.isPrefixOf_iff_prefix.1 hstarts
      refine .inr ?_
      rw [operatorText, if_neg hunequal, ← hafter, ← String.length_toList, List.drop_left]
      rfl
  · obtain ⟨rfl, rfl⟩ := Prod.mk.inj h
    refine .inr ?_
    split_ifs <;> simp_all [text]

theorem length_wordAfter_le (start rest : List Char) :
    (wordAfter start rest).2.length ≤ rest.length :=
  (wordAfter_suffix start rest).length_le

/-- A reader takes the first character of a text, or reads `alone` and leaves all of it. -/
def TakesOrLeaves (reader : List Char → Token × List Char) (alone : Token) : Prop :=
  ∀ c rest, reader (c :: rest) = (alone, c :: rest) ∨ (reader (c :: rest)).2.length ≤ rest.length

theorem TakesOrLeaves.eq_of_append {reader : List Char → Token × List Char} {alone : Token}
    (hreader : TakesOrLeaves reader alone) (hnil : reader [] = (alone, []))
    (h : reader z = (t, tail ++ z)) : reader [] = (t, tail) := by
  cases z with
  | nil => simpa using h
  | cons c rest =>
      obtain hleaves | hlength := hreader c rest
      · rw [hleaves] at h
        obtain ⟨rfl, htail⟩ := Prod.mk.inj h
        rw [hnil, List.append_left_eq_self.1 htail.symm]
      · simp only [h, List.length_append, List.length_cons] at hlength
        omega

theorem takesOrLeaves_atHash : TakesOrLeaves atHash .hash := by
  intro c rest
  by_cases hspace : c = ' '
  · subst hspace
    exact .inl rfl
  refine .inr ?_
  by_cases hminus : c = '-'
  · subst hminus
    exact Nat.le_refl _
  by_cases hgreater : c = '>'
  · subst hgreater
    by_cases htwo : ∃ rest', rest = '>' :: rest'
    · obtain ⟨rest', rfl⟩ := htwo
      exact Nat.le_succ _
    · rw [atHash_of_greater fun rest' heq => htwo ⟨rest', heq⟩]
  · rw [atHash_of_word hminus hgreater hspace]
    exact length_wordAfter_le _ _

theorem atHash_of_append (h : atHash (cs ++ z) = (t, tail ++ z)) : atHash cs = (t, tail) := by
  cases cs with
  | nil => exact takesOrLeaves_atHash.eq_of_append rfl h
  | cons c cs =>
      rw [List.cons_append] at h
      by_cases hminus : c = '-'
      · subst hminus
        obtain ⟨rfl, htail⟩ := Prod.mk.inj h
        rw [(List.append_left_inj z).1 htail]
        rfl
      by_cases hspace : c = ' '
      · subst hspace
        obtain ⟨rfl, htail⟩ := Prod.mk.inj h
        rw [← (List.append_left_inj z).1 ((List.cons_append).trans htail)]
        rfl
      by_cases hgreater : c = '>'
      · subst hgreater
        by_cases htwo : ∃ cs', cs ++ z = '>' :: cs'
        · obtain ⟨cs', hcs'⟩ := htwo
          rw [hcs'] at h
          obtain ⟨rfl, rfl⟩ := Prod.mk.inj h
          rw [(List.append_left_inj z).1 (hcs'.trans List.cons_append.symm)]
          rfl
        · rw [atHash_of_greater fun cs' heq => htwo ⟨cs', heq⟩] at h
          obtain ⟨rfl, htail⟩ := Prod.mk.inj h
          have hone : ∀ cs', cs ≠ '>' :: cs' := by
            rintro cs' rfl
            exact htwo ⟨cs' ++ z, rfl⟩
          rw [atHash_of_greater hone, (List.append_left_inj z).1 htail]
      · rw [atHash_of_word hminus hgreater hspace] at h ⊢
        exact wordAfter_of_append h

theorem eq_of_atHash (h : atHash cs = (t, tail)) : '#' :: cs = t.text.toList ++ tail := by
  unfold atHash at h
  split at h <;> obtain ⟨rfl, rfl⟩ := Prod.mk.inj h
  all_goals simp [text, delimitedText]

theorem takesOrLeaves_atTwoAts : TakesOrLeaves atTwoAts (.symbol "@@") := by
  intro c rest
  by_cases hspace : c = ' '
  · subst hspace
    exact .inl rfl
  · rw [atTwoAts_of_word hspace]
    exact .inr (length_wordAfter_le _ _)

theorem atTwoAts_of_append (h : atTwoAts (cs ++ z) = (t, tail ++ z)) :
    atTwoAts cs = (t, tail) := by
  cases cs with
  | nil => exact takesOrLeaves_atTwoAts.eq_of_append rfl h
  | cons c cs =>
      rw [List.cons_append] at h
      by_cases hspace : c = ' '
      · subst hspace
        obtain ⟨rfl, htail⟩ := Prod.mk.inj h
        rw [← (List.append_left_inj z).1 (List.cons_append.trans htail)]
        rfl
      · rw [atTwoAts_of_word hspace] at h ⊢
        exact wordAfter_of_append h

theorem eq_of_atTwoAts (h : atTwoAts cs = (t, tail)) :
    '@' :: '@' :: cs = t.text.toList ++ tail := by
  unfold atTwoAts at h
  split at h <;> obtain ⟨rfl, rfl⟩ := Prod.mk.inj h
  all_goals simp [text, delimitedText]

theorem takesOrLeaves_atAt : TakesOrLeaves atAt (.symbol "@") := by
  intro c rest
  by_cases hgreater : c = '>'
  · subst hgreater
    exact .inr (Nat.le_refl _)
  by_cases hquestion : c = '?'
  · subst hquestion
    exact .inr (Nat.le_refl _)
  by_cases hat : c = '@'
  · subst hat
    exact .inr (atTwoAts_suffix rest).length_le
  rw [atAt_of_word hgreater hquestion hat]
  split
  · exact .inl rfl
  · exact .inr (length_wordAfter_le _ _)

theorem atAt_of_append (h : atAt (cs ++ z) = (t, tail ++ z)) : atAt cs = (t, tail) := by
  cases cs with
  | nil => exact takesOrLeaves_atAt.eq_of_append rfl h
  | cons c cs =>
      rw [List.cons_append] at h
      by_cases hgreater : c = '>'
      · subst hgreater
        obtain ⟨rfl, htail⟩ := Prod.mk.inj h
        rw [(List.append_left_inj z).1 htail]
        rfl
      by_cases hquestion : c = '?'
      · subst hquestion
        obtain ⟨rfl, htail⟩ := Prod.mk.inj h
        rw [(List.append_left_inj z).1 htail]
        rfl
      by_cases hat : c = '@'
      · subst hat
        exact atTwoAts_of_append h
      rw [atAt_of_word hgreater hquestion hat] at h ⊢
      split at h
      · rename_i hquote
        obtain ⟨rfl, htail⟩ := Prod.mk.inj h
        rw [if_pos hquote, ← (List.append_left_inj z).1 (List.cons_append.trans htail)]
      · rename_i hquote
        rw [if_neg hquote]
        exact wordAfter_of_append h

theorem eq_of_atAt (h : atAt cs = (t, tail)) : '@' :: cs = t.text.toList ++ tail := by
  unfold atAt at h
  split at h
  case h_4 => exact eq_of_atTwoAts h
  case h_5 =>
    split at h <;> obtain ⟨rfl, rfl⟩ := Prod.mk.inj h
    all_goals simp [text, delimitedText]
  all_goals
    obtain ⟨rfl, rfl⟩ := Prod.mk.inj h
    simp [text]

theorem cutsShort_atDollar : CutsShort atDollar := by
  intro cs tail z t h
  by_cases htag : ∃ after, (cs ++ z).dropWhile isTagPart = '$' :: after
  · obtain ⟨after, hafter⟩ := htag
    rw [atDollar_of_tag hafter] at h
    obtain ⟨⟨body, tail'⟩, hbody, heq⟩ := Option.map_eq_some_iff.1 h
    obtain ⟨rfl, rfl⟩ := Prod.mk.inj heq
    obtain ⟨after', rfl, hcs, htake⟩ := dropWhile_cons_of_append hafter (upTo_suffix hbody)
    rw [atDollar_of_tag hcs, htake, cutsShort_upTo hbody]
    rfl
  · rw [atDollar_of_not_tag fun after heq => htag ⟨after, heq⟩] at h
    obtain ⟨rfl, hdrop⟩ := Prod.mk.inj (Option.some.inj h)
    obtain ⟨hcs, htake⟩ := dropWhile_of_append hdrop
    have hno : ∀ after, cs.dropWhile isTagPart ≠ '$' :: after := by
      rintro after heq
      exact htag ⟨after ++ z, by rw [hdrop, ← hcs, heq]; rfl⟩
    rw [atDollar_of_not_tag hno, hcs, htake]

theorem eq_of_atDollar (h : atDollar cs = some (t, tail)) : '$' :: cs = t.text.toList ++ tail := by
  have hcs := cs.takeWhile_append_dropWhile (p := isTagPart)
  by_cases htag : ∃ after, cs.dropWhile isTagPart = '$' :: after
  · obtain ⟨after, hafter⟩ := htag
    rw [atDollar_of_tag hafter] at h
    obtain ⟨⟨body, tail'⟩, hbody, heq⟩ := Option.map_eq_some_iff.1 h
    obtain ⟨rfl, rfl⟩ := Prod.mk.inj heq
    rw [hafter, (upTo_append hbody).1] at hcs
    simpa [text] using hcs.symm
  · rw [atDollar_of_not_tag fun after heq => htag ⟨after, heq⟩] at h
    obtain ⟨rfl, rfl⟩ := Prod.mk.inj (Option.some.inj h)
    simp [text, hcs]

theorem cutsShort_markedString {marker : QuoteMarker} :
    CutsShort fun cs => markedString cs marker := by
  intro cs tail z t h
  cases marker with
  | national =>
      exact cutsShort_controlQuoted.map (fun body => nationalString (String.ofList body)) h
  | binary => exact cutsShort_controlQuoted.map (fun body => binary (String.ofList body)) h
  | escaped =>
      exact cutsShort_escapedQuoted.map (fun body => escapedString (String.ofList body)) h

theorem cutsShort_delimitedWord {d : Delimiter} : CutsShort (delimitedWord d) := by
  intro cs tail z t h
  exact cutsShort_quoted.map (fun value => word ⟨String.ofList value, some d⟩) h

theorem cutsShort_atLetter : CutsShort (atLetter c) := by
  intro cs tail z t h
  by_cases hword : quoteMarker? c = none ∨ ∀ body, cs ++ z ≠ '\'' :: body
  · have hword' : quoteMarker? c = none ∨ ∀ body, cs ≠ '\'' :: body := by
      refine hword.imp_right fun hno body heq => hno (body ++ z) ?_
      rw [heq]
      rfl
    rw [atLetter_of_word hword] at h
    rw [atLetter_of_word hword', wordAfter_of_append (Option.some.inj h)]
  · push Not at hword
    obtain ⟨marker, hmarker⟩ := Option.ne_none_iff_exists'.1 hword.1
    obtain ⟨body, hbody⟩ := hword.2
    rw [hbody, atLetter_of_quote hmarker] at h
    obtain ⟨body', rfl⟩ := exists_of_suffix (markedString_suffix h)
    rw [(List.append_left_inj z).1 (hbody.trans List.cons_append.symm), atLetter_of_quote hmarker]
    exact cutsShort_markedString h

theorem cutsShort_nameOrOperator : CutsShort (nameOrOperator c) := by
  intro cs tail z t h
  unfold nameOrOperator at h ⊢
  by_cases hhash : c = '#'
  · rw [if_pos hhash] at h ⊢
    rw [atHash_of_append (Option.some.inj h)]
  rw [if_neg hhash] at h ⊢
  by_cases hat : c = '@'
  · rw [if_pos hat] at h ⊢
    rw [atAt_of_append (Option.some.inj h)]
  rw [if_neg hat] at h ⊢
  by_cases hdollar : c = '$'
  · rw [if_pos hdollar] at h ⊢
    exact cutsShort_atDollar h
  rw [if_neg hdollar] at h ⊢
  by_cases hquestion : c = '?'
  · rw [if_pos hquestion] at h ⊢
    obtain ⟨rfl, htail⟩ := Prod.mk.inj (Option.some.inj h)
    obtain ⟨hdrop, htake⟩ := dropWhile_of_append htail
    rw [hdrop, htake]
  rw [if_neg hquestion] at h ⊢
  by_cases hstart : isIdentifierStart c = true
  · rw [if_pos hstart] at h ⊢
    exact cutsShort_atLetter h
  · rw [if_neg hstart] at h ⊢
    rw [operator_of_append (Option.some.inj h)]

theorem cutsShort_visible : CutsShort (visible c) := by
  intro cs tail z t h
  unfold visible at h ⊢
  by_cases hquote : c = '\''
  · rw [if_pos hquote] at h ⊢
    exact cutsShort_quoted.map (fun body => string (String.ofList body)) h
  rw [if_neg hquote] at h ⊢
  by_cases hbracket : c = '['
  · rw [if_pos hbracket] at h ⊢
    exact cutsShort_delimitedWord h
  rw [if_neg hbracket] at h ⊢
  by_cases hdouble : c = '"'
  · rw [if_pos hdouble] at h ⊢
    exact cutsShort_delimitedWord h
  rw [if_neg hdouble] at h ⊢
  by_cases hnumber : (c.isDigit || c = '.') = true
  · rw [if_pos hnumber] at h ⊢
    rw [numeral_of_append (Option.some.inj h)]
  · rw [if_neg hnumber] at h ⊢
    exact cutsShort_nameOrOperator h

theorem visible_of_next (h : next c cs = some (t, tail)) (ht : t ≠ .blank) :
    visible c cs = some (t, tail) ∧ Unicode.isBlank c = false ∧
      ¬ (c = '-' ∧ cs.head? = some '-') ∧ ¬ (c = '/' ∧ cs.head? = some '*') := by
  unfold next at h
  split at h
  · cases h
    exact absurd rfl ht
  split at h
  · cases h
    exact absurd rfl ht
  split at h
  · obtain ⟨after, -, heq⟩ := Option.map_eq_some_iff.1 h
    cases heq
    exact absurd rfl ht
  · rename_i hblank hline hblock
    exact ⟨h, by simpa using hblank, hline, hblock⟩

/-- A token does not depend on what is left behind it. -/
theorem next_of_append (h : next c (cs ++ z) = some (t, tail ++ z)) (ht : t ≠ .blank) :
    next c cs = some (t, tail) := by
  obtain ⟨hvisible, hblank, hline, hblock⟩ := visible_of_next h ht
  have hhead : ∀ d, cs.head? = some d → (cs ++ z).head? = some d := by
    intro d hd
    obtain ⟨cs', rfl⟩ := List.head?_eq_some_iff.1 hd
    rfl
  unfold next
  rw [if_neg (by simp [hblank]), if_neg fun hdash => hline ⟨hdash.1, hhead _ hdash.2⟩,
    if_neg fun hstar => hblock ⟨hstar.1, hhead _ hstar.2⟩]
  exact cutsShort_visible hvisible

/-- Tokens of which not every spelling is kept. -/
def IsRespelled : Token → Prop
  | word ⟨_, some _⟩ | nationalString _ | escapedString _ | binary _ => True
  | symbol t => t = "<>"
  | _ => False

theorem isRespelled_markedString {marker : QuoteMarker}
    (h : markedString cs marker = some (t, tail)) :
    t.IsRespelled := by
  cases marker
  all_goals
    obtain ⟨_, -, heq⟩ := Option.map_eq_some_iff.1 h
    cases heq
    trivial

theorem eq_of_atLetter (h : atLetter c cs = some (t, tail)) :
    t.IsRespelled ∨ c :: cs = t.text.toList ++ tail := by
  unfold atLetter at h
  split at h
  · exact .inl (isRespelled_markedString h)
  · obtain ⟨rfl, rfl⟩ := Prod.mk.inj (Option.some.inj h)
    exact .inr (by simp [text, delimitedText])

theorem eq_of_nameOrOperator (h : nameOrOperator c cs = some (t, tail)) :
    t.IsRespelled ∨ c :: cs = t.text.toList ++ tail := by
  unfold nameOrOperator at h
  split at h
  · rename_i hhash
    rw [hhash]
    exact .inr (eq_of_atHash (Option.some.inj h))
  split at h
  · rename_i hat
    rw [hat]
    exact .inr (eq_of_atAt (Option.some.inj h))
  split at h
  · rename_i hdollar
    rw [hdollar]
    exact .inr (eq_of_atDollar h)
  split at h
  · rename_i hquestion
    obtain ⟨rfl, rfl⟩ := Prod.mk.inj (Option.some.inj h)
    exact .inr (by simp [text, hquestion])
  split at h
  · exact eq_of_atLetter h
  · refine (eq_of_operator (Option.some.inj h)).imp_left ?_
    rintro rfl
    rfl

/-- What is read is spelled as it is written back, a few tokens apart. -/
theorem eq_of_visible (h : visible c cs = some (t, tail)) :
    t.IsRespelled ∨ c :: cs = t.text.toList ++ tail := by
  unfold visible at h
  split at h
  · rename_i hquote
    obtain ⟨⟨body, tail'⟩, hbody, heq⟩ := Option.map_eq_some_iff.1 h
    obtain ⟨rfl, rfl⟩ := Prod.mk.inj heq
    exact .inr (by simp [text, quotedText, hquote, (eq_of_quoted hbody).1])
  split at h
  · obtain ⟨_, -, heq⟩ := Option.map_eq_some_iff.1 h
    cases heq
    exact .inl trivial
  split at h
  · obtain ⟨_, -, heq⟩ := Option.map_eq_some_iff.1 h
    cases heq
    exact .inl trivial
  split at h
  · exact .inr (eq_of_numeral (Option.some.inj h))
  · exact eq_of_nameOrOperator h

end QueryShape.Token
