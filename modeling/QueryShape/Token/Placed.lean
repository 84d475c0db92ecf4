import QueryShape.Token.Lexer

namespace QueryShape

namespace Token

theorem exponent_suffix (cs : List Char) : (exponent cs).2 <:+ cs := by
  unfold exponent
  split
  · exact List.suffix_rfl
  · dsimp only
    split
    · exact (List.dropWhile_suffix _).trans
        ((List.drop_suffix _ _).trans (List.suffix_cons _ _))
    · exact List.suffix_rfl

theorem numberAfter_suffix (mantissa rest : List Char) :
    (numberAfter mantissa rest).2 <:+ rest := by
  have h := exponent_suffix rest
  unfold numberAfter
  dsimp only
  split
  · rename_i heq
    rw [heq] at h
    exact (List.suffix_cons _ _).trans h
  · exact h

theorem numeral_suffix {c : Char} (rest : List Char) (h : (c.isDigit || c = '.') = true) :
    (numeral (c :: rest)).2 <:+ rest := by
  have key : (c :: rest).dropWhile Char.isDigit = c :: rest ∧ c = '.' ∨
      (c :: rest).dropWhile Char.isDigit <:+ rest := by
    by_cases hc : c.isDigit = true
    · exact .inr (by simpa [hc] using List.dropWhile_suffix _)
    · exact .inl (by simp_all)
  unfold numeral
  dsimp only
  split
  · rename_i after heq
    rw [heq] at key
    rcases key with ⟨hk, rfl⟩ | hk
    · simp at hk
    · split
      · exact (List.dropWhile_suffix _).trans ((List.suffix_cons _ _).trans hk)
      · exact hk
  · rename_i after heq
    rw [heq] at key
    have hs : after <:+ rest := by
      rcases key with ⟨hk, rfl⟩ | hk
      · simp_all
      · exact (List.suffix_cons _ _).trans hk
    split
    · exact hs
    · exact (numberAfter_suffix _ _).trans ((List.dropWhile_suffix _).trans hs)
  · rename_i h1 h2
    rcases key with ⟨hk, rfl⟩ | hk
    · exact absurd hk (h2 rest)
    · exact (numberAfter_suffix _ _).trans hk

theorem wordAfter_suffix (start rest : List Char) : (wordAfter start rest).2 <:+ rest :=
  List.dropWhile_suffix _

theorem atHash_suffix (rest : List Char) : (atHash rest).2 <:+ rest := by
  unfold atHash
  split
  · exact List.suffix_rfl
  · exact List.suffix_cons _ _
  · exact (List.suffix_cons _ _).trans (List.suffix_cons _ _)
  · exact List.suffix_cons _ _
  · exact List.suffix_rfl
  · exact (wordAfter_suffix _ _).trans (List.suffix_cons _ _)

theorem atTwoAts_suffix (rest : List Char) : (atTwoAts rest).2 <:+ rest := by
  unfold atTwoAts
  split
  · exact List.suffix_rfl
  · exact List.suffix_rfl
  · exact (wordAfter_suffix _ _).trans (List.suffix_cons _ _)

theorem atAt_suffix (rest : List Char) : (atAt rest).2 <:+ rest := by
  unfold atAt
  split
  · exact List.suffix_rfl
  · exact List.suffix_cons _ _
  · exact List.suffix_cons _ _
  · exact (atTwoAts_suffix _).trans (List.suffix_cons _ _)
  · split
    · exact List.suffix_rfl
    · exact (wordAfter_suffix _ _).trans (List.suffix_cons _ _)

theorem atDollar_suffix {rest tail : List Char} {t : Token}
    (h : atDollar rest = some (t, tail)) : tail <:+ rest := by
  unfold atDollar at h
  dsimp only at h
  split at h
  · rename_i after heq
    obtain ⟨⟨body, tail'⟩, hb, he⟩ := Option.map_eq_some_iff.1 h
    cases he
    refine (upTo_suffix hb).trans ((List.suffix_cons '$' _).trans ?_)
    rw [← heq]
    exact List.dropWhile_suffix _
  · cases h
    exact List.dropWhile_suffix _

theorem operator_suffix (c : Char) (rest : List Char) : (operator c rest).2 <:+ rest := by
  unfold operator
  split
  · rename_i o ho
    have hmem := List.mem_of_find?_eq_some ho
    have hpos : ∀ o ∈ operators, 0 < o.length := by decide
    obtain ⟨n, hn⟩ := Nat.exists_eq_add_one.2 (hpos o hmem)
    simp only [hn, List.drop_succ_cons]
    exact List.drop_suffix _ _
  · exact List.suffix_rfl

theorem markedString_suffix {cs tail : List Char} {t : Token} {m : QuoteMarker}
    (h : markedString cs m = some (t, tail)) : tail <:+ cs := by
  cases m <;> obtain ⟨⟨body, tail'⟩, hb, he⟩ := Option.map_eq_some_iff.1 h <;> cases he
  · exact controlQuoted_suffix hb
  · exact controlQuoted_suffix hb
  · exact escapedQuoted_suffix hb

theorem atLetter_suffix {c : Char} {rest tail : List Char} {t : Token}
    (h : atLetter c rest = some (t, tail)) : tail <:+ rest := by
  unfold atLetter at h
  split at h
  · exact (markedString_suffix h).trans (List.suffix_cons _ _)
  · cases h
    exact List.dropWhile_suffix _

theorem afterLine_suffix (cs : List Char) : afterLine cs <:+ cs :=
  (List.drop_suffix _ _).trans (List.dropWhile_suffix _)

theorem delimitedWord_suffix {d : Delimiter} {cs tail : List Char} {t : Token}
    (h : delimitedWord d cs = some (t, tail)) : tail <:+ cs := by
  obtain ⟨⟨body, tail'⟩, hb, he⟩ := Option.map_eq_some_iff.1 h
  cases he
  exact quoted_suffix hb

theorem nameOrOperator_suffix {c : Char} {rest tail : List Char} {t : Token}
    (h : nameOrOperator c rest = some (t, tail)) : tail <:+ rest := by
  unfold nameOrOperator at h
  split at h
  · have hs := atHash_suffix rest
    rwa [Option.some.inj h] at hs
  split at h
  · have hs := atAt_suffix rest
    rwa [Option.some.inj h] at hs
  split at h
  · exact atDollar_suffix h
  split at h
  · cases h
    exact List.dropWhile_suffix _
  split at h
  · exact atLetter_suffix h
  · have hs := operator_suffix c rest
    rwa [Option.some.inj h] at hs

theorem visible_suffix {c : Char} {rest tail : List Char} {t : Token}
    (h : visible c rest = some (t, tail)) : tail <:+ rest := by
  unfold visible at h
  split at h
  · obtain ⟨⟨body, tail'⟩, hb, he⟩ := Option.map_eq_some_iff.1 h
    cases he
    exact quoted_suffix hb
  split at h
  · exact delimitedWord_suffix h
  split at h
  · exact delimitedWord_suffix h
  split at h
  · rename_i hc
    have hs := numeral_suffix rest hc
    rwa [Option.some.inj h] at hs
  · exact nameOrOperator_suffix h

theorem next_suffix {c : Char} {rest tail : List Char} {t : Token}
    (h : next c rest = some (t, tail)) : tail <:+ rest := by
  unfold next at h
  split at h
  · cases h
    split
    · exact List.drop_suffix _ _
    · exact List.suffix_rfl
  split at h
  · cases h
    exact (afterLine_suffix _).trans (List.drop_suffix _ _)
  split at h
  · obtain ⟨after, ha, he⟩ := Option.map_eq_some_iff.1 h
    obtain ⟨⟨body, after'⟩, hb, rfl⟩ := Option.map_eq_some_iff.1 ha
    cases he
    exact (upTo_suffix hb).trans (List.drop_suffix _ _)
  · exact visible_suffix h

end Token

namespace PlacedToken

/-- The tokens of a text that starts after `offset` characters. -/
def scanFrom (offset : Nat) (cs : List Char) : Option (List PlacedToken) :=
  match cs with
  | [] => some []
  | c :: rest =>
      match h : Token.next c rest with
      | none => none
      | some (t, tail) =>
          (scanFrom (offset + (rest.length + 1 - tail.length)) tail).map (⟨t, offset⟩ :: ·)
termination_by cs.length
decreasing_by
  have := (Token.next_suffix h).length_le
  simp only [List.length_cons]
  omega

end PlacedToken

/-- The tokens of a text, blanks included, each with the number of characters before it. None if the
text has no reading. -/
def placedTokens (sql : String) : Option (List PlacedToken) :=
  PlacedToken.scanFrom 0 sql.toList

def tokens (sql : String) : Option (List Token) :=
  (placedTokens sql).map (·.map (·.token))

end QueryShape
