import Mathlib.Data.List.Find
import QueryShape.Proofs.GlobalTokens.Readers
import QueryShape.Token.Placed

namespace QueryShape

namespace Token

/-- Texts that tokens quote. -/
def IsLiteral : Token → Prop
  | string _ | nationalString _ | escapedString _ | binary _ | dollarString _ _ => True
  | _ => False

/-- Words without delimiters. -/
def IsBare : Token → Prop
  | word ⟨_, none⟩ => True
  | _ => False

/-- Tokens that are neither blank nor words nor hashes. -/
def IsSign : Token → Prop
  | blank | word _ | hash => False
  | _ => True

end Token

namespace TempTable

open QueryShape.Token

variable {insertion rest tail : List Char} {before after : Option Char} {c : Char}
  {t t' : Token} {ts ts' : List Token}

/-- A token of a text that stands after `before`, the token in its place where names are written
into, and the character that the text behind it stands after. -/
inductive Renamed (insertion : List Char) (before : Option Char) :
    Token → Token → Option Char → Prop
  | blank {after : Option Char} (h : endsName after = true) :
      Renamed insertion before .blank .blank after
  | bare (value : List Char) (after : Option Char) : Renamed insertion before
      (.word ⟨String.ofList value, none⟩)
      (.word ⟨String.ofList (insertInNames insertion before value), none⟩) after
  | delimited (d : Delimiter) (value : List Char) (after : Option Char) :
      Renamed insertion before (.word ⟨String.ofList value, some d⟩)
        (.word ⟨String.ofList (insertInNames insertion (some d.opening) value), some d⟩) after
  | hash (after : Option Char) : Renamed insertion before .hash .hash after
  | literal {t t' : Token} (h : t.IsLiteral) (h' : t'.IsLiteral) (after : Option Char) :
      Renamed insertion before t t' after
  | sign {t : Token} (h : t.IsSign) (after : Option Char) : Renamed insertion before t t after

/-- What is read where names are written into a text, by what is read in the text. -/
def ReadsAlike (insertion : List Char) (before : Option Char)
    (r r' : Option (Token × List Char)) : Prop :=
  ∀ t tail, r = some (t, tail) → ∃ t' after, r' = some (t', insertInNames insertion after tail) ∧
    Renamed insertion before t t' after

theorem readsAlike_some {r r' : Token × List Char}
    (htail : r'.2 = insertInNames insertion after r.2)
    (h : Renamed insertion before r.1 r'.1 after) :
    ReadsAlike insertion before (some r) (some r') := by
  rintro t tail heq
  obtain rfl := Option.some.inj heq
  exact ⟨r'.1, after, by rw [← htail], h⟩

theorem readsAlike_map {α : Type} {r r' : Option (α × List Char)}
    {make : α × List Char → Token × List Char}
    (h : ∀ p, r = some p →
      ∃ p', r' = some p' ∧ ReadsAlike insertion before (some (make p)) (some (make p'))) :
    ReadsAlike insertion before (r.map make) (r'.map make) := by
  intro t tail heq
  obtain ⟨p, hp, heq⟩ := Option.map_eq_some_iff.1 heq
  obtain ⟨p', hp', halike⟩ := h p hp
  rw [hp']
  exact halike t tail (congrArg some heq)

theorem reachesAcross_isIdentifierPart (hfiller : IsFiller insertion) :
    ReachesAcross insertion isIdentifierPart :=
  fun _ => ⟨hfiller.identifierParts, fun _ _ => isIdentifierPart_of_startsName⟩

theorem readsAlike_wordAfter (hfiller : IsFiller insertion) {start start' : List Char}
    {inside : Option Char} (hstart : ∀ cs, insertInNames insertion before (start ++ cs) =
      start' ++ insertInNames insertion inside cs) (rest : List Char) :
    ReadsAlike insertion before (some (wordAfter start rest))
      (some (wordAfter start' (insertInNames insertion inside rest))) := by
  have hreaches := reachesAcross_isIdentifierPart hfiller
  obtain ⟨after, hafter⟩ := exists_dropWhile_insertInNames hreaches inside rest
  unfold wordAfter
  rw [takeWhile_insertInNames hreaches, hafter, ← hstart]
  exact readsAlike_some rfl (.bare _ after)

theorem atHash_of_word (hminus : c ≠ '-') (hgreater : c ≠ '>') (hspace : c ≠ ' ') :
    atHash (c :: rest) = wordAfter ['#', c] rest := by
  unfold atHash
  split <;> simp_all

theorem atHash_of_identifierPart (h : isIdentifierPart c = true) :
    atHash (c :: rest) = wordAfter ['#', c] rest := by
  apply atHash_of_word
  · rintro rfl
    cases h
  · rintro rfl
    cases h
  · rintro rfl
    cases h

theorem atHash_of_greater (h : ∀ rest', rest ≠ '>' :: rest') :
    atHash ('>' :: rest) = (.symbol "#>", rest) := by
  unfold atHash
  split <;> grind

theorem wordAfter_append {xs : List Char} (h : ∀ d ∈ xs, isIdentifierPart d = true)
    (start rest : List Char) : wordAfter start (xs ++ rest) = wordAfter (start ++ xs) rest := by
  unfold wordAfter
  rw [List.takeWhile_append_of_pos h, List.dropWhile_append_of_pos h, List.append_assoc]

theorem atHash_append {xs : List Char} (hxs : ∀ d ∈ xs, isIdentifierPart d = true)
    (hc : isIdentifierPart c = true) (rest : List Char) :
    atHash (xs ++ c :: rest) = wordAfter ('#' :: (xs ++ [c])) rest := by
  cases xs with
  | nil => exact atHash_of_identifierPart hc
  | cons x xs =>
      obtain ⟨hx, hxs⟩ := List.forall_mem_cons.1 hxs
      have hparts : ∀ d ∈ xs ++ [c], isIdentifierPart d = true := by
        simpa [or_imp, forall_and] using And.intro hxs hc
      rw [List.cons_append, atHash_of_identifierPart hx]
      have happend := wordAfter_append hparts ['#', x] rest
      simpa using happend

theorem insertInNames_hash (insertion : List Char) (before : Option Char) (c : Char)
    (rest cs : List Char) : insertInNames insertion before (['#', c] ++ cs) =
      ('#' :: (writtenAfter insertion before '#' (c :: rest) ++ [c])) ++
        insertInNames insertion (some c) cs := by
  rw [List.cons_append, List.singleton_append, insertInNames_cons,
    insertInNames_cons_inside (by decide),
    writtenAfter_congr (show startsName (c :: cs) = startsName (c :: rest) from rfl)]
  simp

/-- What is written after the hash of a name becomes part of the word that the hash begins. -/
theorem readsAlike_atHash (hfiller : IsFiller insertion) (before : Option Char)
    (rest : List Char) : ReadsAlike insertion before (some (atHash rest))
      (some (atHash (writtenAfter insertion before '#' rest ++
        insertInNames insertion (some '#') rest))) := by
  cases rest with
  | nil =>
      have hnone : writtenAfter insertion before '#' [] = [] := by simp [writtenAfter, startsName]
      rw [hnone]
      exact readsAlike_some rfl (.hash before)
  | cons c rest =>
      have hreads := readsAlike_wordAfter hfiller
        (insertInNames_hash insertion before c rest) rest
      rw [insertInNames_cons_inside (by decide)]
      -- Something is written behind the hash only where it begins a name.
      by_cases hstarts : startsName (c :: rest) = true
      · have hc := isIdentifierPart_of_startsName hstarts
        have hwritten : ∀ d ∈ writtenAfter insertion before '#' (c :: rest),
            isIdentifierPart d = true :=
          fun d hd => hfiller.identifierParts d (mem_of_mem_writtenAfter hd)
        rw [atHash_of_identifierPart hc, atHash_append hwritten hc]
        exact hreads
      · have hnone : writtenAfter insertion before '#' (c :: rest) = [] := by
          simp [writtenAfter, hstarts]
        rw [hnone] at hreads ⊢
        rw [List.nil_append]
        by_cases hminus : c = '-'
        · subst hminus
          exact readsAlike_some rfl (.sign (by trivial) (some '-'))
        by_cases hspace : c = ' '
        · subst hspace
          have htail := @insertInNames_cons_of_ne insertion rest before ' ' (by decide)
          exact readsAlike_some htail.symm (.hash before)
        by_cases hgreater : c = '>'
        · subst hgreater
          by_cases htwo : ∃ rest', rest = '>' :: rest'
          · obtain ⟨rest', rfl⟩ := htwo
            rw [insertInNames_cons_of_ne (by decide)]
            exact readsAlike_some rfl (.sign (by trivial) (some '>'))
          · rw [atHash_of_greater fun rest' heq => htwo ⟨rest', heq⟩, atHash_of_greater
              fun rest' heq => htwo (exists_of_insertInNames_eq_cons heq)]
            exact readsAlike_some rfl (.sign (by trivial) (some '>'))
        · rw [atHash_of_word hminus hgreater hspace, atHash_of_word hminus hgreater hspace]
          exact hreads

theorem atTwoAts_of_word (hspace : c ≠ ' ') :
    atTwoAts (c :: rest) = wordAfter ['@', '@', c] rest := by
  unfold atTwoAts
  split <;> grind

theorem readsAlike_atTwoAts (hfiller : IsFiller insertion) (before : Option Char)
    (rest : List Char) : ReadsAlike insertion before (some (atTwoAts rest))
      (some (atTwoAts (insertInNames insertion (some '@') rest))) := by
  cases rest with
  | nil => exact readsAlike_some rfl (.sign (by trivial) before)
  | cons c rest =>
      have hword (cs : List Char) : insertInNames insertion before (['@', '@', c] ++ cs) =
          ['@', '@', c] ++ insertInNames insertion (some c) cs := by
        simp only [List.cons_append, List.nil_append]
        rw [insertInNames_cons_of_ne (by decide), insertInNames_cons_of_ne (by decide),
          insertInNames_cons_inside (by decide)]
      have hreads := readsAlike_wordAfter hfiller hword rest
      rw [insertInNames_cons_inside (by decide)]
      by_cases hspace : c = ' '
      · subst hspace
        have htail := @insertInNames_cons_of_ne insertion rest before ' ' (by decide)
        exact readsAlike_some htail.symm (.sign (by trivial) before)
      · rw [atTwoAts_of_word hspace, atTwoAts_of_word hspace]
        exact hreads

theorem atAt_of_word (hgreater : c ≠ '>') (hquestion : c ≠ '?') (hat : c ≠ '@') :
    atAt (c :: rest) =
      if c = ' ' ∨ c = '\'' ∨ c = '"' ∨ c = '\x60' then (.symbol "@", c :: rest)
      else wordAfter ['@', c] rest := by
  unfold atAt
  split <;> grind

theorem readsAlike_atAt (hfiller : IsFiller insertion) (before : Option Char)
    (rest : List Char) : ReadsAlike insertion before (some (atAt rest))
      (some (atAt (insertInNames insertion (some '@') rest))) := by
  cases rest with
  | nil => exact readsAlike_some rfl (.sign (by trivial) before)
  | cons c rest =>
      have hword (cs : List Char) : insertInNames insertion before (['@', c] ++ cs) =
          ['@', c] ++ insertInNames insertion (some c) cs := by
        simp only [List.cons_append, List.nil_append]
        rw [insertInNames_cons_of_ne (by decide), insertInNames_cons_inside (by decide)]
      have hreads := readsAlike_wordAfter hfiller hword rest
      have htail := @insertInNames_cons_inside insertion rest c '@' (by decide)
      rw [htail]
      by_cases hgreater : c = '>'
      · subst hgreater
        exact readsAlike_some rfl (.sign (by trivial) (some '>'))
      by_cases hquestion : c = '?'
      · subst hquestion
        exact readsAlike_some rfl (.sign (by trivial) (some '?'))
      by_cases hat : c = '@'
      · subst hat
        exact readsAlike_atTwoAts hfiller before rest
      rw [atAt_of_word hgreater hquestion hat, atAt_of_word hgreater hquestion hat]
      split
      · exact readsAlike_some htail.symm (.sign (by trivial) (some '@'))
      · exact hreads

theorem readsAlike_literal {r r' : Option (List Char × List Char)} (make : List Char → Token)
    (hmake : ∀ body, (make body).IsLiteral) (h : ∀ body tail, r = some (body, tail) →
      ∃ body' after, r' = some (body', insertInNames insertion after tail)) :
    ReadsAlike insertion before (r.map fun (body, tail) => (make body, tail))
      (r'.map fun (body, tail) => (make body, tail)) := by
  apply readsAlike_map
  rintro ⟨body, tail⟩ hr
  obtain ⟨body', after, hr'⟩ := h body tail hr
  exact ⟨_, hr', readsAlike_some rfl (.literal (hmake body) (hmake body') after)⟩

theorem readsAlike_string (hfiller : IsFiller insertion) (before inside : Option Char)
    (cs : List Char) : ReadsAlike insertion before
      ((quoted '\'' cs).map fun (body, tail) => (.string (String.ofList body), tail))
      ((quoted '\'' (insertInNames insertion inside cs)).map fun (body, tail) =>
        (.string (String.ofList body), tail)) := by
  apply readsAlike_literal (fun body => .string (String.ofList body)) fun _ => trivial
  intro body tail h
  exact ⟨_, exists_quoted_insertInNames hfiller (by decide) h inside⟩

theorem readsAlike_markedString (hfiller : IsFiller insertion) (before inside : Option Char)
    (cs : List Char) (marker : QuoteMarker) : ReadsAlike insertion before (markedString cs marker)
      (markedString (insertInNames insertion inside cs) marker) := by
  cases marker with
  | national =>
      apply readsAlike_literal (fun body => .nationalString (String.ofList body)) fun _ => trivial
      exact fun body tail h => exists_controlQuoted_insertInNames hfiller h inside
  | binary =>
      apply readsAlike_literal (fun body => .binary (String.ofList body)) fun _ => trivial
      exact fun body tail h => exists_controlQuoted_insertInNames hfiller h inside
  | escaped =>
      apply readsAlike_literal (fun body => .escapedString (String.ofList body)) fun _ => trivial
      exact fun body tail h => exists_escapedQuoted_insertInNames hfiller h inside

theorem readsAlike_delimitedWord (hfiller : IsFiller insertion) (before : Option Char)
    (d : Delimiter) (cs : List Char) : ReadsAlike insertion before (delimitedWord d cs)
      (delimitedWord d (insertInNames insertion (some d.opening) cs)) := by
  apply readsAlike_map
  rintro ⟨value, tail⟩ h
  have hclosing : isIdentifierPart d.closing = false := by
    cases d <;> decide
  obtain ⟨after, hquoted⟩ :=
    exists_quoted_insertInNames hfiller hclosing h (some d.opening)
  exact ⟨_, hquoted, readsAlike_some rfl (.delimited d value after)⟩

theorem atLetter_of_quote {marker : QuoteMarker} (h : quoteMarker? c = some marker) :
    atLetter c ('\'' :: rest) = markedString rest marker := by
  unfold atLetter
  rw [h]
  rfl

theorem atLetter_of_word (h : quoteMarker? c = none ∨ ∀ body, rest ≠ '\'' :: body) :
    atLetter c rest = some (wordAfter [c] rest) := by
  unfold atLetter
  split <;> grind

theorem readsAlike_atLetter (hfiller : IsFiller insertion) (before : Option Char)
    (hc : c ≠ '#') (rest : List Char) : ReadsAlike insertion before (atLetter c rest)
      (atLetter c (insertInNames insertion (some c) rest)) := by
  by_cases hword : quoteMarker? c = none ∨ ∀ body, rest ≠ '\'' :: body
  · have hword' : quoteMarker? c = none ∨
        ∀ body, insertInNames insertion (some c) rest ≠ '\'' :: body := by
      refine hword.imp_right fun hno body heq => ?_
      obtain ⟨body', hbody'⟩ := exists_of_insertInNames_eq_cons heq
      exact hno body' hbody'
    rw [atLetter_of_word hword, atLetter_of_word hword']
    exact readsAlike_wordAfter hfiller
      (show ∀ cs, insertInNames insertion before ([c] ++ cs) = [c] ++ _ from
        fun cs => insertInNames_cons_of_ne hc) rest
  · push Not at hword
    obtain ⟨marker, hmarker⟩ := Option.ne_none_iff_exists'.1 hword.1
    obtain ⟨body, rfl⟩ := hword.2
    rw [insertInNames_cons_of_ne (by decide), atLetter_of_quote hmarker,
      atLetter_of_quote hmarker]
    exact readsAlike_markedString hfiller before (some '\'') body marker

/-- Whether the tag of a dollar-quoted string can hold a character. -/
def isTagPart (c : Char) : Bool :=
  Unicode.isAlphanumeric c || c == '_'

theorem atDollar_of_tag (h : rest.dropWhile isTagPart = '$' :: tail) : atDollar rest =
    (upTo ('$' :: (rest.takeWhile isTagPart ++ ['$'])) tail).map fun (body, tail) =>
      (.dollarString (String.ofList (rest.takeWhile isTagPart)) (String.ofList body), tail) := by
  unfold isTagPart at h ⊢
  unfold atDollar
  dsimp only
  rw [h]
  rfl

theorem atDollar_of_not_tag (h : ∀ tail, rest.dropWhile isTagPart ≠ '$' :: tail) :
    atDollar rest = some (.placeholder (String.ofList ('$' :: rest.takeWhile isTagPart)),
      rest.dropWhile isTagPart) := by
  unfold isTagPart at h ⊢
  unfold atDollar
  dsimp only
  split
  · rename_i tail heq
    exact absurd heq (h tail)
  · rfl

theorem readsAlike_atDollar (hfiller : IsFiller insertion) (before inside : Option Char)
    (rest : List Char) : ReadsAlike insertion before (atDollar rest)
      (atDollar (insertInNames insertion inside rest)) := by
  have hhash : isTagPart '#' = false := by decide
  obtain ⟨b, hdrop⟩ := exists_dropWhile_insertInNames_of_hash hhash insertion inside rest
  by_cases htag : ∃ tail, rest.dropWhile isTagPart = '$' :: tail
  · obtain ⟨tail, htail⟩ := htag
    rw [htail, insertInNames_cons_of_ne (by decide)] at hdrop
    rw [atDollar_of_tag htail, atDollar_of_tag hdrop, takeWhile_insertInNames_of_hash hhash]
    apply readsAlike_literal (fun body => .dollarString _ (String.ofList body)) fun _ => trivial
    intro body tail' h
    have hclosing : '#' ∉ '$' :: (rest.takeWhile isTagPart ++ ['$']) := by
      simp [not_mem_takeWhile hhash]
    obtain ⟨body', hupTo⟩ := exists_upTo_insertInNames hfiller.noDollar hclosing h (some '$')
    exact ⟨body', _, hupTo⟩
  · have hno : ∀ tail, rest.dropWhile isTagPart ≠ '$' :: tail := fun tail heq => htag ⟨tail, heq⟩
    have hno' : ∀ tail, (insertInNames insertion inside rest).dropWhile isTagPart ≠ '$' :: tail :=
      fun tail heq => htag (exists_of_insertInNames_eq_cons (hdrop ▸ heq))
    rw [atDollar_of_not_tag hno, atDollar_of_not_tag hno', takeWhile_insertInNames_of_hash hhash,
      hdrop]
    exact readsAlike_some rfl (.sign (by trivial) b)

theorem isSign_numberAfter (mantissa cs : List Char) : (numberAfter mantissa cs).1.IsSign := by
  unfold numberAfter
  dsimp only
  split <;> trivial

theorem isSign_numeral (cs : List Char) : (numeral cs).1.IsSign := by
  unfold numeral
  dsimp only
  split
  · split <;> trivial
  · split
    · trivial
    · exact isSign_numberAfter _ _
  · exact isSign_numberAfter _ _

theorem isSign_operator (c : Char) (rest : List Char) : (operator c rest).1.IsSign := by
  unfold operator
  split
  · trivial
  · dsimp only
    split_ifs <;> trivial

theorem readsAlike_numeral (insertion : List Char) (before inside : Option Char)
    (cs : List Char) : ReadsAlike insertion before (some (numeral cs))
      (some (numeral (insertInNames insertion inside cs))) := by
  obtain ⟨after, heq⟩ := exists_numeral_insertInNames insertion inside cs
  rw [heq]
  exact readsAlike_some rfl (.sign (isSign_numeral cs) after)

theorem find?_operators_insertInNames (insertion : List Char) (before : Option Char)
    (cs : List Char) :
    (operators.find? fun o => o.toList.isPrefixOf (insertInNames insertion before cs)) =
      operators.find? fun o => o.toList.isPrefixOf cs := by
  have hhashes : ∀ o ∈ operators, '#' ∉ o.toList := by decide
  exact List.find?_congr fun o ho => isPrefixOf_insertInNames (hhashes o ho)

theorem readsAlike_operator (insertion : List Char) (before : Option Char) (hc : c ≠ '#')
    (rest : List Char) : ReadsAlike insertion before (some (operator c rest))
      (some (operator c (insertInNames insertion (some c) rest))) := by
  have hsign := isSign_operator c rest
  have hcs := @insertInNames_cons_of_ne insertion rest before c hc
  have hfind := find?_operators_insertInNames insertion before (c :: rest)
  rw [hcs] at hfind
  unfold operator at hsign ⊢
  rw [hfind]
  cases hfound : operators.find? fun o => o.toList.isPrefixOf (c :: rest) with
  | none =>
      rw [hfound] at hsign
      exact readsAlike_some rfl (.sign hsign (some c))
  | some o =>
      have hhashes : ∀ o ∈ operators, '#' ∉ o.toList := by decide
      have htake : (c :: rest).take o.length = o.toList := by
        have hprefix := List.find?_some hfound
        have heq := List.prefix_iff_eq_take.1 (List.isPrefixOf_iff_prefix.1 hprefix)
        rw [String.length_toList] at heq
        exact heq.symm
      obtain ⟨after, hdrop⟩ := exists_drop_insertInNames insertion before
        (htake ▸ hhashes o (List.mem_of_find?_eq_some hfound))
      rw [hcs] at hdrop
      exact readsAlike_some hdrop (.sign (by trivial) after)

theorem readsAlike_nameOrOperator (hfiller : IsFiller insertion) (before : Option Char) (c : Char)
    (rest : List Char) : ReadsAlike insertion before (nameOrOperator c rest)
      (nameOrOperator c (writtenAfter insertion before c rest ++
        insertInNames insertion (some c) rest)) := by
  unfold nameOrOperator
  by_cases hhash : c = '#'
  · subst hhash
    exact readsAlike_atHash hfiller before rest
  rw [if_neg hhash, if_neg hhash, writtenAfter_of_ne hhash, List.nil_append]
  by_cases hat : c = '@'
  · subst hat
    exact readsAlike_atAt hfiller before rest
  rw [if_neg hat, if_neg hat]
  by_cases hdollar : c = '$'
  · subst hdollar
    exact readsAlike_atDollar hfiller before (some '$') rest
  rw [if_neg hdollar, if_neg hdollar]
  by_cases hquestion : c = '?'
  · have hnumeric : Unicode.isNumeric '#' = false := by decide
    obtain ⟨after, hdrop⟩ :=
      exists_dropWhile_insertInNames_of_hash hnumeric insertion (some c) rest
    rw [if_pos hquestion, if_pos hquestion, takeWhile_insertInNames_of_hash hnumeric, hdrop]
    exact readsAlike_some rfl (.sign (by trivial) after)
  rw [if_neg hquestion, if_neg hquestion]
  split
  · exact readsAlike_atLetter hfiller before hhash rest
  · exact readsAlike_operator insertion before hhash rest

theorem readsAlike_visible (hfiller : IsFiller insertion) (before : Option Char) (c : Char)
    (rest : List Char) : ReadsAlike insertion before (visible c rest)
      (visible c (writtenAfter insertion before c rest ++
        insertInNames insertion (some c) rest)) := by
  unfold visible
  by_cases hquote : c = '\''
  · subst hquote
    exact readsAlike_string hfiller before (some '\'') rest
  rw [if_neg hquote, if_neg hquote]
  by_cases hbracket : c = '['
  · subst hbracket
    exact readsAlike_delimitedWord hfiller before .bracket rest
  rw [if_neg hbracket, if_neg hbracket]
  by_cases hdouble : c = '"'
  · subst hdouble
    exact readsAlike_delimitedWord hfiller before .doubleQuote rest
  rw [if_neg hdouble, if_neg hdouble]
  split
  · rename_i hnumber
    have hhash : c ≠ '#' := by
      rintro rfl
      simp at hnumber
    have halike := readsAlike_numeral insertion before before (c :: rest)
    rwa [insertInNames_cons] at halike
  · exact readsAlike_nameOrOperator hfiller before c rest

theorem afterLine_insertInNames (hfiller : IsFiller insertion) (before : Option Char)
    (cs : List Char) : afterLine (insertInNames insertion before cs) =
      insertInNames insertion (some '\n') (afterLine cs) := by
  have hreaches : ReachesAcross insertion (· != '\n') := by
    refine fun _ => ⟨fun c hc => ?_, fun c rest hstarts => ?_⟩
    · simp only [bne_iff_ne, ne_eq]
      rintro rfl
      exact hfiller.not_mem (by decide) hc
    · simp only [bne_iff_ne, ne_eq]
      rintro rfl
      rw [startsName_eq_false (by decide)] at hstarts
      cases hstarts
  obtain ⟨after, hdrop⟩ := exists_dropWhile_insertInNames hreaches before cs
  unfold afterLine
  rw [hdrop]
  cases hcs : cs.dropWhile (· != '\n') with
  | nil => rfl
  | cons c rest =>
      have hc : c = '\n' := by
        have hhead := List.head?_dropWhile_not (· != '\n') cs
        simpa [hcs] using hhead
      rw [hc, insertInNames_cons_of_ne (by decide)]
      rfl

theorem drop_one_insertInNames (insertion : List Char) (before : Option Char) {cs : List Char}
    (h : cs.head? = some c) (hc : c ≠ '#') : (insertInNames insertion before cs).drop 1 =
      insertInNames insertion (some c) (cs.drop 1) := by
  obtain ⟨rest, rfl⟩ := List.head?_eq_some_iff.1 h
  rw [insertInNames_cons_of_ne hc]
  rfl

theorem readsAlike_next (hfiller : IsFiller insertion) (before : Option Char) (c : Char)
    (rest : List Char) : ReadsAlike insertion before (next c rest)
      (next c (writtenAfter insertion before c rest ++
        insertInNames insertion (some c) rest)) := by
  by_cases hhash : c = '#'
  · subst hhash
    exact readsAlike_visible hfiller before '#' rest
  have hvisible := readsAlike_visible hfiller before c rest
  rw [writtenAfter_of_ne hhash, List.nil_append] at hvisible ⊢
  unfold next
  rw [head?_insertInNames]
  by_cases hblank : Unicode.isBlank c = true
  · rw [if_pos hblank, if_pos hblank]
    split
    · rename_i hreturn
      rw [drop_one_insertInNames insertion (some c) hreturn.2 (by decide)]
      exact readsAlike_some rfl (.blank (by decide))
    · exact readsAlike_some rfl (.blank (endsName_of_isBlank hblank))
  rw [if_neg hblank, if_neg hblank]
  by_cases hline : c = '-' ∧ rest.head? = some '-'
  · rw [if_pos hline, if_pos hline, drop_one_insertInNames insertion (some c) hline.2 (by decide),
      afterLine_insertInNames hfiller]
    exact readsAlike_some rfl (.blank (by decide))
  rw [if_neg hline, if_neg hline]
  by_cases hblock : c = '/' ∧ rest.head? = some '*'
  · rw [if_pos hblock, if_pos hblock,
      drop_one_insertInNames insertion (some c) hblock.2 (by decide)]
    unfold afterBlock
    rw [Option.map_map, Option.map_map]
    apply readsAlike_map
    rintro ⟨body, tail⟩ h
    obtain ⟨body', hupTo⟩ :=
      exists_upTo_insertInNames (hfiller.not_mem (by decide)) (by decide) h (some '*')
    exact ⟨_, hupTo, readsAlike_some rfl (.blank (by decide))⟩
  · rw [if_neg hblock, if_neg hblock]
    exact hvisible

/-- The tokens of a text. -/
inductive Spells : List Char → List Token → Prop
  | nil : Spells [] []
  | cons {c : Char} {rest tail : List Char} {t : Token} {ts : List Token}
      (h : next c rest = some (t, tail)) (hts : Spells tail ts) : Spells (c :: rest) (t :: ts)

theorem spells_cons_iff : Spells (c :: rest) ts ↔
    ∃ t tail ts', next c rest = some (t, tail) ∧ Spells tail ts' ∧ ts = t :: ts' := by
  constructor
  · intro h
    cases h with
    | cons hnext hts => exact ⟨_, _, _, hnext, hts, rfl⟩
  · rintro ⟨t, tail, ts', hnext, hts, rfl⟩
    exact .cons hnext hts

theorem map_scanFrom_eq_some_iff {offset : Nat} {cs : List Char} :
    (PlacedToken.scanFrom offset cs).map (·.map (·.token)) = some ts ↔ Spells cs ts := by
  fun_induction PlacedToken.scanFrom offset cs generalizing ts with
  | case1 offset =>
      constructor
      · intro h
        obtain rfl := Option.some.inj h
        exact .nil
      · intro h
        cases h
        rfl
  | case2 offset c rest hnext =>
      simp [spells_cons_iff, hnext]
  | case3 offset c rest t tail hnext ih =>
      rw [spells_cons_iff, Option.map_map]
      constructor
      · intro h
        obtain ⟨placed, hplaced, rfl⟩ := Option.map_eq_some_iff.1 h
        exact ⟨t, tail, _, hnext, ih.1 (by rw [hplaced]; rfl), rfl⟩
      · rintro ⟨t', tail', ts', hnext', hreads, rfl⟩
        rw [hnext] at hnext'
        cases hnext'
        obtain ⟨placed, hplaced, rfl⟩ := Option.map_eq_some_iff.1 (ih.2 hreads)
        rw [hplaced]
        rfl

theorem tokens_eq_some_iff {sql : String} : tokens sql = some ts ↔ Spells sql.toList ts :=
  map_scanFrom_eq_some_iff

/-- The tokens of a text that stands after `before`, and the tokens in their places where names are
written into. -/
inductive RenamedFrom (insertion : List Char) : Option Char → List Token → List Token → Prop
  | nil (before : Option Char) : RenamedFrom insertion before [] []
  | cons {before after : Option Char} {t t' : Token} {ts ts' : List Token}
      (h : Renamed insertion before t t' after) (hts : RenamedFrom insertion after ts ts') :
      RenamedFrom insertion before (t :: ts) (t' :: ts')

/-- No token of a text is lost, split or joined where names are written into the text. -/
theorem Spells.exists_renamed (hfiller : IsFiller insertion) {cs : List Char} (h : Spells cs ts)
    (before : Option Char) : ∃ ts', Spells (insertInNames insertion before cs) ts' ∧
      RenamedFrom insertion before ts ts' := by
  induction h generalizing before with
  | nil => exact ⟨[], .nil, .nil before⟩
  | cons hnext _ ih =>
      obtain ⟨t', after, hnext', hrenamed⟩ := readsAlike_next hfiller before _ _ _ _ hnext
      obtain ⟨ts', hts', hrest⟩ := ih after
      refine ⟨t' :: ts', ?_, .cons hrenamed hrest⟩
      rw [insertInNames_cons]
      exact .cons hnext' hts'

/-- Where a token ends: a word without delimiters goes as far as characters of identifiers do, and a
hash that is a token of its own stands before a space or at the end. -/
def Bounded (c : Char) (t : Token) (tail : List Char) : Prop :=
  match t with
  | .word ⟨_, none⟩ => isIdentifierPart c = true ∧ ∀ d ∈ tail.head?, isIdentifierPart d = false
  | .hash => ∀ d ∈ tail.head?, d = ' '
  | _ => True

theorem Bounded.of_isBare (h : Bounded c t tail) (ht : t.IsBare) :
    isIdentifierPart c = true ∧ ∀ d ∈ tail.head?, isIdentifierPart d = false :=
  match t, ht, h with
  | .word ⟨_, none⟩, _, h => h

theorem bounded_of_isSign (h : t.IsSign) : Bounded c t tail := by
  cases t <;> trivial

theorem bounded_wordAfter (hc : isIdentifierPart c = true) (start rest : List Char) :
    Bounded c (wordAfter start rest).1 (wordAfter start rest).2 := by
  refine ⟨hc, fun d hd => ?_⟩
  have hhead := List.head?_dropWhile_not isIdentifierPart rest
  rw [show (rest.dropWhile isIdentifierPart).head? = some d from hd] at hhead
  simpa using hhead

theorem bounded_atHash (rest : List Char) : Bounded '#' (atHash rest).1 (atHash rest).2 := by
  unfold atHash
  split
  · simp [Bounded]
  · trivial
  · trivial
  · trivial
  · simp [Bounded]
  · exact bounded_wordAfter (by decide) _ _

theorem bounded_atAt (rest : List Char) : Bounded '@' (atAt rest).1 (atAt rest).2 := by
  unfold atAt
  split
  · trivial
  · trivial
  · trivial
  · unfold atTwoAts
    split
    · trivial
    · trivial
    · exact bounded_wordAfter (by decide) _ _
  · split
    · trivial
    · exact bounded_wordAfter (by decide) _ _

theorem bounded_atDollar (h : atDollar rest = some (t, tail)) : Bounded c t tail := by
  unfold atDollar at h
  dsimp only at h
  split at h
  · obtain ⟨⟨body, after⟩, -, heq⟩ := Option.map_eq_some_iff.1 h
    cases heq
    trivial
  · cases h
    trivial

theorem isIdentifierPart_of_isIdentifierStart (h : isIdentifierStart c = true) :
    isIdentifierPart c = true := by
  unfold isIdentifierStart at h
  unfold isIdentifierPart
  grind

theorem bounded_markedString {marker : QuoteMarker} {cs : List Char}
    (h : markedString cs marker = some (t, tail)) : Bounded c t tail := by
  cases marker <;> obtain ⟨⟨body, after⟩, -, heq⟩ := Option.map_eq_some_iff.1 h <;> cases heq <;>
    trivial

theorem bounded_atLetter (hc : isIdentifierStart c = true)
    (h : atLetter c rest = some (t, tail)) : Bounded c t tail := by
  unfold atLetter at h
  split at h
  · exact bounded_markedString h
  · rename_i rest _ _ _
    have hbounded := bounded_wordAfter (isIdentifierPart_of_isIdentifierStart hc) [c] rest
    rwa [Option.some.inj h] at hbounded

theorem bounded_nameOrOperator (h : nameOrOperator c rest = some (t, tail)) :
    Bounded c t tail := by
  unfold nameOrOperator at h
  split at h
  · rename_i hc
    have hbounded := bounded_atHash rest
    rwa [Option.some.inj h, ← hc] at hbounded
  split at h
  · rename_i hc
    have hbounded := bounded_atAt rest
    rwa [Option.some.inj h, ← hc] at hbounded
  split at h
  · exact bounded_atDollar h
  split at h
  · cases h
    trivial
  split at h
  · rename_i hstart
    exact bounded_atLetter hstart h
  · have hsign := isSign_operator c rest
    rw [Option.some.inj h] at hsign
    exact bounded_of_isSign hsign

theorem bounded_visible (h : visible c rest = some (t, tail)) : Bounded c t tail := by
  unfold visible at h
  split at h
  · obtain ⟨⟨body, after⟩, -, heq⟩ := Option.map_eq_some_iff.1 h
    cases heq
    trivial
  split at h
  · obtain ⟨⟨value, after⟩, -, heq⟩ := Option.map_eq_some_iff.1 h
    cases heq
    trivial
  split at h
  · obtain ⟨⟨value, after⟩, -, heq⟩ := Option.map_eq_some_iff.1 h
    cases heq
    trivial
  split at h
  · have hsign := isSign_numeral (c :: rest)
    rw [Option.some.inj h] at hsign
    exact bounded_of_isSign hsign
  · exact bounded_nameOrOperator h

theorem bounded_next (h : next c rest = some (t, tail)) : Bounded c t tail := by
  unfold next at h
  split at h
  · cases h
    trivial
  split at h
  · cases h
    trivial
  split at h
  · obtain ⟨after, -, heq⟩ := Option.map_eq_some_iff.1 h
    cases heq
    trivial
  · exact bounded_visible h

/-- Two words without delimiters have something between them, and a hash that is a token of its own
has a blank behind it. -/
def MayFollow (t u : Token) : Prop :=
  (t.IsBare → ¬ u.IsBare) ∧ (t = .hash → u = .blank)

theorem Spells.isChain {cs : List Char} (h : Spells cs ts) : ts.IsChain MayFollow := by
  induction h with
  | nil => exact .nil
  | cons hnext hts ih =>
      have hbounded := bounded_next hnext
      cases hts with
      | nil => exact .singleton _
      | cons hsecond _ =>
          have hsecond' := bounded_next hsecond
          refine .cons_cons ⟨?_, ?_⟩ ih
          · intro hbare hbare'
            have hend := (hbounded.of_isBare hbare).2 _ rfl
            rw [(hsecond'.of_isBare hbare').1] at hend
            cases hend
          · rintro rfl
            obtain rfl := hbounded _ rfl
            cases hsecond
            rfl

end TempTable

end QueryShape
