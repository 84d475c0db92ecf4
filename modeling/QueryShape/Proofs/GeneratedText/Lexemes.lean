import QueryShape.Proofs.Accounts.Unit
import QueryShape.Proofs.CreatedTables
import QueryShape.Proofs.GlobalNames
import QueryShape.Proofs.WrittenBack.Quotations

namespace QueryShape

open QueryShape.Identifier

namespace TempTable

open QueryShape.Token

variable {c : Char} {cs rest : List Char} {ts us : List Token}

/-- What may stand behind a word or a name in brackets, or nothing. -/
def EndsWord (cs : List Char) : Prop :=
  ∀ c ∈ cs.head?, isIdentifierPart c = false ∧ c ≠ ']' ∧ c ≠ '\''

theorem endsWord_nil : EndsWord [] :=
  nofun

theorem endsWord_cons (h : isIdentifierPart c = false ∧ c ≠ ']' ∧ c ≠ '\'') :
    EndsWord (c :: cs) := by
  rintro d ⟨⟩
  exact h

theorem EndsWord.head?_ne {d : Char} (h : EndsWord cs) (hd : d = ']' ∨ d = '\'') :
    cs.head? ≠ some d := by
  intro heq
  obtain ⟨-, hbracket, hquote⟩ := h d heq
  rcases hd with rfl | rfl <;> contradiction

theorem EndsWord.takeWhile_append {xs : List Char} (h : EndsWord rest)
    (hxs : ∀ d ∈ xs, isIdentifierPart d = true) :
    (xs ++ rest).takeWhile isIdentifierPart = xs ∧
      (xs ++ rest).dropWhile isIdentifierPart = rest := by
  rw [List.takeWhile_append_of_pos hxs, List.dropWhile_append_of_pos hxs]
  cases rest with
  | nil => simp
  | cons d rest =>
      have hd : ¬ isIdentifierPart d = true := by
        rw [(h d rfl).1]
        exact Bool.false_ne_true
      rw [List.takeWhile_cons_of_neg hd, List.dropWhile_cons_of_neg hd, List.append_nil]
      exact ⟨rfl, rfl⟩

theorem wordAfter_of_endsWord {start xs : List Char} (h : EndsWord rest)
    (hxs : ∀ d ∈ xs, isIdentifierPart d = true) :
    wordAfter start (xs ++ rest) = (.word ⟨String.ofList (start ++ xs), none⟩, rest) := by
  unfold wordAfter
  rw [(h.takeWhile_append hxs).1, (h.takeWhile_append hxs).2]

theorem next_of_isAlpha (hc : c.isAlpha = true) (rest : List Char) :
    next c rest = atLetter c rest := by
  have hne : ∀ d : Char, d.isAlpha = false → c ≠ d := by
    rintro d hd rfl
    rw [hc] at hd
    cases hd
  have hcode := Text.isAlpha_iff.1 hc
  have hblank : ¬ Unicode.isBlank c = true :=
    Unicode.not_isBlank_of_toNat (by omega) (by omega)
  have hdigit : c.isDigit = false := by
    rw [← Bool.not_eq_true, Text.isDigit_iff]
    omega
  have hstart : isIdentifierStart c = true := by
    simp [isIdentifierStart, Unicode.isAlphabetic, hc, show c.toNat < 128 by omega]
  unfold next visible nameOrOperator
  rw [if_neg hblank, if_neg fun h => hne '-' (by decide) h.1,
    if_neg fun h => hne '/' (by decide) h.1, if_neg (hne '\'' (by decide)),
    if_neg (hne '[' (by decide)), if_neg (hne '"' (by decide)),
    if_neg (by simp [hdigit, hne '.' (by decide)]), if_neg (hne '#' (by decide)),
    if_neg (hne '@' (by decide)), if_neg (hne '$' (by decide)), if_neg (hne '?' (by decide)),
    if_pos hstart]

theorem next_word (hc : c.isAlpha = true) (hcs : ∀ d ∈ cs, isIdentifierPart d = true)
    (hrest : EndsWord rest) :
    next c (cs ++ rest) = some (.word ⟨String.ofList (c :: cs), none⟩, rest) := by
  have hquote : ∀ body, cs ++ rest ≠ '\'' :: body := by
    intro body heq
    cases cs with
    | nil => exact hrest.head?_ne (.inr rfl) (by rw [List.nil_append] at heq; rw [heq]; rfl)
    | cons d cs =>
        have hd := hcs d List.mem_cons_self
        rw [(List.cons.inj heq).1] at hd
        cases hd
  rw [next_of_isAlpha hc, atLetter_of_word (.inr hquote), wordAfter_of_endsWord hrest hcs]
  rfl

/-- A variable whose name the tokenizer reads as a whole. -/
def IsRegularVariable (name : String) : Prop :=
  ∃ c cs, name.toList = '@' :: c :: cs ∧ c ≠ '@' ∧ ∀ d ∈ c :: cs, isIdentifierPart d = true

theorem isRegularVariable_iff {name : String} : IsRegularVariable name ↔
    name.toList.head? = some '@' ∧ name.toList[1]?.any (fun c => c != '@') = true ∧
      (name.toList.drop 1).all isIdentifierPart = true := by
  unfold IsRegularVariable
  constructor
  · rintro ⟨c, cs, hname, hc, hparts⟩
    rw [hname]
    exact ⟨rfl, by simpa using hc, List.all_eq_true.2 hparts⟩
  · rintro ⟨hat, hc, hparts⟩
    obtain ⟨rest, hrest⟩ := List.head?_eq_some_iff.1 hat
    rw [hrest] at hc hparts ⊢
    cases rest with
    | nil => cases hc
    | cons c cs => exact ⟨c, cs, rfl, by simpa using hc, List.all_eq_true.1 hparts⟩

instance (name : String) : Decidable (IsRegularVariable name) :=
  decidable_of_iff _ isRegularVariable_iff.symm

theorem IsRegularVariable.isVariable {name : String} (h : IsRegularVariable name)
    (delimiter : Option Delimiter) : (Word.mk name delimiter).isVariable = true := by
  obtain ⟨c, cs, hname, hc, -⟩ := h
  exact Word.isVariable_iff.2 ⟨c, cs, hname, hc⟩

theorem IsRegularVariable.isVariableName {name : String} (h : IsRegularVariable name) :
    IsVariableName name :=
  Word.isVariable_iff.1 (h.isVariable none)

theorem spells_variable {name : String} (hname : IsRegularVariable name) (hrest : EndsWord rest)
    (h : Spells rest ts) : Spells (name.toList ++ rest) (.word ⟨name, none⟩ :: ts) := by
  obtain ⟨c, cs, hlist, hat, hparts⟩ := hname
  obtain ⟨hc, hcs⟩ := List.forall_mem_cons.1 hparts
  have hne : ∀ d : Char, isIdentifierPart d = false → c ≠ d := by
    rintro d hd rfl
    rw [hc] at hd
    cases hd
  have hquotes : ¬ (c = ' ' ∨ c = '\'' ∨ c = '"' ∨ c = '\x60') := by
    rintro (h | h | h | h)
    all_goals exact hne _ (by decide) h
  have hnext : next '@' (c :: (cs ++ rest)) = some (.word ⟨name, none⟩, rest) := by
    change some (atAt (c :: (cs ++ rest))) = _
    rw [atAt_of_word (hne '>' (by decide)) (hne '?' (by decide)) hat, if_neg hquotes,
      wordAfter_of_endsWord hrest hcs, ← String.ofList_toList (s := name), hlist]
    rfl
  rw [hlist]
  exact .cons hnext h

theorem spells_localName {name : String} (hname : IsRegularName name) (hrest : EndsWord rest)
    (h : Spells rest ts) : Spells (name.toList ++ rest) (.word ⟨name, none⟩ :: ts) := by
  obtain ⟨c, cs, hlist, hparts⟩ := hname
  obtain ⟨hc, hcs⟩ := List.forall_mem_cons.1 hparts
  have hnext : next '#' (c :: (cs ++ rest)) = some (.word ⟨name, none⟩, rest) := by
    change some (atHash (c :: (cs ++ rest))) = _
    rw [atHash_of_identifierPart hc, wordAfter_of_endsWord hrest hcs,
      ← String.ofList_toList (s := name), hlist]
    rfl
  rw [hlist]
  exact .cons hnext h

theorem spells_quote (name : String) (hrest : EndsWord rest) (h : Spells rest ts) :
    Spells ((quote name).toList ++ rest) (.word ⟨name, some .bracket⟩ :: ts) := by
  have hquoted := quoted_doubled (hrest.head?_ne (.inl rfl)) name.toList
  have hnext : next '[' (doubled ']' name.toList ++ ']' :: rest) =
      some (.word ⟨name, some .bracket⟩, rest) := by
    change (quoted ']' _).map _ = _
    rw [hquoted]
    simp
  rw [quote, String.toList_ofList]
  simp only [List.cons_append, List.append_assoc, List.nil_append]
  exact .cons hnext h

theorem spells_fullName (name : QualifiedName) (hrest : EndsWord rest) (h : Spells rest ts) :
    Spells (name.full.toList ++ rest)
      (.word ⟨name.schema, some .bracket⟩ :: .period :: .word ⟨name.name, some .bracket⟩ ::
        ts) := by
  have hname := spells_quote name.name hrest h
  have hperiod : Spells ('.' :: ((quote name.name).toList ++ rest))
      (.period :: .word ⟨name.name, some .bracket⟩ :: ts) := by
    refine .cons ?_ hname
    rw [quote, String.toList_ofList]
    rfl
  have hschema := spells_quote name.schema (endsWord_cons (by decide)) hperiod
  rw [QualifiedName.full, String.toList_append, String.toList_append, List.append_assoc,
    List.append_assoc, show ".".toList = ['.'] from rfl, List.singleton_append]
  exact hschema

theorem tokens_fullName (name : QualifiedName) : tokens name.full =
    some [.word ⟨name.schema, some .bracket⟩, .period, .word ⟨name.name, some .bracket⟩] := by
  have hspells := spells_fullName name endsWord_nil .nil
  rw [List.append_nil] at hspells
  exact tokens_eq_some_iff.2 hspells

/-- A character of fixed wording. -/
def isWording (c : Char) : Bool :=
  c.isAlpha || [' ', '(', ')', ',', ';'].contains c

theorem isIdentifierPart_of_isAlpha (h : c.isAlpha = true) : isIdentifierPart c = true :=
  isIdentifierPart_of_isAlphanum (by simp [Char.isAlphanum, h])

theorem endsWord_dropWhile_append (hcs : ∀ d ∈ cs, isWording d = true)
    (hrest : cs.dropWhile isIdentifierPart = [] → EndsWord rest) :
    EndsWord (cs.dropWhile isIdentifierPart ++ rest) := by
  cases hdrop : cs.dropWhile isIdentifierPart with
  | nil => exact hrest hdrop
  | cons d more =>
      have hd : isIdentifierPart d = false := by
        have hhead := List.head?_dropWhile_not isIdentifierPart cs
        rw [hdrop] at hhead
        simpa using hhead
      have hwording := hcs d ((List.dropWhile_sublist _).subset (hdrop ▸ List.mem_cons_self))
      refine endsWord_cons ⟨hd, ?_, ?_⟩
      · rintro rfl
        revert hwording
        decide
      · rintro rfl
        revert hwording
        decide

theorem next_append_of_isWording {t : Token} {tail : List Char} (h : next c cs = some (t, tail))
    (hwording : ∀ d ∈ c :: cs, isWording d = true)
    (hend : (∀ d ∈ (c :: cs).getLast?, isIdentifierPart d = false) ∨ EndsWord rest) :
    next c (cs ++ rest) = some (t, tail ++ rest) := by
  obtain ⟨hc, hcs⟩ := List.forall_mem_cons.1 hwording
  by_cases halpha : c.isAlpha = true
  · have hword := cs.takeWhile_append_dropWhile (p := isIdentifierPart)
    have hparts : ∀ d ∈ cs.takeWhile isIdentifierPart, isIdentifierPart d = true :=
      List.all_eq_true.1 List.all_takeWhile
    have halone : EndsWord (cs.dropWhile isIdentifierPart ++ []) :=
      endsWord_dropWhile_append hcs fun _ => endsWord_nil
    have hhere := next_word halpha hparts halone
    rw [List.append_nil, hword, h] at hhere
    obtain ⟨rfl, rfl⟩ := Prod.mk.inj (Option.some.inj hhere)
    -- A word that is all there is ends where the other text begins.
    have hbehind : cs.dropWhile isIdentifierPart = [] → EndsWord rest := by
      intro hdrop
      refine hend.resolve_left fun hlast => ?_
      have hall : ∀ d ∈ c :: cs, isIdentifierPart d = true :=
        List.forall_mem_cons.2 ⟨isIdentifierPart_of_isAlpha halpha,
          List.dropWhile_eq_nil_iff.1 hdrop⟩
      have hfalse := hlast _ (List.getLast?_eq_some_getLast (List.cons_ne_nil c cs))
      rw [hall _ (List.getLast_mem _)] at hfalse
      cases hfalse
    have hthere := next_word halpha hparts (endsWord_dropWhile_append hcs hbehind)
    rw [← List.append_assoc, hword] at hthere
    exact hthere
  · have hsign : c = ' ' ∨ c = '(' ∨ c = ')' ∨ c = ',' ∨ c = ';' := by
      simpa [isWording, halpha] using hc
    rcases hsign with rfl | rfl | rfl | rfl | rfl
    all_goals
      obtain ⟨rfl, rfl⟩ := Prod.mk.inj (Option.some.inj h)
      rfl

/-- Wording that stands on its own reads the same in front of another text, unless its last word
would go on in that text. -/
theorem Spells.append_of_isWording (h : Spells cs ts) (hwording : ∀ d ∈ cs, isWording d = true)
    (hend : (∀ d ∈ cs.getLast?, isIdentifierPart d = false) ∨ EndsWord rest)
    (hrest : Spells rest us) : Spells (cs ++ rest) (ts ++ us) := by
  induction h with
  | nil => exact hrest
  | @cons c cs tail t ts hnext _ ih =>
      have hsuffix : tail <:+ cs := Token.next_suffix hnext
      refine .cons (next_append_of_isWording hnext hwording hend) (ih ?_ ?_)
      · exact fun d hd => hwording d (List.mem_cons_of_mem c (hsuffix.subset hd))
      · refine hend.imp_left fun hlast d hd => hlast d ?_
        obtain ⟨front, rfl⟩ := hsuffix
        rw [Option.mem_def] at hd
        simp [List.getLast?_cons, List.getLast?_append, hd]

end TempTable

end QueryShape
