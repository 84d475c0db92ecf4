import Mathlib.Data.List.TakeWhile
import QueryShape.Proofs.GlobalTokens.Readings
import QueryShape.Proofs.TempTables

/-!
Which table the definition of a temp table creates, and which one is dropped for it. The main
statement says that the first part of the object name behind `CREATE TABLE` is kept as the name of
the table, and that a table whose object name is nothing but a hash and characters of identifiers is
the one that is dropped, in the scope of a procedure and of a script.
-/

namespace QueryShape

open QueryShape.TempTable

/-- The parts of the object name at the front of a text, the table last. A part that is left out is
empty. -/
def objectName (ts : List Token) : List String :=
  match _h : afterBlanks (leadingName ts).2 with
  | .period :: rest => (leadingName ts).1 :: objectName (afterBlanks rest)
  | _ => [(leadingName ts).1]
termination_by ts.length
decreasing_by
  have hname := length_leadingName_le ts
  have hblanks := length_afterBlanks_le (leadingName ts).2
  have hrest := length_afterBlanks_le rest
  rw [_h] at hblanks
  simp only [List.length_cons] at hblanks
  omega

/-- The object name behind the first keyword `verb` that `TABLE` follows. -/
def tableNamed? (verb : String) : List Token → Option (List String)
  | [] => none
  | t :: rest =>
      match t.isKeyword verb, afterBlanks rest with
      | true, u :: after =>
          if u.isKeyword "TABLE" then some (objectName (afterBlanks after))
          else tableNamed? verb rest
      | _, _ => tableNamed? verb rest

/-- The parts of the name of the table that a definition creates. -/
def createdTable? (sql : String) : Option (List String) :=
  (tokens sql).bind (tableNamed? "CREATE")

/-- The parts of the name of the table that a statement drops. -/
def droppedTable? (sql : String) : Option (List String) :=
  (tokens sql).bind (tableNamed? "DROP")

variable {ts ts' rest after : List Token} {t u : Token} {verb name : String}

theorem head?_objectName (ts : List Token) :
    (objectName ts).head? = some (leadingName ts).1 := by
  unfold objectName
  split <;> rfl

theorem objectName_of_period (h : afterBlanks (leadingName ts).2 = .period :: rest) :
    objectName ts = (leadingName ts).1 :: objectName (afterBlanks rest) := by
  rw [objectName]
  split
  · rename_i rest' heq
    rw [h] at heq
    cases heq
    rfl
  · rename_i hno
    exact absurd h (hno rest)

theorem objectName_of_no_period (h : ∀ rest, afterBlanks (leadingName ts).2 ≠ .period :: rest) :
    objectName ts = [(leadingName ts).1] := by
  rw [objectName]
  split
  · rename_i rest' heq
    exact absurd heq (h rest')
  · rfl

theorem objectName_eq_singleton_iff : objectName ts = [name] ↔ (leadingName ts).1 = name ∧
    ∀ rest, afterBlanks (leadingName ts).2 ≠ .period :: rest := by
  by_cases h : ∃ rest, afterBlanks (leadingName ts).2 = .period :: rest
  · obtain ⟨rest, hrest⟩ := h
    rw [objectName_of_period hrest]
    constructor
    · intro heq
      have hmore := head?_objectName (afterBlanks rest)
      rw [(List.cons.inj heq).2] at hmore
      cases hmore
    · rintro ⟨-, hno⟩
      exact absurd hrest (hno rest)
  · have hno : ∀ rest, afterBlanks (leadingName ts).2 ≠ .period :: rest :=
      fun rest heq => h ⟨rest, heq⟩
    rw [objectName_of_no_period hno]
    simp [hno]

theorem tableNamed?_cons_of_table (ht : t.isKeyword verb = true)
    (hrest : afterBlanks rest = u :: after) (hu : u.isKeyword "TABLE" = true) :
    tableNamed? verb (t :: rest) = some (objectName (afterBlanks after)) := by
  rw [tableNamed?, ht, hrest]
  simp [hu]

theorem tableNamed?_cons_of_not (h : t.isKeyword verb = true → ∀ u after,
    afterBlanks rest = u :: after → u.isKeyword "TABLE" = false) :
    tableNamed? verb (t :: rest) = tableNamed? verb rest := by
  rw [tableNamed?]
  split
  · rename_i u after ht hrest
    rw [h ht u after hrest]
    rfl
  · rfl

theorem afterBlanks_cons_of_isBlank (h : t.isBlank = true) :
    afterBlanks (t :: ts) = afterBlanks ts :=
  List.dropWhile_cons_of_pos h

theorem afterBlanks_cons_of_not_isBlank (h : t.isBlank = false) :
    afterBlanks (t :: ts) = t :: ts :=
  List.dropWhile_cons_of_neg (by simp [h])

theorem isKeyword_of_isBlank (h : t.isBlank = true) : t.isKeyword verb = false := by
  cases t <;> first | rfl | cases h

theorem isBare_of_isKeyword (h : t.isKeyword verb = true) : t.IsBare := by
  cases t with
  | word w =>
      obtain ⟨value, _ | d⟩ := w
      · trivial
      · cases h
  | _ => cases h

theorem tableNamed?_afterBlanks (verb : String) (ts : List Token) :
    tableNamed? verb (afterBlanks ts) = tableNamed? verb ts := by
  induction ts with
  | nil => rfl
  | cons t rest ih =>
      cases ht : t.isBlank with
      | true =>
          rw [afterBlanks_cons_of_isBlank ht, ih, tableNamed?_cons_of_not]
          intro hkeyword
          rw [isKeyword_of_isBlank ht] at hkeyword
          cases hkeyword
      | false => rw [afterBlanks_cons_of_not_isBlank ht]

theorem exists_tableNamed?_of_createdNames {more : List String}
    (h : createdNames ts = name :: more) : ∃ parts, tableNamed? "CREATE" ts = some parts ∧
      parts.head? = some name := by
  fun_induction createdNames ts with
  | case1 => cases h
  | case2 t rest ht hblanks => cases h
  | case3 t rest ht u after hblanks hu ih =>
      refine ⟨_, tableNamed?_cons_of_table ht hblanks hu, ?_⟩
      rw [head?_objectName, (List.cons.inj h).1]
  | case4 t rest ht u after hblanks hu ih =>
      obtain ⟨parts, hparts, hhead⟩ := ih h
      refine ⟨parts, ?_, hhead⟩
      rw [tableNamed?_cons_of_not, ← tableNamed?_afterBlanks, hblanks, hparts]
      intro _ u' after' heq
      rw [hblanks] at heq
      cases heq
      simpa using hu
  | case5 t rest ht ih =>
      obtain ⟨parts, hparts, hhead⟩ := ih h
      refine ⟨parts, ?_, hhead⟩
      rw [tableNamed?_cons_of_not fun hkeyword => absurd hkeyword ht, hparts]

namespace TempTable

/-- The name of a temp table that needs no delimiters: a hash, and characters of identifiers. -/
def IsRegularName (name : String) : Prop :=
  ∃ c cs, name.toList = '#' :: c :: cs ∧ ∀ d ∈ c :: cs, Token.isIdentifierPart d = true

variable {insertion : List Char} {before behind : Option Char} {t' : Token}

theorem hash_mem_upper {cs : List Char} (h : '#' ∈ cs) :
    '#' ∈ (Text.upper (String.ofList cs)).toList := by
  have hhash : '#' ∈ Unicode.upperChar '#' := by decide
  simpa [Text.upper] using ⟨'#', h, hhash⟩

theorem isKeyword_insertInNames (hverb : '#' ∉ verb.toList) (value : List Char)
    (delimiter : Option Delimiter) :
    (Word.mk (String.ofList (insertInNames insertion before value)) delimiter).isKeyword verb =
      (Word.mk (String.ofList value) delimiter).isKeyword verb := by
  by_cases hvalue : '#' ∈ value
  · have hinserted : '#' ∈ insertInNames insertion before value := by
      by_contra hno
      rw [insertInNames_eq_self hno] at hno
      exact hno hvalue
    have hno {cs : List Char} (hcs : '#' ∈ cs) :
        (Word.mk (String.ofList cs) delimiter).isKeyword verb = false := by
      simp only [Word.isKeyword, Bool.and_eq_false_iff, beq_eq_false_iff_ne]
      right
      rintro rfl
      exact hverb (hash_mem_upper hcs)
    rw [hno hinserted, hno hvalue]
  · rw [insertInNames_of_not_mem hvalue]

theorem Renamed.isBlank_eq (h : Renamed insertion before t t' behind) : t'.isBlank = t.isBlank := by
  cases h with
  | literal h h' => cases t <;> cases t' <;> first | rfl | contradiction
  | _ => rfl

theorem Renamed.isKeyword_eq (hverb : '#' ∉ verb.toList)
    (h : Renamed insertion before t t' behind) : t'.isKeyword verb = t.isKeyword verb := by
  cases h with
  | bare value => exact isKeyword_insertInNames hverb value none
  | delimited d value => exact isKeyword_insertInNames hverb value (some d)
  | literal h h' => cases t <;> cases t' <;> first | rfl | contradiction
  | _ => rfl

theorem Renamed.eq_period (h : Renamed insertion before t .period behind) : t = .period := by
  cases h with
  | literal h h' => contradiction
  | sign => rfl

theorem RenamedFrom.exists_afterBlanks (h : RenamedFrom insertion before ts ts') :
    ∃ behind, RenamedFrom insertion behind (afterBlanks ts) (afterBlanks ts') ∧
      (afterBlanks ts = ts ∧ behind = before ∨ endsName behind = true) := by
  induction h with
  | nil before => exact ⟨before, .nil before, .inl ⟨rfl, rfl⟩⟩
  | @cons before after t t' ts ts' hfirst hrest ih =>
      cases ht : t.isBlank with
      | true =>
          obtain ⟨behind, hrenamed, hends⟩ := ih
          have hafter : endsName after = true := by
            cases hfirst with
            | blank hafter => exact hafter
            | literal h => cases t <;> contradiction
            | sign h => cases t <;> contradiction
            | _ => cases ht
          rw [afterBlanks_cons_of_isBlank ht,
            afterBlanks_cons_of_isBlank (hfirst.isBlank_eq.trans ht)]
          refine ⟨behind, hrenamed, .inr ?_⟩
          rcases hends with ⟨-, rfl⟩ | hends
          · exact hafter
          · exact hends
      | false =>
          rw [afterBlanks_cons_of_not_isBlank ht,
            afterBlanks_cons_of_not_isBlank (hfirst.isBlank_eq.trans ht)]
          exact ⟨before, .cons hfirst hrest, .inl ⟨rfl, rfl⟩⟩

theorem RenamedFrom.afterBlanks_eq_cons (h : RenamedFrom insertion before ts ts')
    (hrest : afterBlanks ts = u :: rest) : ∃ inside behind u' rest',
      afterBlanks ts' = u' :: rest' ∧ Renamed insertion inside u u' behind ∧
        RenamedFrom insertion behind rest rest' := by
  obtain ⟨inside, hblanks, -⟩ := h.exists_afterBlanks
  rw [hrest] at hblanks
  generalize afterBlanks ts' = blanks at hblanks
  cases hblanks with
  | cons hfirst hbehind => exact ⟨_, _, _, _, rfl, hfirst, hbehind⟩

theorem RenamedFrom.of_afterBlanks_eq_cons {u' : Token} {rest' : List Token}
    (h : RenamedFrom insertion before ts ts') (hrest' : afterBlanks ts' = u' :: rest') :
    ∃ inside behind u rest, afterBlanks ts = u :: rest ∧
      Renamed insertion inside u u' behind ∧ RenamedFrom insertion behind rest rest' := by
  obtain ⟨inside, hblanks, -⟩ := h.exists_afterBlanks
  rw [hrest'] at hblanks
  generalize afterBlanks ts = blanks at hblanks
  cases hblanks with
  | cons hfirst hbehind => exact ⟨_, _, _, _, rfl, hfirst, hbehind⟩

theorem leadingName_word (w : Word) (rest : List Token) :
    leadingName (.word w :: rest) = (w.value, rest) := by
  simp [leadingName]

theorem not_isRegularName_of_length (h : name.length ≤ 1) : ¬ IsRegularName name := by
  rintro ⟨c, cs, hname, -⟩
  rw [← String.length_toList, hname] at h
  simp at h

theorem exists_word_of_leadingName (hchain : ts.IsChain MayFollow)
    (hname : IsRegularName (leadingName ts).1) : ∃ w rest, ts = .word w :: rest := by
  have hshort : ¬ (leadingName ts).1.length ≤ 1 := fun h => not_isRegularName_of_length h hname
  cases ts with
  | nil => exact absurd (by decide) hshort
  | cons t rest =>
      by_cases ht : t = .hash
      · subst ht
        cases rest with
        | nil => exact absurd (by decide) hshort
        | cons u rest =>
            obtain rfl := (List.isChain_cons_cons.1 hchain).1.2 rfl
            have hlength : (leadingName (.hash :: .blank :: rest)).1.length ≤ 1 := by
              simp [leadingName]
              decide
            exact absurd hlength hshort
      · cases t with
        | word w => exact ⟨w, rest, rfl⟩
        | hash => exact absurd rfl ht
        | _ => exact absurd (by simp [leadingName]) hshort

theorem insertInNames_of_endsName (h : endsName before = true) (cs : List Char) :
    insertInNames insertion before cs = insertInNames insertion none cs :=
  insertInNames_congr (h.trans (show true = endsName none from rfl)) cs

theorem Renamed.exists_word {w : Word} (h : Renamed insertion before (.word w) t' behind)
    (hbefore : (Token.word w).IsBare → endsName before = true) : ∃ delimiter,
      t' = .word ⟨String.ofList (insertInNames insertion none w.value.toList), delimiter⟩ := by
  cases h with
  | bare value =>
      refine ⟨none, ?_⟩
      rw [String.toList_ofList, insertInNames_of_endsName (hbefore trivial)]
  | delimited d value =>
      have hopening : endsName (some d.opening) = true := by
        cases d <;> decide
      refine ⟨some d, ?_⟩
      rw [String.toList_ofList, insertInNames_of_endsName hopening]
  | literal h => contradiction
  | sign h => contradiction

theorem RenamedFrom.objectName_eq (h : RenamedFrom insertion before ts ts')
    (hchain : ts.IsChain MayFollow) (hname : IsRegularName name) (hobject : objectName ts = [name])
    (hbefore : ∀ t ∈ ts.head?, t.IsBare → endsName before = true) :
    objectName ts' = [String.ofList (insertInNames insertion none name.toList)] := by
  obtain ⟨hleading, hlast⟩ := objectName_eq_singleton_iff.1 hobject
  obtain ⟨w, rest, rfl⟩ := exists_word_of_leadingName hchain (hleading ▸ hname)
  rw [leadingName_word] at hleading hlast
  cases h with
  | @cons _ after _ t' _ rest' hfirst hrest =>
      obtain ⟨delimiter, rfl⟩ := hfirst.exists_word (hbefore _ rfl)
      refine objectName_eq_singleton_iff.2 ⟨?_, ?_⟩
      · rw [leadingName_word, ← hleading]
      · intro tail' htail'
        rw [leadingName_word] at htail'
        obtain ⟨_, _, u, tail, htail, hperiod, -⟩ := hrest.of_afterBlanks_eq_cons htail'
        exact hlast tail (hperiod.eq_period ▸ htail)

/-- The table that a text names goes by its global name where names are made global. -/
theorem RenamedFrom.tableNamed?_eq (hverb : '#' ∉ verb.toList)
    (h : RenamedFrom insertion before ts ts') (hchain : ts.IsChain MayFollow)
    (hname : IsRegularName name) (hnamed : tableNamed? verb ts = some [name]) :
    tableNamed? verb ts' = some [String.ofList (insertInNames insertion none name.toList)] := by
  have htable : '#' ∉ "TABLE".toList := by decide
  induction h with
  | nil => cases hnamed
  | @cons before after t t' rest rest' hfirst hrest ih =>
      have hkeyword := hfirst.isKeyword_eq hverb
      by_cases hfound : t.isKeyword verb = true ∧
          ∃ u tail, afterBlanks rest = u :: tail ∧ u.isKeyword "TABLE" = true
      · obtain ⟨ht, u, tail, htail, hu⟩ := hfound
        obtain ⟨_, _, u', tail', htail', hsecond, hbehind⟩ := hrest.afterBlanks_eq_cons htail
        obtain ⟨inside, hobject, hends⟩ := hbehind.exists_afterBlanks
        have htailChain : (u :: tail).IsChain MayFollow :=
          htail ▸ hchain.tail.suffix (List.dropWhile_suffix _)
        rw [tableNamed?_cons_of_table ht htail hu] at hnamed
        rw [tableNamed?_cons_of_table (hkeyword.trans ht) htail'
          ((hsecond.isKeyword_eq htable).trans hu)]
        apply congrArg some
        apply hobject.objectName_eq (htailChain.tail.suffix (List.dropWhile_suffix _)) hname
          (Option.some.inj hnamed)
        -- A word right behind the keyword would be part of it.
        intro w hw hbare
        rcases hends with ⟨hsame, -⟩ | hends
        · rw [hsame] at hw
          obtain ⟨more, rfl⟩ := List.head?_eq_some_iff.1 hw
          have hfollow := (List.isChain_cons_cons.1 htailChain).1
          exact absurd hbare (hfollow.1 (isBare_of_isKeyword hu))
        · exact hends
      · rw [tableNamed?_cons_of_not] at hnamed ⊢
        · exact ih hchain.tail hnamed
        · intro ht' u' tail' htail'
          obtain ⟨_, _, u, tail, htail, hsecond, -⟩ := hrest.of_afterBlanks_eq_cons htail'
          rw [hsecond.isKeyword_eq htable, ← Bool.not_eq_true]
          exact fun hu => hfound ⟨hkeyword.symm.trans ht', u, tail, htail, hu⟩
        · intro ht u tail htail
          rw [← Bool.not_eq_true]
          exact fun hu => hfound ⟨ht, u, tail, htail, hu⟩

end TempTable

/-- What the statement that drops a table reads as. -/
def dropTokens (name : String) : List Token :=
  [.word ⟨"IF", none⟩, .blank, .word ⟨"OBJECT_ID", none⟩, .openParen,
    .string ("tempdb.." ++ name), .closeParen, .blank, .word ⟨"IS", none⟩, .blank,
    .word ⟨"NOT", none⟩, .blank, .word ⟨"NULL", none⟩, .blank, .word ⟨"DROP", none⟩, .blank,
    .word ⟨"TABLE", none⟩, .blank, .word ⟨name, none⟩]

theorem toList_dropStatement (name : String) : (Sandbox.dropStatement name).toList =
    "IF OBJECT_ID(".toList ++ '\'' :: (("tempdb..".toList ++ name.toList) ++
      '\'' :: (") IS NOT NULL DROP TABLE ".toList ++ name.toList)) := by
  have hfront : "IF OBJECT_ID('tempdb..".toList =
      "IF OBJECT_ID(".toList ++ '\'' :: "tempdb..".toList := rfl
  have hback : "') IS NOT NULL DROP TABLE ".toList =
      '\'' :: ") IS NOT NULL DROP TABLE ".toList := rfl
  unfold Sandbox.dropStatement
  rw [String.toList_append, String.toList_append, String.toList_append, hfront, hback]
  simp only [List.append_assoc, List.cons_append]

theorem spells_string {body rest : List Char} (hbody : '\'' ∉ body)
    (hrest : rest.head? ≠ some '\'') (h : Spells rest ts) :
    Spells ('\'' :: (body ++ '\'' :: rest)) (.string (String.ofList body) :: ts) := by
  have htakes : ∀ d ∈ body, Takes (Token.quoted '\'') d :=
    fun d hd => quoted_takes fun heq => hbody (heq ▸ hd)
  have hclosed : Token.quoted '\'' ('\'' :: rest) = some ([], rest) := by
    cases rest with
    | nil => rfl
    | cons c rest =>
        have hc : c ≠ '\'' := by simpa using hrest
        rw [Token.quoted]
        simp [hc]
  refine .cons ?_ h
  show (Token.quoted '\'' (body ++ '\'' :: rest)).map _ = _
  rw [reader_append htakes, hclosed]
  simp

theorem spells_regularName (h : IsRegularName name) :
    Spells name.toList [.word ⟨name, none⟩] := by
  obtain ⟨c, cs, hname, hparts⟩ := h
  obtain ⟨hc, hcs⟩ := List.forall_mem_cons.1 hparts
  have hnext : Token.next '#' (c :: cs) = some (.word ⟨name, none⟩, []) := by
    show some (Token.atHash (c :: cs)) = _
    rw [atHash_of_identifierPart hc, Token.wordAfter, List.takeWhile_eq_self_iff.2 hcs,
      List.dropWhile_eq_nil_iff.2 hcs, ← String.ofList_toList (s := name), hname]
    rfl
  rw [hname]
  exact .cons hnext .nil

theorem quote_not_mem_of_isRegularName (h : IsRegularName name) : '\'' ∉ name.toList := by
  obtain ⟨c, cs, hname, hparts⟩ := h
  rw [hname, List.mem_cons, not_or]
  exact ⟨by decide, fun hmem => absurd (hparts _ hmem) (by decide)⟩

theorem tokens_dropStatement (h : IsRegularName name) :
    tokens (Sandbox.dropStatement name) = some (dropTokens name) := by
  have hquote : '\'' ∉ "tempdb..".toList ++ name.toList := by
    rw [List.mem_append, not_or]
    constructor
    · decide
    · exact quote_not_mem_of_isRegularName h
  have hback : Spells (") IS NOT NULL DROP TABLE ".toList ++ name.toList) _ :=
    .cons rfl (.cons rfl (.cons rfl (.cons rfl (.cons rfl (.cons rfl (.cons rfl (.cons rfl
      (.cons rfl (.cons rfl (.cons rfl (.cons rfl (spells_regularName h))))))))))))
  have hstring := spells_string hquote (by simp) hback
  rw [tokens_eq_some_iff, toList_dropStatement, dropTokens,
    ← String.ofList_toList (s := "tempdb.." ++ name), String.toList_append]
  exact .cons rfl (.cons rfl (.cons rfl (.cons rfl hstring)))

theorem tableNamed?_append {front : List Token} (h : ∀ t ∈ front, t.isKeyword verb = false)
    (ts : List Token) : tableNamed? verb (front ++ ts) = tableNamed? verb ts := by
  induction front with
  | nil => rfl
  | cons t front ih =>
      obtain ⟨ht, hfront⟩ := List.forall_mem_cons.1 h
      rw [List.cons_append, tableNamed?_cons_of_not (by simp [ht]), ih hfront]

theorem droppedTable?_dropStatement (h : IsRegularName name) :
    droppedTable? (Sandbox.dropStatement name) = some [name] := by
  -- The keyword stands behind thirteen tokens.
  have hfront : ∀ t ∈ (dropTokens name).take 13, t.isKeyword "DROP" = false := by
    simp only [dropTokens, List.take_succ_cons, List.take_zero, List.forall_mem_cons]
    refine ⟨by decide +kernel, rfl, by decide +kernel, rfl, rfl, rfl, rfl, by decide +kernel, rfl,
      by decide +kernel, rfl, by decide +kernel, rfl, List.forall_mem_nil _⟩
  have hobject : objectName [.word ⟨name, none⟩] = [name] :=
    objectName_eq_singleton_iff.2
      ⟨by rw [leadingName_word], by simp [leadingName_word, afterBlanks]⟩
  rw [droppedTable?, tokens_dropStatement h, Option.bind_some,
    ← List.take_append_drop 13 (dropTokens name), tableNamed?_append hfront]
  show tableNamed? "DROP" (.word ⟨"DROP", none⟩ :: .blank :: .word ⟨"TABLE", none⟩ :: .blank ::
    [.word ⟨name, none⟩]) = _
  rw [tableNamed?_cons_of_table (by decide +kernel) rfl (by decide +kernel)]
  exact congrArg some hobject

theorem isIdentifierPart_of_isAlphanum {c : Char} (h : (c.isAlphanum || c == '_') = true) :
    Token.isIdentifierPart c = true := by
  have halpha : c.isAlpha = true → Unicode.isAlphabetic c = true := by
    intro hc
    have hcode := Text.isAlpha_iff.1 hc
    rw [Unicode.isAlphabetic, if_pos (by omega), hc]
  simp only [Char.isAlphanum, Bool.or_eq_true] at h
  simp only [Token.isIdentifierPart, Bool.or_eq_true]
  rcases h with (hc | hc) | hc
  · simp [halpha hc]
  · simp [hc]
  · simp [hc]

theorem RunToken.IsPlain.isFiller {token : RunToken} (h : token.IsPlain) :
    IsFiller token.insertion where
  identifierParts := List.forall_mem_cons.2
    ⟨by decide, fun c hc => isIdentifierPart_of_isAlphanum (h.isAlphanum c hc)⟩
  noDollar := by
    intro hmem
    rcases List.mem_cons.1 hmem with hhash | hmem
    · cases hhash
    · exact absurd (h.isAlphanum '$' hmem) (by decide)

theorem TempTable.mem_of_mem_insertInNames {insertion cs : List Char} {before : Option Char}
    {d : Char} (h : d ∈ insertInNames insertion before cs) : d ∈ cs ∨ d ∈ insertion := by
  induction cs generalizing before with
  | nil => exact .inl h
  | cons c rest ih =>
      rw [insertInNames_cons, List.mem_cons, List.mem_append] at h
      rcases h with rfl | h | h
      · exact .inl List.mem_cons_self
      · exact .inr (mem_of_mem_writtenAfter h)
      · exact (ih h).imp_left (List.mem_cons_of_mem _)

theorem Sandbox.isRegularName_placed {s : Sandbox} (hs : s.token.IsPlain)
    (h : IsRegularName name) : IsRegularName (s.placed name) := by
  unfold placed
  split
  · obtain ⟨c, cs, hname, hparts⟩ := h
    have hglobal := RunToken.toList_globalize s.token name
    rw [hname, insertInNames_cons] at hglobal
    obtain ⟨d, ds, hds⟩ := List.exists_cons_of_ne_nil
      (show writtenAfter s.token.insertion none '#' (c :: cs) ++
        insertInNames s.token.insertion (some '#') (c :: cs) ≠ [] by simp [insertInNames_cons])
    refine ⟨d, ds, by rw [hglobal, hds], fun e he => ?_⟩
    rw [← hds] at he
    have hwritten : e ∈ c :: cs ∨ e ∈ s.token.insertion := by
      rcases List.mem_append.1 he with he | he
      · exact .inr (mem_of_mem_writtenAfter he)
      · exact mem_of_mem_insertInNames he
    rcases hwritten with he | he
    · exact hparts e he
    · exact hs.isFiller.identifierParts e he
  · exact h

theorem Sandbox.createdTable?_placed {s : Sandbox} (hs : s.token.IsPlain) {definition : String}
    (hname : IsRegularName name) (h : createdTable? definition = some [name]) :
    createdTable? (s.placed definition) = some [s.placed name] := by
  unfold placed
  split
  · obtain ⟨ts, hts, hnamed⟩ := Option.bind_eq_some_iff.1 h
    have hreads := tokens_eq_some_iff.1 hts
    obtain ⟨ts', hreads', hrenamed⟩ := hreads.exists_renamed hs.isFiller none
    have htokens : tokens (s.token.globalize definition) = some ts' := by
      rw [tokens_eq_some_iff, RunToken.toList_globalize]
      exact hreads'
    rw [createdTable?, htokens, Option.bind_some,
      hrenamed.tableNamed?_eq (by decide) hreads.isChain hname hnamed, ← RunToken.toList_globalize,
      String.ofList_toList]
  · exact h

/-- The name that is kept of an accepted definition is the first part of the name of the table that
the definition creates. Where that is the whole name, and a hash with characters of identifiers, the
statement that drops the table names the one that was created, whatever the scope makes of both. -/
theorem ModelUnit.withRuleTables_drops_created {u attached : ModelUnit} {rule : EffectiveRule}
    (h : u.withRuleTables rule = .ok attached) : ∃ added : List TempTable,
      attached = u.withTempTables (u.tempTables ++ added) ∧
      added.map (·.definition) = rule.tempTables ∧
      ∀ t ∈ added, ∃ parts, createdTable? t.definition = some parts ∧
        parts.head? = some t.name ∧
        (parts = [t.name] → IsRegularName t.name → ∀ s : Sandbox, s.token.IsPlain →
          createdTable? (s.placed t.definition) = some [s.placed t.name] ∧
            droppedTable? (Sandbox.dropStatement (s.placed t.name)) = some [s.placed t.name]) := by
  obtain ⟨added, hattached, hdefinitions, hcreated⟩ := withRuleTables_eq_ok h
  refine ⟨added, hattached, hdefinitions, fun t ht => ?_⟩
  obtain ⟨ts, hts, hnames⟩ := Option.map_eq_some_iff.1 (hcreated t ht)
  obtain ⟨parts, hparts, hhead⟩ := exists_tableNamed?_of_createdNames hnames
  have hcreated : createdTable? t.definition = some parts := by
    rw [createdTable?, hts, Option.bind_some, hparts]
  refine ⟨parts, hcreated, hhead, ?_⟩
  rintro rfl hname s hs
  exact ⟨Sandbox.createdTable?_placed hs hname hcreated,
    droppedTable?_dropStatement (Sandbox.isRegularName_placed hs hname)⟩

/-- A script that reads a temp table. -/
def reportUnit : ModelUnit :=
  .script { identity := "report", text := "SELECT Id FROM #args" }

def reportScope : Sandbox :=
  ⟨[], .script, (RunToken.ofText "run").forUnit 2⟩

/-- A definition with a comment, a delimited name and an escape. -/
def commentedDefinition : String :=
  "/* as #t */ CREATE TABLE--\n[#args] (Id int DEFAULT N'\\#a')"

/-- Comments, delimiters and escapes stand around the name. -/
theorem commentedDefinition_drops_created :
    reportUnit.withRuleTables { tempTables := [commentedDefinition] } =
        .ok (reportUnit.withTempTables [⟨"#args", commentedDefinition, []⟩]) ∧
      IsRegularName "#args" ∧ reportScope.token.IsPlain ∧
      createdTable? (reportScope.placed commentedDefinition) = some ["##run_2_args"] ∧
      droppedTable? (Sandbox.dropStatement "##run_2_args") = some ["##run_2_args"] := by
  have haccepted : reportUnit.withRuleTables { tempTables := [commentedDefinition] } =
      .ok (reportUnit.withTempTables [⟨"#args", commentedDefinition, []⟩]) := by
    decide +kernel
  have hname : IsRegularName "#args" :=
    ⟨'a', ['r', 'g', 's'], rfl, List.all_eq_true.1 (by decide)⟩
  have hplain : reportScope.token.IsPlain := RunToken.isPlain_ofText "run"
  have hglobal : reportScope.placed "#args" = "##run_2_args" := by decide +kernel
  have hcreated : createdTable? commentedDefinition = some ["#args"] := by decide +kernel
  obtain ⟨added, -, hdefinitions, hadded⟩ := ModelUnit.withRuleTables_drops_created haccepted
  obtain ⟨t, rfl, ht⟩ := List.map_eq_singleton_iff.1 hdefinitions
  obtain ⟨parts, hparts, hhead, hdrops⟩ := hadded t List.mem_cons_self
  rw [ht, hcreated] at hparts
  obtain rfl := Option.some.inj hparts
  obtain htname : "#args" = t.name := Option.some.inj hhead
  rw [← htname, ht] at hdrops
  obtain ⟨hmade, hdropped⟩ := hdrops rfl hname reportScope hplain
  rw [hglobal] at hmade hdropped
  exact ⟨haccepted, hname, hplain, hmade, hdropped⟩

/-- The database stands in front of the name, and its name is the one that is kept. -/
theorem qualifiedDefinition_drops_database :
    reportUnit.withRuleTables { tempTables := ["CREATE TABLE tempdb..#t (Id int)"] } =
        .ok (reportUnit.withTempTables [⟨"tempdb", "CREATE TABLE tempdb..#t (Id int)", []⟩]) ∧
      createdTable? (reportScope.placed "CREATE TABLE tempdb..#t (Id int)") =
        some ["tempdb", "", "##run_2_t"] ∧
      droppedTable? (Sandbox.dropStatement (reportScope.placed "tempdb")) =
        some ["tempdb"] := by
  decide +kernel

end QueryShape
