import QueryShape.Proofs.Variables.Lists

namespace QueryShape

open QueryShape.Identifier

/-- What stands some characters further behind. -/
def PlacedToken.shift (n : Nat) (t : PlacedToken) : PlacedToken :=
  { t with offset := t.offset + n }

/-- The use of a variable in a text with characters put in front. -/
def VariableUse.shift (n : Nat) (u : VariableUse) : VariableUse :=
  { u with offset := u.offset + n }

/-- The first tokens of a text that starts behind `offset` characters, and what is left of it with
the number of characters before that. -/
def PlacedToken.readTokens : Nat → Nat → List Char → Option (List PlacedToken × Nat × List Char)
  | 0, offset, cs => some ([], offset, cs)
  | _ + 1, _, [] => none
  | count + 1, offset, c :: rest =>
      match Token.next c rest with
      | none => none
      | some (t, tail) =>
          (readTokens count (offset + (rest.length + 1 - tail.length)) tail).map
            fun (ts, left) => (⟨t, offset⟩ :: ts, left)

namespace PlacedToken

theorem scanFrom_cons {offset : Nat} {c : Char} {rest tail : List Char} {t : Token}
    (h : Token.next c rest = some (t, tail)) : scanFrom offset (c :: rest) =
      (scanFrom (offset + (rest.length + 1 - tail.length)) tail).map (⟨t, offset⟩ :: ·) := by
  rw [scanFrom]
  split
  · rename_i hnext
    rw [hnext] at h
    cases h
  · rename_i t' tail' hnext
    rw [hnext] at h
    cases h
    rfl

theorem scanFrom_of_readTokens {count offset n : Nat} {cs left : List Char}
    {front : List PlacedToken} (h : readTokens count offset cs = some (front, n, left)) :
    scanFrom offset cs = (scanFrom n left).map (front ++ ·) := by
  fun_induction readTokens count offset cs generalizing front with
  | case1 offset cs =>
      cases h
      simp
  | case2 => cases h
  | case3 => cases h
  | case4 offset count c rest t tail hnext ih =>
      obtain ⟨⟨ts, m, behind⟩, hmore, heq⟩ := Option.map_eq_some_iff.1 h
      cases heq
      rw [scanFrom_cons hnext, ih hmore, Option.map_map]
      rfl

/-- The tokens of a text do not depend on what stands before it, but for their places. -/
theorem scanFrom_add (offset n : Nat) (cs : List Char) :
    scanFrom (offset + n) cs = (scanFrom offset cs).map (List.map (shift n)) := by
  fun_induction scanFrom offset cs with
  | case1 offset => simp [scanFrom]
  | case2 offset c rest hnext =>
      rw [scanFrom]
      split
      · rfl
      · rename_i hsome
        rw [hnext] at hsome
        cases hsome
  | case3 offset c rest t tail hnext ih =>
      have hoffset : offset + n + (rest.length + 1 - tail.length) =
          offset + (rest.length + 1 - tail.length) + n := by omega
      rw [scanFrom_cons hnext, hoffset, ih, Option.map_map, Option.map_map]
      rfl

end PlacedToken

namespace VariableScan

theorem mentions_append {ts us : List PlacedToken} (h : ∀ t ∈ us.head?, t.token ≠ .equals)
    (s : State) : mentions s (ts ++ us) =
      mentions s ts ++ mentions (stateAfter s (ts.map (·.token))) us := by
  induction ts generalizing s with
  | nil => rfl
  | cons t ts ih =>
      have hfollowing : (ts ++ us).head?.map (·.token) = some .equals ↔
          ts.head?.map (·.token) = some .equals := by
        cases ts with
        | nil =>
            cases us with
            | nil => rfl
            | cons u us => simpa using h u rfl
        | cons u ts => rfl
      rw [List.cons_append, mentions, mentions, mention?_congr hfollowing, ih, List.append_assoc]
      rfl

theorem mention?_eq_none_of_endsList {s : State} {t : PlacedToken} (following : Option Token)
    (h : endsList depth t.token = true) : mention? s t following = none := by
  rw [mention?_eq_none_iff]
  intro w hw hvariable
  rw [hw, endsList_of_isVariable (t := .word w) hvariable] at h
  cases h

theorem mentions_semicolon {t : PlacedToken} {us : List PlacedToken} (s : State)
    (ht : t.token = .semicolon) : mentions s (t :: us) = mentions {} us := by
  have hends : endsList 0 t.token = true := by
    rw [ht]
    rfl
  rw [mentions, mention?_eq_none_of_endsList _ hends, ht]
  rfl

theorem mentions_of_endsList {us : List PlacedToken} (context : Context)
    (h : ∀ t ∈ us.head?, endsList 0 t.token = true) :
    mentions ⟨context, 0⟩ us = mentions {} us := by
  cases us with
  | nil => rfl
  | cons t us =>
      have ht : endsList 0 t.token = true := h t rfl
      rw [mentions, mentions, mention?_eq_none_of_endsList _ ht, mention?_eq_none_of_endsList _ ht,
        after_eq, after_eq]
      simp [ht]

/-- A mention in a text with characters put in front. -/
def Mention.shift (n : Nat) (m : Mention) : Mention :=
  { m with use := m.use.shift n }

theorem mention?_shift (s : State) (n : Nat) (t : PlacedToken) (following : Option Token) :
    mention? s (t.shift n) following = (mention? s t following).map (Mention.shift n) := by
  obtain ⟨token, offset⟩ := t
  cases token with
  | word w =>
      unfold mention? PlacedToken.shift
      dsimp only
      split <;> rfl
  | _ => rfl

theorem mentions_shift (s : State) (n : Nat) (us : List PlacedToken) :
    mentions s (us.map (PlacedToken.shift n)) = (mentions s us).map (Mention.shift n) := by
  induction us generalizing s with
  | nil => rfl
  | cons t us ih =>
      have hfollowing : (us.map (PlacedToken.shift n)).head?.map (·.token) =
          us.head?.map (·.token) := by
        cases us <;> rfl
      rw [List.map_cons, mentions, mentions, hfollowing, mention?_shift, List.map_append,
        Option.toList_map]
      exact congrArg (_ ++ ·) (ih _)

/-- The tokens that a scan reads. -/
def visible (ts : List PlacedToken) : List PlacedToken :=
  ts.filter fun t => !t.token.isBlank

theorem visible_shift (n : Nat) (ts : List PlacedToken) :
    visible (ts.map (PlacedToken.shift n)) = (visible ts).map (PlacedToken.shift n) :=
  List.filter_map

/-- A text ends where a statement is read, or goes on behind a semicolon or with what begins another
statement. -/
def ListStatement.IsFollowed (s : ListStatement) (front : List PlacedToken) (rest : String) :
    Prop :=
  (visible front).map (·.token) = s.tokens ++ [.semicolon] ∨
    (visible front).map (·.token) = s.tokens ∧
      ∀ us, visibleTokens rest = some us → ∀ t ∈ us.head?, endsList 0 t = true

/-- What is found in a text that begins with a statement: the variables of the statement, and what
is found in the text behind it alone, some characters further on. -/
structure ListStatement.Precedes (s : ListStatement) (front : List PlacedToken) (n : Nat)
    (alone v : ScriptVariables) : Prop where
  references : ∃ own : List VariableUse, own.map (·.name) = s.used ∧
    (∀ u ∈ own, ∃ t ∈ front, t.token.variableName? = some u.name ∧ t.offset = u.offset) ∧
    v.references = firstOfEach VariableUse.key (own ++ alone.references.map (VariableUse.shift n))
  declared : ∀ key, key ∈ v.declared ↔ key ∈ s.names.map parameterKey ∨ key ∈ alone.declared

theorem visibleTokens_eq {sql : String} {placed : List PlacedToken}
    (h : placedTokens sql = some placed) :
    visibleTokens sql = some ((visible placed).map (·.token)) := by
  unfold visibleTokens tokens
  rw [h, Option.map_some, Option.map_some, List.filter_map]
  rfl

theorem endsList_head?_shift {rest : String} {placed : List PlacedToken}
    (hrest : placedTokens rest = some placed)
    (hstarts : ∀ us, visibleTokens rest = some us → ∀ t ∈ us.head?, endsList 0 t = true) (n : Nat) :
    ∀ t ∈ ((visible placed).map (PlacedToken.shift n)).head?, endsList 0 t.token = true := by
  intro t ht
  apply hstarts _ (visibleTokens_eq hrest)
  rw [List.head?_map] at ht ⊢
  obtain ⟨u, hu, rfl⟩ := Option.map_eq_some_iff.1 ht
  rw [hu]
  rfl

theorem mentions_listStatement {s : ListStatement} {front us : List PlacedToken}
    (hfront : front.map (·.token) = s.tokens)
    (hus : ∀ t ∈ us.head?, endsList 0 t.token = true) :
    mentions {} (front ++ us) = mentions {} front ++ mentions {} us := by
  have hequals : ∀ t ∈ us.head?, t.token ≠ .equals := by
    intro t ht heq
    have hends := hus t ht
    rw [heq] at hends
    cases hends
  have hclosed := s.closes .statement
  rw [mentions_append hequals, hfront]
  cases hstate : stateAfter {} s.tokens with
  | mk context depth =>
      rw [hstate] at hclosed
      obtain rfl : depth = 0 := hclosed
      rw [mentions_of_endsList context hus]

theorem exists_variable_of_mem_mentions {s : State} {ts : List PlacedToken} {m : Mention}
    (h : m ∈ mentions s ts) :
    ∃ t ∈ ts, t.token.variableName? = some m.use.name ∧ t.offset = m.use.offset := by
  obtain ⟨i, t, ht, hm⟩ := mem_mentions_iff.1 h
  obtain ⟨w, hw, hvariable, -, rfl⟩ := mention?_eq_some_iff.1 hm
  refine ⟨t, List.mem_of_getElem? ht, ?_, rfl⟩
  rw [hw, Token.variableName?, if_pos hvariable]

/-- The variables of a statement are found first, then those of the text behind it. -/
theorem mentions_of_isFollowed {s : ListStatement} {front : List PlacedToken} {rest : String}
    {placed : List PlacedToken} (h : s.IsFollowed front rest)
    (hrest : placedTokens rest = some placed) (n : Nat) :
    ∃ ms, ms.map Mention.reading = readings {} s.tokens ∧
      (∀ m ∈ ms, ∃ t ∈ front, t.token.variableName? = some m.use.name ∧ t.offset = m.use.offset) ∧
      mentions {} (visible (front ++ placed.map (PlacedToken.shift n))) =
        ms ++ (mentions {} (visible placed)).map (Mention.shift n) := by
  have hvisible : visible (front ++ placed.map (PlacedToken.shift n)) =
      visible front ++ (visible placed).map (PlacedToken.shift n) := by
    rw [← visible_shift]
    exact List.filter_append _ _
  have hplaces : ∀ ts : List PlacedToken, (∀ t ∈ ts, t ∈ visible front) → ∀ m ∈ mentions {} ts,
      ∃ t ∈ front, t.token.variableName? = some m.use.name ∧ t.offset = m.use.offset := by
    intro ts hts m hm
    obtain ⟨t, ht, hsame⟩ := exists_variable_of_mem_mentions hm
    exact ⟨t, (List.mem_filter.1 (hts t ht)).1, hsame⟩
  rw [hvisible, ← mentions_shift]
  -- A semicolon ends the statement here, or the first word that follows it does.
  rcases h with hsemicolon | ⟨htokens, hstarts⟩
  · obtain ⟨ts, ends, hfront, htokens, hends⟩ := List.map_eq_append_iff.1 hsemicolon
    obtain ⟨t, rfl, ht⟩ := List.map_eq_singleton_iff.1 hends
    refine ⟨mentions {} ts, ?_, ?_, ?_⟩
    · rw [map_reading_mentions, htokens]
    · apply hplaces
      intro u hu
      rw [hfront]
      exact List.mem_append_left _ hu
    · have hends : ∀ u ∈ (t :: (visible placed).map (PlacedToken.shift n)).head?,
          endsList 0 u.token = true := by
        rintro u ⟨⟩
        rw [ht]
        rfl
      rw [hfront, List.append_assoc, List.singleton_append, mentions_listStatement htokens hends,
        mentions_semicolon _ ht]
  · refine ⟨mentions {} (visible front), ?_, hplaces _ fun t ht => ht, ?_⟩
    · rw [map_reading_mentions, htokens]
    · exact mentions_listStatement htokens (endsList_head?_shift hrest hstarts n)

theorem firstOfEach_append_firstOfEach {α κ : Type} [BEq κ] [LawfulBEq κ] (key : α → κ)
    (as bs : List α) :
    firstOfEach key (as ++ firstOfEach key bs) = firstOfEach key (as ++ bs) := by
  rw [firstOfEach_append, firstOfEach_append, firstOfEach_eq_self (pairwise_firstOfEach key bs)]

theorem map_shift_references (ns : List Mention) (n : Nat) :
    (summary ns).references.map (VariableUse.shift n) =
      firstOfEach VariableUse.key ((ns.map (Mention.shift n)).map (·.use)) := by
  have huses : (ns.map (Mention.shift n)).map (·.use) =
      (ns.map (·.use)).map (VariableUse.shift n) := by
    rw [List.map_map, List.map_map]
    rfl
  rw [huses, firstOfEach_map]
  rfl

theorem map_reading_shift (ns : List Mention) (n : Nat) :
    (ns.map (Mention.shift n)).map Mention.reading = ns.map Mention.reading := by
  rw [List.map_map]
  rfl

theorem precedes_summary {s : ListStatement} (hs : s.AssignsNothing) {front : List PlacedToken}
    {n : Nat} {ms ns : List Mention} (hms : ms.map Mention.reading = readings {} s.tokens)
    (hplaces : ∀ m ∈ ms, ∃ t ∈ front,
      t.token.variableName? = some m.use.name ∧ t.offset = m.use.offset) :
    s.Precedes front n (summary ns) (summary (ms ++ ns.map (Mention.shift n))) := by
  have hread : ms.map Mention.reading = s.readings := by rw [hms, readings_listStatement hs]
  refine ⟨⟨ms.map (·.use), ?_, ?_, ?_⟩, ?_⟩
  · rw [← s.map_fst_readings, ← hread, List.map_map, List.map_map]
    rfl
  · intro u hu
    obtain ⟨m, hm, rfl⟩ := List.mem_map.1 hu
    exact hplaces m hm
  · rw [map_shift_references, firstOfEach_append_firstOfEach, ← List.map_append]
    rfl
  · intro key
    have hnames : (s.readings.filter (·.2)).map (fun r => parameterKey r.1) =
        s.names.map parameterKey := by
      rw [← s.declared_readings, List.map_map]
      rfl
    rw [declared_summary, declared_summary, mem_orderedKeys, mem_orderedKeys, List.map_append,
      map_reading_shift, hread, List.filter_append, List.map_append, List.mem_append, hnames]

end VariableScan

open VariableScan

variable {s : ListStatement} {sql rest : String} {front : List PlacedToken} {count n : Nat}

/-- A scan finds what a list of declarations or a call declares and reads, and reads the text behind
it, which may be empty, as if it stood alone. -/
theorem scanVariables_listStatement (hs : s.AssignsNothing)
    (hread : PlacedToken.readTokens count 0 sql.toList = some (front, n, rest.toList))
    (hfollowed : s.IsFollowed front rest) :
    (scanVariables rest = none → scanVariables sql = none) ∧
      ∀ alone, scanVariables rest = some alone →
        ∃ v, scanVariables sql = some v ∧ s.Precedes front n alone v := by
  have hplaced : placedTokens sql =
      (placedTokens rest).map fun ts => front ++ ts.map (PlacedToken.shift n) := by
    have hshift := PlacedToken.scanFrom_add 0 n rest.toList
    rw [Nat.zero_add] at hshift
    rw [placedTokens, PlacedToken.scanFrom_of_readTokens hread, hshift, Option.map_map]
    rfl
  constructor
  · intro hnone
    rw [scanVariables, hplaced, Option.map_eq_none_iff.1 hnone]
    rfl
  · intro alone halone
    obtain ⟨placed, hrest, rfl⟩ := Option.map_eq_some_iff.1 halone
    obtain ⟨ms, hms, hplaces, hmentions⟩ := mentions_of_isFollowed hfollowed hrest n
    refine ⟨_, ?_, precedes_summary hs hms hplaces⟩
    rw [scanVariables, hplaced, hrest, Option.map_some, Option.map_some]
    exact congrArg (some ∘ summary) hmentions

/-- A call with a return code, a named argument, parentheses and an argument without a name. -/
def reportCall : ListStatement :=
  .call ⟨"EXEC", none⟩ (by decide +kernel)
    { result := some ⟨"@rc", none⟩
      procedure := [.word ⟨"dbo", none⟩, .period, .word ⟨"p", none⟩]
      arguments := [⟨some ⟨"@x", none⟩, [.word ⟨"@n", none⟩], by decide, by decide +kernel⟩,
        ⟨none, [.openParen, .word ⟨"@k", none⟩, .equals, .number "1" false, .closeParen], by decide,
          by decide +kernel⟩,
        ⟨none, [.word ⟨"@t", none⟩, .word ⟨"OUTPUT", none⟩], by decide, by decide +kernel⟩]
      isVariable := by decide
      procedure_isContained := by decide +kernel
      procedure_isNamed := nofun }

def reportLengthText : String :=
  "DECLARE @m int = @n"

def reportText : String :=
  "EXEC @rc = dbo.p @x = @n, (@k = 1), @t OUTPUT\n" ++ reportLengthText

/-- The declarations begin where the call ends, without a semicolon. -/
theorem reportCall_precedes : reportCall.AssignsNothing ∧ ∃ front,
    PlacedToken.readTokens 30 0 reportText.toList = some (front, 46, reportLengthText.toList) ∧
    reportCall.IsFollowed front reportLengthText ∧
    ∃ alone v, scanVariables reportLengthText = some alone ∧ scanVariables reportText = some v ∧
      reportCall.Precedes front 46 alone v ∧
      v.references.map (·.name) = ["@rc", "@n", "@k", "@t", "@m"] ∧ v.declared = ["m"] := by
  have hassigns : reportCall.AssignsNothing := by
    change Call.AssignsNothing _
    decide +kernel
  have hread : PlacedToken.readTokens 30 0 reportText.toList =
      some (((PlacedToken.readTokens 30 0 reportText.toList).map (·.1)).getD [], 46,
        reportLengthText.toList) := by
    decide +kernel
  have hfollowed : reportCall.IsFollowed
      (((PlacedToken.readTokens 30 0 reportText.toList).map (·.1)).getD []) reportLengthText := by
    refine .inr ⟨by decide +kernel, ?_⟩
    have hstarts : (visibleTokens reportLengthText).all
        (fun us => us.head?.all (endsList 0)) = true := by
      decide +kernel
    intro us hus t ht
    rw [hus, Option.all_some, Option.mem_def.1 ht] at hstarts
    exact hstarts
  have halone : scanVariables reportLengthText = some ⟨[⟨"@m", 8⟩, ⟨"@n", 17⟩], ["m"]⟩ := by
    decide +kernel
  have hscan : scanVariables reportText = some ⟨[⟨"@rc", 5⟩, ⟨"@n", 22⟩, ⟨"@k", 27⟩, ⟨"@t", 36⟩,
      ⟨"@m", 54⟩], ["m"]⟩ := by
    decide +kernel
  obtain ⟨v, hv, hprecedes⟩ := (scanVariables_listStatement hassigns hread hfollowed).2 _ halone
  obtain rfl := Option.some.inj (hscan.symm.trans hv)
  exact ⟨hassigns, _, hread, hfollowed, _, _, halone, hv, hprecedes, rfl, rfl⟩

/-- A variable that is compared in a value is taken for the name of an argument. -/
theorem comparedCall_reads_nothing : ∃ s : ListStatement, s.used = ["@b"] ∧
    visibleTokens "EXEC p @a = @b = 1" = some s.tokens ∧
    scanVariables "EXEC p @a = @b = 1" = some ⟨[], []⟩ := by
  refine ⟨.call ⟨"EXEC", none⟩ (by decide +kernel)
    { procedure := [.word ⟨"p", none⟩]
      arguments := [⟨some ⟨"@a", none⟩, [.word ⟨"@b", none⟩, .equals, .number "1" false],
        by decide, by decide +kernel⟩]
      isVariable := by simp
      procedure_isContained := by decide +kernel
      procedure_isNamed := fun _ => ⟨_, List.mem_singleton.2 rfl, rfl⟩ }, ?_, ?_, ?_⟩
  · decide +kernel
  · decide +kernel
  · decide +kernel

end QueryShape
