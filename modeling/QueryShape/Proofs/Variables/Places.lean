import Mathlib.Data.List.Induction
import QueryShape.Proofs.Variables.Readings

/-!
The places of a text as a scan for variables tells them apart. The main statements say, from the
tokens before a place, when it is inside of a call or of a list of declarations, and which variables
are read.
-/

namespace QueryShape

open QueryShape.Identifier

namespace Token

def isWord : Token → Bool
  | word _ => true
  | _ => false

end Token

namespace VariableScan

variable {s : State} {context : Context} {depth : Nat} {t : Token} {w : Word}
  {ts us span front rest : List Token}

def beginsDeclaration (w : Word) : Bool :=
  w.isKeyword "DECLARE"

def beginsCall (w : Word) : Bool :=
  w.isKeyword "EXEC" || w.isKeyword "EXECUTE"

/-- Whether a token, behind some open parentheses, ends the declarations or the call before it. -/
def endsList (depth : Nat) : Token → Bool
  | .semicolon => true
  | .word w => beginsDeclaration w || beginsCall w || depth == 0 && startsStatement w
  | _ => false

theorem startsStatement_of_isVariable (h : w.isVariable = true) : startsStatement w = false := by
  obtain ⟨c, rest, hvalue, -⟩ := Word.isVariable_iff.1 h
  have hheads : ∀ text ∈ statementWords, (Text.folded text).head? ≠ some '@' := by decide
  rw [← Bool.not_eq_true]
  intro hstarts
  obtain ⟨text, htext, hreads⟩ := List.any_eq_true.1 (Bool.and_eq_true_iff.1 hstarts).2
  apply hheads text htext
  rw [← Text.sameIgnoringCase_iff.1 hreads, Text.folded, hvalue]
  rfl

theorem endsList_of_isVariable (h : t.isVariable = true) (depth : Nat) :
    endsList depth t = false := by
  cases t with
  | word w =>
      have hw : w.isVariable = true := h
      simp [endsList, beginsDeclaration, beginsCall, isKeyword_of_isVariable hw,
        startsStatement_of_isVariable hw]
  | _ => cases h

theorem endsList_of_delimiter (h : w.delimiter.isSome = true) (depth : Nat) :
    endsList depth (.word w) = false := by
  have hno : w.delimiter.isNone = false := by simpa using h
  simp [endsList, beginsDeclaration, beginsCall, Word.isKeyword, startsStatement, hno]

/-- The number of open parentheses behind a token. -/
def depthAfter (depth : Nat) : Token → Nat
  | .openParen => depth + 1
  | .closeParen => depth - 1
  | _ => depth

/-- The state behind a token that ends a list, whatever stood before. -/
def opening : Token → State
  | .word w =>
      if beginsDeclaration w then ⟨.declaration true, 0⟩
      else if beginsCall w then ⟨.call true, 0⟩
      else {}
  | _ => {}

/-- What a token that ends nothing makes of the context. -/
def Context.after (depth : Nat) (t : Token) : Context → Context
  | .statement => .statement
  | .declaration expectsName =>
      .declaration (if depth = 0 then t == .comma || expectsName && !t.isVariable else expectsName)
  | .call atStart => .call (atStart && !t.isWord)

theorem afterVariable_eq (s : State) (w : Word) (h : w.isVariable = true) :
    s.afterVariable = ⟨s.context.after s.depth (.word w), s.depth⟩ := by
  have hword : (Token.word w).isVariable = true := h
  obtain ⟨context, depth⟩ := s
  cases context with
  | statement => rfl
  | declaration expectsName =>
      by_cases hdepth : depth = 0 <;> cases expectsName <;>
        simp [State.afterVariable, State.declares, State.leaveCallStart, Context.after, hdepth,
          hword]
  | call atStart =>
      cases atStart <;> rfl

theorem leaveCallStart_eq (s : State) (w : Word) (h : w.isVariable = false) :
    s.leaveCallStart = ⟨s.context.after s.depth (.word w), s.depth⟩ := by
  have hword : (Token.word w).isVariable = false := h
  obtain ⟨context, depth⟩ := s
  cases context with
  | statement => rfl
  | declaration expectsName => simp [State.leaveCallStart, Context.after, hword]
  | call atStart => cases atStart <;> rfl

theorem afterComma_eq (s : State) :
    s.afterComma = ⟨s.context.after s.depth .comma, s.depth⟩ := by
  obtain ⟨context, depth⟩ := s
  cases context with
  | statement => rfl
  | declaration expectsName =>
      by_cases hdepth : depth = 0 <;> simp [State.afterComma, Context.after, hdepth]
  | call atStart => cases atStart <;> rfl

/-- All that a token can do: it ends what stands before it, or it counts as a part of that. -/
theorem after_eq (s : State) (t : Token) :
    s.after t = if endsList s.depth t then opening t
      else ⟨s.context.after s.depth t, depthAfter s.depth t⟩ := by
  cases t with
  | word w =>
      cases hvariable : w.isVariable with
      | true =>
          have hends := endsList_of_isVariable (t := .word w) hvariable s.depth
          rw [hends, after_variable hvariable, afterVariable_eq s w hvariable]
          rfl
      | false =>
          have hstay := leaveCallStart_eq s w hvariable
          obtain ⟨context, depth⟩ := s
          cases hdeclare : w.isKeyword "DECLARE" <;> cases hexec : w.isKeyword "EXEC" <;>
            cases hexecute : w.isKeyword "EXECUTE" <;> cases hdepth : depth == 0 <;>
            cases hstarts : startsStatement w <;>
            simp_all [State.after, State.afterWord, endsList, opening, beginsDeclaration,
              beginsCall, depthAfter]
  | comma => exact afterComma_eq s
  | semicolon => rfl
  | _ =>
      obtain ⟨context, depth⟩ := s
      cases context with
      | statement => rfl
      | declaration expectsName =>
          simp [State.after, endsList, Context.after, depthAfter, Token.isVariable]
      | call atStart => cases atStart <;> rfl

/-- The state behind a text. -/
def stateAfter (s : State) (ts : List Token) : State :=
  ts.foldl State.after s

/-- The number of parentheses that are open behind a text. One that closes none does not count. -/
def openParens (ts : List Token) : Nat :=
  ts.foldl depthAfter 0

/-- No token of a span ends the declarations or the call that it belongs to. -/
def GoesOn (span : List Token) : Prop :=
  ∀ front t rest, span = front ++ t :: rest → endsList (openParens front) t = false

/-- Behind each variable outside of parentheses, a comma outside of them begins the next
declaration. -/
def ExpectsName (span : List Token) : Prop :=
  ∀ front t rest, span = front ++ t :: rest → t.isVariable = true → openParens front = 0 →
    ∃ mid more, rest = mid ++ .comma :: more ∧ openParens (front ++ t :: mid) = 0

theorem stateAfter_append (s : State) (ts us : List Token) :
    stateAfter s (ts ++ us) = stateAfter (stateAfter s ts) us :=
  List.foldl_append

theorem stateAfter_snoc (s : State) (ts : List Token) (t : Token) :
    stateAfter s (ts ++ [t]) = (stateAfter s ts).after t :=
  stateAfter_append s ts [t]

theorem openParens_snoc (ts : List Token) (t : Token) :
    openParens (ts ++ [t]) = depthAfter (openParens ts) t :=
  List.foldl_append

theorem snoc_eq_append_cons_iff {α : Type} {as front rest : List α} {a b : α} :
    as ++ [a] = front ++ b :: rest ↔
      rest = [] ∧ as = front ∧ a = b ∨ ∃ rest', rest = rest' ++ [a] ∧ as = front ++ b :: rest' := by
  rcases List.eq_nil_or_concat rest with rfl | ⟨rest', c, rfl⟩
  · rw [← List.concat_eq_append, ← List.concat_eq_append, List.concat_inj]
    simp
  · rw [List.concat_eq_append, ← List.cons_append, ← List.append_assoc]
    constructor
    · intro h
      obtain ⟨has, hlast⟩ := List.append_inj' h rfl
      cases hlast
      exact .inr ⟨rest', rfl, has⟩
    · rintro (⟨hnil, -⟩ | ⟨rest'', heq, rfl⟩)
      · simp at hnil
      · obtain ⟨rfl, hlast⟩ := List.append_inj' heq rfl
        cases hlast
        rfl

theorem goesOn_nil : GoesOn [] := by
  intro front t rest h
  simp at h

theorem goesOn_snoc_iff : GoesOn (span ++ [t]) ↔
    GoesOn span ∧ endsList (openParens span) t = false := by
  constructor
  · intro h
    constructor
    · rintro front u rest rfl
      apply h front u (rest ++ [t])
      simp
    · exact h span t [] rfl
  · rintro ⟨hspan, ht⟩ front u rest h
    obtain ⟨-, rfl, rfl⟩ | ⟨rest', -, hsplit⟩ := snoc_eq_append_cons_iff.1 h
    · exact ht
    · exact hspan front u rest' hsplit

theorem expectsName_nil : ExpectsName [] := by
  intro front t rest h
  simp at h

theorem expectsName_snoc_iff : ExpectsName (span ++ [t]) ↔
    t = .comma ∧ openParens span = 0 ∨
      ExpectsName span ∧ ¬ (t.isVariable = true ∧ openParens span = 0) := by
  constructor
  · intro h
    by_cases hcomma : t = .comma ∧ openParens span = 0
    · exact .inl hcomma
    · refine .inr ⟨?_, ?_⟩
      · rintro front u rest rfl hvariable hopen
        obtain ⟨mid, more, hrest, hclosed⟩ := h front u (rest ++ [t]) (by simp) hvariable hopen
        obtain ⟨-, rfl, rfl⟩ | ⟨more', -, hsplit⟩ := snoc_eq_append_cons_iff.1 hrest
        · exact absurd ⟨rfl, hclosed⟩ hcomma
        · exact ⟨mid, more', hsplit, hclosed⟩
      · rintro ⟨hvariable, hopen⟩
        obtain ⟨mid, more, hrest, -⟩ := h span t [] rfl hvariable hopen
        simp at hrest
  · rintro h front u rest hsplit hvariable hopen
    obtain ⟨rfl, rfl, rfl⟩ | ⟨rest', rfl, rfl⟩ := snoc_eq_append_cons_iff.1 hsplit
    · rcases h with ⟨rfl, -⟩ | ⟨-, hno⟩
      · cases hvariable
      · exact absurd ⟨hvariable, hopen⟩ hno
    · rcases h with ⟨rfl, hclosed⟩ | ⟨hspan, -⟩
      · exact ⟨rest', [], rfl, hclosed⟩
      · obtain ⟨mid, more, rfl, hclosed⟩ := hspan front u rest' rfl hvariable hopen
        exact ⟨mid, more ++ [t], by simp, hclosed⟩

/-- What a word begins that declarations or a call begin with. -/
def Begins (w : Word) (begun : Context) : Prop :=
  beginsDeclaration w = true ∧ begun = .declaration true ∨
    beginsCall w = true ∧ begun = .call true

theorem opening_of_begins {begun : Context} (h : Begins w begun) :
    opening (.word w) = ⟨begun, 0⟩ := by
  rcases h with ⟨hdeclaration, rfl⟩ | ⟨hcall, rfl⟩
  · simp [opening, hdeclaration]
  · have hno : beginsDeclaration w = false := by
      simp only [beginsCall, beginsDeclaration, Word.isKeyword, Bool.or_eq_true, Bool.and_eq_true,
        beq_iff_eq] at hcall ⊢
      rcases hcall with ⟨-, hword⟩ | ⟨-, hword⟩ <;> rw [hword] <;> simp
    simp [opening, hno, hcall]

theorem exists_begins_of_opening (h : (opening t).context ≠ .statement) :
    ∃ w, t = .word w ∧ Begins w (opening t).context := by
  cases t with
  | word w =>
      refine ⟨w, rfl, ?_⟩
      cases hdeclaration : beginsDeclaration w with
      | true => exact .inl ⟨hdeclaration, by simp [opening, hdeclaration]⟩
      | false =>
          cases hcall : beginsCall w with
          | true => exact .inr ⟨hcall, by simp [opening, hdeclaration, hcall]⟩
          | false => simp [opening, hdeclaration, hcall] at h
  | _ => exact absurd rfl h

theorem endsList_of_begins {begun : Context} (h : Begins w begun) (depth : Nat) :
    endsList depth (.word w) = true := by
  rcases h with ⟨hw, -⟩ | ⟨hw, -⟩ <;> simp [endsList, hw]

theorem depth_stateAfter (context : Context) (h : GoesOn span) :
    (stateAfter ⟨context, 0⟩ span).depth = openParens span := by
  induction span using List.reverseRecOn with
  | nil => rfl
  | append_singleton span t ih =>
      obtain ⟨hspan, ht⟩ := goesOn_snoc_iff.1 h
      rw [stateAfter_snoc, after_eq, ih hspan, ht, openParens_snoc]
      simp

theorem context_stateAfter_snoc (context : Context) (h : GoesOn (span ++ [t])) :
    (stateAfter ⟨context, 0⟩ (span ++ [t])).context =
      (stateAfter ⟨context, 0⟩ span).context.after (openParens span) t := by
  obtain ⟨hspan, ht⟩ := goesOn_snoc_iff.1 h
  rw [stateAfter_snoc, after_eq, depth_stateAfter context hspan, ht]
  simp

theorem context_stateAfter_call (h : GoesOn span) :
    (stateAfter ⟨.call true, 0⟩ span).context = .call (span.all fun t => !t.isWord) := by
  induction span using List.reverseRecOn with
  | nil => rfl
  | append_singleton span t ih =>
      rw [context_stateAfter_snoc _ h, ih (goesOn_snoc_iff.1 h).1]
      simp [Context.after]

theorem context_stateAfter_declaration (h : GoesOn span) :
    ∃ expectsName, (stateAfter ⟨.declaration true, 0⟩ span).context = .declaration expectsName ∧
      (expectsName = true ↔ ExpectsName span) := by
  induction span using List.reverseRecOn with
  | nil => exact ⟨true, rfl, iff_of_true rfl expectsName_nil⟩
  | append_singleton span t ih =>
      obtain ⟨expectsName, hcontext, hexpects⟩ := ih (goesOn_snoc_iff.1 h).1
      rw [context_stateAfter_snoc _ h, hcontext]
      refine ⟨_, rfl, ?_⟩
      rw [expectsName_snoc_iff, ← hexpects]
      by_cases hopen : openParens span = 0 <;> simp [hopen]

/-- A span with the text before it, which ends in the word that begins what the span goes on
with. -/
structure IsWithin (begun : Context) (ts span : List Token) : Prop where
  begins : ∃ front w, ts = front ++ .word w :: span ∧ Begins w begun
  goesOn : GoesOn span

theorem IsWithin.stateAfter_eq {begun : Context} (h : IsWithin begun ts span) (s : State) :
    stateAfter s ts = stateAfter ⟨begun, 0⟩ span := by
  obtain ⟨front, w, rfl, hw⟩ := h.begins
  rw [stateAfter_append]
  change stateAfter ((stateAfter s front).after (.word w)) span = _
  rw [after_eq, endsList_of_begins hw, if_pos rfl, opening_of_begins hw]

/-- A text is inside of what a word began if nothing has ended that since. -/
theorem exists_isWithin (h : (stateAfter {} ts).context ≠ .statement) :
    ∃ begun span, IsWithin begun ts span := by
  induction ts using List.reverseRecOn with
  | nil => exact absurd rfl h
  | append_singleton ts t ih =>
      rw [stateAfter_snoc, after_eq] at h
      split at h
      · obtain ⟨w, rfl, hw⟩ := exists_begins_of_opening h
        exact ⟨_, [], ⟨ts, w, rfl, hw⟩, goesOn_nil⟩
      · rename_i hgoes
        have hbefore : (stateAfter {} ts).context ≠ .statement := by
          intro hcontext
          rw [hcontext] at h
          exact h rfl
        obtain ⟨begun, span, hwithin⟩ := ih hbefore
        obtain ⟨front, w, hts, hw⟩ := hwithin.begins
        refine ⟨begun, span ++ [t], ⟨front, w, by simp [hts], hw⟩, ?_⟩
        rw [goesOn_snoc_iff]
        rw [hwithin.stateAfter_eq, depth_stateAfter begun hwithin.goesOn] at hgoes
        exact ⟨hwithin.goesOn, by simpa using hgoes⟩

/-- A word at a place names an argument: it stands outside of parentheses in a call, behind the
first word of it and right before an equals sign. -/
def NamesArgumentAt (ts : List Token) (i : Nat) : Prop :=
  (∃ span, IsWithin (.call true) (ts.take i) span ∧ openParens span = 0 ∧
    ∃ t ∈ span, t.isWord = true) ∧ ts[i + 1]? = some .equals

/-- A variable is read at a place. -/
def ReadsAt (ts : List Token) (i : Nat) (w : Word) : Prop :=
  ts[i]? = some (.word w) ∧ w.isVariable = true ∧ ¬ NamesArgumentAt ts i

/-- A variable is declared at a place: it stands outside of parentheses in a list of declarations,
as the first one there since the last comma. -/
def DeclaresAt (ts : List Token) (i : Nat) (w : Word) : Prop :=
  ts[i]? = some (.word w) ∧ w.isVariable = true ∧
    ∃ span, IsWithin (.declaration true) (ts.take i) span ∧ openParens span = 0 ∧ ExpectsName span

theorem IsWithin.of_context {begun : Context} (h : IsWithin begun ts span) {atStart : Bool}
    (hcontext : (stateAfter {} ts).context = .call atStart) : begun = .call true := by
  obtain ⟨-, w, -, hw⟩ := h.begins
  rcases hw with ⟨-, rfl⟩ | ⟨-, rfl⟩
  · obtain ⟨expectsName, hdeclaration, -⟩ := context_stateAfter_declaration h.goesOn
    rw [h.stateAfter_eq, hdeclaration] at hcontext
    cases hcontext
  · rfl

theorem namesArgument_stateAfter_iff : (stateAfter {} ts).namesArgument = true ↔
    ∃ span, IsWithin (.call true) ts span ∧ openParens span = 0 ∧ ∃ t ∈ span, t.isWord = true := by
  constructor
  · intro h
    simp only [State.namesArgument, Bool.and_eq_true, beq_iff_eq] at h
    obtain ⟨hcontext, hdepth⟩ := h
    obtain ⟨begun, span, hwithin⟩ := @exists_isWithin ts (by simp [hcontext])
    obtain rfl := hwithin.of_context hcontext
    rw [hwithin.stateAfter_eq] at hcontext hdepth
    rw [context_stateAfter_call hwithin.goesOn] at hcontext
    rw [depth_stateAfter _ hwithin.goesOn] at hdepth
    refine ⟨span, hwithin, hdepth, ?_⟩
    simpa using hcontext
  · rintro ⟨span, hwithin, hopen, t, ht, hword⟩
    have hcontext := context_stateAfter_call hwithin.goesOn
    have hnot : (span.all fun t => !t.isWord) = false := by
      rw [List.all_eq_false]
      exact ⟨t, ht, by simp [hword]⟩
    rw [hnot] at hcontext
    simp [State.namesArgument, hwithin.stateAfter_eq, hcontext,
      depth_stateAfter _ hwithin.goesOn, hopen]

theorem declares_stateAfter_iff : (stateAfter {} ts).declares = true ↔
    ∃ span, IsWithin (.declaration true) ts span ∧ openParens span = 0 ∧ ExpectsName span := by
  constructor
  · intro h
    simp only [State.declares, Bool.and_eq_true, beq_iff_eq] at h
    obtain ⟨hcontext, hdepth⟩ := h
    obtain ⟨begun, span, hwithin⟩ := @exists_isWithin ts (by simp [hcontext])
    rw [hwithin.stateAfter_eq] at hcontext hdepth
    obtain ⟨-, w, -, hw⟩ := hwithin.begins
    rcases hw with ⟨-, rfl⟩ | ⟨-, rfl⟩
    · obtain ⟨expectsName, hdeclaration, hexpects⟩ :=
        context_stateAfter_declaration hwithin.goesOn
      rw [hdeclaration] at hcontext
      rw [depth_stateAfter _ hwithin.goesOn] at hdepth
      refine ⟨span, hwithin, hdepth, hexpects.1 ?_⟩
      simpa using hcontext
    · rw [context_stateAfter_call hwithin.goesOn] at hcontext
      cases hcontext
  · rintro ⟨span, hwithin, hopen, hexpects⟩
    obtain ⟨expectsName, hdeclaration, hiff⟩ := context_stateAfter_declaration hwithin.goesOn
    simp [State.declares, hwithin.stateAfter_eq, hdeclaration,
      depth_stateAfter _ hwithin.goesOn, hopen, hiff.2 hexpects]

theorem mem_mentions_iff {placed : List PlacedToken} {m : Mention} :
    m ∈ mentions s placed ↔ ∃ i t, placed[i]? = some t ∧
      mention? (stateAfter s ((placed.take i).map (·.token))) t
        (placed[i + 1]?.map (·.token)) = some m := by
  induction placed generalizing s with
  | nil => simp [mentions]
  | cons t rest ih =>
      rw [mentions, List.mem_append, Option.mem_toList, ih, List.head?_eq_getElem?]
      constructor
      · rintro (hhere | ⟨i, u, hu, hthere⟩)
        · exact ⟨0, t, rfl, by simpa [stateAfter] using hhere⟩
        · exact ⟨i + 1, u, hu, hthere⟩
      · rintro ⟨i, u, hu, hm⟩
        cases i with
        | zero =>
            obtain rfl : t = u := by simpa using hu
            exact .inl (by simpa [stateAfter] using hm)
        | succ i => exact .inr ⟨i, u, hu, hm⟩

theorem mention?_eq_some_iff {t : PlacedToken} {following : Option Token} {m : Mention} :
    mention? s t following = some m ↔ ∃ w, t.token = .word w ∧ w.isVariable = true ∧
      ¬ (s.namesArgument = true ∧ following = some .equals) ∧
      m = ⟨⟨w.value, t.offset⟩, s.declares⟩ := by
  obtain ⟨token, offset⟩ := t
  cases token with
  | word w =>
      have hname : (w.isVariable && !(s.namesArgument && following == some .equals)) = true ↔
          w.isVariable = true ∧ ¬ (s.namesArgument = true ∧ following = some .equals) := by
        cases s.namesArgument <;> simp
      unfold mention?
      simp only [Option.ite_none_right_eq_some, hname, Option.some.injEq, Token.word.injEq,
        exists_eq_left', and_assoc, @eq_comm _ m]
  | _ => simp [mention?]

theorem mention?_eq_none_iff {t : PlacedToken} {following : Option Token} :
    mention? s t following = none ↔ ∀ w, t.token = .word w → w.isVariable = true →
      s.namesArgument = true ∧ following = some .equals := by
  rw [Option.eq_none_iff_forall_ne_some]
  constructor
  · intro h w hw hvariable
    by_contra hno
    exact h _ (mention?_eq_some_iff.2 ⟨w, hw, hvariable, hno, rfl⟩)
  · rintro h m hm
    obtain ⟨w, hw, hvariable, hno, -⟩ := mention?_eq_some_iff.1 hm
    exact hno (h w hw hvariable)

theorem mention?_congr {following following' : Option Token}
    (h : following = some .equals ↔ following' = some .equals) (s : State) (t : PlacedToken) :
    mention? s t following = mention? s t following' := by
  apply Option.ext
  intro m
  rw [mention?_eq_some_iff, mention?_eq_some_iff, h]

theorem DeclaresAt.readsAt {i : Nat} (h : DeclaresAt ts i w) : ReadsAt ts i w := by
  obtain ⟨hw, hvariable, hspan⟩ := h
  refine ⟨hw, hvariable, ?_⟩
  rintro ⟨hcall, -⟩
  have hdeclares := declares_stateAfter_iff.2 hspan
  have hnames := namesArgument_stateAfter_iff.2 hcall
  simp only [State.declares, State.namesArgument, Bool.and_eq_true, beq_iff_eq] at hdeclares hnames
  rw [hdeclares.1] at hnames
  cases hnames.1

/-- What a scan from the start finds: the variables that are read, each where it stands. -/
theorem mem_mentions_start_iff {placed : List PlacedToken} {m : Mention} :
    m ∈ mentions {} placed ↔ ∃ i t w, placed[i]? = some t ∧
      ReadsAt (placed.map (·.token)) i w ∧ m.use = ⟨w.value, t.offset⟩ ∧
      (m.declared = true ↔ DeclaresAt (placed.map (·.token)) i w) := by
  rw [mem_mentions_iff]
  refine exists_congr fun i => exists_congr fun t => ?_
  unfold ReadsAt NamesArgumentAt DeclaresAt
  rw [List.getElem?_map, List.getElem?_map, ← List.map_take, ← namesArgument_stateAfter_iff,
    ← declares_stateAfter_iff, mention?_eq_some_iff]
  constructor
  · rintro ⟨ht, w, hw, hvariable, hno, rfl⟩
    have htoken : placed[i]?.map (·.token) = some (.word w) := by rw [ht, Option.map_some, hw]
    exact ⟨w, ht, ⟨htoken, hvariable, hno⟩, rfl, by simp [htoken, hvariable]⟩
  · rintro ⟨w, ht, ⟨hw, hvariable, hno⟩, huse, hdeclared⟩
    simp only [hw, hvariable, true_and] at hdeclared
    rw [ht] at hw
    obtain ⟨use, declared⟩ := m
    refine ⟨ht, w, by simpa using hw, hvariable, hno, ?_⟩
    rw [Mention.mk.injEq]
    exact ⟨huse, Bool.eq_iff_iff.2 hdeclared⟩

theorem ReadsAt.exists_mention {placed : List PlacedToken} {i : Nat}
    (h : ReadsAt (placed.map (·.token)) i w) :
    ∃ t, placed[i]? = some t ∧ ∃ m ∈ mentions {} placed, m.use = ⟨w.value, t.offset⟩ ∧
      (m.declared = true ↔ DeclaresAt (placed.map (·.token)) i w) := by
  classical
  have htoken := h.1
  rw [List.getElem?_map] at htoken
  obtain ⟨t, ht, -⟩ := Option.map_eq_some_iff.1 htoken
  refine ⟨t, ht, ⟨⟨w.value, t.offset⟩, decide (DeclaresAt (placed.map (·.token)) i w)⟩, ?_, rfl,
    decide_eq_true_iff⟩
  exact mem_mentions_start_iff.2 ⟨i, t, w, ht, h, rfl, decide_eq_true_iff⟩

theorem mem_readings_start_iff {r : Reading} : r ∈ readings {} ts ↔ ∃ i w, ReadsAt ts i w ∧
    r.1 = w.value ∧ (r.2 = true ↔ DeclaresAt ts i w) := by
  have htokens : (ts.map fun t => (⟨t, 0⟩ : PlacedToken)).map (·.token) = ts := by
    rw [List.map_map]
    exact List.map_id ts
  unfold readings
  constructor
  · intro h
    obtain ⟨m, hm, rfl⟩ := List.mem_map.1 h
    obtain ⟨i, t, w, -, hreads, huse, hdeclared⟩ := mem_mentions_start_iff.1 hm
    rw [htokens] at hreads hdeclared
    exact ⟨i, w, hreads, by simp [Mention.reading, huse], hdeclared⟩
  · rintro ⟨i, w, hreads, hname, hdeclared⟩
    refine List.mem_map.2 ⟨⟨⟨w.value, 0⟩, r.2⟩, ?_, by simp [Mention.reading, ← hname]⟩
    refine mem_mentions_start_iff.2 ⟨i, ⟨.word w, 0⟩, w, ?_, ?_, rfl, ?_⟩
    · rw [List.getElem?_map, hreads.1]
      rfl
    · rwa [htokens]
    · rwa [htokens]

theorem mem_keys_start_iff {key : String} :
    key ∈ (readings {} ts).map (fun r => parameterKey r.1) ↔
      ∃ i w, ReadsAt ts i w ∧ parameterKey w.value = key := by
  rw [List.mem_map]
  constructor
  · rintro ⟨r, hr, rfl⟩
    obtain ⟨i, w, hreads, hname, -⟩ := mem_readings_start_iff.1 hr
    exact ⟨i, w, hreads, by rw [hname]⟩
  · rintro ⟨i, w, hreads, rfl⟩
    classical
    exact ⟨(w.value, decide (DeclaresAt ts i w)),
      mem_readings_start_iff.2 ⟨i, w, hreads, rfl, decide_eq_true_iff⟩, rfl⟩

theorem exists_declared_start_iff {key : String} :
    (∃ r ∈ readings {} ts, r.2 = true ∧ parameterKey r.1 = key) ↔
      ∃ i w, DeclaresAt ts i w ∧ parameterKey w.value = key := by
  constructor
  · rintro ⟨r, hr, hdeclared, rfl⟩
    obtain ⟨i, w, -, hname, hiff⟩ := mem_readings_start_iff.1 hr
    exact ⟨i, w, hiff.1 hdeclared, by rw [hname]⟩
  · rintro ⟨i, w, hdeclares, rfl⟩
    refine ⟨(w.value, true), ?_, rfl, rfl⟩
    exact mem_readings_start_iff.2 ⟨i, w, hdeclares.readsAt, rfl, iff_of_true rfl hdeclares⟩

end VariableScan

end QueryShape
