import QueryShape.Proofs.Variables.Places

namespace QueryShape

open QueryShape.Identifier

namespace VariableScan

variable {t : Token} {ts us rest : List Token} {depth : Nat} {context : Context}

/-- Whether tokens, behind some open parentheses, stay a part of the statement that they stand in:
they close the parentheses, nothing in them ends the statement, and outside of parentheses there is
no comma. -/
def isContained (depth : Nat) : List Token → Bool
  | [] => depth == 0
  | t :: rest =>
      !endsList depth t && !(depth == 0 && (t == .comma || t == .closeParen)) &&
        isContained (depthAfter depth t) rest

/-- Whether the first of the tokens, or what stands behind them if there are none, is an equals
sign. -/
def startsWithEquals (equalsBehind : Bool) : List Token → Bool
  | [] => equalsBehind
  | t :: _ => t == .equals

/-- Whether a variable stands outside of parentheses right before an equals sign. At the start of a
call that is no matter for its first word. -/
def assigns (equalsBehind : Bool) (atStart : Bool) (depth : Nat) : List Token → Bool
  | [] => false
  | t :: rest =>
      !atStart && depth == 0 && t.isVariable && startsWithEquals equalsBehind rest ||
        assigns equalsBehind (atStart && !t.isWord) (depthAfter depth t) rest

/-- The context behind contained tokens. -/
def Context.behind (ts : List Token) : Context → Context
  | .call atStart => .call (atStart && ts.all fun t => !t.isWord)
  | context => context

theorem isContained_cons_iff : isContained depth (t :: ts) = true ↔ endsList depth t = false ∧
    ¬ (depth = 0 ∧ (t = .comma ∨ t = .closeParen)) ∧
      isContained (depthAfter depth t) ts = true := by
  have hinside : (!(depth == 0 && (t == .comma || t == .closeParen))) = true ↔
      ¬ (depth = 0 ∧ (t = .comma ∨ t = .closeParen)) := by
    rw [Bool.not_eq_true', ← Bool.not_eq_true]
    simp
  rw [isContained, Bool.and_eq_true, Bool.and_eq_true, Bool.not_eq_true', hinside, and_assoc]

theorem after_of_isContained (h : isContained depth (t :: ts) = true)
    (hcontext : context ≠ .declaration true) :
    (⟨context, depth⟩ : State).after t =
      ⟨context.behind [t], depthAfter depth t⟩ := by
  obtain ⟨hends, hinside, -⟩ := isContained_cons_iff.1 h
  rw [after_eq, hends]
  cases context with
  | statement => rfl
  | declaration expectsName =>
      cases expectsName with
      | true => exact absurd rfl hcontext
      | false =>
          have hcomma : depth = 0 → (t == .comma) = false := by
            intro hdepth
            rw [beq_eq_false_iff_ne]
            exact fun ht => hinside ⟨hdepth, .inl ht⟩
          by_cases hdepth : depth = 0 <;> simp [Context.after, Context.behind, hdepth, hcomma]
  | call atStart => simp [Context.after, Context.behind]

theorem behind_cons (context : Context) (t : Token) (ts : List Token) :
    (context.behind [t]).behind ts = context.behind (t :: ts) := by
  cases context with
  | call atStart => simp [Context.behind, Bool.and_assoc]
  | _ => rfl

theorem behind_ne_declaration (h : context ≠ .declaration true) (ts : List Token) :
    context.behind ts ≠ .declaration true := by
  cases context with
  | call atStart => exact nofun
  | _ => exact h

theorem startsWithEquals_eq (ts rest : List Token) :
    startsWithEquals (rest.head? == some .equals) ts = ((ts ++ rest).head? == some .equals) := by
  cases ts <;> rfl

theorem readings_mention?_of_not_declares {s : State} {following : Option Token}
    (hdeclares : s.declares = false)
    (hread : ¬ (t.isVariable = true ∧ s.namesArgument = true ∧ following = some .equals)) :
    (mention? s ⟨t, 0⟩ following).toList.map Mention.reading =
      t.variableName?.toList.map (·, false) := by
  cases t with
  | word w =>
      cases hvariable : w.isVariable with
      | false => simp [mention?, Token.variableName?, hvariable]
      | true =>
          have hnot : (s.namesArgument && following == some .equals) = false := by
            have hword : (Token.word w).isVariable = true := hvariable
            simpa [hword] using hread
          simp [mention?, Token.variableName?, hvariable, hnot, hdeclares, Mention.reading]
  | _ => rfl

theorem readings_append_of_isContained (h : isContained depth ts = true)
    (hcontext : context ≠ .declaration true)
    (hassigns : ∀ atStart, context = .call atStart →
      assigns (rest.head? == some .equals) atStart depth ts = false) :
    readings ⟨context, depth⟩ (ts ++ rest) =
      (ts.filterMap Token.variableName?).map (·, false) ++
        readings ⟨context.behind ts, 0⟩ rest := by
  induction ts generalizing context depth with
  | nil =>
      obtain rfl : depth = 0 := eq_of_beq h
      cases context <;> simp [Context.behind]
  | cons t ts ih =>
      have hdeclares : (⟨context, depth⟩ : State).declares = false := by
        simp [State.declares, hcontext]
      have hread : ¬ (t.isVariable = true ∧ (⟨context, depth⟩ : State).namesArgument = true ∧
          (ts ++ rest).head? = some .equals) := by
        rintro ⟨hvariable, hnames, hequals⟩
        simp only [State.namesArgument, Bool.and_eq_true, beq_iff_eq] at hnames
        have hassign := hassigns false hnames.1
        simp [assigns, startsWithEquals_eq, hvariable, hnames.2, hequals] at hassign
      have hrest : ∀ atStart, context.behind [t] = .call atStart →
          assigns (rest.head? == some .equals) atStart (depthAfter depth t) ts = false := by
        intro atStart hbehind
        cases context with
        | call started =>
            have hassign := (Bool.or_eq_false_iff.1 (hassigns started rfl)).2
            simp only [Context.behind, List.all_cons, List.all_nil, Bool.and_true,
              Context.call.injEq] at hbehind
            rwa [hbehind] at hassign
        | statement => cases hbehind
        | declaration expectsName => cases hbehind
      rw [List.cons_append, readings_cons, after_of_isContained h hcontext,
        ih (isContained_cons_iff.1 h).2.2 (behind_ne_declaration hcontext _) hrest, behind_cons,
        readings_mention?_of_not_declares hdeclares hread]
      cases hname : t.variableName? <;> simp [hname]

/-- Token lists with commas between them. -/
def commaSeparated : List (List Token) → List Token
  | [] => []
  | ts :: more => ts ++ more.flatMap (.comma :: ·)

/-- A declared variable with its type and the expression for its value. -/
structure DeclaredItem where
  name : Word
  type : List Token
  value : Option (List Token) := none
  isVariable : name.isVariable = true
  type_isContained : isContained 0 type = true
  value_isContained : ∀ ts ∈ value, isContained 0 ts = true

namespace DeclaredItem

def tokens (i : DeclaredItem) : List Token :=
  .word i.name :: (i.type ++ i.value.elim [] (.equals :: ·))

/-- The variables in the type and in the expression. -/
def used (i : DeclaredItem) : List String :=
  (i.type ++ i.value.getD []).filterMap Token.variableName?

/-- What is read in an item: its name, which is declared, and the variables of its value. -/
def readings (i : DeclaredItem) : List Reading :=
  (i.name.value, true) :: i.used.map (·, false)

end DeclaredItem

/-- An argument of a call, which may have a name. -/
structure Argument where
  name : Option Word := none
  value : List Token
  isVariable : ∀ w ∈ name, w.isVariable = true
  value_isContained : isContained 0 value = true

namespace Argument

def tokens (a : Argument) : List Token :=
  a.name.elim [] (fun w => [.word w, .equals]) ++ a.value

def used (a : Argument) : List String :=
  a.value.filterMap Token.variableName?

end Argument

/-- A call of a procedure, with the variable for its return code. -/
structure Call where
  result : Option Word := none
  procedure : List Token
  arguments : List Argument
  isVariable : ∀ w ∈ result, w.isVariable = true
  procedure_isContained : isContained 0 procedure = true
  procedure_isNamed : result = none → ∃ t ∈ procedure, t.isWord = true

namespace Call

def argumentTokens (c : Call) : List Token :=
  commaSeparated (c.arguments.map Argument.tokens)

def tokens (c : Call) : List Token :=
  c.result.elim [] (fun w => [.word w, .equals]) ++ (c.procedure ++ c.argumentTokens)

/-- The variables that the call reads. -/
def used (c : Call) : List String :=
  (c.result.map Word.value).toList ++
    (c.procedure.filterMap Token.variableName? ++ c.arguments.flatMap Argument.used)

/-- Only the names of arguments, and the first word of the call, are variables right before an
equals sign outside of parentheses. -/
def AssignsNothing (c : Call) : Prop :=
  assigns (c.argumentTokens.head? == some .equals) c.result.isNone 0 c.procedure = false ∧
    ∀ a ∈ c.arguments, assigns false false 0 a.value = false

instance (c : Call) : Decidable c.AssignsNothing :=
  inferInstanceAs (Decidable (_ ∧ _))

end Call

/-- A statement with a list of declarations or of arguments. -/
inductive ListStatement where
  | declaration (keyword : Word) (h : beginsDeclaration keyword = true) (items : List DeclaredItem)
  | call (keyword : Word) (h : beginsCall keyword = true) (c : Call)

namespace ListStatement

def tokens : ListStatement → List Token
  | declaration keyword _ items => .word keyword :: commaSeparated (items.map DeclaredItem.tokens)
  | call keyword _ c => .word keyword :: c.tokens

/-- The variables that the statement declares. -/
def names : ListStatement → List String
  | declaration _ _ items => items.map (·.name.value)
  | call .. => []

/-- The variables that the statement mentions, all but the names of arguments. -/
def used : ListStatement → List String
  | declaration _ _ items => items.flatMap fun i => i.name.value :: i.used
  | call _ _ c => c.used

/-- The call, if it is one, assigns nothing but its result and its arguments. -/
def AssignsNothing : ListStatement → Prop
  | declaration .. => True
  | call _ _ c => c.AssignsNothing

/-- What is read in the statement. -/
def readings : ListStatement → List Reading
  | declaration _ _ items => items.flatMap DeclaredItem.readings
  | call _ _ c => c.used.map (·, false)

theorem map_fst_readings (s : ListStatement) : s.readings.map (·.1) = s.used := by
  cases s with
  | declaration keyword h items =>
      simp [readings, used, DeclaredItem.readings, List.map_flatMap, Function.comp_def]
  | call keyword h c => simp [readings, used, Function.comp_def]

theorem declared_readings (s : ListStatement) :
    (s.readings.filter (·.2)).map (·.1) = s.names := by
  cases s with
  | declaration keyword h items =>
      have hone : ∀ i : DeclaredItem, (i.readings.filter (·.2)).map (·.1) = [i.name.value] := by
        intro i
        simp [DeclaredItem.readings]
      rw [readings, List.filter_flatMap, List.map_flatMap, names, List.map_eq_flatMap]
      exact congrArg (items.flatMap ·) (funext hone)
  | call keyword h c => simp [readings, names]

end ListStatement

theorem readings_commaSeparated {ι : Type} {tokens : ι → List Token} {found : ι → List Reading}
    {start inside : State} {items : List ι} (hcomma : inside.after .comma = start)
    (hitem : ∀ i ∈ items, ∀ rest, rest.head? ≠ some .equals →
      readings start (tokens i ++ rest) = found i ++ readings inside rest) :
    readings start (commaSeparated (items.map tokens)) = items.flatMap found := by
  have hmore : ∀ more : List ι, (∀ i ∈ more, i ∈ items) →
      (more.flatMap fun i => .comma :: tokens i).head? ≠ some .equals ∧
        readings inside (more.flatMap fun i => .comma :: tokens i) = more.flatMap found := by
    intro more hmem
    induction more with
    | nil => exact ⟨nofun, rfl⟩
    | cons i more ih =>
        obtain ⟨hi, hmem⟩ := List.forall_mem_cons.1 hmem
        obtain ⟨hhead, hreadings⟩ := ih hmem
        refine ⟨by simp, ?_⟩
        rw [List.flatMap_cons, List.cons_append, readings_cons_of_isVariable _ rfl, hcomma,
          hitem i hi _ hhead, hreadings, List.flatMap_cons]
  cases items with
  | nil => rfl
  | cons i more =>
      obtain ⟨hhead, hreadings⟩ := hmore more fun j hj => List.mem_cons_of_mem _ hj
      rw [List.map_cons, commaSeparated, List.flatMap_map, hitem i List.mem_cons_self _ hhead,
        hreadings, List.flatMap_cons]

theorem readings_declaredItem (i : DeclaredItem) (rest : List Token) :
    readings ⟨.declaration true, 0⟩ (i.tokens ++ rest) =
      i.readings ++ readings ⟨.declaration false, 0⟩ rest := by
  have hcontained : ∀ {ts : List Token} (us : List Token), isContained 0 ts = true →
      readings ⟨.declaration false, 0⟩ (ts ++ us) =
        (ts.filterMap Token.variableName?).map (·, false) ++
          readings ⟨.declaration false, 0⟩ us :=
    fun us h => readings_append_of_isContained h nofun nofun
  rw [DeclaredItem.tokens, List.cons_append, readings_cons_variable _ i.isVariable rfl,
    List.append_assoc]
  change (_, true) :: readings ⟨.declaration false, 0⟩ _ = _
  rw [hcontained _ i.type_isContained, DeclaredItem.readings, DeclaredItem.used]
  cases hvalue : i.value with
  | none => simp
  | some ts =>
      have hts : isContained 0 ts = true := i.value_isContained ts hvalue
      simp only [Option.elim_some, List.cons_append, Option.getD_some]
      rw [readings_cons_of_isVariable _ rfl]
      change _ :: (_ ++ readings ⟨.declaration false, 0⟩ _) = _
      rw [hcontained _ hts]
      simp

theorem readings_argument {a : Argument} (h : assigns false false 0 a.value = false)
    (hrest : rest.head? ≠ some .equals) :
    readings ⟨.call false, 0⟩ (a.tokens ++ rest) =
      a.used.map (·, false) ++ readings ⟨.call false, 0⟩ rest := by
  have hvalue : readings ⟨.call false, 0⟩ (a.value ++ rest) =
      a.used.map (·, false) ++ readings ⟨.call false, 0⟩ rest := by
    have hcontext : Context.call false ≠ .declaration true := nofun
    apply readings_append_of_isContained a.value_isContained hcontext
    intro atStart hstart
    obtain rfl : false = atStart := Context.call.inj hstart
    rwa [beq_eq_false_iff_ne.2 hrest]
  rw [Argument.tokens]
  cases hname : a.name with
  | none => exact hvalue
  | some w =>
      have hw : w.isVariable = true := a.isVariable w hname
      have hnamed : mention? ⟨.call false, 0⟩ ⟨.word w, 0⟩ (some .equals) = none := by
        simp [mention?, State.namesArgument]
      simp only [Option.elim_some, List.cons_append, List.nil_append]
      rw [readings_cons, List.head?_cons, hnamed, after_variable hw,
        readings_cons_of_isVariable _ rfl]
      exact hvalue

theorem readings_procedure {c : Call} (h : c.AssignsNothing) :
    readings ⟨.call c.result.isNone, 0⟩ (c.procedure ++ c.argumentTokens) =
      (c.procedure.filterMap Token.variableName?).map (·, false) ++
        readings ⟨.call false, 0⟩ c.argumentTokens := by
  have hcontext : Context.call c.result.isNone ≠ .declaration true := nofun
  have hbehind : (Context.call c.result.isNone).behind c.procedure = .call false := by
    cases hresult : c.result with
    | some w => rfl
    | none =>
        obtain ⟨t, ht, hword⟩ := c.procedure_isNamed hresult
        have hnot : (c.procedure.all fun t => !t.isWord) = false := by
          rw [List.all_eq_false]
          exact ⟨t, ht, by simp [hword]⟩
        rw [Context.behind, hnot, Bool.and_false]
  rw [readings_append_of_isContained c.procedure_isContained hcontext, hbehind]
  intro atStart hstart
  obtain rfl : c.result.isNone = atStart := Context.call.inj hstart
  exact h.1

theorem readings_call {c : Call} (h : c.AssignsNothing) :
    readings ⟨.call true, 0⟩ c.tokens = c.used.map (·, false) := by
  have hargs : readings ⟨.call false, 0⟩ c.argumentTokens =
      c.arguments.flatMap fun a => a.used.map (·, false) := by
    have hcomma : (⟨.call false, 0⟩ : State).after .comma = ⟨.call false, 0⟩ := rfl
    apply readings_commaSeparated hcomma
    intro a ha rest hrest
    exact readings_argument (h.2 a ha) hrest
  have hbody := readings_procedure h
  rw [hargs] at hbody
  rw [Call.tokens, Call.used]
  cases hresult : c.result with
  | none =>
      rw [hresult] at hbody
      simpa [List.map_flatMap] using hbody
  | some w =>
      have hw : w.isVariable = true := c.isVariable w hresult
      rw [hresult] at hbody
      simp only [Option.elim_some, List.cons_append, List.nil_append]
      rw [readings_cons_variable _ hw rfl, readings_cons_of_isVariable _ rfl]
      change (w.value, false) :: readings ⟨.call false, 0⟩ (c.procedure ++ c.argumentTokens) = _
      have hread : readings ⟨.call false, 0⟩ (c.procedure ++ c.argumentTokens) = _ := hbody
      rw [hread]
      simp [List.map_flatMap]

theorem readings_begins {w : Word} {begun : Context} (h : Begins w begun) (s : State)
    (rest : List Token) : readings s (.word w :: rest) = readings ⟨begun, 0⟩ rest := by
  have hends := endsList_of_begins h s.depth
  have hvariable : (Token.word w).isVariable = false := by
    rw [← Bool.not_eq_true]
    intro hvariable
    rw [endsList_of_isVariable hvariable] at hends
    cases hends
  rw [readings_cons_of_isVariable _ hvariable, after_eq, hends, if_pos rfl, opening_of_begins h]

/-- A scan reads the variables of such a statement. -/
theorem readings_listStatement {s : ListStatement} (h : s.AssignsNothing) :
    readings {} s.tokens = s.readings := by
  cases s with
  | declaration keyword hkeyword items =>
      rw [ListStatement.tokens, readings_begins (.inl ⟨hkeyword, rfl⟩)]
      have hcomma : (⟨.declaration false, 0⟩ : State).after .comma = ⟨.declaration true, 0⟩ := rfl
      apply readings_commaSeparated hcomma
      intro i _ rest _
      exact readings_declaredItem i rest
  | call keyword hkeyword c =>
      rw [ListStatement.tokens, readings_begins (.inr ⟨hkeyword, rfl⟩)]
      exact readings_call h

/-- No parentheses are open behind the tokens. -/
def Closes (ts : List Token) : Prop :=
  ∀ context, (stateAfter ⟨context, 0⟩ ts).depth = 0

theorem depth_opening (t : Token) : (opening t).depth = 0 := by
  cases t with
  | word w =>
      rw [opening]
      split
      · rfl
      · split <;> rfl
  | _ => rfl

theorem closes_nil : Closes [] :=
  fun _ => rfl

theorem Closes.append (hts : Closes ts) (hus : Closes us) : Closes (ts ++ us) := by
  intro context
  have hdepth := hts context
  rw [stateAfter_append]
  cases hstate : stateAfter ⟨context, 0⟩ ts with
  | mk behind depth =>
      rw [hstate] at hdepth
      obtain rfl : depth = 0 := hdepth
      exact hus behind

theorem Closes.cons (ht : t ≠ .openParen) (hts : Closes ts) : Closes (t :: ts) := by
  have hone : Closes [t] := by
    intro context
    change ((⟨context, 0⟩ : State).after t).depth = 0
    rw [after_eq]
    split
    · exact depth_opening t
    · cases t with
      | openParen => exact absurd rfl ht
      | _ => rfl
  exact hone.append hts

theorem depth_stateAfter_of_isContained (h : isContained depth ts = true) (context : Context) :
    (stateAfter ⟨context, depth⟩ ts).depth = 0 := by
  induction ts generalizing context depth with
  | nil => exact eq_of_beq h
  | cons t ts ih =>
      obtain ⟨hends, -, htail⟩ := isContained_cons_iff.1 h
      change (stateAfter ((⟨context, depth⟩ : State).after t) ts).depth = 0
      rw [after_eq, hends]
      exact ih htail _

theorem closes_of_isContained (h : isContained 0 ts = true) : Closes ts :=
  depth_stateAfter_of_isContained h

theorem closes_commaSeparated {tss : List (List Token)} (h : ∀ ts ∈ tss, Closes ts) :
    Closes (commaSeparated tss) := by
  cases tss with
  | nil => exact closes_nil
  | cons ts more =>
      obtain ⟨hts, hmore⟩ := List.forall_mem_cons.1 h
      refine hts.append ?_
      induction more with
      | nil => exact closes_nil
      | cons us more ih =>
          obtain ⟨hus, hmore⟩ := List.forall_mem_cons.1 hmore
          refine Closes.append (hus.cons nofun) ?_
          exact ih (List.forall_mem_cons.2 ⟨hts, hmore⟩) hmore

theorem DeclaredItem.closes (i : DeclaredItem) : Closes i.tokens := by
  refine Closes.cons nofun ((closes_of_isContained i.type_isContained).append ?_)
  cases hvalue : i.value with
  | none => exact closes_nil
  | some ts => exact (closes_of_isContained (i.value_isContained ts hvalue)).cons nofun

theorem closes_name (name : Option Word) : Closes (name.elim [] fun w => [.word w, .equals]) := by
  cases name with
  | none => exact closes_nil
  | some w =>
      have hequals : Closes [.equals] := closes_nil.cons nofun
      exact hequals.cons nofun

theorem ListStatement.closes (s : ListStatement) : Closes s.tokens := by
  cases s with
  | declaration keyword h items =>
      refine Closes.cons nofun (closes_commaSeparated ?_)
      intro ts hts
      obtain ⟨i, -, rfl⟩ := List.mem_map.1 hts
      exact i.closes
  | call keyword h c =>
      refine Closes.cons nofun ((closes_name c.result).append
        ((closes_of_isContained c.procedure_isContained).append (closes_commaSeparated ?_)))
      intro ts hts
      obtain ⟨a, -, rfl⟩ := List.mem_map.1 hts
      exact (closes_name a.name).append (closes_of_isContained a.value_isContained)

end VariableScan

end QueryShape
