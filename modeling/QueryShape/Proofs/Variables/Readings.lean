import QueryShape.Proofs.Variables.Uses

/-!
A scan for variables as it depends on the tokens of a text and not on their places. The main
statements say what a declaration adds to it and how its findings follow from the variables read.
-/

namespace QueryShape

open QueryShape.Identifier

/-- The tokens of a text without the blank ones. -/
def visibleTokens (sql : String) : Option (List Token) :=
  (tokens sql).map (·.filter fun t => !t.isBlank)

def Token.isVariable : Token → Bool
  | word w => w.isVariable
  | _ => false

/-- The name of the variable that a token is. -/
def Token.variableName? : Token → Option String
  | word w => if w.isVariable then some w.value else none
  | _ => none

namespace VariableScan

/-- A variable as it is read: its name, and whether it is declared there. -/
abbrev Reading := String × Bool

/-- A mention without its place. -/
def Mention.reading (m : Mention) : Reading :=
  (m.use.name, m.declared)

/-- What a scan from a state reads in tokens. -/
def readings (s : State) (ts : List Token) : List Reading :=
  (mentions s (ts.map fun t => ⟨t, 0⟩)).map Mention.reading

theorem map_reading_mention? (s : State) (t : Token) (offset : Nat) (following : Option Token) :
    (mention? s ⟨t, offset⟩ following).toList.map Mention.reading =
      (mention? s ⟨t, 0⟩ following).toList.map Mention.reading := by
  cases t with
  | word w =>
      unfold mention?
      dsimp only
      split <;> rfl
  | _ => rfl

theorem readings_cons (s : State) (t : Token) (rest : List Token) :
    readings s (t :: rest) =
      (mention? s ⟨t, 0⟩ rest.head?).toList.map Mention.reading ++ readings (s.after t) rest := by
  have hfollowing : (rest.map fun u => (⟨u, 0⟩ : PlacedToken)).head?.map (·.token) =
      rest.head? := by
    cases rest <;> rfl
  unfold readings
  rw [List.map_cons, mentions, List.map_append, hfollowing]

theorem map_reading_mentions (s : State) (ts : List PlacedToken) :
    (mentions s ts).map Mention.reading = readings s (ts.map (·.token)) := by
  induction ts generalizing s with
  | nil => rfl
  | cons t rest ih =>
      obtain ⟨token, offset⟩ := t
      rw [List.map_cons, readings_cons, mentions, List.map_append, ih, List.head?_map,
        map_reading_mention?]

theorem readings_cons_of_isVariable {s : State} {t : Token} (rest : List Token)
    (h : t.isVariable = false) : readings s (t :: rest) = readings (s.after t) rest := by
  rw [readings_cons]
  cases t with
  | word w =>
      have hvariable : w.isVariable = false := h
      unfold mention?
      dsimp only
      rw [hvariable]
      rfl
  | _ => rfl

theorem isKeyword_of_startsWithAt {w : Word} {keyword : String} {rest : List Char}
    (h : w.value.toList = '@' :: rest) (hkeyword : '@' ∉ keyword.toList) :
    w.isKeyword keyword = false := by
  have hat : '@' ∈ (Text.upper w.value).toList := by
    rw [Text.upper, String.toList_ofList, h, List.flatMap_cons]
    exact List.mem_append_left _ (by decide)
  simp only [Word.isKeyword, Bool.and_eq_false_iff, beq_eq_false_iff_ne]
  right
  rintro rfl
  exact hkeyword hat

theorem isKeyword_of_isVariable {w : Word} {keyword : String} (h : w.isVariable = true)
    (hkeyword : '@' ∉ keyword.toList) : w.isKeyword keyword = false := by
  obtain ⟨c, rest, hvalue, -⟩ := Word.isVariable_iff.1 h
  exact isKeyword_of_startsWithAt hvalue hkeyword

theorem after_variable {s : State} {w : Word} (h : w.isVariable = true) :
    s.after (.word w) = s.afterVariable := by
  change s.afterWord w = s.afterVariable
  unfold State.afterWord
  rw [if_pos h]

theorem readings_cons_variable {s : State} {w : Word} (rest : List Token)
    (hvariable : w.isVariable = true) (hcontext : s.namesArgument = false) :
    readings s (.word w :: rest) =
      (w.value, s.declares) :: readings s.afterVariable rest := by
  rw [readings_cons, after_variable hvariable]
  unfold mention?
  dsimp only
  rw [hvariable, hcontext]
  rfl

/-- A word that begins nothing. -/
def isHarmless (w : Word) : Bool :=
  !w.isVariable && !w.isKeyword "DECLARE" && !w.isKeyword "EXEC" && !w.isKeyword "EXECUTE" &&
    !startsStatement w

/-- Whether a text, after a number of open parentheses, has no variable, no semicolon and no word
that begins something, closes all parentheses and has no comma outside of them. -/
def isInert (depth : Nat) : List Token → Bool
  | [] => depth == 0
  | .word w :: rest => isHarmless w && isInert depth rest
  | .openParen :: rest => isInert (depth + 1) rest
  | .closeParen :: rest => depth != 0 && isInert (depth - 1) rest
  | .comma :: rest => depth != 0 && isInert depth rest
  | .semicolon :: _ => false
  | _ :: rest => isInert depth rest

theorem after_of_isHarmless {w : Word} (h : isHarmless w = true) (depth : Nat) :
    (Token.word w).isVariable = false ∧
      (⟨.declaration false, depth⟩ : State).after (.word w) = ⟨.declaration false, depth⟩ := by
  simp only [isHarmless, Bool.and_eq_true, Bool.not_eq_true'] at h
  obtain ⟨⟨⟨⟨hvariable, hdeclare⟩, hexec⟩, hexecute⟩, hstatement⟩ := h
  refine ⟨hvariable, ?_⟩
  simp [State.after, State.afterWord, State.leaveCallStart, hvariable, hdeclare, hexec, hexecute,
    hstatement]

theorem readings_append_of_isInert {depth : Nat} {ts : List Token} (rest : List Token)
    (h : isInert depth ts = true) :
    readings ⟨.declaration false, depth⟩ (ts ++ rest) =
      readings ⟨.declaration false, 0⟩ rest := by
  fun_induction isInert depth ts with
  | case1 depth =>
      obtain rfl := eq_of_beq h
      rfl
  | case2 depth w tail ih =>
      obtain ⟨hw, htail⟩ := Bool.and_eq_true_iff.1 h
      obtain ⟨hvariable, hafter⟩ := after_of_isHarmless hw depth
      rw [List.cons_append, readings_cons_of_isVariable _ hvariable, hafter]
      exact ih htail
  | case3 depth tail ih =>
      rw [List.cons_append, readings_cons_of_isVariable _ rfl]
      exact ih h
  | case4 depth tail ih =>
      obtain ⟨-, htail⟩ := Bool.and_eq_true_iff.1 h
      rw [List.cons_append, readings_cons_of_isVariable _ rfl]
      exact ih htail
  | case5 depth tail ih =>
      -- Inside of parentheses a comma does not begin the next declaration.
      obtain ⟨hdepth, htail⟩ := Bool.and_eq_true_iff.1 h
      have hafter : (⟨.declaration false, depth⟩ : State).after .comma =
          ⟨.declaration false, depth⟩ := by
        have hne : depth ≠ 0 := by simpa using hdepth
        simp [State.after, State.afterComma, hne]
      rw [List.cons_append, readings_cons_of_isVariable _ rfl, hafter]
      exact ih htail
  | case6 depth tail => cases h
  | case7 depth t tail hword hopen hclose hcomma hsemicolon ih =>
      have hquiet : t.isVariable = false ∧
          (⟨.declaration false, depth⟩ : State).after t = ⟨.declaration false, depth⟩ := by
        cases t with
        | word w => exact absurd rfl (hword w)
        | openParen => exact absurd rfl hopen
        | closeParen => exact absurd rfl hclose
        | comma => exact absurd rfl hcomma
        | semicolon => exact absurd rfl hsemicolon
        | _ => exact ⟨rfl, rfl⟩
      rw [List.cons_append, readings_cons_of_isVariable _ hquiet.1, hquiet.2]
      exact ih h

/-- The tokens of the line that declares a pinned variable, given those of its type. -/
def declarationTokens (stem : String) (typeTokens : List Token) (v : Inference.PinnedVariable) :
    List Token :=
  match v.pin with
  | none => []
  | some (.table _) =>
      .word ⟨"DECLARE", none⟩ :: .word ⟨v.use.name, none⟩ :: (typeTokens ++ [.semicolon])
  | some (.scalar _) =>
      .word ⟨"DECLARE", none⟩ :: .word ⟨v.use.name, none⟩ ::
        (typeTokens ++ [.equals, .word ⟨v.placeholder stem, none⟩, .semicolon])

/-- The variables in the line that declares a pinned variable. -/
def declarationReadings (stem : String) (v : Inference.PinnedVariable) : List Reading :=
  match v.pin with
  | none => []
  | some (.table _) => [(v.use.name, true)]
  | some (.scalar _) => [(v.use.name, true), (v.placeholder stem, false)]

variable {stem : String} {typeTokens : List Token} {v : Inference.PinnedVariable}

theorem readings_declare {w : Word} (rest : List Token) (h : w.isVariable = true) :
    readings {} (.word ⟨"DECLARE", none⟩ :: .word w :: rest) =
      (w.value, true) :: readings ⟨.declaration false, 0⟩ rest := by
  have hstart : ({} : State).after (.word ⟨"DECLARE", none⟩) = ⟨.declaration true, 0⟩ := by
    decide +kernel
  rw [readings_cons_of_isVariable _ (by decide +kernel), hstart, readings_cons_variable _ h rfl]
  rfl

/-- A declaration adds its variables, and the scan goes on as at the start. -/
theorem readings_declarationTokens (rest : List Token) (hname : IsVariableName v.use.name)
    (hplaceholder : IsVariableName (v.placeholder stem)) (htype : isInert 0 typeTokens = true) :
    readings {} (declarationTokens stem typeTokens v ++ rest) =
      declarationReadings stem v ++ readings {} rest := by
  have hvariable := Word.isVariable_iff (w := ⟨v.use.name, none⟩).2 hname
  have hvalue := Word.isVariable_iff (w := ⟨v.placeholder stem, none⟩).2 hplaceholder
  unfold declarationTokens declarationReadings
  rcases v.pin with _ | d | t
  · rfl
  · simp only [List.cons_append, List.append_assoc, List.nil_append]
    rw [readings_declare _ hvariable, readings_append_of_isInert _ htype,
      readings_cons_of_isVariable _ rfl]
    change _ :: readings ⟨.declaration false, 0⟩ _ = _
    rw [readings_cons_variable _ hvalue rfl, readings_cons_of_isVariable _ rfl]
    rfl
  · simp only [List.cons_append, List.append_assoc, List.nil_append]
    rw [readings_declare _ hvariable, readings_append_of_isInert _ htype,
      readings_cons_of_isVariable _ rfl]
    rfl

theorem declared_summary (ms : List Mention) : (summary ms).declared =
    orderedKeys (· ≤ ·)
      (((ms.map Mention.reading).filter (·.2)).map fun r => parameterKey r.1) := by
  rw [List.filter_map, List.map_map]
  rfl

theorem isDeclared_summary_iff {ms : List Mention} {name : String} :
    (summary ms).isDeclared name = true ↔
      ∃ r ∈ ms.map Mention.reading, r.2 = true ∧ parameterKey r.1 = parameterKey name := by
  unfold ScriptVariables.isDeclared summary
  dsimp only
  rw [List.contains_iff_mem, mem_orderedKeys]
  constructor
  · intro h
    obtain ⟨m, hm, hkey⟩ := List.mem_map.1 h
    obtain ⟨hmem, hdeclared⟩ := List.mem_filter.1 hm
    exact ⟨m.reading, List.mem_map_of_mem hmem, hdeclared, hkey⟩
  · rintro ⟨r, hr, hdeclared, hkey⟩
    obtain ⟨m, hm, rfl⟩ := List.mem_map.1 hr
    rw [← hkey]
    exact List.mem_map_of_mem (List.mem_filter.2 ⟨hm, hdeclared⟩)

theorem map_name_references (ms : List Mention) :
    (summary ms).references.map (·.name) =
      firstOfEach parameterKey ((ms.map Mention.reading).map (·.1)) := by
  have hnames : (ms.map Mention.reading).map (·.1) = (ms.map (·.use)).map (·.name) := by
    rw [List.map_map, List.map_map]
    rfl
  rw [hnames, firstOfEach_map]
  rfl

theorem exists_reference_of_isDeclared {ms : List Mention} {name : String}
    (h : (summary ms).isDeclared name = true) :
    ∃ u ∈ (summary ms).references, u.key = parameterKey name := by
  obtain ⟨r, hr, -, hkey⟩ := isDeclared_summary_iff.1 h
  obtain ⟨m, hm, rfl⟩ := List.mem_map.1 hr
  have hmention : m.use.key ∈ (ms.map (·.use)).map VariableUse.key :=
    List.mem_map_of_mem (List.mem_map_of_mem hm)
  obtain ⟨u, hu, hukey⟩ := List.mem_map.1 (mem_map_firstOfEach.2 hmention)
  exact ⟨u, hu, hukey.trans hkey⟩

theorem exists_undeclared_of_reading {ms : List Mention} {r : Reading}
    (hr : r ∈ ms.map Mention.reading) (h : (summary ms).isDeclared r.1 = false) :
    ∃ u ∈ (summary ms).undeclared, u.key = parameterKey r.1 := by
  obtain ⟨m, hm, rfl⟩ := List.mem_map.1 hr
  have hkey : m.use.key ∈ (ms.map (·.use)).map VariableUse.key :=
    List.mem_map_of_mem (List.mem_map_of_mem hm)
  obtain ⟨u, hu, hukey⟩ := List.mem_map.1 (mem_map_firstOfEach.2 hkey)
  have hundeclared : (summary ms).isDeclared u.name = false := by
    rw [ScriptVariables.isDeclared, show parameterKey u.name = _ from hukey]
    exact h
  exact ⟨u, List.mem_filter.2 ⟨hu, by rw [hundeclared]; rfl⟩, hukey⟩

theorem map_name_undeclared (v : ScriptVariables) :
    v.undeclared.map (·.name) = (v.references.map (·.name)).filter fun n => !v.isDeclared n := by
  unfold ScriptVariables.undeclared
  rw [List.filter_map]
  rfl

/-- The scan of a text follows from its visible tokens. -/
theorem exists_scanVariables {sql : String} {ts : List Token} (h : visibleTokens sql = some ts) :
    ∃ ms, scanVariables sql = some (summary ms) ∧ ms.map Mention.reading = readings {} ts := by
  unfold visibleTokens tokens at h
  rw [Option.map_map] at h
  obtain ⟨placed, hplaced, rfl⟩ := Option.map_eq_some_iff.1 h
  refine ⟨mentions {} (placed.filter fun t => !t.token.isBlank), ?_, ?_⟩
  · unfold scanVariables
    rw [hplaced]
    rfl
  · rw [map_reading_mentions, Function.comp_apply, List.filter_map]
    rfl

end VariableScan

theorem exists_visibleTokens {sql : String} {v : ScriptVariables} (h : scanVariables sql = some v) :
    ∃ ts, visibleTokens sql = some ts := by
  obtain ⟨placed, hplaced, -⟩ := Option.map_eq_some_iff.1 h
  unfold visibleTokens tokens
  rw [hplaced]
  exact ⟨_, rfl⟩

end QueryShape
