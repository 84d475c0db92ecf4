import QueryShape.Proofs.Fallback.Attempt
import QueryShape.Proofs.UnsupportedColumns

namespace QueryShape

open QueryShape.Dialogue
open QueryShape.Inference

variable {σ : Type}

namespace Inference

/-- The first refusal with a known cause, or the first of all if no cause is known. -/
inductive IsReported : List ServerError → ServerError → Prop
  | known {before after : List ServerError} {e : ServerError} :
      (∀ d ∈ before, d.signature? = none) →
      e.signature?.isSome = true →
      IsReported (before ++ e :: after) e
  | unknown {e : ServerError} {rest : List ServerError} :
      (∀ d ∈ e :: rest, d.signature? = none) →
      IsReported (e :: rest) e

theorem isReported_reported {refusals : List ServerError} (h : refusals ≠ []) :
    IsReported refusals (Command.reported refusals) := by
  unfold Command.reported
  cases hfind : refusals.find? fun e => e.signature?.isSome with
  | some e =>
      obtain ⟨hknown, before, after, rfl, hbefore⟩ := List.find?_eq_some_iff_append.1 hfind
      refine .known (fun d hd => ?_) hknown
      simpa using hbefore d hd
  | none =>
      cases refusals with
      | nil => exact absurd rfl h
      | cons e rest =>
          refine .unknown fun d hd => ?_
          simpa using List.find?_eq_none.1 hfind d hd

end Inference

namespace Inference.Command

/-- Trials made one after the other. The numbers of connections asked for before and after are
handed on. -/
inductive Trials (c : Command) (ctx : InferenceContext) (connection : Nat) :
    Nat → List Trial → Nat → Prop
  | nil (n : Nat) : Trials c ctx connection n [] n
  | cons {t : Trial} {rest : List Trial} {n k m : Nat} :
      c.Course ctx connection t.strategy n t.steps k →
      Trials c ctx connection k rest m →
      Trials c ctx connection n (t :: rest) m

/-- What trials of strategies find, after some refusals. Each trial is refused but for the last one,
which fails or describes the columns; or all strategies are tried and refused. -/
inductive Search (c : Command) (unit : String) (refusals : List ServerError)
    (strategies : List Strategy) : List Trial → Except Failure (Strategy × Description) → Prop
  | failed {before : List Trial} {last : Trial} {f : Fault} :
      (∀ t ∈ before, ∃ e, t.Ends (.refused e)) →
      last.Ends (.failed f) →
      Search c unit refusals strategies (before ++ [last]) (.error (.fault f))
  | described {before : List Trial} {last : Trial} {d : Description} :
      (∀ t ∈ before, ∃ e, t.Ends (.refused e)) →
      last.Ends (.described d) →
      Search c unit refusals strategies (before ++ [last]) (.ok (last.strategy, d))
  | refused {trials : List Trial} {more : List ServerError} {e : ServerError} :
      trials.map (·.strategy) = strategies →
      List.Forall₂ (fun t e => t.Ends (.refused e)) trials more →
      IsReported (refusals ++ more) e →
      Search c unit refusals strategies trials
        (.error (.fault (.resultSetInference unit c.executable e)))

variable {c : Command} {unit : String} {refusals : List ServerError} {strategies : List Strategy}

theorem Search.of_failed {t : Trial} {f : Fault} (h : t.Ends (.failed f)) :
    c.Search unit refusals strategies [t] (.error (.fault f)) := by
  rw [← List.nil_append [t]]
  exact .failed (List.forall_mem_nil _) h

theorem Search.of_described {t : Trial} {d : Description} (h : t.Ends (.described d)) :
    c.Search unit refusals strategies [t] (.ok (t.strategy, d)) := by
  rw [← List.nil_append [t]]
  exact .described (List.forall_mem_nil _) h

theorem Search.of_nil (h : refusals ≠ []) :
    c.Search unit refusals [] []
      (.error (.fault (.resultSetInference unit c.executable (reported refusals)))) := by
  refine .refused rfl .nil ?_
  rw [List.append_nil]
  exact isReported_reported h

theorem Search.cons {t : Trial} {e : ServerError} {trials : List Trial}
    {found : Except Failure (Strategy × Description)} (ht : t.Ends (.refused e))
    (h : c.Search unit (refusals ++ [e]) strategies trials found) :
    c.Search unit refusals (t.strategy :: strategies) (t :: trials) found := by
  cases h with
  | failed hbefore hlast =>
      rw [← List.cons_append]
      exact .failed (List.forall_mem_cons.2 ⟨⟨e, ht⟩, hbefore⟩) hlast
  | described hbefore hlast =>
      rw [← List.cons_append]
      exact .described (List.forall_mem_cons.2 ⟨⟨e, ht⟩, hbefore⟩) hlast
  | refused hstrategies hendings hreported =>
      rw [List.append_assoc, List.singleton_append] at hreported
      refine .refused ?_ (.cons ht hendings) hreported
      rw [List.map_cons, hstrategies]

/-- The induction is on the strategies that are left. A trial that is refused adds its refusal to
those that the others start with. -/
theorem enacts_describeBy (c : Command) (unit : String) (connection : Nat)
    (ctx : InferenceContext) (strategies : List Strategy) (refusals : List ServerError)
    (h : refusals ≠ [] ∨ strategies ≠ []) (n : Nat) :
    (c.describeBy unit connection ctx refusals strategies :
        Session σ (Strategy × Description)).Enacts n fun steps found m =>
      ∃ trials : List Trial, steps = trials.flatMap (·.steps) ∧
        c.Trials ctx connection n trials m ∧
        trials.map (·.strategy) <+: strategies ∧
        c.Search unit refusals strategies trials found := by
  induction strategies generalizing refusals n with
  | nil =>
      have hrefusals : refusals ≠ [] := h.resolve_right fun hne => hne rfl
      exact Session.enacts_throw ⟨[], rfl, .nil n, List.prefix_rfl, .of_nil hrefusals⟩
  | cons strategy rest ih =>
      have hsingle : [strategy] <+: strategy :: rest := ⟨rest, rfl⟩
      refine (c.enacts_attempt connection ctx strategy n).bind ?_ ?_
      · rintro steps answer k ⟨hcourse, x, hends, hvalue⟩
        cases x with
        | failed f => cases hvalue
        | refused e =>
            cases hvalue
            refine (ih (refusals ++ [e]) (.inl (List.concat_ne_nil e refusals)) k).mono ?_
            rintro more found m ⟨trials, rfl, htrials, hpre, hsearch⟩
            exact ⟨⟨strategy, steps⟩ :: trials, rfl, .cons hcourse htrials,
              List.cons_prefix_cons.2 ⟨rfl, hpre⟩, .cons hends hsearch⟩
        | described d =>
            cases hvalue
            exact Session.enacts_pure ⟨[⟨strategy, steps⟩], rfl, .cons hcourse (.nil k), hsingle,
              .of_described hends⟩
      · rintro steps failure k ⟨hcourse, x, hends, hvalue⟩
        cases x with
        | failed f =>
            cases hvalue
            exact ⟨[⟨strategy, steps⟩], (List.append_nil steps).symm, .cons hcourse (.nil k),
              hsingle, .of_failed hends⟩
        | refused e => cases hvalue
        | described d => cases hvalue

end Inference.Command

/-- What an inference makes of what was found. A failure stays what it is. A description is the
result, with its strategy, unless a column of it has no supported type and is not left out. -/
inductive Concludes (types : TypeCatalog) (unit : String) (rule : EffectiveRule) :
    Except Failure (Strategy × Description) → Except Failure Shape → Prop
  | failed (failure : Failure) : Concludes types unit rule (.error failure) (.error failure)
  | typed {strategy : Strategy} {d : Description} {columns : ResultSet} {allNames : List String} :
      (∀ name typeName, ¬ d.Untypable types rule name typeName) →
      d.resultSet types unit rule = .ok (columns, allNames) →
      Concludes types unit rule (.ok (strategy, d)) (.ok { columns, allNames, strategy })
  | untypable {strategy : Strategy} {d : Description} {name typeName : String} :
      d.Untypable types rule name typeName →
      Concludes types unit rule (.ok (strategy, d))
        (.error (.fault (unsupportedColumn unit name typeName)))

/-- In every world an inference makes the requests of some trials and no others. The trials are of
different strategies, in their order, and each of them takes one of the courses that its strategy
has. The next strategy is tried if and only if the trial was refused, so that the first failure and
the first description end the search. A search in which all strategies are refused reports the first
refusal with a known cause, or else the first refusal. -/
theorem inferResultSet_tries_in_turn (connection : Nat) (ctx : InferenceContext)
    (unit : ExecutableUnit) (rule : EffectiveRule) (w : World σ) :
    ∃ (trials : List Trial) (found : Except Failure (Strategy × Description)),
      w.Leads (trials.flatMap (·.steps)) ((inferResultSet connection ctx unit rule).outcome w).2 ∧
      (Command.ofUnit ctx.token rule unit).Trials ctx connection w.opened trials
        ((inferResultSet connection ctx unit rule).outcome w).2.opened ∧
      trials.map (·.strategy) <+: Strategy.all ∧
      (Command.ofUnit ctx.token rule unit).Search unit.label [] Strategy.all trials found ∧
      Concludes ctx.types unit.label rule found
        ((inferResultSet connection ctx unit rule).outcome w).1 := by
  have henacts : (inferResultSet connection ctx unit rule : Session σ Shape).Enacts w.opened
      fun steps result m => ∃ trials found, steps = trials.flatMap (·.steps) ∧
        (Command.ofUnit ctx.token rule unit).Trials ctx connection w.opened trials m ∧
        trials.map (·.strategy) <+: Strategy.all ∧
        (Command.ofUnit ctx.token rule unit).Search unit.label [] Strategy.all trials found ∧
        Concludes ctx.types unit.label rule found result := by
    refine ((Command.ofUnit ctx.token rule unit).enacts_describeBy unit.label connection ctx
      Strategy.all [] (.inr (List.cons_ne_nil _ _)) w.opened).bind ?_ ?_
    · rintro _ ⟨strategy, d⟩ m ⟨trials, rfl, htrials, hpre, hsearch⟩
      dsimp only
      rcases d.resultSet_cases ctx.types unit.label rule with
        ⟨columns, allNames, hcolumns, htyped⟩ | ⟨name, typeName, huntypable, hfault⟩
      · rw [hcolumns]
        refine Session.enacts_pure ⟨trials, _, List.append_nil _, htrials, hpre, hsearch, ?_⟩
        exact .typed htyped hcolumns
      · rw [hfault]
        refine Session.enacts_throw ⟨trials, _, List.append_nil _, htrials, hpre, hsearch, ?_⟩
        exact .untypable huntypable
    · rintro _ failure m ⟨trials, rfl, htrials, hpre, hsearch⟩
      exact ⟨trials, _, rfl, htrials, hpre, hsearch, .failed failure⟩
  obtain ⟨_, hleads, trials, found, rfl, h⟩ := henacts w rfl
  exact ⟨trials, found, hleads, h⟩

end QueryShape
