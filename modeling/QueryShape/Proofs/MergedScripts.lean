import QueryShape.Proofs.ColumnNames
import QueryShape.Proofs.Groundwork
import QueryShape.Server.Scripted

namespace QueryShape

open QueryShape.Text

/-- What a script is known by, up to case. -/
def Script.identityKey (s : Script) : List Char :=
  folded s.identity

namespace Assembly

/-- An added script has the identity of the script, up to case. -/
def isReplaced (added : List Script) (s : Script) : Bool :=
  added.any fun a => sameIgnoringCase a.identity s.identity

/-- The last script of each identity. -/
def lastOfEach : List Script → List Script
  | [] => []
  | s :: rest => if isReplaced rest s then lastOfEach rest else s :: lastOfEach rest

/-- The scripts without the first one of each of the given identities. -/
def withoutFirst (keys : List (List Char)) : List Script → List Script
  | [] => []
  | s :: rest =>
      if keys.contains s.identityKey then withoutFirst (keys.filter (· ≠ s.identityKey)) rest
      else s :: withoutFirst keys rest

/-- The scripts with one more, in the place of the first with its identity or else at the end. -/
def put (script : Script) : List Script → List Script
  | [] => [script]
  | s :: rest =>
      if s.identityKey = script.identityKey then script :: rest else s :: put script rest

variable {script s : Script} {scripts rest added : List Script} {keys : List (List Char)}

theorem isReplaced_iff :
    isReplaced added s = true ↔ s.identityKey ∈ added.map Script.identityKey := by
  rw [isReplaced, List.any_eq_true, List.mem_map]
  simp only [sameIgnoringCase_iff, Script.identityKey]

theorem mem_map_lastOfEach {k : List Char} :
    k ∈ (lastOfEach added).map Script.identityKey ↔ k ∈ added.map Script.identityKey := by
  induction added with
  | nil => exact .rfl
  | cons s rest ih =>
      rw [lastOfEach]
      split
      · rename_i hlater
        rw [ih, List.map_cons, List.mem_cons]
        constructor
        · exact .inr
        · rintro (rfl | hk)
          · exact isReplaced_iff.1 hlater
          · exact hk
      · rw [List.map_cons, List.map_cons, List.mem_cons, List.mem_cons, ih]

theorem withoutFirst_cons_of_mem (h : s.identityKey ∈ keys) :
    withoutFirst keys (s :: rest) = withoutFirst (keys.filter (· ≠ s.identityKey)) rest := by
  rw [withoutFirst, if_pos (List.contains_iff_mem.2 h)]

theorem withoutFirst_cons_of_not_mem (h : s.identityKey ∉ keys) :
    withoutFirst keys (s :: rest) = s :: withoutFirst keys rest := by
  rw [withoutFirst, if_neg (mt List.contains_iff_mem.1 h)]

theorem getD_replaceScript? :
    (replaceScript? script scripts).getD (scripts ++ [script]) = put script scripts := by
  induction scripts with
  | nil => rfl
  | cons s rest ih =>
      unfold replaceScript? put
      by_cases hsame : s.identityKey = script.identityKey
      · rw [if_pos hsame, if_pos (sameIgnoringCase_iff.2 hsame)]
        rfl
      · rw [if_neg hsame, if_neg (mt sameIgnoringCase_iff.1 hsame), ← ih]
        cases replaceScript? script rest <;> rfl

theorem mergeScripts_cons (rest : List Script) :
    (mergeScripts scripts (script :: rest)).1 = (mergeScripts (put script scripts) rest).1 := by
  rw [← getD_replaceScript?, mergeScripts]
  cases replaceScript? script scripts <;> rfl

theorem withoutFirst_nil : withoutFirst [] scripts = scripts := by
  induction scripts with
  | nil => rfl
  | cons s rest ih => rw [withoutFirst_cons_of_not_mem List.not_mem_nil, ih]

theorem withoutFirst_put_of_mem (h : script.identityKey ∈ keys) :
    withoutFirst keys (put script scripts) = withoutFirst keys scripts := by
  induction scripts generalizing keys with
  | nil => simp [put, withoutFirst, h]
  | cons s rest ih =>
      unfold put
      by_cases hsame : s.identityKey = script.identityKey
      · rw [if_pos hsame, withoutFirst_cons_of_mem h, withoutFirst_cons_of_mem (hsame ▸ h), hsame]
      · have hstill : script.identityKey ∈ keys.filter (· ≠ s.identityKey) :=
          List.mem_filter.2 ⟨h, decide_eq_true (Ne.symm hsame)⟩
        rw [if_neg hsame]
        by_cases htaken : s.identityKey ∈ keys
        · rw [withoutFirst_cons_of_mem htaken, withoutFirst_cons_of_mem htaken, ih hstill]
        · rw [withoutFirst_cons_of_not_mem htaken, withoutFirst_cons_of_not_mem htaken, ih h]

theorem withoutFirst_put_perm (h : script.identityKey ∉ keys) :
    (withoutFirst keys (put script scripts)).Perm
      (script :: withoutFirst (script.identityKey :: keys) scripts) := by
  induction scripts generalizing keys with
  | nil => simp [put, withoutFirst, h]
  | cons s rest ih =>
      unfold put
      by_cases hsame : s.identityKey = script.identityKey
      · have hkeys : (script.identityKey :: keys).filter (· ≠ script.identityKey) = keys := by
          rw [List.filter_cons_of_neg (by simp)]
          apply List.filter_eq_self.2
          intro k hk
          exact decide_eq_true fun heq => h (heq ▸ hk)
        have hfirst : s.identityKey ∈ script.identityKey :: keys := hsame ▸ List.mem_cons_self
        rw [if_pos hsame, withoutFirst_cons_of_not_mem h, withoutFirst_cons_of_mem hfirst, hsame,
          hkeys]
      · have hkeys : (script.identityKey :: keys).filter (· ≠ s.identityKey) =
            script.identityKey :: keys.filter (· ≠ s.identityKey) :=
          List.filter_cons_of_pos (decide_eq_true (Ne.symm hsame))
        rw [if_neg hsame]
        by_cases htaken : s.identityKey ∈ keys
        · rw [withoutFirst_cons_of_mem htaken,
            withoutFirst_cons_of_mem (List.mem_cons_of_mem _ htaken), hkeys]
          exact ih fun hin => h (List.mem_filter.1 hin).1
        · rw [withoutFirst_cons_of_not_mem htaken,
            withoutFirst_cons_of_not_mem (List.not_mem_cons_of_ne_of_not_mem hsame htaken)]
          exact ((ih h).cons s).trans (.swap script s _)

/-- Of the added scripts the last of each identity goes in, in the place of the first script of that
identity. -/
theorem mergeScripts_perm (added : List Script) :
    (mergeScripts scripts added).1.Perm
      (withoutFirst ((lastOfEach added).map Script.identityKey) scripts ++ lastOfEach added) := by
  -- The list to merge into holds earlier files by then, so it is general in the induction.
  induction added generalizing scripts with
  | nil => rw [lastOfEach, List.map_nil, withoutFirst_nil, List.append_nil, mergeScripts]
  | cons script rest ih =>
      rw [mergeScripts_cons]
      refine List.Perm.trans ih ?_
      rw [lastOfEach]
      split
      · rename_i hlater
        rw [withoutFirst_put_of_mem (mem_map_lastOfEach.2 (isReplaced_iff.1 hlater))]
      · rename_i hlast
        have hkey := mt mem_map_lastOfEach.1 (mt isReplaced_iff.2 hlast)
        refine ((withoutFirst_put_perm hkey).append_right _).trans ?_
        exact List.perm_middle.symm

theorem lastOfEach_sublist (added : List Script) : (lastOfEach added).Sublist added := by
  induction added with
  | nil => exact .slnil
  | cons s rest ih =>
      rw [lastOfEach]
      split
      · exact ih.cons s
      · exact ih.cons_cons s

/-- No two scripts have one identity, up to case. -/
def HaveDistinctIdentities (scripts : List Script) : Prop :=
  scripts.Pairwise fun a b => sameIgnoringCase a.identity b.identity = false

instance (scripts : List Script) : Decidable (HaveDistinctIdentities scripts) :=
  inferInstanceAs (Decidable (scripts.Pairwise _))

theorem haveDistinctIdentities_cons {s : Script} {rest : List Script} :
    HaveDistinctIdentities (s :: rest) ↔
      s.identityKey ∉ rest.map Script.identityKey ∧ HaveDistinctIdentities rest := by
  refine List.pairwise_cons.trans (and_congr_left' ?_)
  rw [List.mem_map, not_exists]
  refine forall_congr' fun other => ?_
  rw [not_and, sameIgnoringCase_eq_false_iff]
  exact imp_congr_right fun _ => ne_comm

theorem lastOfEach_eq_self_iff {added : List Script} :
    lastOfEach added = added ↔ HaveDistinctIdentities added := by
  induction added with
  | nil => exact iff_of_true rfl .nil
  | cons s rest ih =>
      rw [lastOfEach, haveDistinctIdentities_cons, ← isReplaced_iff]
      split
      · rename_i hlater
        refine iff_of_false (fun heq => ?_) fun h => h.1 hlater
        have hlength := (lastOfEach_sublist rest).length_le
        rw [heq, List.length_cons] at hlength
        omega
      · rename_i hlast
        rw [List.cons.injEq, ih]
        exact ⟨fun h => ⟨hlast, h.2⟩, fun h => ⟨rfl, h.2⟩⟩

theorem mem_withoutFirst {s : Script} (hkey : s.identityKey ∉ keys) (hs : s ∈ scripts) :
    s ∈ withoutFirst keys scripts := by
  induction scripts generalizing keys with
  | nil => cases hs
  | cons t rest ih =>
      by_cases htaken : t.identityKey ∈ keys
      · rw [withoutFirst_cons_of_mem htaken]
        rcases List.mem_cons.1 hs with rfl | hs
        · exact absurd htaken hkey
        · exact ih (fun hin => hkey (List.mem_filter.1 hin).1) hs
      · rw [withoutFirst_cons_of_not_mem htaken]
        rcases List.mem_cons.1 hs with rfl | hs
        · exact List.mem_cons_self
        · exact List.mem_cons_of_mem t (ih hkey hs)

theorem withoutFirst_eq_filter_iff :
    withoutFirst keys scripts = scripts.filter (fun s => s.identityKey ∉ keys) ↔
      HaveDistinctIdentities (scripts.filter fun s => s.identityKey ∈ keys) := by
  induction scripts generalizing keys with
  | nil => exact iff_of_true rfl .nil
  | cons s rest ih =>
      by_cases htaken : s.identityKey ∈ keys
      · rw [withoutFirst_cons_of_mem htaken, List.filter_cons_of_neg (by simpa using htaken),
          List.filter_cons_of_pos (by simpa using htaken), haveDistinctIdentities_cons]
        -- The first script of an identity goes, so a second one stays although it should go too.
        by_cases hmore : s.identityKey ∈ rest.map Script.identityKey
        · obtain ⟨t, ht, hkey⟩ := List.mem_map.1 hmore
          refine iff_of_false (fun heq => ?_) fun h => h.1 ?_
          · have hkept : t ∈ withoutFirst (keys.filter (· ≠ s.identityKey)) rest :=
              mem_withoutFirst (by simp [hkey]) ht
            rw [heq] at hkept
            simp [hkey, htaken] at hkept
          · rw [← hkey]
            exact List.mem_map_of_mem (List.mem_filter.2 ⟨ht, by simpa [hkey] using htaken⟩)
        · have hkeys : ∀ t ∈ rest,
              (t.identityKey ∈ keys ↔ t.identityKey ∈ keys.filter (· ≠ s.identityKey)) := by
            intro t ht
            have hne : t.identityKey ≠ s.identityKey := fun heq =>
              hmore (heq ▸ List.mem_map_of_mem ht)
            simp [hne]
          have hleft : rest.filter (fun t => t.identityKey ∉ keys) =
              rest.filter fun t => t.identityKey ∉ keys.filter (· ≠ s.identityKey) :=
            List.filter_congr fun t ht => decide_eq_decide.2 (not_congr (hkeys t ht))
          have hgone : rest.filter (fun t => t.identityKey ∈ keys) =
              rest.filter fun t => t.identityKey ∈ keys.filter (· ≠ s.identityKey) :=
            List.filter_congr fun t ht => decide_eq_decide.2 (hkeys t ht)
          rw [hleft, ih, ← hgone]
          refine (and_iff_right fun hin => hmore ?_).symm
          exact (List.filter_sublist.map _).subset hin
      · rw [withoutFirst_cons_of_not_mem htaken,
          List.filter_cons_of_pos (by simpa using htaken),
          List.filter_cons_of_neg (by simpa using htaken), List.cons.injEq, ih]
        exact and_iff_right rfl

/-- Merging keeps the last added script of each identity, up to case, and takes the first generated
script of each such identity away. So all added scripts go on exactly if no two of them have one
identity, and exactly the generated scripts with the identity of an added one are replaced if no two
of these have one identity. What is left is what a run infers beside the procedures. -/
theorem mergeScripts_keeps_iff (generated added : List Script) :
    (mergeScripts generated added).1.Perm
      (withoutFirst ((lastOfEach added).map Script.identityKey) generated ++ lastOfEach added) ∧
    (lastOfEach added = added ↔ HaveDistinctIdentities added) ∧
    (withoutFirst ((lastOfEach added).map Script.identityKey) generated =
        generated.filter (fun s => !isReplaced added s) ↔
      HaveDistinctIdentities (generated.filter (isReplaced added))) ∧
    ∀ {σ : Type} (connection : Nat) (rules : RuleSet) (w : World σ) (g : Groundwork),
      ((Groundwork.lay connection rules added).outcome w).1 = .ok g →
      requestedScripts rules g.types.tableTypes g.tables = .ok generated →
        g.units = g.catalog.procedures.map .procedure ++
          (mergeScripts generated added).1.map .script := by
  have hgone : generated.filter (isReplaced added) =
      generated.filter fun s => s.identityKey ∈ (lastOfEach added).map Script.identityKey := by
    apply List.filter_congr
    intro s _
    rw [Bool.eq_iff_iff, decide_eq_true_eq, mem_map_lastOfEach, ← isReplaced_iff]
  have hleft : generated.filter (fun s => !isReplaced added s) =
      generated.filter fun s => s.identityKey ∉ (lastOfEach added).map Script.identityKey := by
    apply List.filter_congr
    intro s _
    rw [Bool.eq_iff_iff, decide_eq_true_eq, mem_map_lastOfEach, ← isReplaced_iff,
      Bool.not_eq_true', Bool.not_eq_true]
  refine ⟨mergeScripts_perm added, lastOfEach_eq_self_iff, ?_, ?_⟩
  · rw [hgone, hleft]
    exact withoutFirst_eq_filter_iff
  · intro σ connection rules w g hlay hgenerated
    cases Groundwork.isLaid_of_lay hlay with
    | ofRows _ _ _ _ _ _ _ hrequested =>
        rw [hgenerated] at hrequested
        rw [Groundwork.units, Except.ok.inj hrequested]

/-- Two scripts whose identities differ by case. -/
def findScripts : List Script :=
  [{ identity := "find", text := "SELECT 1" }, { identity := "Find", text := "SELECT 2" }]

/-- Of two scripts whose identities differ by case only the second is in the model, and the first is
taken for a generated one. -/
theorem findScripts_loses_first :
    (findScripts.map (·.identity)).Nodup ∧
      ((assemble 0 false (GlobRules.mk []).toRuleSet findScripts
          { token := .ofText "tok" }).outcome
        (Scripted.world
          { replies := [], strict := false, refusedConnections := [] })).1.toOption.map
          (fun m => (m.scripts.map (·.text), m.warnings)) =
        some (["SELECT 2"], [⟨"script 'Find'",
          "a script file replaces the generated script with the same identity"⟩]) := by
  decide +kernel

end Assembly

end QueryShape
