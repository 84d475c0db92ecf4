import QueryShape.Proofs.GlobalNames
import QueryShape.Proofs.Variables.Uses

namespace QueryShape

open QueryShape.Identifier
open QueryShape.Inference
open QueryShape.Text
open QueryShape.Unicode

namespace Text

theorem lowerAt_of_ne_sigma {c : Char} (h : c ≠ 'Σ') (before rest rest' : List Char) :
    lowerAt before c rest = lowerAt before c rest' := by
  unfold lowerAt
  rw [if_neg h, if_neg h]

theorem lowerFrom_append_of_ne_sigma {front : List Char} (h : ∀ c ∈ front, c ≠ 'Σ')
    (before rest : List Char) :
    lowerFrom before (front ++ rest) =
      lowerFrom before front ++ lowerFrom (front.reverse ++ before) rest := by
  induction front generalizing before with
  | nil => rfl
  | cons c front ih =>
      obtain ⟨hc, hfront⟩ := List.forall_mem_cons.1 h
      rw [List.cons_append, lowerFrom_cons, lowerFrom_cons, ih hfront,
        lowerAt_of_ne_sigma hc before (front ++ rest) front]
      simp

theorem nearestIsCased_append_underscore (done before : List Char) :
    nearestIsCased (done ++ '_' :: before) = nearestIsCased done := by
  have hignorable : isCaseIgnorable '_' = false := by decide +kernel
  have hcased : isCased '_' = false := by decide +kernel
  unfold nearestIsCased
  induction done with
  | nil => simp [hignorable, hcased]
  | cons c rest ih =>
      by_cases hc : isCaseIgnorable c = true
      · rw [List.cons_append, List.dropWhile_cons_of_pos hc, List.dropWhile_cons_of_pos hc]
        exact ih
      · rw [List.cons_append, List.dropWhile_cons_of_neg hc, List.dropWhile_cons_of_neg hc]

/-- What stands before an underscore has no part in the lower case of what stands after it. -/
theorem lowerFrom_append_underscore (done before cs : List Char) :
    lowerFrom (done ++ '_' :: before) cs = lowerFrom done cs := by
  induction cs generalizing done with
  | nil => rfl
  | cons c rest ih =>
      have hat : lowerAt (done ++ '_' :: before) c rest = lowerAt done c rest := by
        unfold lowerAt lowerSigma
        rw [nearestIsCased_append_underscore]
      have hrest := ih (c :: done)
      rw [lowerFrom_cons, lowerFrom_cons, hat]
      exact congrArg _ hrest

end Text

namespace RunToken

/-- The token is made of letters, digits and underscores. -/
def IsPlain (t : RunToken) : Prop :=
  ∀ c ∈ t.run.toList, (c.isAlphanum || c == '_') = true

theorem isWordCharacter_of_mem_rs {c : Char} (h : c ∈ "rs".toList) :
    (c.isAlphanum || c == '_') = true := by
  have hall : ("rs".toList.all fun c => c.isAlphanum || c == '_') = true := by decide
  exact List.all_eq_true.1 hall c h

theorem isPlain_ofText (text : String) : (ofText text).IsPlain := by
  intro c hc
  unfold ofText at hc
  split at hc
  · exact isWordCharacter_of_mem_rs hc
  · rename_i hne
    rw [String.toList_ofList] at hc
    exact (List.mem_filter.1 hc).2

theorem isAlphanum_of_mem_hexDigits (width n : Nat) :
    ∀ c ∈ hexDigits width n, c.isAlphanum = true := by
  induction width generalizing n with
  | zero => exact List.forall_mem_nil _
  | succ w ih =>
      intro c hc
      rcases List.mem_append.1 hc with hc | hc
      · exact ih _ c hc
      · obtain rfl := List.mem_singleton.1 hc
        have hdigits : ∀ d < 16, d.digitChar.isAlphanum = true := by decide
        exact hdigits _ (Nat.mod_lt _ (by decide))

theorem isPlain_ofSeed (seed : Nat) : (ofSeed seed).IsPlain := by
  intro c hc
  unfold ofSeed at hc
  have hdigits := isAlphanum_of_mem_hexDigits 12 seed
  generalize hexDigits 12 seed = digits at hc hdigits
  rw [String.toList_append] at hc
  rcases List.mem_append.1 hc with hc | hc
  · exact isWordCharacter_of_mem_rs hc
  · rw [String.toList_ofList] at hc
    rw [hdigits c hc]
    rfl

theorem IsPlain.forUnit {t : RunToken} (h : t.IsPlain) (ordinal : Nat) :
    (t.forUnit ordinal).IsPlain :=
  h

/-- What stands between the `@` of a placeholder and the name of its variable. -/
def placeholderFront (t : RunToken) : List Char :=
  t.run.toList ++ ['_']

variable {t : RunToken}

theorem IsPlain.of_mem_placeholderFront (h : t.IsPlain) {c : Char}
    (hc : c ∈ t.placeholderFront) : (c.isAlphanum || c == '_') = true := by
  rcases List.mem_append.1 hc with hc | hc
  · exact h c hc
  · obtain rfl := List.mem_singleton.1 hc
    rfl

theorem IsPlain.ne_of_mem_placeholderFront (h : t.IsPlain) {c : Char}
    (hc : c ∈ t.placeholderFront) : c ≠ '@' ∧ c ≠ 'Σ' := by
  have hplain := h.of_mem_placeholderFront hc
  constructor
  · rintro rfl
    revert hplain
    decide
  · rintro rfl
    revert hplain
    decide

theorem placeholderFront_ne_nil (t : RunToken) : t.placeholderFront ≠ [] := by
  simp [placeholderFront]

end RunToken

namespace Inference.PinnedVariable

variable {t : RunToken} {v : PinnedVariable}

theorem placeholder_toList (t : RunToken) (v : PinnedVariable) :
    (v.placeholder t.placeholderStem).toList =
      '@' :: (t.placeholderFront ++ v.bareName.toList) := by
  simp [placeholder, RunToken.placeholderStem, RunToken.placeholderFront]

theorem isVariableName_placeholder (h : t.IsPlain) (v : PinnedVariable) :
    IsVariableName (v.placeholder t.placeholderStem) := by
  have hname := placeholder_toList t v
  cases hfront : t.placeholderFront with
  | nil => exact absurd hfront t.placeholderFront_ne_nil
  | cons c rest =>
      have hc : c ∈ t.placeholderFront := by
        rw [hfront]
        exact List.mem_cons_self
      rw [hfront] at hname
      exact ⟨c, rest ++ v.bareName.toList, hname, (h.ne_of_mem_placeholderFront hc).1⟩

theorem lowerFrom_placeholderFront (h : t.IsPlain) (rest : List Char) :
    lowerFrom [] (t.placeholderFront ++ rest) =
      lowerFrom [] t.placeholderFront ++ lowerFrom [] rest := by
  rw [lowerFrom_append_of_ne_sigma fun c hc => (h.ne_of_mem_placeholderFront hc).2]
  congr 1
  unfold RunToken.placeholderFront
  rw [List.reverse_append]
  exact lowerFrom_append_underscore [] _ rest

theorem dropWhile_placeholderFront (h : t.IsPlain) (rest : List Char) :
    ('@' :: (t.placeholderFront ++ rest)).dropWhile (· == '@') = t.placeholderFront ++ rest := by
  rw [List.dropWhile_cons_of_pos (by decide)]
  cases hfront : t.placeholderFront with
  | nil => exact absurd hfront t.placeholderFront_ne_nil
  | cons c more =>
      have hc : c ∈ t.placeholderFront := by
        rw [hfront]
        exact List.mem_cons_self
      have hne := (h.ne_of_mem_placeholderFront hc).1
      exact List.dropWhile_cons_of_neg (by simpa using hne)

/-- The key of a placeholder is the key of what all placeholders begin with and the key of its
variable. -/
theorem key_placeholder (h : t.IsPlain) (hname : IsVariableName v.use.name) :
    (parameterKey (v.placeholder t.placeholderStem)).toList =
      (parameterKey t.placeholderStem).toList ++ v.use.key.toList := by
  have hstem : t.placeholderStem.toList = '@' :: (t.placeholderFront ++ []) := by
    simp [RunToken.placeholderStem, RunToken.placeholderFront]
  have hkey : v.use.key.toList = lowerFrom [] v.bareName.toList := by
    rw [key_eq_lower hname]
    simp [lower]
  rw [toList_parameterKey, toList_parameterKey, placeholder_toList, hstem,
    dropWhile_placeholderFront h, dropWhile_placeholderFront h, lowerFrom_placeholderFront h,
    List.append_nil, hkey]

end Inference.PinnedVariable

end QueryShape
