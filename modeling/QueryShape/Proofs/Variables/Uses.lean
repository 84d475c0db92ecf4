import QueryShape.Inference.Parameters

namespace QueryShape

open QueryShape.Identifier

theorem PlacedToken.offsets_of_scanFrom {offset : Nat} {cs : List Char} {ts : List PlacedToken}
    (h : scanFrom offset cs = some ts) :
    (∀ t ∈ ts, offset ≤ t.offset) ∧ ts.Pairwise fun t u => t.offset < u.offset := by
  fun_induction scanFrom offset cs generalizing ts with
  | case1 offset =>
      obtain rfl := Option.some.inj h
      exact ⟨List.forall_mem_nil _, .nil⟩
  | case2 offset c rest hnext => cases h
  | case3 offset c rest t tail hnext ih =>
      obtain ⟨more, hmore, rfl⟩ := Option.map_eq_some_iff.1 h
      obtain ⟨hafter, hpairwise⟩ := ih hmore
      have hlength := (Token.next_suffix hnext).length_le
      have hlater : ∀ u ∈ more, offset < u.offset := by
        intro u hu
        have := hafter u hu
        omega
      refine ⟨List.forall_mem_cons.2 ⟨Nat.le_refl _, ?_⟩, List.pairwise_cons.2 ⟨?_, hpairwise⟩⟩
      · intro u hu
        exact Nat.le_of_lt (hlater u hu)
      · exact hlater

/-- The name of a local variable: one `@` and more. -/
def IsVariableName (name : String) : Prop :=
  ∃ c rest, name.toList = '@' :: c :: rest ∧ c ≠ '@'

theorem Word.isVariable_iff {w : Word} : w.isVariable = true ↔ IsVariableName w.value := by
  unfold Word.isVariable IsVariableName
  split
  · rename_i c rest hname
    constructor
    · intro hc
      exact ⟨c, rest, hname, by simpa using hc⟩
    · rintro ⟨d, more, hname', hd⟩
      rw [hname] at hname'
      simp only [List.cons.injEq, true_and] at hname'
      simpa [hname'.1] using hd
  · rename_i hname
    constructor
    · intro h
      cases h
    · rintro ⟨c, rest, hname', -⟩
      exact absurd hname' (hname c rest)

namespace Inference.PinnedVariable

/-- The variable that a scalar pinned variable gets its value from. -/
def placeholder (stem : String) (v : PinnedVariable) : String :=
  stem ++ v.bareName

variable {v : PinnedVariable}

theorem name_toList (h : IsVariableName v.use.name) :
    v.use.name.toList = '@' :: v.bareName.toList := by
  obtain ⟨c, rest, hname, hc⟩ := h
  unfold bareName
  rw [hname]
  simp [hc]

theorem key_eq_lower (h : IsVariableName v.use.name) : v.use.key = Text.lower v.bareName := by
  obtain ⟨c, rest, hname, hc⟩ := h
  rfl

end Inference.PinnedVariable

namespace VariableScan

variable {s : State} {ts us : List PlacedToken} {m : Mention}

theorem exists_of_mem_mentions (h : m ∈ mentions s ts) :
    ∃ t ∈ ts, t.offset = m.use.offset ∧ IsVariableName m.use.name := by
  induction ts generalizing s with
  | nil => cases h
  | cons t rest ih =>
      unfold mentions at h
      rcases List.mem_append.1 h with hhere | hthere
      · have hmention := Option.mem_toList.1 hhere
        unfold mention? at hmention
        split at hmention
        · rename_i w hw
          split at hmention
          · rename_i hvariable
            obtain rfl := Option.some.inj hmention
            rw [Bool.and_eq_true, Word.isVariable_iff] at hvariable
            exact ⟨t, List.mem_cons_self, rfl, hvariable.1⟩
          · cases hmention
        · cases hmention
      · obtain ⟨u, hu, hrest⟩ := ih hthere
        exact ⟨u, List.mem_cons_of_mem _ hu, hrest⟩

theorem offset_of_mention? {t : PlacedToken} {following : Option Token}
    (h : mention? s t following = some m) : m.use.offset = t.offset := by
  unfold mention? at h
  split at h
  · split at h
    · obtain rfl := Option.some.inj h
      rfl
    · cases h
  · cases h

theorem pairwise_mentions (h : ts.Pairwise fun t u => t.offset < u.offset) :
    (mentions s ts).Pairwise fun m n => m.use.offset < n.use.offset := by
  induction ts generalizing s with
  | nil => exact .nil
  | cons t rest ih =>
      obtain ⟨hfirst, hrest⟩ := List.pairwise_cons.1 h
      unfold mentions
      refine List.pairwise_append.2 ⟨?_, ih hrest, ?_⟩
      · cases mention? s t (rest.head?.map (·.token)) with
        | none => exact .nil
        | some m => exact List.pairwise_singleton _ _
      · intro m hm n hn
        obtain ⟨u, hu, hoffset, -⟩ := exists_of_mem_mentions hn
        rw [offset_of_mention? (Option.mem_toList.1 hm), ← hoffset]
        exact hfirst u hu

end VariableScan

namespace ScriptVariables

/-- What a scan finds in any text: names of variables, each key once and in order of first use. -/
structure Sound (v : ScriptVariables) : Prop where
  names : ∀ u ∈ v.references, IsVariableName u.name
  keys : v.references.Pairwise fun u w => u.key ≠ w.key
  offsets : v.references.Pairwise fun u w => u.offset < w.offset

variable {v : ScriptVariables} {u : VariableUse}

theorem mem_references_of_mem_undeclared (h : u ∈ v.undeclared) : u ∈ v.references :=
  (List.mem_filter.1 h).1

theorem Sound.pairwise_undeclared (h : v.Sound) :
    v.undeclared.Pairwise fun u w => u.key ≠ w.key ∧ u.offset < w.offset :=
  (h.keys.and h.offsets).sublist List.filter_sublist

theorem Sound.eq_of_key_eq (h : v.Sound) {w : VariableUse} (hu : u ∈ v.references)
    (hw : w ∈ v.references) (hkey : u.key = w.key) : u = w :=
  eq_of_key_eq_of_pairwise h.keys hu hw hkey

theorem Sound.reference?_name (h : v.Sound) (hu : u ∈ v.references) :
    v.reference? u.name = some u :=
  find?_eq_some_of_pairwise h.keys hu

end ScriptVariables

/-- The undeclared variables with their pins. -/
def ScriptVariables.pinnedBy (pin : VariableUse → Option Inference.PinnedType)
    (v : ScriptVariables) : List Inference.PinnedVariable :=
  v.undeclared.map fun u => ⟨u, pin u⟩

theorem ScriptVariables.use_mem_of_mem_pinnedBy {pin : VariableUse → Option Inference.PinnedType}
    {v : ScriptVariables} {w : Inference.PinnedVariable} (h : w ∈ v.pinnedBy pin) :
    w.use ∈ v.undeclared ∧ w.pin = pin w.use := by
  obtain ⟨u, hu, rfl⟩ := List.mem_map.1 h
  exact ⟨hu, rfl⟩

theorem ScriptVariables.use_mem_references {pin : VariableUse → Option Inference.PinnedType}
    {v : ScriptVariables} {w : Inference.PinnedVariable} (h : w ∈ v.pinnedBy pin) :
    w.use ∈ v.references :=
  mem_references_of_mem_undeclared (use_mem_of_mem_pinnedBy h).1

theorem sound_of_scanVariables {sql : String} {v : ScriptVariables}
    (h : scanVariables sql = some v) : v.Sound := by
  obtain ⟨ts, hts, rfl⟩ := Option.map_eq_some_iff.1 h
  have hsorted : (ts.filter fun t => !t.token.isBlank).Pairwise fun t u => t.offset < u.offset :=
    (PlacedToken.offsets_of_scanFrom hts).2.sublist List.filter_sublist
  constructor
  · intro u hu
    have hmem := (firstOfEach_sublist _ _).subset hu
    obtain ⟨m, hm, rfl⟩ := List.mem_map.1 hmem
    obtain ⟨t, -, -, hname⟩ := VariableScan.exists_of_mem_mentions hm
    exact hname
  · exact pairwise_firstOfEach _ _
  · refine List.Pairwise.sublist (firstOfEach_sublist _ _) (List.pairwise_map.2 ?_)
    exact VariableScan.pairwise_mentions hsorted

end QueryShape
