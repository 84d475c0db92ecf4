import Mathlib.Algebra.Order.BigOperators.Group.List
import Mathlib.Algebra.Order.Group.Nat
import QueryShape.Proofs.ColumnParameters
import QueryShape.Proofs.Variables.Places

namespace QueryShape

open QueryShape.Identifier

namespace Token

def isDelimited : Token → Bool
  | word w => w.delimiter.isSome
  | _ => false

/-- The same token, or one delimited word in place of another. -/
def Rewords (t u : Token) : Prop :=
  t = u ∨ t.isDelimited = true ∧ u.isDelimited = true

instance (t u : Token) : Decidable (Rewords t u) :=
  inferInstanceAs (Decidable (_ ∨ _))

theorem Rewords.eq_equals_iff {t u : Token} (h : Rewords t u) : t = .equals ↔ u = .equals := by
  rcases h with rfl | ⟨ht, hu⟩
  · rfl
  · have hne : ∀ {v : Token}, v.isDelimited = true → v ≠ .equals := by
      rintro _ hv rfl
      cases hv
    exact iff_of_false (hne ht) (hne hu)

end Token

/-- What a scan says about the variables of a text, but not where they stand. -/
structure Findings where
  referenced : List String
  declared : List String
  undeclared : List String
  deriving DecidableEq

/-- What is found, without the places. -/
def ScriptVariables.findings (v : ScriptVariables) : Findings where
  referenced := v.references.map (·.name)
  declared := v.declared
  undeclared := v.undeclared.map (·.name)

namespace VariableScan

variable {s : State} {t u : Token} {ts us : List Token} {following : Option Token}

/-- What a scan of these tokens says. -/
def findings (ts : List Token) : Findings :=
  (summary (mentions {} (ts.map fun t => ⟨t, 0⟩))).findings

theorem findings_summary_congr {ms ns : List Mention}
    (h : ms.map Mention.reading = ns.map Mention.reading) :
    (summary ms).findings = (summary ns).findings := by
  have hreferenced : (summary ms).references.map (·.name) =
      (summary ns).references.map (·.name) := by
    rw [map_name_references, map_name_references, h]
  have hdeclared : (summary ms).declared = (summary ns).declared := by
    rw [declared_summary, declared_summary, h]
  unfold ScriptVariables.findings
  rw [map_name_undeclared, map_name_undeclared, hreferenced, hdeclared]
  unfold ScriptVariables.isDeclared
  rw [hdeclared]

theorem findings_eq_of_readings (h : readings {} ts = readings {} us) :
    findings ts = findings us :=
  findings_summary_congr h

theorem findings_of_scanVariables {sql : String} {v : ScriptVariables}
    (hscan : scanVariables sql = some v) (hts : visibleTokens sql = some ts) :
    v.findings = findings ts := by
  obtain ⟨ms, hms, hreadings⟩ := exists_scanVariables hts
  obtain rfl := Option.some.inj (hms.symm.trans hscan)
  exact findings_summary_congr hreadings

theorem mem_key_referenced_iff {key : String} :
    key ∈ (findings ts).referenced.map parameterKey ↔
      ∃ i w, ReadsAt ts i w ∧ parameterKey w.value = key := by
  have hkeys : ((findings ts).referenced.map parameterKey) =
      (firstOfEach parameterKey ((readings {} ts).map (·.1))).map parameterKey :=
    congrArg (List.map parameterKey) (map_name_references _)
  rw [hkeys, mem_map_firstOfEach, List.map_map]
  exact mem_keys_start_iff

/-- No delimited word is read as a variable. -/
def Unread (s : State) (ts : List Token) : Prop :=
  ∀ i t, ts[i]? = some t → t.isDelimited = true →
    mention? (stateAfter s (ts.take i)) ⟨t, 0⟩ ts[i + 1]? = none

/-- Every delimited word stands where an argument is named. -/
def NamesArguments (s : State) (ts : List Token) : Prop :=
  ∀ i t, ts[i]? = some t → t.isDelimited = true →
    (stateAfter s (ts.take i)).namesArgument = true ∧ ts[i + 1]? = some .equals

theorem unread_cons_iff : Unread s (t :: ts) ↔
    (t.isDelimited = true → mention? s ⟨t, 0⟩ ts.head? = none) ∧ Unread (s.after t) ts := by
  constructor
  · intro h
    refine ⟨?_, ?_⟩
    · intro ht
      rw [List.head?_eq_getElem?]
      exact h 0 t rfl ht
    · intro i u hu hdelimited
      exact h (i + 1) u hu hdelimited
  · rintro ⟨hhead, htail⟩ i u hu hdelimited
    cases i with
    | zero =>
        obtain rfl : t = u := by simpa using hu
        have hnone := hhead hdelimited
        rwa [List.head?_eq_getElem?] at hnone
    | succ i => exact htail i u hu hdelimited

theorem NamesArguments.of_cons (h : NamesArguments s (t :: ts)) :
    (t.isDelimited = true → s.namesArgument = true ∧ ts.head? = some .equals) ∧
      NamesArguments (s.after t) ts := by
  refine ⟨?_, ?_⟩
  · intro ht
    rw [List.head?_eq_getElem?]
    exact h 0 t rfl ht
  · intro i u hu hdelimited
    exact h (i + 1) u hu hdelimited

theorem mention?_eq_none_of_namesArgument {offset : Nat} (hnames : s.namesArgument = true)
    (hfollowing : following = some .equals) : mention? s ⟨t, offset⟩ following = none :=
  mention?_eq_none_iff.2 fun _ _ _ => ⟨hnames, hfollowing⟩

/-- Behind a delimited word that is not read a scan is where it was, but for the start of a call. -/
theorem after_of_unread (ht : t.isDelimited = true) (h : mention? s ⟨t, 0⟩ following = none) :
    s.after t = s.leaveCallStart := by
  cases t with
  | word w =>
      have hw : w.delimiter.isSome = true := ht
      cases hvariable : w.isVariable with
      | false =>
          have hends := endsList_of_delimiter hw s.depth
          rw [after_eq, hends, leaveCallStart_eq s w hvariable]
          rfl
      | true =>
          -- A variable that is not read names an argument, which declares nothing.
          obtain ⟨hnames, -⟩ := mention?_eq_none_iff.1 h w rfl hvariable
          have hcontext : s.context = .call false := by
            simp only [State.namesArgument, Bool.and_eq_true, beq_iff_eq] at hnames
            exact hnames.1
          rw [after_variable hvariable]
          simp [State.afterVariable, State.declares, hcontext]
  | _ => cases ht

theorem head?_eq_equals_iff_of_rewords (h : List.Forall₂ Token.Rewords ts us) :
    ts.head? = some .equals ↔ us.head? = some .equals := by
  cases h with
  | nil => rfl
  | cons hhead htail => simpa using hhead.eq_equals_iff

theorem readings_eq_of_rewords (h : List.Forall₂ Token.Rewords ts us) (hts : Unread s ts)
    (hus : Unread s us) : readings s ts = readings s us := by
  induction h generalizing s with
  | nil => rfl
  | @cons t u ts us hhead htail ih =>
      obtain ⟨ht, hts⟩ := unread_cons_iff.1 hts
      obtain ⟨hu, hus⟩ := unread_cons_iff.1 hus
      rw [readings_cons, readings_cons]
      rcases hhead with rfl | ⟨htd, hud⟩
      · rw [mention?_congr (head?_eq_equals_iff_of_rewords htail), ih hts hus]
      · have hafter : s.after t = s.after u :=
          (after_of_unread htd (ht htd)).trans (after_of_unread hud (hu hud)).symm
        rw [hafter] at hts ⊢
        rw [ht htd, hu hud, ih hts hus]

theorem NamesArguments.unread (h : NamesArguments s ts)
    (hrewords : List.Forall₂ Token.Rewords ts us) : Unread s us := by
  induction hrewords generalizing s with
  | nil =>
      intro i t ht
      cases ht
  | @cons t u ts us hhead htail ih =>
      obtain ⟨ht, hts⟩ := h.of_cons
      have hequals := head?_eq_equals_iff_of_rewords htail
      rw [unread_cons_iff]
      rcases hhead with rfl | ⟨htd, hud⟩
      · refine ⟨?_, ih hts⟩
        intro htd
        obtain ⟨hnames, hfollowing⟩ := ht htd
        exact mention?_eq_none_of_namesArgument hnames (hequals.1 hfollowing)
      · obtain ⟨hnames, hfollowing⟩ := ht htd
        have hunread : mention? s ⟨u, 0⟩ us.head? = none :=
          mention?_eq_none_of_namesArgument hnames (hequals.1 hfollowing)
        have hafter : s.after t = s.after u :=
          (after_of_unread htd (mention?_eq_none_of_namesArgument hnames hfollowing)).trans
            (after_of_unread hud hunread).symm
        rw [hafter] at hts
        exact ⟨fun _ => hunread, ih hts⟩

/-- A delimited word of a text is read as a variable. -/
def ReadsDelimited (ts : List Token) : Prop :=
  ∃ i w, ReadsAt ts i w ∧ w.delimiter.isSome = true

theorem namesArgumentAt_iff {i : Nat} : NamesArgumentAt ts i ↔
    (stateAfter {} (ts.take i)).namesArgument = true ∧ ts[i + 1]? = some .equals := by
  rw [namesArgument_stateAfter_iff]
  rfl

theorem unread_of_not_readsDelimited (h : ¬ ReadsDelimited ts) : Unread {} ts := by
  intro i t ht hdelimited
  rw [mention?_eq_none_iff]
  rintro w rfl hvariable
  by_contra hno
  exact h ⟨i, w, ⟨ht, hvariable, fun hnames => hno (namesArgumentAt_iff.1 hnames)⟩, hdelimited⟩

theorem not_readsDelimited_of_forall (h : ∀ t ∈ ts, t.isDelimited = true → t.isVariable = false) :
    ¬ ReadsDelimited ts := by
  rintro ⟨i, w, ⟨hw, hvariable, -⟩, hdelimited⟩
  have hno : w.isVariable = false := h (.word w) (List.mem_of_getElem? hw) hdelimited
  rw [hvariable] at hno
  cases hno

/-- What a scan finds in tokens comes from words that are not delimited. -/
structure ComesFromPlainWords (v : ScriptVariables) (ts : List Token) : Prop where
  referenced : ∀ u ∈ v.references, ∃ i w, ReadsAt ts i w ∧ w.delimiter = none ∧ w.value = u.name
  declared : ∀ key ∈ v.declared, ∃ i w, DeclaresAt ts i w ∧ w.delimiter = none ∧
    parameterKey w.value = key

theorem comesFromPlainWords_summary {ms : List Mention}
    (hreadings : ms.map Mention.reading = readings {} ts) (h : ¬ ReadsDelimited ts) :
    ComesFromPlainWords (summary ms) ts := by
  have hplain : ∀ i w, ReadsAt ts i w → w.delimiter = none := by
    intro i w hreads
    rw [← Option.not_isSome_iff_eq_none]
    exact fun hdelimited => h ⟨i, w, hreads, hdelimited⟩
  have hplaces : ∀ m ∈ ms, ∃ i w, ReadsAt ts i w ∧ w.delimiter = none ∧ w.value = m.use.name ∧
      (m.declared = true ↔ DeclaresAt ts i w) := by
    intro m hm
    have hr : m.reading ∈ readings {} ts := hreadings ▸ List.mem_map_of_mem hm
    obtain ⟨i, w, hreads, hname, hdeclared⟩ := mem_readings_start_iff.1 hr
    exact ⟨i, w, hreads, hplain i w hreads, hname.symm, hdeclared⟩
  refine ⟨?_, ?_⟩
  · intro u hu
    obtain ⟨m, hm, rfl⟩ := List.mem_map.1 ((firstOfEach_sublist _ _).subset hu)
    obtain ⟨i, w, hreads, hnone, hname, -⟩ := hplaces m hm
    exact ⟨i, w, hreads, hnone, hname⟩
  · intro key hkey
    obtain ⟨m, hm, rfl⟩ := List.mem_map.1 (mem_orderedKeys.1 hkey)
    obtain ⟨hmem, hdeclared⟩ := List.mem_filter.1 hm
    obtain ⟨i, w, -, hnone, hname, hiff⟩ := hplaces m hmem
    exact ⟨i, w, hiff.1 hdeclared, hnone, by rw [hname]; rfl⟩

theorem exists_fresh_variable (keys : List String) :
    ∃ name, IsVariableName name ∧ parameterKey name ∉ keys := by
  -- The name is longer than all of the keys.
  let xs := List.replicate ((keys.map String.length).sum + 1) 'x'
  have hxs : (parameterKey (String.ofList ('@' :: xs))).toList = xs := by
    have hascii : ∀ c ∈ xs, c.toNat < 128 := by
      intro c hc
      rw [List.eq_of_mem_replicate hc]
      decide
    have hkept : xs.dropWhile (· == '@') = xs := List.dropWhile_cons_of_neg (by decide)
    rw [toList_parameterKey, String.toList_ofList, List.dropWhile_cons_of_pos (by decide), hkept,
      Text.lowerFrom_of_ascii hascii, List.map_replicate]
    rfl
  refine ⟨String.ofList ('@' :: xs), ⟨'x', _, String.toList_ofList, by decide⟩, ?_⟩
  intro hmem
  have hle := List.le_sum_of_mem (List.mem_map_of_mem (f := String.length) hmem)
  rw [← String.length_toList, hxs, List.length_replicate] at hle
  omega

theorem forall₂_rewords_set {i : Nat} (ht : ts[i]? = some t) (hdelimited : t.isDelimited = true)
    (hu : u.isDelimited = true) : List.Forall₂ Token.Rewords ts (ts.set i u) := by
  rw [List.forall₂_iff_get]
  refine ⟨(List.length_set).symm, ?_⟩
  intro j hj hj'
  rw [List.get_eq_getElem, List.get_eq_getElem, List.getElem_set]
  split
  · rename_i heq
    subst heq
    obtain ⟨hbound, rfl⟩ := List.getElem?_eq_some_iff.1 ht
    exact .inr ⟨hdelimited, hu⟩
  · exact .inl rfl

/-- Only where an argument is named does it never matter what a delimited word says. -/
theorem findings_rewords_iff :
    (∀ us, List.Forall₂ Token.Rewords ts us → findings us = findings ts) ↔
      ∀ i w, ts[i]? = some (.word w) → w.delimiter.isSome = true → NamesArgumentAt ts i := by
  constructor
  · intro h i w hw hdelimited
    by_contra hno
    obtain ⟨name, hname, hfresh⟩ :=
      exists_fresh_variable ((findings ts).referenced.map parameterKey)
    have hset := h _ (forall₂_rewords_set hw hdelimited
      (u := .word ⟨name, some .bracket⟩) rfl)
    have hbound := (List.getElem?_eq_some_iff.1 hw).1
    have hreads : ReadsAt (ts.set i (.word ⟨name, some .bracket⟩)) i ⟨name, some .bracket⟩ := by
      refine ⟨List.getElem?_set_self hbound, Word.isVariable_iff.2 hname, ?_⟩
      rw [namesArgumentAt_iff, List.take_set_of_le (Nat.le_refl i),
        List.getElem?_set_ne (Nat.ne_of_lt (Nat.lt_succ_self i)), ← namesArgumentAt_iff]
      exact hno
    apply hfresh
    rw [← hset]
    exact mem_key_referenced_iff.2 ⟨i, _, hreads, rfl⟩
  · intro h us hrewords
    have hnames : NamesArguments {} ts := by
      intro i t ht hdelimited
      cases t with
      | word w => exact namesArgumentAt_iff.1 (h i w ht hdelimited)
      | _ => cases hdelimited
    have hts : List.Forall₂ Token.Rewords ts ts := List.forall₂_same.2 fun t _ => .inl rfl
    exact (findings_eq_of_readings
      (readings_eq_of_rewords hrewords (hnames.unread hts) (hnames.unread hrewords))).symm

end VariableScan

open VariableScan

variable {sql : String} {ts : List Token}

/-- Where no delimited word is read as a variable, all that is found comes from other words, and
the delimited ones can be exchanged for such as are not read either. Any exchange at all is possible
only where each of them names an argument. -/
theorem scanVariables_rewords (hts : visibleTokens sql = some ts) :
    ∃ v, scanVariables sql = some v ∧
      (¬ ReadsDelimited ts → ComesFromPlainWords v ts ∧
        ∀ text us, visibleTokens text = some us → List.Forall₂ Token.Rewords ts us →
          ¬ ReadsDelimited us → ∃ v', scanVariables text = some v' ∧ v'.findings = v.findings) ∧
      ((∀ us, List.Forall₂ Token.Rewords ts us → findings us = v.findings) ↔
        ∀ i w, ts[i]? = some (.word w) → w.delimiter.isSome = true → NamesArgumentAt ts i) := by
  obtain ⟨ms, hms, hreadings⟩ := exists_scanVariables hts
  have hfindings := findings_of_scanVariables hms hts
  refine ⟨_, hms, ?_, ?_⟩
  · intro hread
    refine ⟨comesFromPlainWords_summary hreadings hread, ?_⟩
    intro text us hus hrewords hread'
    obtain ⟨ns, hns, -⟩ := exists_scanVariables hus
    refine ⟨_, hns, ?_⟩
    rw [findings_of_scanVariables hns hus, hfindings]
    exact (findings_eq_of_readings (readings_eq_of_rewords hrewords
      (unread_of_not_readsDelimited hread) (unread_of_not_readsDelimited hread'))).symm
  · rw [hfindings]
    exact findings_rewords_iff

/-- A query of orders. -/
def totalText : String :=
  "SELECT [order total] FROM [Orders] WHERE Id = @id"

def sumText : String :=
  "SELECT \"sum\" FROM [Old Orders] WHERE Id = @id"

theorem totalText_rewords : ∃ ts us, visibleTokens totalText = some ts ∧
    visibleTokens sumText = some us ∧ List.Forall₂ Token.Rewords ts us ∧
    ∃ v v', scanVariables totalText = some v ∧ scanVariables sumText = some v' ∧
      v'.findings = v.findings ∧ v.findings = ⟨["@id"], [], ["@id"]⟩ := by
  have hts : visibleTokens totalText = some [.word ⟨"SELECT", none⟩,
      .word ⟨"order total", some .bracket⟩, .word ⟨"FROM", none⟩, .word ⟨"Orders", some .bracket⟩,
      .word ⟨"WHERE", none⟩, .word ⟨"Id", none⟩, .equals, .word ⟨"@id", none⟩] := by
    decide +kernel
  have hus : visibleTokens sumText = some [.word ⟨"SELECT", none⟩,
      .word ⟨"sum", some .doubleQuote⟩, .word ⟨"FROM", none⟩,
      .word ⟨"Old Orders", some .bracket⟩, .word ⟨"WHERE", none⟩, .word ⟨"Id", none⟩, .equals,
      .word ⟨"@id", none⟩] := by
    decide +kernel
  obtain ⟨v, hv, hread, -⟩ := scanVariables_rewords hts
  obtain ⟨-, hexchange⟩ := hread (not_readsDelimited_of_forall (by decide))
  obtain ⟨v', hv', hsame⟩ :=
    hexchange _ _ hus (by decide) (not_readsDelimited_of_forall (by decide))
  refine ⟨_, _, hts, hus, by decide, v, v', hv, hv', hsame, ?_⟩
  have hscan : scanVariables totalText = some ⟨[⟨"@id", 46⟩], []⟩ := by decide +kernel
  obtain rfl := Option.some.inj (hscan.symm.trans hv)
  decide +kernel

/-- A column in brackets is taken for a variable. -/
theorem delimitedColumn_is_read : ∃ ts us, visibleTokens "SELECT [@id] FROM t" = some ts ∧
    visibleTokens "SELECT [id] FROM t" = some us ∧ List.Forall₂ Token.Rewords ts us ∧
    ∃ v v', scanVariables "SELECT [@id] FROM t" = some v ∧
      scanVariables "SELECT [id] FROM t" = some v' ∧
      v.findings = ⟨["@id"], [], ["@id"]⟩ ∧ v'.findings = ⟨[], [], []⟩ := by
  refine ⟨[.word ⟨"SELECT", none⟩, .word ⟨"@id", some .bracket⟩, .word ⟨"FROM", none⟩,
    .word ⟨"t", none⟩], [.word ⟨"SELECT", none⟩, .word ⟨"id", some .bracket⟩,
    .word ⟨"FROM", none⟩, .word ⟨"t", none⟩], by decide +kernel, by decide +kernel, by decide,
    ⟨[⟨"@id", 7⟩], []⟩, ⟨[], []⟩, by decide +kernel, by decide +kernel, by decide +kernel,
    by decide +kernel⟩

end QueryShape
