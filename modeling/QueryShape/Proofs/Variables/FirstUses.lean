import QueryShape.Proofs.Variables.Places

namespace QueryShape

open QueryShape.Identifier
open QueryShape.VariableScan

/-- A place of a text by its line and its column, which both start at one. -/
structure Location where
  line : Nat := 1
  column : Nat := 1

namespace Location

/-- Where the next character stands. -/
def after (l : Location) (c : Char) : Location :=
  if c = '\n' then ⟨l.line + 1, 1⟩ else ⟨l.line, l.column + 1⟩

/-- The location of what follows a text. -/
def behind (cs : List Char) : Location :=
  cs.foldl after {}

/-- The number of characters before each line of a text. -/
def lineStarts (cs : List Char) : List Nat :=
  0 :: (cs.zipIdx.filter fun p => p.1 == '\n').map fun p => p.2 + 1

/-- The number of characters before a location. -/
def offsetIn (l : Location) (cs : List Char) : Nat :=
  (lineStarts cs)[l.line - 1]?.getD 0 + (l.column - 1)

theorem lineStarts_append (cs ds : List Char) : ∃ more, lineStarts (cs ++ ds) =
    lineStarts cs ++ more := by
  unfold lineStarts
  rw [List.zipIdx_append, List.filter_append, List.map_append, ← List.cons_append]
  exact ⟨_, rfl⟩

theorem lineStarts_snoc (cs : List Char) (c : Char) : lineStarts (cs ++ [c]) =
    lineStarts cs ++ if c = '\n' then [cs.length + 1] else [] := by
  unfold lineStarts
  rw [List.zipIdx_append, List.filter_append, List.map_append, ← List.cons_append]
  congr 1
  by_cases hc : c = '\n' <;> simp [hc]

theorem behind_snoc (cs : List Char) (c : Char) : behind (cs ++ [c]) = (behind cs).after c :=
  List.foldl_append

theorem line_behind (cs : List Char) :
    (lineStarts cs).length = (behind cs).line ∧ 0 < (behind cs).column ∧
      ∃ start ∈ (lineStarts cs).getLast?, start + ((behind cs).column - 1) = cs.length := by
  induction cs using List.reverseRecOn with
  | nil => exact ⟨rfl, Nat.one_pos, 0, rfl, rfl⟩
  | append_singleton cs c ih =>
      obtain ⟨hline, hcolumn, start, hstart, hlength⟩ := ih
      rw [behind_snoc, lineStarts_snoc, after]
      by_cases hc : c = '\n'
      · simp [hc, hline]
      · simp only [hc, if_false, List.append_nil, List.length_append, List.length_singleton]
        exact ⟨hline, by omega, start, hstart, by omega⟩

/-- Lines and columns lead back to the place they were counted for. -/
theorem offsetIn_behind (cs ds : List Char) : (behind cs).offsetIn (cs ++ ds) = cs.length := by
  obtain ⟨hline, -, start, hstart, hlength⟩ := line_behind cs
  obtain ⟨more, hmore⟩ := lineStarts_append cs ds
  rw [Option.mem_def, List.getLast?_eq_getElem?, hline] at hstart
  have hbound : (behind cs).line - 1 < (lineStarts cs).length :=
    (List.getElem?_eq_some_iff.1 hstart).1
  rw [offsetIn, hmore, List.getElem?_append_left hbound, hstart]
  exact hlength

end Location

namespace PlacedToken

/-- The token is read in a text behind as many characters as its offset says, which are also those
before the line and column of the token. -/
def StandsIn (t : PlacedToken) (cs : List Char) : Prop :=
  ∃ front c rest tail, cs = front ++ c :: rest ∧ Token.next c rest = some (t.token, tail) ∧
    t.offset = front.length ∧ (Location.behind front).offsetIn cs = t.offset

theorem exists_of_mem_scanFrom {offset : Nat} {cs : List Char} {ts : List PlacedToken}
    (h : scanFrom offset cs = some ts) {t : PlacedToken} (ht : t ∈ ts) :
    ∃ front c rest tail, cs = front ++ c :: rest ∧ Token.next c rest = some (t.token, tail) ∧
      t.offset = offset + front.length := by
  fun_induction scanFrom offset cs generalizing ts with
  | case1 offset =>
      obtain rfl := Option.some.inj h
      cases ht
  | case2 offset c rest hnext => cases h
  | case3 offset c rest u tail hnext ih =>
      obtain ⟨more, hmore, rfl⟩ := Option.map_eq_some_iff.1 h
      rcases List.mem_cons.1 ht with rfl | ht
      · exact ⟨[], c, rest, tail, rfl, hnext, rfl⟩
      · obtain ⟨front, d, rest', tail', rfl, hread, hoffset⟩ := ih hmore ht
        obtain ⟨taken, htaken⟩ := Token.next_suffix hnext
        refine ⟨c :: (taken ++ front), d, rest', tail', ?_, hread, ?_⟩
        · simp [← htaken]
        · rw [hoffset, ← htaken]
          simp only [List.length_append, List.length_cons]
          omega

theorem standsIn_of_mem {sql : String} {ts : List PlacedToken} (h : placedTokens sql = some ts)
    {t : PlacedToken} (ht : t ∈ ts) : t.StandsIn sql.toList := by
  obtain ⟨front, c, rest, tail, hsql, hread, hoffset⟩ := exists_of_mem_scanFrom h ht
  rw [Nat.zero_add] at hoffset
  refine ⟨front, c, rest, tail, hsql, hread, hoffset, ?_⟩
  rw [hsql, hoffset]
  exact Location.offsetIn_behind front (c :: rest)

end PlacedToken

theorem eq_or_rel_of_mem_firstOfEach {α κ : Type} [BEq κ] [LawfulBEq κ] {key : α → κ}
    {R : α → α → Prop} {as : List α} (hsorted : as.Pairwise R) {a b : α}
    (ha : a ∈ firstOfEach key as) (hb : b ∈ as) (hkey : key b = key a) : a = b ∨ R a b := by
  induction as with
  | nil => cases hb
  | cons c rest ih =>
      obtain ⟨hfirst, hrest⟩ := List.pairwise_cons.1 hsorted
      rcases List.mem_cons.1 ha with rfl | ha
      · rcases List.mem_cons.1 hb with rfl | hb
        · exact .inl rfl
        · exact .inr (hfirst b hb)
      · obtain ⟨ha, hother⟩ := List.mem_filter.1 ha
        rcases List.mem_cons.1 hb with rfl | hb
        · simp [hkey] at hother
        · exact ih hrest ha hb

namespace ScriptVariables

/-- The variables are those that are read in a text with the given visible tokens: of each key the
first one, as it is spelled there and where it stands, in the order of the text. Undeclared are
those that the text declares nowhere. -/
structure AreFirstUses (v : ScriptVariables) (sql : String) (ts : List PlacedToken) : Prop where
  keys : v.references.Pairwise fun u w => u.key ≠ w.key
  offsets : v.references.Pairwise fun u w => u.offset < w.offset
  first : ∀ u ∈ v.references, ∃ i t w, ts[i]? = some t ∧ ReadsAt (ts.map (·.token)) i w ∧
    u = ⟨w.value, t.offset⟩ ∧ t.StandsIn sql.toList ∧
    ∀ j x, ReadsAt (ts.map (·.token)) j x → parameterKey x.value = u.key → i ≤ j
  complete : ∀ key, key ∈ v.references.map VariableUse.key ↔
    ∃ i w, ReadsAt (ts.map (·.token)) i w ∧ parameterKey w.value = key
  sublist : v.undeclared.Sublist v.references
  undeclared : ∀ u ∈ v.references, u ∈ v.undeclared ↔
    ¬ ∃ i w, DeclaresAt (ts.map (·.token)) i w ∧ parameterKey w.value = u.key

end ScriptVariables

variable {ts : List PlacedToken} {key : String} {u : VariableUse}

theorem mem_key_references_iff :
    key ∈ (summary (mentions {} ts)).references.map VariableUse.key ↔
      ∃ i w, ReadsAt (ts.map (·.token)) i w ∧ parameterKey w.value = key := by
  have hkeys : ((mentions {} ts).map (·.use)).map VariableUse.key =
      (readings {} (ts.map (·.token))).map fun r => parameterKey r.1 := by
    rw [← map_reading_mentions, List.map_map, List.map_map]
    rfl
  rw [summary, mem_map_firstOfEach, hkeys, mem_keys_start_iff]

theorem isDeclared_iff {name : String} : (summary (mentions {} ts)).isDeclared name = true ↔
    ∃ i w, DeclaresAt (ts.map (·.token)) i w ∧ parameterKey w.value = parameterKey name := by
  rw [isDeclared_summary_iff, map_reading_mentions, exists_declared_start_iff]

/-- The variable that is kept of a key is the one at the first place where the key is read. -/
theorem exists_first_of_mem (hsorted : ts.Pairwise fun t u => t.offset < u.offset)
    (hu : u ∈ (summary (mentions {} ts)).references) :
    ∃ i t w, ts[i]? = some t ∧ ReadsAt (ts.map (·.token)) i w ∧ u = ⟨w.value, t.offset⟩ ∧
      ∀ j x, ReadsAt (ts.map (·.token)) j x → parameterKey x.value = u.key → i ≤ j := by
  obtain ⟨m, hm, rfl⟩ := List.mem_map.1 ((firstOfEach_sublist _ _).subset hu)
  obtain ⟨i, t, w, ht, hreads, huse, -⟩ := mem_mentions_start_iff.1 hm
  refine ⟨i, t, w, ht, hreads, huse, ?_⟩
  intro j x hj hkey
  obtain ⟨t', ht', m', hm', huse', -⟩ := hj.exists_mention
  have hfirst : m.use = m'.use ∨ m.use.offset < m'.use.offset := by
    apply eq_or_rel_of_mem_firstOfEach (R := fun u w => u.offset < w.offset) ?_ hu
    · exact List.mem_map_of_mem hm'
    · rw [huse']
      exact hkey
    · exact List.pairwise_map.2 (pairwise_mentions hsorted)
  have hle : t.offset ≤ t'.offset := by
    rw [huse, huse'] at hfirst
    rcases hfirst with heq | hlt
    · exact Nat.le_of_eq (congrArg VariableUse.offset heq)
    · exact Nat.le_of_lt hlt
  -- Behind a place stand only tokens with more characters before them.
  apply Nat.le_of_not_lt
  intro hlt
  obtain ⟨hbound, rfl⟩ := List.getElem?_eq_some_iff.1 ht
  obtain ⟨hbound', rfl⟩ := List.getElem?_eq_some_iff.1 ht'
  have := List.pairwise_iff_getElem.1 hsorted j i hbound' hbound hlt
  omega

/-- A scan of a text that can be read as tokens gives the first uses of the variables in it. -/
theorem scanVariables_firstUses {sql : String} {placed : List PlacedToken}
    (h : placedTokens sql = some placed) :
    ∃ v, scanVariables sql = some v ∧
      v.AreFirstUses sql (placed.filter fun t => !t.token.isBlank) := by
  have hscan : scanVariables sql =
      some (summary (mentions {} (placed.filter fun t => !t.token.isBlank))) := by
    rw [scanVariables, h, Option.map_some]
  have hsound := sound_of_scanVariables hscan
  have hsorted : (placed.filter fun t => !t.token.isBlank).Pairwise
      fun t u => t.offset < u.offset :=
    (PlacedToken.offsets_of_scanFrom h).2.sublist List.filter_sublist
  refine ⟨_, hscan, hsound.keys, hsound.offsets, ?_, fun key => mem_key_references_iff,
    List.filter_sublist, ?_⟩
  · intro u hu
    obtain ⟨i, t, w, ht, hreads, huse, hfirst⟩ := exists_first_of_mem hsorted hu
    have hmem := (List.mem_filter.1 (List.mem_of_getElem? ht)).1
    exact ⟨i, t, w, ht, hreads, huse, PlacedToken.standsIn_of_mem h hmem, hfirst⟩
  · intro u hu
    have hdeclared := @isDeclared_iff (placed.filter fun t => !t.token.isBlank) u.name
    rw [VariableUse.key, ← hdeclared, ScriptVariables.undeclared, List.mem_filter]
    simp [hu]

/-- A text of two lines with letters beyond ASCII, in which a variable is declared behind its use.
-/
def heightText : String :=
  "/* Höhe */ EXEC @rc = p @n = @Höhe\nSELECT @HÖHE, @N\nDECLARE @rc int"

/-- The first `@n` names an argument, and `@rc` is declared behind its use. -/
theorem heightText_firstUses : ∃ placed, placedTokens heightText = some placed ∧
    ∃ v, scanVariables heightText = some v ∧
      v.AreFirstUses heightText (placed.filter fun t => !t.token.isBlank) ∧
      v.references = [⟨"@rc", 16⟩, ⟨"@Höhe", 29⟩, ⟨"@N", 49⟩] ∧
      v.undeclared = [⟨"@Höhe", 29⟩, ⟨"@N", 49⟩] := by
  have hscan : scanVariables heightText =
      some ⟨[⟨"@rc", 16⟩, ⟨"@Höhe", 29⟩, ⟨"@N", 49⟩], ["rc"]⟩ := by
    decide +kernel
  obtain ⟨placed, hplaced, -⟩ := Option.map_eq_some_iff.1 hscan
  obtain ⟨v, hv, hfirst⟩ := scanVariables_firstUses hplaced
  obtain rfl := Option.some.inj (hscan.symm.trans hv)
  exact ⟨placed, hplaced, _, hv, hfirst, rfl, by decide +kernel⟩

end QueryShape
