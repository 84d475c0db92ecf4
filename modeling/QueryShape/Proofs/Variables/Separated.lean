import QueryShape.Proofs.NamesApart.Blanks
import QueryShape.Proofs.Variables.ListTexts

namespace QueryShape

open QueryShape.Identifier

/-- The variables of a text followed by those of another text, which starts behind `n` characters.
What both use is used first in the first one. -/
def ScriptVariables.followedBy (v : ScriptVariables) (n : Nat) (w : ScriptVariables) :
    ScriptVariables where
  references :=
    v.references ++
      (w.references.map (VariableUse.shift n)).filter fun u => (v.reference? u.name).isNone
  declared := orderedKeys (· ≤ ·) (v.declared ++ w.declared)

namespace VariableScan

/-- What a scan finds in the tokens of a text. -/
def scan (ts : List PlacedToken) : ScriptVariables :=
  summary (mentions {} (visible ts))

/-- A semicolon ends all that has been begun before it and is no part of it. -/
theorem mentions_acrossSemicolon (as bs : List PlacedToken) (m n : Nat) :
    mentions {} (visible (as ++ ⟨.semicolon, m⟩ :: bs.map (PlacedToken.shift n))) =
      mentions {} (visible as) ++ (mentions {} (visible bs)).map (Mention.shift n) := by
  have hvisible : visible (as ++ ⟨.semicolon, m⟩ :: bs.map (PlacedToken.shift n)) =
      visible as ++ ⟨.semicolon, m⟩ :: (visible bs).map (PlacedToken.shift n) := by
    rw [← visible_shift]
    exact List.filter_append _ _
  rw [hvisible, mentions_append (by rintro t ⟨⟩; nofun), mentions_semicolon _ rfl, mentions_shift]

theorem reference?_summary_isNone (ms : List Mention) (name : String) :
    ((summary ms).reference? name).isNone =
      !((ms.map (·.use)).map VariableUse.key).contains (parameterKey name) := by
  rw [Bool.eq_iff_iff, ScriptVariables.reference?, Option.isNone_iff_eq_none,
    List.find?_eq_none, Bool.not_eq_true', ← Bool.not_eq_true, List.contains_iff_mem,
    ← mem_map_firstOfEach]
  constructor
  · intro h hmem
    obtain ⟨u, hu, hkey⟩ := List.mem_map.1 hmem
    exact h u hu (beq_iff_eq.2 hkey)
  · intro h u hu hkey
    exact h (List.mem_map.2 ⟨u, hu, eq_of_beq hkey⟩)

theorem summary_append_shift (ms ns : List Mention) (n : Nat) :
    summary (ms ++ ns.map (Mention.shift n)) = (summary ms).followedBy n (summary ns) := by
  have hreferences : (summary (ms ++ ns.map (Mention.shift n))).references =
      ((summary ms).followedBy n (summary ns)).references := by
    simp only [ScriptVariables.followedBy, reference?_summary_isNone, map_shift_references]
    rw [summary, List.map_append, firstOfEach_append]
    rfl
  have hdeclared : (summary (ms ++ ns.map (Mention.shift n))).declared =
      ((summary ms).followedBy n (summary ns)).declared := by
    rw [ScriptVariables.followedBy, declared_summary, declared_summary, declared_summary,
      List.map_append, map_reading_shift]
    apply orderedKeys_congr
    simp [mem_orderedKeys]
  exact ScriptVariables.mk.injEq .. ▸ ⟨hreferences, hdeclared⟩

theorem scan_acrossSemicolon (as bs : List PlacedToken) (m n : Nat) :
    scan (as ++ ⟨.semicolon, m⟩ :: bs.map (PlacedToken.shift n)) =
      (scan as).followedBy n (scan bs) := by
  unfold scan
  rw [mentions_acrossSemicolon, summary_append_shift]

end VariableScan

namespace PlacedToken

open QueryShape.TempTable

variable {offset : Nat} {cs : List Char} {ts : List PlacedToken}

theorem exists_scanFrom_append (h : scanFrom offset cs = some ts) :
    ∃ blanks : List PlacedToken, (∀ t ∈ blanks, t.token.isBlank = true) ∧ ∀ rest,
      scanFrom offset (cs ++ ' ' :: '\n' :: rest) =
        (scanFrom (offset + (cs.length + 2)) rest).map fun us => ts ++ blanks ++ us := by
  have hspace (rest : List Char) : Token.next ' ' rest = some (.blank, rest) := rfl
  have hfeed (rest : List Char) : Token.next '\n' rest = some (.blank, rest) := rfl
  fun_induction scanFrom offset cs generalizing ts with
  | case1 offset =>
      obtain rfl := Option.some.inj h
      refine ⟨[⟨.blank, offset⟩, ⟨.blank, offset + 1⟩], by simp [Token.isBlank], fun rest => ?_⟩
      rw [List.nil_append, scanFrom_cons (hspace _), scanFrom_cons (hfeed _), Option.map_map]
      simp only [List.length_cons, List.length_nil, Nat.add_sub_cancel_left]
      rfl
  | case2 => cases h
  | case3 offset c cs t tail hnext ih =>
      obtain ⟨more, hmore, rfl⟩ := Option.map_eq_some_iff.1 h
      have hlength := (Token.next_suffix hnext).length_le
      by_cases hopen : OpensComment c cs
      · -- The comment takes the space and the line feed.
        obtain ⟨hhere, hthere⟩ := next_of_opensComment hopen
        rw [hhere] at hnext
        obtain ⟨rfl, rfl⟩ := Prod.mk.inj (Option.some.inj hnext)
        obtain rfl : more = [] := by simpa [scanFrom] using hmore.symm
        refine ⟨[], List.forall_mem_nil _, fun rest => ?_⟩
        have hoffset : offset + ((cs ++ ' ' :: '\n' :: rest).length + 1 - rest.length) =
            offset + ((c :: cs).length + 2) := by
          simp only [List.length_append, List.length_cons]
          omega
        have hcomment : Token.next c (cs ++ ' ' :: '\n' :: rest) = some (.blank, rest) :=
          hthere [' '] rest (by decide)
        rw [List.cons_append, scanFrom_cons hcomment, hoffset]
        rfl
      · obtain ⟨blanks, hblanks, happend⟩ := ih hmore
        refine ⟨blanks, hblanks, fun rest => ?_⟩
        have hthere := next_append_blank hnext hopen ('\n' :: rest)
        have hoffset : offset + ((cs ++ ' ' :: '\n' :: rest).length + 1 -
            (tail ++ ' ' :: '\n' :: rest).length) = offset + (cs.length + 1 - tail.length) := by
          simp only [List.length_append, List.length_cons]
          omega
        have hbehind : offset + (cs.length + 1 - tail.length) + (tail.length + 2) =
            offset + ((c :: cs).length + 2) := by
          simp only [List.length_cons]
          omega
        rw [List.cons_append, scanFrom_cons hthere, hoffset]
        change (scanFrom _ (tail ++ ' ' :: '\n' :: rest)).map _ = _
        rw [happend, hbehind, Option.map_map]
        rfl

end PlacedToken

open VariableScan

/-- Behind a space and a line feed the semicolon stands apart from what is before it. -/
theorem scanVariables_append {a b : String} {v w : ScriptVariables} (ha : scanVariables a = some v)
    (hb : scanVariables b = some w) :
    scanVariables (a ++ " \n;" ++ b) = some (v.followedBy (a.length + 3) w) := by
  obtain ⟨as, has, rfl⟩ := Option.map_eq_some_iff.1 ha
  obtain ⟨bs, hbs, rfl⟩ := Option.map_eq_some_iff.1 hb
  obtain ⟨blanks, hblanks, happend⟩ := PlacedToken.exists_scanFrom_append has
  have hsemicolon (rest : List Char) : Token.next ';' rest = some (.semicolon, rest) := rfl
  have hshift := PlacedToken.scanFrom_add 0 (a.length + 3) b.toList
  have hbehind : PlacedToken.scanFrom 0 b.toList = some bs := hbs
  have hplaced : placedTokens (a ++ " \n;" ++ b) = some ((as ++ blanks) ++
      ⟨.semicolon, a.length + 2⟩ :: bs.map (PlacedToken.shift (a.length + 3))) := by
    have htext : (a ++ " \n;" ++ b).toList = a.toList ++ ' ' :: '\n' :: ';' :: b.toList := by
      simp
    rw [placedTokens, htext, happend, PlacedToken.scanFrom_cons (hsemicolon _)]
    have hoffset : 0 + (a.toList.length + 2) + (b.toList.length + 1 - b.toList.length) =
        0 + (a.length + 3) := by
      rw [String.length_toList]
      omega
    rw [hoffset, hshift, hbehind, String.length_toList]
    simp
  have hvisible : visible (as ++ blanks) = visible as := by
    rw [visible, List.filter_append]
    simpa [visible] using hblanks
  have hscan := scan_acrossSemicolon (as ++ blanks) bs (a.length + 2) (a.length + 3)
  have hfront : scan (as ++ blanks) = scan as := congrArg (summary ∘ mentions {}) hvisible
  rw [hfront] at hscan
  rw [scanVariables, hplaced]
  exact congrArg some hscan

/-- A semicolon keeps apart what is found on its two sides: the declarations of both count, and the
variables of the second that the first does not use follow those of the first. -/
theorem scanVariables_acrossSemicolon :
    (∀ (as bs : List PlacedToken) (m n : Nat),
      scan (as ++ ⟨.semicolon, m⟩ :: bs.map (PlacedToken.shift n)) =
        (scan as).followedBy n (scan bs)) ∧
    (∀ sql : String, scanVariables sql = (placedTokens sql).map scan) ∧
    ∀ (a b : String) (v w : ScriptVariables), scanVariables a = some v → scanVariables b = some w →
      scanVariables (a ++ " \n;" ++ b) = some (v.followedBy (a.length + 3) w) :=
  ⟨scan_acrossSemicolon, fun _ => rfl, fun _ _ _ _ => scanVariables_append⟩

/-- A text that breaks off in a parenthesis of a declaration. -/
def openList : String :=
  "DECLARE @a int = (@b"

def labelText : String :=
  "SELECT @A, @c, @d = 1"

/-- Neither the open parenthesis nor the list of declarations reaches across the semicolon. -/
theorem openList_acrossSemicolon : ∃ v w, scanVariables openList = some v ∧
    scanVariables labelText = some w ∧
    scanVariables (openList ++ " \n;" ++ labelText) = some (v.followedBy 23 w) ∧
    v.followedBy 23 w = ⟨[⟨"@a", 8⟩, ⟨"@b", 18⟩, ⟨"@c", 34⟩, ⟨"@d", 38⟩], ["a"]⟩ := by
  have hopen : scanVariables openList = some ⟨[⟨"@a", 8⟩, ⟨"@b", 18⟩], ["a"]⟩ := by
    decide +kernel
  have hlabel : scanVariables labelText = some ⟨[⟨"@A", 7⟩, ⟨"@c", 11⟩, ⟨"@d", 15⟩], []⟩ := by
    decide +kernel
  obtain ⟨-, -, htexts⟩ := scanVariables_acrossSemicolon
  exact ⟨_, _, hopen, hlabel, htexts _ _ _ _ hopen hlabel, by decide +kernel⟩

end QueryShape
