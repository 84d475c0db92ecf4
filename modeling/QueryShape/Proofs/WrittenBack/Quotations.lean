import Mathlib.Data.List.TakeWhile
import QueryShape.Proofs.GlobalTokens.Readers

/-!
Quotations that are written and read again. A mark that is doubled inside comes back. Where it is
not doubled, or where a backslash means something, what comes back is shorter than what was written,
so a quotation comes back exactly if nothing in it needs an escape.
-/

namespace QueryShape.Token

open QueryShape.Identifier
open QueryShape.TempTable

variable {q c : Char} {cs body tail rest z : List Char}

theorem quoted_doubled (hrest : rest.head? ≠ some q) (cs : List Char) :
    quoted q (doubled q cs ++ q :: rest) = some (cs, rest) := by
  induction cs with
  | nil => exact (closesAt_quoted q).closed hrest
  | cons c cs ih =>
      rw [doubled_cons]
      split
      · rename_i hc
        subst hc
        change quoted c (c :: c :: (doubled c cs ++ c :: rest)) = _
        rw [(closesAt_quoted c).doubled, ih]
        rfl
      · rename_i hc
        rw [List.singleton_append, List.cons_append, quoted_takes hc, ih]
        rfl

theorem eq_of_quoted (h : quoted q cs = some (body, tail)) :
    cs = doubled q body ++ q :: tail ∧ tail.head? ≠ some q := by
  fun_induction quoted q cs generalizing body with
  | case1 => cases h
  | case2 =>
      cases h
      exact ⟨rfl, by simp⟩
  | case3 after ih =>
      obtain ⟨⟨inner, tail'⟩, hinner, heq⟩ := Option.map_eq_some_iff.1 h
      cases heq
      obtain ⟨heq, htail⟩ := ih hinner
      rw [doubled_cons, if_pos rfl, heq]
      exact ⟨rfl, htail⟩
  | case4 d after hd =>
      cases h
      exact ⟨rfl, by simpa using hd⟩
  | case5 c rest hc ih =>
      obtain ⟨⟨inner, tail'⟩, hinner, heq⟩ := Option.map_eq_some_iff.1 h
      cases heq
      obtain ⟨heq, htail⟩ := ih hinner
      rw [doubled_cons, if_neg hc, heq]
      exact ⟨rfl, htail⟩

theorem length_doubled (q : Char) (cs : List Char) :
    (doubled q cs).length = cs.length + cs.count q := by
  induction cs with
  | nil => rfl
  | cons c cs ih =>
      rw [doubled_cons, List.length_append, ih, List.length_cons, List.count_cons]
      by_cases hc : c = q <;> simp [hc] <;> omega

theorem count_doubled (q : Char) (cs : List Char) :
    (doubled q cs).count q = 2 * cs.count q := by
  induction cs with
  | nil => rfl
  | cons c cs ih =>
      rw [doubled_cons, List.count_append, ih, List.count_cons]
      by_cases hc : c = q <;> simp [hc]
      omega

theorem quoted_append_iff (hrest : rest.head? ≠ some q) :
    quoted q (cs ++ q :: rest) = some (cs, rest) ↔ q ∉ cs := by
  constructor
  · intro h hmem
    have hlength := congrArg List.length (eq_of_quoted h).1
    have hcount := List.count_pos_iff.2 hmem
    simp only [List.length_append, length_doubled] at hlength
    omega
  · intro h
    have hdoubled := quoted_doubled hrest cs
    rwa [doubled_eq_self h] at hdoubled

theorem exists_of_controlQuoted_escape (h : controlQuoted ('\\' :: cs) = some (body, tail)) :
    ∃ d after inner, cs = d :: after ∧ controlQuoted after = some (inner, tail) ∧
      body = controlChar d :: inner := by
  cases cs with
  | nil => cases h
  | cons d after =>
      rw [controlQuoted, if_neg (by decide), if_pos rfl] at h
      obtain ⟨⟨inner, tail'⟩, hinner, heq⟩ := Option.map_eq_some_iff.1 h
      cases heq
      exact ⟨d, after, inner, rfl, hinner, rfl⟩

theorem length_le_of_controlQuoted (h : controlQuoted cs = some (body, tail)) :
    2 * body.length + 1 + 2 * tail.length + cs.count '\'' ≤
      2 * cs.length + tail.count '\'' := by
  fun_induction controlQuoted cs generalizing body with
  | case1 => cases h
  | case2 =>
      cases h
      simp
  | case3 after ih =>
      obtain ⟨⟨inner, tail'⟩, hinner, heq⟩ := Option.map_eq_some_iff.1 h
      cases heq
      have := ih hinner
      simp only [List.length_cons, List.count_cons_self]
      omega
  | case4 d after hd =>
      cases h
      simp only [List.length_cons, List.length_nil, List.count_cons_self]
      omega
  | case5 => cases h
  | case6 d after hquote ih =>
      obtain ⟨⟨inner, tail'⟩, hinner, heq⟩ := Option.map_eq_some_iff.1 h
      cases heq
      have := ih hinner
      have hcount : ('\\' :: d :: after).count '\'' ≤ after.count '\'' + 1 := by
        rw [List.count_cons_of_ne (by decide), List.count_cons]
        split <;> omega
      simp only [List.length_cons]
      omega
  | case7 c rest hquote hescape ih =>
      obtain ⟨⟨inner, tail'⟩, hinner, heq⟩ := Option.map_eq_some_iff.1 h
      cases heq
      have := ih hinner
      simp only [List.length_cons, List.count_cons_of_ne hquote]
      omega

/-- A text in which quotes are doubled is read as itself exactly if it has no backslash. -/
theorem controlQuoted_doubled_iff (hrest : rest.head? ≠ some '\'') :
    controlQuoted (doubled '\'' cs ++ '\'' :: rest) = some (cs, rest) ↔ '\\' ∉ cs := by
  induction cs with
  | nil => exact iff_of_true (closesAt_controlQuoted.closed hrest) List.not_mem_nil
  | cons c cs ih =>
      rw [doubled_cons, List.mem_cons, not_or, ← ih]
      by_cases hquote : c = '\''
      · subst hquote
        rw [if_pos rfl]
        change controlQuoted ('\'' :: '\'' :: (doubled '\'' cs ++ '\'' :: rest)) = _ ↔ _
        rw [closesAt_controlQuoted.doubled]
        simp
      by_cases hescape : c = '\\'
      · subst hescape
        refine iff_of_false (fun h => ?_) fun hne => hne.1 rfl
        rw [if_neg hquote, List.singleton_append, List.cons_append] at h
        obtain ⟨d, after, inner, hafter, hinner, hcons⟩ := exists_of_controlQuoted_escape h
        obtain ⟨-, rfl⟩ := List.cons.inj hcons
        have hlength := congrArg List.length hafter
        have hcount := congrArg (List.count '\'') hafter
        have hshort := length_le_of_controlQuoted hinner
        simp only [List.length_append, List.length_cons, List.count_append, List.count_cons_self,
          length_doubled, count_doubled] at hlength hcount
        rw [List.count_cons] at hcount
        split at hcount <;> omega
      · rw [if_neg hquote, List.singleton_append, List.cons_append,
          controlQuoted_takes hquote hescape]
        simp [Ne.symm hescape]

theorem one_le_of_escape {e : Char} {n : Nat} (h : escape cs = some (e, n)) : 1 ≤ n := by
  cases cs with
  | nil => cases h
  | cons c cs =>
      simp only [escape] at h
      grind only [Option.map_eq_some_iff]

theorem exists_of_escapedQuoted_escape (h : escapedQuoted ('\\' :: cs) = some (body, tail)) :
    ∃ e n inner, escape cs = some (e, n) ∧ e ≠ '\x00' ∧
      escapedQuoted (cs.drop n) = some (inner, tail) ∧ body = e :: inner := by
  rw [escapedQuoted.eq_def] at h
  simp only [Char.reduceEq, if_false, if_true] at h
  split at h
  · cases h
  rename_i e n hescape
  split at h
  · cases h
  rename_i hnull
  obtain ⟨⟨inner, tail'⟩, hinner, heq⟩ := Option.map_eq_some_iff.1 h
  cases heq
  exact ⟨e, n, inner, hescape, hnull, hinner, rfl⟩

theorem length_le_of_escapedQuoted (h : escapedQuoted cs = some (body, tail)) :
    body.length + 1 + tail.length ≤ cs.length := by
  fun_induction escapedQuoted cs generalizing body with
  | case1 => cases h
  | case2 =>
      cases h
      simp
  | case3 after ih =>
      obtain ⟨⟨inner, tail'⟩, hinner, heq⟩ := Option.map_eq_some_iff.1 h
      cases heq
      have := ih hinner
      simp only [List.length_cons]
      omega
  | case4 d after hd =>
      cases h
      simp only [List.length_cons, List.length_nil]
      omega
  | case5 => cases h
  | case6 => cases h
  | case7 cs e n hescape hnull _ ih =>
      obtain ⟨⟨inner, tail'⟩, hinner, heq⟩ := Option.map_eq_some_iff.1 h
      cases heq
      have := ih hinner
      have := one_le_of_escape hescape
      simp only [List.length_cons, List.length_drop] at *
      omega
  | case8 c rest hquote hescape ih =>
      obtain ⟨⟨inner, tail'⟩, hinner, heq⟩ := Option.map_eq_some_iff.1 h
      cases heq
      have := ih hinner
      simp only [List.length_cons]
      omega

/-- A text in quotes is read as itself exactly if it has neither quotes nor backslashes. -/
theorem escapedQuoted_append_iff (hrest : rest.head? ≠ some '\'') :
    escapedQuoted (cs ++ '\'' :: rest) = some (cs, rest) ↔ '\'' ∉ cs ∧ '\\' ∉ cs := by
  induction cs with
  | nil =>
      exact iff_of_true (closesAt_escapedQuoted.closed hrest) ⟨List.not_mem_nil, List.not_mem_nil⟩
  | cons c cs ih =>
      rw [List.cons_append]
      by_cases hquote : c = '\''
      · subst hquote
        refine iff_of_false (fun h => ?_) fun hne => hne.1 List.mem_cons_self
        obtain ⟨hnil, -⟩ | ⟨after, inner, hafter, hinner, hcons⟩ := closesAt_escapedQuoted.of_cons h
        · cases hnil
        · obtain ⟨-, rfl⟩ := List.cons.inj hcons
          have hlength := congrArg List.length hafter
          have hshort := length_le_of_escapedQuoted hinner
          simp only [List.length_append, List.length_cons] at hlength
          omega
      by_cases hescape : c = '\\'
      · subst hescape
        refine iff_of_false (fun h => ?_) fun hne => hne.2 List.mem_cons_self
        obtain ⟨e, n, inner, hescape, -, hinner, hcons⟩ := exists_of_escapedQuoted_escape h
        obtain ⟨-, rfl⟩ := List.cons.inj hcons
        have hshort := length_le_of_escapedQuoted hinner
        have hone := one_le_of_escape hescape
        simp only [List.length_drop, List.length_append, List.length_cons] at hshort
        omega
      · rw [escapedQuoted_takes hquote hescape]
        simp [Ne.symm hescape, Ne.symm hquote, ← ih]

theorem upTo_append {closing : List Char} (h : upTo closing cs = some (body, tail)) :
    cs = body ++ (closing ++ tail) ∧
      ∀ rest, upTo closing (body ++ (closing ++ rest)) = some (body, rest) := by
  fun_induction upTo closing cs generalizing body with
  | case1 hnil =>
      cases h
      refine ⟨by simp [hnil], fun rest => ?_⟩
      cases rest <;> simp [hnil, upTo]
  | case2 => cases h
  | case3 c cs hclosed =>
      cases h
      obtain ⟨after, hafter⟩ := List.isPrefixOf_iff_prefix.1 hclosed
      refine ⟨by rw [← hafter, List.drop_left]; rfl, fun rest => ?_⟩
      rw [List.nil_append]
      cases closing with
      | nil => cases rest <;> simp [upTo]
      | cons d closing => simp [upTo, List.isPrefixOf_iff_prefix]
  | case4 c cs hopen ih =>
      obtain ⟨⟨inner, tail'⟩, hinner, heq⟩ := Option.map_eq_some_iff.1 h
      cases heq
      obtain ⟨rfl, hread⟩ := ih hinner
      refine ⟨rfl, fun rest => ?_⟩
      -- An occurrence that begins earlier would end before the rest does begin.
      have hopen' : ¬ closing.isPrefixOf (c :: (inner ++ (closing ++ rest))) = true := by
        intro hearly
        apply hopen
        rw [List.isPrefixOf_iff_prefix] at hearly ⊢
        have hfits : c :: inner ++ closing <+: c :: (inner ++ (closing ++ rest)) := by simp
        have hinside := List.prefix_of_prefix_length_le hearly hfits (by simp; omega)
        exact hinside.trans (by simp)
      rw [List.cons_append, upTo, if_neg hopen', hread]
      rfl

/-- What a reader takes does not depend on what it leaves: that may be cut off. -/
def CutsShort {α : Type} (reader : List Char → Option (α × List Char)) : Prop :=
  ∀ {cs tail z : List Char} {a : α}, reader (cs ++ z) = some (a, tail ++ z) →
    reader cs = some (a, tail)

theorem CutsShort.map {α β : Type} {reader : List Char → Option (α × List Char)}
    (h : CutsShort reader) (make : α → β) :
    CutsShort fun cs => (reader cs).map fun r => (make r.1, r.2) := by
  intro cs tail z b hb
  obtain ⟨⟨a, tail'⟩, ha, heq⟩ := Option.map_eq_some_iff.1 hb
  obtain ⟨rfl, rfl⟩ := Prod.mk.inj heq
  exact Option.map_eq_some_iff.2 ⟨_, h ha, rfl⟩

theorem cutsShort_quoted : CutsShort (quoted q) := by
  intro cs tail z body h
  obtain ⟨heq, htail⟩ := eq_of_quoted h
  rw [← List.cons_append, ← List.append_assoc, List.append_left_inj] at heq
  rw [heq]
  refine quoted_doubled ?_ body
  intro hq
  obtain ⟨more, rfl⟩ := List.head?_eq_some_iff.1 hq
  exact htail rfl

theorem cutsShort_upTo {closing : List Char} : CutsShort (upTo closing) := by
  intro cs tail z body h
  obtain ⟨heq, hread⟩ := upTo_append h
  rw [← List.append_assoc, ← List.append_assoc, List.append_left_inj, List.append_assoc] at heq
  rw [heq]
  exact hread tail

/-- A reader takes one character at least. -/
def Shortens (reader : List Char → Option (List Char × List Char)) : Prop :=
  ∀ {cs body tail : List Char}, reader cs = some (body, tail) → tail.length < cs.length

theorem shortens_controlQuoted : Shortens controlQuoted := by
  intro cs body tail h
  have hle := length_le_of_controlQuoted h
  obtain ⟨front, rfl⟩ := controlQuoted_suffix h
  have hcount := List.count_le_length (a := '\'') (l := front)
  simp only [List.length_append, List.count_append] at hle ⊢
  omega

theorem shortens_escapedQuoted : Shortens escapedQuoted := by
  intro cs body tail h
  have hle := length_le_of_escapedQuoted h
  omega

section

variable {reader : List Char → Option (List Char × List Char)}

theorem Shortens.ne_some (hreader : Shortens reader) (hlength : cs.length ≤ z.length) :
    reader cs ≠ some (body, tail ++ z) := by
  intro h
  have hlt := hreader h
  rw [List.length_append] at hlt
  omega

theorem eq_nil_of_closesAt (hreader : ClosesAt reader q) (hshortens : Shortens reader)
    (h : reader ([q] ++ z) = some (body, tail ++ z)) : body = [] ∧ tail = [] := by
  obtain ⟨rfl, htail⟩ | ⟨after, inner, rfl, hinner, -⟩ := hreader.of_cons h
  · exact ⟨rfl, List.append_left_eq_self.1 htail⟩
  · exact absurd hinner (hshortens.ne_some (Nat.le_succ _))

end

theorem cutsShort_controlQuoted : CutsShort controlQuoted := by
  intro cs tail z body h
  fun_induction controlQuoted cs generalizing body with
  | case1 => exact absurd h (shortens_controlQuoted.ne_some (Nat.le_refl _))
  | case2 =>
      obtain ⟨rfl, rfl⟩ := eq_nil_of_closesAt closesAt_controlQuoted shortens_controlQuoted h
      rfl
  | case3 after ih =>
      rw [List.cons_append, List.cons_append, closesAt_controlQuoted.doubled] at h
      obtain ⟨⟨inner, tail'⟩, hinner, heq⟩ := Option.map_eq_some_iff.1 h
      cases heq
      rw [ih hinner]
      rfl
  | case4 d after hd =>
      rw [List.cons_append, closesAt_controlQuoted.closed (by simpa using hd)] at h
      obtain ⟨rfl, htail⟩ := Prod.mk.inj (Option.some.inj h)
      rw [(List.append_left_inj z).1 htail]
  | case5 hquote =>
      obtain ⟨d, after, inner, rfl, hinner, -⟩ := exists_of_controlQuoted_escape h
      exact absurd hinner (shortens_controlQuoted.ne_some (Nat.le_succ _))
  | case6 d after hquote ih =>
      obtain ⟨d', after', inner, heq, hinner, rfl⟩ := exists_of_controlQuoted_escape h
      obtain ⟨rfl, rfl⟩ := List.cons.inj heq
      rw [ih hinner]
      rfl
  | case7 c rest hquote hescape ih =>
      obtain ⟨inner, hinner, rfl⟩ := (controlQuoted_takes hquote hescape).exists_of_cons h
      rw [ih hinner]
      rfl

theorem takeWhile_take_of_append {p : Char → Bool} {n : Nat}
    (h : (((cs ++ z).takeWhile p).take n).length < cs.length) :
    (cs.takeWhile p).take n = ((cs ++ z).takeWhile p).take n := by
  by_cases hall : ∀ d ∈ cs, p d = true
  · rw [List.takeWhile_append_of_pos hall] at h ⊢
    have hn : n ≤ cs.length := by
      simp only [List.length_take, List.length_append] at h
      omega
    rw [List.takeWhile_eq_self_iff.2 hall, List.take_append_of_le_length hn]
  · have hne : (cs.takeWhile p).length ≠ cs.length := fun hlength =>
      hall (List.takeWhile_eq_self_iff.1 ((List.takeWhile_prefix p).eq_of_length hlength))
    rw [List.takeWhile_append, if_neg hne]

theorem codePoint_of_append {n : Nat} {e : Char} (h : codePoint n (cs ++ z) = some e)
    (hn : n ≤ cs.length) : codePoint n cs = some e := by
  rwa [codePoint_congr (List.take_append_of_le_length hn)] at h

theorem escape_of_append {e : Char} {n : Nat} (h : escape (cs ++ z) = some (e, n))
    (hn : n < cs.length) : escape cs = some (e, n) := by
  cases cs with
  | nil => simp at hn
  | cons c cs =>
      rw [List.cons_append] at h
      rw [List.length_cons] at hn
      -- A character is left behind the escape, and nothing further on matters to any kind of it.
      by_cases hu : c = 'u'
      · subst hu
        obtain ⟨d, hd, heq⟩ :=
          Option.map_eq_some_iff.1 (show (codePoint 4 (cs ++ z)).map (·, 5) = _ from h)
        cases heq
        exact Option.map_eq_some_iff.2 ⟨_, codePoint_of_append hd (by omega), rfl⟩
      by_cases hU : c = 'U'
      · subst hU
        obtain ⟨d, hd, heq⟩ :=
          Option.map_eq_some_iff.1 (show (codePoint 8 (cs ++ z)).map (·, 9) = _ from h)
        cases heq
        exact Option.map_eq_some_iff.2 ⟨_, codePoint_of_append hd (by omega), rfl⟩
      by_cases hx : c = 'x'
      · subst hx
        have hdigits : (cs.takeWhile isHexDigit).take 2 =
            ((cs ++ z).takeWhile isHexDigit).take 2 := by
          apply takeWhile_take_of_append
          simp only [escape, Char.reduceEq, if_false, if_true] at h
          split at h
          · rename_i hnil
            obtain ⟨-, rfl⟩ := Prod.mk.inj (Option.some.inj h)
            simp only [hnil, List.length_nil]
            omega
          · obtain ⟨d, -, heq⟩ := Option.map_eq_some_iff.1 h
            obtain ⟨-, rfl⟩ := Prod.mk.inj heq
            omega
        rw [← h]
        simp only [escape, hdigits, Char.reduceEq, if_false, if_true]
      by_cases hoctal : isOctalDigit c = true
      · have hne : ∀ d : Char, isOctalDigit d = false → c ≠ d := by
          rintro d hd rfl
          exact Bool.false_ne_true (hd.symm.trans hoctal)
        simp only [escape, if_neg hu, if_neg hU, if_neg hx, if_pos hoctal,
          if_neg (hne 'b' (by decide)), if_neg (hne 'f' (by decide)), if_neg (hne 'n' (by decide)),
          if_neg (hne 'r' (by decide)), if_neg (hne 't' (by decide))] at h ⊢
        have hdigits : (cs.takeWhile isOctalDigit).take 2 =
            ((cs ++ z).takeWhile isOctalDigit).take 2 := by
          obtain ⟨d, -, heq⟩ := Option.map_eq_some_iff.1 h
          obtain ⟨-, rfl⟩ := Prod.mk.inj heq
          exact takeWhile_take_of_append (by omega)
        rw [hdigits]
        exact h
      · simp only [escape, if_neg hu, if_neg hU, if_neg hx, if_neg hoctal] at h ⊢
        exact h

theorem exists_escape_of_append (h : escapedQuoted ('\\' :: (cs ++ z)) = some (body, tail ++ z)) :
    ∃ e n inner, escape cs = some (e, n) ∧ e ≠ '\x00' ∧
      escapedQuoted (cs.drop n ++ z) = some (inner, tail ++ z) ∧ body = e :: inner := by
  obtain ⟨e, n, inner, hescape, hnull, hinner, rfl⟩ := exists_of_escapedQuoted_escape h
  have hn : n < cs.length := by
    have hle := length_le_of_escapedQuoted hinner
    simp only [List.length_drop, List.length_append] at hle
    omega
  rw [List.drop_append_of_le_length (Nat.le_of_lt hn)] at hinner
  exact ⟨e, n, inner, escape_of_append hescape hn, hnull, hinner, rfl⟩

theorem cutsShort_escapedQuoted : CutsShort escapedQuoted := by
  intro cs tail z body h
  fun_induction escapedQuoted cs generalizing body with
  | case1 => exact absurd h (shortens_escapedQuoted.ne_some (Nat.le_refl _))
  | case2 =>
      obtain ⟨rfl, rfl⟩ := eq_nil_of_closesAt closesAt_escapedQuoted shortens_escapedQuoted h
      rfl
  | case3 after ih =>
      rw [List.cons_append, List.cons_append, closesAt_escapedQuoted.doubled] at h
      obtain ⟨⟨inner, tail'⟩, hinner, heq⟩ := Option.map_eq_some_iff.1 h
      cases heq
      rw [ih hinner]
      rfl
  | case4 d after hd =>
      rw [List.cons_append, closesAt_escapedQuoted.closed (by simpa using hd)] at h
      obtain ⟨rfl, htail⟩ := Prod.mk.inj (Option.some.inj h)
      rw [(List.append_left_inj z).1 htail]
  | case5 cs hescape hquote =>
      obtain ⟨e, n, inner, hsome, -⟩ := exists_escape_of_append h
      cases hescape.symm.trans hsome
  | case6 cs hquote n hescape =>
      obtain ⟨e, n, inner, hsome, hnull, -⟩ := exists_escape_of_append h
      cases hescape.symm.trans hsome
      exact absurd rfl hnull
  | case7 cs e n hescape hnull hquote ih =>
      obtain ⟨e', n', inner, hsome, -, hinner, rfl⟩ := exists_escape_of_append h
      cases hescape.symm.trans hsome
      rw [ih hinner]
      rfl
  | case8 c rest hquote hescape ih =>
      obtain ⟨inner, hinner, rfl⟩ := (escapedQuoted_takes hquote hescape).exists_of_cons h
      rw [ih hinner]
      rfl

end QueryShape.Token
