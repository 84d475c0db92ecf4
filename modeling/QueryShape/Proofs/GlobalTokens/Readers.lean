import QueryShape.Proofs.LocalNames

/-!
What the parts of a text that tokens are read from become where names are written into. What is
written ends no run of characters, closes no quotation and begins no number, so each part is read as
before and what follows it is the rest of the text with names written into it.
-/

namespace QueryShape

open QueryShape.Unicode

namespace Unicode

theorem isAlphabetic_of_isLetter {c : Char} (h : isLetter c = true) : isAlphabetic c = true := by
  have hset : letterSet.contains c = true → alphabeticSet.contains c = true :=
    CodePointSet.contains_of_liesWithin (by decide +kernel)
      (List.isChain_iff_pairwise.1 (by decide +kernel)) (by decide +kernel)
  unfold isLetter at h
  unfold isAlphabetic
  by_cases hascii : c.toNat < 128
  · rwa [if_pos hascii] at h ⊢
  · rw [if_neg hascii] at h ⊢
    exact hset h

def blankCodes : List Nat :=
  [0x20, 0x9, 0xa, 0xb, 0xc, 0xd, 0x85, 0xa0, 0x1680, 0x2000, 0x2001, 0x2002, 0x2003, 0x2004,
    0x2005, 0x2006, 0x2007, 0x2008, 0x2009, 0x200a, 0x2028, 0x2029, 0x202f, 0x205f, 0x3000]

theorem toNat_mem_blankCodes {c : Char} (h : isBlank c = true) : c.toNat ∈ blankCodes := by
  simp only [isBlank, Bool.or_eq_true, Bool.and_eq_true, beq_iff_eq, decide_eq_true_eq] at h
  simp only [blankCodes, List.mem_cons, List.not_mem_nil, or_false]
  omega

theorem not_isBlank_of_toNat {c : Char} (hlow : 0x20 < c.toNat) (hhigh : c.toNat < 0x80) :
    ¬ isBlank c = true := by
  intro h
  have hmem := toNat_mem_blankCodes h
  simp only [blankCodes, List.mem_cons, List.not_mem_nil, or_false] at hmem
  omega

end Unicode

namespace TempTable

open QueryShape.Token

variable {insertion xs ys cs rest : List Char} {before : Option Char} {c : Char}

theorem endsName_of_isBlank (h : isBlank c = true) : endsName (some c) = true := by
  have hall : ∀ n ∈ blankCodes, endsName (some (Char.ofNat n)) = true := by decide +kernel
  have hc := hall c.toNat (toNat_mem_blankCodes h)
  rwa [Char.ofNat_toNat] at hc

theorem isIdentifierPart_of_startsName (h : startsName (c :: rest) = true) :
    isIdentifierPart c = true := by
  simp only [startsName, Bool.or_eq_true, beq_iff_eq] at h
  unfold isIdentifierPart
  rcases h with h | rfl
  · simp [isAlphabetic_of_isLetter h]
  · decide

/-- What is written after a character. -/
def writtenAfter (insertion : List Char) (before : Option Char) (c : Char)
    (rest : List Char) : List Char :=
  if c = '#' ∧ endsName before = true ∧ startsName rest = true then insertion else []

theorem insertInNames_cons (insertion : List Char) (before : Option Char) (c : Char)
    (rest : List Char) : insertInNames insertion before (c :: rest) =
      c :: (writtenAfter insertion before c rest ++ insertInNames insertion (some c) rest) := by
  unfold writtenAfter
  split
  · rename_i h
    rw [h.1, insertInNames_cons_of_local h.2.1 h.2.2]
  · rename_i h
    rw [insertInNames_cons_of_not_local h, List.nil_append]

theorem writtenAfter_of_ne (h : c ≠ '#') : writtenAfter insertion before c rest = [] :=
  if_neg fun hlocal => h hlocal.1

theorem writtenAfter_inside {b : Char} (hb : isNamePart b = true) :
    writtenAfter insertion (some b) c rest = [] :=
  if_neg fun hlocal => by simp [endsName, hb] at hlocal

theorem writtenAfter_congr {rest' : List Char} (h : startsName rest = startsName rest') :
    writtenAfter insertion before c rest = writtenAfter insertion before c rest' := by
  simp only [writtenAfter, h]

theorem mem_of_mem_writtenAfter {d : Char} (h : d ∈ writtenAfter insertion before c rest) :
    d ∈ insertion := by
  unfold writtenAfter at h
  split at h
  · exact h
  · cases h

theorem insertInNames_cons_of_ne (h : c ≠ '#') : insertInNames insertion before (c :: rest) =
    c :: insertInNames insertion (some c) rest := by
  rw [insertInNames_cons, writtenAfter_of_ne h, List.nil_append]

theorem insertInNames_cons_inside {b : Char} (hb : isNamePart b = true) :
    insertInNames insertion (some b) (c :: rest) = c :: insertInNames insertion (some c) rest := by
  rw [insertInNames_cons, writtenAfter_inside hb, List.nil_append]

theorem exists_of_insertInNames_eq_cons (h : insertInNames insertion before cs = c :: xs) :
    ∃ rest, cs = c :: rest := by
  cases cs with
  | nil => cases h
  | cons d rest =>
      rw [insertInNames_cons] at h
      exact ⟨rest, by rw [(List.cons.inj h).1]⟩

theorem head?_insertInNames (insertion : List Char) (before : Option Char) (cs : List Char) :
    (insertInNames insertion before cs).head? = cs.head? := by
  cases cs with
  | nil => rfl
  | cons c rest => rw [insertInNames_cons]; rfl

theorem insertInNames_append_of_not_mem (h : '#' ∉ xs) :
    insertInNames insertion before (xs ++ ys) =
      xs ++ insertInNames insertion (xs.getLast?.or before) ys := by
  induction xs generalizing before with
  | nil => rfl
  | cons x rest ih =>
      obtain ⟨hx, hrest⟩ := List.ne_and_not_mem_of_not_mem_cons h
      rw [List.cons_append, insertInNames_cons_of_ne (Ne.symm hx), ih hrest, List.getLast?_cons]
      cases rest.getLast? <;> rfl

theorem insertInNames_of_not_mem (h : '#' ∉ xs) : insertInNames insertion before xs = xs := by
  have happend := @insertInNames_append_of_not_mem insertion xs [] before h
  simpa [insertInNames] using happend

theorem take_insertInNames {n : Nat} (h : '#' ∉ cs.take n) :
    (insertInNames insertion before cs).take n = cs.take n := by
  by_cases hn : n ≤ cs.length
  · rw [← List.take_append_drop n cs, insertInNames_append_of_not_mem h,
      List.take_left' (by simp [hn]), List.take_left' (by simp [hn])]
  · rw [insertInNames_of_not_mem]
    rwa [List.take_of_length_le (by omega)] at h

theorem exists_drop_insertInNames {n : Nat} (insertion : List Char) (before : Option Char)
    (h : '#' ∉ cs.take n) : ∃ after,
      (insertInNames insertion before cs).drop n = insertInNames insertion after (cs.drop n) := by
  refine ⟨(cs.take n).getLast?.or before, ?_⟩
  by_cases hn : n ≤ cs.length
  · have happend := @insertInNames_append_of_not_mem insertion _ (cs.drop n) before h
    rw [List.take_append_drop] at happend
    rw [happend, List.drop_left' (by simp [hn])]
  · rw [insertInNames_of_not_mem, List.drop_eq_nil_of_le (by omega)]
    · rfl
    · rwa [List.take_of_length_le (by omega)] at h

theorem isPrefixOf_insertInNames (h : '#' ∉ xs) :
    xs.isPrefixOf (insertInNames insertion before cs) = xs.isPrefixOf cs := by
  induction xs generalizing before cs with
  | nil => simp
  | cons x rest ih =>
      obtain ⟨hx, hrest⟩ := List.ne_and_not_mem_of_not_mem_cons h
      cases cs with
      | nil => rfl
      | cons c cs =>
          rw [insertInNames_cons]
          by_cases hc : x = c
          · rw [writtenAfter_of_ne (hc ▸ Ne.symm hx), List.nil_append, List.isPrefixOf_cons_cons,
              List.isPrefixOf_cons_cons, ih hrest]
          · simp only [List.isPrefixOf_cons_cons, beq_eq_false_iff_ne.2 hc, Bool.false_and]

/-- What is written into names does not end a run of characters of a class, if hashes do not. -/
def ReachesAcross (insertion : List Char) (p : Char → Bool) : Prop :=
  p '#' = true →
    (∀ c ∈ insertion, p c = true) ∧ ∀ c rest, startsName (c :: rest) = true → p c = true

theorem ReachesAcross.all_writtenAfter {p : Char → Bool} (hp : ReachesAcross insertion p)
    (hc : p c = true) : ∀ d ∈ writtenAfter insertion before c rest, p d = true := by
  intro d hd
  by_cases hhash : c = '#'
  · rw [hhash] at hc
    exact (hp hc).1 d (mem_of_mem_writtenAfter hd)
  · rw [writtenAfter_of_ne hhash] at hd
    cases hd

theorem ReachesAcross.writtenAfter_takeWhile {p : Char → Bool} (hp : ReachesAcross insertion p)
    (hc : p c = true) : writtenAfter insertion before c (rest.takeWhile p) =
      writtenAfter insertion before c rest := by
  by_cases hhash : c = '#'
  · rw [hhash] at hc
    apply writtenAfter_congr
    cases rest with
    | nil => rfl
    | cons d rest =>
        by_cases hd : p d = true
        · simp [hd, startsName]
        · rw [Bool.eq_false_iff.2 fun h => hd ((hp hc).2 d rest h)]
          simp [hd, startsName]
  · rw [writtenAfter_of_ne hhash, writtenAfter_of_ne hhash]

theorem takeWhile_insertInNames {p : Char → Bool} (hp : ReachesAcross insertion p) :
    (insertInNames insertion before cs).takeWhile p =
      insertInNames insertion before (cs.takeWhile p) := by
  induction cs generalizing before with
  | nil => rfl
  | cons c rest ih =>
      rw [insertInNames_cons]
      by_cases hc : p c = true
      · rw [List.takeWhile_cons_of_pos hc, List.takeWhile_cons_of_pos hc,
          List.takeWhile_append_of_pos (hp.all_writtenAfter hc), ih, insertInNames_cons,
          hp.writtenAfter_takeWhile hc]
      · rw [List.takeWhile_cons_of_neg hc, List.takeWhile_cons_of_neg hc]
        rfl

theorem exists_dropWhile_insertInNames {p : Char → Bool} (hp : ReachesAcross insertion p)
    (before : Option Char) (cs : List Char) : ∃ after,
      (insertInNames insertion before cs).dropWhile p =
        insertInNames insertion after (cs.dropWhile p) := by
  induction cs generalizing before with
  | nil => exact ⟨before, rfl⟩
  | cons c rest ih =>
      by_cases hc : p c = true
      · obtain ⟨after, heq⟩ := ih (some c)
        refine ⟨after, ?_⟩
        rw [insertInNames_cons, List.dropWhile_cons_of_pos hc, List.dropWhile_cons_of_pos hc,
          List.dropWhile_append_of_pos (hp.all_writtenAfter hc), heq]
      · refine ⟨before, ?_⟩
        rw [insertInNames_cons, List.dropWhile_cons_of_neg hc, List.dropWhile_cons_of_neg hc,
          insertInNames_cons]

theorem not_mem_takeWhile {p : Char → Bool} (h : p c = false) : c ∉ cs.takeWhile p := by
  intro hmem
  rw [List.all_eq_true.1 List.all_takeWhile c hmem] at h
  cases h

theorem takeWhile_insertInNames_of_hash {p : Char → Bool} (h : p '#' = false) :
    (insertInNames insertion before cs).takeWhile p = cs.takeWhile p := by
  rw [takeWhile_insertInNames (by simp [ReachesAcross, h]),
    insertInNames_of_not_mem (not_mem_takeWhile h)]

theorem exists_dropWhile_insertInNames_of_hash {p : Char → Bool} (h : p '#' = false)
    (insertion : List Char) (before : Option Char) (cs : List Char) : ∃ after,
      (insertInNames insertion before cs).dropWhile p =
        insertInNames insertion after (cs.dropWhile p) :=
  exists_dropWhile_insertInNames (by simp [ReachesAcross, h]) before cs

/-- What may be written into names: characters of identifiers that close no quotation. -/
structure IsFiller (insertion : List Char) : Prop where
  identifierParts : ∀ c ∈ insertion, isIdentifierPart c = true
  noDollar : '$' ∉ insertion

theorem IsFiller.not_mem (hfiller : IsFiller insertion) (h : isIdentifierPart c = false) :
    c ∉ insertion := by
  intro hmem
  rw [hfiller.identifierParts c hmem] at h
  cases h

theorem IsFiller.not_mem_writtenAfter {d : Char} (hfiller : IsFiller insertion)
    (h : isIdentifierPart d = false) : d ∉ writtenAfter insertion before c rest :=
  mt mem_of_mem_writtenAfter (hfiller.not_mem h)

theorem startsName_eq_false (h : isIdentifierPart c = false) (rest : List Char) :
    startsName (c :: rest) = false := by
  rw [← Bool.not_eq_true]
  intro hstarts
  rw [isIdentifierPart_of_startsName hstarts] at h
  cases h

variable {body tail : List Char} {q : Char}

/-- A reader takes a character as it is into what it reads. -/
def Takes (reader : List Char → Option (List Char × List Char)) (c : Char) : Prop :=
  ∀ rest, reader (c :: rest) = (reader rest).map fun (body, tail) => (c :: body, tail)

theorem reader_append {reader : List Char → Option (List Char × List Char)}
    (h : ∀ c ∈ xs, Takes reader c) (ys : List Char) :
    reader (xs ++ ys) = (reader ys).map fun (body, tail) => (xs ++ body, tail) := by
  induction xs with
  | nil => simp
  | cons x rest ih =>
      obtain ⟨hx, hrest⟩ := List.forall_mem_cons.1 h
      rw [List.cons_append, hx, ih hrest]
      simp [Function.comp_def]

theorem quoted_takes (h : c ≠ q) : Takes (quoted q) c := by
  intro rest
  rw [quoted.eq_def]
  simp only [if_neg h]

theorem controlQuoted_takes (hquote : c ≠ '\'') (hescape : c ≠ '\\') :
    Takes controlQuoted c := by
  intro rest
  rw [controlQuoted.eq_def]
  simp only [if_neg hquote, if_neg hescape]

theorem escapedQuoted_takes (hquote : c ≠ '\'') (hescape : c ≠ '\\') :
    Takes escapedQuoted c := by
  intro rest
  rw [escapedQuoted.eq_def]
  simp only [if_neg hquote, if_neg hescape]

theorem upTo_takes {m : Char} {closing : List Char} (h : c ≠ m) :
    Takes (upTo (m :: closing)) c := by
  intro rest
  rw [upTo, if_neg (by simp [List.isPrefixOf_cons_cons, Ne.symm h])]

theorem Takes.exists_of_cons {reader : List Char → Option (List Char × List Char)}
    (htakes : Takes reader c) (h : reader (c :: rest) = some (body, tail)) :
    ∃ inner, reader rest = some (inner, tail) ∧ body = c :: inner := by
  obtain ⟨⟨inner, tail'⟩, hinner, heq⟩ := Option.map_eq_some_iff.1 ((htakes rest).symm.trans h)
  cases heq
  exact ⟨inner, hinner, rfl⟩

/-- A reader ends behind a mark, unless the mark is doubled, which it reads as one. -/
structure ClosesAt (reader : List Char → Option (List Char × List Char)) (q : Char) : Prop where
  doubled : ∀ rest,
    reader (q :: q :: rest) = (reader rest).map fun (body, tail) => (q :: body, tail)
  closed : ∀ {rest}, rest.head? ≠ some q → reader (q :: rest) = some ([], rest)

theorem closesAt_quoted (q : Char) : ClosesAt (quoted q) q where
  doubled rest := by simp [quoted]
  closed {rest} hrest := by
    cases rest with
    | nil => simp [quoted]
    | cons d rest =>
        have hd : d ≠ q := by simpa using hrest
        simp [quoted, hd]

theorem closesAt_controlQuoted : ClosesAt controlQuoted '\'' where
  doubled rest := by simp [controlQuoted]
  closed {rest} hrest := by
    cases rest with
    | nil => rfl
    | cons d rest =>
        have hd : d ≠ '\'' := by simpa using hrest
        simp [controlQuoted, hd]

theorem closesAt_escapedQuoted : ClosesAt escapedQuoted '\'' where
  doubled rest := by
    rw [escapedQuoted.eq_def]
    simp
  closed {rest} hrest := by
    rw [escapedQuoted.eq_def]
    cases rest with
    | nil => simp
    | cons d rest =>
        have hd : d ≠ '\'' := by simpa using hrest
        simp [hd]

namespace ClosesAt

variable {reader : List Char → Option (List Char × List Char)}

theorem of_cons (hreader : ClosesAt reader q) (h : reader (q :: rest) = some (body, tail)) :
    (body = [] ∧ tail = rest) ∨
      ∃ after inner, rest = q :: after ∧ reader after = some (inner, tail) ∧ body = q :: inner := by
  by_cases hrest : rest.head? = some q
  · obtain ⟨after, rfl⟩ := List.head?_eq_some_iff.1 hrest
    rw [hreader.doubled] at h
    obtain ⟨⟨inner, tail'⟩, hinner, heq⟩ := Option.map_eq_some_iff.1 h
    cases heq
    exact .inr ⟨after, inner, rfl, hinner, rfl⟩
  · rw [hreader.closed hrest] at h
    cases h
    exact .inl ⟨rfl, rfl⟩

theorem insertInNames_doubled (hreader : ClosesAt reader q) (hq : q ≠ '#') :
    reader (insertInNames insertion before (q :: q :: rest)) =
      (reader (insertInNames insertion (some q) rest)).map
        fun (body, tail) => (q :: body, tail) := by
  rw [insertInNames_cons_of_ne hq, insertInNames_cons_of_ne hq, hreader.doubled]

theorem insertInNames_closed (hreader : ClosesAt reader q) (hq : q ≠ '#')
    (hrest : rest.head? ≠ some q) :
    reader (insertInNames insertion before (q :: rest)) =
      some ([], insertInNames insertion (some q) rest) := by
  rw [insertInNames_cons_of_ne hq, hreader.closed (by rwa [head?_insertInNames])]

end ClosesAt

theorem startsName_of_quoted (hq : isIdentifierPart q = false)
    (h : quoted q cs = some (body, tail)) : startsName body = startsName cs := by
  cases cs with
  | nil => cases h
  | cons c rest =>
      by_cases hc : c = q
      · subst hc
        rw [startsName_eq_false hq]
        obtain ⟨rfl, -⟩ | ⟨after, inner, -, -, rfl⟩ := (closesAt_quoted c).of_cons h
        · rfl
        · exact startsName_eq_false hq inner
      · obtain ⟨inner, -, rfl⟩ := (quoted_takes hc).exists_of_cons h
        rfl

theorem exists_quoted_insertInNames (hfiller : IsFiller insertion)
    (hq : isIdentifierPart q = false) (h : quoted q cs = some (body, tail))
    (before : Option Char) : ∃ after, quoted q (insertInNames insertion before cs) =
      some (insertInNames insertion before body, insertInNames insertion after tail) := by
  have hhash : q ≠ '#' := by
    rintro rfl
    cases hq
  fun_induction quoted q cs generalizing before body with
  | case1 => cases h
  | case2 =>
      cases h
      exact ⟨some q, (closesAt_quoted q).insertInNames_closed hhash (by simp)⟩
  | case3 after ih =>
      obtain ⟨⟨inner, tail'⟩, hinner, heq⟩ := Option.map_eq_some_iff.1 h
      cases heq
      obtain ⟨b, hb⟩ := ih hinner (some q)
      refine ⟨b, ?_⟩
      rw [(closesAt_quoted q).insertInNames_doubled hhash, hb, insertInNames_cons_of_ne hhash]
      rfl
  | case4 d after hd =>
      cases h
      exact ⟨some q, (closesAt_quoted q).insertInNames_closed hhash (by simpa using hd)⟩
  | case5 c rest hc ih =>
      obtain ⟨⟨inner, tail'⟩, hinner, heq⟩ := Option.map_eq_some_iff.1 h
      cases heq
      obtain ⟨b, hb⟩ := ih hinner (some c)
      have hwritten : ∀ d ∈ writtenAfter insertion before c rest, Takes (quoted q) d :=
        fun d hd => quoted_takes fun heq => hfiller.not_mem_writtenAfter hq (heq ▸ hd)
      refine ⟨b, ?_⟩
      rw [insertInNames_cons, quoted_takes hc, reader_append hwritten, hb, insertInNames_cons,
        writtenAfter_congr (startsName_of_quoted hq hinner)]
      rfl

theorem exists_controlQuoted_insertInNames (hfiller : IsFiller insertion)
    (h : controlQuoted cs = some (body, tail)) (before : Option Char) : ∃ body' after,
      controlQuoted (insertInNames insertion before cs) =
        some (body', insertInNames insertion after tail) := by
  have htakes {c : Char} {before : Option Char} {rest : List Char} :
      ∀ d ∈ writtenAfter insertion before c rest, Takes controlQuoted d := by
    intro d hd
    apply controlQuoted_takes
    · rintro rfl
      exact hfiller.not_mem_writtenAfter (by decide) hd
    · rintro rfl
      exact hfiller.not_mem_writtenAfter (by decide) hd
  fun_induction controlQuoted cs generalizing before body with
  | case1 => cases h
  | case2 =>
      cases h
      exact ⟨[], _, closesAt_controlQuoted.insertInNames_closed (by decide) (by simp)⟩
  | case3 after ih =>
      obtain ⟨⟨inner, tail'⟩, hinner, heq⟩ := Option.map_eq_some_iff.1 h
      cases heq
      obtain ⟨body', b, hb⟩ := ih hinner (some '\'')
      refine ⟨'\'' :: body', b, ?_⟩
      rw [closesAt_controlQuoted.insertInNames_doubled (by decide), hb]
      rfl
  | case4 d after hd =>
      cases h
      exact ⟨[], _, closesAt_controlQuoted.insertInNames_closed (by decide) (by simpa using hd)⟩
  | case5 => cases h
  | case6 d after hquote ih =>
      obtain ⟨⟨inner, tail'⟩, hinner, heq⟩ := Option.map_eq_some_iff.1 h
      cases heq
      obtain ⟨body', b, hb⟩ := ih hinner (some d)
      refine ⟨controlChar d :: (writtenAfter insertion (some '\\') d after ++ body'), b, ?_⟩
      rw [insertInNames_cons_of_ne (by decide), insertInNames_cons, controlQuoted]
      simp [reader_append htakes, hb]
  | case7 c rest hquote hescape ih =>
      obtain ⟨⟨inner, tail'⟩, hinner, heq⟩ := Option.map_eq_some_iff.1 h
      cases heq
      obtain ⟨body', b, hb⟩ := ih hinner (some c)
      refine ⟨c :: (writtenAfter insertion before c rest ++ body'), b, ?_⟩
      rw [insertInNames_cons, controlQuoted_takes hquote hescape, reader_append htakes, hb]
      rfl

theorem codePoint_congr {n : Nat} {cs' : List Char} (h : cs.take n = cs'.take n) :
    codePoint n cs = codePoint n cs' := by
  unfold codePoint
  rw [h]

theorem not_mem_take_of_codePoint {n : Nat} {e : Char} (h : codePoint n cs = some e) :
    '#' ∉ cs.take n := by
  simp only [codePoint, Option.ite_none_right_eq_some] at h
  have hdigits := List.all_eq_true.1 h.1.2.1
  have hnot : '#' ∉ if (cs.take n).head? = some '+' then (cs.take n).tail else cs.take n :=
    fun hmem => absurd (hdigits '#' hmem) (by decide)
  intro hmem
  apply hnot
  split
  · rename_i hhead
    obtain ⟨rest, hcs⟩ := List.head?_eq_some_iff.1 hhead
    rw [hcs] at hmem ⊢
    simpa using hmem
  · exact hmem

theorem not_mem_take_of_takeWhile {p : Char → Bool} (hp : p '#' = false) (n : Nat) :
    '#' ∉ cs.take ((cs.takeWhile p).take n).length := by
  have hprefix : (cs.takeWhile p).take n <+: cs :=
    (List.take_prefix _ _).trans (List.takeWhile_prefix _)
  rw [← List.prefix_iff_eq_take.1 hprefix]
  exact fun hmem => not_mem_takeWhile hp (List.mem_of_mem_take hmem)

theorem codePoint_insertInNames {e : Char} {m n : Nat}
    (h : (codePoint m cs).map (·, m + 1) = some (e, n)) : n = m + 1 ∧ '#' ∉ cs.take m ∧
      ∀ before, (codePoint m (insertInNames insertion before cs)).map (·, m + 1) =
        some (e, m + 1) := by
  obtain ⟨d, hd, heq⟩ := Option.map_eq_some_iff.1 h
  cases heq
  have htake := not_mem_take_of_codePoint hd
  refine ⟨rfl, htake, fun before => ?_⟩
  rw [codePoint_congr (take_insertInNames htake), hd]
  rfl

/-- An escape takes no hashes after its first character, and does not depend on what is written into
names behind it. -/
theorem escape_insertInNames {e : Char} {n : Nat}
    (h : escape (c :: rest) = some (e, n)) : ∃ k, n = k + 1 ∧ '#' ∉ rest.take k ∧
      ∀ before, escape (c :: insertInNames insertion before rest) = some (e, k + 1) := by
  by_cases hu : c = 'u'
  · subst hu
    exact ⟨4, codePoint_insertInNames h⟩
  by_cases hU : c = 'U'
  · subst hU
    exact ⟨8, codePoint_insertInNames h⟩
  by_cases hx : c = 'x'
  · subst hx
    have hhash : isHexDigit '#' = false := by decide
    have hsame (before : Option Char) :
        escape ('x' :: insertInNames insertion before rest) = escape ('x' :: rest) := by
      simp [escape, takeWhile_insertInNames_of_hash hhash]
    simp only [hsame, h]
    simp only [escape, Char.reduceEq, if_false, if_true] at h
    split at h
    · cases h
      exact ⟨0, rfl, by simp, fun _ => rfl⟩
    · obtain ⟨d, -, heq⟩ := Option.map_eq_some_iff.1 h
      cases heq
      exact ⟨_, rfl, not_mem_take_of_takeWhile hhash 2, fun _ => rfl⟩
  have hhash : isOctalDigit '#' = false := by decide
  have hsame (before : Option Char) :
      escape (c :: insertInNames insertion before rest) = escape (c :: rest) := by
    simp only [escape, takeWhile_insertInNames_of_hash hhash, hu, hU, hx, if_false]
  have hn : n = 1 ∨ n = ((rest.takeWhile isOctalDigit).take 2).length + 1 := by
    simp only [escape, hu, hU, hx, if_false] at h
    grind only [Option.map_eq_some_iff]
  simp only [hsame, h]
  rcases hn with rfl | rfl
  · exact ⟨0, rfl, by simp, fun _ => rfl⟩
  · exact ⟨_, rfl, not_mem_take_of_takeWhile hhash 2, fun _ => rfl⟩

theorem exists_escape_insertInNames {e : Char} {n : Nat} (h : escape cs = some (e, n))
    (insertion : List Char) (before : Option Char) : ∃ written after,
      (∀ d ∈ written, d ∈ insertion) ∧
        escape (insertInNames insertion before cs) = some (e, n) ∧
        (insertInNames insertion before cs).drop n =
          written ++ insertInNames insertion after (cs.drop n) := by
  cases cs with
  | nil => cases h
  | cons c rest =>
      rw [insertInNames_cons]
      by_cases hc : c = '#'
      · subst hc
        cases h
        exact ⟨_, some '#', fun d => mem_of_mem_writtenAfter, rfl, rfl⟩
      · obtain ⟨k, rfl, hk, hsame⟩ := escape_insertInNames h
        obtain ⟨after, hdrop⟩ := exists_drop_insertInNames insertion (some c) hk
        rw [writtenAfter_of_ne hc, List.nil_append]
        exact ⟨[], after, List.forall_mem_nil _, hsame (some c), hdrop⟩

theorem exists_escapedQuoted_insertInNames (hfiller : IsFiller insertion)
    (h : escapedQuoted cs = some (body, tail)) (before : Option Char) : ∃ body' after,
      escapedQuoted (insertInNames insertion before cs) =
        some (body', insertInNames insertion after tail) := by
  have htakes : ∀ d ∈ insertion, Takes escapedQuoted d := by
    intro d hd
    apply escapedQuoted_takes
    · rintro rfl
      exact hfiller.not_mem (by decide) hd
    · rintro rfl
      exact hfiller.not_mem (by decide) hd
  fun_induction escapedQuoted cs generalizing before body with
  | case1 => cases h
  | case2 =>
      cases h
      exact ⟨[], _, closesAt_escapedQuoted.insertInNames_closed (by decide) (by simp)⟩
  | case3 after ih =>
      obtain ⟨⟨inner, tail'⟩, hinner, heq⟩ := Option.map_eq_some_iff.1 h
      cases heq
      obtain ⟨body', b, hb⟩ := ih hinner (some '\'')
      refine ⟨'\'' :: body', b, ?_⟩
      rw [closesAt_escapedQuoted.insertInNames_doubled (by decide), hb]
      rfl
  | case4 d after hd =>
      cases h
      exact ⟨[], _, closesAt_escapedQuoted.insertInNames_closed (by decide) (by simpa using hd)⟩
  | case5 => cases h
  | case6 => cases h
  | case7 rest e n hescape hnull _ ih =>
      obtain ⟨⟨inner, tail'⟩, hinner, heq⟩ := Option.map_eq_some_iff.1 h
      cases heq
      -- An escape can end in the hash of a name. What is inserted then stands behind the escape.
      obtain ⟨written, after, hwritten, hsame, hdrop⟩ :=
        exists_escape_insertInNames hescape insertion (some '\\')
      obtain ⟨body', b, hb⟩ := ih hinner after
      refine ⟨e :: (written ++ body'), b, ?_⟩
      rw [insertInNames_cons_of_ne (by decide), escapedQuoted.eq_def]
      have htail := reader_append (fun d hd => htakes d (hwritten d hd))
        (insertInNames insertion after (rest.drop n))
      simp [hsame, hnull, hdrop, htail, hb]
  | case8 c rest hquote hescape ih =>
      obtain ⟨⟨inner, tail'⟩, hinner, heq⟩ := Option.map_eq_some_iff.1 h
      cases heq
      obtain ⟨body', b, hb⟩ := ih hinner (some c)
      refine ⟨c :: (writtenAfter insertion before c rest ++ body'), b, ?_⟩
      rw [insertInNames_cons, escapedQuoted_takes hquote hescape,
        reader_append fun d hd => htakes d (mem_of_mem_writtenAfter hd), hb]
      rfl

theorem exists_upTo_insertInNames {m : Char} {closing : List Char} (hm : m ∉ insertion)
    (hclosing : '#' ∉ m :: closing) (h : upTo (m :: closing) cs = some (body, tail))
    (before : Option Char) : ∃ body', upTo (m :: closing) (insertInNames insertion before cs) =
      some (body', insertInNames insertion (m :: closing).getLast? tail) := by
  have htakes : ∀ d ∈ insertion, Takes (upTo (m :: closing)) d := by
    intro d hd
    apply upTo_takes
    rintro rfl
    exact hm hd
  fun_induction upTo (m :: closing) cs generalizing before body with
  | case1 hnil => cases hnil
  | case2 => cases h
  | case3 c rest hclosed =>
      cases h
      obtain ⟨tail, htail⟩ := List.isPrefixOf_iff_prefix.1 hclosed
      refine ⟨[], ?_⟩
      rw [← htail, insertInNames_append_of_not_mem hclosing, List.getLast?_cons, Option.some_or,
        List.cons_append, upTo, if_pos (by simp)]
      simp
  | case4 c rest hopen ih =>
      obtain ⟨⟨inner, tail'⟩, hinner, heq⟩ := Option.map_eq_some_iff.1 h
      cases heq
      obtain ⟨body', hb⟩ := ih hinner (some c)
      refine ⟨c :: (writtenAfter insertion before c rest ++ body'), ?_⟩
      have hopen' := @isPrefixOf_insertInNames insertion _ (c :: rest) before hclosing
      rw [Bool.eq_false_iff.2 hopen, insertInNames_cons] at hopen'
      rw [insertInNames_cons, upTo, if_neg (by simp [hopen']),
        reader_append fun d hd => htakes d (mem_of_mem_writtenAfter hd), hb]
      rfl

theorem exists_exponent_insertInNames (insertion : List Char) (before : Option Char)
    (cs : List Char) : ∃ after, exponent (insertInNames insertion before cs) =
      ((exponent cs).1, insertInNames insertion after (exponent cs).2) := by
  cases cs with
  | nil => exact ⟨before, rfl⟩
  | cons e rest =>
      by_cases he : e = 'e' ∨ e = 'E'
      · have hne : e ≠ '#' := by
          rintro rfl
          simp at he
        have hsign : ((insertInNames insertion (some e) rest).take 1) = rest.take 1 := by
          cases rest with
          | nil => rfl
          | cons d rest => simp [insertInNames_cons]
        have htake : '#' ∉ rest.take
            ((rest.take 1).filter fun c => c == '+' || c == '-').length := by
          cases rest with
          | nil => simp
          | cons d rest =>
              by_cases hd : d = '+' ∨ d = '-'
              · rcases hd with rfl | rfl <;> simp
              · simp [hd]
        obtain ⟨b, hdrop⟩ := exists_drop_insertInNames insertion (some e) htake
        have hdigit : Char.isDigit '#' = false := by decide
        obtain ⟨after, hafter⟩ := exists_dropWhile_insertInNames_of_hash hdigit insertion b
          (rest.drop ((rest.take 1).filter fun c => c == '+' || c == '-').length)
        rw [insertInNames_cons_of_ne hne]
        simp only [exponent, hsign, hdrop, takeWhile_insertInNames_of_hash hdigit, hafter]
        split
        · exact ⟨after, rfl⟩
        · exact ⟨before, by rw [insertInNames_cons_of_ne hne]⟩
      · refine ⟨before, ?_⟩
        rw [insertInNames_cons]
        simp [exponent, he, insertInNames_cons]

theorem numberAfter_of_long {mantissa power : List Char}
    (h : exponent cs = (power, 'L' :: rest)) :
    numberAfter mantissa cs = (.number (String.ofList (mantissa ++ power)) true, rest) := by
  unfold numberAfter
  rw [h]
  rfl

theorem numberAfter_of_not_long {mantissa power : List Char} (h : exponent cs = (power, tail))
    (hlong : ∀ rest, tail ≠ 'L' :: rest) :
    numberAfter mantissa cs = (.number (String.ofList (mantissa ++ power)) false, tail) := by
  unfold numberAfter
  rw [h]
  dsimp only
  split
  · rename_i rest
    exact absurd rfl (hlong rest)
  · rfl

theorem exists_numberAfter_insertInNames (insertion : List Char) (before : Option Char)
    (mantissa cs : List Char) : ∃ after,
      numberAfter mantissa (insertInNames insertion before cs) =
        ((numberAfter mantissa cs).1,
          insertInNames insertion after (numberAfter mantissa cs).2) := by
  obtain ⟨b, hexponent⟩ := exists_exponent_insertInNames insertion before cs
  cases hcs : exponent cs with
  | mk power tail =>
      rw [hcs] at hexponent
      by_cases hlong : ∃ rest, tail = 'L' :: rest
      · obtain ⟨rest, rfl⟩ := hlong
        dsimp only at hexponent
        rw [insertInNames_cons_of_ne (by decide)] at hexponent
        rw [numberAfter_of_long hexponent, numberAfter_of_long hcs]
        exact ⟨some 'L', rfl⟩
      · have hshort : ∀ rest, tail ≠ 'L' :: rest := fun rest heq => hlong ⟨rest, heq⟩
        have hshort' : ∀ rest, insertInNames insertion b tail ≠ 'L' :: rest := fun rest heq =>
          hlong (exists_of_insertInNames_eq_cons heq)
        rw [numberAfter_of_not_long hexponent hshort', numberAfter_of_not_long hcs hshort]
        exact ⟨b, rfl⟩

theorem numeral_of_hex (h : cs.dropWhile Char.isDigit = 'x' :: rest) : numeral cs =
    if cs.takeWhile Char.isDigit = ['0'] then
      (.binary (String.ofList (rest.takeWhile isHexDigit)), rest.dropWhile isHexDigit)
    else
      (.number (String.ofList (cs.takeWhile Char.isDigit)) false, 'x' :: rest) := by
  unfold numeral
  rw [h]
  rfl

theorem numeral_of_point (h : cs.dropWhile Char.isDigit = '.' :: rest) : numeral cs =
    if cs.takeWhile Char.isDigit = [] ∧ rest.takeWhile Char.isDigit = [] then
      (.period, rest)
    else
      numberAfter (cs.takeWhile Char.isDigit ++ '.' :: rest.takeWhile Char.isDigit)
        (rest.dropWhile Char.isDigit) := by
  unfold numeral
  rw [h]
  rfl

theorem numeral_of_whole (hhex : ∀ rest, cs.dropWhile Char.isDigit ≠ 'x' :: rest)
    (hpoint : ∀ rest, cs.dropWhile Char.isDigit ≠ '.' :: rest) : numeral cs =
      numberAfter (cs.takeWhile Char.isDigit) (cs.dropWhile Char.isDigit) := by
  unfold numeral
  dsimp only
  split
  · rename_i rest heq
    exact absurd heq (hhex rest)
  · rename_i rest heq
    exact absurd heq (hpoint rest)
  · rfl

theorem exists_numeral_insertInNames (insertion : List Char) (before : Option Char)
    (cs : List Char) : ∃ after, numeral (insertInNames insertion before cs) =
      ((numeral cs).1, insertInNames insertion after (numeral cs).2) := by
  have hdigit : Char.isDigit '#' = false := by decide
  have hhexDigit : isHexDigit '#' = false := by decide
  obtain ⟨b, hdrop⟩ := exists_dropWhile_insertInNames_of_hash hdigit insertion before cs
  by_cases hhex : ∃ rest, cs.dropWhile Char.isDigit = 'x' :: rest
  · obtain ⟨rest, hrest⟩ := hhex
    rw [hrest, insertInNames_cons_of_ne (by decide)] at hdrop
    obtain ⟨after, hafter⟩ :=
      exists_dropWhile_insertInNames_of_hash hhexDigit insertion (some 'x') rest
    rw [numeral_of_hex hdrop, numeral_of_hex hrest, takeWhile_insertInNames_of_hash hdigit,
      takeWhile_insertInNames_of_hash hhexDigit, hafter]
    split
    · exact ⟨after, rfl⟩
    · exact ⟨b, by rw [insertInNames_cons_of_ne (by decide)]⟩
  by_cases hpoint : ∃ rest, cs.dropWhile Char.isDigit = '.' :: rest
  · obtain ⟨rest, hrest⟩ := hpoint
    rw [hrest, insertInNames_cons_of_ne (by decide)] at hdrop
    obtain ⟨after, hafter⟩ :=
      exists_dropWhile_insertInNames_of_hash hdigit insertion (some '.') rest
    rw [numeral_of_point hdrop, numeral_of_point hrest, takeWhile_insertInNames_of_hash hdigit,
      takeWhile_insertInNames_of_hash hdigit, hafter]
    split
    · exact ⟨some '.', rfl⟩
    · exact exists_numberAfter_insertInNames insertion after _ _
  · rw [numeral_of_whole, numeral_of_whole, takeWhile_insertInNames_of_hash hdigit, hdrop]
    · exact exists_numberAfter_insertInNames insertion b _ _
    · exact fun rest heq => hhex ⟨rest, heq⟩
    · exact fun rest heq => hpoint ⟨rest, heq⟩
    · exact fun rest heq => hhex (exists_of_insertInNames_eq_cons (hdrop ▸ heq))
    · exact fun rest heq => hpoint (exists_of_insertInNames_eq_cons (hdrop ▸ heq))

end TempTable

end QueryShape
