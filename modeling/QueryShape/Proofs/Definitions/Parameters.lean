import QueryShape.Proofs.CreatedTables
import QueryShape.Proofs.DefaultText
import QueryShape.Proofs.Definitions.Forms
import QueryShape.Proofs.GlobalNames

namespace QueryShape

open QueryShape.Text
open QueryShape.Unicode

theorem Text.upperChar_of_toLower {c d : Char} (h : c.toLower = d.toLower)
    (hd : d.isUpper = true) : upperChar c = [d] := by
  have hall : ∀ n < 128, (Char.ofNat n).toLower.isLower = true →
      (Char.ofNat n).toUpper.isUpper = true ∧
        (Char.ofNat n).toUpper.toLower = (Char.ofNat n).toLower := by
    decide +kernel
  have hlower (e : Char) := toNat_toLower e
  rw [isUpper_iff] at hd
  have hdlower : d.toLower.toNat = d.toNat + 32 := by rw [hlower, if_pos hd]
  have hcode : c.toNat < 128 := by
    have hc := hlower c
    rw [h, hdlower] at hc
    split at hc <;> omega
  have hupper := hall c.toNat hcode (by rw [Char.ofNat_toNat, h, isLower_iff, hdlower]; omega)
  rw [Char.ofNat_toNat, isUpper_iff] at hupper
  have hcupper : c.toUpper.toLower.toNat = c.toUpper.toNat + 32 := by
    rw [hlower, if_pos hupper.1]
  rw [hupper.2, h, hdlower] at hcupper
  have heq : c.toUpper = d := Char.toNat_inj.1 (by omega)
  rw [upperChar, if_pos hcode, heq]

theorem Text.upper_of_sameIgnoringCase {s text : String} (h : sameIgnoringCase s text = true)
    (htext : text.toList.all Char.isUpper = true) : upper s = text := by
  have hchars : ∀ {cs ds : List Char}, cs.map Char.toLower = ds.map Char.toLower →
      (∀ d ∈ ds, d.isUpper = true) → cs.flatMap upperChar = ds := by
    intro cs
    induction cs with
    | nil =>
        intro ds heq _
        rw [List.map_nil, eq_comm, List.map_eq_nil_iff] at heq
        rw [heq, List.flatMap_nil]
    | cons c cs ih =>
        intro ds heq hds
        cases ds with
        | nil => cases heq
        | cons d ds =>
            obtain ⟨hd, hrest⟩ := List.forall_mem_cons.1 hds
            obtain ⟨hfirst, heq⟩ := List.cons.inj heq
            rw [List.flatMap_cons, upperChar_of_toLower hfirst hd, ih heq hrest,
              List.singleton_append]
  rw [upper, hchars (sameIgnoringCase_iff.1 h) (List.all_eq_true.1 htext), String.ofList_toList]

namespace Word

variable {w : Word} {text other : String}

theorem upper_of_isKeyword (h : w.isKeyword text = true) : upper w.value = text := by
  rw [isKeyword, Bool.and_eq_true] at h
  exact eq_of_beq h.2

theorem upper_of_reads (h : w.reads text = true) (htext : text.toList.all Char.isUpper = true) :
    upper w.value = text :=
  upper_of_sameIgnoringCase h htext

theorem isKeyword_eq_false (h : upper w.value = text) (hne : text ≠ other) :
    w.isKeyword other = false := by
  rw [← Bool.not_eq_true]
  exact fun hother => hne (h.symm.trans (upper_of_isKeyword hother))

theorem reads_eq_false (h : upper w.value = text) (hother : other.toList.all Char.isUpper = true)
    (hne : text ≠ other) : w.reads other = false := by
  rw [← Bool.not_eq_true]
  exact fun hreads => hne (h.symm.trans (upper_of_reads hreads hother))

end Word

namespace ProcedureHeader

open QueryShape.TempTable
open QueryShape.VariableScan (depthAfter)

variable {q r : Token → Bool} {t : Token} {ts rest : List Token} {depth : Nat}
  {p : HeaderParameter}

theorem afterBlanks_replicate (n : Nat) (ts : List Token) :
    afterBlanks (List.replicate n .blank ++ ts) = afterBlanks ts := by
  induction n with
  | zero => rfl
  | succ n ih => exact ih

theorem afterBlanks_spaced (ht : t.isBlank = false) (n : Nat) (ts : List Token) :
    afterBlanks (spaced t n ++ ts) = spaced t n ++ ts :=
  afterBlanks_cons_of_not_isBlank ht

theorem take?_spaced (q : Token → Bool) (t : Token) (n : Nat) (ts : List Token) :
    take? q (spaced t n ++ ts) = if q t then some (afterBlanks ts) else none := by
  rw [← afterBlanks_replicate n ts]
  rfl

/-- The first of the tokens, if there is one, satisfies `q`. -/
def StartsWith (q : Token → Bool) (ts : List Token) : Prop :=
  ∀ t ∈ ts.head?, q t = true

theorem startsWith_cons_iff : StartsWith q (t :: ts) ↔ q t = true := by
  simp [StartsWith]

namespace StartsWith

theorem mono (h : StartsWith q ts) (hq : ∀ t, q t = true → r t = true) : StartsWith r ts :=
  fun t ht => hq t (h t ht)

theorem afterBlanks_eq (h : StartsWith (fun t => !t.isBlank) ts) : afterBlanks ts = ts := by
  cases ts with
  | nil => rfl
  | cons t ts =>
      have ht : t.isBlank = false := by simpa using startsWith_cons_iff.1 h
      exact afterBlanks_cons_of_not_isBlank ht

theorem take?_eq_none (h : StartsWith q ts) (hq : ∀ t, q t = true → r t = false) :
    take? r ts = none := by
  cases ts with
  | nil => rfl
  | cons t ts => rw [take?, if_neg (by simp [hq t (startsWith_cons_iff.1 h)])]

end StartsWith

/-- Whether a name ends in front of a token. -/
def endsName (t : Token) : Bool :=
  !t.isBlank && t != .period

/-- Whether a type ends in front of a token. -/
def endsType (t : Token) : Bool :=
  endsName t && t != .openParen

theorem endsName_of_endsType (ht : endsType t = true) : endsName t = true :=
  (Bool.and_eq_true_iff.1 ht).1

theorem take?_period (h : StartsWith endsName ts) : take? (· == .period) ts = none := by
  refine h.take?_eq_none fun t ht => ?_
  simpa using (Bool.and_eq_true_iff.1 ht).2

theorem WrittenWord.tokens_append (w : WrittenWord) (ts : List Token) :
    w.tokens ++ ts = .word w.word :: (List.replicate w.blanks .blank ++ ts) :=
  rfl

theorem afterBlanks_word (w : WrittenWord) (ts : List Token) :
    afterBlanks (w.tokens ++ ts) = w.tokens ++ ts :=
  afterBlanks_spaced rfl _ ts

theorem afterBlanks_of_endsName (h : StartsWith endsName ts) : afterBlanks ts = ts :=
  (h.mono fun _ ht => (Bool.and_eq_true_iff.1 ht).1).afterBlanks_eq

theorem objectName?_tokens (name : WrittenName) (hrest : StartsWith endsName (afterBlanks rest)) :
    ∃ after, objectName? (name.tokens ++ rest) = some (name.object, after) ∧
      afterBlanks after = afterBlanks rest := by
  cases name with
  | plain name =>
      refine ⟨_, ?_, afterBlanks_replicate name.blanks rest⟩
      rw [WrittenName.tokens, WrittenWord.tokens_append, objectName?, afterBlanks_replicate,
        take?_period hrest]
      rfl
  | qualified schema blanks name =>
      refine ⟨_, ?_, afterBlanks_replicate name.blanks rest⟩
      rw [WrittenName.tokens, List.append_assoc, List.append_assoc, WrittenWord.tokens_append,
        objectName?, afterBlanks_replicate, afterBlanks_spaced rfl, take?_spaced,
        if_pos (beq_self_eq_true _), afterBlanks_word]
      rfl

theorem typePart?_word {w : WrittenWord} (h : endsClause w.word = false) (ts : List Token) :
    typePart? (w.tokens ++ ts) =
      some (w.word.value, List.replicate w.blanks .blank ++ ts) := by
  rw [WrittenWord.tokens_append, typePart?, h]
  rfl

theorem typeName?_tokens {name : WrittenName} (h : ∀ w ∈ name.words, endsClause w = false)
    (hrest : StartsWith endsName rest) :
    ∃ after, typeName? (name.tokens ++ rest) = some (name.typeText, after) ∧
      afterBlanks after = rest := by
  have hbehind (w : WrittenWord) : afterBlanks (List.replicate w.blanks .blank ++ rest) = rest := by
    rw [afterBlanks_replicate, afterBlanks_of_endsName hrest]
  cases name with
  | plain name =>
      refine ⟨_, ?_, afterBlanks_of_endsName hrest⟩
      rw [WrittenName.tokens, typeName?, typePart?_word (h _ List.mem_cons_self)]
      dsimp only
      rw [hbehind, take?_period hrest]
      rfl
  | qualified schema blanks name =>
      obtain ⟨hschema, hname⟩ := List.forall_mem_cons.1 h
      refine ⟨_, ?_, hbehind name⟩
      rw [WrittenName.tokens, List.append_assoc, List.append_assoc, typeName?,
        typePart?_word hschema]
      dsimp only
      rw [afterBlanks_replicate, afterBlanks_spaced rfl, take?_spaced,
        if_pos (beq_self_eq_true _), afterBlanks_word]
      dsimp only
      rw [typePart?_word (hname _ List.mem_cons_self)]
      rfl

theorem isBalanced_cons_iff {barred : Token → Bool} : isBalanced barred depth (t :: ts) = true ↔
    ¬ (depth = 0 ∧ (t = .closeParen ∨ barred t = true)) ∧
      isBalanced barred (depthAfter depth t) ts = true := by
  rw [isBalanced, Bool.and_eq_true, Bool.not_eq_true', ← Bool.not_eq_true]
  simp

theorem depthAfter_eq (depth : Nat) (t : Token) :
    (if t = .openParen then depth + 1 else if t = .closeParen then depth - 1 else depth) =
      depthAfter depth t := by
  cases t <;> rfl

theorem upToClose_of_isBalanced (h : isBalanced (fun _ => false) depth ts = true)
    (rest : List Token) : upToClose depth (ts ++ .closeParen :: rest) = (ts, rest) := by
  induction ts generalizing depth with
  | nil =>
      obtain rfl : depth = 0 := eq_of_beq h
      rfl
  | cons t ts ih =>
      obtain ⟨hgoesOn, hrest⟩ := isBalanced_cons_iff.1 h
      have ht : ¬ (t = .closeParen ∧ depth = 0) := fun ht => hgoesOn ⟨ht.2, .inl ht.1⟩
      rw [List.cons_append, upToClose, if_neg ht]
      dsimp only
      rw [depthAfter_eq, ih hrest]

theorem dataType?_tokens (type : WrittenType) (hrest : StartsWith endsType rest) :
    ∃ after, dataType? (type.tokens ++ rest) = some (type.text, after) ∧
      afterBlanks after = rest := by
  have hname : StartsWith endsName rest := hrest.mono fun _ => endsName_of_endsType
  obtain ⟨name, facets, hgoesOn⟩ := type
  cases facets with
  | none =>
      obtain ⟨after, hafter, hblanks⟩ := typeName?_tokens hgoesOn hname
      refine ⟨rest, ?_, afterBlanks_of_endsName hname⟩
      rw [WrittenType.tokens, Option.elim_none, List.append_nil, dataType?, hafter]
      dsimp only
      rw [hblanks]
      split
      · have hopen := startsWith_cons_iff.1 hrest
        cases hopen
      · simp [WrittenType.text]
  | some facets =>
      have hfacets : StartsWith endsName (facets.tokens ++ rest) := startsWith_cons_iff.2 rfl
      obtain ⟨after, hafter, hblanks⟩ := typeName?_tokens hgoesOn hfacets
      refine ⟨List.replicate facets.blanks .blank ++ rest, ?_, ?_⟩
      · rw [WrittenType.tokens, Option.elim_some, List.append_assoc, dataType?, hafter]
        dsimp only
        rw [hblanks, WrittenFacets.tokens, List.cons_append, List.append_assoc]
        dsimp only
        rw [spaced, List.cons_append, upToClose_of_isBalanced facets.isBalanced]
        simp [WrittenType.text, WrittenFacets.text, String.append_assoc]
      · rw [afterBlanks_replicate, afterBlanks_of_endsName hname]

/-- The clauses and the comma, parenthesis or word behind a parameter end its default value. -/
def endsValue (t : Token) : Bool :=
  t == .closeParen || endsDefault t

theorem defaultTokens_of_isBalanced (h : isBalanced endsDefault depth ts = true)
    (hrest : StartsWith endsValue rest) : defaultTokens depth (ts ++ rest) = (ts, rest) := by
  induction ts generalizing depth with
  | nil =>
      obtain rfl : depth = 0 := eq_of_beq h
      cases rest with
      | nil => rfl
      | cons t rest =>
          have ht := startsWith_cons_iff.1 hrest
          simp only [endsValue, endsDefault, Bool.or_eq_true, beq_iff_eq] at ht
          rw [List.nil_append, defaultTokens, if_pos ⟨rfl, ht⟩]
  | cons t ts ih =>
      obtain ⟨hgoesOn, hbalanced⟩ := isBalanced_cons_iff.1 h
      have ht : ¬ (depth = 0 ∧ (t = .closeParen ∨ t = .comma ∨ tokenEndsClause t = true)) := by
        simpa [endsDefault] using hgoesOn
      rw [List.cons_append, defaultTokens, if_neg ht]
      dsimp only
      rw [depthAfter_eq, ih hbalanced]

theorem not_isBlank_of_endsValue (ht : endsValue t = true) : (!t.isBlank) = true := by
  cases t <;> first | rfl | cases ht

theorem afterBlanks_append (h : afterBlanks rest = rest) (ts : List Token) :
    afterBlanks (ts ++ rest) = ts.dropWhile Token.isBlank ++ rest := by
  induction ts with
  | nil => exact h
  | cons t ts ih =>
      cases ht : t.isBlank with
      | true => rw [List.cons_append, afterBlanks_cons_of_isBlank ht, ih,
          List.dropWhile_cons_of_pos ht]
      | false => rw [List.cons_append, afterBlanks_cons_of_not_isBlank ht,
          List.dropWhile_cons_of_neg (by simp [ht]), List.cons_append]

theorem dropBlanks_of_isBalanced {barred : Token → Bool} (h : isBalanced barred depth ts = true) :
    isBalanced barred depth (ts.dropWhile Token.isBlank) = true ∧
      defaultText (ts.dropWhile Token.isBlank) = defaultText ts := by
  induction ts with
  | nil => exact ⟨h, rfl⟩
  | cons t ts ih =>
      cases ht : t.isBlank with
      | false =>
          rw [List.dropWhile_cons_of_neg (by simp [ht])]
          exact ⟨h, rfl⟩
      | true =>
          obtain rfl := isBlank_iff.1 ht
          rw [List.dropWhile_cons_of_pos ht, defaultText_blank_cons]
          exact ih (isBalanced_cons_iff.1 h).2

theorem clauses_eq (p : HeaderParameter) (ts : List Token) : clauses p ts =
    match take? (· == .equals) ts with
    | some rest => clauses { p with default? := some (defaultText (defaultTokens 0 rest).1) }
        (afterBlanks (defaultTokens 0 rest).2)
    | none =>
    match take? (·.reads "READONLY") ts with
    | some rest => clauses { p with isReadonly := true } rest
    | none =>
    match take? (fun t => t.reads "OUTPUT" || t.reads "OUT") ts with
    | some rest => clauses { p with isOutput := true } rest
    | none =>
    match take? (·.reads "VARYING") ts with
    | some rest => clauses p rest
    | none => (p, ts) := by
  fun_cases clauses p ts <;> simp only [*]

theorem clauses_default (d : WrittenDefault) (hrest : StartsWith endsValue rest) :
    clauses p (.equals :: (d.tokens ++ rest)) =
      clauses { p with default? := some (defaultText d.tokens) } rest := by
  have hblanks := (hrest.mono fun _ => not_isBlank_of_endsValue).afterBlanks_eq
  obtain ⟨hbalanced, htext⟩ := dropBlanks_of_isBalanced d.isBalanced
  have htake : take? (· == .equals) (.equals :: (d.tokens ++ rest)) =
      some (d.tokens.dropWhile Token.isBlank ++ rest) := by
    rw [take?, if_pos (beq_self_eq_true _), afterBlanks_append hblanks]
  rw [clauses_eq, htake]
  dsimp only
  rw [defaultTokens_of_isBalanced hbalanced hrest, htext, hblanks]

theorem take?_word (q : Token → Bool) (w : WrittenWord) (hrest : afterBlanks rest = rest) :
    take? q (w.tokens ++ rest) = if q (.word w.word) then some rest else none := by
  rw [WrittenWord.tokens, take?_spaced, hrest]

/-- What flags say of a parameter. -/
def withFlags (p : HeaderParameter) (fs : List Flag) : HeaderParameter :=
  { p with
    isOutput := p.isOutput || fs.contains .output
    isReadonly := p.isReadonly || fs.contains .readonly }

theorem withFlags_withFlags (p : HeaderParameter) (fs gs : List Flag) :
    withFlags (withFlags p fs) gs = withFlags p (fs ++ gs) := by
  simp [withFlags, Bool.or_assoc]

theorem clauses_flag (f : WrittenFlag) (hrest : afterBlanks rest = rest) :
    clauses p (f.word.tokens ++ rest) = clauses (withFlags p [f.flag]) rest := by
  obtain ⟨flag, w, text, htext, hreads⟩ := f
  rw [clauses_eq]
  simp only [take?_word _ _ hrest]
  cases flag with
  | readonly =>
      obtain rfl := List.mem_singleton.1 htext
      simp [Token.reads, hreads, withFlags]
  | output =>
      have hnot (hupper : text.toList.all Char.isUpper = true) (hne : text ≠ "READONLY") :
          w.word.reads "READONLY" = false :=
        Word.reads_eq_false (Word.upper_of_reads hreads hupper) (by decide) hne
      obtain rfl | rfl : text = "OUTPUT" ∨ text = "OUT" := by simpa [Flag.spellings] using htext
      · simp [Token.reads, hreads, hnot (by decide) (by decide), withFlags]
      · simp [Token.reads, hreads, hnot (by decide) (by decide), withFlags]

theorem clauses_varying {w : WrittenWord} (hw : w.word.reads "VARYING" = true)
    (hrest : afterBlanks rest = rest) : clauses p (w.tokens ++ rest) = clauses p rest := by
  have hupper := Word.upper_of_reads hw (by decide)
  have hreadonly : w.word.reads "READONLY" = false :=
    Word.reads_eq_false hupper (by decide) (by decide)
  have houtput : w.word.reads "OUTPUT" = false :=
    Word.reads_eq_false hupper (by decide) (by decide)
  have hout : w.word.reads "OUT" = false :=
    Word.reads_eq_false hupper (by decide) (by decide)
  rw [clauses_eq]
  simp only [take?_word _ _ hrest]
  simp [Token.reads, hw, hreadonly, houtput, hout]

/-- The comma, parenthesis or word behind a parameter. -/
def endsParameter (t : Token) : Bool :=
  t == .comma || t == .closeParen || t.isKeyword "AS" || t.isKeyword "WITH"

theorem clauses_of_endsParameter (h : StartsWith endsParameter ts) : clauses p ts = (p, ts) := by
  have hno (text : String) (htext : text.toList.all Char.isUpper = true) (has : "AS" ≠ text)
      (hwith : "WITH" ≠ text) (t : Token) (ht : endsParameter t = true) :
      t.reads text = false := by
    cases t with
    | word w =>
        obtain hw | hw : w.isKeyword "AS" = true ∨ w.isKeyword "WITH" = true := by
          simpa [endsParameter, Token.isKeyword] using ht
        · exact Word.reads_eq_false (Word.upper_of_isKeyword hw) htext has
        · exact Word.reads_eq_false (Word.upper_of_isKeyword hw) htext hwith
    | _ => rfl
  have hequals : take? (· == .equals) ts = none :=
    h.take?_eq_none fun t ht => by cases t <;> first | rfl | cases ht
  have hreadonly : take? (·.reads "READONLY") ts = none :=
    h.take?_eq_none (hno _ (by decide) (by decide) (by decide))
  have houtput : take? (fun t => t.reads "OUTPUT" || t.reads "OUT") ts = none :=
    h.take?_eq_none fun t ht => by
      rw [hno "OUTPUT" (by decide) (by decide) (by decide) t ht,
        hno "OUT" (by decide) (by decide) (by decide) t ht, Bool.or_self]
  have hvarying : take? (·.reads "VARYING") ts = none :=
    h.take?_eq_none (hno _ (by decide) (by decide) (by decide))
  rw [clauses_eq, hequals, hreadonly, houtput, hvarying]

theorem StartsWith.append (hts : StartsWith q ts) (hrest : StartsWith q rest) :
    StartsWith q (ts ++ rest) := by
  cases ts with
  | nil => exact hrest
  | cons t ts => exact startsWith_cons_iff.2 (startsWith_cons_iff.1 hts)

theorem startsWith_flagTokens {fs : List WrittenFlag}
    (h : ∀ f ∈ fs, q (.word f.word.word) = true) : StartsWith q (flagTokens fs) := by
  cases fs with
  | nil => exact nofun
  | cons f fs => exact startsWith_cons_iff.2 (h f List.mem_cons_self)

theorem afterBlanks_flagTokens (fs : List WrittenFlag) (hrest : afterBlanks rest = rest) :
    afterBlanks (flagTokens fs ++ rest) = flagTokens fs ++ rest := by
  cases fs with
  | nil => exact hrest
  | cons f fs => exact afterBlanks_cons_of_not_isBlank rfl

theorem clauses_flagTokens (fs : List WrittenFlag) (hrest : afterBlanks rest = rest) :
    clauses p (flagTokens fs ++ rest) = clauses (withFlags p (fs.map (·.flag))) rest := by
  induction fs generalizing p with
  | nil => simp [flagTokens, withFlags]
  | cons f fs ih =>
      rw [flagTokens, List.flatMap_cons, List.append_assoc]
      change clauses p (f.word.tokens ++ (flagTokens fs ++ rest)) = _
      rw [clauses_flag f (afterBlanks_flagTokens fs hrest), ih, withFlags_withFlags]
      rfl

theorem endsValue_of_flag (f : WrittenFlag) : endsValue (.word f.word.word) = true := by
  obtain ⟨flag, w, text, htext, hreads⟩ := f
  have hmem : text ∈ ["READONLY", "OUTPUT", "OUT"] := by
    cases flag <;> simp_all [Flag.spellings]
  have hends : endsClause w.word = true := by
    rw [endsClause, Bool.or_eq_true]
    exact .inr (List.any_eq_true.2 ⟨text, hmem, hreads⟩)
  simpa [endsValue, endsDefault, tokenEndsClause] using hends

theorem endsValue_of_endsParameter (ht : endsParameter t = true) : endsValue t = true := by
  cases t with
  | word w =>
      obtain hw | hw : w.isKeyword "AS" = true ∨ w.isKeyword "WITH" = true := by
        simpa [endsParameter, Token.isKeyword] using ht
      · simp [endsValue, endsDefault, tokenEndsClause, endsClause, hw]
      · simp [endsValue, endsDefault, tokenEndsClause, endsClause, hw]
  | comma => rfl
  | closeParen => rfl
  | _ => cases ht

theorem endsType_of_endsParameter (ht : endsParameter t = true) : endsType t = true := by
  cases t <;> first | rfl | cases ht

theorem WrittenName.exists_tokens_eq (name : WrittenName) :
    ∃ w more, name.tokens = WrittenWord.tokens w ++ more ∧ w.word ∈ name.words := by
  cases name with
  | plain name => exact ⟨name, [], (List.append_nil _).symm, List.mem_cons_self⟩
  | qualified schema blanks name => exact ⟨schema, _, rfl, List.mem_cons_self⟩

theorem WrittenName.afterBlanks_tokens (name : WrittenName) (ts : List Token) :
    afterBlanks (name.tokens ++ ts) = name.tokens ++ ts := by
  obtain ⟨w, more, hname, -⟩ := name.exists_tokens_eq
  rw [hname, List.append_assoc, afterBlanks_word]

theorem WrittenType.exists_tokens_eq (type : WrittenType) : ∃ w more,
    type.tokens = WrittenWord.tokens w ++ more ∧ endsClause w.word = false := by
  obtain ⟨w, more, hname, hw⟩ := type.name.exists_tokens_eq
  refine ⟨w, more ++ type.facets.elim [] WrittenFacets.tokens, ?_, type.goesOn _ hw⟩
  rw [tokens, hname, List.append_assoc]

namespace WrittenParameter

variable (w : WrittenParameter)

theorem clauses_defaultTokens (hp : p.default? = none) (hrest : StartsWith endsValue rest) :
    clauses p (w.default.elim [] (fun d => .equals :: d.tokens) ++ rest) =
      clauses { p with default? := w.default? } rest := by
  cases hdefault : w.default with
  | none => simp [default?, hdefault, ← hp]
  | some d => simp [default?, hdefault, clauses_default d hrest]

theorem clauses_clauseTokens (hrest : StartsWith endsParameter rest) :
    clauses { name := w.name, dataType := w.type.text } (w.clauseTokens ++ rest) =
      (w.header, rest) := by
  have hbehind : StartsWith endsValue (flagTokens w.flagsAfter ++ rest) :=
    (startsWith_flagTokens fun f _ => endsValue_of_flag f).append
      (hrest.mono fun _ => endsValue_of_endsParameter)
  have hblanks := (hbehind.mono fun _ => not_isBlank_of_endsValue).afterBlanks_eq
  have hrestBlanks := (hrest.mono fun _ ht =>
    not_isBlank_of_endsValue (endsValue_of_endsParameter ht)).afterBlanks_eq
  have hvalue : afterBlanks (w.default.elim [] (fun d => .equals :: d.tokens) ++
      (flagTokens w.flagsAfter ++ rest)) = w.default.elim [] (fun d => .equals :: d.tokens) ++
        (flagTokens w.flagsAfter ++ rest) := by
    cases w.default with
    | none => exact hblanks
    | some d => exact afterBlanks_cons_of_not_isBlank rfl
  have hvarying (p : HeaderParameter) (ts : List Token) (hts : afterBlanks ts = ts) :
      clauses p (w.varying.elim [] WrittenWord.tokens ++ ts) = clauses p ts := by
    cases hw : w.varying with
    | none => rfl
    | some v => exact clauses_varying (w.varying_reads v hw) hts
  rw [clauseTokens, List.append_assoc, List.append_assoc, List.append_assoc,
    hvarying _ _ (afterBlanks_flagTokens _ hvalue), clauses_flagTokens _ hvalue,
    w.clauses_defaultTokens rfl hbehind, clauses_flagTokens _ hrestBlanks,
    clauses_of_endsParameter hrest]
  simp [withFlags, header, flags]

theorem startsWith_clauseTokens (hq : ∀ w, q (.word w) = true) (hequals : q .equals = true) :
    StartsWith q w.clauseTokens := by
  have hvarying : StartsWith q (w.varying.elim [] WrittenWord.tokens) := by
    cases w.varying with
    | none => exact nofun
    | some v => exact startsWith_cons_iff.2 (hq v.word)
  have hdefault : StartsWith q (w.default.elim [] fun d => .equals :: d.tokens) := by
    cases w.default with
    | none => exact nofun
    | some d => exact startsWith_cons_iff.2 hequals
  have hflags (fs : List WrittenFlag) : StartsWith q (flagTokens fs) :=
    startsWith_flagTokens fun f _ => hq f.word.word
  exact hvarying.append ((hflags _).append (hdefault.append (hflags _)))

theorem getD_take?_asWord (ts : List Token) :
    (take? (·.isKeyword "AS") (w.asWord.elim [] WrittenWord.tokens ++ (w.type.tokens ++ ts))).getD
      (w.asWord.elim [] WrittenWord.tokens ++ (w.type.tokens ++ ts)) = w.type.tokens ++ ts := by
  obtain ⟨v, more, htype, hgoesOn⟩ := w.type.exists_tokens_eq
  rw [htype, List.append_assoc]
  cases has : w.asWord with
  | none =>
      have hno : Token.isKeyword "AS" (.word v.word) = false := by
        rw [endsClause, Bool.or_eq_false_iff, List.any_eq_false] at hgoesOn
        exact Bool.eq_false_iff.2 (hgoesOn.1 "AS" List.mem_cons_self)
      rw [Option.elim_none, List.nil_append, WrittenWord.tokens_append, take?, hno]
      rfl
  | some u =>
      have hkeyword : Token.isKeyword "AS" (.word u.word) = true := w.asWord_isKeyword u has
      rw [Option.elim_some, take?_word _ _ (afterBlanks_word v _), if_pos hkeyword]
      rfl

theorem parameter_tokens (hrest : StartsWith endsParameter rest) :
    ∃ behind, w.tokens ++ rest = List.replicate w.blanks .blank ++ w.nameToken :: behind ∧
      parameter w.nameToken behind = (some w.header, rest) := by
  have hclauses : StartsWith endsType (w.clauseTokens ++ rest) :=
    (w.startsWith_clauseTokens (fun _ => rfl) rfl).append
      (hrest.mono fun _ => endsType_of_endsParameter)
  obtain ⟨after, hafter, hblanks⟩ := dataType?_tokens w.type hclauses
  refine ⟨List.replicate w.blanksBehindName .blank ++ (w.asWord.elim [] WrittenWord.tokens ++
    (w.type.tokens ++ (w.clauseTokens ++ rest))), ?_, ?_⟩
  · simp [tokens, spaced]
  · have hname : variableName? w.nameToken = some w.name := by
      simp [nameToken, variableName?]
    have hbody : afterBlanks (w.asWord.elim [] WrittenWord.tokens ++
        (w.type.tokens ++ (w.clauseTokens ++ rest))) = w.asWord.elim [] WrittenWord.tokens ++
          (w.type.tokens ++ (w.clauseTokens ++ rest)) := by
      cases w.asWord with
      | none =>
          rw [WrittenType.tokens, List.append_assoc]
          exact w.type.name.afterBlanks_tokens _
      | some u => exact afterBlanks_word u _
    rw [parameter, hname]
    dsimp only
    rw [afterBlanks_replicate, hbody, getD_take?_asWord, hafter]
    dsimp only
    rw [hblanks, w.clauses_clauseTokens hrest]

end WrittenParameter

end ProcedureHeader

end QueryShape
