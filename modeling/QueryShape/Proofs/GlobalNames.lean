import QueryShape.TempTable.Sandbox
import QueryShape.Text.Case
import QueryShape.Text.IgnoreCase

namespace QueryShape

open QueryShape.Text
open QueryShape.Unicode

namespace Text

theorem toNat_toLower (c : Char) :
    c.toLower.toNat = if 65 ≤ c.toNat ∧ c.toNat ≤ 90 then c.toNat + 32 else c.toNat := by
  have hcond : (c.val ≥ 'A'.val ∧ c.val ≤ 'Z'.val) ↔ (65 ≤ c.toNat ∧ c.toNat ≤ 90) := Iff.rfl
  unfold Char.toLower
  by_cases h : c.val ≥ 'A'.val ∧ c.val ≤ 'Z'.val
  · rw [dif_pos h, if_pos (hcond.1 h)]
    have hle : c.val.toNat ≤ 90 := (hcond.1 h).2
    change (c.val + 32).toNat = c.val.toNat + 32
    rw [UInt32.toNat_add]
    change (c.val.toNat + 32) % 2 ^ 32 = _
    omega
  · rw [dif_neg h, if_neg (mt hcond.2 h)]

theorem isDigit_iff {c : Char} : c.isDigit = true ↔ 48 ≤ c.toNat ∧ c.toNat ≤ 57 := by
  change (decide (c.val ≥ '0'.val) && decide (c.val ≤ '9'.val)) = true ↔ _
  rw [Bool.and_eq_true, decide_eq_true_iff, decide_eq_true_iff]
  exact Iff.rfl

theorem isUpper_iff {c : Char} : c.isUpper = true ↔ 65 ≤ c.toNat ∧ c.toNat ≤ 90 := by
  change decide (c.val ≥ 'A'.val ∧ c.val ≤ 'Z'.val) = true ↔ _
  rw [decide_eq_true_iff]
  exact Iff.rfl

theorem isLower_iff {c : Char} : c.isLower = true ↔ 97 ≤ c.toNat ∧ c.toNat ≤ 122 := by
  change (decide (c.val ≥ 'a'.val) && decide (c.val ≤ 'z'.val)) = true ↔ _
  rw [Bool.and_eq_true, decide_eq_true_iff, decide_eq_true_iff]
  exact Iff.rfl

theorem isAlpha_iff {c : Char} : c.isAlpha = true ↔
    65 ≤ c.toNat ∧ c.toNat ≤ 90 ∨ 97 ≤ c.toNat ∧ c.toNat ≤ 122 := by
  change (c.isUpper || c.isLower) = true ↔ _
  rw [Bool.or_eq_true, isUpper_iff, isLower_iff]

theorem isDigit_eq_false_of_toNat {c : Char} (h : c.toNat < 48 ∨ 57 < c.toNat) :
    c.isDigit = false := by
  rw [← Bool.not_eq_true, isDigit_iff]
  omega

/-- Digits and underscores have no case. -/
def IsCaseless (c : Char) : Prop :=
  c.isDigit = true ∨ c = '_'

instance (c : Char) : Decidable (IsCaseless c) :=
  inferInstanceAs (Decidable (c.isDigit = true ∨ c = '_'))

theorem IsCaseless.toNat_lt {c : Char} (h : IsCaseless c) :
    c.toNat < 65 ∨ 90 < c.toNat ∧ c.toNat < 128 := by
  rcases h with h | rfl
  · rw [isDigit_iff] at h
    omega
  · decide

theorem IsCaseless.toLower_eq {c : Char} (h : IsCaseless c) : c.toLower = c := by
  have hbounds := h.toNat_lt
  apply Char.toNat_inj.1
  rw [toNat_toLower, if_neg (by omega)]

theorem IsCaseless.lowerChar_eq {c : Char} (h : IsCaseless c) : lowerChar c = [c] := by
  have hbounds := h.toNat_lt
  unfold lowerChar
  rw [if_pos (by omega), h.toLower_eq]

theorem IsCaseless.ne_sigma {c : Char} (h : IsCaseless c) : c ≠ 'Σ' := by
  rintro rfl
  have hbounds := h.toNat_lt
  simp at hbounds

theorem lowerChar_ne_nil (c : Char) : lowerChar c ≠ [] := by
  unfold lowerChar
  split
  · simp
  · split
    · simp
    · split <;> simp

theorem isDigit_of_lowerRuns {c : Char} {n : Nat}
    (h : lowerRuns.findSome? (·.map? c.toNat) = some n) : (Char.ofNat n).isDigit = false := by
  have htargets : ∀ r ∈ lowerRuns, 58 ≤ (r.first : Int) + r.shift := by decide +kernel
  obtain ⟨r, hr, hmap⟩ := List.exists_of_findSome?_eq_some h
  have htarget := htargets r hr
  have hn : 58 ≤ n := by
    unfold CaseRun.map? at hmap
    split at hmap
    · rename_i hrange
      simp only [Bool.and_eq_true, decide_eq_true_eq] at hrange
      have hvalue := Option.some.inj hmap
      omega
    · cases hmap
  apply isDigit_eq_false_of_toNat
  by_cases hvalid : n.isValidChar
  · right
    have hchar : Char.ofNat n = Char.ofNatAux n hvalid := dif_pos hvalid
    rw [hchar]
    change 57 < n
    omega
  · left
    have hchar : Char.ofNat n = Char.ofNat 0 := dif_neg hvalid
    rw [hchar]
    decide

theorem isDigit_of_mem_lowerChar {c d : Char} (hc : c.isDigit = false) (hd : d ∈ lowerChar c) :
    d.isDigit = false := by
  unfold lowerChar at hd
  split at hd
  · obtain rfl := List.mem_singleton.1 hd
    rw [← Bool.not_eq_true, isDigit_iff] at hc ⊢
    rw [toNat_toLower]
    split <;> omega
  · split at hd
    · rcases List.mem_cons.1 hd with rfl | hd
      · rfl
      · obtain rfl := List.mem_singleton.1 hd
        rfl
    · split at hd
      · rename_i n hn
        obtain rfl := List.mem_singleton.1 hd
        exact isDigit_of_lowerRuns hn
      · obtain rfl := List.mem_singleton.1 hd
        exact hc

/-- The lower case of a character that stands between two texts. -/
def lowerAt (before : List Char) (c : Char) (rest : List Char) : List Char :=
  if c = 'Σ' then [lowerSigma before rest] else lowerChar c

theorem lowerFrom_cons (before : List Char) (c : Char) (rest : List Char) :
    lowerFrom before (c :: rest) = lowerAt before c rest ++ lowerFrom (c :: before) rest :=
  rfl

theorem length_lowerAt (before : List Char) (c : Char) (rest rest' : List Char) :
    (lowerAt before c rest).length = (lowerAt before c rest').length := by
  unfold lowerAt
  split <;> rfl

end Text

/-- A way to read texts regardless of the case of letters. What stands before a text, given from its
end, may play a part. Digits and underscores are read as they are, and no name is read as a text
that starts with a digit. -/
structure CaseFolding where
  fold : List Char → List Char → List Char
  cancel : ∀ {front before x y : List Char}, fold before (front ++ x) = fold before (front ++ y) →
    fold (front.reverse ++ before) x = fold (front.reverse ++ before) y
  caseless : ∀ {c : Char}, IsCaseless c → ∀ before rest : List Char,
    fold before (c :: rest) = c :: fold (c :: before) rest
  starts : ∀ {rest : List Char}, TempTable.startsName rest = true → ∀ before : List Char,
    ∀ c ∈ (fold before rest).head?, c.isDigit = false

theorem TempTable.isDigit_of_startsName {c : Char} {rest : List Char}
    (h : TempTable.startsName (c :: rest) = true) : c.isDigit = false := by
  simp only [TempTable.startsName, Bool.or_eq_true, beq_iff_eq] at h
  apply isDigit_eq_false_of_toNat
  rcases h with h | rfl
  · unfold isLetter at h
    split at h
    · rw [isAlpha_iff] at h
      omega
    · omega
  · decide

namespace CaseFolding

/-- What a name is known by. -/
def key (f : CaseFolding) (name : String) : List Char :=
  f.fold [] name.toList

/-- Folding of the letters A to Z only. -/
def ascii : CaseFolding where
  fold := fun _ cs => cs.map Char.toLower
  cancel := by
    intro front before x y h
    rw [List.map_append, List.map_append] at h
    exact List.append_cancel_left h
  caseless := by
    intro c hc before rest
    rw [List.map_cons, hc.toLower_eq]
  starts := by
    intro rest hrest before d hd
    cases rest with
    | nil => simp at hd
    | cons c rest =>
        obtain rfl : c.toLower = d := by simpa using hd
        have hc := TempTable.isDigit_of_startsName hrest
        rw [← Bool.not_eq_true, isDigit_iff] at hc ⊢
        rw [toNat_toLower]
        split <;> omega

/-- Folding in all alphabets. -/
def full : CaseFolding where
  fold := lowerFrom
  cancel := by
    intro front
    induction front with
    | nil =>
        intro before x y h
        exact h
    | cons c rest ih =>
        intro before x y h
        rw [List.cons_append, List.cons_append, lowerFrom_cons, lowerFrom_cons] at h
        -- Only a capital sigma looks at what follows it, and is one character in any case.
        have hrest := (List.append_inj h (length_lowerAt before c _ _)).2
        simpa using ih hrest
  caseless := by
    intro c hc before rest
    rw [lowerFrom_cons, lowerAt, if_neg hc.ne_sigma, hc.lowerChar_eq]
    rfl
  starts := by
    intro rest hrest before d hd
    cases rest with
    | nil => cases hrest
    | cons c rest =>
        rw [lowerFrom_cons] at hd
        have hmem : d ∈ lowerAt before c rest := by
          cases hat : lowerAt before c rest with
          | nil =>
              unfold lowerAt at hat
              split at hat
              · cases hat
              · exact absurd hat (lowerChar_ne_nil c)
          | cons e more =>
              rw [hat] at hd
              obtain rfl : e = d := by simpa using hd
              exact List.mem_cons_self
        unfold lowerAt at hmem
        split at hmem
        · obtain rfl := List.mem_singleton.1 hmem
          unfold lowerSigma
          split <;> rfl
        · exact isDigit_of_mem_lowerChar (TempTable.isDigit_of_startsName hrest) hmem

theorem fold_append_of_caseless (f : CaseFolding) {front : List Char}
    (h : ∀ c ∈ front, IsCaseless c) (before rest : List Char) :
    f.fold before (front ++ rest) = front ++ f.fold (front.reverse ++ before) rest := by
  induction front generalizing before with
  | nil => rfl
  | cons c front ih =>
      rw [List.cons_append, f.caseless (h c List.mem_cons_self),
        ih fun d hd => h d (List.mem_cons_of_mem _ hd)]
      simp

end CaseFolding

namespace TempTable

/-- A name that stands for a temp table of one session: a single hash, and a letter or underscore
next. -/
def IsLocalName (name : String) : Prop :=
  ∃ rest, name.toList = '#' :: rest ∧ startsName rest = true

theorem startsName_insertInNames (insertion : List Char) (before : Option Char)
    (cs : List Char) : startsName (insertInNames insertion before cs) = startsName cs := by
  cases cs with
  | nil => rfl
  | cons c rest =>
      unfold insertInNames
      split <;> rfl

end TempTable

namespace RunToken

open QueryShape.TempTable

/-- The token of a whole run. -/
def unscoped (t : RunToken) : RunToken :=
  { t with unit := none }

/-- What the global names of a run begin with, whatever their units are. -/
def commonFront (t : RunToken) : List Char :=
  '#' :: '#' :: t.run.toList ++ ['_']

theorem globalize_of_isLocalName (t : RunToken) {name : String} (h : IsLocalName name) :
    ∃ rest, (t.globalize name).toList = '#' :: '#' :: t.tableStem.toList ++ '_' :: rest ∧
      startsName rest = true := by
  obtain ⟨cs, hname, hstarts⟩ := h
  refine ⟨insertInNames ('#' :: t.tableStem.toList ++ ['_']) (some '#') cs, ?_, ?_⟩
  · unfold globalize
    rw [String.toList_ofList, hname, insertInNames, if_pos ⟨rfl, rfl, hstarts⟩]
    simp
  · rw [startsName_insertInNames, hstarts]

theorem globalize_unscoped (t : RunToken) {name : String} (h : IsLocalName name) :
    ∃ rest, (t.unscoped.globalize name).toList = t.commonFront ++ rest ∧
      startsName rest = true := by
  obtain ⟨rest, hname, hstarts⟩ := t.unscoped.globalize_of_isLocalName h
  refine ⟨rest, ?_, hstarts⟩
  rw [hname]
  simp [commonFront, tableStem, unscoped]

theorem globalize_forUnit (t : RunToken) (ordinal : Nat) {name : String} (h : IsLocalName name) :
    ∃ rest, ((t.forUnit ordinal).globalize name).toList =
      t.commonFront ++ (Nat.toDigits 10 ordinal ++ '_' :: rest) := by
  obtain ⟨rest, hname, -⟩ := (t.forUnit ordinal).globalize_of_isLocalName h
  refine ⟨rest, ?_⟩
  rw [hname]
  simp [commonFront, tableStem, forUnit]

theorem isCaseless_of_mem_toDigits {ordinal : Nat} : ∀ c ∈ Nat.toDigits 10 ordinal, IsCaseless c :=
  fun _ hc => .inl (Nat.isDigit_of_mem_toDigits (by decide) (by decide) hc)

theorem ordinal_eq_of_append {m n : Nat} {x y : List Char}
    (h : Nat.toDigits 10 m ++ '_' :: x = Nat.toDigits 10 n ++ '_' :: y) : m = n := by
  -- No digit is an underscore, so the number ends at the first one.
  have hfront (k : Nat) (z : List Char) :
      (Nat.toDigits 10 k ++ '_' :: z).takeWhile (· != '_') = Nat.toDigits 10 k := by
    rw [List.takeWhile_append_of_pos]
    · simp
    · intro c hc
      have hne : c ≠ '_' := by
        rintro rfl
        exact Nat.underscore_not_in_toDigits hc
      simpa using hne
  have hdigits : Nat.toDigits 10 m = Nat.toDigits 10 n := by
    rw [← hfront m x, h, hfront]
  rw [← Nat.ofDigitChars_ten_toDigits (n := m), hdigits, Nat.ofDigitChars_ten_toDigits]

theorem key_globalize_forUnit_ne (t : RunToken) (f : CaseFolding) {i j : Nat} (hij : i ≠ j)
    {x y : String} (hx : IsLocalName x) (hy : IsLocalName y) :
    f.key ((t.forUnit i).globalize x) ≠ f.key ((t.forUnit j).globalize y) := by
  intro h
  obtain ⟨restx, hnamex⟩ := t.globalize_forUnit i hx
  obtain ⟨resty, hnamey⟩ := t.globalize_forUnit j hy
  unfold CaseFolding.key at h
  rw [hnamex, hnamey] at h
  have htail := f.cancel h
  rw [f.fold_append_of_caseless isCaseless_of_mem_toDigits,
    f.fold_append_of_caseless isCaseless_of_mem_toDigits, f.caseless (.inr rfl),
    f.caseless (.inr rfl)] at htail
  exact hij (ordinal_eq_of_append htail)

theorem key_globalize_forUnit_ne_unscoped (t : RunToken) (f : CaseFolding) (i : Nat)
    {x y : String} (hx : IsLocalName x) (hy : IsLocalName y) :
    f.key ((t.forUnit i).globalize x) ≠ f.key (t.unscoped.globalize y) := by
  intro h
  obtain ⟨restx, hnamex⟩ := t.globalize_forUnit i hx
  obtain ⟨resty, hnamey, hstarts⟩ := t.globalize_unscoped hy
  unfold CaseFolding.key at h
  rw [hnamex, hnamey] at h
  -- Behind the common front one name goes on with a digit, the other with the start of a name.
  have htail := f.cancel h
  rw [f.fold_append_of_caseless isCaseless_of_mem_toDigits] at htail
  cases hdigits : Nat.toDigits 10 i with
  | nil => exact Nat.toDigits_ne_nil hdigits
  | cons d more =>
      rw [hdigits] at htail
      have hhead := f.starts hstarts (t.commonFront.reverse ++ []) d (by rw [← htail]; simp)
      have hdigit : d.isDigit = true :=
        Nat.isDigit_of_mem_toDigits (b := 10) (n := i) (by decide) (by decide)
          (by rw [hdigits]; exact List.mem_cons_self)
      rw [hdigit] at hhead
      cases hhead

end RunToken

end QueryShape
