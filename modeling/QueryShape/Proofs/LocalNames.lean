import Mathlib.Data.List.Chain
import QueryShape.Proofs.Variables.Placeholder

/-!
The names of temp tables in a text. The main statement says that a text is made global by what is
written after the hash of each name with a single one and by nothing else, that no such name is
left, and that a search from the left, match by match, comes to the same text.
-/

namespace QueryShape

open QueryShape.Unicode

namespace Unicode

namespace CodePointSet

/-- Pairs of switches: the code points from the first to before the second are inside. -/
def runsOf : List Nat → List (Nat × Nat)
  | first :: last :: rest => (first, last) :: runsOf rest
  | _ => []

theorem exists_mem_runsOf {switches : List Nat} {n : Nat} (heven : switches.length % 2 = 0)
    (h : (switches.takeWhile (· ≤ n)).length % 2 = 1) :
    ∃ r ∈ runsOf switches, r.1 ≤ n ∧ n < r.2 := by
  induction switches using runsOf.induct with
  | case1 first last rest ih =>
      have heven' : rest.length % 2 = 0 := by
        simp only [List.length_cons] at heven
        omega
      by_cases hfirst : first ≤ n
      · by_cases hlast : last ≤ n
        · simp only [List.takeWhile_cons, hfirst, hlast, decide_true, if_true,
            List.length_cons] at h
          obtain ⟨r, hr, hbounds⟩ := ih heven' (by omega)
          exact ⟨r, List.mem_cons_of_mem _ hr, hbounds⟩
        · exact ⟨(first, last), List.mem_cons_self, hfirst, by omega⟩
      · simp [hfirst] at h
  | case2 switches hshort =>
      cases switches with
      | nil => simp at h
      | cons first rest =>
          cases rest with
          | nil => simp at heven
          | cons last rest => exact absurd rfl (hshort first last rest)

theorem fst_mem_of_mem_runsOf {switches : List Nat} {r : Nat × Nat} (h : r ∈ runsOf switches) :
    r.1 ∈ switches := by
  induction switches using runsOf.induct with
  | case1 first last rest ih =>
      rcases List.mem_cons.1 h with rfl | h
      · exact List.mem_cons_self
      · exact List.mem_cons_of_mem _ (List.mem_cons_of_mem _ (ih h))
  | case2 switches hshort => simp [runsOf] at h

theorem length_takeWhile_of_mem_runsOf {switches : List Nat} {n : Nat} {r : Nat × Nat}
    (hsorted : switches.Pairwise (· ≤ ·)) (hr : r ∈ runsOf switches) (hfirst : r.1 ≤ n)
    (hlast : n < r.2) : (switches.takeWhile (· ≤ n)).length % 2 = 1 := by
  induction switches using runsOf.induct with
  | case1 first last rest ih =>
      obtain ⟨hfirsts, hlasts, hrest⟩ := by simpa only [List.pairwise_cons] using hsorted
      rcases List.mem_cons.1 hr with rfl | hr
      · simp [hfirst, Nat.not_le.2 hlast]
      · have hlast' : last ≤ n := Nat.le_trans (hlasts r.1 (fst_mem_of_mem_runsOf hr)) hfirst
        have hfirst' : first ≤ n := Nat.le_trans (hfirsts last List.mem_cons_self) hlast'
        have hodd := ih hrest hr
        simp only [List.takeWhile_cons, hfirst', hlast', decide_true, if_true, List.length_cons]
        omega
  | case2 switches hshort => simp [runsOf] at hr

/-- Whether each run lies in one of the other runs, where both stand in order. -/
def liesWithin : List (Nat × Nat) → List (Nat × Nat) → Bool
  | [], _ => true
  | r :: rest, others =>
      match others.dropWhile fun q => Nat.blt q.2 r.2 with
      | [] => false
      | q :: more => Nat.ble q.1 r.1 && liesWithin rest (q :: more)

theorem exists_of_liesWithin {runs others : List (Nat × Nat)} (h : liesWithin runs others = true) :
    ∀ r ∈ runs, ∃ q ∈ others, q.1 ≤ r.1 ∧ r.2 ≤ q.2 := by
  induction runs generalizing others with
  | nil => simp
  | cons r rest ih =>
      unfold liesWithin at h
      split at h
      · cases h
      · rename_i q more hdrop
        have hsuffix : q :: more <:+ others := hdrop ▸ List.dropWhile_suffix _
        have hend : Nat.blt q.2 r.2 = false := by
          have hhead := List.head?_dropWhile_not (fun q : Nat × Nat => Nat.blt q.2 r.2) others
          simpa [hdrop] using hhead
        simp only [Bool.and_eq_true, Nat.ble_eq] at h
        refine List.forall_mem_cons.2 ⟨?_, ?_⟩
        · refine ⟨q, hsuffix.subset List.mem_cons_self, h.1, ?_⟩
          rw [← Bool.not_eq_true, Nat.blt_eq] at hend
          omega
        · intro r' hr'
          obtain ⟨q', hq', hbounds⟩ := ih h.2 r' hr'
          exact ⟨q', hsuffix.subset hq', hbounds⟩

theorem contains_of_liesWithin {s t : CodePointSet} (heven : s.switches.length % 2 = 0)
    (hsorted : t.switches.Pairwise (· ≤ ·))
    (hwithin : liesWithin (runsOf s.switches) (runsOf t.switches) = true) {c : Char}
    (h : s.contains c = true) : t.contains c = true := by
  obtain ⟨r, hr, hfirst, hlast⟩ := exists_mem_runsOf heven (by simpa [contains] using h)
  obtain ⟨q, hq, hqfirst, hqlast⟩ := exists_of_liesWithin hwithin r hr
  have hodd := length_takeWhile_of_mem_runsOf hsorted hq (Nat.le_trans hqfirst hfirst)
    (Nat.lt_of_lt_of_le hlast hqlast)
  simpa [contains] using hodd

end CodePointSet

theorem isWordPart_of_isLetter {c : Char} (h : isLetter c = true) : isWordPart c = true := by
  have hset : letterSet.contains c = true → wordPartSet.contains c = true :=
    CodePointSet.contains_of_liesWithin (by decide +kernel)
      (List.isChain_iff_pairwise.1 (by decide +kernel)) (by decide +kernel)
  unfold isLetter at h
  unfold isWordPart
  by_cases hascii : c.toNat < 128
  · rw [if_pos hascii] at h ⊢
    simp [Char.isAlphanum, h]
  · rw [if_neg hascii] at h ⊢
    exact hset h

end Unicode

namespace TempTable

variable {insertion xs ys rest : List Char} {before : Option Char} {b c : Char}

theorem isNamePart_of_startsName (h : startsName (c :: rest) = true) : isNamePart c = true := by
  simp only [startsName, Bool.or_eq_true, beq_iff_eq] at h
  unfold isNamePart
  rcases h with h | rfl
  · simp [isWordPart_of_isLetter h]
  · decide

theorem insertInNames_cons_of_local (hends : endsName before = true)
    (hstarts : startsName rest = true) :
    insertInNames insertion before ('#' :: rest) =
      '#' :: (insertion ++ insertInNames insertion (some '#') rest) := by
  rw [insertInNames, if_pos ⟨rfl, hends, hstarts⟩]

theorem insertInNames_cons_of_not_local
    (h : ¬ (c = '#' ∧ endsName before = true ∧ startsName rest = true)) :
    insertInNames insertion before (c :: rest) =
      c :: insertInNames insertion (some c) rest := by
  rw [insertInNames, if_neg h]

theorem exists_insertInNames_append (insertion : List Char) (hb : isNamePart b = true)
    (hxs : ∀ c ∈ xs, isNamePart c = true) : ∃ b', isNamePart b' = true ∧ ∀ ys,
      insertInNames insertion (some b) (xs ++ ys) = xs ++ insertInNames insertion (some b') ys := by
  induction xs generalizing b with
  | nil => exact ⟨b, hb, fun ys => rfl⟩
  | cons c rest ih =>
      obtain ⟨hc, hrest⟩ := List.forall_mem_cons.1 hxs
      obtain ⟨b', hb', heq⟩ := ih hc hrest
      refine ⟨b', hb', fun ys => ?_⟩
      rw [List.cons_append, insertInNames_cons_of_not_local (by simp [endsName, hb]), heq]
      rfl

/-- The name of a session's own temp table stands at a place of a text: a single hash that is at the
start or after a character which no name holds, and right after it a letter or an underscore. -/
def LocalNameAt (cs : List Char) (i : Nat) : Prop :=
  cs[i]? = some '#' ∧ endsName (cs.take i).getLast? = true ∧ startsName (cs.drop (i + 1)) = true

instance (cs : List Char) (i : Nat) : Decidable (LocalNameAt cs i) :=
  inferInstanceAs (Decidable (_ ∧ _ ∧ _))

theorem localNameAt_append_iff {front : List Char} :
    LocalNameAt (front ++ c :: rest) front.length ↔
      c = '#' ∧ endsName front.getLast? = true ∧ startsName rest = true := by
  unfold LocalNameAt
  simp

/-- What is written after the hash of a name depends on the place of the name only. -/
theorem insertInNames_eq_flatMap (insertion front cs : List Char) :
    insertInNames insertion front.getLast? cs = (cs.zipIdx front.length).flatMap fun p =>
      if LocalNameAt (front ++ cs) p.2 then p.1 :: insertion else [p.1] := by
  induction cs generalizing front with
  | nil => rfl
  | cons c rest ih =>
      have hrest := ih (front ++ [c])
      simp only [List.getLast?_append, List.getLast?_singleton, Option.some_or, List.length_append,
        List.length_singleton, List.append_assoc, List.singleton_append] at hrest
      rw [List.zipIdx_cons, List.flatMap_cons, ← hrest]
      by_cases h : c = '#' ∧ endsName front.getLast? = true ∧ startsName rest = true
      · rw [if_pos (localNameAt_append_iff.2 h), h.1, insertInNames_cons_of_local h.2.1 h.2.2]
        rfl
      · rw [if_neg (mt localNameAt_append_iff.1 h), insertInNames_cons_of_not_local h]
        rfl

/-- No name of a session's own temp table starts in a text that stands after `before`. -/
def LacksNames (before : Option Char) : List Char → Prop
  | [] => True
  | c :: rest =>
      ¬ (c = '#' ∧ endsName before = true ∧ startsName rest = true) ∧ LacksNames (some c) rest

theorem lacksNames_iff {front cs : List Char} :
    LacksNames front.getLast? cs ↔ ∀ i, ¬ LocalNameAt (front ++ cs) (front.length + i) := by
  induction cs generalizing front with
  | nil =>
      refine iff_of_true trivial fun i h => ?_
      simp [LocalNameAt] at h
  | cons c rest ih =>
      have hrest := @ih (front ++ [c])
      simp only [List.getLast?_append, List.getLast?_singleton, Option.some_or, List.length_append,
        List.length_singleton, List.append_assoc, List.singleton_append] at hrest
      rw [LacksNames, hrest, ← localNameAt_append_iff]
      constructor
      · rintro ⟨hfirst, hothers⟩ i
        cases i with
        | zero => exact hfirst
        | succ i =>
            have hi := hothers i
            rwa [Nat.add_assoc, Nat.add_comm 1] at hi
      · intro h
        refine ⟨h 0, fun i => ?_⟩
        rw [Nat.add_assoc, Nat.add_comm 1]
        exact h (i + 1)

theorem LacksNames.insertInNames_eq {cs : List Char} (h : LacksNames before cs) :
    insertInNames insertion before cs = cs := by
  induction cs generalizing before with
  | nil => rfl
  | cons c rest ih => rw [insertInNames_cons_of_not_local h.1, ih h.2]

theorem insertInNames_congr {before' : Option Char} (h : endsName before = endsName before')
    (cs : List Char) :
    insertInNames insertion before cs = insertInNames insertion before' cs := by
  cases cs with
  | nil => rfl
  | cons c rest => simp only [insertInNames, h]

theorem lacksNames_append (hb : isNamePart b = true) (hxs : ∀ c ∈ xs, isNamePart c = true)
    (hys : ∀ b', isNamePart b' = true → LacksNames (some b') ys) :
    LacksNames (some b) (xs ++ ys) := by
  induction xs generalizing b with
  | nil => exact hys b hb
  | cons c rest ih =>
      obtain ⟨hc, hrest⟩ := List.forall_mem_cons.1 hxs
      exact ⟨by simp [endsName, hb], ih hc hrest⟩

theorem lacksNames_insertInNames {stem : List Char} (hstem : ∀ c ∈ stem, isNamePart c = true)
    (cs : List Char) : LacksNames before (insertInNames ('#' :: stem) before cs) := by
  induction cs generalizing before with
  | nil => trivial
  | cons c rest ih =>
      by_cases h : c = '#' ∧ endsName before = true ∧ startsName rest = true
      · rw [h.1, insertInNames_cons_of_local h.2.1 h.2.2]
        refine ⟨by simp [startsName, isLetter], ?_⟩
        apply lacksNames_append (by decide)
        · exact List.forall_mem_cons.2 ⟨by decide, hstem⟩
        · intro b' hb'
          have hends : endsName (some '#') = endsName (some b') := by
            simp [endsName, hb', show isNamePart '#' = true by decide]
          rw [insertInNames_congr hends]
          exact ih
      · rw [insertInNames_cons_of_not_local h]
        refine ⟨?_, ih⟩
        rwa [startsName_insertInNames]

/-- A name with one hash or two before it, and the text behind it. -/
structure HashedName where
  isGlobal : Bool
  name : List Char
  behind : List Char

namespace HashedName

/-- The name at the front of a text: a letter or underscore and all characters of names after it. -/
def bare? (isGlobal : Bool) : List Char → Option HashedName
  | [] => none
  | c :: rest =>
      if startsName (c :: rest) then
        some ⟨isGlobal, c :: rest.takeWhile isNamePart, rest.dropWhile isNamePart⟩
      else
        none

/-- One or two hashes and a name, two if there is a name after two. -/
def atFront? : List Char → Option HashedName
  | '#' :: '#' :: rest => (bare? true rest).or (bare? false ('#' :: rest))
  | '#' :: rest => bare? false rest
  | _ => none

/-- The match of `(^|[^\w#@$])(##?)([\p{L}_][\w@#$]*)` at the front of a text, as the characters of
its first group and the rest. -/
def match? (atStart : Bool) (cs : List Char) : Option (List Char × HashedName) :=
  (if atStart then (atFront? cs).map fun n => ([], n) else none).or
    (match cs with
      | [] => none
      | c :: rest => if isNamePart c then none else (atFront? rest).map fun n => ([c], n))

/-- What a name that is found is replaced by. -/
def replaced (insertion : List Char) (n : HashedName) : List Char :=
  if n.isGlobal then '#' :: '#' :: n.name else '#' :: (insertion ++ n.name)

variable {cs front : List Char} {n : HashedName} {isGlobal atStart : Bool}

/-- The parts of a name that was found at the front of a text. -/
structure IsBare (cs : List Char) (n : HashedName) : Prop where
  append : n.name ++ n.behind = cs
  starts : startsName cs = true
  nameParts : ∀ c ∈ n.name, isNamePart c = true
  nonempty : n.name ≠ []

theorem bare?_eq_some (h : bare? isGlobal cs = some n) : n.isGlobal = isGlobal ∧ n.IsBare cs := by
  cases cs with
  | nil => cases h
  | cons c rest =>
      by_cases hc : startsName (c :: rest) = true
      · rw [bare?, if_pos hc] at h
        obtain rfl := Option.some.inj h
        have hparts : ∀ d ∈ rest.takeWhile isNamePart, isNamePart d = true :=
          List.all_eq_true.1 List.all_takeWhile
        exact ⟨rfl, by simp, hc,
          List.forall_mem_cons.2 ⟨isNamePart_of_startsName hc, hparts⟩, by simp⟩
      · rw [bare?, if_neg hc] at h
        cases h

theorem bare?_ne_none (h : startsName cs = true) : bare? isGlobal cs ≠ none := by
  cases cs with
  | nil => cases h
  | cons c rest => simp [bare?, h]

theorem startsName_hash (rest : List Char) : startsName ('#' :: rest) = false := by
  simp [startsName, isLetter]

theorem bare?_hash (rest : List Char) : bare? isGlobal ('#' :: rest) = none := by
  simp [bare?, startsName_hash]

theorem atFront?_eq_some (h : atFront? cs = some n) :
    ∃ rest, n.IsBare rest ∧ cs = (if n.isGlobal then ['#', '#'] else ['#']) ++ rest := by
  unfold atFront? at h
  split at h
  · rename_i rest
    rw [bare?_hash, Option.or_none] at h
    obtain ⟨hglobal, hbare⟩ := bare?_eq_some h
    exact ⟨rest, hbare, by simp [hglobal]⟩
  · rename_i rest _
    obtain ⟨hglobal, hbare⟩ := bare?_eq_some h
    exact ⟨rest, hbare, by simp [hglobal]⟩
  · cases h

theorem atFront?_ne_none {rest : List Char} (h : startsName rest = true) :
    atFront? ('#' :: rest) ≠ none := by
  unfold atFront?
  split
  · rename_i rest' heq
    obtain rfl := (List.cons.inj heq).2
    rw [startsName_hash] at h
    cases h
  · rename_i rest' _ heq
    obtain rfl := (List.cons.inj heq).2
    exact bare?_ne_none h
  · rename_i hno
    exact absurd rfl (hno rest)

theorem match?_eq_some (h : match? atStart cs = some (front, n)) :
    atStart = true ∧ front = [] ∧ atFront? cs = some n ∨
      ∃ c rest, cs = c :: rest ∧ front = [c] ∧ isNamePart c = false ∧ atFront? rest = some n := by
  rcases Option.or_eq_some_iff.1 h with h | ⟨-, h⟩
  · left
    cases atStart with
    | false => cases h
    | true =>
        obtain ⟨n', hn', heq⟩ := Option.map_eq_some_iff.1 h
        cases heq
        exact ⟨rfl, rfl, hn'⟩
  · right
    cases cs with
    | nil => cases h
    | cons c rest =>
        cases hc : isNamePart c with
        | true => simp [hc] at h
        | false =>
            simp only [hc, Bool.false_eq_true, if_false] at h
            obtain ⟨n', hn', heq⟩ := Option.map_eq_some_iff.1 h
            cases heq
            exact ⟨c, rest, rfl, rfl, hc, hn'⟩

theorem atFront?_eq_none_of_match? (h : match? atStart cs = none) :
    (atStart = true → atFront? cs = none) ∧
      ∀ c rest, cs = c :: rest → isNamePart c = false → atFront? rest = none := by
  obtain ⟨hstart, hlater⟩ := Option.or_eq_none_iff.1 h
  constructor
  · rintro rfl
    simpa using hstart
  · rintro c rest rfl hc
    simpa [hc] using hlater

theorem length_behind_lt (h : atFront? cs = some n) : n.behind.length < cs.length := by
  obtain ⟨rest, hbare, rfl⟩ := atFront?_eq_some h
  have hhashes : 0 < (if n.isGlobal then ['#', '#'] else ['#']).length := by
    cases n.isGlobal <;> decide
  rw [← hbare.append, List.length_append, List.length_append]
  omega

theorem length_behind_lt_of_match? (h : match? atStart cs = some (front, n)) :
    n.behind.length < cs.length := by
  rcases match?_eq_some h with ⟨-, -, hfound⟩ | ⟨c, rest, rfl, -, -, hfound⟩
  · exact length_behind_lt hfound
  · have hlt := length_behind_lt hfound
    simp only [List.length_cons]
    omega

theorem insertInNames_of_atFront? (insertion : List Char) (h : atFront? cs = some n)
    (hends : endsName before = true) : ∃ b, isNamePart b = true ∧
      insertInNames insertion before cs =
        n.replaced insertion ++ insertInNames insertion (some b) n.behind := by
  obtain ⟨rest, hbare, rfl⟩ := atFront?_eq_some h
  obtain ⟨b, hb, heq⟩ := exists_insertInNames_append insertion
    (show isNamePart '#' = true by decide) hbare.nameParts
  refine ⟨b, hb, ?_⟩
  have hname := heq n.behind
  rw [hbare.append] at hname
  cases hglobal : n.isGlobal with
  | true =>
      rw [if_pos rfl, List.cons_append, List.cons_append, List.nil_append,
        insertInNames_cons_of_not_local (by simp [startsName_hash]),
        insertInNames_cons_of_not_local (by simp [endsName, isNamePart]), hname]
      simp [replaced, hglobal]
  | false =>
      rw [if_neg Bool.false_ne_true, List.singleton_append,
        insertInNames_cons_of_local hends hbare.starts, hname]
      simp [replaced, hglobal]

end HashedName

/-- The text with each match replaced that a search from the left finds, where the next search
starts behind the match. -/
def replaceMatches (insertion : List Char) (atStart : Bool) (cs : List Char) : List Char :=
  match _h : HashedName.match? atStart cs with
  | some (front, n) => front ++ n.replaced insertion ++ replaceMatches insertion false n.behind
  | none =>
      match cs with
      | [] => []
      | c :: rest => c :: replaceMatches insertion false rest
termination_by cs.length
decreasing_by
  · exact HashedName.length_behind_lt_of_match? _h
  · simp

open HashedName in
/-- A search finds each name although a match takes the character before the name: the match before
it ends in a character of a name, and that is not one a match starts with. -/
theorem replaceMatches_eq_insertInNames (insertion : List Char) (before : Option Char)
    (cs : List Char)
    (hbefore : ∀ b, before = some b → isNamePart b = false → atFront? cs = none) :
    replaceMatches insertion before.isNone cs = insertInNames insertion before cs := by
  -- A match takes several characters at once, so the induction is on the length. A match ends
  -- inside of a name, where no other one begins.
  induction hlength : cs.length using Nat.strong_induction_on generalizing before cs with
  | h length ih =>
      have hinside {b : Char} (hb : isNamePart b = true) (behind : List Char) :
          ∀ b', some b = some b' → isNamePart b' = false → atFront? behind = none := by
        rintro b' ⟨⟩ hb'
        rw [hb] at hb'
        cases hb'
      rw [replaceMatches]
      split
      · rename_i front n hmatch
        have hlt := length_behind_lt_of_match? hmatch
        obtain ⟨hstart, rfl, hfound⟩ | ⟨c, rest, rfl, rfl, hc, hfound⟩ :=
          match?_eq_some hmatch
        · obtain rfl := Option.isNone_iff_eq_none.1 hstart
          obtain ⟨b, hb, heq⟩ := insertInNames_of_atFront? insertion hfound
            (show endsName none = true from rfl)
          rw [heq, ← ih _ (hlength ▸ hlt) _ _ (hinside hb n.behind) rfl]
          rfl
        · obtain ⟨b, hb, heq⟩ := insertInNames_of_atFront? insertion hfound
            (show endsName (some c) = true by simp [endsName, hc])
          have hne : c ≠ '#' := by
            rintro rfl
            cases hc
          rw [insertInNames_cons_of_not_local (by simp [hne]), heq,
            ← ih _ (hlength ▸ hlt) _ _ (hinside hb n.behind) rfl]
          rfl
      · rename_i hnone
        obtain ⟨hstart, hlater⟩ := atFront?_eq_none_of_match? hnone
        cases cs with
        | nil => rfl
        | cons c rest =>
            have hrest : replaceMatches insertion (some c).isNone rest =
                insertInNames insertion (some c) rest := by
              apply ih rest.length (by simp [← hlength]) (some c) rest
              · rintro b ⟨⟩ hb
                exact hlater c rest rfl hb
              · rfl
            have hno : ¬ (c = '#' ∧ endsName before = true ∧ startsName rest = true) := by
              rintro ⟨rfl, hends, hstarts⟩
              apply atFront?_ne_none hstarts
              cases before with
              | none => exact hstart rfl
              | some b => exact hbefore b rfl (by simpa [endsName] using hends)
            rw [insertInNames_cons_of_not_local hno, ← hrest]
            rfl

end TempTable

namespace RunToken

open QueryShape.TempTable

/-- What a token writes after the hash of a name. -/
def insertion (t : RunToken) : List Char :=
  '#' :: (t.tableStem.toList ++ ['_'])

theorem toList_globalize (t : RunToken) (text : String) :
    (t.globalize text).toList = insertInNames t.insertion none text.toList := by
  simp [globalize, insertion]

theorem isNamePart_of_isAlphanum {c : Char} (h : (c.isAlphanum || c == '_') = true) :
    isNamePart c = true := by
  have hascii : c.toNat < 128 := by
    simp only [Char.isAlphanum, Bool.or_eq_true, Text.isAlpha_iff, Text.isDigit_iff,
      beq_iff_eq] at h
    rcases h with h | rfl
    · omega
    · decide
  simp only [isNamePart, isWordPart, if_pos hascii, h, Bool.true_or]

theorem IsPlain.isAlphanum {t : RunToken} (h : t.IsPlain) :
    ∀ c ∈ t.tableStem.toList ++ ['_'], (c.isAlphanum || c == '_') = true := by
  have hunit : ∀ n : Nat, ∀ c ∈ (toString n).toList, (c.isAlphanum || c == '_') = true := by
    intro n c hc
    have hdigit : c.isDigit = true :=
      Nat.isDigit_of_mem_toDigits (b := 10) (n := n) (by decide) (by decide) (by simpa using hc)
    simp [Char.isAlphanum, hdigit]
  intro c hc
  rcases List.mem_append.1 hc with hc | hc
  · unfold tableStem at hc
    split at hc
    · rename_i ordinal _
      simp only [String.toList_append, List.mem_append] at hc
      rcases hc with (hc | hc) | hc
      · exact h c hc
      · obtain rfl : c = '_' := by simpa using hc
        decide
      · exact hunit ordinal c hc
    · exact h c hc
  · obtain rfl := List.mem_singleton.1 hc
    decide

theorem lacksNames_globalize {t : RunToken} (h : t.IsPlain) (text : String) :
    LacksNames none (t.globalize text).toList := by
  rw [toList_globalize]
  exact lacksNames_insertInNames (fun c hc => isNamePart_of_isAlphanum (h.isAlphanum c hc))
    text.toList

/-- A text is made global by what is written after the hash of each name of a session's own temp
table, and it is otherwise the text that it was. No such name is left, so no token changes the text
any more. The same text comes out of a search from the left in which the character before a name is
part of the match. -/
theorem globalize_rewrites_localNames {t : RunToken} (h : t.IsPlain) (u : RunToken)
    (text : String) :
    u.globalize (t.globalize text) = t.globalize text ∧
      (∀ i, ¬ LocalNameAt (t.globalize text).toList i) ∧
      (t.globalize text).toList = (text.toList.zipIdx.flatMap fun p =>
        if LocalNameAt text.toList p.2 then p.1 :: '#' :: (t.tableStem.toList ++ ['_'])
        else [p.1]) ∧
      (t.globalize text).toList =
        replaceMatches ('#' :: (t.tableStem.toList ++ ['_'])) true text.toList := by
  have hlacks := lacksNames_globalize h text
  refine ⟨?_, ?_, ?_, ?_⟩
  · apply String.toList_inj.1
    rw [toList_globalize u, hlacks.insertInNames_eq]
  · intro i
    have hno := lacksNames_iff.1 (show LacksNames ([] : List Char).getLast? _ from hlacks) i
    simpa using hno
  · rw [toList_globalize]
    exact insertInNames_eq_flatMap t.insertion [] text.toList
  · rw [toList_globalize]
    exact (replaceMatches_eq_insertInNames t.insertion none text.toList nofun).symm

def hashText : String :=
  "SELECT * FROM #a,[#b] JOIN ##c ON x#y = ###z WHERE '#' = @#q --#d#"

/-- Names stand right behind one another, hold further hashes or stand in brackets and comments. -/
theorem hashText_globalized : ((ofText "1run").forUnit 2).IsPlain ∧
    ((ofText "1run").forUnit 2).globalize hashText =
      "SELECT * FROM ##1run_2_a,[##1run_2_b] JOIN ##c ON x#y = ###z WHERE '#' = @#q --##1run_2_d#" ∧
    (ofText "other").globalize (((ofText "1run").forUnit 2).globalize hashText) =
      ((ofText "1run").forUnit 2).globalize hashText := by
  have hplain : ((ofText "1run").forUnit 2).IsPlain := (isPlain_ofText "1run").forUnit 2
  exact ⟨hplain, by decide +kernel,
    (globalize_rewrites_localNames hplain (ofText "other") hashText).1⟩

end RunToken

end QueryShape
