import QueryShape.Procedure.Header

/-!
The text of a default value. It is collected token by token, and the blanks at its end are taken off
last. What comes of that is the text in which a blank stands for each run of them between tokens.
-/

namespace QueryShape

namespace Token

/-- The text of a token ends in something other than a blank. -/
def EndsVisibly (t : Token) : Prop :=
  ∃ c ∈ t.text.toList.getLast?, Unicode.isBlank c = false

instance (t : Token) : Decidable t.EndsVisibly :=
  decidable_of_iff ((t.text.toList.getLast?.any fun c => !Unicode.isBlank c) = true)
    (by simp [EndsVisibly, Option.any_eq_true])

/-- The texts of tokens one after another. A blank is left out at the end and in front of another
one. -/
def written : List Token → List Char
  | [] => []
  | t :: ts => if t.isBlank && ts.head?.all isBlank then written ts else t.text.toList ++ written ts

end Token

namespace ProcedureHeader

open QueryShape.Text
open QueryShape.Token

variable {t : Token} {ts : List Token} {acc : List Char}

theorem isBlank_iff : t.isBlank = true ↔ t = .blank := by
  cases t <;> simp [isBlank]

theorem written_cons_of_not_isBlank (ht : t.isBlank = false) (ts : List Token) :
    written (t :: ts) = t.text.toList ++ written ts := by
  rw [written, if_neg (by simp [ht])]

theorem written_blank_blank (ts : List Token) :
    written (.blank :: .blank :: ts) = written (.blank :: ts) := by
  rw [written, if_pos (show (Token.blank.isBlank && Option.all isBlank _) = true from rfl)]

theorem written_blank_cons (ht : t.isBlank = false) (ts : List Token) :
    written (.blank :: t :: ts) = ' ' :: written (t :: ts) := by
  have hkept : ¬ ((Token.blank.isBlank && (t :: ts).head?.all isBlank) = true) := by
    simp [ht]
  rw [written, if_neg hkept]
  rfl

/-- A text to which a blank is still to be added. -/
def EndsInText (acc : List Char) : Prop :=
  ∃ c ∈ acc.getLast?, Unicode.isBlank c = false

theorem EndsInText.append_text (ht : t.EndsVisibly) (acc : List Char) :
    EndsInText (acc ++ t.text.toList) := by
  obtain ⟨c, hc, hblank⟩ := ht
  exact ⟨c, by simp [List.getLast?_append, Option.mem_def.1 hc], hblank⟩

theorem addToken_of_not_isBlank (ht : t.isBlank = false) (acc : List Char) :
    addToken acc t = acc ++ t.text.toList := by
  simp [addToken, ht]

theorem addToken_blank (h : EndsInText acc) : addToken acc .blank = acc ++ [' '] := by
  obtain ⟨c, hc, hblank⟩ := h
  have hne : ¬ (acc = [] ∨ acc.getLast? = some ' ') := by
    rintro (rfl | hspace)
    · cases hc
    · obtain rfl := Option.some.inj (hc.symm.trans hspace)
      cases hblank
  rw [addToken, if_pos (isBlank_iff.2 rfl), if_neg hne]

theorem addToken_space (acc : List Char) : addToken (acc ++ [' ']) .blank = acc ++ [' '] := by
  rw [addToken, if_pos (isBlank_iff.2 rfl), if_pos (.inr (by simp))]

/-- Blanks that are collected behind a text are one space, whether one stands there already or not.
Only such a space may be left over at the end. -/
theorem foldl_addToken (hts : ∀ t ∈ ts, t.isBlank = false → t.EndsVisibly)
    (hacc : EndsInText acc) :
    (∃ pad, (pad = [] ∨ pad = [' ']) ∧ ts.foldl addToken acc = acc ++ written ts ++ pad) ∧
      ∃ pad, (pad = [] ∨ pad = [' ']) ∧
        ts.foldl addToken (acc ++ [' ']) = acc ++ written (.blank :: ts) ++ pad := by
  induction ts generalizing acc with
  | nil => exact ⟨⟨[], .inl rfl, by simp [written]⟩, [' '], .inr rfl, by simp [written, isBlank]⟩
  | cons t ts ih =>
      obtain ⟨ht, hrest⟩ := List.forall_mem_cons.1 hts
      rw [List.foldl_cons, List.foldl_cons]
      cases hblank : t.isBlank with
      | true =>
          obtain rfl := isBlank_iff.1 hblank
          rw [addToken_blank hacc, addToken_space, written_blank_blank]
          exact ⟨(ih hrest hacc).2, (ih hrest hacc).2⟩
      | false =>
          have htext := EndsInText.append_text (ht hblank) acc
          have hspaced := EndsInText.append_text (ht hblank) (acc ++ [' '])
          obtain ⟨⟨pad, hpad, hfold⟩, -⟩ := ih hrest htext
          obtain ⟨⟨pad', hpad', hfold'⟩, -⟩ := ih hrest hspaced
          rw [addToken_of_not_isBlank hblank, addToken_of_not_isBlank hblank, hfold, hfold',
            written_blank_cons hblank, written_cons_of_not_isBlank hblank]
          exact ⟨⟨pad, hpad, by simp⟩, pad', hpad', by simp⟩

theorem EndsInText.append (h : EndsInText acc) (front : List Char) : EndsInText (front ++ acc) := by
  obtain ⟨c, hc, hblank⟩ := h
  exact ⟨c, by simp [List.getLast?_append, Option.mem_def.1 hc], hblank⟩

theorem written_ne_nil (hblank : t.isBlank = false) (ht : t.EndsVisibly) (ts : List Token) :
    written (t :: ts) ≠ [] := by
  obtain ⟨c, hc, -⟩ := ht
  rw [written_cons_of_not_isBlank hblank]
  exact List.append_ne_nil_of_left_ne_nil (List.ne_nil_of_mem (List.mem_of_getLast? hc)) _

theorem endsInText_written (hts : ∀ t ∈ ts, t.isBlank = false → t.EndsVisibly)
    (hne : written ts ≠ []) : EndsInText (written ts) := by
  induction ts with
  | nil => exact absurd rfl hne
  | cons t ts ih =>
      obtain ⟨ht, hrest⟩ := List.forall_mem_cons.1 hts
      cases hblank : t.isBlank with
      | false =>
          rw [written_cons_of_not_isBlank hblank]
          by_cases hnil : written ts = []
          · rw [hnil, List.append_nil]
            exact ht hblank
          · exact (ih hrest hnil).append _
      | true =>
          obtain rfl := isBlank_iff.1 hblank
          cases ts with
          | nil => exact absurd rfl hne
          | cons u ts =>
              cases hnext : u.isBlank with
              | true =>
                  obtain rfl := isBlank_iff.1 hnext
                  rw [written_blank_blank] at hne ⊢
                  exact ih hrest hne
              | false =>
                  have hu := (List.forall_mem_cons.1 hrest).1 hnext
                  rw [written_blank_cons hnext, ← List.singleton_append]
                  exact (ih hrest (written_ne_nil hnext hu ts)).append _

theorem dropTrailing_append (h : EndsInText acc) {pad : List Char} (hpad : pad = [] ∨ pad = [' ']) :
    dropTrailing Unicode.isBlank (acc ++ pad) = acc := by
  obtain ⟨c, hc, hblank⟩ := h
  obtain ⟨front, rfl⟩ := List.getLast?_eq_some_iff.1 hc
  have hspace : Unicode.isBlank ' ' = true := by decide
  rcases hpad with rfl | rfl
  · simp [dropTrailing, hblank]
  · simp [dropTrailing, hblank, hspace]

theorem defaultText_blank_cons (ts : List Token) : defaultText (.blank :: ts) = defaultText ts :=
  rfl

theorem defaultText_eq (hts : ∀ t ∈ ts, t.isBlank = false → t.EndsVisibly) :
    defaultText ts = String.ofList (written (ts.dropWhile isBlank)) := by
  induction ts with
  | nil => rfl
  | cons t ts ih =>
      obtain ⟨ht, hrest⟩ := List.forall_mem_cons.1 hts
      cases hblank : t.isBlank with
      | true =>
          rw [List.dropWhile_cons_of_pos hblank, ← ih hrest, isBlank_iff.1 hblank,
            defaultText_blank_cons]
      | false =>
          have hstart : EndsInText t.text.toList := ht hblank
          obtain ⟨⟨pad, hpad, hfold⟩, -⟩ := foldl_addToken hrest hstart
          have hfirst : addToken [] t = t.text.toList := by
            rw [addToken_of_not_isBlank hblank, List.nil_append]
          rw [List.dropWhile_cons_of_neg (by simp [hblank]), defaultText, List.foldl_cons, hfirst,
            hfold, ← written_cons_of_not_isBlank hblank]
          exact congrArg String.ofList (dropTrailing_append
            (endsInText_written hts (written_ne_nil hblank (ht hblank) ts)) hpad)

end ProcedureHeader

end QueryShape
