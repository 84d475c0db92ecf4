import Mathlib.Data.String.Basic
import QueryShape.Proofs.WrittenBack.Lexemes
import QueryShape.Token.Printer

/-!
Tokens that are written back and read again. The main statement says which of them come back: all
but those whose text holds what only an escape could have put there.
-/

namespace QueryShape.Token

open QueryShape.Identifier
open QueryShape.TempTable

variable {c : Char} {cs tail rest : List Char} {t : Token}

/-- The text of a token reads as that token. A word in brackets or quotes must not hold the closing
one, a national string no backslash, an escaped string no quote either, and a binary literal nothing
but hexadecimal digits. -/
def WritesBack : Token → Prop
  | word ⟨value, some d⟩ => d.closing ∉ value.toList
  | nationalString body => '\\' ∉ body.toList
  | escapedString body => '\'' ∉ body.toList ∧ '\\' ∉ body.toList
  | binary digits => digits.toList.all isHexDigit = true
  | _ => True

instance : DecidablePred WritesBack := by
  intro t
  unfold WritesBack
  split <;> infer_instance

theorem exists_next_of_mem {ts : List Token} (h : Spells cs ts) :
    ∀ t ∈ ts, ∃ c rest tail, next c rest = some (t, tail) := by
  induction h with
  | nil => exact List.forall_mem_nil _
  | cons hnext _ ih => exact List.forall_mem_cons.2 ⟨⟨_, _, _, hnext⟩, ih⟩

theorem tokens_eq_singleton_iff {sql : String} (hsql : sql.toList = c :: cs) :
    tokens sql = some [t] ↔ next c cs = some (t, []) := by
  rw [tokens_eq_some_iff, hsql]
  constructor
  · intro h
    cases h with
    | cons hnext hts =>
        cases hts
        exact hnext
  · exact fun hnext => .cons hnext .nil

theorem tokens_text_iff_of_body {make : String → Token} (hmake : Function.Injective make)
    {body : String} {found : Option (List Char × List Char)}
    (htext : (make body).text.toList = c :: cs)
    (hnext : next c cs = found.map fun r => (make (String.ofList r.1), r.2)) :
    tokens (make body).text = some [make body] ↔ found = some (body.toList, []) := by
  rw [tokens_eq_singleton_iff htext, hnext, Option.map_eq_some_iff]
  constructor
  · rintro ⟨⟨b, tail⟩, hfound, heq⟩
    obtain ⟨hb, rfl⟩ := Prod.mk.inj heq
    obtain rfl : b = body.toList := String.ofList_eq.1 (hmake hb)
    exact hfound
  · exact fun hfound => ⟨_, hfound, by rw [String.ofList_toList]⟩

theorem tokens_delimitedWord_iff {value : String} {d : Delimiter} :
    tokens (word ⟨value, some d⟩).text = some [.word ⟨value, some d⟩] ↔
      d.closing ∉ value.toList := by
  have htext : (word ⟨value, some d⟩).text.toList =
      d.opening :: (value.toList ++ d.closing :: []) := by
    simp [text, delimitedText]
  have hnext : next d.opening (value.toList ++ d.closing :: []) =
      (quoted d.closing (value.toList ++ d.closing :: [])).map fun r =>
        (.word ⟨String.ofList r.1, some d⟩, r.2) := by
    cases d <;> rfl
  have hmake : Function.Injective fun value => word ⟨value, some d⟩ := by
    intro a b h
    simpa using h
  exact (tokens_text_iff_of_body hmake htext hnext).trans (quoted_append_iff (by simp))

theorem tokens_nationalString_iff {body : String} :
    tokens (nationalString body).text = some [.nationalString body] ↔ '\\' ∉ body.toList := by
  have htext : (nationalString body).text.toList =
      'N' :: '\'' :: (doubled '\'' body.toList ++ '\'' :: []) := by
    simp [text, quotedText]
  have hnext : next 'N' ('\'' :: (doubled '\'' body.toList ++ '\'' :: [])) =
      (controlQuoted (doubled '\'' body.toList ++ '\'' :: [])).map fun r =>
        (.nationalString (String.ofList r.1), r.2) := rfl
  have hmake : Function.Injective nationalString := fun _ _ => nationalString.inj
  exact (tokens_text_iff_of_body hmake htext hnext).trans (controlQuoted_doubled_iff (by simp))

theorem tokens_escapedString_iff {body : String} :
    tokens (escapedString body).text = some [.escapedString body] ↔
      '\'' ∉ body.toList ∧ '\\' ∉ body.toList := by
  have htext : (escapedString body).text.toList =
      'E' :: '\'' :: (body.toList ++ '\'' :: []) := by
    simp [text]
  have hnext : next 'E' ('\'' :: (body.toList ++ '\'' :: [])) =
      (escapedQuoted (body.toList ++ '\'' :: [])).map fun r =>
        (.escapedString (String.ofList r.1), r.2) := rfl
  have hmake : Function.Injective escapedString := fun _ _ => escapedString.inj
  exact (tokens_text_iff_of_body hmake htext hnext).trans (escapedQuoted_append_iff (by simp))

theorem tokens_binary_iff {digits : String} :
    tokens (binary digits).text = some [.binary digits] ↔
      digits.toList.all isHexDigit = true := by
  have htext : (binary digits).text.toList = '0' :: 'x' :: digits.toList := by
    simp [text]
  have hnext : next '0' ('x' :: digits.toList) =
      some (.binary (String.ofList (digits.toList.takeWhile isHexDigit)),
        digits.toList.dropWhile isHexDigit) := rfl
  rw [tokens_eq_singleton_iff htext, hnext, List.all_eq_true]
  constructor
  · intro h
    obtain ⟨-, hdrop⟩ := Prod.mk.inj (Option.some.inj h)
    exact List.dropWhile_eq_nil_iff.1 hdrop
  · intro h
    rw [List.dropWhile_eq_nil_iff.2 h, List.takeWhile_eq_self_iff.2 h, String.ofList_toList]

theorem exists_text_eq_cons (h : next c cs = some (t, tail))
    (heq : c :: cs = t.text.toList ++ tail) :
    ∃ front, t.text.toList = c :: front ∧ cs = front ++ tail := by
  cases htext : t.text.toList with
  | nil =>
      have hlength := (next_suffix h).length_le
      rw [htext, List.nil_append] at heq
      rw [← heq, List.length_cons] at hlength
      omega
  | cons d front =>
      rw [htext, List.cons_append] at heq
      obtain ⟨rfl, rfl⟩ := List.cons.inj heq
      exact ⟨front, rfl, rfl⟩

theorem tokens_text_of_eq (h : next c cs = some (t, tail)) (ht : t ≠ .blank)
    (heq : c :: cs = t.text.toList ++ tail) : tokens t.text = some [t] := by
  obtain ⟨front, htext, rfl⟩ := exists_text_eq_cons h heq
  have hnext : next c (front ++ tail) = some (t, [] ++ tail) := h
  exact (tokens_eq_singleton_iff htext).2 (next_of_append hnext ht)

theorem writesBack_of_tokens_text (h : tokens t.text = some [t]) : t.WritesBack := by
  unfold WritesBack
  split
  · exact tokens_delimitedWord_iff.1 h
  · exact tokens_nationalString_iff.1 h
  · exact tokens_escapedString_iff.1 h
  · exact tokens_binary_iff.1 h
  · trivial

theorem tokens_text_of_isRespelled (h : t.IsRespelled) (hback : t.WritesBack) :
    tokens t.text = some [t] := by
  unfold IsRespelled at h
  split at h
  · exact tokens_delimitedWord_iff.2 hback
  · exact tokens_nationalString_iff.2 hback
  · exact tokens_escapedString_iff.2 hback
  · exact tokens_binary_iff.2 hback
  · obtain rfl := h
    have htext : (symbol "<>").text.toList = ['<', '>'] := rfl
    exact (tokens_eq_singleton_iff htext).2 rfl
  · exact h.elim

/-- A token that is read from a text is read again from what it is written back as exactly if it
needs no escape for that. -/
theorem tokens_text_iff (h : next c cs = some (t, tail)) (ht : t ≠ .blank) :
    tokens t.text = some [t] ↔ t.WritesBack := by
  constructor
  · exact writesBack_of_tokens_text
  intro hback
  rcases eq_of_visible (visible_of_next h ht).1 with hrespelled | heq
  · exact tokens_text_of_isRespelled hrespelled hback
  · exact tokens_text_of_eq h ht heq

end QueryShape.Token
