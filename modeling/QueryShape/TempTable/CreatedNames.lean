import QueryShape.Token.Placed

namespace QueryShape

/-- The tokens behind leading blanks. -/
def afterBlanks (ts : List Token) : List Token :=
  ts.dropWhile Token.isBlank

theorem length_afterBlanks_le (ts : List Token) : (afterBlanks ts).length ≤ ts.length :=
  (List.dropWhile_suffix _).length_le

namespace TempTable

/-- The name at the front of a text, with the hashes that are tokens of their own. Empty where no
name stands. -/
def leadingName (ts : List Token) : String × List Token :=
  let hashes := String.ofList ((ts.takeWhile (· == .hash)).map fun _ => '#')
  match ts.dropWhile (· == .hash) with
  | .word w :: rest => (hashes ++ w.value, rest)
  | rest => (hashes, rest)

theorem length_leadingName_le (ts : List Token) : (leadingName ts).2.length ≤ ts.length := by
  have h := (List.dropWhile_suffix (l := ts) (· == Token.hash)).length_le
  unfold leadingName
  dsimp only
  split
  · rename_i heq
    rw [heq] at h
    exact Nat.le_trans (Nat.le_succ _) h
  · exact h

/-- The names of the tables that tokens create. -/
def createdNames (ts : List Token) : List String :=
  match ts with
  | [] => []
  | t :: rest =>
      if t.isKeyword "CREATE" then
        match _h : afterBlanks rest with
        | [] => []
        | u :: after =>
            if u.isKeyword "TABLE" then
              (leadingName (afterBlanks after)).1 ::
                createdNames (leadingName (afterBlanks after)).2
            else
              createdNames (u :: after)
      else
        createdNames rest
termination_by ts.length
decreasing_by
  · have h1 := length_afterBlanks_le rest
    have h2 := length_afterBlanks_le after
    have h3 := length_leadingName_le (afterBlanks after)
    rw [_h] at h1
    simp only [List.length_cons] at h1 ⊢
    omega
  · have h1 := length_afterBlanks_le rest
    rw [_h] at h1
    simp only [List.length_cons] at h1 ⊢
    omega
  · simp

end TempTable

/-- The names that follow `CREATE TABLE` in a text. None if the text has no reading as tokens. -/
def createdTableNames (sql : String) : Option (List String) :=
  (tokens sql).map TempTable.createdNames

end QueryShape
