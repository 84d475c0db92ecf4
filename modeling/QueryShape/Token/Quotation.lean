namespace QueryShape.Token

def isHexDigit (c : Char) : Bool :=
  c.isDigit || ('a' ≤ c && c ≤ 'f') || ('A' ≤ c && c ≤ 'F')

def isOctalDigit (c : Char) : Bool :=
  '0' ≤ c && c ≤ '7'

def digitValue (c : Char) : Nat :=
  if c.isDigit then c.toNat - '0'.toNat else c.toLower.toNat - 'a'.toNat + 10

def valueOfDigits (base : Nat) (digits : List Char) : Nat :=
  digits.foldl (fun n c => n * base + digitValue c) 0

/-- Reads up to the closing mark. The mark written twice stands for itself. -/
def quoted (q : Char) : List Char → Option (List Char × List Char)
  | [] => none
  | c :: rest =>
      if c = q then
        match rest with
        | [] => some ([], [])
        | d :: after =>
            if d = q then
              (quoted q after).map fun (body, tail) => (q :: body, tail)
            else
              some ([], d :: after)
      else
        (quoted q rest).map fun (body, tail) => (c :: body, tail)

/-- The character that a backslash and `c` stand for in a national or binary string. -/
def controlChar (c : Char) : Char :=
  if c = '0' then '\x00'
  else if c = 'a' then '\x07'
  else if c = 'b' then '\x08'
  else if c = 'f' then '\x0c'
  else if c = 'n' then '\n'
  else if c = 'r' then '\r'
  else if c = 't' then '\t'
  else if c = 'Z' then '\x1a'
  else c

/-- Reads the body of a national or binary string, where a backslash also keeps a quote from
closing. -/
def controlQuoted : List Char → Option (List Char × List Char)
  | [] => none
  | c :: rest =>
      if c = '\'' then
        match rest with
        | [] => some ([], [])
        | d :: after =>
            if d = '\'' then
              (controlQuoted after).map fun (body, tail) => ('\'' :: body, tail)
            else
              some ([], d :: after)
      else if c = '\\' then
        match rest with
        | [] => none
        | d :: after =>
            (controlQuoted after).map fun (body, tail) => (controlChar d :: body, tail)
      else
        (controlQuoted rest).map fun (body, tail) => (c :: body, tail)

/-- The character of a code below 128, of which only the low eight bits count. -/
def lowChar (n : Nat) : Option Char :=
  if n % 256 < 128 then some (Char.ofNat (n % 256)) else none

/-- The character whose code the first `n` characters write in hexadecimal, a plus sign in front
being allowed. -/
def codePoint (n : Nat) (cs : List Char) : Option Char :=
  let written := cs.take n
  let digits := if written.head? = some '+' then written.tail else written
  let code := valueOfDigits 16 digits
  if written.length = n ∧ digits.all isHexDigit ∧ code.isValidChar then
    some (Char.ofNat code)
  else
    none

/-- The character an escape stands for and the number of characters it takes after its
backslash. -/
def escape : List Char → Option (Char × Nat)
  | [] => none
  | c :: rest =>
      if c = 'b' then some ('\x08', 1)
      else if c = 'f' then some ('\x0c', 1)
      else if c = 'n' then some ('\n', 1)
      else if c = 'r' then some ('\r', 1)
      else if c = 't' then some ('\t', 1)
      else if c = 'u' then (codePoint 4 rest).map (·, 5)
      else if c = 'U' then (codePoint 8 rest).map (·, 9)
      else if c = 'x' then
        let digits := (rest.takeWhile isHexDigit).take 2
        if digits = [] then some ('x', 1)
        else (lowChar (valueOfDigits 16 digits)).map (·, digits.length + 1)
      else if isOctalDigit c then
        let digits := (rest.takeWhile isOctalDigit).take 2
        (lowChar (valueOfDigits 8 (c :: digits))).map (·, digits.length + 1)
      else some (c, 1)

/-- Reads the body of a string with backslash escapes. No escape may stand for the null
character. -/
def escapedQuoted (cs : List Char) : Option (List Char × List Char) :=
  match cs with
  | [] => none
  | c :: rest =>
      if c = '\'' then
        match rest with
        | [] => some ([], [])
        | d :: after =>
            if d = '\'' then
              (escapedQuoted after).map fun (body, tail) => ('\'' :: body, tail)
            else
              some ([], d :: after)
      else if c = '\\' then
        match escape rest with
        | none => none
        | some (e, n) =>
            if e = '\x00' then none
            else (escapedQuoted (rest.drop n)).map fun (body, tail) => (e :: body, tail)
      else
        (escapedQuoted rest).map fun (body, tail) => (c :: body, tail)
termination_by cs.length

/-- Reads up to the first occurrence of a closing text. -/
def upTo (closing : List Char) : List Char → Option (List Char × List Char)
  | [] => if closing = [] then some ([], []) else none
  | c :: rest =>
      if closing.isPrefixOf (c :: rest) then
        some ([], (c :: rest).drop closing.length)
      else
        (upTo closing rest).map fun (body, tail) => (c :: body, tail)

theorem suffix_of_map_eq_some {x : Option (List Char × List Char)} {f : List Char → List Char}
    {body tail after cs : List Char} (h : (x.map fun (b, t) => (f b, t)) = some (body, tail))
    (ih : ∀ b, x = some (b, tail) → tail <:+ after) (hafter : after <:+ cs) : tail <:+ cs := by
  obtain ⟨⟨b, t⟩, hb, he⟩ := Option.map_eq_some_iff.1 h
  cases he
  exact (ih b hb).trans hafter

theorem quoted_suffix {q : Char} {cs body tail : List Char} (h : quoted q cs = some (body, tail)) :
    tail <:+ cs := by
  fun_induction quoted q cs generalizing body with
  | case1 => simp at h
  | case2 => simp_all
  | case3 after ih =>
      exact suffix_of_map_eq_some h (fun _ => ih)
        ((List.suffix_cons _ _).trans (List.suffix_cons _ _))
  | case4 d after =>
      cases h
      exact List.suffix_cons _ _
  | case5 c rest _ ih =>
      exact suffix_of_map_eq_some h (fun _ => ih) (List.suffix_cons _ _)

theorem controlQuoted_suffix {cs body tail : List Char}
    (h : controlQuoted cs = some (body, tail)) : tail <:+ cs := by
  fun_induction controlQuoted cs generalizing body with
  | case1 => simp at h
  | case2 => simp_all
  | case3 after ih =>
      exact suffix_of_map_eq_some h (fun _ => ih)
        ((List.suffix_cons _ _).trans (List.suffix_cons _ _))
  | case4 d after =>
      cases h
      exact List.suffix_cons _ _
  | case5 => simp at h
  | case6 d after _ ih =>
      exact suffix_of_map_eq_some h (fun _ => ih)
        ((List.suffix_cons _ _).trans (List.suffix_cons _ _))
  | case7 c rest _ _ ih =>
      exact suffix_of_map_eq_some h (fun _ => ih) (List.suffix_cons _ _)

theorem escapedQuoted_suffix {cs body tail : List Char}
    (h : escapedQuoted cs = some (body, tail)) : tail <:+ cs := by
  fun_induction escapedQuoted cs generalizing body with
  | case1 => simp at h
  | case2 => simp_all
  | case3 after ih =>
      exact suffix_of_map_eq_some h (fun _ => ih)
        ((List.suffix_cons _ _).trans (List.suffix_cons _ _))
  | case4 d after =>
      cases h
      exact List.suffix_cons _ _
  | case5 => simp at h
  | case6 => simp at h
  | case7 rest e n _ _ _ ih =>
      exact suffix_of_map_eq_some h (fun _ => ih)
        ((List.drop_suffix _ _).trans (List.suffix_cons _ _))
  | case8 c rest _ _ ih =>
      exact suffix_of_map_eq_some h (fun _ => ih) (List.suffix_cons _ _)

theorem upTo_suffix {closing cs body tail : List Char} (h : upTo closing cs = some (body, tail)) :
    tail <:+ cs := by
  fun_induction upTo closing cs generalizing body with
  | case1 => simp_all
  | case2 => simp at h
  | case3 =>
      cases h
      exact List.drop_suffix _ _
  | case4 c rest _ ih =>
      exact suffix_of_map_eq_some h (fun _ => ih) (List.suffix_cons _ _)

end QueryShape.Token
