import ClientMetrics.Json.Skip

/-!
# Readers of typed values

A `Reader` takes a value of one type from the front of a text and returns what follows it. It
always consumes something, and says so in its type, which is why lists of values can be read to
their end. Where a text holds another type of value, that value is still read far enough to be
named, and its own problems come first.
-/

namespace ClientMetrics

namespace Json

/-- A way to read a value from the front of a text. -/
structure Reader (α : Type) where
  /-- The value and the text after it. -/
  read : List Char → Except Problem (α × List Char)
  length_lt : ∀ {cs rest : List Char} {a : α}, read cs = .ok (a, rest) → rest.length < cs.length

namespace Reader

variable {α β : Type}

/-- Reads a value and converts it. -/
def map (f : α → β) (r : Reader α) : Reader β where
  read cs :=
    match r.read cs with
    | .error p => .error p
    | .ok (a, rest) => .ok (f a, rest)
  length_lt := by
    intro cs rest b h
    split at h
    · simp at h
    · next hr =>
      simp only [Except.ok.injEq, Prod.mk.injEq] at h
      exact h.2 ▸ r.length_lt hr

end Reader

/-- Names the value at the front of a text without blanks before it. -/
def identify (cs : List Char) : Except Problem Found :=
  match cs with
  | [] => .error .endOfText
  | c :: rest =>
    if c = 'n' then (expectWord ['u', 'l', 'l'] rest).map fun _ => .null
    else if c = 't' then (expectWord ['r', 'u', 'e'] rest).map fun _ => .boolean true
    else if c = 'f' then (expectWord ['a', 'l', 's', 'e'] rest).map fun _ => .boolean false
    else if c = '-' ∨ c.isDigit then
      (readNumber cs).map fun
        | (.integer n, _) => .integer n
        | (.decimal x, _) => .decimal x
    else if c = '"' then (readString rest).map fun (s, _) => .string (String.ofList s)
    else if c = '[' then .ok .sequence
    else if c = '{' then .ok .map
    else .error .malformed

/-- The problem of a text that holds something else than what is expected. -/
def mismatch (expected : String) (cs : List Char) : Problem :=
  match identify cs with
  | .error p => p
  | .ok found => .wrongType found expected

/-- Reads a string. -/
def Reader.text : Reader String where
  read cs :=
    match skipBlank cs with
    | '"' :: rest =>
      match readString rest with
      | .error p => .error p
      | .ok (s, rest) => .ok (String.ofList s, rest)
    | other => .error (mismatch "a string" other)
  length_lt := by
    intro cs rest a h
    split at h
    · next hs =>
      split at h
      · simp at h
      · next hr =>
        simp only [Except.ok.injEq, Prod.mk.injEq] at h
        have := length_lt_of_skipBlank_eq_cons hs
        have := length_of_readString hr
        rw [← h.2]; omega
    · simp at h

/-- Reads `true` or `false`. -/
def Reader.boolean : Reader Bool where
  read cs :=
    match skipBlank cs with
    | 't' :: rest =>
      match expectWord ['r', 'u', 'e'] rest with
      | .error p => .error p
      | .ok rest => .ok (true, rest)
    | 'f' :: rest =>
      match expectWord ['a', 'l', 's', 'e'] rest with
      | .error p => .error p
      | .ok rest => .ok (false, rest)
    | other => .error (mismatch "a boolean" other)
  length_lt := by
    intro cs rest a h
    split at h
    · next hs =>
      split at h
      · simp at h
      · next hw =>
        simp only [Except.ok.injEq, Prod.mk.injEq] at h
        have := length_lt_of_skipBlank_eq_cons hs
        have := congrArg List.length (eq_append_of_expectWord hw)
        rw [List.length_append] at this
        rw [← h.2]; omega
    · next hs =>
      split at h
      · simp at h
      · next hw =>
        simp only [Except.ok.injEq, Prod.mk.injEq] at h
        have := length_lt_of_skipBlank_eq_cons hs
        have := congrArg List.length (eq_append_of_expectWord hw)
        rw [List.length_append] at this
        rw [← h.2]; omega
    · simp at h

/-- Reads a whole number below a bound. -/
def Reader.natural (bound : Nat) (expected : String) : Reader Nat where
  read cs :=
    match skipBlank cs with
    | [] => .error .endOfText
    | c :: rest =>
      if c = '-' ∨ c.isDigit then
        match readNumber (c :: rest) with
        | .error p => .error p
        | .ok (.integer n, rest) =>
          if 0 ≤ n ∧ n < bound then .ok (n.toNat, rest) else .error (.outOfRange n expected)
        | .ok (.decimal x, _) => .error (.wrongType (.decimal x) expected)
      else .error (mismatch expected (c :: rest))
  length_lt := by
    intro cs rest a h
    split at h
    · simp at h
    · next hs =>
      split at h
      · split at h
        · simp at h
        · next hr =>
          split at h
          · simp only [Except.ok.injEq, Prod.mk.injEq] at h
            have := length_lt_of_skipBlank_eq_cons hs
            have := length_of_readNumber hr
            rw [List.length_cons] at this
            rw [← h.2]; omega
          · simp at h
        · simp at h
      · simp at h

/-- Reads a number of 64 bits. -/
def Reader.word64 : Reader UInt64 := (Reader.natural UInt64.size "u64").map UInt64.ofNat

/-- Reads a number of 32 bits. -/
def Reader.word32 : Reader UInt32 := (Reader.natural UInt32.size "u32").map UInt32.ofNat

/-- Reads a value or `null`. -/
def Reader.optional {α : Type} (r : Reader α) : Reader (Option α) where
  read cs :=
    match skipBlank cs with
    | 'n' :: rest =>
      match expectWord ['u', 'l', 'l'] rest with
      | .error p => .error p
      | .ok rest => .ok (none, rest)
    | other =>
      match r.read other with
      | .error p => .error p
      | .ok (a, rest) => .ok (some a, rest)
  length_lt := by
    intro cs rest a h
    split at h
    · next hs =>
      split at h
      · simp at h
      · next hw =>
        simp only [Except.ok.injEq, Prod.mk.injEq] at h
        have := length_lt_of_skipBlank_eq_cons hs
        have := congrArg List.length (eq_append_of_expectWord hw)
        rw [List.length_append] at this
        rw [← h.2]; omega
    · split at h
      · simp at h
      · next hr =>
        simp only [Except.ok.injEq, Prod.mk.injEq] at h
        have := r.length_lt hr
        have := length_skipBlank_le cs
        rw [← h.2]; omega

/-- The text at which the next element of an array starts, or `none` where the array is closed. -/
def nextElement? (first : Bool) (cs : List Char) : Except Problem (Option (List Char)) :=
  match skipBlank cs with
  | [] => .error .endOfText
  | c :: rest =>
    if c = ']' then .ok none
    else if first then .ok (some (c :: rest))
    else if c = ',' then
      match skipBlank rest with
      | [] => .error .endOfText
      | d :: more => if d = ']' then .error .malformed else .ok (some (d :: more))
    else .error .malformed

/-- An element starts within the text that is left. -/
theorem length_of_nextElement? {first : Bool} {cs rest : List Char}
    (h : nextElement? first cs = .ok (some rest)) : rest.length ≤ cs.length := by
  unfold nextElement? at h
  split at h
  · simp at h
  · next hs =>
    have := length_lt_of_skipBlank_eq_cons hs
    split at h
    · simp at h
    split at h
    · simp only [Except.ok.injEq, Option.some.injEq] at h
      simp only [← h, List.length_cons]; omega
    split at h
    · split at h
      · simp at h
      · next ht =>
        have := length_lt_of_skipBlank_eq_cons ht
        split at h
        · simp at h
        · simp only [Except.ok.injEq, Option.some.injEq] at h
          simp only [← h, List.length_cons]; omega
    · simp at h

/-- Reads the bracket that closes an array. -/
def closeArray (cs : List Char) : Except Problem (List Char) :=
  match skipBlank cs with
  | [] => .error .endOfText
  | ']' :: rest => .ok rest
  | _ => .error .malformed

/-- The closing bracket is consumed. -/
theorem length_of_closeArray {cs rest : List Char} (h : closeArray cs = .ok rest) :
    rest.length < cs.length := by
  unfold closeArray at h
  split at h
  · simp at h
  · next hs =>
    simp only [Except.ok.injEq] at h
    exact h ▸ length_lt_of_skipBlank_eq_cons hs
  · simp at h

/-- Reads the elements of an array up to its closing bracket. -/
def readElements {α : Type} (r : Reader α) (first : Bool) (cs : List Char) :
    Except Problem (List α × List Char) :=
  match _h : nextElement? first cs with
  | .error p => .error p
  | .ok none =>
    match closeArray cs with
    | .error p => .error p
    | .ok rest => .ok ([], rest)
  | .ok (some start) =>
    match _hr : r.read start with
    | .error p => .error p
    | .ok (a, rest) =>
      match readElements r false rest with
      | .error p => .error p
      | .ok (as, final) => .ok (a :: as, final)
termination_by cs.length
decreasing_by
  have := length_of_nextElement? _h
  have := r.length_lt _hr
  omega

/-- The rest of an array has at least its closing bracket. -/
theorem length_of_readElements {α : Type} {r : Reader α} {first : Bool} {cs rest : List Char}
    {as : List α} (h : readElements r first cs = .ok (as, rest)) : rest.length < cs.length := by
  fun_induction readElements r first cs generalizing as rest with
  | case1 => simp at h
  | case2 => simp at h
  | case3 first cs _ rest' hc =>
    simp only [Except.ok.injEq, Prod.mk.injEq] at h
    exact h.2 ▸ length_of_closeArray hc
  | case4 => simp at h
  | case5 => simp at h
  | case6 first cs start hn a rest' hr as' final hf ih =>
    simp only [Except.ok.injEq, Prod.mk.injEq] at h
    have := ih hf
    have := length_of_nextElement? hn
    have := r.length_lt hr
    rw [← h.2]; omega

/-- Reads an array of values. -/
def Reader.array {α : Type} (r : Reader α) : Reader (List α) where
  read cs :=
    match skipBlank cs with
    | '[' :: rest => readElements r true rest
    | other => .error (mismatch "a sequence" other)
  length_lt := by
    intro cs rest a h
    split at h
    · next hs =>
      have := length_lt_of_skipBlank_eq_cons hs
      have := length_of_readElements h
      omega
    · simp at h

/-- Reads a text that holds one value and nothing else. -/
def Reader.decode {α : Type} (r : Reader α) (text : String) : Except Problem α :=
  match r.read text.toList with
  | .error p => .error p
  | .ok (a, rest) => if skipBlank rest = [] then .ok a else .error .malformed

end Json

end ClientMetrics
