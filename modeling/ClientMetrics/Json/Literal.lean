import ClientMetrics.Json.Problem
import ClientMetrics.Text.Bytes
import ClientMetrics.Text.Hex

/-!
# String literals and words

`quote` writes a text as a string literal: the quote, the backslash and the characters below the
space are escaped, everything else stands for itself. `readString` reads a literal after its
opening quote. `skipString` passes over one whose content does not matter, and so does not look at
the characters that its hexadecimal escapes stand for.
-/

namespace ClientMetrics

namespace Json

/-- A character inside a string literal. -/
def escape (c : Char) : List Char :=
  if c = '"' then ['\\', '"']
  else if c = '\\' then ['\\', '\\']
  else if c = '\x08' then ['\\', 'b']
  else if c = '\t' then ['\\', 't']
  else if c = '\n' then ['\\', 'n']
  else if c = '\x0c' then ['\\', 'f']
  else if c = '\r' then ['\\', 'r']
  else if c.toNat < 0x20 then
    ['\\', 'u', '0', '0', Text.Hex.lower (c.toNat / 16), Text.Hex.lower (c.toNat % 16)]
  else [c]

/-- A text as a string literal. -/
def quote (s : String) : List Char :=
  '"' :: s.toList.flatMap escape ++ ['"']

/-- Reads four hexadecimal digits. Fewer than four bytes are an early end, whatever they hold. -/
def readHex4 (cs : List Char) : Except Problem (Nat × List Char) :=
  match cs with
  | a :: b :: c :: d :: rest =>
    match Text.Hex.value? a, Text.Hex.value? b, Text.Hex.value? c, Text.Hex.value? d with
    | some a, some b, some c, some d => .ok (((a * 16 + b) * 16 + c) * 16 + d, rest)
    | _, _, _, _ => .error .malformed
  | _ => .error (if Text.byteCount cs < 4 then .endOfText else .malformed)

/-- Four digits are consumed. -/
theorem length_of_readHex4 {cs rest : List Char} {n : Nat} (h : readHex4 cs = .ok (n, rest)) :
    rest.length < cs.length := by
  unfold readHex4 at h
  split at h
  · split at h
    · simp only [Except.ok.injEq, Prod.mk.injEq] at h
      obtain ⟨-, rfl⟩ := h
      simp only [List.length_cons]; omega
    · simp at h
  · simp at h

/-- Code units that announce the second half of a pair. -/
def isHighSurrogate (n : Nat) : Bool := 0xD800 ≤ n && n ≤ 0xDBFF

/-- Code units that are the second half of a pair. -/
def isLowSurrogate (n : Nat) : Bool := 0xDC00 ≤ n && n ≤ 0xDFFF

/-- The character that a pair of code units stands for. -/
def pairedChar (high low : Nat) : Char :=
  Char.ofNat ((high - 0xD800) * 0x400 + (low - 0xDC00) + 0x10000)

/-- Reads what follows `\u`: one code unit, or a pair of them written one after the other. -/
def readUnicodeEscape (cs : List Char) : Except Problem (Char × List Char) :=
  match readHex4 cs with
  | .error p => .error p
  | .ok (unit, rest) =>
    if isLowSurrogate unit then .error .malformed
    else if isHighSurrogate unit then
      match rest with
      | [] => .error .endOfText
      | '\\' :: [] => .error .endOfText
      | '\\' :: 'u' :: more =>
        match readHex4 more with
        | .error p => .error p
        | .ok (second, final) =>
          if isLowSurrogate second then .ok (pairedChar unit second, final)
          else .error .malformed
      | _ => .error .malformed
    else .ok (Char.ofNat unit, rest)

/-- The digits of one code unit are consumed, or those of a pair. -/
theorem length_of_readUnicodeEscape {cs rest : List Char} {c : Char}
    (h : readUnicodeEscape cs = .ok (c, rest)) : rest.length < cs.length := by
  unfold readUnicodeEscape at h
  split at h
  · simp at h
  · next unit r hr =>
    have := length_of_readHex4 hr
    split at h
    · simp at h
    · split at h
      · split at h
        · simp at h
        · simp at h
        · split at h
          · simp at h
          · next hf =>
            have := length_of_readHex4 hf
            split at h
            · simp only [Except.ok.injEq, Prod.mk.injEq] at h
              obtain ⟨-, rfl⟩ := h
              simp only [List.length_cons] at *; omega
            · simp at h
        · simp at h
      · simp only [Except.ok.injEq, Prod.mk.injEq] at h
        obtain ⟨-, rfl⟩ := h
        exact this

/-- The character that a one-letter escape stands for. -/
def shortEscape? : Char → Option Char
  | '"' => some '"'
  | '\\' => some '\\'
  | '/' => some '/'
  | 'b' => some '\x08'
  | 'f' => some '\x0c'
  | 'n' => some '\n'
  | 'r' => some '\r'
  | 't' => some '\t'
  | _ => none

/-- Reads what follows a backslash. -/
def readEscape (cs : List Char) : Except Problem (Char × List Char) :=
  match cs with
  | [] => .error .endOfText
  | 'u' :: rest => readUnicodeEscape rest
  | c :: rest =>
    match shortEscape? c with
    | some c => .ok (c, rest)
    | none => .error .malformed

/-- What follows a backslash is consumed, at least one letter. -/
theorem length_of_readEscape {cs rest : List Char} {c : Char}
    (h : readEscape cs = .ok (c, rest)) : rest.length < cs.length := by
  unfold readEscape at h
  split at h
  · simp at h
  · have := length_of_readUnicodeEscape h
    simp only [List.length_cons]; omega
  · split at h
    · simp only [Except.ok.injEq, Prod.mk.injEq] at h
      obtain ⟨-, rfl⟩ := h
      simp
    · simp at h

/-- Reads the rest of a string literal after its opening quote. -/
def readString (cs : List Char) : Except Problem (List Char × List Char) :=
  match cs with
  | [] => .error .endOfText
  | '"' :: rest => .ok ([], rest)
  | '\\' :: rest =>
    match _h : readEscape rest with
    | .error p => .error p
    | .ok (c, more) =>
      match readString more with
      | .error p => .error p
      | .ok (s, final) => .ok (c :: s, final)
  | c :: rest =>
    if c.toNat < 0x20 then .error .malformed
    else
      match readString rest with
      | .error p => .error p
      | .ok (s, final) => .ok (c :: s, final)
termination_by cs.length
decreasing_by
  · have := length_of_readEscape _h
    simp only [List.length_cons]; omega
  · simp

/-- The rest of a literal has at least its closing quote. -/
theorem length_of_readString {cs rest s : List Char} (h : readString cs = .ok (s, rest)) :
    rest.length < cs.length := by
  fun_induction readString cs generalizing s with
  | case1 => simp at h
  | case2 => simp only [Except.ok.injEq, Prod.mk.injEq] at h; simp [← h.2]
  | case3 => simp at h
  | case4 => simp at h
  | case5 r c more hr s' final hs ih =>
    simp only [Except.ok.injEq, Prod.mk.injEq] at h
    obtain ⟨-, rfl⟩ := h
    have := ih hs
    have := length_of_readEscape hr
    simp only [List.length_cons]; omega
  | case6 => simp at h
  | case7 => simp at h
  | case8 c r _ _ _ s' final hs ih =>
    simp only [Except.ok.injEq, Prod.mk.injEq] at h
    obtain ⟨-, rfl⟩ := h
    have := ih hs
    simp only [List.length_cons]; omega

/-- Passes over what follows a backslash. -/
def skipEscape (cs : List Char) : Except Problem (List Char) :=
  match cs with
  | [] => .error .endOfText
  | 'u' :: rest => (readHex4 rest).map (·.2)
  | c :: rest => if (shortEscape? c).isSome then .ok rest else .error .malformed

/-- An escape that is passed over has at least one letter. -/
theorem length_of_skipEscape {cs rest : List Char} (h : skipEscape cs = .ok rest) :
    rest.length < cs.length := by
  unfold skipEscape at h
  split at h
  · simp at h
  · next r =>
    cases hr : readHex4 r with
    | error p => simp [hr, Except.map] at h
    | ok x =>
      simp only [hr, Except.map, Except.ok.injEq] at h
      have := length_of_readHex4 hr
      simp only [← h, List.length_cons]; omega
  · split at h
    · simp only [Except.ok.injEq] at h
      simp [h]
    · simp at h

/-- Passes over the rest of a string literal after its opening quote. -/
def skipString (cs : List Char) : Except Problem (List Char) :=
  match cs with
  | [] => .error .endOfText
  | '"' :: rest => .ok rest
  | '\\' :: rest =>
    match _h : skipEscape rest with
    | .error p => .error p
    | .ok more => skipString more
  | c :: rest => if c.toNat < 0x20 then .error .malformed else skipString rest
termination_by cs.length
decreasing_by
  · have := length_of_skipEscape _h
    simp only [List.length_cons]; omega
  · simp

/-- A literal that is passed over has at least its closing quote. -/
theorem length_of_skipString {cs rest : List Char} (h : skipString cs = .ok rest) :
    rest.length < cs.length := by
  fun_induction skipString cs with
  | case1 => simp at h
  | case2 => simp only [Except.ok.injEq] at h; simp [h]
  | case3 => simp at h
  | case4 r more hr ih =>
    have := ih h
    have := length_of_skipEscape hr
    simp only [List.length_cons]; omega
  | case5 => simp at h
  | case6 c r _ _ _ ih =>
    have := ih h
    simp only [List.length_cons]; omega

/-- Reads the given letters. -/
def expectWord : List Char → List Char → Except Problem (List Char)
  | [], cs => .ok cs
  | _ :: _, [] => .error .endOfText
  | w :: word, c :: cs => if c = w then expectWord word cs else .error .malformed

/-- The letters that were read stand at the front of the text. -/
theorem eq_append_of_expectWord {word cs rest : List Char} (h : expectWord word cs = .ok rest) :
    cs = word ++ rest := by
  induction word generalizing cs with
  | nil => simpa [expectWord] using h
  | cons w word ih =>
    cases cs with
    | nil => simp [expectWord] at h
    | cons c cs =>
      simp only [expectWord] at h
      split at h
      · next hc => simp [hc, ih h]
      · simp at h

end Json

end ClientMetrics
