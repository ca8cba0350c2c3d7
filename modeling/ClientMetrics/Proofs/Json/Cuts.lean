import ClientMetrics.Proofs.Json.Objects
import ClientMetrics.Proofs.Json.Typed

/-!
# Texts that end too early

What is left of a written text after its end was cut off has nothing wrong with it but that. So a
reader that goes through it from the left comes to its end and reports just this. There is one
exception: digits that are cut off between two of them are still a number, only another one. Then
it is what follows the number that is missing, since a number never stands at the end of an object.

Key results:
- `eq_natural_of_cut`: what is left of some digits is a smaller number.
- `runsOut_text`, `runsOut_boolean`, `spells_natural`: the values that are not made of others.
- `runsOut_array`, `Spelled.runsOut`: arrays and objects end too early wherever they are cut off, if
  their elements and members are of the kinds above or are arrays and objects themselves.
-/

namespace ClientMetrics

namespace Json

/-! ## Cuts -/

/-- What is left of a text that was cut off before its end. -/
inductive Cut : List Char → List Char → Prop
  | here {c : Char} {text : List Char} : Cut [] (c :: text)
  | later {c : Char} {left text : List Char} (h : Cut left text) : Cut (c :: left) (c :: text)

/-- Fewer characters than a text has are what is left of it after a cut. -/
theorem cut_take {text : List Char} {n : Nat} (h : n < text.length) : Cut (text.take n) text := by
  induction text generalizing n with
  | nil => simp at h
  | cons c text ih =>
    -- nothing is left of the text, or its first character is
    cases n with
    | zero => exact .here
    | succ n =>
      rw [List.length_cons] at h
      exact .later (ih (by omega))

namespace Cut

variable {left before after : List Char}

/-- The cut is before the end of the first part, or somewhere after it. -/
theorem of_append (h : Cut left (before ++ after)) :
    Cut left before ∨ ∃ more, left = before ++ more ∧ Cut more after := by
  -- with every character of the first part the cut is either right before it or further on
  induction before generalizing left with
  | nil => exact .inr ⟨left, rfl, h⟩
  | cons c before ih =>
    cases h with
    | here => exact .inl .here
    | later h =>
      rcases ih h with hbefore | ⟨more, rfl, hafter⟩
      · exact .inl (.later hbefore)
      · exact .inr ⟨more, rfl, hafter⟩

theorem eq_nil {c : Char} (h : Cut left [c]) : left = [] := by
  cases h with
  | here => rfl
  | later h => cases h

end Cut

/-- A boundary is made by the first character that follows, if there is one. -/
theorem Boundary.cut {left text : List Char} (h : Boundary text) (hcut : Cut left text) :
    Boundary left := by
  cases hcut with
  | here => exact boundary_nil
  | later _ => exact boundary_cons (h _ _ rfl)

/-! ## What a reader makes of them -/

variable {α β : Type} {r : Reader α} {text left : List Char}

/-- Wherever the text is cut off, the reader reports that it ended early. -/
def RunsOut (r : Reader α) (text : List Char) : Prop :=
  ∀ left, Cut left text → r.read left = .error .endOfText

/-- The reader finds a value in the text. Wherever the text is cut off, it comes to the end: it
reports that, or it takes all that is left for a value. -/
structure Spells (r : Reader α) (text : List Char) : Prop where
  reads : ∃ a, Reads r text a
  read_cut : ∀ left, Cut left text →
    r.read left = .error .endOfText ∨ ∃ a, r.read left = .ok (a, [])

/-- Where a reader always reports the early end, there is no cut that it takes for a value. -/
theorem RunsOut.spells (h : RunsOut r text) {a : α} (hreads : Reads r text a) : Spells r text where
  reads := ⟨a, hreads⟩
  read_cut left hcut := .inl (h left hcut)

/-- A reader that runs out of a text accepts the whole of it, and nothing that is less. -/
theorem RunsOut.decode_take (h : RunsOut r text) {a : α} (hreads : Reads r text a) (n : Nat) :
    r.decode (String.ofList (text.take n))
      = if n < text.length then .error .endOfText else .ok a := by
  by_cases hn : n < text.length
  · have hread := h _ (cut_take hn)
    simp [Reader.decode, hread, hn]
  · rw [if_neg hn, List.take_of_length_le (by omega), hreads.decode]

/-- What is made of a value does not change where the reader comes to the end. -/
theorem Spells.map (h : Spells r text) (f : α → β) : Spells (r.map f) text where
  reads := by
    obtain ⟨a, hreads⟩ := h.reads
    exact ⟨f a, hreads.map f⟩
  read_cut left hcut := by
    rcases h.read_cut left hcut with hread | ⟨a, hread⟩
    · exact .inl (by simp only [Reader.map, hread])
    · exact .inr ⟨f a, by simp only [Reader.map, hread]⟩

/-- What is left of a value starts as the value does, if anything is left. -/
theorem Spells.opening_cut (h : Spells r text) (hcut : Cut left text) :
    left = [] ∨ ∃ c more, left = c :: more ∧ isOpening c := by
  obtain ⟨a, hreads⟩ := h.reads
  obtain ⟨c, more, rfl, hc⟩ := hreads.opening
  cases hcut with
  | here => exact .inl rfl
  | later _ => exact .inr ⟨c, _, rfl, hc⟩

/-- Nothing that is left of a value is mistaken for a part of `null`. -/
theorem Spells.optional (h : Spells r text) : Spells r.optional text where
  reads := by
    obtain ⟨a, hreads⟩ := h.reads
    exact ⟨some a, hreads.optional⟩
  read_cut left hcut := by
    have hread := h.read_cut left hcut
    -- a value that starts as it should is not taken for `null`, however short it is
    rcases h.opening_cut hcut with rfl | ⟨c, more, rfl, hc⟩
    · rcases hread with hread | ⟨a, hread⟩
      · exact .inl (by simp [Reader.optional, skipBlank, hread])
      · exact .inr ⟨some a, by simp [Reader.optional, skipBlank, hread]⟩
    · rw [read_optional (isBlank_of_isOpening hc) (isOpening_ne hc (by decide))]
      rcases hread with hread | ⟨a, hread⟩
      · exact .inl (by rw [hread]; rfl)
      · exact .inr ⟨some a, by rw [hread]; rfl⟩

/-! ## Strings -/

/-- Digits take one byte each, so fewer than four of them are too few bytes. -/
theorem utf8Size_lower {n : Nat} (h : n < 16) : (Text.Hex.lower n).utf8Size = 1 := by
  revert h; revert n; decide

/-- The escape of a control character, cut off after the backslash. -/
theorem readEscape_cut_unit {n : Nat} (hn : n < 0x20)
    (h : Cut left ['u', '0', '0', Text.Hex.lower (n / 16), Text.Hex.lower (n % 16)]) :
    readEscape left = .error .endOfText := by
  have hsize := utf8Size_lower (n := n / 16) (by omega)
  have hzero : '0'.utf8Size = 1 := by decide
  -- what is left has at most three digits
  rcases h with _ | (_ | (_ | (_ | (_ | h)))) <;>
    simp [readEscape, readUnicodeEscape, readHex4, Text.byteCount, hsize, hzero]
  cases h

/-- The written form of one character, cut off. -/
theorem readString_cut_escape {c : Char} (h : Cut left (escape c)) :
    readString left = .error .endOfText := by
  have hnil : readString [] = .error .endOfText := by rw [readString]
  have hletter {d : Char} (h : Cut left ['\\', d]) : readString left = .error .endOfText := by
    cases h with
    | here => exact hnil
    | later h =>
      rw [h.eq_nil]
      exact readString_of_readEscape_error rfl
  unfold escape at h
  -- the quote, the backslash and the five control characters with an escape of one letter
  iterate 7
    split at h
    · exact hletter h
  split at h
  · next hcontrol =>
    cases h with
    | here => exact hnil
    | later h => exact readString_of_readEscape_error (readEscape_cut_unit hcontrol h)
  · rw [h.eq_nil]
    exact hnil

/-- A string literal after its opening quote, cut off. -/
theorem readString_cut {s : List Char} (h : Cut left (s.flatMap escape ++ ['"'])) :
    readString left = .error .endOfText := by
  induction s generalizing left with
  | nil =>
    rw [List.flatMap_nil, List.nil_append] at h
    rw [h.eq_nil, readString]
  | cons c s ih =>
    rw [List.flatMap_cons, List.append_assoc] at h
    -- the first character is cut off itself, or it is whole and the cut comes later
    rcases h.of_append with hc | ⟨more, rfl, hs⟩
    · exact readString_cut_escape hc
    · rw [readString_escape_append, ih hs]
      rfl

/-- A string ends too early wherever it is cut off. -/
theorem runsOut_text (s : String) : RunsOut .text (quote s) := by
  intro left h
  cases h with
  | here => rfl
  | later h =>
    simp only [Reader.text, skipBlank_cons (show isBlank '"' = false by decide), readString_cut h]

theorem spells_text (s : String) : Spells .text (quote s) := (runsOut_text s).spells (reads_text s)

/-! ## Truth values -/

/-- What is left of a word agrees with it up to the end of the text. -/
theorem expectWord_cut {word : List Char} (h : Cut left word) :
    expectWord word left = .error .endOfText := by
  induction h with
  | here => rfl
  | later _ ih => rw [expectWord, if_pos rfl, ih]

/-- A truth value ends too early wherever it is cut off. -/
theorem runsOut_boolean (b : Bool) : RunsOut .boolean (boolean b) := by
  intro left h
  cases b <;> cases h with
  | here => rfl
  | later h =>
    simp only [Reader.boolean, skipBlank_cons (show isBlank 't' = false by decide),
      skipBlank_cons (show isBlank 'f' = false by decide), expectWord_cut h]

theorem spells_boolean (b : Bool) : Spells .boolean (boolean b) :=
  (runsOut_boolean b).spells (reads_boolean b)

/-! ## Numbers -/

/-- What is left of the digits of a number are the digits of a number that is not greater. -/
theorem eq_natural_of_cut {n : Nat} (h : Cut left (natural n)) :
    left = [] ∨ ∃ m ≤ n, left = natural m := by
  induction n using Nat.strongRecOn generalizing left with
  | _ n ih =>
    rw [natural, Nat.toDigits_eq_if (by decide)] at h
    split at h
    · exact .inl h.eq_nil
    · next hn =>
      -- the cut is in the digits of a tenth of the number, or after the last of them
      rcases h.of_append with hinside | ⟨more, rfl, hlast⟩
      · rcases ih (n / 10) (by omega) hinside with hnil | ⟨m, hle, heq⟩
        · exact .inl hnil
        · exact .inr ⟨m, by omega, heq⟩
      · rw [hlast.eq_nil, List.append_nil]
        exact .inr ⟨n / 10, by omega, rfl⟩

/-- Digits spell a number: what is left of them is a smaller number, up to the end of the text. -/
theorem spells_natural {bound n : Nat} (expected : String) (hn : n < bound) (h : n ≤ maxWord) :
    Spells (.natural bound expected) (natural n) where
  reads := ⟨n, reads_natural expected hn h⟩
  read_cut left hcut := by
    -- what is left is empty, or it is a smaller number
    rcases eq_natural_of_cut hcut with rfl | ⟨m, hle, rfl⟩
    · exact .inl rfl
    · have hreads : Reads (.natural bound expected) (natural m) m :=
        reads_natural expected (by omega) (by omega)
      have hread := hreads.read_append [] boundary_nil
      rw [List.append_nil] at hread
      exact .inr ⟨m, hread⟩

theorem spells_word64 (n : UInt64) : Spells .word64 (word64 n) := by
  have hlt := n.toNat_lt_size
  exact (spells_natural "u64" hlt (by unfold maxWord; omega)).map UInt64.ofNat

theorem spells_word32 (n : UInt32) : Spells .word32 (word32 n) := by
  have hlt := n.toNat_lt_size
  have hsize : UInt32.size < UInt64.size := by decide
  exact (spells_natural "u32" hlt (by unfold maxWord; omega)).map UInt32.ofNat

/-! ## Arrays -/

/-- One step of reading the elements of an array. -/
theorem readElements_eq (first : Bool) (cs : List Char) : readElements r first cs =
    match nextElement? first cs with
    | .error p => .error p
    | .ok none => (closeArray cs).map fun rest => ([], rest)
    | .ok (some start) =>
      match r.read start with
      | .error p => .error p
      | .ok (a, rest) => (readElements r false rest).map fun (as, final) => (a :: as, final) := by
  rw [readElements]
  -- the definition carries proofs that the text gets shorter, which its branches do not need
  split
  · next h => simp only [h]
  · next h =>
    simp only [h]
    cases closeArray cs <;> rfl
  · next h =>
    simp only [h]
    split
    · next hread => simp only [hread]
    · next hread =>
      simp only [hread]
      split <;> simp_all [Except.map]

/-- An array is not over where the text is. -/
theorem readElements_nil (first : Bool) : readElements r first [] = .error .endOfText := by
  rw [readElements_eq]
  rfl

/-- What is left of an element ends too early, or there is nothing left to close the array. -/
theorem Spells.readElements_cut_element (h : Spells r text) (hcut : Cut left text) {first : Bool}
    {cs : List Char} (hstart : nextElement? first cs = .ok (some left)) :
    readElements r first cs = .error .endOfText := by
  rw [readElements_eq, hstart]
  rcases h.read_cut left hcut with hread | ⟨a, hread⟩
  · simp only [hread]
  · simp only [hread, readElements_nil]
    rfl

/-- An element that is cut off, as the first one and after a comma. -/
theorem Spells.readElements_cut (h : Spells r text) (hcut : Cut left text) :
    readElements r true left = .error .endOfText ∧
      readElements r false (',' :: left) = .error .endOfText := by
  rcases h.opening_cut hcut with rfl | ⟨c, more, rfl, hc⟩
  · -- nothing is left of the element, and what is missing is a value
    exact ⟨readElements_nil true, by rw [readElements_eq]; rfl⟩
  · have hblank := isBlank_of_isOpening hc
    have hclose : c ≠ ']' := isOpening_ne hc (by decide)
    constructor
    · exact h.readElements_cut_element hcut (by simp [nextElement?, skipBlank_cons hblank, hclose])
    · refine h.readElements_cut_element hcut ?_
      simp [nextElement?, skipBlank_cons (show isBlank ',' = false by decide),
        skipBlank_cons hblank, hclose]

/-- The elements after the first one, cut off in one of them or between two. -/
theorem readElements_cut_following {ts : List (List Char)} (h : ∀ t ∈ ts, Spells r t)
    (hcut : Cut left (ts.flatMap (',' :: ·) ++ [']'])) :
    readElements r false left = .error .endOfText := by
  induction ts generalizing left with
  | nil =>
    rw [List.flatMap_nil, List.nil_append] at hcut
    rw [hcut.eq_nil]
    exact readElements_nil false
  | cons t ts ih =>
    obtain ⟨ht, hts⟩ := List.forall_mem_cons.1 h
    rw [List.flatMap_cons, List.append_assoc] at hcut
    -- the cut is before the comma, in the element, or somewhere after it
    cases hcut with
    | here => exact readElements_nil false
    | later hcut =>
      rcases hcut.of_append with hinside | ⟨more, rfl, hafter⟩
      · exact (ht.readElements_cut hinside).2
      · obtain ⟨a, hreads⟩ := ht.reads
        have hbound := (boundary_elements ts []).cut hafter
        rw [hreads.readElements_append (hreads.nextElement?_comma more) hbound, ih hts hafter]
        rfl

/-- An array ends too early wherever it is cut off, if its elements spell values. -/
theorem runsOut_array {ts : List (List Char)} (h : ∀ t ∈ ts, Spells r t) :
    RunsOut r.array (list ts) := by
  intro left hcut
  cases hcut with
  | here => rfl
  | @later _ left _ hcut =>
    have hcut : Cut left (commaSeparated ts ++ [']']) := hcut
    simp only [Reader.array, skipBlank_cons (show isBlank '[' = false by decide)]
    cases ts with
    | nil =>
      rw [hcut.eq_nil]
      exact readElements_nil true
    | cons t ts =>
      -- the first element has no comma before it, and all others do
      obtain ⟨ht, hts⟩ := List.forall_mem_cons.1 h
      rw [commaSeparated_cons, List.append_assoc] at hcut
      rcases hcut.of_append with hinside | ⟨more, rfl, hafter⟩
      · exact (ht.readElements_cut hinside).1
      · obtain ⟨a, hreads⟩ := ht.reads
        have hbound := (boundary_elements ts []).cut hafter
        rw [hreads.readElements_append (hreads.nextElement?_first more) hbound,
          readElements_cut_following hts hafter]
        rfl

/-! ## Objects -/

namespace Schema

variable {σ : Type} {s : Schema σ} {field : Field σ} {fields : List (Field σ)}
  {members : List (String × List Char)} {name : String}

/-- The members, in the order of the fields, spell values for them. A field that is not required may
be left out. -/
inductive Spelled : List (Field σ) → List (String × List Char) → Prop
  | done : Spelled [] []
  | given {field : Field σ} {fields : List (Field σ)} {members : List (String × List Char)}
      {text : List Char} (hspells : Spells field.reader text) (hrest : Spelled fields members) :
      Spelled (field :: fields) ((field.name, text) :: members)
  | absent {field : Field σ} {fields : List (Field σ)} {members : List (String × List Char)}
      (hrequired : field.required = false) (hrest : Spelled fields members) :
      Spelled (field :: fields) members

/-- A required member that spells a value comes before the others. -/
theorem Spelled.always {set : α → σ → σ} (h : Spells r text) (hrest : Spelled fields members) :
    Spelled (Field.always name r set :: fields) ((name, text) :: members) :=
  .given (h.map set) hrest

theorem Spelled.defaulted {set : α → σ → σ} (h : Spells r text) (hrest : Spelled fields members) :
    Spelled (Field.defaulted name r set :: fields) ((name, text) :: members) :=
  .given (h.map set) hrest

/-- So does an optional one, which is written only if there is a value. -/
theorem Spelled.optional {set : Option α → σ → σ} {write : α → List Char} (value : Option α)
    (h : ∀ a, Spells r (write a)) (hrest : Spelled fields members) :
    Spelled (Field.optional name r set :: fields) (memberIf name write value ++ members) := by
  cases value with
  | none => exact .absent rfl hrest
  | some a => exact .given ((h a).optional.map set) hrest

/-- One step of reading the members of an object. -/
theorem readMembers_eq (record : σ) (seen : List String) (first : Bool) (cs : List Char) :
    s.readMembers record seen first cs =
    match nextName? first cs with
    | .error p => .error p
    | .ok none =>
      match s.missing? seen with
      | some name => .error (.missingField name)
      | none => (closeObject cs).map fun rest => (record, rest)
    | .ok (some start) =>
      match readString start with
      | .error p => .error p
      | .ok (name, rest) =>
        match s.readMember seen (String.ofList name) rest with
        | .error p => .error p
        | .ok (change, rest) =>
          s.readMembers (change record) (String.ofList name :: seen) false rest := by
  rw [readMembers]
  -- the definition carries proofs that the text gets shorter, which its branches do not need
  split
  · next h => simp only [h]
  · next h =>
    simp only [h]
    cases s.missing? seen with
    | some name => rfl
    | none => cases closeObject cs <;> rfl
  · next h =>
    simp only [h]
    split
    · next hs => simp only [hs]
    · next hs =>
      simp only [hs]
      split
      · next hm => simp only [hm]
      · next hm => simp only [hm]

/-- An object is not over where the text is. -/
theorem readMembers_nil (record : σ) (seen : List String) (first : Bool) :
    s.readMembers record seen first [] = .error .endOfText := by
  rw [readMembers_eq]
  rfl

/-- The value of a member, cut off. Behind digits the end of the text follows at once. -/
theorem readMember_cut {seen : List String}
    (hfind : s.fields.find? (·.name = field.name) = some field) (hnew : field.name ∉ seen)
    (h : Spells field.reader text) (hcut : Cut left (':' :: text)) :
    s.readMember seen field.name left = .error .endOfText ∨
      ∃ change, s.readMember seen field.name left = .ok (change, []) := by
  simp only [readMember, hfind, List.contains_iff_mem, if_neg hnew]
  cases hcut with
  | here => exact .inl rfl
  | later hcut =>
    simp only [expectColon_cons]
    exact h.read_cut _ hcut

/-- A member is cut off in its name, or after it. -/
theorem readMembers_cut_member {seen : List String} {first : Bool} {cs : List Char} (record : σ)
    (hstart : nextName? first cs = .ok (some left))
    (hfind : s.fields.find? (·.name = field.name) = some field) (hnew : field.name ∉ seen)
    (h : Spells field.reader text) (hcut : Cut left (openedText (field.name, text))) :
    s.readMembers record seen first cs = .error .endOfText := by
  -- the name with its quotes, and then the colon and the value
  have hopened : openedText (field.name, text)
      = (field.name.toList.flatMap escape ++ ['"']) ++ ':' :: text := by
    simp [openedText]
  rw [hopened] at hcut
  rw [readMembers_eq, hstart]
  rcases hcut.of_append with hname | ⟨more, rfl, hvalue⟩
  · simp only [readString_cut hname]
  · have hread := readString_escape field.name.toList more
    simp only [List.append_assoc, List.cons_append, List.nil_append, hread, String.ofList_toList]
    rcases readMember_cut hfind hnew h hvalue with hmember | ⟨change, hmember⟩
    · simp only [hmember]
    · simp only [hmember, readMembers_nil]

/-- A member with others after it, cut off in the member or after it. -/
theorem readMembers_cut_first {seen : List String} {first : Bool} {cs after : List Char}
    (record : σ) (hstart : nextName? first cs = .ok (some left))
    (hfind : s.fields.find? (·.name = field.name) = some field) (hnew : field.name ∉ seen)
    (h : Spells field.reader text) (hbound : Boundary after)
    (hafter : ∀ record more, Cut more after →
      s.readMembers record (field.name :: seen) false more = .error .endOfText)
    (hcut : Cut left (openedText (field.name, text) ++ after)) :
    s.readMembers record seen first cs = .error .endOfText := by
  rcases hcut.of_append with hinside | ⟨more, rfl, hmore⟩
  · exact readMembers_cut_member record hstart hfind hnew h hinside
  · -- the whole member is there, so it is read, and what comes after it is cut off
    obtain ⟨change, hreads⟩ := h.reads
    rw [readMembers_given hstart hfind hnew hreads (hbound.cut hmore)]
    exact hafter _ more hmore

/-- The members that are left, cut off in one of them or between two. The first of them follows the
opening brace or a comma. -/
theorem Spelled.readMembers_cut (h : Spelled fields members) {seen : List String} (record : σ)
    (hpos : Position s fields seen) :
    (∀ left, Cut left ((members.map memberText).flatMap (',' :: ·) ++ ['}']) →
      s.readMembers record seen false left = .error .endOfText) ∧
    ∀ left, Cut left (commaSeparated (members.map memberText) ++ ['}']) →
      s.readMembers record seen true left = .error .endOfText := by
  induction h generalizing seen record with
  | done =>
    constructor
    all_goals
      intro left hcut
      rw [hcut.eq_nil]
      exact readMembers_nil record seen _
  | absent hrequired _ ih => exact ih record (hpos.absent hrequired)
  | @given field fields members text hspells _ ih =>
    have hfind := hpos.found field List.mem_cons_self
    have hnew := hpos.unseen field List.mem_cons_self
    have hbound := boundary_members members []
    have hafter := fun record => (ih record hpos.given).1
    constructor
    · intro left hcut
      rw [List.map_cons, List.flatMap_cons, List.append_assoc, memberText_eq] at hcut
      -- the cut is before the comma, before the quote of the name, or in the member or later
      rcases hcut with _ | (_ | hcut)
      · exact readMembers_nil record seen false
      · rw [readMembers_eq]
        rfl
      · refine readMembers_cut_first record ?_ hfind hnew hspells hbound hafter hcut
        simp [nextName?, skipBlank_cons (show isBlank ',' = false by decide),
          skipBlank_cons (show isBlank '"' = false by decide)]
    · -- the first member of all has no comma before it
      intro left hcut
      rw [List.map_cons, commaSeparated_cons, List.append_assoc, memberText_eq] at hcut
      rcases hcut with _ | hcut
      · exact readMembers_nil record seen true
      · refine readMembers_cut_first record ?_ hfind hnew hspells hbound hafter hcut
        simp [nextName?, skipBlank_cons (show isBlank '"' = false by decide)]

/-- A written object ends too early wherever it is cut off. -/
theorem Spelled.runsOut (h : Spelled s.fields members) (hnodup : (s.fields.map (·.name)).Nodup) :
    RunsOut s.reader (object members) := by
  intro left hcut
  cases hcut with
  | here => rfl
  | later hcut =>
    simp only [reader, skipBlank_cons (show isBlank '{' = false by decide)]
    exact (h.readMembers_cut s.blank (.start hnodup)).2 _ hcut

end Schema

end Json

end ClientMetrics
