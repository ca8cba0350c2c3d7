import ClientMetrics.Json.Reader

/-!
# Records as objects and arrays

A `Schema` lists the members of a record: the name of each, how its value is read and what it does
to the record, and whether it may be absent. A record is read from an object with its members in
any order, or from an array of their values in the order of the schema. Members that the schema
does not know are passed over; one that it knows may occur once.

`object` and `list` write objects and arrays without blanks.
-/

namespace ClientMetrics

namespace Json

/-- Texts with commas between them. -/
def commaSeparated : List (List Char) → List Char
  | [] => []
  | [t] => t
  | t :: ts => t ++ ',' :: commaSeparated ts

/-- An object of the given members in order, values as text. -/
def object (members : List (String × List Char)) : List Char :=
  '{' :: commaSeparated (members.map fun (name, value) => quote name ++ ':' :: value) ++ ['}']

/-- An array of the given elements as text. -/
def list (elements : List (List Char)) : List Char :=
  '[' :: commaSeparated elements ++ [']']

/-- A truth value as text. -/
def boolean : Bool → List Char
  | true => ['t', 'r', 'u', 'e']
  | false => ['f', 'a', 'l', 's', 'e']

/-- One member if there is a value, none otherwise. -/
def memberIf {α : Type} (name : String) (write : α → List Char) :
    Option α → List (String × List Char)
  | some a => [(name, write a)]
  | none => []

/-- A member of a record: reading its value yields the change it makes to the record. -/
structure Field (σ : Type) where
  name : String
  reader : Reader (σ → σ)
  /-- The member must be present. -/
  required : Bool

/-- A member whose value must be given. -/
def Field.always {σ α : Type} (name : String) (r : Reader α) (set : α → σ → σ) : Field σ :=
  ⟨name, r.map set, true⟩

/-- A member that may be absent, and keeps the value of the blank record then. -/
def Field.defaulted {σ α : Type} (name : String) (r : Reader α) (set : α → σ → σ) : Field σ :=
  ⟨name, r.map set, false⟩

/-- A member that may be absent or `null`. -/
def Field.optional {σ α : Type} (name : String) (r : Reader α) (set : Option α → σ → σ) :
    Field σ :=
  ⟨name, r.optional.map set, false⟩

/-- How a record is read. -/
structure Schema (σ : Type) where
  /-- What messages call the record. -/
  title : String
  /-- The record none of whose members were given. -/
  blank : σ
  fields : List (Field σ)

namespace Schema

variable {σ : Type}

/-- The first required member that is not among the given names. -/
def missing? (s : Schema σ) (seen : List String) : Option String :=
  (s.fields.find? fun f => f.required && !seen.contains f.name).map (·.name)

/-- What messages say of an array that is too short. -/
def lengthTitle (s : Schema σ) : String :=
  s.title ++ " with " ++ toString s.fields.length ++ " elements"

/-- The text of the next name of an object after its quote, or `none` where the object is
closed. -/
def nextName? (first : Bool) (cs : List Char) : Except Problem (Option (List Char)) :=
  match skipBlank cs with
  | [] => .error .endOfText
  | c :: rest =>
    if c = '}' then .ok none
    else if first then if c = '"' then .ok (some rest) else .error .malformed
    else if c = ',' then
      match skipBlank rest with
      | [] => .error .endOfText
      | d :: more => if d = '"' then .ok (some more) else .error .malformed
    else .error .malformed

/-- The quote before a name is consumed. -/
theorem length_of_nextName? {first : Bool} {cs rest : List Char}
    (h : nextName? first cs = .ok (some rest)) : rest.length < cs.length := by
  unfold nextName? at h
  split at h
  · simp at h
  · next hs =>
    have := length_lt_of_skipBlank_eq_cons hs
    split at h
    · simp at h
    split at h
    · split at h
      · simp only [Except.ok.injEq, Option.some.injEq] at h
        exact h ▸ this
      · simp at h
    split at h
    · split at h
      · simp at h
      · next ht =>
        have := length_lt_of_skipBlank_eq_cons ht
        split at h
        · simp only [Except.ok.injEq, Option.some.injEq] at h
          rw [← h]; omega
        · simp at h
    · simp at h

/-- Reads the brace that closes an object. -/
def closeObject (cs : List Char) : Except Problem (List Char) :=
  match skipBlank cs with
  | [] => .error .endOfText
  | '}' :: rest => .ok rest
  | _ => .error .malformed

/-- The closing brace is consumed. -/
theorem length_of_closeObject {cs rest : List Char} (h : closeObject cs = .ok rest) :
    rest.length < cs.length := by
  unfold closeObject at h
  split at h
  · simp at h
  · next hs =>
    simp only [Except.ok.injEq] at h
    exact h ▸ length_lt_of_skipBlank_eq_cons hs
  · simp at h

/-- Reads a colon and the value of a member, and yields the change it makes. A name that is not
known changes nothing. -/
def readMember (s : Schema σ) (seen : List String) (name : String) (cs : List Char) :
    Except Problem ((σ → σ) × List Char) :=
  match s.fields.find? (·.name = name) with
  | none =>
    match expectColon cs with
    | .error p => .error p
    | .ok rest =>
      match skipValue rest with
      | .error p => .error p
      | .ok rest => .ok (id, rest)
  | some field =>
    if seen.contains name then .error (.duplicateField name)
    else
      match expectColon cs with
      | .error p => .error p
      | .ok rest => field.reader.read rest

/-- A member is consumed behind its name, known or not: at least its colon. -/
theorem length_of_readMember {s : Schema σ} {seen : List String} {name : String}
    {cs rest : List Char} {change : σ → σ}
    (h : s.readMember seen name cs = .ok (change, rest)) : rest.length < cs.length := by
  unfold readMember at h
  split at h
  · split at h
    · simp at h
    · next hc =>
      split at h
      · simp at h
      · next hv =>
        simp only [Except.ok.injEq, Prod.mk.injEq] at h
        have := length_of_expectColon hc
        have := length_of_skipValue hv
        rw [← h.2]; omega
  · next field _ =>
    split at h
    · simp at h
    · split at h
      · simp at h
      · next hc =>
        have := length_of_expectColon hc
        have := field.reader.length_lt h
        omega

/-- Reads the members of an object up to its closing brace. `seen` are the names so far. -/
def readMembers (s : Schema σ) (record : σ) (seen : List String) (first : Bool)
    (cs : List Char) : Except Problem (σ × List Char) :=
  match _h : nextName? first cs with
  | .error p => .error p
  | .ok none =>
    match s.missing? seen with
    | some name => .error (.missingField name)
    | none =>
      match closeObject cs with
      | .error p => .error p
      | .ok rest => .ok (record, rest)
  | .ok (some start) =>
    match _hs : readString start with
    | .error p => .error p
    | .ok (name, rest) =>
      match _hm : s.readMember seen (String.ofList name) rest with
      | .error p => .error p
      | .ok (change, rest) =>
        readMembers s (change record) (String.ofList name :: seen) false rest
termination_by cs.length
decreasing_by
  have := length_of_nextName? _h
  have := length_of_readString _hs
  have := length_of_readMember _hm
  omega

/-- The rest of an object has at least its closing brace. -/
theorem length_of_readMembers {s : Schema σ} {record result : σ} {seen : List String}
    {first : Bool} {cs rest : List Char}
    (h : s.readMembers record seen first cs = .ok (result, rest)) : rest.length < cs.length := by
  fun_induction readMembers s record seen first cs with
  | case1 => simp at h
  | case2 => simp at h
  | case3 => simp at h
  | case4 record seen first cs _ _ rest' hc =>
    simp only [Except.ok.injEq, Prod.mk.injEq] at h
    exact h.2 ▸ length_of_closeObject hc
  | case5 => simp at h
  | case6 => simp at h
  | case7 record seen first cs start hn name r₁ hs change r₂ hm ih =>
    have := ih h
    have := length_of_nextName? hn
    have := length_of_readString hs
    have := length_of_readMember hm
    omega

/-- Reads the values of the given members, one after the other. `index` is the number of members
before them. -/
def readValues (s : Schema σ) (record : σ) (index : Nat) (cs : List Char) :
    List (Field σ) → Except Problem (σ × List Char)
  | [] => .ok (record, cs)
  | field :: fields =>
    match nextElement? (index == 0) cs with
    | .error p => .error p
    | .ok none =>
      if field.required then .error (.wrongLength index s.lengthTitle)
      else readValues s record (index + 1) cs fields
    | .ok (some start) =>
      match field.reader.read start with
      | .error p => .error p
      | .ok (change, rest) => readValues s (change record) (index + 1) rest fields

/-- Nothing is put back between the values of an array. The array may be shorter than the schema. -/
theorem length_of_readValues {s : Schema σ} {fields : List (Field σ)} {record result : σ}
    {index : Nat} {cs rest : List Char}
    (h : s.readValues record index cs fields = .ok (result, rest)) :
    rest.length ≤ cs.length := by
  induction fields generalizing record index cs with
  | nil => simp only [readValues, Except.ok.injEq, Prod.mk.injEq] at h; simp [h.2]
  | cons field fields ih =>
    rw [readValues] at h
    split at h
    · simp at h
    · split at h
      · simp at h
      · exact ih h
    · next hn =>
      split at h
      · simp at h
      · next hr =>
        have := ih h
        have := length_of_nextElement? hn
        have := field.reader.length_lt hr
        omega

/-- Reads a record. -/
def reader (s : Schema σ) : Reader σ where
  read cs :=
    match skipBlank cs with
    | '{' :: rest => s.readMembers s.blank [] true rest
    | '[' :: rest =>
      match s.readValues s.blank 0 rest s.fields with
      | .error p => .error p
      | .ok (record, rest) =>
        match closeArray rest with
        | .error p => .error p
        | .ok rest => .ok (record, rest)
    | other => .error (mismatch s.title other)
  length_lt := by
    intro cs rest a h
    split at h
    · next hs =>
      have := length_lt_of_skipBlank_eq_cons hs
      have := length_of_readMembers h
      omega
    · next hs =>
      split at h
      · simp at h
      · next hv =>
        split at h
        · simp at h
        · next hc =>
          simp only [Except.ok.injEq, Prod.mk.injEq] at h
          have := length_lt_of_skipBlank_eq_cons hs
          have := length_of_readValues hv
          have := length_of_closeArray hc
          rw [← h.2]; omega
    · simp at h

end Schema

end Json

end ClientMetrics
