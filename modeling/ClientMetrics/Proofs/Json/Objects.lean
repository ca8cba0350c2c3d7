import ClientMetrics.Proofs.Json.Values

/-!
# Reading objects that were written

A record is written member by member in the order of its schema, unset members left out.
`Fills fields members before after` says that the members are of this form, and that reading
them one after the other takes the record `before` to the record `after`. An object of members
that fill the blank record of a schema is read as the record they fill it to (`Fills.reads`).

Key results:
- `readMember_eq`: a member that the schema knows and has not seen yet makes its change.
- `readMembers_filled`: the members that are left are read up to the closing brace, provided that
  the required ones among the members before them were seen.
- `Fills.always`, `Fills.defaulted`, `Fills.optional`: one lemma for each kind of field.
-/

namespace ClientMetrics

namespace Json

namespace Schema

variable {σ α : Type}

/-! ## Members that fill a record -/

/-- The members, in the order of the fields, take a record to another. A field that is not
required may be left out. -/
inductive Fills : List (Field σ) → List (String × List Char) → σ → σ → Prop
  | done {record : σ} : Fills [] [] record record
  | given {field : Field σ} {fields : List (Field σ)} {members : List (String × List Char)}
      {text : List Char} {change : σ → σ} {before after : σ}
      (hread : Reads field.reader text change)
      (hrest : Fills fields members (change before) after) :
      Fills (field :: fields) ((field.name, text) :: members) before after
  | absent {field : Field σ} {fields : List (Field σ)} {members : List (String × List Char)}
      {before after : σ} (hrequired : field.required = false)
      (hrest : Fills fields members before after) : Fills (field :: fields) members before after

section Fields

variable {fields : List (Field σ)} {members : List (String × List Char)} {before after : σ}
  {r : Reader α} {name : String}

/-- A member that must be given is read and makes its change. -/
theorem Fills.always {set : α → σ → σ} {text : List Char} {a : α} (hread : Reads r text a)
    (hrest : Fills fields members (set a before) after) :
    Fills (Field.always name r set :: fields) ((name, text) :: members) before after :=
  .given (hread.map set) hrest

theorem Fills.defaulted {set : α → σ → σ} {text : List Char} {a : α} (hread : Reads r text a)
    (hrest : Fills fields members (set a before) after) :
    Fills (Field.defaulted name r set :: fields) ((name, text) :: members) before after :=
  .given (hread.map set) hrest

/-- A member that is written if it is set, and that leaves the record as it is if it is not. -/
theorem Fills.optional {set : Option α → σ → σ} {write : α → List Char} (value : Option α)
    (hread : ∀ a, Reads r (write a) a) (hunset : set none before = before)
    (hrest : Fills fields members (set value before) after) :
    Fills (Field.optional name r set :: fields) (memberIf name write value ++ members)
      before after := by
  cases value with
  | none =>
    rw [hunset] at hrest
    exact .absent rfl hrest
  | some a => exact .given ((hread a).optional.map set) hrest

end Fields

/-! ## Reading them -/

/-- A member as text. -/
def memberText (member : String × List Char) : List Char := quote member.1 ++ ':' :: member.2

/-- An object lists its members as texts with commas between them. -/
theorem object_eq (members : List (String × List Char)) :
    object members = '{' :: commaSeparated (members.map memberText) ++ ['}'] := rfl

/-- The name of a member, after its opening quote, is read back. -/
theorem readString_name (name : String) (rest : List Char) :
    readString (name.toList.flatMap escape ++ '"' :: ':' :: rest)
      = .ok (name.toList, ':' :: rest) :=
  readString_escape name.toList (':' :: rest)

theorem expectColon_cons (rest : List Char) : expectColon (':' :: rest) = .ok rest := by
  simp [expectColon, skipBlank_cons (show isBlank ':' = false by decide)]

/-- The text of a member after the quote that opens its name. -/
def openedText (member : String × List Char) : List Char :=
  member.1.toList.flatMap escape ++ '"' :: ':' :: member.2

/-- A member starts with the quote before its name. -/
theorem memberText_eq (member : String × List Char) :
    memberText member = '"' :: openedText member := by
  simp [memberText, openedText, quote]

/-- Behind the opening brace the first member follows at once. -/
theorem nextName?_first (member : String × List Char) (rest : List Char) :
    nextName? true (memberText member ++ rest) = .ok (some (openedText member ++ rest)) := by
  simp [nextName?, memberText_eq, skipBlank_cons (show isBlank '"' = false by decide)]

/-- Behind a member a comma leads to the next one. -/
theorem nextName?_comma (member : String × List Char) (rest : List Char) :
    nextName? false (',' :: (memberText member ++ rest))
      = .ok (some (openedText member ++ rest)) := by
  simp [nextName?, memberText_eq, skipBlank_cons (show isBlank ',' = false by decide),
    skipBlank_cons (show isBlank '"' = false by decide)]

/-- The brace ends the names of an object. -/
theorem nextName?_brace (first : Bool) (rest : List Char) :
    nextName? first ('}' :: rest) = .ok none := by
  simp [nextName?, skipBlank_cons (show isBlank '}' = false by decide)]

/-- The brace that ends the names is still to be read, and closes the object. -/
theorem closeObject_brace (rest : List Char) : closeObject ('}' :: rest) = .ok rest := by
  simp [closeObject, skipBlank_cons (show isBlank '}' = false by decide)]

variable {s : Schema σ}

/-- A member that the schema knows and that was not seen before makes its change. -/
theorem readMember_eq {field : Field σ} {seen : List String} {text rest : List Char}
    {change : σ → σ} (hfind : s.fields.find? (·.name = field.name) = some field)
    (hnew : field.name ∉ seen) (hread : Reads field.reader text change) (hrest : Boundary rest) :
    s.readMember seen field.name (':' :: (text ++ rest)) = .ok (change, rest) := by
  simp only [readMember, hfind, expectColon_cons, List.contains_iff_mem, if_neg hnew]
  exact hread.read_append rest hrest

/-- One member is read, and then the others. -/
theorem readMembers_given {field : Field σ} {seen : List String} {first : Bool} {record : σ}
    {start text rest : List Char} {change : σ → σ}
    (hstart : nextName? first start = .ok (some (openedText (field.name, text) ++ rest)))
    (hfind : s.fields.find? (·.name = field.name) = some field) (hnew : field.name ∉ seen)
    (hread : Reads field.reader text change) (hrest : Boundary rest) :
    s.readMembers record seen first start
      = s.readMembers (change record) (field.name :: seen) false rest := by
  have hname : readString (openedText (field.name, text) ++ rest)
      = .ok (field.name.toList, ':' :: (text ++ rest)) := by
    rw [← readString_name]
    simp [openedText]
  have hmember := readMember_eq hfind hnew hread hrest
  -- the branches of `readMembers` are left in turn by what its three readers return
  rw [readMembers]
  split
  · next heq => simp [hstart] at heq
  · next heq => simp [hstart] at heq
  · next opened heq =>
    rw [hstart] at heq
    simp only [Except.ok.injEq, Option.some.injEq] at heq
    subst heq
    split
    · next heq => simp [hname] at heq
    · next heq =>
      rw [hname] at heq
      simp only [Except.ok.injEq, Prod.mk.injEq] at heq
      obtain ⟨rfl, rfl⟩ := heq
      rw [String.ofList_toList]
      split
      · next heq => simp [hmember] at heq
      · next heq =>
        rw [hmember] at heq
        simp only [Except.ok.injEq, Prod.mk.injEq] at heq
        obtain ⟨rfl, rfl⟩ := heq
        rfl

/-- The closing brace ends an object none of whose required members is missing. -/
theorem readMembers_brace {seen : List String} {first : Bool} (record : σ) (rest : List Char)
    (hmissing : s.missing? seen = none) :
    s.readMembers record seen first ('}' :: rest) = .ok (record, rest) := by
  rw [readMembers, nextName?_brace]
  simp [hmissing, closeObject_brace]

/-- What follows a member is a comma or the closing brace. -/
theorem boundary_members (members : List (String × List Char)) (rest : List Char) :
    Boundary ((members.map memberText).flatMap (',' :: ·) ++ '}' :: rest) := by
  cases members <;> simp

/-- The position of a reader among the fields of a schema: those that are left have not been seen,
and a required one that is not left has. -/
structure Position (s : Schema σ) (left : List (Field σ)) (seen : List String) : Prop where
  found : ∀ f ∈ left, s.fields.find? (·.name = f.name) = some f
  nodup : (left.map (·.name)).Nodup
  unseen : ∀ f ∈ left, f.name ∉ seen
  complete : ∀ f ∈ s.fields, f.required = true → f ∈ left ∨ f.name ∈ seen

namespace Position

variable {left : List (Field σ)} {field : Field σ} {seen : List String}

/-- Where no field is left, no required member is missing. -/
theorem missing?_eq_none (h : Position s [] seen) : s.missing? seen = none := by
  rw [missing?, Option.map_eq_none_iff, List.find?_eq_none]
  intro f hf
  by_cases hr : f.required = true
  · have hmem : f.name ∈ seen := by simpa using h.complete f hf hr
    simp [hmem]
  · simp [hr]

/-- A field that was read has been seen. -/
theorem given (h : Position s (field :: left) seen) : Position s left (field.name :: seen) where
  found f hf := h.found f (List.mem_cons_of_mem _ hf)
  nodup := (List.nodup_cons.1 h.nodup).2
  unseen f hf := by
    -- the names of the fields are distinct
    have hne : f.name ≠ field.name := by
      intro heq
      exact (List.nodup_cons.1 h.nodup).1 (List.mem_map.2 ⟨f, hf, heq⟩)
    simp [hne, h.unseen f (List.mem_cons_of_mem _ hf)]
  complete f hf hr := by
    rcases h.complete f hf hr with hmem | hmem
    · rcases List.mem_cons.1 hmem with rfl | hmem
      · exact .inr List.mem_cons_self
      · exact .inl hmem
    · exact .inr (List.mem_cons_of_mem _ hmem)

/-- A field that is left out need not have been seen. -/
theorem absent (h : Position s (field :: left) seen) (hrequired : field.required = false) :
    Position s left seen where
  found f hf := h.found f (List.mem_cons_of_mem _ hf)
  nodup := (List.nodup_cons.1 h.nodup).2
  unseen f hf := h.unseen f (List.mem_cons_of_mem _ hf)
  complete f hf hr := by
    rcases h.complete f hf hr with hmem | hmem
    · rcases List.mem_cons.1 hmem with rfl | hmem
      · -- the field itself is not required, so nothing is said of it
        simp [hrequired] at hr
      · exact .inl hmem
    · exact .inr hmem

/-- Before the first member every field is left. -/
theorem start (h : (s.fields.map (·.name)).Nodup) : Position s s.fields [] where
  found f hf := by
    rw [List.find?_eq_some_iff_append]
    obtain ⟨before, after, hfields⟩ := List.append_of_mem hf
    refine ⟨by simp, before, after, hfields, ?_⟩
    -- no field before `f` has the same name, since the names are distinct
    intro g hg
    rw [hfields, List.map_append, List.map_cons, List.nodup_append] at h
    have hne := h.2.2 g.name (List.mem_map_of_mem hg) f.name List.mem_cons_self
    simpa using hne
  nodup := h
  unseen := by simp
  complete f hf _ := .inl hf

end Position

/-- The members that are left are read up to the closing brace. The first of them follows the
opening brace or a comma; that makes no difference to the others. -/
theorem readMembers_filled {left : List (Field σ)} {members : List (String × List Char)}
    {before after : σ} (h : Fills left members before after) {seen : List String}
    (hpos : Position s left seen) (rest : List Char) :
    s.readMembers before seen false ((members.map memberText).flatMap (',' :: ·) ++ '}' :: rest)
        = .ok (after, rest)
      ∧ s.readMembers before seen true (commaSeparated (members.map memberText) ++ '}' :: rest)
        = .ok (after, rest) := by
  -- the induction is on the members that are left; what was seen grows by the name of each
  induction h generalizing seen with
  | done =>
    have hmissing := hpos.missing?_eq_none
    exact ⟨readMembers_brace _ rest hmissing, readMembers_brace _ rest hmissing⟩
  | @given field left members text change before after hread _ ih =>
    have hfind := hpos.found field List.mem_cons_self
    have hnew := hpos.unseen field List.mem_cons_self
    have hbound := boundary_members members rest
    have hnext := (ih hpos.given).1
    constructor
    · rw [List.map_cons, List.flatMap_cons, List.append_assoc, List.cons_append,
        readMembers_given (nextName?_comma (field.name, text) _) hfind hnew hread hbound]
      exact hnext
    · rw [List.map_cons, commaSeparated_cons, List.append_assoc,
        readMembers_given (nextName?_first (field.name, text) _) hfind hnew hread hbound]
      exact hnext
  | absent hrequired _ ih => exact ih (hpos.absent hrequired)

/-- A written object is read as the record that its members fill the blank one to. -/
theorem Fills.reads {members : List (String × List Char)} {record : σ}
    (h : Fills s.fields members s.blank record) (hnodup : (s.fields.map (·.name)).Nodup) :
    Reads s.reader (object members) record where
  opening := ⟨'{', _, rfl, by decide⟩
  read_append rest _ := by
    simp only [reader, object_eq, List.cons_append, List.append_assoc, List.nil_append,
      skipBlank_cons (show isBlank '{' = false by decide)]
    exact (readMembers_filled h (.start hnodup) rest).2

end Schema

end Json

end ClientMetrics
