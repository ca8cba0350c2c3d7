import ClientMetrics.Proofs.Json.Objects
import ClientMetrics.Proofs.Json.Typed

/-!
# Members in any order

An object is read member by member. A member whose name is known changes the record or is refused,
and any other is passed over. `gather` does the same with the members themselves, so that what an
object is read as depends on its members only and not on its text.

Key results:
- `toOption_readMembers`: one step of reading an object, without its problems.
- `readMember_written`, `readMembers_member`: one member, whatever form its text has.
- `decode_written`: an object is read as what its members amount to.
-/

namespace ClientMetrics

namespace Json

namespace Schema

variable {σ α : Type}

/-! ## What members amount to -/

/-- A member that a schema knows. -/
structure Known (σ : Type) where
  name : String
  required : Bool
  /-- The change that a value makes, or nothing if the value is refused. -/
  change? : Value → Option (σ → σ)

/-- What one member does to a record. `seen` are the names before it. -/
def step (known : List (Known σ)) (seen : List String) (name : String) (v : Value) :
    Option (σ → σ) :=
  match known.find? (·.name = name) with
  | none => some id
  | some k => if name ∈ seen then none else k.change? v

/-- The record after some members, or nothing if one is refused or missing. -/
def gather (known : List (Known σ)) (record : σ) (seen : List String) :
    List (String × Value) → Option σ
  | [] => if known.all fun k => !k.required || seen.contains k.name then some record else none
  | (name, v) :: ms =>
    (step known seen name v).bind fun change => gather known (change record) (name :: seen) ms

/-- The field of a schema is read as the known member says. -/
structure Means (f : Field σ) (k : Known σ) : Prop where
  name_eq : f.name = k.name
  required_eq : f.required = k.required
  takes : Takes f.reader k.change?

section Means

variable {r : Reader α} {view : Value → Option α} (name : String)

/-- A member that must be given, as `Field.always` reads it. -/
def Known.always (view : Value → Option α) (set : α → σ → σ) : Known σ :=
  ⟨name, true, fun v => (view v).map set⟩

/-- A member that may be absent, as `Field.defaulted` reads it. -/
def Known.defaulted (view : Value → Option α) (set : α → σ → σ) : Known σ :=
  ⟨name, false, fun v => (view v).map set⟩

/-- A member that may be absent or `null`, as `Field.optional` reads it. -/
def Known.optional (view : Value → Option α) (set : Option α → σ → σ) : Known σ :=
  ⟨name, false, fun v => (Value.optional? view v).map set⟩

/-- A field whose reader sees values as `view` does means the member with this view. -/
theorem means_always (h : Takes r view) (set : α → σ → σ) :
    Means (.always name r set) (.always name view set) :=
  ⟨rfl, rfl, h.map set⟩

theorem means_defaulted (h : Takes r view) (set : α → σ → σ) :
    Means (.defaulted name r set) (.defaulted name view set) :=
  ⟨rfl, rfl, h.map set⟩

theorem means_optional (h : Takes r view) (set : Option α → σ → σ) :
    Means (.optional name r set) (.optional name view set) :=
  ⟨rfl, rfl, h.optional.map set⟩

end Means

variable {s : Schema σ} {known : List (Known σ)} {fields : List (Field σ)}

/-- A name is known to both or to neither. -/
theorem find?_means (h : List.Forall₂ Means fields known) (name : String) :
    Option.Rel Means (fields.find? (·.name = name)) (known.find? (·.name = name)) := by
  induction h with
  | nil => exact .none
  | @cons f k fields known hmeans _ ih =>
    -- a field and the member that it means have the same name
    by_cases hname : k.name = name
    · have hfield : f.name = name := hmeans.name_eq.trans hname
      simpa [hname, hfield] using Option.Rel.some hmeans
    · have hfield : f.name ≠ name := by
        rw [hmeans.name_eq]
        exact hname
      simpa [hname, hfield] using ih

/-- The same names are required and seen on both sides. -/
theorem all_means (h : List.Forall₂ Means fields known) (seen : List String) :
    (fields.all fun f => !f.required || seen.contains f.name) =
      known.all fun k => !k.required || seen.contains k.name := by
  induction h with
  | nil => rfl
  | cons hmeans _ ih => rw [List.all_cons, List.all_cons, ih, hmeans.name_eq, hmeans.required_eq]

/-- Both miss a required member or neither does. -/
theorem missing?_means (h : List.Forall₂ Means s.fields known) (seen : List String) :
    s.missing? seen = none ↔ known.all fun k => !k.required || seen.contains k.name := by
  rw [← all_means h, missing?, Option.map_eq_none_iff, List.find?_eq_none, List.all_eq_true]
  simp [Decidable.imp_iff_not_or]

/-! ## Steps of reading -/

/-- One step of reading an object, without its problems. -/
theorem toOption_readMembers (record : σ) (seen : List String) (first : Bool) (cs : List Char) :
    (s.readMembers record seen first cs).toOption =
      (nextName? first cs).toOption.bind fun
      | none => if s.missing? seen = none then (closeObject cs).toOption.map (record, ·) else none
      | some start => (readString start).toOption.bind fun (name, rest) =>
        (s.readMember seen (String.ofList name) rest).toOption.bind fun (change, rest) =>
          (s.readMembers (change record) (String.ofList name :: seen) false rest).toOption := by
  rw [readMembers]
  -- the branches are those of `readMembers`, where each problem is none
  split
  · next hnext =>
    rw [hnext]
    rfl
  · next hnext =>
    rw [hnext]
    simp only [Except.toOption, Option.bind_some]
    cases s.missing? seen with
    | some name => rfl
    | none => cases closeObject cs <;> rfl
  · next start hnext =>
    rw [hnext]
    show _ = (readString start).toOption.bind _
    split
    · next hname =>
      rw [hname]
      rfl
    · next name rest hname =>
      rw [hname]
      show _ = (s.readMember seen (String.ofList name) rest).toOption.bind _
      split
      · next hmember =>
        rw [hmember]
        rfl
      · next hmember =>
        rw [hmember]
        rfl

/-- Blanks between members make no difference. -/
theorem readMembers_blanks {b : List Char} (h : Blanks b) (record : σ) (seen : List String)
    (first : Bool) (cs : List Char) :
    (s.readMembers record seen first (b ++ cs)).toOption =
      (s.readMembers record seen first cs).toOption := by
  have hnext : nextName? first (b ++ cs) = nextName? first cs := by
    simp only [nextName?, h.skipBlank_append]
  have hclose : closeObject (b ++ cs) = closeObject cs := by
    simp only [closeObject, h.skipBlank_append]
  rw [toOption_readMembers, toOption_readMembers, hnext, hclose]

/-- After a comma the next member is read as the first one was. -/
theorem readMembers_comma {cs more : List Char} (h : skipBlank cs = '"' :: more) (record : σ)
    (seen : List String) :
    (s.readMembers record seen false (',' :: cs)).toOption =
      (s.readMembers record seen true cs).toOption := by
  have hcomma : nextName? false (',' :: cs) = .ok (some more) := by
    simp [nextName?, skipBlank_cons (show isBlank ',' = false by decide), h]
  have hfirst : nextName? true cs = .ok (some more) := by
    simp [nextName?, h]
  rw [toOption_readMembers, toOption_readMembers, hcomma, hfirst]
  rfl

/-- Behind the closing brace the record is complete, unless a required member is missing. -/
theorem readMembers_closing (record : σ) (seen : List String) (first : Bool) (rest : List Char) :
    (s.readMembers record seen first ('}' :: rest)).toOption =
      if s.missing? seen = none then some (record, rest) else none := by
  rw [toOption_readMembers, nextName?_brace, closeObject_brace]
  rfl

/-! ## Members -/

/-- A value of no interest is passed over with the blanks around it. -/
theorem skipValue_spaced {v : Value} {t t' rest : List Char} (w : Writes (.value v) t)
    (spaced : Spaced t t') (hrest : Boundary rest) :
    ∃ after, Blanks after ∧ skipValue (t' ++ rest) = .ok (after ++ rest) := by
  obtain ⟨before, after, hbefore, hafter, rfl⟩ := spaced
  refine ⟨after, hafter, ?_⟩
  rw [List.append_assoc, List.append_assoc, skipValue, skipValueIn_blanks hbefore,
    w.skipped _ _ (hafter.boundary_append hrest), skipClosing]

/-- A member does what its value amounts to, whatever form the value has. -/
theorem readMember_written (h : List.Forall₂ Means s.fields known) (seen : List String)
    (name : String) {v : Value} {t t' colon rest : List Char} (w : Writes (.value v) t)
    (spaced : Spaced t t') (hcolon : expectColon colon = .ok (t' ++ rest))
    (hrest : Boundary rest) :
    ∃ after, Blanks after ∧ (s.readMember seen name colon).toOption =
      (step known seen name v).map (·, after ++ rest) := by
  -- the name is known to the schema and to `known`, or to neither
  have hfind := find?_means h name
  unfold readMember step
  cases hfield : s.fields.find? (·.name = name) with
  | none =>
    rw [hfield] at hfind
    obtain ⟨after, hafter, hskip⟩ := skipValue_spaced w spaced hrest
    cases hknown : known.find? (·.name = name) with
    | some k => rw [hknown] at hfind; cases hfind
    | none => exact ⟨after, hafter, by simp [hcolon, hskip, Except.toOption]⟩
  | some f =>
    rw [hfield] at hfind
    cases hknown : known.find? (·.name = name) with
    | none => rw [hknown] at hfind; cases hfind
    | some k =>
      rw [hknown] at hfind
      cases hfind with
      | some hmeans =>
        obtain ⟨after, hafter, hread⟩ := hmeans.takes.spaced w spaced hrest
        refine ⟨after, hafter, ?_⟩
        by_cases hseen : name ∈ seen
        · simp [hseen, Except.toOption]
        · simp [hseen, hcolon, hread]

/-- Members as an object lists them. -/
def named (ms : List (String × Value)) : List (Option String × Value) :=
  ms.map fun (name, v) => (some name, v)

/-- One member is read, and then the others. -/
theorem readMembers_member (h : List.Forall₂ Means s.fields known) (record : σ)
    (seen : List String) {name : String} {v : Value} {t rest : List Char}
    (w : Writes (.member (some name, v)) t) (hrest : Boundary rest) :
    (s.readMembers record seen true (t ++ rest)).toOption =
      (step known seen name v).bind fun change =>
        (s.readMembers (change record) (name :: seen) false rest).toOption := by
  -- the names of a text are options, so that the cases need a variable for the whole member
  generalize hm : (some name, v) = m at w
  cases w with
  | @member name' v' n n' t t' hn spaced hv spaced' =>
    cases hm
    obtain ⟨before, after, hbefore, hafter, rfl⟩ := spaced
    generalize hs : some name = s' at hn
    cases hn with
    | @pieces ps proper =>
      obtain ⟨cs, hcontent, rfl⟩ := Option.map_eq_some_iff.1 hs.symm
      have hstring := readString_pieces proper (after ++ ':' :: (t' ++ rest))
      obtain ⟨after', hafter', hmember⟩ := readMember_written h seen (String.ofList cs) hv spaced'
        (expectColon_spaced hafter (t' ++ rest)) hrest
      have hnext : nextName? true (before ++ '"' :: (ps.flatMap Piece.text ++ '"' ::
          (after ++ ':' :: (t' ++ rest)))) =
          .ok (some (ps.flatMap Piece.text ++ '"' :: (after ++ ':' :: (t' ++ rest)))) := by
        simp [nextName?, hbefore.skipBlank_append,
          skipBlank_cons (show isBlank '"' = false by decide)]
      simp only [List.append_assoc, List.cons_append, List.nil_append]
      rw [toOption_readMembers, hnext]
      show (readString _).toOption.bind _ = _
      rw [hstring, hcontent]
      show (s.readMember _ _ _).toOption.bind _ = _
      rw [hmember]
      cases step known seen (String.ofList cs) v with
      | none => rfl
      | some change => exact readMembers_blanks hafter' _ _ _ _

/-- The members of an object are read up to its closing brace. -/
theorem readMembers_written (h : List.Forall₂ Means s.fields known) (ms : List (String × Value))
    (record : σ) (seen : List String) {t : List Char} (w : Writes (.members (named ms)) t)
    (rest : List Char) :
    (s.readMembers record seen true (t ++ '}' :: rest)).toOption =
      (gather known record seen ms).map (·, rest) := by
  have hclosing (record : σ) (seen : List String) (first : Bool) :
      (s.readMembers record seen first ('}' :: rest)).toOption =
        (gather known record seen []).map (·, rest) := by
    rw [readMembers_closing, gather]
    by_cases hmissing : s.missing? seen = none
    · rw [if_pos hmissing, if_pos ((missing?_means h seen).1 hmissing)]
      rfl
    · rw [if_neg hmissing, if_neg (mt (missing?_means h seen).2 hmissing)]
      rfl
  -- the induction follows the members, of which the last has no comma behind it
  induction ms generalizing record seen t with
  | nil =>
    cases w with
    | noMembers blanks => rw [readMembers_blanks blanks, hclosing]
  | cons m ms ih =>
    obtain ⟨name, v⟩ := m
    rw [gather]
    cases ms with
    | nil =>
      cases w with
      | lastMember w =>
        rw [readMembers_member h record seen w (boundary_brace rest)]
        cases step known seen name v with
        | none => rfl
        | some change => exact hclosing _ _ _
    | cons m' ms =>
      cases w with
      | @moreMembers _ _ _ t ts w ws =>
        rw [List.append_assoc, List.cons_append,
          readMembers_member h record seen w (boundary_comma _)]
        cases step known seen name v with
        | none => rfl
        | some change =>
          -- a comma is followed by a member, for which the members left are read as the first were
          obtain ⟨more, hfirst⟩ := ws.first_members (List.cons_ne_nil _ _) ('}' :: rest)
          rw [Option.bind_some, readMembers_comma hfirst, ih _ _ ws]
          rfl

/-- After the value of a text only blanks may follow. -/
theorem toOption_decode (r : Reader α) (text : String) :
    (r.decode text).toOption = (r.read text.toList).toOption.bind fun (a, rest) =>
      if skipBlank rest = [] then some a else none := by
  unfold Reader.decode
  cases r.read text.toList with
  | error p => rfl
  | ok x =>
    -- only blanks may be left, or else the text is refused
    by_cases hend : skipBlank x.2 = []
    · simp [hend, Except.toOption]
    · simp [hend, Except.toOption]

/-- A text is an object with the given members. -/
def IsObject (ms : List (String × Value)) (text : String) : Prop :=
  ∃ t, Writes (.value (.object (named ms))) t ∧ Spaced t text.toList

/-- An object is read as what its members amount to. -/
theorem decode_written (h : List.Forall₂ Means s.fields known) {ms : List (String × Value)}
    {text : String} (w : IsObject ms text) :
    (s.reader.decode text).toOption = gather known s.blank [] ms := by
  obtain ⟨t, w, before, after, hbefore, hafter, htext⟩ := w
  cases w with
  | @object _ t w =>
    have hread : (s.reader.read text.toList).toOption =
        (gather known s.blank [] ms).map (·, after) := by
      rw [htext, ← readMembers_written h ms s.blank [] w after]
      simp [reader, hbefore.skipBlank_append, skipBlank_cons (show isBlank '{' = false by decide)]
    -- what was read is followed by blanks only
    have hend : skipBlank after = [] := by
      rw [← List.append_nil after, hafter.skipBlank_append]
      rfl
    rw [toOption_decode, hread]
    cases gather known s.blank [] ms with
    | none => rfl
    | some record => exact if_pos hend

end Schema

end Json

end ClientMetrics
