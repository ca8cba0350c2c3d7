import ClientMetrics.Impression.Json
import ClientMetrics.Proofs.Json.Members

/-!
# Which objects are records

An object is read as a record whatever the order of its members. No known name may occur twice,
every known member must have a value of its type, and the identifier must be there. Members of
other names do not matter, however many there are and whatever they hold.

Key results:
- `Acceptable`, `ofMembers`: the objects that are records, and the record that each of them is.
- `gather_eq_some_iff`: reading the members that are left, given those that were read.
- `ofJson_members`: any text of an object is read as that record, and refused if there is none.
-/

namespace ClientMetrics

namespace Impression

open Json (Reader Schema Value takes_boolean takes_text takes_word32 takes_word64)
open Json.Schema (Known gather means_always means_defaulted means_optional step)

/-! ## Records as members -/

/-- The types of the members of a record. -/
inductive MemberType where
  | text
  | flag
  | optionalText
  | optionalWord64
  | optionalWord32
  deriving DecidableEq

/-- The values of a type. An optional member may be `null`, a flag may not. -/
def MemberType.admits : MemberType → Value → Bool
  | text, v => v.text?.isSome
  | flag, v => v.boolean?.isSome
  | optionalText, v => v.isNull || v.text?.isSome
  | optionalWord64, v => v.isNull || v.word64?.isSome
  | optionalWord32, v => v.isNull || v.word32?.isSome

/-- The members of a record, each with its type. -/
def types : List (String × MemberType) := [
  ("impressionId", .text),
  ("requestGroupId", .optionalText),
  ("cdbCallStartTimestamp", .optionalWord64),
  ("cdbCallEndTimestamp", .optionalWord64),
  ("cdbCallTimeoutTimestamp", .optionalWord64),
  ("elapsedTimestamp", .optionalWord64),
  ("clickTimestamp", .optionalWord64),
  ("errorCode", .optionalWord32),
  ("cachedBidUsed", .flag),
  ("readyToSend", .flag),
  ("profileId", .optionalWord32),
  ("zoneId", .optionalWord32)]

/-- No known name occurs twice, and every known member has a value of its type. -/
structure WellTyped (ms : List (String × Value)) : Prop where
  once : ∀ name type, types.lookup name = some type → (ms.map (·.1)).count name ≤ 1
  admitted : ∀ name type, types.lookup name = some type → ∀ v, (name, v) ∈ ms → type.admits v

/-- The members are those of a record. -/
structure Acceptable (ms : List (String × Value)) : Prop extends WellTyped ms where
  identified : ∃ id, ("impressionId", Value.string (some id)) ∈ ms

/-- The record with the given members. What is absent or `null` is unset, and a flag that is absent
is down. -/
def ofMembers (ms : List (String × Value)) : Impression where
  id := ((ms.lookup "impressionId").bind Value.text?).getD ""
  requestGroup := (ms.lookup "requestGroupId").bind Value.text?
  callStart := (ms.lookup "cdbCallStartTimestamp").bind Value.word64?
  callEnd := (ms.lookup "cdbCallEndTimestamp").bind Value.word64?
  callTimeout := (ms.lookup "cdbCallTimeoutTimestamp").bind Value.word64?
  shown := (ms.lookup "elapsedTimestamp").bind Value.word64?
  clicked := (ms.lookup "clickTimestamp").bind Value.word64?
  errorCode := (ms.lookup "errorCode").bind Value.word32?
  cachedBid := ((ms.lookup "cachedBidUsed").bind Value.boolean?).getD false
  ready := ((ms.lookup "readyToSend").bind Value.boolean?).getD false
  profile := (ms.lookup "profileId").bind Value.word32?
  zone := (ms.lookup "zoneId").bind Value.word32?

/-! ## One member -/

/-- What the members do to a record that is read. -/
def known : List (Known Impression) := [
  .always "impressionId" Value.text? fun id i => { i with id },
  .optional "requestGroupId" Value.text? fun requestGroup i => { i with requestGroup },
  .optional "cdbCallStartTimestamp" Value.word64? fun callStart i => { i with callStart },
  .optional "cdbCallEndTimestamp" Value.word64? fun callEnd i => { i with callEnd },
  .optional "cdbCallTimeoutTimestamp" Value.word64? fun callTimeout i => { i with callTimeout },
  .optional "elapsedTimestamp" Value.word64? fun shown i => { i with shown },
  .optional "clickTimestamp" Value.word64? fun clicked i => { i with clicked },
  .optional "errorCode" Value.word32? fun errorCode i => { i with errorCode },
  .defaulted "cachedBidUsed" Value.boolean? fun cachedBid i => { i with cachedBid },
  .defaulted "readyToSend" Value.boolean? fun ready i => { i with ready },
  .optional "profileId" Value.word32? fun profile i => { i with profile },
  .optional "zoneId" Value.word32? fun zone i => { i with zone }]

/-- This is what the members of the schema do. -/
theorem means_known : List.Forall₂ Schema.Means schema.fields known :=
  .cons (means_always _ takes_text _) <|
  .cons (means_optional _ takes_text _) <|
  .cons (means_optional _ takes_word64 _) <|
  .cons (means_optional _ takes_word64 _) <|
  .cons (means_optional _ takes_word64 _) <|
  .cons (means_optional _ takes_word64 _) <|
  .cons (means_optional _ takes_word64 _) <|
  .cons (means_optional _ takes_word32 _) <|
  .cons (means_defaulted _ takes_boolean _) <|
  .cons (means_defaulted _ takes_boolean _) <|
  .cons (means_optional _ takes_word32 _) <|
  .cons (means_optional _ takes_word32 _) .nil

variable {done ms ms' : List (String × Value)} {name : String} {v : Value}

/-- A name with a type is one of the members of a record. -/
theorem mem_types {type : MemberType} (h : types.lookup name = some type) :
    (name, type) ∈ types := by
  obtain ⟨before, after, htypes, -⟩ := List.lookup_eq_some_iff.1 h
  rw [htypes]
  exact List.mem_append_right before List.mem_cons_self

/-- A value that is set is mapped to what is made of it. -/
theorem map_eq_ite {α β : Type} (o : Option α) (a : α) (f : α → β) :
    o.map f = if o.isSome then some (f (o.getD a)) else none := by
  cases o <;> rfl

/-- A known member that was not seen changes the record, provided that its value is of the type. -/
theorem step_of_type {type : MemberType} (htype : types.lookup name = some type)
    (hnew : name ∉ done.map (·.1)) :
    (step known (done.map (·.1)) name v).map (· (ofMembers done)) =
      if type.admits v then some (ofMembers ((name, v) :: done)) else none := by
  have hid (f : String → Impression) := map_eq_ite v.text? "" f
  have hflag (f : Bool → Impression) := map_eq_ite v.boolean? false f
  have htext := @Value.optional?_eq _ Value.text? rfl v
  have hword64 := @Value.optional?_eq _ Value.word64? rfl v
  have hword32 := @Value.optional?_eq _ Value.word32? rfl v
  -- each member of the schema changes its own part of the record
  have hmem := mem_types htype
  simp only [types, List.mem_cons, List.not_mem_nil, or_false, Prod.mk.injEq] at hmem
  rcases hmem with ⟨rfl, rfl⟩ | ⟨rfl, rfl⟩ | ⟨rfl, rfl⟩ | ⟨rfl, rfl⟩ | ⟨rfl, rfl⟩ | ⟨rfl, rfl⟩ |
    ⟨rfl, rfl⟩ | ⟨rfl, rfl⟩ | ⟨rfl, rfl⟩ | ⟨rfl, rfl⟩ | ⟨rfl, rfl⟩ | ⟨rfl, rfl⟩
  all_goals
    simp [step, known, Known.always, Known.defaulted, Known.optional, hnew, ofMembers,
      MemberType.admits, List.lookup_cons, htext, hword64, hword32, hid, hflag]

/-- Only the first values of known names matter to a record. -/
theorem ofMembers_congr
    (h : ∀ name, (types.lookup name).isSome → ms.lookup name = ms'.lookup name) :
    ofMembers ms = ofMembers ms' := by
  simp (disch := decide) only [ofMembers, h]

/-- The known names are those that have a type. -/
theorem find?_known_eq_none : known.find? (·.name = name) = none ↔ types.lookup name = none := by
  have hnames : known.map (·.name) = types.map (·.1) := rfl
  have hknown : known.find? (·.name = name) = none ↔ name ∉ known.map (·.name) := by
    simp [List.find?_eq_none]
  have htypes : types.lookup name = none ↔ name ∉ types.map (·.1) := by
    simp only [List.lookup_eq_none_iff, List.mem_map, bne_iff_ne, ne_eq, not_exists, not_and]
    exact ⟨fun h p hp => Ne.symm (h p hp), fun h p hp => Ne.symm (h p hp)⟩
  rw [hknown, htypes, hnames]

/-- A known name that was seen is refused. -/
theorem step_of_seen {type : MemberType} (htype : types.lookup name = some type)
    {seen : List String} (hseen : name ∈ seen) : step known seen name v = none := by
  cases hfind : known.find? (·.name = name) with
  | none =>
    rw [find?_known_eq_none.1 hfind] at htype
    cases htype
  | some k => simp only [step, hfind, if_pos hseen]

/-- A member of another name changes nothing. -/
theorem step_of_unknown (hname : types.lookup name = none) :
    (step known (done.map (·.1)) name v).map (· (ofMembers done)) =
      some (ofMembers ((name, v) :: done)) := by
  have hfind : known.find? (·.name = name) = none := find?_known_eq_none.2 hname
  -- no field of the record looks for this name
  have hrecord : ofMembers ((name, v) :: done) = ofMembers done := by
    apply ofMembers_congr
    intro other hother
    have hne : other ≠ name := by
      rintro rfl
      simp [hname] at hother
    rw [List.lookup_cons, beq_false_of_ne hne]
  simp only [step, hfind, hrecord]
  rfl

/-! ## The members so far -/

theorem wellTyped_nil : WellTyped [] where
  once := by simp
  admitted := by simp

/-- A member may stand before others if it is not known, or if it is new and of its type. -/
theorem wellTyped_cons : WellTyped ((name, v) :: done) ↔ WellTyped done ∧
    ∀ type, types.lookup name = some type → name ∉ done.map (·.1) ∧ type.admits v := by
  constructor
  · -- what stands before others counts among the members of its name
    intro h
    refine ⟨⟨?_, ?_⟩, ?_⟩
    · intro other type htype
      have honce := h.once other type htype
      rw [List.map_cons] at honce
      exact Nat.le_trans List.count_le_count_cons honce
    · intro other type htype w hw
      exact h.admitted other type htype w (List.mem_cons_of_mem _ hw)
    · intro type htype
      have honce := h.once name type htype
      rw [List.map_cons, List.count_cons_self] at honce
      exact ⟨List.count_eq_zero.1 (by omega), h.admitted name type htype v List.mem_cons_self⟩
  · rintro ⟨h, hnew⟩
    refine ⟨?_, ?_⟩
    · intro other type htype
      -- the new member is the first of its name, and adds nothing to the others
      by_cases hname : name = other
      · subst hname
        have hzero := List.count_eq_zero.2 (hnew type htype).1
        rw [List.map_cons, List.count_cons_self]
        omega
      · rw [List.map_cons, List.count_cons_of_ne hname]
        exact h.once other type htype
    · intro other type htype w hw
      rcases List.mem_cons.1 hw with heq | hw
      · cases heq
        exact (hnew type htype).2
      · exact h.admitted other type htype w hw

/-- Members that were read go on to be well typed, or one of them was refused. -/
theorem wellTyped_of_append {before : List (String × Value)} (h : WellTyped (before ++ done)) :
    WellTyped done := by
  induction before with
  | nil => exact h
  | cons m before ih => exact ih (wellTyped_cons.1 h).1

/-- A member is read if it may stand before the others, and refused otherwise. -/
theorem step_cases (h : WellTyped done) (name : String) (v : Value) :
    (WellTyped ((name, v) :: done) ∧
      (step known (done.map (·.1)) name v).map (· (ofMembers done)) =
        some (ofMembers ((name, v) :: done))) ∨
    (¬WellTyped ((name, v) :: done) ∧ step known (done.map (·.1)) name v = none) := by
  rw [wellTyped_cons]
  -- a name without a type has no meaning; one with a type must be new and fit it
  cases htype : types.lookup name with
  | none => exact .inl ⟨⟨h, by simp⟩, step_of_unknown htype⟩
  | some type =>
    by_cases hseen : name ∈ done.map (·.1)
    · exact .inr ⟨fun hcons => (hcons.2 type rfl).1 hseen, step_of_seen htype hseen⟩
    have hstep := step_of_type (v := v) htype hseen
    by_cases hadmits : type.admits v
    · rw [if_pos hadmits] at hstep
      refine .inl ⟨⟨h, ?_⟩, hstep⟩
      rintro _ ⟨⟩
      exact ⟨hseen, hadmits⟩
    · rw [if_neg hadmits] at hstep
      exact .inr ⟨fun hcons => hadmits (hcons.2 type rfl).2, Option.map_eq_none_iff.1 hstep⟩

/-- A member with the name of the identifier has the value of one. -/
theorem identified_iff (h : WellTyped done) :
    (∃ id, ("impressionId", Value.string (some id)) ∈ done) ↔ "impressionId" ∈ done.map (·.1) := by
  constructor
  · rintro ⟨id, hid⟩
    exact List.mem_map_of_mem hid
  · intro hmem
    obtain ⟨⟨name, v⟩, hv, rfl⟩ := List.mem_map.1 hmem
    -- the value of this name is a text, which has a content
    have htext : v.text?.isSome := h.admitted _ .text rfl v hv
    cases v with
    | string s =>
      obtain ⟨id, rfl⟩ := Option.isSome_iff_exists.1 htext
      exact ⟨id, hv⟩
    | _ => cases htext

/-- Where the members are well typed, only the identifier can be missing. -/
theorem gather_nil (h : WellTyped done) (i : Impression) :
    gather known (ofMembers done) (done.map (·.1)) [] = some i ↔
      Acceptable done ∧ i = ofMembers done := by
  -- the identifier is the only member that must be given
  have hrequired : (known.all fun k => !k.required || (done.map (·.1)).contains k.name) ↔
      Acceptable done := by
    have hid : Acceptable done ↔ "impressionId" ∈ done.map (·.1) := by
      rw [← identified_iff h]
      exact ⟨fun hacceptable => hacceptable.identified, fun hid => ⟨h, hid⟩⟩
    rw [hid]
    simp [known, Known.always, Known.defaulted, Known.optional]
  rw [gather]
  by_cases hacceptable : Acceptable done
  · rw [if_pos (hrequired.2 hacceptable), Option.some.injEq]
    exact ⟨fun heq => ⟨hacceptable, heq.symm⟩, fun heq => heq.2.symm⟩
  · rw [if_neg (mt hrequired.1 hacceptable)]
    simp [hacceptable]

/-- The members that are left are read, given those that were read, latest first. -/
theorem gather_eq_some_iff (h : WellTyped done) (ms : List (String × Value)) (i : Impression) :
    gather known (ofMembers done) (done.map (·.1)) ms = some i ↔
      Acceptable (ms.reverse ++ done) ∧ i = ofMembers (ms.reverse ++ done) := by
  -- so far the members were well typed, and the record is the one that they make
  induction ms generalizing done with
  | nil => exact gather_nil h i
  | cons m ms ih =>
    obtain ⟨name, v⟩ := m
    rw [List.reverse_cons, List.append_assoc, List.singleton_append, gather]
    rcases step_cases h name v with ⟨htyped, hstep⟩ | ⟨hnot, hstep⟩
    · obtain ⟨change, hchange, hrecord⟩ := Option.map_eq_some_iff.1 hstep
      rw [hchange, Option.bind_some, hrecord]
      exact ih htyped
    · rw [hstep, Option.bind_none]
      constructor
      · intro hnone
        cases hnone
      · rintro ⟨hacceptable, -⟩
        exact absurd (wellTyped_of_append hacceptable.toWellTyped) hnot

/-! ## Order and other members -/

/-- Two lists have the same members of known names, in whatever order. -/
def SameKnown (ms ms' : List (String × Value)) : Prop :=
  (ms.filter fun m => (types.lookup m.1).isSome).Perm
    (ms'.filter fun m => (types.lookup m.1).isSome)

/-- Which of two lists comes first does not matter. -/
theorem SameKnown.symm (h : SameKnown ms ms') : SameKnown ms' ms := List.Perm.symm h

/-- Read from behind, a list has the same members. -/
theorem sameKnown_reverse (ms : List (String × Value)) : SameKnown ms ms.reverse :=
  (List.reverse_perm ms).symm.filter _

/-- Members of known names are in both lists or in neither. -/
theorem SameKnown.mem_iff (h : SameKnown ms ms') (hname : (types.lookup name).isSome) :
    (name, v) ∈ ms ↔ (name, v) ∈ ms' := by
  have hmem := List.Perm.mem_iff (a := (name, v)) h
  simpa [hname] using hmem

/-- The members of one known name are the same in both lists. -/
theorem SameKnown.filter_perm (h : SameKnown ms ms') (hname : (types.lookup name).isSome) :
    (ms.filter (·.1 = name)).Perm (ms'.filter (·.1 = name)) := by
  have hsame := List.Perm.filter (·.1 = name) h
  -- members of a known name are among those of known names
  have hfilter (ms : List (String × Value)) :
      (ms.filter fun m => (types.lookup m.1).isSome).filter (·.1 = name) =
        ms.filter (·.1 = name) := by
    rw [List.filter_filter]
    apply List.filter_congr
    intro m _
    by_cases hm : m.1 = name
    · simp [hm, hname]
    · simp [hm]
  rwa [hfilter, hfilter] at hsame

/-- As often as a name occurs, there are members of it. -/
theorem count_eq_length (ms : List (String × Value)) (name : String) :
    (ms.map (·.1)).count name = (ms.filter (·.1 = name)).length := by
  rw [List.count, List.countP_map, List.countP_eq_length_filter]
  rfl

/-- The value of a name is that of its first member. -/
theorem lookup_eq_head? (ms : List (String × Value)) (name : String) :
    ms.lookup name = ((ms.filter (·.1 = name)).map (·.2)).head? := by
  induction ms with
  | nil => rfl
  | cons m ms ih =>
    obtain ⟨other, v⟩ := m
    -- the first member of the name is found, and none before it has the name
    by_cases hname : other = name
    · simp [hname]
    · have hne : name ≠ other := Ne.symm hname
      rw [List.lookup_cons, beq_false_of_ne hne]
      simpa [hname] using ih

/-- Whether members are well typed depends on those of known names alone, and not on their order. -/
theorem WellTyped.of_same (h : WellTyped ms) (hsame : SameKnown ms ms') : WellTyped ms' where
  once name type htype := by
    have hname : (types.lookup name).isSome := by simp [htype]
    rw [count_eq_length, ← (hsame.filter_perm hname).length_eq, ← count_eq_length]
    exact h.once name type htype
  admitted name type htype v hv :=
    h.admitted name type htype v ((hsame.mem_iff (by simp [htype])).2 hv)

/-- So does whether they are those of a record. -/
theorem Acceptable.of_same (h : Acceptable ms) (hsame : SameKnown ms ms') : Acceptable ms' where
  toWellTyped := h.toWellTyped.of_same hsame
  identified := by
    obtain ⟨id, hid⟩ := h.identified
    exact ⟨id, (hsame.mem_iff (by decide)).1 hid⟩

/-- Lists of at most one element have no other order. -/
theorem eq_of_perm {α : Type} {l l' : List α} (h : l.Perm l') (hone : l.length ≤ 1) : l = l' := by
  match l, hone with
  | [], _ => exact (List.nil_perm.1 h).symm
  | [a], _ => exact List.singleton_perm.1 h

/-- Where known names occur once, their order does not matter. -/
theorem WellTyped.ofMembers_eq (h : WellTyped ms) (hsame : SameKnown ms ms') :
    ofMembers ms = ofMembers ms' := by
  apply ofMembers_congr
  intro name hname
  obtain ⟨type, htype⟩ := Option.isSome_iff_exists.1 hname
  -- where a name occurs once, its first member is its only one
  have honce : (ms.filter (·.1 = name)).length ≤ 1 := by
    rw [← count_eq_length]
    exact h.once name type htype
  rw [lookup_eq_head?, lookup_eq_head?, eq_of_perm (hsame.filter_perm hname) honce]

/-- Lists with the same known members are read as the same record, or as none. -/
theorem Acceptable.iff_of_same (hsame : SameKnown ms ms') (i : Impression) :
    (Acceptable ms ∧ i = ofMembers ms) ↔ (Acceptable ms' ∧ i = ofMembers ms') := by
  constructor
  · rintro ⟨h, rfl⟩
    exact ⟨h.of_same hsame, h.toWellTyped.ofMembers_eq hsame⟩
  · rintro ⟨h, rfl⟩
    exact ⟨h.of_same hsame.symm, h.toWellTyped.ofMembers_eq hsame.symm⟩

/-! ## Texts -/

/-- A text is read as the record of its members, if they are those of one. -/
theorem toOption_ofJson {text : String} (written : Schema.IsObject ms text) (i : Impression) :
    (ofJson text).toOption = some i ↔ Acceptable ms ∧ i = ofMembers ms := by
  have hread : (ofJson text).toOption = gather known (ofMembers []) [] ms :=
    Schema.decode_written means_known written
  have hgather := gather_eq_some_iff wellTyped_nil ms i
  rw [List.append_nil] at hgather
  -- members are gathered in the order of the text, so the last one comes first
  rw [hread, Acceptable.iff_of_same (sameKnown_reverse ms)]
  exact hgather

/-- A text is read as the record that its members are, whatever their order, and refused if they
are not those of a record. Members of other names do not matter. -/
theorem ofJson_members {ms : List (String × Value)} {text : String}
    (written : Schema.IsObject ms text) :
    (∀ i, ofJson text = .ok i ↔ Acceptable ms ∧ i = ofMembers ms) ∧
    ∀ ms' text', Schema.IsObject ms' text' → SameKnown ms ms' →
      (ofJson text').toOption = (ofJson text).toOption := by
  constructor
  · intro i
    -- the problem of a text that is refused does not matter
    have hok : ofJson text = .ok i ↔ (ofJson text).toOption = some i := by
      cases ofJson text <;> simp [Except.toOption]
    rw [hok, toOption_ofJson written]
  · intro ms' text' written' hsame
    apply Option.ext
    intro i
    rw [toOption_ofJson written', toOption_ofJson written, Acceptable.iff_of_same hsame]

/-- Members in another order than that of the schema, one of which is `null` and one not known. -/
def scrambled : List (String × Value) := [
  ("zoneId", .number ⟨false, ['7'], none, none⟩),
  ("extra", .array [.null, .boolean true]),
  ("profileId", .null),
  ("impressionId", .string (some "a"))]

def scrambledText : String :=
  "\x7b\"zoneId\": 7,\n\"extra\":[null ,true],\"profileId\":null , \"impressionId\":\"\\u0061\"\x7d"

/-- The text is one of an object with these members, with blanks and an escape in it. -/
theorem isObject_scrambled : Schema.IsObject scrambled scrambledText := by
  -- the blanks that stand in the text, and a helper for the places between them
  have hnone : Json.Blanks [] := by decide
  have hspace : Json.Blanks [' '] := by decide
  have hline : Json.Blanks ['\n'] := by decide
  have spaced (t : List Char) {before after : List Char} (hbefore : Json.Blanks before)
      (hafter : Json.Blanks after) : Json.Spaced t (before ++ (t ++ after)) :=
    ⟨before, after, hbefore, hafter, rfl⟩
  have hseven : Json.WritesNumeral ⟨false, ['7'], none, none⟩ _ :=
    .parts false (by decide +kernel) (by decide +kernel) .absent .absent
  have hid : Json.WritesLiteral (some "a") _ :=
    @Json.WritesLiteral.pieces [.unit ['0', '0', '6', '1'] 0x61] (by decide +kernel)
  have hlist : Json.Writes (.elements [.null, .boolean true]) _ :=
    .moreElements .null (spaced _ hnone hspace)
      (.lastElement (.boolean true) (spaced _ hnone hnone))
  have hzone : Json.Writes (.member (some "zoneId", .number ⟨false, ['7'], none, none⟩)) _ :=
    .member (.plain (by decide +kernel)) (spaced _ hnone hnone) (.number hseven)
      (spaced _ hspace hnone)
  have hextra : Json.Writes (.member (some "extra", .array [.null, .boolean true])) _ :=
    .member (.plain (by decide +kernel)) (spaced _ hline hnone) (.array hlist)
      (spaced _ hnone hnone)
  have hprofile : Json.Writes (.member (some "profileId", .null)) _ :=
    .member (.plain (by decide +kernel)) (spaced _ hnone hnone) .null (spaced _ hnone hspace)
  have himpression : Json.Writes (.member (some "impressionId", .string (some "a"))) _ :=
    .member (.plain (by decide +kernel)) (spaced _ hspace hnone) (.string hid)
      (spaced _ hnone hnone)
  have hobject : Json.Writes (.value (.object (Schema.named scrambled))) _ :=
    .object (.moreMembers hzone (.moreMembers hextra (.moreMembers hprofile
      (.lastMember himpression))))
  exact ⟨_, hobject, [], [], hnone, hnone, by decide +kernel⟩

/-- The members are those of a record, the unknown one among them. -/
theorem acceptable_scrambled : Acceptable scrambled := by
  -- the members are put in front of each other, from the last to the first
  have fits {name : String} {v : Value} {ms : List (String × Value)} (h : WellTyped ms)
      (type : Option MemberType) (htype : types.lookup name = type)
      (hfits : ∀ t ∈ type, name ∉ ms.map (·.1) ∧ t.admits v) : WellTyped ((name, v) :: ms) :=
    wellTyped_cons.2 ⟨h, fun t ht => hfits t (htype ▸ ht)⟩
  have hid := fits wellTyped_nil (some .text) (show types.lookup "impressionId" = _ from rfl)
    (v := .string (some "a")) (by decide)
  have hprofile := fits hid (some .optionalWord32) (show types.lookup "profileId" = _ from rfl)
    (v := .null) (by decide)
  have hextra := fits hprofile none (show types.lookup "extra" = _ from rfl)
    (v := .array [.null, .boolean true]) (by decide)
  have hzone := fits hextra (some .optionalWord32) (show types.lookup "zoneId" = _ from rfl)
    (v := .number ⟨false, ['7'], none, none⟩) (by decide)
  exact ⟨hzone, "a", by simp [scrambled]⟩

/-- The same members in the order of the schema, without the one that is not known. -/
def orderly : List (String × Value) := [
  ("impressionId", .string (some "a")),
  ("profileId", .null),
  ("zoneId", .number ⟨false, ['7'], none, none⟩)]

def orderlyText : String :=
  "\x7b\"impressionId\":\"a\",\"profileId\":null,\"zoneId\":7\x7d"

/-- The plain text is one of an object with these members. -/
theorem isObject_orderly : Schema.IsObject orderly orderlyText := by
  have hnone : Json.Blanks [] := by decide
  have compact (t : List Char) : Json.Spaced t ([] ++ (t ++ [])) := ⟨[], [], hnone, hnone, rfl⟩
  have hseven : Json.WritesNumeral ⟨false, ['7'], none, none⟩ _ :=
    .parts false (by decide +kernel) (by decide +kernel) .absent .absent
  have hzone : Json.Writes (.member (some "zoneId", .number ⟨false, ['7'], none, none⟩)) _ :=
    .member (.plain (by decide +kernel)) (compact _) (.number hseven) (compact _)
  have hprofile : Json.Writes (.member (some "profileId", .null)) _ :=
    .member (.plain (by decide +kernel)) (compact _) .null (compact _)
  have himpression : Json.Writes (.member (some "impressionId", .string (some "a"))) _ :=
    .member (.plain (by decide +kernel)) (compact _) (.string (.plain (by decide +kernel)))
      (compact _)
  have hobject : Json.Writes (.value (.object (Schema.named orderly))) _ :=
    .object (.moreMembers himpression (.moreMembers hprofile (.lastMember hzone)))
  exact ⟨_, hobject, [], [], hnone, hnone, by decide +kernel⟩

/-- Both are read as a record with an identifier and a zone. -/
theorem ofJson_scrambled :
    Schema.IsObject scrambled scrambledText ∧ Schema.IsObject orderly orderlyText ∧
    SameKnown scrambled orderly ∧
    ofJson scrambledText = .ok { id := "a", zone := some 7 } ∧
    (ofJson orderlyText).toOption = (ofJson scrambledText).toOption := by
  obtain ⟨hread, hsame⟩ := ofJson_members isObject_scrambled
  have hknown : SameKnown scrambled orderly := (List.reverse_perm _).symm
  exact ⟨isObject_scrambled, isObject_orderly, hknown,
    (hread _).2 ⟨acceptable_scrambled, by decide +kernel⟩,
    hsame orderly orderlyText isObject_orderly hknown⟩

end Impression

end ClientMetrics
