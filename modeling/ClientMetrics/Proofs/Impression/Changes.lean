import ClientMetrics.Impression.Basic

/-!
# Records only gain

A record goes through a sequence of life-cycle events, each a list of changes. There are eleven
kinds of changes, and each fills one field: later changes of a kind replace what earlier ones put
there, and no change touches the field of another kind. So what a record holds is, kind by kind, the
last change made to it.

* `Impression.recorded` — what a record holds of each kind; together with its identifier that is all
  of it (`ext_recorded`);
* `recorded_change`, `recorded_update` — one change, and several: the last of a kind counts;
* `Keeps` — a later record has what an earlier one has (`keeps_update`, `pairwise_history`);
* `Accumulates`, `accumulates_history` — what a sequence of events makes of a record.
-/

namespace ClientMetrics

namespace Impression

/-- The kinds of changes. -/
inductive Kind where
  | requestGroup | callStart | callEnd | callTimeout | shown | clicked | errorCode | cachedBid
  | ready | profile | zone
  deriving DecidableEq, Repr

/-- The kind of a change. -/
def Change.kind : Change → Kind
  | requestGroup _ => .requestGroup
  | callStart _ => .callStart
  | callEnd _ => .callEnd
  | callTimeout _ => .callTimeout
  | shown _ => .shown
  | clicked _ => .clicked
  | errorCode _ => .errorCode
  | cachedBid => .cachedBid
  | ready => .ready
  | profile _ => .profile
  | zone _ => .zone

/-- What a record holds of a kind: the change that puts it there, if the field is set or the flag is
raised. -/
def recorded (i : Impression) : Kind → Option Change
  | .requestGroup => i.requestGroup.map .requestGroup
  | .callStart => i.callStart.map .callStart
  | .callEnd => i.callEnd.map .callEnd
  | .callTimeout => i.callTimeout.map .callTimeout
  | .shown => i.shown.map .shown
  | .clicked => i.clicked.map .clicked
  | .errorCode => i.errorCode.map .errorCode
  | .cachedBid => if i.cachedBid then some .cachedBid else none
  | .ready => if i.ready then some .ready else none
  | .profile => i.profile.map .profile
  | .zone => i.zone.map .zone

/-- Those of some changes that are of a kind, in order. -/
def ofKind (kind : Kind) (changes : List Change) : List Change :=
  changes.filter fun c => c.kind = kind

/-! ## Changes -/

/-- A change leaves the identifier as it is. -/
@[simp] theorem id_change (i : Impression) (c : Change) : (i.change c).id = i.id := by
  cases c <;> rfl

/-- A change sets the field of its own kind and leaves the others alone. -/
theorem recorded_change (i : Impression) (c : Change) (kind : Kind) :
    (i.change c).recorded kind = if c.kind = kind then some c else i.recorded kind := by
  cases c <;> cases kind <;> rfl

theorem update_cons (i : Impression) (c : Change) (changes : List Change) :
    i.update (c :: changes) = (i.change c).update changes := rfl

@[simp] theorem id_update (i : Impression) (changes : List Change) :
    (i.update changes).id = i.id := by
  induction changes generalizing i with
  | nil => rfl
  | cons c changes ih => exact (ih _).trans (i.id_change c)

/-- The last change of a kind counts, or what was there before if there is none. -/
theorem recorded_update (i : Impression) (changes : List Change) (kind : Kind) :
    (i.update changes).recorded kind = (ofKind kind changes).getLast?.or (i.recorded kind) := by
  -- the induction is on the changes, the first of which counts only if no other is of its kind
  induction changes generalizing i with
  | nil => rfl
  | cons c changes ih =>
    rw [update_cons, ih, recorded_change]
    by_cases hkind : c.kind = kind
    · -- this change counts if none of the others is of its kind
      have hmore : ofKind kind (c :: changes) = c :: ofKind kind changes :=
        List.filter_cons_of_pos (by simpa using hkind)
      rw [if_pos hkind, hmore, List.getLast?_cons]
      cases (ofKind kind changes).getLast? <;> rfl
    · have hsame : ofKind kind (c :: changes) = ofKind kind changes :=
        List.filter_cons_of_neg (by simpa using hkind)
      rw [if_neg hkind, hsame]

/-- A field can be told from the change that puts its value there. -/
theorem eq_of_map_eq {α : Type} {f : α → Change} (hf : ∀ a b, f a = f b → a = b)
    {value value' : Option α} (h : value.map f = value'.map f) : value = value' :=
  (Option.map_inj_right hf).1 h

/-- So can a flag. -/
theorem eq_of_raised_eq {c : Change} {flag flag' : Bool}
    (h : (if flag then some c else none) = if flag' then some c else none) : flag = flag' := by
  cases flag <;> cases flag' <;> simp_all

/-- A record is its identifier and what it holds of each kind. -/
theorem ext_recorded {i j : Impression} (hid : i.id = j.id)
    (h : ∀ kind, i.recorded kind = j.recorded kind) : i = j := by
  have hrequestGroup := eq_of_map_eq (fun _ _ => Change.requestGroup.inj) (h .requestGroup)
  have hcallStart := eq_of_map_eq (fun _ _ => Change.callStart.inj) (h .callStart)
  have hcallEnd := eq_of_map_eq (fun _ _ => Change.callEnd.inj) (h .callEnd)
  have hcallTimeout := eq_of_map_eq (fun _ _ => Change.callTimeout.inj) (h .callTimeout)
  have hshown := eq_of_map_eq (fun _ _ => Change.shown.inj) (h .shown)
  have hclicked := eq_of_map_eq (fun _ _ => Change.clicked.inj) (h .clicked)
  have herrorCode := eq_of_map_eq (fun _ _ => Change.errorCode.inj) (h .errorCode)
  have hcachedBid := eq_of_raised_eq (h .cachedBid)
  have hready := eq_of_raised_eq (h .ready)
  have hprofile := eq_of_map_eq (fun _ _ => Change.profile.inj) (h .profile)
  have hzone := eq_of_map_eq (fun _ _ => Change.zone.inj) (h .zone)
  -- the fields agree one by one, so the records do
  cases i
  cases j
  rw [mk.injEq]
  exact ⟨hid, hrequestGroup, hcallStart, hcallEnd, hcallTimeout, hshown, hclicked, herrorCode,
    hcachedBid, hready, hprofile, hzone⟩

/-- Changes of different kinds may be made in any order. -/
theorem update_eq_of_ofKind {changes changes' : List Change}
    (h : ∀ kind, ofKind kind changes = ofKind kind changes') (i : Impression) :
    i.update changes = i.update changes' := by
  refine ext_recorded ?_ fun kind => ?_
  · rw [id_update, id_update]
  · rw [recorded_update, recorded_update, h]

/-! ## Events -/

/-- A later record has what an earlier one has. -/
structure Keeps (earlier later : Impression) : Prop where
  id : later.id = earlier.id
  /-- A field that is set stays set, and a flag that is raised stays raised. -/
  recorded : ∀ kind, (earlier.recorded kind).isSome → (later.recorded kind).isSome
  terminal : earlier.isTerminal → later.isTerminal

/-- A record is terminal by its flag or by the time of a timeout. -/
theorem isTerminal_iff (i : Impression) :
    i.isTerminal ↔ (i.recorded .ready).isSome ∨ (i.recorded .callTimeout).isSome := by
  have hready : (i.recorded .ready).isSome = i.ready := by
    rw [recorded]
    cases i.ready <;> rfl
  have htimeout : (i.recorded .callTimeout).isSome = i.callTimeout.isSome := Option.isSome_map
  rw [hready, htimeout, isTerminal, Bool.or_eq_true]

/-- A record that was changed has what it had before. -/
theorem keeps_update (i : Impression) (changes : List Change) : Keeps i (i.update changes) := by
  have hrecorded : ∀ kind, (i.recorded kind).isSome →
      ((i.update changes).recorded kind).isSome := by
    intro kind h
    rw [recorded_update, Option.isSome_or, h, Bool.or_true]
  refine ⟨i.id_update changes, hrecorded, fun h => ?_⟩
  -- a record is terminal by what it holds, and that stays
  rw [isTerminal_iff] at h ⊢
  exact h.imp (hrecorded _) (hrecorded _)

theorem history_cons (i : Impression) (event : List Change) (events : List (List Change)) :
    i.history (event :: events) = i :: (i.update event).history events := rfl

/-- Every record of a history comes from the first one by the changes so far. -/
theorem exists_update_of_mem_history {i j : Impression} {events : List (List Change)}
    (h : j ∈ i.history events) : ∃ changes, j = i.update changes := by
  induction events generalizing i with
  | nil =>
    rw [history, List.mem_singleton] at h
    exact ⟨[], h⟩
  | cons event events ih =>
    rw [history_cons, List.mem_cons] at h
    -- the record is the first one, or it comes from the next by further changes
    rcases h with rfl | h
    · exact ⟨[], rfl⟩
    · obtain ⟨changes, hj⟩ := ih h
      exact ⟨event ++ changes, hj.trans (update_append i event changes).symm⟩

/-- All records of a history have what those before them have. -/
theorem pairwise_history (i : Impression) (events : List (List Change)) :
    (i.history events).Pairwise Keeps := by
  induction events generalizing i with
  | nil => exact List.pairwise_singleton _ _
  | cons event events ih =>
    rw [history_cons, List.pairwise_cons]
    refine ⟨fun j hj => ?_, ih (i.update event)⟩
    -- all later records come from this one
    obtain ⟨changes, rfl⟩ := exists_update_of_mem_history hj
    rw [← update_append]
    exact i.keeps_update _

/-- The last record has all changes. -/
theorem getLast?_history (i : Impression) (events : List (List Change)) :
    (i.history events).getLast? = some (i.update events.flatten) := by
  -- each event is one update, and two updates are one with the changes of both
  induction events generalizing i with
  | nil => rfl
  | cons event events ih =>
    rw [history_cons, List.getLast?_cons, ih, List.flatten_cons, update_append]
    rfl

/-- More events do not touch the records so far. -/
theorem history_prefix_append (i : Impression) (events more : List (List Change)) :
    i.history events <+: i.history (events ++ more) := by
  induction events generalizing i with
  | nil =>
    -- a history starts with the first record
    cases more with
    | nil => exact List.prefix_refl _
    | cons event more => exact ⟨_, rfl⟩
  | cons event events ih => exact (List.prefix_cons_inj i).2 (ih (i.update event))

/-- What a sequence of events makes of a record. -/
structure Accumulates (i : Impression) (events : List (List Change)) : Prop where
  /-- Later records have what earlier ones have. -/
  keeps : (i.history events).Pairwise Keeps
  /-- The last record is that of a single event with all changes. -/
  merged : (i.history events).getLast? = some (i.update events.flatten)
  /-- It holds the last change of each kind, or what the first record held if there is none. -/
  last_change : ∀ kind, (i.update events.flatten).recorded kind =
    (ofKind kind events.flatten).getLast?.or (i.recorded kind)
  /-- That and the identifier are all of it. -/
  determined : ∀ j : Impression, j.id = i.id →
    (∀ kind, j.recorded kind = (i.update events.flatten).recorded kind) →
      j = i.update events.flatten
  /-- More events leave the records so far as they are. -/
  unaffected : ∀ more, i.history events <+: i.history (events ++ more)
  /-- Changes in any other order, in which those of a kind follow each other as they did, make the
  same record of it. -/
  reordered : ∀ events', (∀ kind, ofKind kind events.flatten = ofKind kind events'.flatten) →
    (i.history events').getLast? = (i.history events).getLast?

/-- Every sequence of events accumulates: no record is without what an earlier one has, and the last
has the last change of each kind. -/
theorem accumulates_history (i : Impression) (events : List (List Change)) :
    i.Accumulates events where
  keeps := i.pairwise_history events
  merged := i.getLast?_history events
  last_change := i.recorded_update events.flatten
  determined := fun _ hid h => ext_recorded (hid.trans (i.id_update _).symm) h
  unaffected := i.history_prefix_append events
  reordered := by
    intro events' h
    rw [getLast?_history, getLast?_history, update_eq_of_ofKind h]

end Impression

end ClientMetrics
