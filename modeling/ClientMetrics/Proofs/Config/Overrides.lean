import ClientMetrics.Config.Settings
import ClientMetrics.Proofs.Log.Level
import ClientMetrics.Proofs.Text.Word

/-!
# Overrides

Overrides are texts that take the places of settings, one field after the other. What is wrong with
a text does not depend on the settings that it applies to, and no field depends on another one. So
the fields before the first fault hold what their texts say, and all else is as it was. For the
same reason two sets of overrides are as good as one in which the later set counts where it says
something.

Key results:
- `overrideField_eq`: what the override of one field does.
- `overrideFields_of_sound`, `overrideFields_of_fault`: what the overrides of several fields do.
- `override_eq`, `apply_or`: all fields, and two sets of overrides.
- `overridden_override`: which texts are accepted, what the settings hold after them also if one of
  them is not, and that of many sets the last word on each field counts.
-/

namespace ClientMetrics

/-! ## What is wrong, and what takes its place -/

/-- What is wrong with the text of a number. -/
def wordFault? (field : SettingField) (text : Option String) : Option ConfigError :=
  text.bind fun w =>
    match Text.readWord w with
    | .ok _ => none
    | .error fault => some (.invalidValue field fault.message)

/-- What is wrong with the text of a log level. -/
def levelFault? (text : Option String) : Option ConfigError :=
  text.bind fun w =>
    if (Log.Level.ofText? w).isSome then none
    else some (.invalidValue .logLevel (Log.Level.unknownMessage w))

/-- What is wrong with the text of a field. -/
def SettingField.faultOf? : SettingField → Option String → Option ConfigError
  | .logLevel, text => levelFault? text
  | field, text => wordFault? field text

/-- The number of a text, or the one that counts where there is none. -/
def wordOr (text : Option String) (n : UInt64) : UInt64 :=
  (text.bind fun w => (Text.readWord w).toOption).getD n

/-- The level that a text calls, or the one that counts where there is none. -/
def levelOr (text : Option String) (level : Log.Level) : Log.Level :=
  (text.bind Log.Level.ofText?).getD level

/-- A number that is said twice counts once. -/
theorem wordOr_self (text : Option String) (n : UInt64) :
    wordOr text (wordOr text n) = wordOr text n := by
  unfold wordOr
  cases text.bind fun w => (Text.readWord w).toOption <;> rfl

theorem levelOr_self (text : Option String) (level : Log.Level) :
    levelOr text (levelOr text level) = levelOr text level := by
  unfold levelOr
  cases text.bind Log.Level.ofText? <;> rfl

namespace Overrides

/-- The first override that is at fault. -/
def fault? (o : Overrides) : Option ConfigError :=
  (wordFault? .capacity o.capacity).or <| (wordFault? .batchSize o.batchSize).or <|
    (wordFault? .interval o.interval).or <| levelFault? o.logLevel

/-- Overrides of which the first set counts where it says something, and the other elsewhere. -/
def or (o' o : Overrides) : Overrides where
  capacity := o'.capacity.or o.capacity
  batchSize := o'.batchSize.or o.batchSize
  interval := o'.interval.or o.interval
  logLevel := o'.logLevel.or o.logLevel

/-- The fields that can be overridden, in the order in which they are. -/
def order : List SettingField := [.capacity, .batchSize, .interval, .logLevel]

/-- The text that is given for a field. -/
def text? (o : Overrides) : SettingField → Option String
  | .capacity => o.capacity
  | .batchSize => o.batchSize
  | .interval => o.interval
  | .vendorId => none
  | .logLevel => o.logLevel

/-- What is wrong with the override of a field. -/
def faultAt? (o : Overrides) (field : SettingField) : Option ConfigError :=
  field.faultOf? (o.text? field)

/-- The overrides of some fields only. -/
def only (o : Overrides) (fields : List SettingField) : Overrides where
  capacity := if .capacity ∈ fields then o.capacity else none
  batchSize := if .batchSize ∈ fields then o.batchSize else none
  interval := if .interval ∈ fields then o.interval else none
  logLevel := if .logLevel ∈ fields then o.logLevel else none

/-- Overrides say nothing but what they say of these fields. -/
theorem only_order (o : Overrides) : o.only order = o := rfl

/-- Overrides that are left out are not at fault. -/
theorem faultAt?_only (o : Overrides) (fields : List SettingField) (field : SettingField) :
    (o.only fields).faultAt? field = if field ∈ fields then o.faultAt? field else none := by
  cases field <;> simp only [faultAt?, text?, only] <;> split <;> rfl

/-- So if those that are kept are sound, all are. -/
theorem faultAt?_only_of_sound {o : Overrides} {fields : List SettingField}
    (h : ∀ field ∈ fields, o.faultAt? field = none) (field : SettingField) :
    (o.only fields).faultAt? field = none := by
  rw [faultAt?_only]
  split
  · next hmem => exact h field hmem
  · rfl

/-- The first override at fault is the first one in the order of the fields. -/
theorem fault?_eq_findSome? (o : Overrides) : o.fault? = order.findSome? o.faultAt? := by
  have hcons : ∀ (field : SettingField) (fields : List SettingField),
      (field :: fields).findSome? o.faultAt? =
        (o.faultAt? field).or (fields.findSome? o.faultAt?) := by
    intro field fields
    cases h : o.faultAt? field <;> simp [h]
  simp only [order, hcons, List.findSome?_nil, Option.or_none, fault?, faultAt?, text?,
    SettingField.faultOf?]

end Overrides

namespace Settings

open Overrides (order)

/-- Settings in which overrides have taken their places. -/
def apply (s : Settings) (o : Overrides) : Settings :=
  { s with
    queue := { s.queue with capacity := wordOr o.capacity s.queue.capacity }
    dispatch := { s.dispatch with
      batchSize := wordOr o.batchSize s.dispatch.batchSize
      interval := wordOr o.interval s.dispatch.interval }
    logging := { s.logging with level := levelOr o.logLevel s.logging.level } }

/-- The override of a number fails if its text is at fault, and otherwise sets the number that
counts. Here `n` is the number that the field holds already, so setting it changes nothing. -/
theorem overrideWord_eq (s : Settings) (field : SettingField) (set : Settings → UInt64 → Settings)
    (text : Option String) {n : UInt64} (hset : set s n = s) :
    s.overrideWord field set text =
      match wordFault? field text with
      | some e => (s, some e)
      | none => (set s (wordOr text n), none) := by
  cases text with
  | none => simp [overrideWord, wordFault?, wordOr, hset]
  | some w =>
    simp only [overrideWord, wordFault?, wordOr, Option.bind_some]
    cases Text.readWord w <;> rfl

/-- The override of the level fails if its text is at fault, and otherwise sets the level that
counts. -/
theorem overrideLevel_eq (s : Settings) (text : Option String) :
    s.overrideLevel text =
      match levelFault? text with
      | some e => (s, some e)
      | none =>
        ({ s with logging := { s.logging with level := levelOr text s.logging.level } }, none) := by
  cases text with
  | none => rfl
  | some w =>
    simp only [overrideLevel, levelFault?, levelOr, Option.bind_some]
    cases Log.Level.ofText? w <;> rfl

/-! ## One field after the other -/

/-- What comes after two overrides comes after the second of them. -/
theorem andThen_assoc (r : Settings × Option ConfigError)
    (f g : Settings → Settings × Option ConfigError) :
    andThen (andThen r f) g = andThen r fun s => andThen (f s) g := by
  obtain ⟨s, _ | e⟩ := r <;> rfl

/-- Two overrides succeed only if both do, and then the second applies to what the first leaves. -/
theorem andThen_eq_none {r : Settings × Option ConfigError}
    {f : Settings → Settings × Option ConfigError} (h : (andThen r f).2 = none) :
    r.2 = none ∧ andThen r f = f r.1 := by
  obtain ⟨s, _ | e⟩ := r
  · exact ⟨rfl, rfl⟩
  · cases h

/-- Overrides one field. -/
def overrideField (s : Settings) (o : Overrides) :
    SettingField → Settings × Option ConfigError
  | .capacity => s.overrideWord .capacity
      (fun s n => { s with queue := { s.queue with capacity := n } }) o.capacity
  | .batchSize => s.overrideWord .batchSize
      (fun s n => { s with dispatch := { s.dispatch with batchSize := n } }) o.batchSize
  | .interval => s.overrideWord .interval
      (fun s n => { s with dispatch := { s.dispatch with interval := n } }) o.interval
  | .vendorId => (s, none)
  | .logLevel => s.overrideLevel o.logLevel

/-- Overrides fields until one is at fault. -/
def overrideFields (s : Settings) (o : Overrides) :
    List SettingField → Settings × Option ConfigError
  | [] => (s, none)
  | field :: fields => andThen (s.overrideField o field) fun s => s.overrideFields o fields

/-- Settings are overridden field by field, in the order of the fields. -/
theorem override_eq_overrideFields (s : Settings) (o : Overrides) :
    s.override o = s.overrideFields o order := by
  -- nothing is left to do after the last field
  have hlast : ∀ s : Settings, andThen (s.overrideLevel o.logLevel) (fun s => (s, none)) =
      s.overrideLevel o.logLevel := by
    intro s
    obtain ⟨s', _ | e⟩ := s.overrideLevel o.logLevel <;> rfl
  simp only [override, andThen_assoc, order, overrideFields, overrideField, hlast]

/-- What the override of one field does. -/
theorem overrideField_eq (s : Settings) (o : Overrides) (field : SettingField) :
    s.overrideField o field =
      match o.faultAt? field with
      | some e => (s, some e)
      | none => (s.apply (o.only [field]), none) := by
  -- what a field holds already is what setting it to that leaves, as `overrideWord_eq` asks
  cases field with
  | capacity =>
    rw [overrideField, s.overrideWord_eq .capacity _ o.capacity (n := s.queue.capacity) rfl]
    rfl
  | batchSize =>
    rw [overrideField, s.overrideWord_eq .batchSize _ o.batchSize (n := s.dispatch.batchSize) rfl]
    rfl
  | interval =>
    rw [overrideField, s.overrideWord_eq .interval _ o.interval (n := s.dispatch.interval) rfl]
    rfl
  | vendorId => rfl
  | logLevel => exact s.overrideLevel_eq o.logLevel

/-- What a text takes the place of may have been taken by the same text before. -/
theorem only_cons {α : Type} {f : Option String → α → α} (hnone : ∀ a, f none a = a)
    (hself : ∀ text a, f text (f text a) = f text a) (text : Option String)
    (name field : SettingField) (fields : List SettingField) (a : α) :
    f (if name ∈ fields then text else none) (f (if name ∈ [field] then text else none) a) =
      f (if name ∈ field :: fields then text else none) a := by
  -- two texts for one field are the same text, so the second changes nothing
  by_cases hfield : name = field
  · by_cases hfields : name ∈ fields
    · rw [if_pos hfields, if_pos (by simp [hfield]), if_pos (by simp [hfield]), hself]
    · rw [if_neg hfields, if_pos (by simp [hfield]), if_pos (by simp [hfield]), hnone]
  · have hout : name ∉ [field] := by simp [hfield]
    have hsame : name ∈ field :: fields ↔ name ∈ fields := by simp [hfield]
    simp only [if_neg hout, hnone, hsame]

/-- Applying one field and then others is applying them together. -/
theorem apply_only_cons (s : Settings) (o : Overrides) (field : SettingField)
    (fields : List SettingField) :
    (s.apply (o.only [field])).apply (o.only fields) = s.apply (o.only (field :: fields)) := by
  have hword := only_cons (f := wordOr) (fun _ => rfl) wordOr_self
  have hlevel := only_cons (f := levelOr) (fun _ => rfl) levelOr_self
  simp only [apply, Overrides.only, hword, hlevel]

/-- Fields that are not at fault all take their values. -/
theorem overrideFields_of_sound (s : Settings) {o : Overrides} {fields : List SettingField}
    (h : ∀ field ∈ fields, o.faultAt? field = none) :
    s.overrideFields o fields = (s.apply (o.only fields), none) := by
  induction fields generalizing s with
  | nil => rfl
  | cons field fields ih =>
    -- the fields that follow apply to what this one leaves
    obtain ⟨hfield, hfields⟩ := List.forall_mem_cons.1 h
    simp only [overrideFields, overrideField_eq, hfield, andThen]
    rw [ih _ hfields, apply_only_cons]

/-- The overrides of some fields come after those of the fields before them. -/
theorem overrideFields_append (s : Settings) (o : Overrides) (before after : List SettingField) :
    s.overrideFields o (before ++ after) =
      andThen (s.overrideFields o before) fun s => s.overrideFields o after := by
  induction before generalizing s with
  | nil => rfl
  | cons field before ih =>
    simp only [List.cons_append, overrideFields, andThen_assoc, ih]

/-- The fields before the first one at fault take their values, and no other field does. -/
theorem overrideFields_of_fault (s : Settings) {o : Overrides} {before after : List SettingField}
    {field : SettingField} {e : ConfigError} (hbefore : ∀ field ∈ before, o.faultAt? field = none)
    (hfield : o.faultAt? field = some e) :
    s.overrideFields o (before ++ field :: after) = (s.apply (o.only before), some e) := by
  rw [overrideFields_append, overrideFields_of_sound s hbefore]
  simp only [andThen, overrideFields, overrideField_eq, hfield]

/-- Overrides take their places, unless one is at fault. -/
theorem override_eq (s : Settings) (o : Overrides) :
    (s.override o).2 = o.fault? ∧ (o.fault? = none → (s.override o).1 = s.apply o) := by
  rw [override_eq_overrideFields, o.fault?_eq_findSome?]
  cases h : order.findSome? o.faultAt? with
  | none =>
    rw [overrideFields_of_sound s (List.findSome?_eq_none_iff.1 h), o.only_order]
    exact ⟨rfl, fun _ => rfl⟩
  | some e =>
    -- the fields before the first fault are sound
    obtain ⟨before, field, after, horder, hfield, hbefore⟩ := List.findSome?_eq_some_iff.1 h
    rw [horder, overrideFields_of_fault s hbefore hfield]
    exact ⟨rfl, fun hnone => by cases hnone⟩

end Settings

/-! ## One set of overrides after the other -/

section Later

variable {text text' : Option String} {field : SettingField}

/-- A text behind one that is not at fault is all that can be wrong with a number. -/
theorem wordFault?_or (h : wordFault? field text = none) :
    wordFault? field (text'.or text) = wordFault? field text' := by
  cases text' with
  | none => rw [Option.none_or, h]; rfl
  | some w => rfl

theorem levelFault?_or (h : levelFault? text = none) :
    levelFault? (text'.or text) = levelFault? text' := by
  cases text' with
  | none => rw [Option.none_or, h]; rfl
  | some w => rfl

/-- A number that is not at fault counts, whatever counted before. -/
theorem wordOr_or (h : wordFault? field text' = none) (n : UInt64) :
    wordOr (text'.or text) n = wordOr text' (wordOr text n) := by
  cases text' with
  | none => rfl
  | some w =>
    simp only [wordFault?, Option.bind_some] at h
    cases hw : Text.readWord w with
    | error fault => simp [hw] at h
    | ok m => simp [wordOr, hw, Except.toOption]

/-- So does a level. -/
theorem levelOr_or (h : levelFault? text' = none) (level : Log.Level) :
    levelOr (text'.or text) level = levelOr text' (levelOr text level) := by
  cases text' with
  | none => rfl
  | some w =>
    simp only [levelFault?, Option.bind_some] at h
    cases hw : Log.Level.ofText? w with
    | none => simp [hw] at h
    | some m => simp [levelOr, hw]

end Later

/-- All overrides are sound if the first one at fault is none. -/
theorem Overrides.fault?_eq_none_iff (o : Overrides) : o.fault? = none ↔
    wordFault? .capacity o.capacity = none ∧ wordFault? .batchSize o.batchSize = none ∧
    wordFault? .interval o.interval = none ∧ levelFault? o.logLevel = none := by
  simp only [fault?, Option.or_eq_none_iff]

/-- What can be wrong with two sets of overrides, the earlier of which is sound, is what is wrong
with the later one. -/
theorem Overrides.fault?_or {o : Overrides} (h : o.fault? = none) (o' : Overrides) :
    (o'.or o).fault? = o'.fault? := by
  obtain ⟨hcapacity, hbatch, hinterval, hlevel⟩ := o.fault?_eq_none_iff.1 h
  simp only [fault?, Overrides.or, wordFault?_or hcapacity, wordFault?_or hbatch,
    wordFault?_or hinterval, levelFault?_or hlevel]

/-- Applying two sets of overrides is applying the later one to what the earlier one leaves. -/
theorem Settings.apply_or (s : Settings) (o : Overrides) {o' : Overrides}
    (h : o'.fault? = none) : s.apply (o'.or o) = (s.apply o).apply o' := by
  obtain ⟨hcapacity, hbatch, hinterval, hlevel⟩ := o'.fault?_eq_none_iff.1 h
  simp only [apply, Overrides.or, wordOr_or hcapacity, wordOr_or hbatch, wordOr_or hinterval,
    levelOr_or hlevel]

namespace Overrides

/-- The overrides that hold for each field what was last said of it. -/
def last (os : List Overrides) : Overrides where
  capacity := (os.filterMap (·.capacity)).getLast?
  batchSize := (os.filterMap (·.batchSize)).getLast?
  interval := (os.filterMap (·.interval)).getLast?
  logLevel := (os.filterMap (·.logLevel)).getLast?

/-- What was last said counts, and what an earlier set says only where no later one says
anything. -/
theorem last_cons (o : Overrides) (os : List Overrides) : last (o :: os) = (last os).or o := by
  have hlast : ∀ f : Overrides → Option String,
      ((o :: os).filterMap f).getLast? = ((os.filterMap f).getLast?).or (f o) := by
    intro f
    -- an override that says nothing leaves the field to the ones after it
    cases h : f o with
    | none => rw [List.filterMap_cons_none h, Option.or_none]
    | some w =>
      rw [List.filterMap_cons_some h, List.getLast?_cons]
      cases (os.filterMap f).getLast? <;> rfl
  simp only [last, Overrides.or, hlast]

end Overrides

namespace Settings

/-- Applies sets of overrides, one after the other. The first one at fault ends it. -/
def overrideAll (s : Settings) : List Overrides → Settings × Option ConfigError
  | [] => (s, none)
  | o :: os => andThen (s.override o) fun s => s.overrideAll os

/-- If no set is at fault, neither is the last word on each field, and it counts. -/
theorem overrideAll_eq_none {s : Settings} {os : List Overrides}
    (h : (s.overrideAll os).2 = none) : (Overrides.last os).fault? = none ∧
      s.overrideAll os = (s.apply (Overrides.last os), none) := by
  induction os generalizing s with
  | nil => exact ⟨rfl, rfl⟩
  | cons o os ih =>
    obtain ⟨hfirst, hrest⟩ := andThen_eq_none (f := fun s => s.overrideAll os) h
    obtain ⟨hfault, happlied⟩ := s.override_eq o
    have hsound : o.fault? = none := hfault.symm.trans hfirst
    rw [overrideAll, hrest, happlied hsound] at h ⊢
    -- what the later sets say last is applied over what this one says
    obtain ⟨hlast, hall⟩ := ih h
    rw [Overrides.last_cons, Overrides.fault?_or hsound, s.apply_or o hlast]
    exact ⟨hlast, hall⟩

/-- The last word on each field does what all sets do. -/
theorem override_last {s : Settings} {os : List Overrides} (h : (s.overrideAll os).2 = none) :
    s.override (Overrides.last os) = s.overrideAll os := by
  obtain ⟨hlast, hall⟩ := overrideAll_eq_none h
  obtain ⟨hfault, happlied⟩ := s.override_eq (Overrides.last os)
  rw [hall]
  exact Prod.ext (happlied hlast) (hfault.trans hlast)

end Settings

/-! ## What is accepted, and what it says -/

/-- A text is a value of a field: a numeral that fits in a word, or a name of a log level. -/
def SettingField.Accepts : SettingField → String → Prop
  | .logLevel, text => ∃ level : Log.Level, level.IsCalled text
  | _, text => ∃ n < UInt64.size, Text.IsNumeral text n

/-- A number is not at fault exactly if its text is a numeral that fits in a word. -/
theorem wordFault?_eq_none_iff (field : SettingField) (w : String) :
    wordFault? field (some w) = none ↔ ∃ n < UInt64.size, Text.IsNumeral w n := by
  rw [← Text.exists_readWord_iff, wordFault?, Option.bind_some]
  cases Text.readWord w <;> simp

/-- A level is not at fault exactly if some level is called by its text. -/
theorem levelFault?_eq_none_iff (w : String) :
    levelFault? (some w) = none ↔ ∃ level : Log.Level, level.IsCalled w := by
  simp only [← Log.Level.ofText?_eq_some_iff, levelFault?, Option.bind_some]
  cases Log.Level.ofText? w <;> simp

/-- The error of a number comes from a text and names the field. -/
theorem wordFault?_eq_some {field : SettingField} {text : Option String} {e : ConfigError}
    (h : wordFault? field text = some e) :
    ∃ w cause, text = some w ∧ e = .invalidValue field cause := by
  cases text with
  | none => cases h
  | some w =>
    rw [wordFault?, Option.bind_some] at h
    cases hw : Text.readWord w with
    | ok n => simp [hw] at h
    | error fault => exact ⟨w, fault.message, rfl, by simpa [hw] using h.symm⟩

/-- The error of a level comes from a text and names its field. -/
theorem levelFault?_eq_some {text : Option String} {e : ConfigError}
    (h : levelFault? text = some e) :
    ∃ w cause, text = some w ∧ e = .invalidValue .logLevel cause := by
  cases text with
  | none => cases h
  | some w =>
    rw [levelFault?, Option.bind_some] at h
    split at h
    · cases h
    · exact ⟨w, _, rfl, (Option.some.inj h).symm⟩

/-- Nothing is wrong with what a field accepts, or if there is nothing to accept. -/
theorem SettingField.faultOf?_eq_none_iff (field : SettingField) (text : Option String) :
    field.faultOf? text = none ↔ ∀ w, text = some w → field.Accepts w := by
  cases text with
  | none =>
    have hnone : field.faultOf? none = none := by cases field <;> rfl
    simp [hnone]
  | some w =>
    simp only [Option.some.injEq, forall_eq']
    -- one field is read as a level, all others as numbers
    cases field with
    | logLevel => exact levelFault?_eq_none_iff w
    | capacity | batchSize | interval | vendorId => exact wordFault?_eq_none_iff _ w

/-- The error of a field names the field. -/
theorem SettingField.faultOf?_eq_some {field : SettingField} {text : Option String}
    {e : ConfigError} (h : field.faultOf? text = some e) :
    ∃ w cause, text = some w ∧ ¬field.Accepts w ∧ e = .invalidValue field cause := by
  -- every fault names the field it was found in
  have hnamed : ∃ w cause, text = some w ∧ e = .invalidValue field cause := by
    cases field with
    | logLevel => exact levelFault?_eq_some h
    | capacity | batchSize | interval | vendorId => exact wordFault?_eq_some h
  obtain ⟨w, cause, rfl, rfl⟩ := hnamed
  refine ⟨w, cause, rfl, fun haccepts => ?_, rfl⟩
  rw [(field.faultOf?_eq_none_iff (some w)).2 (by simpa using haccepts)] at h
  cases h

namespace Settings

/-- A number is what a text says, or what it was where there is no text. -/
def TakesWord (text : Option String) (n n' : UInt64) : Prop :=
  match text with
  | none => n' = n
  | some w => Text.IsNumeral w n'.toNat

/-- A level is what a text calls it, or what it was where there is no text. -/
def TakesLevel (text : Option String) (level level' : Log.Level) : Prop :=
  match text with
  | none => level' = level
  | some w => level'.IsCalled w

/-- A number whose text is not at fault is the one that its text says. -/
theorem takesWord_wordOr {field : SettingField} {text : Option String}
    (h : wordFault? field text = none) (n : UInt64) : TakesWord text n (wordOr text n) := by
  cases text with
  | none => rfl
  | some w =>
    obtain ⟨m, hm⟩ := (Text.exists_readWord_iff w).2 ((wordFault?_eq_none_iff field w).1 h)
    have hvalue : wordOr (some w) n = m := by simp [wordOr, hm, Except.toOption]
    rw [hvalue]
    exact (Text.readWord_eq_ok_iff w m).1 hm

/-- So is a level. -/
theorem takesLevel_levelOr {text : Option String} (h : levelFault? text = none)
    (level : Log.Level) : TakesLevel text level (levelOr text level) := by
  cases text with
  | none => rfl
  | some w =>
    -- a text without a fault is the name of a level
    obtain ⟨called, hcalled⟩ := (levelFault?_eq_none_iff w).1 h
    have hread := (Log.Level.ofText?_eq_some_iff w called).2 hcalled
    have hvalue : levelOr (some w) level = called := by simp [levelOr, hread]
    rw [hvalue]
    exact hcalled

/-- Settings that differ from others only in the fields that texts are given for, and hold in these
what the texts say. -/
structure Takes (s : Settings) (o : Overrides) (s' : Settings) : Prop where
  capacity : TakesWord o.capacity s.queue.capacity s'.queue.capacity
  batchSize : TakesWord o.batchSize s.dispatch.batchSize s'.dispatch.batchSize
  interval : TakesWord o.interval s.dispatch.interval s'.dispatch.interval
  logLevel : TakesLevel o.logLevel s.logging.level s'.logging.level
  others : s' = { s with
    queue := { s.queue with capacity := s'.queue.capacity }
    dispatch := { s.dispatch with
      batchSize := s'.dispatch.batchSize
      interval := s'.dispatch.interval }
    logging := { s.logging with level := s'.logging.level } }

/-- Overrides that are not at fault all take their places. -/
theorem takes_apply (s : Settings) {o : Overrides} (h : ∀ field, o.faultAt? field = none) :
    s.Takes o (s.apply o) where
  capacity := takesWord_wordOr (h .capacity) _
  batchSize := takesWord_wordOr (h .batchSize) _
  interval := takesWord_wordOr (h .interval) _
  logLevel := takesLevel_levelOr (h .logLevel) _
  others := rfl

/-- What overrides make of settings, and whether they fail. -/
inductive Overridden (s : Settings) (o : Overrides) : Settings × Option ConfigError → Prop
  /-- All texts are accepted, and all take their places. -/
  | applied {s' : Settings} (accepts : ∀ field w, o.text? field = some w → field.Accepts w)
      (takes : s.Takes o s') : Overridden s o (s', none)
  /-- The text of a field is the first that is not accepted, and only those before it take their
  places. -/
  | stopped {s' : Settings} {before after : List SettingField} {field : SettingField}
      {w cause : String} (order_eq : Overrides.order = before ++ field :: after)
      (given : o.text? field = some w) (rejects : ¬field.Accepts w)
      (accepts : ∀ field ∈ before, ∀ w, o.text? field = some w → field.Accepts w)
      (takes : s.Takes (o.only before) s') :
      Overridden s o (s', some (.invalidValue field cause))

/-- Overrides are applied field by field, up to the first text that is not accepted. Many sets of
overrides that are all accepted are as good as the last word on each field. -/
theorem overridden_override (s : Settings) :
    (∀ o, s.Overridden o (s.override o)) ∧
    ∀ os, (s.overrideAll os).2 = none → s.override (Overrides.last os) = s.overrideAll os := by
  refine ⟨fun o => ?_, fun os => override_last⟩
  rw [override_eq_overrideFields]
  cases h : Overrides.order.findSome? o.faultAt? with
  | none =>
    -- no field is at fault, so every text that is given is accepted
    have hsound := List.findSome?_eq_none_iff.1 h
    have hall : ∀ field, o.faultAt? field = none := Overrides.faultAt?_only_of_sound hsound
    rw [overrideFields_of_sound s hsound, o.only_order]
    exact .applied (fun field => (field.faultOf?_eq_none_iff _).1 (hall field)) (s.takes_apply hall)
  | some e =>
    -- the first fault splits the order of the fields
    obtain ⟨before, field, after, horder, hfield, hbefore⟩ := List.findSome?_eq_some_iff.1 h
    obtain ⟨w, cause, hgiven, hrejects, rfl⟩ := SettingField.faultOf?_eq_some hfield
    rw [horder, overrideFields_of_fault s hbefore hfield]
    exact .stopped horder hgiven hrejects
      (fun field hmem => (field.faultOf?_eq_none_iff _).1 (hbefore field hmem))
      (s.takes_apply (Overrides.faultAt?_only_of_sound hbefore))

/-- An interval with a unit stops the fields after it, and a later capacity takes the place of an
earlier one. -/
theorem overridden_override_midway :
    let s : Settings := {}
    let os : List Overrides :=
      [{ capacity := some "5", logLevel := some "WarninG" }, { capacity := some "+07" }]
    s.Overridden { capacity := some "500", interval := some "1000ms", logLevel := some "debug" }
      ({ queue := { capacity := 500 } },
        some (.invalidValue .interval "invalid digit found in string")) ∧
    (s.overrideAll os).2 = none ∧
    s.override { capacity := some "+07", logLevel := some "WarninG" } = s.overrideAll os ∧
    (s.overrideAll os).1 = { queue := { capacity := 7 }, logging := { level := .warn } } := by
  intro s os
  obtain ⟨hone, hall⟩ := overridden_override s
  have hsound : (s.overrideAll os).2 = none := by decide +kernel
  refine ⟨?_, hsound, hall os hsound, by decide +kernel⟩
  -- the capacity is set before the fault is found, and the level after it is not
  have hstopped := hone
    { capacity := some "500", interval := some "1000ms", logLevel := some "debug" }
  have hresult : s.override
      { capacity := some "500", interval := some "1000ms", logLevel := some "debug" } =
      ({ queue := { capacity := 500 } },
        some (.invalidValue .interval "invalid digit found in string")) := by decide +kernel
  rwa [hresult] at hstopped

end Settings

end ClientMetrics
