import ClientMetrics.Proofs.Config.Yaml
import ClientMetrics.Proofs.Yaml.Entry
import Mathlib.Data.List.Nodup

/-!
# Settings over the defaults

A document need not give all settings. Those that it does not give have their defaults, whatever the
default of a setting is, and wherever in the document the others stand. `Gives` says which settings
a document gives: each of them occurs once in its section, with the value that is written for it,
and no other setting occurs. Nothing is said of what else the document holds, or how it is written.

Key results:
- `Settings.overlay`: the settings that are given, over the defaults.
- `field_key`, `Placed.field`: a setting or a section that is given is found, any other has its
  default.
- `ofNode?_of_gives`: what is read from a document that gives some settings.
-/

namespace ClientMetrics

open Yaml

namespace Settings

/-! ## Settings and sections by name -/

/-- A section of settings. -/
inductive Part where
  | queue
  | dispatch
  | privacy
  | sdk
  | logging
  | metrics
  deriving DecidableEq, Repr

namespace Part

/-- The name of a section in a document. -/
def name : Part → String
  | queue => "queue"
  | dispatch => "dispatch"
  | privacy => "privacy"
  | sdk => "sdk"
  | logging => "logging"
  | metrics => "metrics"

/-- The name of a section is written plainly. -/
theorem styleOf_name (part : Part) : styleOf part.name.toList = .plain := by cases part <;> decide

theorem isSimpleKey_name (part : Part) : Write.isSimpleKey part.name.toList := by
  cases part <;> decide

/-- All sections, in the order in which they are written. -/
def all : List Part := [queue, dispatch, privacy, sdk, logging, metrics]

theorem mem_all (part : Part) : part ∈ all := by cases part <;> decide

/-- No two sections have the same name. -/
theorem name_injective : Function.Injective name := fun part part' =>
  List.inj_on_of_nodup_map (show (all.map name).Nodup by decide) (mem_all part) (mem_all part')

end Part

/-- A single setting. -/
inductive Key where
  | capacity
  | overflow
  | batchSize
  | interval
  | shutdownTimeout
  | retryFailed
  | vendorId
  | profileId
  | wrapperVersion
  | level
  | format
  | enableBacktraces
  | host
  | pre
  | defaultTags
  deriving DecidableEq, Repr

namespace Key

/-- The section of a setting. -/
def part : Key → Part
  | capacity | overflow => .queue
  | batchSize | interval | shutdownTimeout | retryFailed => .dispatch
  | vendorId => .privacy
  | profileId | wrapperVersion => .sdk
  | level | format | enableBacktraces => .logging
  | host | pre | defaultTags => .metrics

/-- The name of a setting in its section. -/
def name : Key → String
  | capacity => "capacity"
  | overflow => "overflow"
  | batchSize => "batch_size"
  | interval => "interval"
  | shutdownTimeout => "shutdown_timeout"
  | retryFailed => "retry_failed"
  | vendorId => "vendor_id"
  | profileId => "profile_id"
  | wrapperVersion => "wrapper_version"
  | level => "level"
  | format => "format"
  | enableBacktraces => "enable_backtraces"
  | host => "host"
  | pre => "prefix"
  | defaultTags => "default_tags"

/-- The settings of a section, in the order in which they are written. -/
def inPart : Part → List Key
  | .queue => [capacity, overflow]
  | .dispatch => [batchSize, interval, shutdownTimeout, retryFailed]
  | .privacy => [vendorId]
  | .sdk => [profileId, wrapperVersion]
  | .logging => [level, format, enableBacktraces]
  | .metrics => [host, pre, defaultTags]

/-- All settings. -/
def all : List Key := Part.all.flatMap inPart

theorem mem_all (key : Key) : key ∈ all := by cases key <;> decide

/-- No two settings have the same name, in one section or in two. -/
theorem name_injective : Function.Injective name := fun key key' =>
  List.inj_on_of_nodup_map (show (all.map name).Nodup by decide) (mem_all key) (mem_all key')

/-- The entries of tags, in their order. -/
def tagEntries (tags : Statsd.SortedTags) : List (Entry 4) :=
  tags.toList.map fun tag => .ofText 4 tag.1 tag.2

/-- The entry of a setting. A host that is not set has none. -/
def entries (s : Settings) : Key → List (Entry 2)
  | capacity => [.ofWord 2 "capacity" (isPlain_toString s.queue.capacity.toNat)]
  | overflow => [.ofText 2 "overflow" s.queue.overflow.name]
  | batchSize => [.ofWord 2 "batch_size" (isPlain_toString s.dispatch.batchSize.toNat)]
  | interval => [.ofWord 2 "interval" (isPlain_toString s.dispatch.interval.toNat)]
  | shutdownTimeout =>
    [.ofWord 2 "shutdown_timeout" (isPlain_toString s.dispatch.shutdownTimeout.toNat)]
  | retryFailed => [.ofWord 2 "retry_failed" (isPlain_toString_bool s.dispatch.retryFailed)]
  | vendorId => [.ofWord 2 "vendor_id" (isPlain_toString s.privacy.vendorId.toNat)]
  | profileId => [.ofWord 2 "profile_id" (isPlain_toString s.sdk.profileId.toNat)]
  | wrapperVersion => [.ofText 2 "wrapper_version" s.sdk.wrapperVersion]
  | level => [.ofText 2 "level" s.logging.level.name]
  | format => [.ofText 2 "format" s.logging.format.name]
  | enableBacktraces =>
    [.ofWord 2 "enable_backtraces" (isPlain_toString_bool s.logging.enableBacktraces)]
  | host =>
    match s.metrics.host with
    | some address => [.ofText 2 "host" address]
    | none => []
  | pre => [.ofText 2 "prefix" s.metrics.pre]
  | defaultTags =>
    [.ofEntries "default_tags" (by decide) (by decide) (tagEntries s.metrics.defaultTags)]

/-- The entry of a setting has its name. -/
theorem name_of_mem_entries (s : Settings) (key : Key) :
    ∀ e ∈ key.entries s, e.name = key.name := by
  intro e he
  -- a host that is not set has no entry, and every other setting has one
  cases key with
  | host =>
    rw [entries] at he
    split at he
    · rw [List.mem_singleton.1 he]
      rfl
    · simp at he
  | _ =>
    rw [List.mem_singleton.1 he]
    rfl

end Key

/-- The settings that are given, over the defaults of all others. -/
def overlay (s : Settings) (gives : Key → Bool) : Settings :=
  let d : Settings := {}
  { queue := {
      capacity := if gives .capacity then s.queue.capacity else d.queue.capacity
      overflow := if gives .overflow then s.queue.overflow else d.queue.overflow }
    dispatch := {
      batchSize := if gives .batchSize then s.dispatch.batchSize else d.dispatch.batchSize
      interval := if gives .interval then s.dispatch.interval else d.dispatch.interval
      shutdownTimeout :=
        if gives .shutdownTimeout then s.dispatch.shutdownTimeout else d.dispatch.shutdownTimeout
      retryFailed := if gives .retryFailed then s.dispatch.retryFailed else d.dispatch.retryFailed }
    privacy := {
      vendorId := if gives .vendorId then s.privacy.vendorId else d.privacy.vendorId }
    sdk := {
      profileId := if gives .profileId then s.sdk.profileId else d.sdk.profileId
      wrapperVersion :=
        if gives .wrapperVersion then s.sdk.wrapperVersion else d.sdk.wrapperVersion }
    logging := {
      level := if gives .level then s.logging.level else d.logging.level
      format := if gives .format then s.logging.format else d.logging.format
      enableBacktraces :=
        if gives .enableBacktraces then s.logging.enableBacktraces else d.logging.enableBacktraces }
    metrics := {
      host := if gives .host then s.metrics.host else d.metrics.host
      pre := if gives .pre then s.metrics.pre else d.metrics.pre
      defaultTags := if gives .defaultTags then s.metrics.defaultTags else d.metrics.defaultTags } }

/-! ## Documents that give settings -/

/-- Of the settings of a section the fields give these: they occur once, and the others do not. A
host that is not set has no field either way. -/
def GivesOf (s : Settings) (gives : Key → Bool) (part : Part) (fields : List (String × Node)) :
    Prop :=
  ∀ key : Key, key.part = part →
    fields.filter (·.1 = key.name) = if gives key then (key.entries s).map Entry.field else []

/-- Where a section stands among the fields of a document, if it gives any settings. -/
inductive Placed (s : Settings) (gives : Key → Bool) (root : Node) (fields : List (String × Node))
    (part : Part) : Prop
  | absent (hfields : fields.filter (·.1 = part.name) = [])
      (hnone : ∀ key : Key, key.part = part → gives key = false)
  | present {n value : Node} {inner : List (String × Node)}
      (hfields : fields.filter (·.1 = part.name) = [(part.name, n)])
      (hresolve : root.resolve? n = some value) (hinner : value.fields? root = some inner)
      (hgives : GivesOf s gives part inner)

/-- The document gives these of the settings. -/
def Gives (s : Settings) (gives : Key → Bool) (root : Node) : Prop :=
  ∃ fields, root.fields? root = some fields ∧ ∀ part, Placed s gives root fields part

section Reading

variable {s : Settings} {gives : Key → Bool} {root n : Node} {fields : List (String × Node)}
  {β : Type} {d a : β} {read : Node → Option β}

/-- A setting is read wherever it stands in its section, and has its default where it is left
out. -/
theorem GivesOf.field_key {part : Part} (h : GivesOf s gives part fields) (key : Key)
    (hpart : key.part = part)
    (halone : field root ((key.entries s).map Entry.field) key.name d read = some a) :
    field root fields key.name d read = some (if gives key then a else d) := by
  rw [← field_filter, h key hpart]
  -- only the fields of this name matter, and they are the entries of the setting or none
  by_cases hgives : gives key
  · rw [if_pos hgives, if_pos hgives, halone]
  · rw [if_neg hgives, if_neg hgives, field_nil]

/-- A section is read wherever it stands in the document, and has the defaults where it is left
out. -/
theorem Placed.field {part : Part} (h : Placed s gives root fields part)
    (hread : ∀ value inner, value.fields? root = some inner → GivesOf s gives part inner →
      read value = some a)
    (hnone : (∀ key : Key, key.part = part → gives key = false) → a = d) :
    field root fields part.name d read = some a := by
  rw [← field_filter]
  cases h with
  | absent hfields hgives => rw [hfields, field_nil, hnone hgives]
  | present hfields hresolve hinner hgives =>
    rw [hfields]
    simp [Yaml.field, hresolve, hread _ _ hinner hgives]

/-- A section of the queue is read as the settings that it gives, over the defaults. So is that of
each other part. -/
theorem readQueue_of_gives (hn : n.fields? root = some fields) (h : GivesOf s gives .queue fields) :
    readQueue root n = some (s.overlay gives).queue := by
  apply readQueue_eq hn
  · exact h.field_key .capacity rfl (field_singleton rfl (readWord64_toString _))
  · exact h.field_key .overflow rfl (field_singleton rfl (ofName?_overflow _))

theorem readDispatch_of_gives (hn : n.fields? root = some fields)
    (h : GivesOf s gives .dispatch fields) :
    readDispatch root n = some (s.overlay gives).dispatch := by
  apply readDispatch_eq hn
  · exact h.field_key .batchSize rfl (field_singleton rfl (readWord64_toString _))
  · exact h.field_key .interval rfl (field_singleton rfl (readWord64_toString _))
  · exact h.field_key .shutdownTimeout rfl (field_singleton rfl (readWord64_toString _))
  · exact h.field_key .retryFailed rfl (field_singleton rfl (bool?_toString _))

theorem readPrivacy_of_gives (hn : n.fields? root = some fields)
    (h : GivesOf s gives .privacy fields) :
    readPrivacy root n = some (s.overlay gives).privacy := by
  apply readPrivacy_eq hn
  exact h.field_key .vendorId rfl (field_singleton rfl (readWord16_toString _))

theorem readSdk_of_gives (hn : n.fields? root = some fields) (h : GivesOf s gives .sdk fields) :
    readSdk root n = some (s.overlay gives).sdk := by
  apply readSdk_eq hn
  · exact h.field_key .profileId rfl (field_singleton rfl (readWord32_toString _))
  · exact h.field_key .wrapperVersion rfl (field_singleton rfl (text?_textNode _))

theorem readLogging_of_gives (hn : n.fields? root = some fields)
    (h : GivesOf s gives .logging fields) :
    readLogging root n = some (s.overlay gives).logging := by
  apply readLogging_eq hn
  · exact h.field_key .level rfl (field_singleton rfl (ofName?_level _))
  · exact h.field_key .format rfl (field_singleton rfl (ofName?_format _))
  · exact h.field_key .enableBacktraces rfl (field_singleton rfl (bool?_toString _))

theorem readMetrics_of_gives (hn : n.fields? root = some fields)
    (h : GivesOf s gives .metrics fields) :
    readMetrics root n = some (s.overlay gives).metrics := by
  -- a host that is not set has no entry, and is not set by default
  have hhost : field root ((Key.host.entries s).map Entry.field) "host" none Node.optionalText?
      = some s.metrics.host := by
    rw [Key.entries]
    cases s.metrics.host with
    | none => rfl
    | some address => exact field_singleton rfl (optionalText?_textNode address)
  -- the tags are in order, so inserting them one after the other changes nothing
  have htags : ((Node.mapping {} ((Key.tagEntries s.metrics.defaultTags).map Entry.node)).texts?
      root).map Statsd.SortedTags.ofList = some s.metrics.defaultTags := by
    rw [Key.tagEntries, Entry.texts?_ofText, Option.map_some, Statsd.SortedTags.ofList_toList]
  apply readMetrics_eq hn
  · exact h.field_key .host rfl hhost
  · exact h.field_key .pre rfl (field_singleton rfl (text?_textNode _))
  · refine h.field_key .defaultTags rfl (field_singleton rfl ?_)
    rw [Entry.value_ofEntries, htags]

/-- What is read from a document are the settings that it gives, over the defaults. -/
theorem ofNode?_of_gives (h : Gives s gives root) :
    ofNode? root = some (s.overlay gives) := by
  obtain ⟨fields, hfields, hplaced⟩ := h
  -- a section that is left out gives nothing, and nothing over the defaults are the defaults
  apply ofNode?_eq hfields
  · refine (hplaced .queue).field (fun _ _ => readQueue_of_gives) fun hnone => ?_
    simp only [overlay, hnone .capacity rfl, hnone .overflow rfl]
    rfl
  · refine (hplaced .dispatch).field (fun _ _ => readDispatch_of_gives) fun hnone => ?_
    simp only [overlay, hnone .batchSize rfl, hnone .interval rfl, hnone .shutdownTimeout rfl,
      hnone .retryFailed rfl]
    rfl
  · refine (hplaced .privacy).field (fun _ _ => readPrivacy_of_gives) fun hnone => ?_
    simp only [overlay, hnone .vendorId rfl]
    rfl
  · refine (hplaced .sdk).field (fun _ _ => readSdk_of_gives) fun hnone => ?_
    simp only [overlay, hnone .profileId rfl, hnone .wrapperVersion rfl]
    rfl
  · refine (hplaced .logging).field (fun _ _ => readLogging_of_gives) fun hnone => ?_
    simp only [overlay, hnone .level rfl, hnone .format rfl, hnone .enableBacktraces rfl]
    rfl
  · refine (hplaced .metrics).field (fun _ _ => readMetrics_of_gives) fun hnone => ?_
    simp only [overlay, hnone .host rfl, hnone .pre rfl, hnone .defaultTags rfl]
    rfl

end Reading

end Settings

end ClientMetrics
