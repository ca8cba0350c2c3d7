import ClientMetrics.Config.Yaml
import ClientMetrics.Proofs.Yaml.Fields

/-!
# Reading settings back

The text of settings is read as a mapping of sections, and every section as the mapping of its
fields. What is read back are the settings that were written, whatever texts they hold.

Line ends after the text change nothing, with one exception. The last thing in the text is the
value of the last default tag, and where that is a literal block that keeps the line ends after it,
it takes them too (`Settings.followedBy`).

Key results:
- `Settings.readQueue_eq` and its like, `Settings.ofNode?_eq`: what is made of the fields of a
  mapping, wherever they stand in it.
- `Settings.holds_sections`: the entries of the text.
- `Settings.ofNode?_sections`: the settings of these entries.
- `Settings.ofYaml?_followedBy`: reading the text, with line ends after it or without.
- `Settings.followedBy_eq_self_iff`: which settings are read back as they are.
-/

namespace ClientMetrics

open Yaml

/-! ## Tags -/

namespace Statsd

namespace SortedTags

/-- A tag whose value takes what it keeps of the line ends that follow. -/
def tagBefore (t : String × String) (ends : List Char) : String × String :=
  (t.1, .ofList (t.2.toList ++ absorbed t.2.toList ends))

/-- Tags that are read back where line ends follow them. Only the last one meets these. -/
def followedBy (tags : SortedTags) (ends : List Char) : SortedTags where
  toList := beforeEnds tagBefore tags.toList ends
  sorted := by
    have hkeys : (beforeEnds tagBefore tags.toList ends).map Prod.fst
        = tags.toList.map Prod.fst := by
      rw [map_beforeEnds]
      exact beforeEnds_eq_map (g := Prod.fst) (fun _ _ => rfl) tags.toList ends
    have hsorted : (tags.toList.map Prod.fst).Pairwise (· < ·) := List.pairwise_map.2 tags.sorted
    rw [← hkeys] at hsorted
    exact List.pairwise_map.1 hsorted

theorem tagBefore_nil (t : String × String) : tagBefore t [] = t := by
  simp [tagBefore, String.ofList_toList]

/-- Without line ends after them, tags are read back as themselves. -/
theorem followedBy_nil (tags : SortedTags) : tags.followedBy [] = tags := by
  obtain ⟨tags, hsorted⟩ := tags
  simp only [followedBy, mk.injEq]
  rw [beforeEnds_nil]
  exact List.map_id'' tagBefore_nil tags

/-- A value that takes the line ends after it: it is written as a literal block, and ends in a line
without text. -/
def KeepsLineEnds (value : String) : Prop :=
  styleOf value.toList = .literal ∧ Block.chompingOf value.toList = .keep

/-- A value takes nothing of the line ends after it unless it is a literal block that keeps them. -/
theorem tagBefore_eq_self_iff (t : String × String) {ends : List Char} (hends : ends ≠ []) :
    tagBefore t ends = t ↔ ¬KeepsLineEnds t.2 := by
  obtain ⟨key, value⟩ := t
  have hvalue : tagBefore (key, value) ends = (key, value) ↔ absorbed value.toList ends = [] := by
    simp only [tagBefore, Prod.mk.injEq, true_and]
    rw [← String.toList_inj, String.toList_ofList]
    simp
  -- only a literal block absorbs line ends, and only if its header keeps them
  rw [hvalue, absorbed, Block.kept, KeepsLineEnds]
  split
  · next hstyle => split <;> simp_all
  · next hstyle => simp [hstyle]

/-- Only a last value that keeps line ends is changed by them. -/
theorem followedBy_eq_self_iff (tags : SortedTags) {ends : List Char} (hends : ends ≠ []) :
    tags.followedBy ends = tags ↔
      ∀ t, tags.toList.getLast? = some t → ¬KeepsLineEnds t.2 := by
  obtain ⟨tags, hsorted⟩ := tags
  simp only [followedBy, mk.injEq]
  clear hsorted
  induction tags with
  | nil => simp [beforeEnds]
  | cons t tags ih =>
    cases tags with
    | nil => simp [beforeEnds, tagBefore_eq_self_iff t hends]
    | cons u tags =>
      have htag : tagBefore t [] = t := tagBefore_nil t
      -- a tag with others behind it never meets the line ends
      rw [beforeEnds, htag, List.cons_inj_right, ih, List.getLast?_cons_cons]

/-- A key that comes after all others goes to the end. -/
theorem put_last {key value : String} {tags : Tags} (h : ∀ t ∈ tags, t.1 < key) :
    Tags.put key value tags = tags ++ [(key, value)] := by
  induction tags with
  | nil => rfl
  | cons t tags ih =>
    obtain ⟨ht, htags⟩ := List.forall_mem_cons.1 h
    -- the new key is greater than all others, so it passes each of them
    have hne : key ≠ t.1 := by
      rintro rfl
      exact String.lt_irrefl _ ht
    rw [Tags.put, if_neg (String.lt_asymm ht), if_neg hne, ih htags, List.cons_append]

/-- Tags in order are inserted one behind the other. -/
theorem toList_foldl_insert {tags : Tags} (sorted : SortedTags)
    (h : (sorted.toList ++ tags).Pairwise fun a b => a.1 < b.1) :
    (tags.foldl (fun sorted (t : String × String) => sorted.insert t.1 t.2) sorted).toList
      = sorted.toList ++ tags := by
  induction tags generalizing sorted with
  | nil => simp
  | cons t tags ih =>
    have hlast : ∀ u ∈ sorted.toList, u.1 < t.1 := fun u hu =>
      -- the keys are in order, so each tag is inserted behind those that are there
      (List.pairwise_append.1 h).2.2 u hu t List.mem_cons_self
    have hinsert : (sorted.insert t.1 t.2).toList = sorted.toList ++ [t] := by
      rw [toList_insert, put_last hlast]
    rw [List.foldl_cons, ih _ (by rw [hinsert]; simpa using h), hinsert]
    simp

/-- Tags in order are put together as they are. -/
theorem ofList_toList (tags : SortedTags) : ofList tags.toList = tags := by
  have htoList : (ofList tags.toList).toList = tags.toList := toList_foldl_insert empty tags.sorted
  generalize ofList tags.toList = built at htoList
  obtain ⟨toList, hsorted⟩ := tags
  obtain ⟨toList', hsorted'⟩ := built
  obtain rfl : toList' = toList := htoList
  rfl

end SortedTags

end Statsd

/-! ## Numbers and names -/

/-- A number of 64 bits is read back from its digits. -/
theorem readWord64_toString (n : UInt64) : readWord64 (wordNode (toString n.toNat)) = some n := by
  rw [readWord64, natural?_toString n.toNat_lt_size, Option.map_some, UInt64.ofNat_toNat]

theorem readWord32_toString (n : UInt32) : readWord32 (wordNode (toString n.toNat)) = some n := by
  rw [readWord32, natural?_toString n.toNat_lt_size, Option.map_some, UInt32.ofNat_toNat]

theorem readWord16_toString (n : UInt16) : readWord16 (wordNode (toString n.toNat)) = some n := by
  rw [readWord16, natural?_toString n.toNat_lt_size, Option.map_some, UInt16.ofNat_toNat]

/-- The policy of the queue is read back from its name. -/
theorem ofName?_overflow (o : Overflow) :
    (do Overflow.ofName? (← (textNode o.name []).name?)) = some o := by
  rw [name?_textNode]
  cases o <;> rfl

theorem ofName?_level (level : Log.Level) :
    (do Log.Level.ofName? (← (textNode level.name []).name?)) = some level := by
  rw [name?_textNode]
  cases level <;> rfl

theorem ofName?_format (format : Log.Format) :
    (do Log.Format.ofName? (← (textNode format.name []).name?)) = some format := by
  rw [name?_textNode]
  cases format <;> rfl

namespace Settings

variable {root : Node}

/-! ## What is made of fields -/

section Reading

variable {n : Node} {fields : List (String × Node)}

/-- The settings of the queue are what its two fields say, wherever these stand in the mapping. -/
theorem readQueue_eq {s : QueueSettings} (hn : n.fields? root = some fields)
    (hcapacity : field root fields "capacity" ({} : QueueSettings).capacity readWord64
      = some s.capacity)
    (hoverflow : field root fields "overflow" ({} : QueueSettings).overflow
      (fun n => do Overflow.ofName? (← n.name?)) = some s.overflow) :
    readQueue root n = some s := by
  rw [readQueue, hn]
  simp only [Option.bind_eq_bind, Option.bind_some, hcapacity] at hoverflow ⊢
  rw [hoverflow]
  rfl

/-- So are those of the dispatcher, which has four. -/
theorem readDispatch_eq {s : DispatchSettings} (hn : n.fields? root = some fields)
    (hbatchSize : field root fields "batch_size" ({} : DispatchSettings).batchSize readWord64
      = some s.batchSize)
    (hinterval : field root fields "interval" ({} : DispatchSettings).interval readWord64
      = some s.interval)
    (htimeout : field root fields "shutdown_timeout" ({} : DispatchSettings).shutdownTimeout
      readWord64 = some s.shutdownTimeout)
    (hretry : field root fields "retry_failed" ({} : DispatchSettings).retryFailed Node.bool?
      = some s.retryFailed) :
    readDispatch root n = some s := by
  rw [readDispatch, hn]
  simp only [Option.bind_eq_bind, Option.bind_some, hbatchSize, hinterval, htimeout, hretry]

/-- So are those of the gate. -/
theorem readPrivacy_eq {s : PrivacySettings} (hn : n.fields? root = some fields)
    (hvendorId : field root fields "vendor_id" ({} : PrivacySettings).vendorId readWord16
      = some s.vendorId) :
    readPrivacy root n = some s := by
  rw [readPrivacy, hn]
  simp only [Option.bind_eq_bind, Option.bind_some, hvendorId]

/-- So are those of the library. -/
theorem readSdk_eq {s : SdkSettings} (hn : n.fields? root = some fields)
    (hprofileId : field root fields "profile_id" ({} : SdkSettings).profileId readWord32
      = some s.profileId)
    (hversion : field root fields "wrapper_version" ({} : SdkSettings).wrapperVersion Node.text?
      = some s.wrapperVersion) :
    readSdk root n = some s := by
  rw [readSdk, hn]
  simp only [Option.bind_eq_bind, Option.bind_some, hprofileId, hversion]

/-- So are those of the log. -/
theorem readLogging_eq {s : Log.Settings} (hn : n.fields? root = some fields)
    (hlevel : field root fields "level" ({} : Log.Settings).level
      (fun n => do Log.Level.ofName? (← n.name?)) = some s.level)
    (hformat : field root fields "format" ({} : Log.Settings).format
      (fun n => do Log.Format.ofName? (← n.name?)) = some s.format)
    (hbacktraces : field root fields "enable_backtraces" ({} : Log.Settings).enableBacktraces
      Node.bool? = some s.enableBacktraces) :
    readLogging root n = some s := by
  rw [readLogging, hn]
  simp only [Option.bind_eq_bind, Option.bind_some, hbacktraces] at hlevel hformat ⊢
  rw [hlevel]
  simp only [Option.bind_some]
  rw [hformat]
  rfl

/-- So are those of the measurements. The host may be missing, and the tags are put in order. -/
theorem readMetrics_eq {s : Statsd.Settings} (hn : n.fields? root = some fields)
    (hhost : field root fields "host" ({} : Statsd.Settings).host Node.optionalText?
      = some s.host)
    (hpre : field root fields "prefix" ({} : Statsd.Settings).pre Node.text? = some s.pre)
    (htags : field root fields "default_tags" ({} : Statsd.Settings).defaultTags
      (fun n => (n.texts? root).map Statsd.SortedTags.ofList) = some s.defaultTags) :
    readMetrics root n = some s := by
  rw [readMetrics, hn]
  simp only [Option.bind_eq_bind, Option.bind_some, hhost, hpre, htags]

/-- Settings are what their six sections say. -/
theorem ofNode?_eq {s : Settings} (hroot : root.fields? root = some fields)
    (hqueue : field root fields "queue" {} (readQueue root) = some s.queue)
    (hdispatch : field root fields "dispatch" {} (readDispatch root) = some s.dispatch)
    (hprivacy : field root fields "privacy" {} (readPrivacy root) = some s.privacy)
    (hsdk : field root fields "sdk" {} (readSdk root) = some s.sdk)
    (hlogging : field root fields "logging" {} (readLogging root) = some s.logging)
    (hmetrics : field root fields "metrics" {} (readMetrics root) = some s.metrics) :
    ofNode? root = some s := by
  simp only [ofNode?, hroot, Option.bind_eq_bind, Option.bind_some, hqueue, hdispatch, hprivacy,
    hsdk, hlogging, hmetrics]

end Reading

/-! ## Sections -/

/-- The fields of the queue. -/
def queueFields (s : QueueSettings) (ends : List Char) : List (String × Node) :=
  [("capacity", wordNode (toString s.capacity.toNat)), ("overflow", textNode s.overflow.name ends)]

/-- The section of the queue is written as its fields. -/
theorem holds_queue (s : QueueSettings) :
    Holds 2 (writeQueue s).flatten fun ends => keyed (queueFields s ends) := by
  have h := (holds_word 2 "capacity" (isPlain_toString s.capacity.toNat)).append
    (holds_text 2 "overflow" s.overflow.name)
  simpa [writeQueue, queueFields, keyed] using h

/-- From these fields it is read back. -/
theorem readQueue_fields (s : QueueSettings) :
    readQueue root (.mapping {} (keyed (queueFields s []))) = some s := by
  apply readQueue_eq (fields?_keyed ..)
  · exact field_of_filter (by simp [queueFields]) rfl (readWord64_toString s.capacity)
  · exact field_of_filter (by simp [queueFields]) rfl (ofName?_overflow s.overflow)

/-- The fields of the dispatcher. -/
def dispatchFields (s : DispatchSettings) : List (String × Node) :=
  [("batch_size", wordNode (toString s.batchSize.toNat)),
    ("interval", wordNode (toString s.interval.toNat)),
    ("shutdown_timeout", wordNode (toString s.shutdownTimeout.toNat)),
    ("retry_failed", wordNode (toString s.retryFailed))]

/-- The section of the dispatcher is written as its fields. -/
theorem holds_dispatch (s : DispatchSettings) :
    Holds 2 (writeDispatch s).flatten fun _ => keyed (dispatchFields s) := by
  have h := (((holds_word 2 "batch_size" (isPlain_toString s.batchSize.toNat)).append
    (holds_word 2 "interval" (isPlain_toString s.interval.toNat))).append
    (holds_word 2 "shutdown_timeout" (isPlain_toString s.shutdownTimeout.toNat))).append
    (holds_word 2 "retry_failed" (isPlain_toString_bool s.retryFailed))
  simpa [writeDispatch, dispatchFields, keyed] using h

/-- From these fields it is read back. -/
theorem readDispatch_fields (s : DispatchSettings) :
    readDispatch root (.mapping {} (keyed (dispatchFields s))) = some s := by
  apply readDispatch_eq (fields?_keyed ..)
  · exact field_of_filter (by simp [dispatchFields]) rfl (readWord64_toString s.batchSize)
  · exact field_of_filter (by simp [dispatchFields]) rfl (readWord64_toString s.interval)
  · exact field_of_filter (by simp [dispatchFields]) rfl (readWord64_toString s.shutdownTimeout)
  · exact field_of_filter (by simp [dispatchFields]) rfl (bool?_toString s.retryFailed)

/-- The fields of the gate. -/
def privacyFields (s : PrivacySettings) : List (String × Node) :=
  [("vendor_id", wordNode (toString s.vendorId.toNat))]

/-- The section of the gate is written as its only field. -/
theorem holds_privacy (s : PrivacySettings) :
    Holds 2 (writePrivacy s).flatten fun _ => keyed (privacyFields s) := by
  simpa [writePrivacy, privacyFields, keyed] using
    holds_word 2 "vendor_id" (isPlain_toString s.vendorId.toNat)

theorem readPrivacy_fields (s : PrivacySettings) :
    readPrivacy root (.mapping {} (keyed (privacyFields s))) = some s := by
  apply readPrivacy_eq (fields?_keyed ..)
  exact field_of_filter (by simp [privacyFields]) rfl (readWord16_toString s.vendorId)

/-- The fields of the library. -/
def sdkFields (s : SdkSettings) (ends : List Char) : List (String × Node) :=
  [("profile_id", wordNode (toString s.profileId.toNat)),
    ("wrapper_version", textNode s.wrapperVersion ends)]

/-- The section of the library is written as its fields. -/
theorem holds_sdk (s : SdkSettings) :
    Holds 2 (writeSdk s).flatten fun ends => keyed (sdkFields s ends) := by
  have h := (holds_word 2 "profile_id" (isPlain_toString s.profileId.toNat)).append
    (holds_text 2 "wrapper_version" s.wrapperVersion)
  simpa [writeSdk, sdkFields, keyed] using h

/-- From these fields it is read back, whatever text the version of the wrapper is. -/
theorem readSdk_fields (s : SdkSettings) :
    readSdk root (.mapping {} (keyed (sdkFields s []))) = some s := by
  apply readSdk_eq (fields?_keyed ..)
  · exact field_of_filter (by simp [sdkFields]) rfl (readWord32_toString s.profileId)
  · exact field_of_filter (by simp [sdkFields]) rfl (text?_textNode s.wrapperVersion)

/-- The fields of the log. -/
def loggingFields (s : Log.Settings) : List (String × Node) :=
  [("level", textNode s.level.name []), ("format", textNode s.format.name []),
    ("enable_backtraces", wordNode (toString s.enableBacktraces))]

/-- The section of the log is written as its fields. -/
theorem holds_logging (s : Log.Settings) :
    Holds 2 (writeLogging s).flatten fun _ => keyed (loggingFields s) := by
  have h := ((holds_text 2 "level" s.level.name).append
    (holds_text 2 "format" s.format.name)).append
    (holds_word 2 "enable_backtraces" (isPlain_toString_bool s.enableBacktraces))
  simpa [writeLogging, loggingFields, keyed] using h

/-- From these fields it is read back. -/
theorem readLogging_fields (s : Log.Settings) :
    readLogging root (.mapping {} (keyed (loggingFields s))) = some s := by
  apply readLogging_eq (fields?_keyed ..)
  · exact field_of_filter (by simp [loggingFields]) rfl (ofName?_level s.level)
  · exact field_of_filter (by simp [loggingFields]) rfl (ofName?_format s.format)
  · exact field_of_filter (by simp [loggingFields]) rfl (bool?_toString s.enableBacktraces)

/-- The fields of the tags. -/
def tagFields (tags : Statsd.Tags) (ends : List Char) : List (String × Node) :=
  beforeEnds (fun t ends => (t.1, textNode t.2 ends)) tags ends

/-- Default tags are written as a mapping of their own, the empty one if there are none. -/
theorem holds_tags (tags : Statsd.Tags) :
    Holds 2 (Yaml.Write.sectionEntry 2 "default_tags"
        (tags.map fun (key, value) => Yaml.Write.textEntry 4 key value))
      fun ends => keyed [("default_tags", .mapping {} (keyed (tagFields tags ends)))] := by
  by_cases htags : tags = []
  · -- without tags there is no block but an empty mapping in the line of the key
    subst htags
    exact holds_emptySection 2 "default_tags"
  · have hentries := holds_flatten (fun t : String × String => holds_text 4 t.1 t.2) htags
    have hsection := holds_section "default_tags" (by decide) (by decide) (by simpa using htags)
      hentries
    simpa [keyed, tagFields, map_beforeEnds] using hsection

/-- The fields of the program's own measurements. -/
def metricsFields (s : Statsd.Settings) (ends : List Char) : List (String × Node) :=
  (match s.host with
    | some host => [("host", textNode host [])]
    | none => [])
    ++ [("prefix", textNode s.pre []),
      ("default_tags", .mapping {} (keyed (tagFields s.defaultTags.toList ends)))]

/-- The section of the measurements is written as its fields. A host that is not set has no line. -/
theorem holds_metrics (s : Statsd.Settings) :
    Holds 2 (writeMetrics s).flatten fun ends => keyed (metricsFields s ends) := by
  have h := (holds_text 2 "prefix" s.pre).append (holds_tags s.defaultTags.toList)
  unfold writeMetrics metricsFields
  cases s.host with
  | none => simpa [keyed] using h
  | some host => simpa [keyed] using (holds_text 2 "host" host).append h

/-- From these fields it is read back, but for what a last tag takes of the line ends after it. -/
theorem readMetrics_fields (s : Statsd.Settings) (ends : List Char) :
    readMetrics root (.mapping {} (keyed (metricsFields s ends)))
      = some { s with defaultTags := s.defaultTags.followedBy ends } := by
  -- the tags were in order, so inserting them one after the other changes nothing
  have htexts : ((Node.mapping {} (keyed (tagFields s.defaultTags.toList ends))).texts? root).map
      Statsd.SortedTags.ofList = some (s.defaultTags.followedBy ends) := by
    rw [tagFields, texts?_keyed]
    exact congrArg some (Statsd.SortedTags.ofList_toList (s.defaultTags.followedBy ends))
  apply readMetrics_eq (fields?_keyed ..)
  · cases hhost : s.host with
    | none => simp [field, metricsFields, hhost]
    | some host =>
      refine field_of_filter (n := textNode host []) ?_ rfl (optionalText?_textNode host)
      simp [metricsFields, hhost]
  · -- the fields behind the host are found whether it is there or not
    refine field_of_filter ?_ rfl (text?_textNode s.pre)
    cases hhost : s.host <;> simp [metricsFields, hhost]
  · refine field_of_filter ?_ rfl htexts
    cases hhost : s.host <;> simp [metricsFields, hhost]

/-! ## The whole text -/

/-- The sections of settings. Only the last one meets what follows the text. -/
def sectionFields (s : Settings) (ends : List Char) : List (String × Node) :=
  [("queue", .mapping {} (keyed (queueFields s.queue []))),
    ("dispatch", .mapping {} (keyed (dispatchFields s.dispatch))),
    ("privacy", .mapping {} (keyed (privacyFields s.privacy))),
    ("sdk", .mapping {} (keyed (sdkFields s.sdk []))),
    ("logging", .mapping {} (keyed (loggingFields s.logging))),
    ("metrics", .mapping {} (keyed (metricsFields s.metrics ends)))]

/-- The text of settings holds their six sections. -/
theorem holds_sections (s : Settings) :
    Holds 0 s.sections.flatten fun ends => keyed (sectionFields s ends) := by
  have hqueue := holds_section "queue" (by decide) (by decide) (by simp [writeQueue])
    (holds_queue s.queue)
  have hdispatch := holds_section "dispatch" (by decide) (by decide) (by simp [writeDispatch])
    (holds_dispatch s.dispatch)
  have hprivacy := holds_section "privacy" (by decide) (by decide) (by simp [writePrivacy])
    (holds_privacy s.privacy)
  have hsdk := holds_section "sdk" (by decide) (by decide) (by simp [writeSdk]) (holds_sdk s.sdk)
  have hlogging := holds_section "logging" (by decide) (by decide) (by simp [writeLogging])
    (holds_logging s.logging)
  have hmetrics := holds_section "metrics" (by decide) (by decide) (by simp [writeMetrics])
    (holds_metrics s.metrics)
  -- the sections stand below each other in the order in which they are written
  have h := hqueue.append (hdispatch.append (hprivacy.append (hsdk.append
    (hlogging.append hmetrics))))
  simpa [sections, sectionFields, keyed] using h

/-- Settings that are read back where line ends follow their text. -/
def followedBy (s : Settings) (ends : List Char) : Settings :=
  { s with metrics := { s.metrics with defaultTags := s.metrics.defaultTags.followedBy ends } }

/-- Without line ends after their text, settings are read back as themselves. -/
theorem followedBy_nil (s : Settings) : s.followedBy [] = s := by
  rw [followedBy, Statsd.SortedTags.followedBy_nil]

/-- Only a last default tag that keeps line ends is changed by them. -/
theorem followedBy_eq_self_iff (s : Settings) {ends : List Char} (hends : ends ≠ []) :
    s.followedBy ends = s ↔ ∀ t, s.metrics.defaultTags.toList.getLast? = some t →
      ¬Statsd.SortedTags.KeepsLineEnds t.2 := by
  rw [← Statsd.SortedTags.followedBy_eq_self_iff _ hends]
  constructor
  · exact fun h => congrArg (·.metrics.defaultTags) h
  · intro h
    rw [followedBy, h]

/-- Settings are read back from their sections. -/
theorem ofNode?_sections (s : Settings) (ends : List Char) :
    ofNode? (.mapping {} (keyed (sectionFields s ends))) = some (s.followedBy ends) := by
  apply ofNode?_eq (fields?_keyed ..)
  · exact field_of_filter (by simp [sectionFields]) rfl (readQueue_fields s.queue)
  · exact field_of_filter (by simp [sectionFields]) rfl (readDispatch_fields s.dispatch)
  · exact field_of_filter (by simp [sectionFields]) rfl (readPrivacy_fields s.privacy)
  · exact field_of_filter (by simp [sectionFields]) rfl (readSdk_fields s.sdk)
  · exact field_of_filter (by simp [sectionFields]) rfl (readLogging_fields s.logging)
  · exact field_of_filter (by simp [sectionFields]) rfl (readMetrics_fields s.metrics ends)

/-- Settings are read back from their text. Line ends after it can only lengthen the value of the
last default tag. -/
theorem ofYaml?_followedBy (s : Settings) {ends : List Char} (hends : ∀ b ∈ ends, b = '\n') :
    ofYaml? (s.toYaml ++ .ofList ends) = some (s.followedBy ends) := by
  rw [ofYaml?, toYaml, ← String.ofList_append, read?_written (holds_sections s) hends,
    Option.bind_eq_bind, Option.bind_some, ofNode?_sections]

end Settings

end ClientMetrics
