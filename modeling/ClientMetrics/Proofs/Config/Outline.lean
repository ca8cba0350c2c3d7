import ClientMetrics.Proofs.Config.Overlay

/-!
# Files that give some of the settings

A file may leave out settings and whole sections, give them in any order, and hold entries that mean
nothing here. An `Outline` is a file of this kind without the values: which sections it has, what
stands in each of them, and what else there is. Together with settings it becomes a text, in which
every setting is written as it always is.

Key results:
- `Member.filter_entries`: the entries of a name are those of the member that has it.
- `Outline.gives_node`: the text gives the settings that the outline says.
- `Outline.gives_only`, `Outline.text_only`: any settings are given by some file, and all of them by
  the one that is written.
- `Settings.ofYaml_overlay`: what is read are the settings that a file gives, over the defaults.
-/

namespace ClientMetrics

open Yaml

/-! ## Members of a mapping -/

/-- What stands in a mapping: something that has a meaning there, or an entry that has none. -/
inductive Member (α : Type) (n : Nat) where
  | own (a : α)
  | other (entry : Entry n)

namespace Member

variable {α : Type} {n : Nat}

/-- What has a meaning in a member, if anything. -/
def own? : Member α n → Option α
  | own a => some a
  | other _ => none

/-- The entries that are written for a member. -/
def entries (write : α → List (Entry n)) : Member α n → List (Entry n)
  | own a => write a
  | other entry => [entry]

/-- The members that have a meaning. -/
def owns (members : List (Member α n)) : List α := members.filterMap own?

/-- Members that all have a meaning are nothing besides. -/
theorem owns_map_own (as : List α) : owns (as.map (own : α → Member α n)) = as := by
  rw [owns, List.filterMap_map]
  exact List.filterMap_some

/-- The entries of a name are those of the members that have it, if it means anything. -/
theorem filter_entries (write : α → List (Entry n)) (label : α → String) {name : String}
    (hwrite : ∀ a, ∀ e ∈ write a, e.name = label a) {members : List (Member α n)}
    (hothers : ∀ entry, .other entry ∈ members → name ≠ entry.name) :
    (members.flatMap (entries write)).filter (·.name = name)
      = ((owns members).filter (label · = name)).flatMap write := by
  -- the induction is on the members; those of the name add their entries, and no others do
  induction members with
  | nil => rfl
  | cons member members ih =>
    have hrest := ih fun entry hentry => hothers entry (List.mem_cons_of_mem _ hentry)
    rw [List.flatMap_cons, List.filter_append, hrest]
    cases member with
    | own a =>
      have howns : owns (.own a :: members) = a :: owns members := rfl
      rw [howns, entries]
      by_cases hname : label a = name
      · have hall : (write a).filter (·.name = name) = write a :=
          List.filter_eq_self.2 fun e he => by simp [hwrite a e he, hname]
        rw [hall, List.filter_cons_of_pos (by simpa using hname), List.flatMap_cons]
      · have hnone : (write a).filter (·.name = name) = [] :=
          List.filter_eq_nil_iff.2 fun e he => by simp [hwrite a e he, hname]
        rw [hnone, List.filter_cons_of_neg (by simpa using hname), List.nil_append]
    | other entry =>
      have howns : owns (.other entry :: members) = owns members := rfl
      have hne := hothers entry List.mem_cons_self
      have hnone : [entry].filter (·.name = name) = [] := by simp [Ne.symm hne]
      rw [howns, entries, hnone, List.nil_append]

/-- Where no label occurs twice, each has one member. -/
theorem filter_label (label : α → String) {as : List α} (hnodup : (as.map label).Nodup) {a : α}
    (ha : a ∈ as) : as.filter (label · = label a) = [a] := by
  obtain ⟨before, after, rfl⟩ := List.append_of_mem ha
  rw [List.map_append, List.map_cons, List.nodup_append, List.nodup_cons] at hnodup
  obtain ⟨-, ⟨hafter, -⟩, hbefore⟩ := hnodup
  -- the labels are distinct, so none before or after `a` is that of `a`
  have hnone : before.filter (label · = label a) = [] := by
    refine List.filter_eq_nil_iff.2 fun b hb => ?_
    simpa using hbefore (label b) (List.mem_map_of_mem hb) (label a) List.mem_cons_self
  have hnone' : after.filter (label · = label a) = [] := by
    refine List.filter_eq_nil_iff.2 fun b hb => ?_
    have hne : label b ≠ label a := fun heq => hafter (List.mem_map.2 ⟨b, hb, heq⟩)
    simpa using hne
  rw [List.filter_append, hnone, List.filter_cons_of_pos (by simp), hnone']
  rfl

end Member

namespace Settings

/-! ## Outlines -/

/-- A section in a file: settings of its part in any order, none of them twice, and among them
entries whose names mean nothing there. -/
structure Section where
  part : Part
  members : List (Member Key 2)
  own : ∀ key ∈ Member.owns members, key.part = part
  once : ((Member.owns members).map Key.name).Nodup
  others : ∀ entry, .other entry ∈ members → ∀ key : Key, key.part = part → key.name ≠ entry.name

namespace Section

/-- The section gives a setting. -/
def gives (x : Section) (key : Key) : Bool := key ∈ Member.owns x.members

/-- What stands in the section. -/
def entries (s : Settings) (x : Section) : List (Entry 2) :=
  x.members.flatMap (Member.entries (Key.entries s))

/-- The section itself, as an entry of the file. -/
def entry (s : Settings) (x : Section) : Entry 0 :=
  .ofEntries x.part.name x.part.styleOf_name x.part.isSimpleKey_name (x.entries s)

end Section

/-- A file: sections in any order, none of them twice, and among them entries whose names mean
nothing here. -/
structure Outline where
  members : List (Member Section 0)
  ne : members ≠ []
  once : ((Member.owns members).map (·.part.name)).Nodup
  others : ∀ entry, .other entry ∈ members → ∀ part : Part, part.name ≠ entry.name

namespace Outline

/-- The file gives a setting. -/
def gives (o : Outline) (key : Key) : Bool := (Member.owns o.members).any (·.gives key)

/-- What stands in the file. -/
def entries (s : Settings) (o : Outline) : List (Entry 0) :=
  o.members.flatMap (Member.entries fun x => [x.entry s])

/-- The file that gives the settings of the outline, with the values they have. -/
def text (s : Settings) (o : Outline) : String :=
  .ofList ((o.entries s).map Entry.written).flatten

end Outline

/-! ## What a file gives -/

section Text

variable {s : Settings}

/-- The fields of a section are the settings that it gives. -/
theorem Section.givesOf (x : Section) {gives : Key → Bool}
    (hgives : ∀ key : Key, key.part = x.part → x.gives key = gives key) :
    GivesOf s gives x.part ((x.entries s).map Entry.field) := by
  intro key hkey
  have hfilter := Member.filter_entries (Key.entries s) Key.name (Key.name_of_mem_entries s)
    (fun entry hentry => x.others entry hentry key hkey)
  rw [Entry.filter_field, entries, hfilter, ← hgives key hkey, Section.gives]
  by_cases hmem : key ∈ Member.owns x.members
  · -- its entries stand in the section once, and its name belongs to no other
    rw [Member.filter_label Key.name x.once hmem, List.flatMap_singleton,
      if_pos (decide_eq_true hmem)]
  · -- another setting of the section has another name
    have hnone : (Member.owns x.members).filter (·.name = key.name) = [] := by
      refine List.filter_eq_nil_iff.2 fun other hother => ?_
      have hne : other ≠ key := fun heq => hmem (heq ▸ hother)
      simpa using Key.name_injective.ne hne
    rw [hnone, if_neg (ne_true_of_eq_false (decide_eq_false hmem))]
    rfl

/-- A section of the file gives what the whole file gives of its part. -/
theorem Outline.gives_of_mem (o : Outline) {x : Section} (hx : x ∈ Member.owns o.members)
    {key : Key} (hkey : key.part = x.part) : x.gives key = o.gives key := by
  rw [Bool.eq_iff_iff, Outline.gives, List.any_eq_true]
  constructor
  · exact fun h => ⟨x, hx, h⟩
  · -- no other section has the same part
    rintro ⟨y, hy, h⟩
    have hown : key.part = y.part := y.own key (of_decide_eq_true h)
    have heq : y = x := List.inj_on_of_nodup_map o.once hy hx (by rw [← hown, hkey])
    rwa [← heq]

/-- The text gives the settings that the outline says, whatever else it holds. -/
theorem Outline.gives_node (o : Outline) :
    Gives s o.gives (.mapping {} ((o.entries s).map Entry.node)) := by
  refine ⟨_, Entry.fields?_entries {} _, fun part => ?_⟩
  have hname : ∀ x : Section, ∀ e ∈ [x.entry s], e.name = x.part.name := by
    intro x e he
    rw [List.mem_singleton.1 he]
    rfl
  have hfilter := Member.filter_entries (fun x => [x.entry s]) (fun x => x.part.name) hname
    (fun entry hentry => o.others entry hentry part)
  by_cases hpart : ∃ x ∈ Member.owns o.members, x.part = part
  · -- the part has one section, whose name belongs to no other entry
    obtain ⟨x, hx, rfl⟩ := hpart
    rw [Member.filter_label (fun x => x.part.name) o.once hx, List.flatMap_singleton] at hfilter
    have hvalue : (x.entry s).value [] = .mapping {} ((x.entries s).map Entry.node) :=
      Entry.value_ofEntries ..
    have hsection : ((o.entries s).map Entry.field).filter (·.1 = x.part.name)
        = [(x.part.name, .mapping {} ((x.entries s).map Entry.node))] := by
      rw [Entry.filter_field, entries, hfilter, List.map_singleton, Entry.field, hvalue]
      rfl
    exact .present hsection rfl (Entry.fields?_entries {} _)
      (x.givesOf fun key hkey => o.gives_of_mem hx hkey)
  · -- no section has the name of the part, so none of its settings is given
    have hothers : (Member.owns o.members).filter (·.part.name = part.name) = [] := by
      refine List.filter_eq_nil_iff.2 fun x hx => ?_
      have hne : x.part ≠ part := fun heq => hpart ⟨x, hx, heq⟩
      simpa using Part.name_injective.ne hne
    rw [hothers] at hfilter
    refine .absent ?_ fun key hkey => ?_
    · rw [Entry.filter_field, entries, hfilter]
      rfl
    · rw [Outline.gives, List.any_eq_false]
      intro x hx hgives
      exact hpart ⟨x, hx, (x.own key (of_decide_eq_true hgives)).symm.trans hkey⟩

/-- A file is not empty, since every member of it writes an entry. -/
theorem Outline.entries_ne_nil (o : Outline) : o.entries s ≠ [] := by
  intro hnil
  obtain ⟨member, members, heq⟩ := List.exists_cons_of_ne_nil o.ne
  rw [entries, heq, List.flatMap_cons, List.append_eq_nil_iff] at hnil
  cases member with
  | own x => exact List.cons_ne_nil _ _ hnil.1
  | other entry => exact List.cons_ne_nil _ _ hnil.1

/-- The text of a file is read as the mapping of its entries. -/
theorem Outline.read?_text (o : Outline) :
    Node.read? (o.text s) = some (.mapping {} ((o.entries s).map Entry.node)) :=
  Entry.read?_entries o.entries_ne_nil

end Text

/-! ## Files in the usual order -/

/-- Every setting is among those of its part. -/
theorem Key.mem_inPart (key : Key) : key ∈ inPart key.part := by cases key <;> decide

theorem Key.part_of_mem_inPart (part : Part) : ∀ key ∈ inPart part, key.part = part := by
  cases part <;> decide

/-- The section that gives some settings of a part, in the usual order. -/
def Section.only (gives : Key → Bool) (part : Part) : Section where
  part
  members := ((Key.inPart part).filter gives).map .own
  own key hkey := by
    rw [Member.owns_map_own] at hkey
    exact Key.part_of_mem_inPart part key (List.mem_filter.1 hkey).1
  once := by
    have hall : ((Key.inPart part).map Key.name).Nodup := by cases part <;> decide
    rw [Member.owns_map_own]
    exact hall.sublist (List.filter_sublist.map _)
  others := by simp

/-- The file that gives some settings, in the usual order. Sections without any are left out. -/
def Outline.only (gives : Key → Bool) (h : ∃ key, gives key) : Outline where
  members := ((Part.all.filter fun part => (Key.inPart part).any gives).map
    (Section.only gives)).map .own
  ne := by
    obtain ⟨key, hkey⟩ := h
    have hpart : key.part ∈ Part.all.filter fun part => (Key.inPart part).any gives :=
      List.mem_filter.2 ⟨key.part.mem_all, List.any_eq_true.2 ⟨key, key.mem_inPart, hkey⟩⟩
    exact List.ne_nil_of_mem (List.mem_map_of_mem (List.mem_map_of_mem hpart))
  once := by
    have hall : (Part.all.map Part.name).Nodup := by decide
    rw [Member.owns_map_own, List.map_map]
    exact hall.sublist (List.filter_sublist.map _)
  others := by simp

/-- There is a file that gives these settings, whichever they are. -/
theorem Outline.gives_only (gives : Key → Bool) (h : ∃ key, gives key) :
    (only gives h).gives = gives := by
  funext key
  rw [Outline.gives, only, Member.owns_map_own, Bool.eq_iff_iff, List.any_map, List.any_eq_true]
  -- a section has the settings of its part that were asked for
  constructor
  · rintro ⟨part, -, hgives⟩
    rw [Function.comp_apply, Section.gives, Section.only, Member.owns_map_own] at hgives
    exact (List.mem_filter.1 (of_decide_eq_true hgives)).2
  · intro hgives
    refine ⟨key.part, List.mem_filter.2 ⟨key.part.mem_all, ?_⟩, ?_⟩
    · exact List.any_eq_true.2 ⟨key, key.mem_inPart, hgives⟩
    · rw [Function.comp_apply, Section.gives, Section.only, Member.owns_map_own]
      exact decide_eq_true (List.mem_filter.2 ⟨key.mem_inPart, hgives⟩)

/-- What is written for a section. -/
def Part.written (s : Settings) : Part → List (List Char)
  | queue => writeQueue s.queue
  | dispatch => writeDispatch s.dispatch
  | privacy => writePrivacy s.privacy
  | sdk => writeSdk s.sdk
  | logging => writeLogging s.logging
  | metrics => writeMetrics s.metrics

/-- The sections that are written, one for each part. -/
theorem sections_eq (s : Settings) : s.sections
    = Part.all.map fun part => Write.sectionEntry 0 part.name (part.written s) := rfl

/-- Some settings of a part are written in the usual order. -/
theorem Section.entries_only (s : Settings) (gives : Key → Bool) (part : Part) :
    (Section.only gives part).entries s
      = ((Key.inPart part).filter gives).flatMap (Key.entries s) := by
  have hmembers : (Section.only gives part).members
      = ((Key.inPart part).filter gives).map .own := rfl
  rw [entries, hmembers, List.flatMap_map]
  rfl

/-- All settings of a part together are what is written for it. -/
theorem Section.written_only (s : Settings) (part : Part) :
    ((Section.only (fun _ => true) part).entries s).map Entry.written = part.written s := by
  have htags : (Key.tagEntries s.metrics.defaultTags).map Entry.written
      = s.metrics.defaultTags.toList.map fun tag => Write.textEntry 4 tag.1 tag.2 :=
    List.map_map
  rw [entries_only, List.filter_true]
  -- the host is written only if there is one, and the tags are one entry
  cases part with
  | metrics =>
    simp only [Key.inPart, Key.entries, List.flatMap_cons, List.flatMap_nil, Part.written,
      writeMetrics]
    cases s.metrics.host <;> simp [htags]
  | queue => simp [Key.inPart, Key.entries, Part.written, writeQueue]
  | dispatch => simp [Key.inPart, Key.entries, Part.written, writeDispatch]
  | privacy => simp [Key.inPart, Key.entries, Part.written, writePrivacy]
  | sdk => simp [Key.inPart, Key.entries, Part.written, writeSdk]
  | logging => simp [Key.inPart, Key.entries, Part.written, writeLogging]

/-- The file that gives everything is the one that is written. -/
theorem Outline.text_only (s : Settings) :
    (only (fun _ => true) ⟨.capacity, rfl⟩).text s = s.toYaml := by
  have hmembers : (only (fun _ => true) ⟨.capacity, rfl⟩).members
      = (Part.all.map (Section.only fun _ => true)).map .own := rfl
  have hentries : (only (fun _ => true) ⟨.capacity, rfl⟩).entries s
      = Part.all.map fun part => (Section.only (fun _ => true) part).entry s := by
    rw [entries, hmembers, List.flatMap_map, List.flatMap_map]
    exact List.flatMap_pure_eq_map _ _
  -- the parts of the file are the sections of the settings, in the same order
  have hsections : ((only (fun _ => true) ⟨.capacity, rfl⟩).entries s).map Entry.written
      = s.sections := by
    rw [hentries, List.map_map, sections_eq]
    refine List.map_congr_left fun part _ => ?_
    rw [Function.comp_apply, Section.entry, Entry.written_ofEntries, Section.written_only]
    rfl
  rw [text, hsections, toYaml]

/-! ## What is read -/

/-- Settings that a text gives are read over the defaults, whatever else it holds. -/
theorem ofYaml_of_gives {s : Settings} {gives : Key → Bool} {text : String} {root : Node}
    (hread : Node.read? text = some root) (h : Gives s gives root) :
    ofYaml text = .ok (s.overlay gives) := by
  have hyaml : ofYaml? text = some (s.overlay gives) := by
    rw [ofYaml?, hread, Option.bind_eq_bind, Option.bind_some, ofNode?_of_gives h]
  rw [ofYaml, hyaml]

/-- What is read from a file are the settings that it gives, in whatever order, over the defaults of
all others. Any settings are given by some file, and all of them by the one that is written. Entries
whose names mean nothing make no difference, here or in any other text whose settings are these. -/
theorem ofYaml_overlay (s : Settings) :
    (∀ o : Outline, ofYaml (o.text s) = .ok (s.overlay o.gives)) ∧
      (∀ (gives : Key → Bool) (h : ∃ key, gives key), (Outline.only gives h).gives = gives) ∧
      (Outline.only (fun _ => true) ⟨.capacity, rfl⟩).text s = s.toYaml ∧
      ∀ (gives : Key → Bool) (text : String) (root : Node),
        Node.read? text = some root → Gives s gives root → ofYaml text = .ok (s.overlay gives) :=
  ⟨fun o => ofYaml_of_gives o.read?_text o.gives_node, Outline.gives_only, Outline.text_only s,
    fun _ _ _ => ofYaml_of_gives⟩

/-- A section that gives the level of the log alone, below an entry that means nothing there. -/
def Section.levelAlone : Section where
  part := .logging
  members := [.other (.ofText 2 "colour" "red"), .own .level]
  own := by simp [Member.owns, Member.own?, Key.part]
  once := by decide
  others entry hentry key _ := by
    have hall : ∀ key ∈ Key.all, key.name ≠ "colour" := by decide
    obtain rfl : entry = .ofText 2 "colour" "red" := by simpa using hentry
    exact hall key key.mem_all

/-- A file that has this section alone, above an entry that means nothing. -/
def Outline.levelAlone : Outline where
  members := [.own .levelAlone, .other (.ofText 0 "author" "nobody")]
  ne := List.cons_ne_nil _ _
  once := by decide
  others entry hentry part := by
    have hall : ∀ part ∈ Part.all, part.name ≠ "author" := by decide
    obtain rfl : entry = .ofText 0 "author" "nobody" := by simpa using hentry
    exact hall part part.mem_all

/-- The vendor of these settings is not in the file, so it is not read. There is also a file that
gives the level and holds nothing else. -/
theorem ofYaml_overlay_levelAlone :
    let s : Settings := { privacy := { vendorId := 7 }, logging := { level := .debug } }
    let text := "logging:\n  colour: red\n  level: debug\nauthor: nobody\n"
    let gives := Outline.levelAlone.gives
    Outline.levelAlone.text s = text ∧
      (∃ root, Node.read? text = some root ∧ Gives s gives root) ∧
      ofYaml text = .ok { logging := { level := .debug } } ∧
      ∃ h : ∃ key, gives key, (Outline.only gives h).gives = gives := by
  intro s text gives
  have htext : Outline.levelAlone.text s = text := by decide
  -- of the settings only the level is taken over the defaults
  have hover : s.overlay gives = { logging := { level := .debug } } := rfl
  have hlevel : ∃ key, gives key := ⟨.level, by decide⟩
  have hread := Outline.levelAlone.read?_text (s := s)
  have hgives := Outline.levelAlone.gives_node (s := s)
  rw [htext] at hread
  obtain ⟨-, honly, -, hother⟩ := ofYaml_overlay s
  refine ⟨htext, ⟨_, hread, hgives⟩, ?_, hlevel, honly gives hlevel⟩
  rw [← hover]
  exact hother _ _ _ hread hgives

end Settings

end ClientMetrics
