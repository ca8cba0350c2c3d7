import ClientMetrics.Config.File
import ClientMetrics.Proofs.Config.Yaml

/-!
# Settings that were saved

Saving writes the text of settings and one line end more into the file of a folder, and loading
finds that file again: the two go by different paths, which lead to the same place. So the settings
that are loaded are those that were saved, as they are read back where a line end follows their
text.

Key results:
- `joinPath_assoc`, `FileTree.locate_joinPath`: the paths of saving and loading.
- `FileTree.readText_write`: a text that was written is read.
- `FileTree.loadSettings_of_saveSettings`: settings that were saved.
- `Settings.yaml_roundTrip`: settings that are read back from their text, and from a file.
-/

namespace ClientMetrics

/-! ## Paths -/

/-- An absolute path has a slash as its first character. -/
theorem startsWith_slash {s : String} : s.startsWith "/" ↔ s.toList.head? = some '/' := by
  rw [String.startsWith_string_iff]
  -- the slash is a prefix exactly if it is the first character
  constructor
  · rintro ⟨more, h⟩
    rw [← h]
    rfl
  · intro h
    obtain ⟨more, hmore⟩ := List.head?_eq_some_iff.1 h
    exact ⟨more, hmore.symm⟩

/-- A path that ends in a slash has one as its last character. -/
theorem endsWith_slash {s : String} : s.endsWith "/" ↔ s.toList.getLast? = some '/' := by
  rw [String.endsWith, String.Slice.endsWith_string_iff, String.copy_toSlice,
    List.getLast?_eq_some_iff]
  constructor
  · rintro ⟨more, h⟩
    exact ⟨more, h.symm⟩
  · rintro ⟨more, h⟩
    exact ⟨more, h.symm⟩

/-- What stands between a folder and what lies in it. -/
def slashAfter (base : String) : String := if base = "" ∨ base.endsWith "/" then "" else "/"

/-- An absolute path stays as it is, whatever is before it. -/
theorem joinPath_absolute {base path : String} (h : path.startsWith "/") :
    joinPath base path = path := if_pos h

/-- Any other path is appended, with a slash between the two where none is. -/
theorem joinPath_relative {base path : String} (h : ¬path.startsWith "/") :
    joinPath base path = base ++ slashAfter base ++ path := by
  rw [joinPath, if_neg h, slashAfter]
  split
  · rw [String.append_empty]
  · rfl

/-- What is appended to a path does not make it absolute. -/
theorem startsWith_append {s t : String} (h : s ≠ "") :
    (s ++ t).startsWith "/" ↔ s.startsWith "/" := by
  obtain ⟨c, cs, hs⟩ := List.exists_cons_of_ne_nil fun hnil => h (String.toList_eq_nil_iff.1 hnil)
  rw [startsWith_slash, startsWith_slash, String.toList_append, hs]
  rfl

/-- What is appended to a path decides how it ends. -/
theorem endsWith_append {s t : String} (h : t ≠ "") : (s ++ t).endsWith "/" ↔ t.endsWith "/" := by
  obtain hnil | ⟨cs, c, ht⟩ := List.eq_nil_or_concat t.toList
  · exact absurd (String.toList_eq_nil_iff.1 hnil) h
  · rw [endsWith_slash, endsWith_slash, String.toList_append, ht, List.concat_eq_append,
      ← List.append_assoc]
    simp

/-- After a folder and its slash none is missing. -/
theorem slashAfter_slashAfter (base : String) : slashAfter (base ++ slashAfter base) = "" := by
  by_cases h : base = "" ∨ base.endsWith "/"
  · have hslash : slashAfter base = "" := if_pos h
    rw [hslash, String.append_empty, hslash]
  · have hslash : slashAfter base = "/" := if_neg h
    rw [hslash, slashAfter, if_pos (.inr ((endsWith_append (by decide)).2 (endsWith_slash.2 rfl)))]

/-- What lies in a folder decides whether a slash is missing after it. -/
theorem slashAfter_append {base folder : String} (h : folder ≠ "") :
    slashAfter (base ++ folder) = slashAfter folder := by
  have hne : base ++ folder ≠ "" := fun hempty => h (String.append_eq_empty_iff.1 hempty).2
  simp only [slashAfter, hne, h, endsWith_append h, false_or]

/-- It does not matter where a path is put together first. -/
theorem joinPath_assoc (base folder name : String) :
    joinPath (joinPath base folder) name = joinPath base (joinPath folder name) := by
  -- an absolute name hides all before it, and an absolute folder hides the base
  by_cases hname : name.startsWith "/"
  · rw [joinPath_absolute hname, joinPath_absolute hname, joinPath_absolute hname]
  rw [joinPath_relative hname, joinPath_relative hname]
  -- an empty folder puts one slash behind the base, after which none is missing
  by_cases hempty : folder = ""
  · have hslash : slashAfter "" = "" := by simp [slashAfter]
    rw [hempty, hslash, String.append_empty, String.empty_append, joinPath_relative hname,
      joinPath_relative (by simp), String.append_empty, slashAfter_slashAfter,
      String.append_empty]
  · by_cases hfolder : folder.startsWith "/"
    · have hjoined : (folder ++ slashAfter folder ++ name).startsWith "/" := by
        rwa [String.append_assoc, startsWith_append hempty]
      rw [joinPath_absolute hfolder, joinPath_absolute hjoined]
    · have hjoined : ¬(folder ++ slashAfter folder ++ name).startsWith "/" := by
        rwa [String.append_assoc, startsWith_append hempty]
      rw [joinPath_relative hfolder, joinPath_relative hjoined, slashAfter_append hempty]
      simp only [String.append_assoc]

namespace FileTree

variable {t t' : FileTree} {place target : Place}

/-- The path of the current folder is absolute, and only that of the top ends in a slash. -/
def IsRooted (t : FileTree) : Prop :=
  t.root.startsWith "/" ∧ (t.root.endsWith "/" → t.root = "/" ∧ t.here = [])

/-- A path that is not absolute starts in the current folder. -/
theorem parts_relative (hroot : t.root.startsWith "/") {path : String}
    (hpath : ¬path.startsWith "/") : t.parts path = (t.here, splitPath path.toList) := by
  have hne : path ≠ t.root := by
    rintro rfl
    exact hpath hroot
  -- a path below the current folder would begin with the slash of its root
  have hinside : ¬(t.root ++ "/").toList.isPrefixOf path.toList := by
    intro hprefix
    obtain ⟨more, hmore⟩ := List.isPrefixOf_iff_prefix.1 hprefix
    obtain ⟨root, hhead⟩ := List.head?_eq_some_iff.1 (startsWith_slash.1 hroot)
    rw [String.toList_append, hhead] at hmore
    exact hpath (startsWith_slash.2 (by rw [← hmore]; rfl))
  rw [parts, if_neg hne, if_neg hinside, if_neg hpath]

/-- With the path of the current folder before it, it does so too. -/
theorem parts_inside (t : FileTree) (path : String) :
    t.parts (t.root ++ "/" ++ path) = (t.here, splitPath path.toList) := by
  -- the path is longer than that of the folder, and starts with it
  have hne : t.root ++ "/" ++ path ≠ t.root := by
    intro heq
    have hlength := congrArg (·.toList.length) heq
    simp at hlength
  have hlist : (t.root ++ "/" ++ path).toList = (t.root ++ "/").toList ++ path.toList :=
    String.toList_append
  have hinside : (t.root ++ "/").toList.isPrefixOf (t.root ++ "/" ++ path).toList :=
    List.isPrefixOf_iff_prefix.2 ⟨path.toList, hlist.symm⟩
  rw [parts, if_neg hne, if_pos hinside, hlist, List.drop_left]

/-- At the top it starts there, with an empty part. -/
theorem parts_top (hroot : t.root = "/") {path : String} (hne : path ≠ "")
    (hpath : ¬path.startsWith "/") : t.parts ("/" ++ path) = ([], "" :: splitPath path.toList) := by
  -- a single slash stands before the path, so it is neither the top nor below it by name
  have htop : "/" ++ path ≠ "/" := by
    intro heq
    exact hne (by simpa using congrArg String.toList heq)
  have hlist : ("/" ++ path).toList = '/' :: path.toList := by rw [String.toList_append]; rfl
  have hinside : ¬("/" ++ "/").toList.isPrefixOf ("/" ++ path).toList := by
    intro hprefix
    obtain ⟨more, hmore⟩ := List.isPrefixOf_iff_prefix.1 hprefix
    rw [hlist] at hmore
    exact hpath (startsWith_slash.2 (by rw [← (List.cons.inj hmore).2]; rfl))
  have habsolute : ("/" ++ path).startsWith "/" := startsWith_slash.2 (by rw [hlist]; rfl)
  rw [parts, hroot, if_neg htop, if_neg hinside, if_pos habsolute, hlist]
  rfl

/-- A path leads to the same place from the current folder as together with its path. -/
theorem locate_joinPath (hroot : t.IsRooted) {path : String} (hne : path ≠ "") :
    t.locate (joinPath t.root path) = t.locate path := by
  by_cases hpath : path.startsWith "/"
  · rw [joinPath_absolute hpath]
  obtain ⟨habsolute, htop⟩ := hroot
  have hparts := parts_relative habsolute hpath
  have hjoined : t.root ++ slashAfter t.root ++ path ≠ "" :=
    fun hempty => hne (String.append_eq_empty_iff.1 hempty).2
  have hroot : t.root ≠ "" := by
    intro hempty
    rw [hempty] at habsolute
    exact absurd (startsWith_slash.1 habsolute) (by decide)
  rw [joinPath_relative hpath, locate, locate, if_neg hjoined, if_neg hne, hparts]
  by_cases hslash : t.root.endsWith "/"
  · -- at the top the path has one empty part more
    obtain ⟨htop, hhere⟩ := htop hslash
    rw [slashAfter, if_pos (.inr hslash), String.append_empty, htop, parts_top htop hne hpath,
      hhere]
    rfl
  · rw [slashAfter, if_neg (by simp [hroot, hslash]), parts_inside]

/-! ## Writing and reading one file -/

variable {target : Place} (htarget : ∀ e, t.find? target = some e → ∃ content, e = .file content)

include htarget

/-- A file is on no way, so putting one changes no way. -/
theorem walk_put (e : FileEntry) {start : Place} {parts : List String}
    (h : t.walk start parts = .ok place) : (t.put target e).walk start parts = .ok place := by
  induction parts generalizing start with
  | nil => exact h
  | cons part parts ih =>
    rw [walk] at h ⊢
    split at h
    · simp at h
    · simp at h
    · next hstart =>
      -- the walk goes through folders, so the place of the file is none of them
      have hne : start ≠ target := by
        rintro rfl
        obtain ⟨content, hfile⟩ := htarget _ hstart
        simp at hfile
      rw [find?_put_of_ne t e hne, hstart]
      simp only
      split at h
      · next hpart => rw [if_pos hpart, ih h]
      · next hpart =>
        rw [if_neg hpart]
        split at h
        · next hup => rw [if_pos hup, ih h]
        · next hup => rw [if_neg hup, ih h]

/-- A path leads to the same place after a file was put. -/
theorem locate_put (e : FileEntry) {path : String} (h : t.locate path = .ok place) :
    (t.put target e).locate path = .ok place := by
  unfold locate at h ⊢
  split at h
  · simp at h
  · next hne =>
    rw [if_neg hne]
    exact walk_put htarget e h

omit htarget

/-- What writing a file does. -/
theorem write_eq_ok {path : String} {content : ByteArray} (h : t.write path content = .ok t') :
    ∃ place, t.locate path = .ok place ∧ t' = t.put place (.file content) ∧
      ∀ e, t.find? place = some e → ∃ content, e = .file content := by
  unfold write at h
  -- a path that leads nowhere is not written
  cases hlocate : t.locate path with
  | error fault => simp [hlocate, bind, Except.bind] at h
  | ok place =>
    rw [hlocate] at h
    simp only [bind, Except.bind] at h
    split at h
    · simp at h
    · next hfolder =>
      refine ⟨place, rfl, (Except.ok.inj h).symm, fun e he => ?_⟩
      cases e with
      | folder => exact absurd he hfolder
      | file content => exact ⟨content, rfl⟩

/-- A text that was written is read. -/
theorem readText_write {path text : String} (h : t.write path text.toUTF8 = .ok t') :
    t'.readText path = .ok text := by
  obtain ⟨place, hlocate, rfl, htarget⟩ := write_eq_ok h
  -- the top is a folder, so the file is not there
  have hne : place ≠ [] := by
    rintro rfl
    obtain ⟨content, hfolder⟩ := htarget .folder rfl
    simp at hfolder
  have hutf8 : String.fromUTF8? text.toUTF8 = some text := dif_pos text.isValidUTF8
  have hbytes : (t.put place (.file text.toUTF8)).readBytes path = .ok text.toUTF8 := by
    rw [readBytes, locate_put htarget _ hlocate]
    simp only [bind, Except.bind, find?_put t _ hne]
  rw [readText, hbytes]
  simp only [bind, Except.bind, hutf8]

/-- Making folders does not change which folder is the current one. -/
theorem current_makeAlong {start : Place} {parts : List String}
    (h : t.makeAlong start parts = .ok t') : t'.root = t.root ∧ t'.here = t.here := by
  -- a part that is missing is put as a folder, and the walk goes on from there
  induction parts generalizing t start with
  | nil =>
    obtain rfl : t = t' := by simpa [makeAlong] using h
    exact ⟨rfl, rfl⟩
  | cons part parts ih =>
    rw [makeAlong] at h
    split at h
    · exact ih h
    split at h
    · exact ih h
    · simp only at h
      split at h
      · have hput := ih h
        exact hput
      · exact ih h
      · simp at h

/-- The current folder is the same after another was made. -/
theorem current_ensureFolder {folder : String} (h : t.ensureFolder folder = .ok t') :
    t'.root = t.root ∧ t'.here = t.here := by
  unfold ensureFolder at h
  split at h
  · obtain rfl : t = t' := by simpa using h
    exact ⟨rfl, rfl⟩
  · exact current_makeAlong h

/-! ## Saving and loading -/

/-- What saving does. -/
theorem saveSettings_eq_none {folder : String} {s : Settings}
    (h : t.saveSettings folder s = (t', none)) :
    ∃ made : FileTree, made.root = t.root ∧ made.here = t.here ∧
      made.write (joinPath folder configFileName) (s.toYaml ++ "\n").toUTF8 = .ok t' := by
  unfold saveSettings at h
  -- saving fails where the folder cannot be made, or where the file cannot be written
  split at h
  · simp at h
  · next made hmade =>
    obtain ⟨hroot, hhere⟩ := current_ensureFolder hmade
    refine ⟨made, hroot, hhere, ?_⟩
    simp only at h
    split at h
    · simp at h
    · next written hwritten =>
      obtain rfl : written = t' := by simpa using h
      exact hwritten

/-- Settings that were saved are loaded, as they are read back where a line end follows their
text. -/
theorem loadSettings_of_saveSettings (hroot : t.IsRooted) {folder : String} {s : Settings}
    (h : t.saveSettings folder s = (t', none)) :
    t'.loadSettings folder
      = (.ok { settings := s.followedBy ['\n'], path := joinPath t.root folder }, []) := by
  obtain ⟨made, hmadeRoot, hmadeHere, hwrite⟩ := saveSettings_eq_none h
  have hcurrent : t'.root = t.root ∧ t'.here = t.here := by
    obtain ⟨place, -, rfl, -⟩ := write_eq_ok hwrite
    exact ⟨hmadeRoot, hmadeHere⟩
  have hroot' : t'.IsRooted := by
    rw [IsRooted, hcurrent.1, hcurrent.2]
    exact hroot
  have hne : joinPath folder configFileName ≠ "" := by
    rw [joinPath_relative (by simp [configFileName])]
    intro hempty
    exact absurd (String.append_eq_empty_iff.1 hempty).2 (by decide)
  -- saving goes by the folder alone, loading by the path of the current folder before it
  have hlocate := locate_joinPath hroot' hne
  rw [← joinPath_assoc, hcurrent.1] at hlocate
  have hfile : t'.readText (joinPath (joinPath t.root folder) configFileName)
      = .ok (s.toYaml ++ "\n") := by
    rw [readText, readBytes, hlocate]
    exact readText_write hwrite
  have hyaml : Settings.ofYaml? (s.toYaml ++ "\n") = some (s.followedBy ['\n']) :=
    s.ofYaml?_followedBy (by simp)
  simp only [loadSettings, hcurrent.1, hfile, hyaml]

/-- In the current folder settings can be saved, unless a folder has the name of the file. -/
theorem saveSettings_here (s : Settings) (hroot : t.root.startsWith "/")
    (hhere : t.find? t.here = some .folder)
    (hfile : t.find? (t.here ++ [configFileName]) ≠ some .folder) :
    ∃ t', t.saveSettings "." s = (t', none) := by
  have hfolder : t.locate "." = .ok t.here := by
    rw [locate, if_neg (by decide), parts_relative hroot (by simp)]
    simp [splitPath, cutAtSlashes, walk, hhere]
  have hmade : t.ensureFolder "." = .ok t := by
    rw [ensureFolder, exists?, hfolder]
    simp [hhere]
  -- the current folder is a dot, and its file lies behind a slash
  have hpath : joinPath "." configFileName = "./config.yml" := by
    have hslash : slashAfter "." = "/" := if_neg (by simp [endsWith_slash])
    rw [joinPath_relative (by simp [configFileName]), hslash]
    decide
  have hlocate : t.locate (joinPath "." configFileName) = .ok (t.here ++ [configFileName]) := by
    have hparts : splitPath "./config.yml".toList = [".", configFileName] := by decide
    rw [hpath, locate, if_neg (by decide), parts_relative hroot (by simp), hparts]
    simp [walk, hhere, configFileName]
  have hwrite : ∀ content, t.write (joinPath "." configFileName) content
      = .ok (t.put (t.here ++ [configFileName]) (.file content)) := by
    intro content
    rw [write, hlocate]
    simp only [bind, Except.bind]
  refine ⟨t.put (t.here ++ [configFileName]) (.file (s.toYaml ++ "\n").toUTF8), ?_⟩
  simp only [saveSettings, hmade, hwrite]

end FileTree

/-! ## There and back -/

/-- Settings are read back from their text, whatever texts they hold. Settings that were saved are
loaded as they are read back where a line end follows their text: as themselves, unless the value of
their last default tag keeps that line end. -/
theorem Settings.yaml_roundTrip (s : Settings) :
    ofYaml s.toYaml = .ok s ∧
      (∀ (t t' : FileTree) (folder : String), t.IsRooted → t.saveSettings folder s = (t', none) →
        t'.loadSettings folder
          = (.ok { settings := s.followedBy ['\n'], path := joinPath t.root folder }, [])) ∧
      (s.followedBy ['\n'] = s ↔ ∀ tag, s.metrics.defaultTags.toList.getLast? = some tag →
        ¬Statsd.SortedTags.KeepsLineEnds tag.2) := by
  refine ⟨?_, fun t t' folder hroot h => t.loadSettings_of_saveSettings hroot h,
    s.followedBy_eq_self_iff (by simp)⟩
  have hread := s.ofYaml?_followedBy (show ∀ b ∈ [], b = '\n' by simp)
  rw [s.followedBy_nil, show String.ofList [] = "" from rfl, String.append_empty] at hread
  rw [ofYaml, hread]

/-- A value that ends in a line break, after texts that stand for something else without quotes. -/
theorem Settings.yaml_roundTrip_quoted :
    let s : Settings := { metrics := { host := some "null", pre := "", defaultTags :=
      ⟨[("12", " yes"), ("a: b", "x\ny\n")], by decide⟩ } }
    ofYaml s.toYaml = .ok s ∧
      ∃ t', FileTree.saveSettings { root := "/srv" } "." s = (t', none) ∧
        t'.loadSettings "." = (.ok { settings := s, path := joinPath "/srv" "." }, []) := by
  intro s
  have hroot : FileTree.IsRooted { root := "/srv" } :=
    ⟨startsWith_slash.2 rfl, fun h => absurd (endsWith_slash.1 h) (by decide)⟩
  obtain ⟨t', hsave⟩ := FileTree.saveSettings_here s hroot.1 rfl (by simp [FileTree.find?])
  have h := Settings.yaml_roundTrip s
  have hload := h.2.1 _ t' "." hroot hsave
  -- the value is a block that ends its own line, and keeps no other line end
  have hself : s.followedBy ['\n'] = s := by decide
  rw [hself] at hload
  exact ⟨h.1, t', hsave, hload⟩

/-- A last value that ends in two line breaks has three after it was saved and loaded. -/
theorem Settings.loaded_lineEnds :
    let s : Settings := { metrics := { defaultTags := ⟨[("k", "a\n\n")], by decide⟩ } }
    ∃ t' loaded, FileTree.saveSettings { root := "/srv" } "." s = (t', none) ∧
      t'.loadSettings "." = (.ok loaded, []) ∧
      loaded.settings.metrics.defaultTags.toList = [("k", "a\n\n\n")] ∧ loaded.settings ≠ s := by
  intro s
  have hroot : FileTree.IsRooted { root := "/srv" } :=
    ⟨startsWith_slash.2 rfl, fun h => absurd (endsWith_slash.1 h) (by decide)⟩
  obtain ⟨t', hsave⟩ := FileTree.saveSettings_here s hroot.1 rfl (by simp [FileTree.find?])
  have hload := FileTree.loadSettings_of_saveSettings hroot hsave
  exact ⟨t', _, hsave, hload, by decide, by decide⟩

end ClientMetrics
