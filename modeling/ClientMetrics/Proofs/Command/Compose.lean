import ClientMetrics.Command.Run
import ClientMetrics.Proofs.Config.File
import ClientMetrics.Proofs.Config.Overrides

/-!
# Making a file and using it

Overrides can be given when the file of a folder is made, and again when it is used. Two sets of
overrides are as good as one in which the later set counts where it says something, and the file
makes no difference to this, since it is read back as what was written.

Key results:
- `prepare_eq`: overrides are checked first, then they all take their places, and last the settings
  are checked together.
- `prepare_or`: overrides that are applied one set after the other.
- `invoke_show`, `invoke_refused`, `invoke_made`: what the two commands answer and leave behind.
- `createConfig_composes`: making a file and showing the settings, and what making one changes.
-/

namespace ClientMetrics

namespace Command

/-- Overrides are checked first, then all take their places, and the settings are checked last. -/
theorem prepare_eq (s : Settings) (o : Overrides) :
    prepare s o =
      match o.fault?.or (s.apply o).fault? with
      | some e => .error (.ofConfig e)
      | none => .ok (s.apply o) := by
  obtain ⟨hfault, hsettings⟩ := s.override_eq o
  unfold prepare
  cases h : s.override o with
  | mk applied e =>
    rw [h] at hfault hsettings
    -- the first fault of the overrides comes before any in what they make of the settings
    cases e with
    | some e => simp [← hfault]
    | none =>
      have happlied : applied = s.apply o := hsettings hfault.symm
      cases hchecked : (s.apply o).fault? <;> simp [← hfault, happlied, hchecked]

/-- Settings that pass the check are those that were given, with the overrides applied. -/
theorem eq_of_prepare {s s' : Settings} {o : Overrides} (h : prepare s o = .ok s') :
    o.fault? = none ∧ s' = s.apply o := by
  rw [prepare_eq] at h
  split at h
  · cases h
  · next hfault =>
    cases h
    exact ⟨(Option.or_eq_none_iff.1 hfault).1, rfl⟩

/-- Overrides that are applied to settings with others before them are as good as both at once. -/
theorem prepare_or {s made : Settings} {o : Overrides} (h : prepare s o = .ok made)
    (o' : Overrides) : prepare made o' = prepare s (o'.or o) := by
  obtain ⟨hfault, rfl⟩ := eq_of_prepare h
  rw [prepare_eq, prepare_eq, Overrides.fault?_or hfault]
  cases hfault' : o'.fault? with
  | some e => rfl
  | none => rw [s.apply_or o hfault']

/-! ## Showing settings -/

/-- What showing settings answers: their text, or nothing but a failure. -/
def shown (r : Except Failure Settings) : Nat × String :=
  match r with
  | .error _ => (1, "")
  | .ok s => (0, s.toYaml)

/-- Settings without a host are shown as they are, whatever the environment is. -/
theorem invoke_show (env : Environment) {t : FileTree} {folder : String} {loaded : LoadedSettings}
    (hload : (t.loadSettings folder).1 = .ok loaded) (hhost : loaded.settings.metrics.host = none)
    (o : Overrides) :
    ((invoke env t ⟨folder, o, .query .showConfig⟩).status,
      (invoke env t ⟨folder, o, .query .showConfig⟩).output) =
      shown (prepare loaded.settings o) := by
  simp only [invoke, loadPrepared, hload]
  cases hprepare : prepare loaded.settings o with
  | error f => rfl
  | ok s =>
    obtain ⟨-, rfl⟩ := eq_of_prepare hprepare
    -- overrides name no host, so nothing is measured and nothing can fail to start
    have hstart : startMeasurements (loaded.settings.apply o).metrics = .ok [] := by
      have hsame : (loaded.settings.apply o).metrics.host = none := hhost
      rw [startMeasurements, hsame]
    simp [bind, Except.bind, pure, Except.pure, runLoaded, hstart, perform, shown]

/-- Where nothing lies there is no text. -/
theorem readText_nothing {t : FileTree} {path : String} {place : Place}
    (hlocate : (t.locate path).toOption = some place) (hplace : t.find? place = none) :
    t.readText path = .error .missing := by
  have hok : t.locate path = .ok place := by
    cases h : t.locate path <;> simp_all [Except.toOption]
  simp [FileTree.readText, FileTree.readBytes, hok, hplace, bind, Except.bind]

/-- Where there is no file the defaults are shown. -/
theorem invoke_show_missing (env : Environment) {t : FileTree} {folder : String}
    (hmissing : t.readText (joinPath (joinPath t.root folder) configFileName) = .error .missing)
    (o : Overrides) :
    ((invoke env t ⟨folder, o, .query .showConfig⟩).status,
      (invoke env t ⟨folder, o, .query .showConfig⟩).output) = shown (prepare {} o) := by
  have hload : (t.loadSettings folder).1 =
      .ok { settings := {}, path := joinPath t.root folder } := by
    simp only [FileTree.loadSettings, hmissing]
  exact invoke_show env hload rfl o

/-! ## Making a file -/

/-- Whatever the settings are, they can be saved in the folder. -/
def Saves (t : FileTree) (folder : String) : Prop :=
  ∀ s, ∃ t', t.saveSettings folder s = (t', none)

/-- A file is not made where there is one already, unless it is forced, and not if the overrides or
the settings that come of them are at fault. -/
def IsRefused (t : FileTree) (folder : String) (o : Overrides) (force : Bool) : Prop :=
  (t.exists? (joinPath folder configFileName) ∧ force = false) ∨ ∃ f, prepare {} o = .error f

/-- Where writing is forced, only a fault in the overrides is refused. -/
theorem isRefused_true_iff (t : FileTree) (folder : String) (o : Overrides) :
    IsRefused t folder o true ↔ ∃ f, prepare {} o = .error f := by
  simp [IsRefused]

/-- What making a file that is refused changes, which is nothing. -/
theorem invoke_refused (env : Environment) {t : FileTree} {folder : String} {o : Overrides}
    {force : Bool} (h : IsRefused t folder o force) :
    (invoke env t ⟨folder, o, .createConfig force⟩).status = 1 ∧
    (invoke env t ⟨folder, o, .createConfig force⟩).files = t := by
  simp only [invoke, initialise]
  -- the file is in the way and may not be replaced, or the settings are not accepted
  by_cases hexists : t.exists? (joinPath folder configFileName) ∧ force = false
  · have hthere : t.exists? (joinPath folder configFileName) = true ∧ (!force) = true := by
      simpa using hexists
    simp only [if_pos hthere]
    exact ⟨rfl, rfl⟩
  · have hnot : ¬(t.exists? (joinPath folder configFileName) = true ∧ (!force) = true) := by
      simpa using hexists
    obtain ⟨f, hprepare⟩ := h.resolve_left hexists
    simp only [if_neg hnot, hprepare]
    exact ⟨rfl, rfl⟩

/-- What making a file that is not refused leaves behind: the prepared settings, saved. -/
theorem invoke_made (env : Environment) {t : FileTree} {folder : String} {o : Overrides}
    {force : Bool} (hsaves : Saves t folder) (h : ¬IsRefused t folder o force) :
    ∃ s, prepare {} o = .ok s ∧
      t.saveSettings folder s = ((invoke env t ⟨folder, o, .createConfig force⟩).files, none) ∧
      (invoke env t ⟨folder, o, .createConfig force⟩).status = 0 := by
  obtain ⟨hexists, hprepared⟩ := not_or.1 h
  have hnot : ¬(t.exists? (joinPath folder configFileName) = true ∧ (!force) = true) := by
    simpa using hexists
  -- settings that are accepted can be saved, which `hsaves` says of the folder
  cases hprepare : prepare {} o with
  | error f => exact absurd ⟨f, hprepare⟩ hprepared
  | ok s =>
    obtain ⟨t', hsave⟩ := hsaves s
    refine ⟨s, rfl, ?_⟩
    simp only [invoke, initialise, if_neg hnot, hprepare, hsave, and_self]

/-- A file that was made holds the text of the prepared settings, whatever was there before. -/
theorem readText_made {t t' : FileTree} {folder : String} {s : Settings}
    (h : t.saveSettings folder s = (t', none)) :
    t'.readText (joinPath folder configFileName) = .ok (s.toYaml ++ "\n") := by
  obtain ⟨made, -, -, hwrite⟩ := FileTree.saveSettings_eq_none h
  exact FileTree.readText_write hwrite

/-- A file that was made is loaded as the prepared settings, since they have no default tags. -/
theorem loadSettings_made {t t' : FileTree} (rooted : t.IsRooted) {folder : String}
    {o : Overrides} {s : Settings} (hprepare : prepare {} o = .ok s)
    (h : t.saveSettings folder s = (t', none)) :
    (t'.loadSettings folder).1 = .ok { settings := s, path := joinPath t.root folder } := by
  obtain ⟨-, rfl⟩ := eq_of_prepare hprepare
  have hself : (({} : Settings).apply o).followedBy ['\n'] = ({} : Settings).apply o := by
    rw [Settings.followedBy_eq_self_iff _ (by simp)]
    intro tag htag
    cases htag
  rw [FileTree.loadSettings_of_saveSettings rooted h, hself]

/-- Making a file and showing its settings compose. If a file was made, showing the settings with
more overrides answers as showing the defaults with both sets of overrides does. A file that is
made by force does not depend on what was there. Where the file system allows it, a file is not
made only if it is refused, and then nothing is changed. -/
theorem createConfig_composes (env : Environment) {t : FileTree} (rooted : t.IsRooted)
    {folder : String} (saves : Saves t folder) (o : Overrides) (force : Bool) :
    let made := invoke env t ⟨folder, o, .createConfig force⟩
    (made.status = 0 → ∀ (o' : Overrides) (env₁ env₂ : Environment) (blank : FileTree)
      (folder' : String), blank.readText
          (joinPath (joinPath blank.root folder') configFileName) = .error .missing →
        let later := invoke env₁ made.files ⟨folder, o', .query .showConfig⟩
        let direct := invoke env₂ blank ⟨folder', o'.or o, .query .showConfig⟩
        later.status = direct.status ∧ later.output = direct.output) ∧
    (∀ t₂, Saves t₂ folder →
      let forced := invoke env t ⟨folder, o, .createConfig true⟩
      let forced₂ := invoke env t₂ ⟨folder, o, .createConfig true⟩
      forced.status = forced₂.status ∧ (forced.status = 0 →
        ∃ text, forced.files.readText (joinPath folder configFileName) = .ok text ∧
          forced₂.files.readText (joinPath folder configFileName) = .ok text)) ∧
    (made.status ≠ 0 ↔ IsRefused t folder o force) ∧
    (IsRefused t folder o force → made.files = t) := by
  intro made
  have hstatus : made.status ≠ 0 ↔ IsRefused t folder o force := by
    constructor
    · intro hne
      by_contra hnot
      obtain ⟨s, -, -, hzero⟩ := invoke_made env saves hnot
      exact hne hzero
    · intro h
      rw [(invoke_refused env h).1]
      decide
  refine ⟨?_, ?_, hstatus, fun h => (invoke_refused env h).2⟩
  · intro hzero o' env₁ env₂ blank folder' hmissing later direct
    have hmade : ¬IsRefused t folder o force := fun h => hstatus.2 h hzero
    -- the file holds the defaults with the first overrides, which are then applied over
    obtain ⟨s, hprepare, hsave, -⟩ := invoke_made env saves hmade
    have hload := loadSettings_made rooted hprepare hsave
    have hhost : s.metrics.host = none := by
      obtain ⟨-, rfl⟩ := eq_of_prepare hprepare
      rfl
    have hlater := invoke_show env₁ hload hhost o'
    have hdirect := invoke_show_missing env₂ hmissing (o'.or o)
    rw [prepare_or hprepare, ← hdirect, Prod.mk.injEq] at hlater
    exact hlater
  · intro t₂ saves₂ forced forced₂
    have hsame : IsRefused t folder o true ↔ IsRefused t₂ folder o true := by
      rw [isRefused_true_iff, isRefused_true_iff]
    by_cases hrefused : IsRefused t folder o true
    · have hstatus₁ : forced.status = 1 := (invoke_refused env hrefused).1
      have hstatus₂ : forced₂.status = 1 := (invoke_refused env (hsame.1 hrefused)).1
      exact ⟨hstatus₁.trans hstatus₂.symm, fun hzero => by omega⟩
    · obtain ⟨s, hprepare, hsave, hstatus₁⟩ := invoke_made env saves hrefused
      obtain ⟨s₂, hprepare₂, hsave₂, hstatus₂⟩ := invoke_made env saves₂ (mt hsame.2 hrefused)
      obtain rfl : s = s₂ := by simpa [hprepare] using hprepare₂
      exact ⟨hstatus₁.trans hstatus₂.symm, fun _ => ⟨_, readText_made hsave, readText_made hsave₂⟩⟩

/-- A batch as large as the queue. A smaller queue is refused later, and a larger one is not. -/
theorem createConfig_composes_coupled :
    let t : FileTree := { root := "/srv" }
    let o : Overrides := { capacity := some "5", batchSize := some "5" }
    let made := invoke [] t ⟨".", o, .createConfig false⟩
    t.IsRooted ∧ Saves t "." ∧ made.status = 0 ∧
    (invoke [] made.files ⟨".", { capacity := some "3" }, .query .showConfig⟩).status = 1 ∧
    (invoke [] made.files ⟨".", { capacity := some "+7" }, .query .showConfig⟩).status = 0 := by
  intro t o made
  have hrooted : t.IsRooted :=
    ⟨startsWith_slash.2 (by decide), fun h => absurd (endsWith_slash.1 h) (by decide)⟩
  have hsaves : Saves t "." := fun s =>
    t.saveSettings_here s hrooted.1 rfl (by simp [t, FileTree.find?])
  obtain ⟨hshow, -, hrefused, -⟩ := createConfig_composes [] hrooted hsaves o false
  -- there is no file in the way, and the settings are accepted
  have hmade : made.status = 0 := by
    by_contra hne
    rcases hrefused.1 hne with ⟨hexists, -⟩ | ⟨f, hf⟩
    · revert hexists
      decide +kernel
    · have hok : (prepare {} o).toOption.isSome := by decide +kernel
      rw [hf] at hok
      cases hok
  have hnothing : t.find? [configFileName] = none := by decide
  have hblank : t.readText (joinPath (joinPath t.root ".") configFileName) = .error .missing :=
    readText_nothing (by decide +kernel) hnothing
  -- a capacity of three has no room for the batch that the file asks for
  refine ⟨hrooted, hsaves, hmade, ?_, ?_⟩
  · exact (hshow hmade { capacity := some "3" } [] [] t "." hblank).1.trans (by decide +kernel)
  · exact (hshow hmade { capacity := some "+7" } [] [] t "." hblank).1.trans (by decide +kernel)

end Command

end ClientMetrics
