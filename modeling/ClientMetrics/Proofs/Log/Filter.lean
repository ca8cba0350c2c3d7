import ClientMetrics.Command.Run
import Mathlib.Data.List.Basic
import Mathlib.Data.List.TakeWhile

/-!
# What the standard filter separates

The standard filter is meant to tell the parts of the program from everything else: the parts log
at the level that is set, all others at `info` at most. What a target is part of is said by the
name at its front, up to the first double colon. A directive, however, covers every target that
starts with its name, and the name of the first part is the beginning of many others.

The filter reaches the log as text, as any other does that is set for a run. That text is read as
the filter that is meant: a name ends at its equals sign, and a directive at its comma.

Key results:
- `read_legible`: directives whose names have none of these signs in them are read from their texts.
- `read_directives`, `startLog_of_unset`: so is the standard filter, which a run uses unless its
  environment says otherwise.
- `levelOf?_standard`: the level that counts for a target depends on its first letters alone.
- `allows_standard_of_isPart`, `allows_standard_of_not_starts`: the parts of the program, and what
  does not start like one of them, are told apart as they should be.
- `separates_standard_iff`: the events for which the filter does what it is meant to do.
-/

namespace ClientMetrics

namespace Log

/-- The name at the front of a target, up to the first double colon. -/
def firstName : List Char → List Char
  | [] => []
  | ':' :: ':' :: _ => []
  | c :: cs => c :: firstName cs

/-- The first name is where a target starts. -/
theorem firstName_prefix (cs : List Char) : firstName cs <+: cs := by
  fun_induction firstName cs with
  | case1 => exact List.nil_prefix
  | case2 => exact List.nil_prefix  -- at a double colon
  | case3 c cs _ ih => exact (List.prefix_cons_inj c).2 ih

/-! ## The text of a directive -/

namespace Directive

/-- A level is read by its name. -/
theorem level?_name (level : Level) : level? level.name = some level := by
  cases level <;> decide +kernel

/-- The name of a level is made of letters that neither separate nor surround anything. -/
theorem clean_name (level : Level) :
    level.name.toList ≠ [] ∧ ∀ c ∈ level.name.toList, isStart c ∧ c ≠ ',' ∧ c ≠ '=' := by
  have hne : level.name.toList ≠ [] := by
    cases level <;> decide +kernel
  have hall : level.name.toList.all (fun c => isStart c && c ≠ ',' && c ≠ '=') := by
    cases level <;> decide +kernel
  exact ⟨hne, fun c hc => by simpa [and_assoc] using List.all_eq_true.1 hall c hc⟩

/-- The text of a directive. -/
def text (d : Directive) : String :=
  if d.target = "" then d.level.name else d.target ++ "=" ++ d.level.name

/-- A directive is read from its text if its name starts as names do and ends before what separates
it from its level and from the next directive. -/
def IsLegible (d : Directive) : Prop :=
  d.target.toList.head?.all isStart ∧ d.target.toList.all fun c => c ≠ ',' && c ≠ '='

instance (d : Directive) : Decidable d.IsLegible := inferInstanceAs (Decidable (_ ∧ _))

/-- Nothing in the name of a legible directive separates it from anything. -/
theorem IsLegible.unsigned {d : Directive} (h : d.IsLegible) :
    ∀ c ∈ d.target.toList, c ≠ ',' ∧ c ≠ '=' := by
  simpa using List.all_eq_true.1 h.2

/-- No name starts with a blank. -/
theorem isWhitespace_of_isStart {c : Char} (h : isStart c) : c.isWhitespace = false := by
  rw [Bool.eq_false_iff]
  intro hblank
  simp only [Char.isWhitespace, Bool.or_eq_true, decide_eq_true_eq] at hblank
  obtain ((rfl | rfl) | rfl) | rfl := hblank <;> exact absurd h (by decide)

/-- Nothing is taken off a text that is not blank at its ends. -/
theorem trim_eq {cs : List Char} (hfirst : ∀ c ∈ cs.head?, c.isWhitespace = false)
    (hlast : ∀ c ∈ cs.getLast?, c.isWhitespace = false) : trim cs = cs := by
  have hstay {ds : List Char} (h : ∀ c ∈ ds.head?, c.isWhitespace = false) :
      ds.dropWhile Char.isWhitespace = ds := by
    cases ds with
    | nil => rfl
    | cons d ds => exact List.dropWhile_cons_of_neg (by simp [h d rfl])
  rw [trim, hstay hfirst, hstay (by rwa [List.head?_reverse]), List.reverse_reverse]

/-- The name of a level alone is a directive for all targets. -/
theorem read_name (level : Level) : read level.name = .ok { level } := by
  obtain ⟨hne, hclean⟩ := clean_name level
  have htrim : trim level.name.toList = level.name.toList :=
    trim_eq (fun c hc => isWhitespace_of_isStart (hclean c (List.mem_of_mem_head? hc)).1)
      fun c hc => isWhitespace_of_isStart (hclean c (List.mem_of_mem_getLast? hc)).1
  -- there is no equals sign for the name to end at
  have hname : ∀ c ∈ level.name.toList, decide (c ≠ '=') = true :=
    fun c hc => decide_eq_true (hclean c hc).2.2
  have htake : level.name.toList.takeWhile (· ≠ '=') = level.name.toList :=
    List.takeWhile_eq_self_iff.2 hname
  have hdrop : level.name.toList.dropWhile (· ≠ '=') = [] := List.dropWhile_eq_nil_iff.2 hname
  obtain ⟨c, cs, hcs⟩ := List.exists_cons_of_ne_nil hne
  have hstart : isStart c := (hclean c (by simp [hcs])).1
  rw [hcs] at htake hdrop htrim
  rw [read, hcs, htrim]
  simp only [hstart, htake, hdrop]
  rw [← hcs, String.ofList_toList, level?_name]
  rfl

/-- A name and a level are read on the two sides of the equals sign. -/
theorem read_pair {d : Directive} (hne : d.target ≠ "") (h : d.IsLegible) :
    read (d.target ++ "=" ++ d.level.name) = .ok d := by
  have hstart := h.1
  have hsign := h.unsigned
  obtain ⟨target, level⟩ := d
  obtain ⟨c, cs, hcs⟩ := List.exists_cons_of_ne_nil (mt String.toList_eq_nil_iff.1 hne)
  obtain ⟨l, ls, hls⟩ := List.exists_cons_of_ne_nil (clean_name level).1
  have hc : isStart c := by simpa [hcs] using hstart
  have htext : (target ++ "=" ++ level.name).toList = c :: (cs ++ '=' :: level.name.toList) := by
    simp [hcs]
  have htrim : trim (c :: (cs ++ '=' :: level.name.toList))
      = c :: (cs ++ '=' :: level.name.toList) := by
    refine trim_eq (fun b hb => ?_) fun b hb => ?_
    · cases hb
      exact isWhitespace_of_isStart hc
    · -- the text ends where the name of the level does
      have hlast : b ∈ level.name.toList.getLast? := by
        rw [hls] at hb ⊢
        simpa [List.getLast?_cons, List.getLast?_append] using hb
      exact isWhitespace_of_isStart ((clean_name level).2 b (List.mem_of_mem_getLast? hlast)).1
  have hname : ∀ b ∈ c :: cs, decide (b ≠ '=') = true := by
    intro b hb
    exact decide_eq_true (hsign b (by rwa [hcs])).2
  have htake : (c :: (cs ++ '=' :: level.name.toList)).takeWhile (· ≠ '=') = c :: cs := by
    rw [← List.cons_append, List.takeWhile_append_of_pos hname]
    simp
  have hdrop : (c :: (cs ++ '=' :: level.name.toList)).dropWhile (· ≠ '=')
      = '=' :: level.name.toList := by
    rw [← List.cons_append, List.dropWhile_append_of_pos hname]
    simp
  rw [read, htext, htrim]
  simp only [hc, htake, hdrop]
  rw [hls]
  simp only [← hls, ← hcs, String.ofList_toList, level?_name]
  rfl

/-- A directive is read from its text. -/
theorem read_text {d : Directive} (h : d.IsLegible) : read d.text = .ok d := by
  rw [text]
  split
  next htarget =>
    obtain ⟨target, level⟩ := d
    cases htarget
    exact read_name level
  next htarget => exact read_pair htarget h

/-- The text of a legible directive has no comma in it. -/
theorem comma_not_mem_text {d : Directive} (h : d.IsLegible) : ',' ∉ d.text.toList := by
  have hname : ',' ∉ d.level.name.toList := fun hc =>
    ((clean_name d.level).2 ',' hc).2.1 rfl
  have htarget : ',' ∉ d.target.toList := fun hc => (h.unsigned ',' hc).1 rfl
  unfold text
  split
  · exact hname
  · simp [hname, htarget]

/-- The text of a directive is not empty. -/
theorem text_ne_empty (d : Directive) : d.text ≠ "" := by
  have hname := (clean_name d.level).1
  unfold text
  split
  · exact mt String.toList_eq_nil_iff.2 hname
  · simp [← String.toList_eq_nil_iff]

end Directive

/-! ## Parts of the program -/

namespace Filter

/-- A target belongs to the program if the name at its front is that of a part. -/
def isPart (target : String) : Bool :=
  programTargets.any fun part => part.toList = firstName target.toList

/-- A target starts like the parts of the program, whose names all start like the first one. -/
def startsLikePart (target : String) : Bool := "csm".toList.isPrefixOf target.toList

/-- The names of all parts start like the first one. -/
theorem prefix_programTarget : ∀ part ∈ programTargets, "csm".toList <+: part.toList := by decide

/-- What belongs to the program starts like its parts. -/
theorem startsLikePart_of_isPart {target : String} (h : isPart target) : startsLikePart target := by
  obtain ⟨part, hpart, heq⟩ := List.any_eq_true.1 h
  have hname : part.toList <+: target.toList := by
    rw [of_decide_eq_true heq]
    exact firstName_prefix target.toList
  exact List.isPrefixOf_iff_prefix.2 ((prefix_programTarget part hpart).trans hname)

/-! ## The level that counts -/

/-- Where all directives that compete give the same level, it does not matter which one wins. -/
theorem level_foldl_stronger {best : Directive} {f : Filter}
    (h : ∀ d ∈ f, d.level = best.level) :
    (f.foldl stronger (some best)).map Directive.level = some best.level := by
  induction f generalizing best with
  | nil => rfl
  | cons d f ih =>
    obtain ⟨hd, hf⟩ := List.forall_mem_cons.1 h
    rw [List.foldl_cons, stronger]
    -- the best one stays or gives way to one of the same level
    split
    · exact ih hf
    · rw [ih fun d' hd' => (hf d' hd').trans hd.symm, hd]

/-- The directives that name a part of the program. -/
def parts (level : Level) : Filter := programTargets.map fun target => { target, level }

/-- All parts log at the level that is set. -/
theorem level_of_mem_parts {level : Level} {d : Directive} (h : d ∈ parts level) :
    d.level = level := by
  obtain ⟨target, -, rfl⟩ := List.mem_map.1 h
  rfl

/-- No part covers a target that does not start like one. -/
theorem covers_parts {target : String} (h : startsLikePart target = false) {level : Level} :
    ∀ d ∈ parts level, d.covers target = false := by
  intro d hd
  obtain ⟨part, hpart, rfl⟩ := List.mem_map.1 hd
  rw [Bool.eq_false_iff] at h ⊢
  intro hcovers
  exact h (List.isPrefixOf_iff_prefix.2
    ((prefix_programTarget part hpart).trans (List.isPrefixOf_iff_prefix.1 hcovers)))

/-- The level that is set counts for every target that starts like a part of the program, whether
or not it belongs to one. -/
theorem levelOf?_standard (level : Level) (target : String) :
    (standard level).levelOf? target
      = some (if startsLikePart target then level else level.min .info) := by
  have hall : (standard level).filter (·.covers target)
      = { level := level.min .info } :: (parts level).filter (·.covers target) := rfl
  rw [levelOf?, hall, List.foldl_cons]
  cases h : startsLikePart target with
  | false =>
    have hnone : (parts level).filter (·.covers target) = [] :=
      List.filter_eq_nil_iff.2 fun d hd => by simp [covers_parts h d hd]
    rw [hnone]
    rfl
  | true =>
    -- the first part takes the place of the directive without a name, and the others agree with it
    have hfirst : (parts level).filter (·.covers target)
        = { target := "csm", level } :: (parts level).tail.filter (·.covers target) :=
      List.filter_cons_of_pos h
    have hlonger : stronger (stronger none { level := level.min .info }) { target := "csm", level }
        = some { target := "csm", level } := rfl
    rw [hfirst, List.foldl_cons, hlonger, level_foldl_stronger]
    · rfl
    · intro d hd
      exact level_of_mem_parts (List.mem_of_mem_tail (List.mem_filter.1 hd).1)

/-- Events are let through up to the level that is set, or up to `info` where a target does not
start like a part of the program. -/
theorem allows_standard (level : Level) (severity : Severity) (target : String) :
    (standard level).allows severity target
      = (if startsLikePart target then level else level.min .info).allows severity := by
  rw [allows, levelOf?_standard]
  rfl

/-- The parts of the program log at the level that is set. -/
theorem allows_standard_of_isPart {target : String} (h : isPart target) (level : Level)
    (severity : Severity) : (standard level).allows severity target = level.allows severity := by
  rw [allows_standard, if_pos (startsLikePart_of_isPart h)]

/-- What does not start like a part of the program logs at `info` at most. -/
theorem allows_standard_of_not_starts {target : String} (h : startsLikePart target = false)
    (level : Level) (severity : Severity) :
    (standard level).allows severity target = (level.min .info).allows severity := by
  rw [allows_standard, h]
  rfl

/-! ## The text of a filter -/

/-- A text without a comma is one piece. -/
theorem pieces_of_not_mem {cs : List Char} (h : ',' ∉ cs) : pieces cs = [cs] := by
  induction cs with
  | nil => rfl
  | cons c cs ih =>
    rw [List.mem_cons, not_or] at h
    rw [pieces, if_neg (Ne.symm h.1), ih h.2]

/-- A piece ends at the first comma. -/
theorem pieces_append {cs : List Char} (h : ',' ∉ cs) (rest : List Char) :
    pieces (cs ++ ',' :: rest) = cs :: pieces rest := by
  induction cs with
  | nil => rfl
  | cons c cs ih =>
    rw [List.mem_cons, not_or] at h
    rw [List.cons_append, pieces, if_neg (Ne.symm h.1), ih h.2]

/-- The text of directives, with a comma before each but the first. -/
def characters : Filter → List Char
  | [] => []
  | d :: f => d.text.toList ++ f.flatMap fun d => ',' :: d.text.toList

/-- The texts of legible directives are found again between the commas that join them. -/
theorem pieces_characters {first : Directive} {more : Filter}
    (h : ∀ d ∈ first :: more, d.IsLegible) :
    pieces (characters (first :: more)) = (first :: more).map (·.text.toList) := by
  -- no directive has a comma in it, so each is one of the pieces
  induction more generalizing first with
  | nil =>
    have hfirst := Directive.comma_not_mem_text (h first List.mem_cons_self)
    simpa [characters] using pieces_of_not_mem hfirst
  | cons next more ih =>
    obtain ⟨hfirst, hmore⟩ := List.forall_mem_cons.1 h
    have hjoin : characters (first :: next :: more)
        = first.text.toList ++ ',' :: characters (next :: more) := rfl
    rw [hjoin, pieces_append (Directive.comma_not_mem_text hfirst), ih hmore]
    rfl

/-- Directives are read from their texts, with nothing to be said of any of them. -/
theorem read_legible {f : Filter} (hne : f ≠ []) (h : ∀ d ∈ f, d.IsLegible) :
    read (String.ofList f.characters) = (f, []) := by
  -- the pieces are the texts of the directives, none of which is empty
  have htexts : ((pieces f.characters).map String.ofList).filter (· ≠ "")
      = f.map Directive.text := by
    obtain ⟨first, more, rfl⟩ := List.exists_cons_of_ne_nil hne
    rw [pieces_characters h, List.map_map]
    simp [Function.comp_def, Directive.text_ne_empty]
  have hread : f.filterMap (fun d => (Directive.read d.text).toOption) = f := by
    rw [List.filterMap_congr fun d hd => by rw [Directive.read_text (h d hd)]]
    exact List.filterMap_some
  have hfaults : f.filterMap (fun d => Directive.complaint? d.text) = [] := by
    rw [List.filterMap_eq_nil_iff]
    intro d hd
    rw [Directive.complaint?, Directive.read_text (h d hd)]
  simp only [read, String.toList_ofList, htexts, List.filterMap_map, Function.comp_def]
  rw [hread, hfaults, if_neg hne]

/-- The text of the standard filter of a level is that of its directives. -/
theorem toList_directives (level : Level) :
    (directives level).toList = (standard level).characters := by
  -- the text grows by a comma and a directive for each part
  have hfold (texts : List String) (start : String) :
      (texts.foldl (fun text target => text ++ "," ++ target ++ "=" ++ level.name) start).toList
        = start.toList ++ texts.flatMap fun target =>
          ',' :: (target.toList ++ '=' :: level.name.toList) := by
    induction texts generalizing start with
    | nil => simp
    | cons target texts ih => simp [ih]
  have hparts : ∀ target ∈ programTargets, (Directive.text { target, level }).toList
      = target.toList ++ '=' :: level.name.toList := by
    intro target htarget
    have hne : target ≠ "" := by
      rintro rfl
      exact absurd htarget (by decide)
    simp [Directive.text, hne]
  rw [directives, hfold, standard, characters, List.flatMap_map]
  exact congrArg _ (List.flatMap_congr fun target htarget => by rw [hparts target htarget])

/-- The text of the standard filter of a level is read as that filter. -/
theorem read_directives (level : Level) : read (directives level) = (standard level, []) := by
  have hlegible : ∀ d ∈ standard level, d.IsLegible := by
    cases level <;> decide +kernel
  rw [← String.ofList_toList (s := directives level), toList_directives]
  exact read_legible (List.cons_ne_nil _ _) hlegible

/-- A run uses the standard filter of its level if no variable says otherwise. -/
theorem startLog_of_unset {env : Environment} (h : env.lookup "RUST_LOG" = none) (s : Settings) :
    Command.startLog env s = (⟨standard s.level, s.format⟩, []) := by
  rw [Command.startLog, h, Option.getD_none, read_directives]
  rfl

/-! ## What it is meant to do -/

/-- The level that should count for a target. -/
def intendedLevel (level : Level) (target : String) : Level :=
  if isPart target then level else level.min .info

/-- A level lets more through than `info` does: the event is less severe than that, and within the
level. -/
theorem allows_min_eq_iff (level : Level) (severity : Severity) :
    level.allows severity = (level.min .info).allows severity ↔
      ¬(Level.rank .info < (Level.ofSeverity severity).rank ∧ level.allows severity) := by
  cases level <;> cases severity <;> decide

/-- The filter does what it is meant to do, except for less severe events of targets that start
like a part of the program and are none. These are let through up to the level that is set. -/
theorem separates_standard_iff (level : Level) (severity : Severity) (target : String) :
    (standard level).allows severity target = (intendedLevel level target).allows severity ↔
      ¬(isPart target = false ∧ startsLikePart target ∧
        Level.rank .info < (Level.ofSeverity severity).rank ∧ level.allows severity) := by
  rw [intendedLevel]
  cases hpart : isPart target with
  | true => simp [allows_standard_of_isPart hpart]
  | false =>
    cases hstarts : startsLikePart target with
    | false => simp [allows_standard_of_not_starts hstarts]
    | true =>
      -- the filter uses the level that is set where `info` should cap it
      rw [allows_standard, hstarts]
      simpa using allows_min_eq_iff level severity

/-- A library whose name goes on where that of the first part ends is not held to `info`. -/
theorem not_separates_standard :
    ¬∀ (level : Level) (severity : Severity) (target : String),
      (standard level).allows severity target = (intendedLevel level target).allows severity := by
  intro h
  exact absurd (h .debug .debug "csmock::client") (by decide)

end Filter

end Log

end ClientMetrics
