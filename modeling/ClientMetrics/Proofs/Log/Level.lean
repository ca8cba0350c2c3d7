import ClientMetrics.Log.Level
import Mathlib.Data.List.Forall2

/-!
# Names of log levels

A level goes by its name, and the level of warnings by a longer one too. Every letter of a name may
be small or capital. No other characters pass for these letters, since only capitals of the
alphabet from A to Z are made small.

Key results:
- `toLower_eq_iff`: the characters that are made into a small letter.
- `Level.ofText?_eq_some_iff`: a text is read as a level if it calls that level by a name.
-/

namespace ClientMetrics

namespace Log

/-! ## Either case -/

/-- A capital becomes the letter 32 places after it, and any other character stays. -/
theorem toNat_toLower (c : Char) :
    c.toLower.toNat = if 65 ≤ c.toNat ∧ c.toNat ≤ 90 then c.toNat + 32 else c.toNat := by
  have hcapital : (c.val ≥ 'A'.val ∧ c.val ≤ 'Z'.val) ↔ 65 ≤ c.toNat ∧ c.toNat ≤ 90 := Iff.rfl
  -- capitals are the letters from 65 to 90
  by_cases h : c.val ≥ 'A'.val ∧ c.val ≤ 'Z'.val
  · have hval : c.toLower.val = c.val + 32 := congrArg Char.val (dif_pos h)
    have hadd : (c.val + 32).toNat = (c.toNat + 32) % 2 ^ 32 := UInt32.toNat_add c.val 32
    have hc := hcapital.1 h
    show c.toLower.val.toNat = _
    rw [hval, hadd, if_pos hc]
    omega
  · have hsame : c.toLower = c := dif_neg h
    rw [hsame, if_neg (mt hcapital.2 h)]

/-- A small letter becomes the one 32 places before it. -/
theorem toNat_toUpper (c : Char) :
    c.toUpper.toNat = if 97 ≤ c.toNat ∧ c.toNat ≤ 122 then c.toNat - 32 else c.toNat := by
  have hsmall : ('a'.val ≤ c.val ∧ c.val ≤ 'z'.val) ↔ 97 ≤ c.toNat ∧ c.toNat ≤ 122 := Iff.rfl
  by_cases h : 'a'.val ≤ c.val ∧ c.val ≤ 'z'.val
  · have hval : c.toUpper.val = c.val + ('A'.val - 'a'.val) := by
      delta Char.toUpper
      rw [dif_pos h]
    -- words wrap around, so adding this difference takes 32 away
    have hadd : (c.val + ('A'.val - 'a'.val)).toNat = (c.toNat + (2 ^ 32 - 32)) % 2 ^ 32 :=
      UInt32.toNat_add c.val _
    have hc := hsmall.1 h
    show c.toUpper.val.toNat = _
    rw [hval, hadd, if_pos hc]
    omega
  · have hsame : c.toUpper = c := dif_neg h
    rw [hsame, if_neg (mt hsmall.2 h)]

/-- Only a small letter and its capital are made into that letter. -/
theorem toLower_eq_iff {letter : Char} (h : letter.isLower) (c : Char) :
    c.toLower = letter ↔ c = letter ∨ c = letter.toUpper := by
  obtain ⟨hfrom, hto⟩ := Bool.and_eq_true_iff.1 h
  have hsmall : 97 ≤ letter.toNat ∧ letter.toNat ≤ 122 :=
    ⟨of_decide_eq_true hfrom, of_decide_eq_true hto⟩
  simp only [← Char.toNat_inj, toNat_toLower, toNat_toUpper, if_pos hsmall]
  split <;> omega

/-- A text spells a name if its characters are those of the name or their capitals. -/
def Spells (text name : String) : Prop :=
  List.Forall₂ (fun c letter => c = letter ∨ c = letter.toUpper) text.toList name.toList

/-- A text that is made small is a name in small letters exactly if it spells the name. -/
theorem map_toLower_eq_iff {name : String} (h : ∀ letter ∈ name.toList, letter.isLower)
    (text : String) : text.map Char.toLower = name ↔ Spells text name := by
  rw [← String.toList_inj, String.toList_map, Spells]
  generalize text.toList = cs
  revert h
  generalize name.toList = letters
  intro h
  -- letter by letter, in either case
  induction cs generalizing letters with
  | nil => cases letters <;> simp
  | cons c cs ih =>
    cases letters with
    | nil => simp
    | cons letter letters =>
      obtain ⟨hletter, hletters⟩ := List.forall_mem_cons.1 h
      rw [List.map_cons, List.cons.injEq, List.forall₂_cons, toLower_eq_iff hletter,
        ih letters hletters]

namespace Level

/-! ## Levels -/

/-- What a level may be called. -/
def names : Level → List String
  | warn => ["warn", "warning"]
  | level => [level.name]

/-- A text calls a level by one of its names, in either case. -/
def IsCalled (level : Level) (text : String) : Prop := ∃ name ∈ level.names, Spells text name

/-- The names of the levels consist of small letters. -/
theorem isLower_of_mem_names {level : Level} {name : String} (h : name ∈ level.names) :
    ∀ letter ∈ name.toList, letter.isLower := by
  have hall : ∀ name ∈ level.names, name.toList.all Char.isLower := by cases level <;> decide
  exact List.all_eq_true.1 (hall name h)

/-- Once it is made small, a text is looked up among the names of all levels. -/
theorem ofText?_eq_some_iff_mem (text : String) (level : Level) :
    ofText? text = some level ↔ text.map Char.toLower ∈ level.names := by
  show (if text.map Char.toLower = "warning" then some warn
    else all.find? (·.name = text.map Char.toLower)) = some level ↔ _
  generalize text.map Char.toLower = name
  -- one name is an alias, and all others are those of the levels themselves
  constructor
  · intro h
    split at h
    · next hname =>
      cases h
      simp [names, hname]
    · have hname : level.name = name := by simpa using List.find?_some h
      rw [← hname]
      cases level <;> decide
  · revert name
    cases level <;> decide

/-- A text is read as a level exactly if the level is called so, in either case. -/
theorem ofText?_eq_some_iff (text : String) (level : Level) :
    ofText? text = some level ↔ level.IsCalled text := by
  rw [ofText?_eq_some_iff_mem]
  constructor
  · intro h
    exact ⟨_, h, (map_toLower_eq_iff (isLower_of_mem_names h) text).1 rfl⟩
  · rintro ⟨name, hname, h⟩
    rwa [(map_toLower_eq_iff (isLower_of_mem_names hname) text).2 h]

end Level

end Log

end ClientMetrics
