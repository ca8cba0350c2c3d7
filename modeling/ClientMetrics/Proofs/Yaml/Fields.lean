import ClientMetrics.Proofs.Text.Digits
import ClientMetrics.Proofs.Yaml.Nodes
import ClientMetrics.Yaml.Fields

/-!
# Reading the values of written entries

Numbers and truth values are written as plain words, which stand for themselves again. Texts are
only written plainly where they stand for nothing else. The fields of a mapping are found by their
names.

Key results:
- `natural?_toString`, `bool?_toString`: words.
- `name?_textNode`, `text?_textNode`, `optionalText?_textNode`: texts.
- `fields?_keyed`, `texts?_keyed`: the fields of a mapping.
-/

namespace ClientMetrics

namespace Yaml

variable {cs : List Char}

/-! ## Numbers and truth values -/

theorem toList_toString (n : Nat) : (toString n).toList = Nat.toDigits 10 n := by
  rw [Nat.toString_eq_ofList_toDigits, String.toList_ofList]

theorem isDigit_of_mem_toString {n : Nat} {c : Char} (h : c ∈ (toString n).toList) : c.isDigit :=
  Nat.isDigit_of_mem_toDigits (by decide) (by decide) (toList_toString n ▸ h)

/-- A number is written as a word. -/
theorem isPlain_toString (n : Nat) : IsPlain (toString n).toList := by
  have halpha : ∀ c ∈ (toString n).toList, c.isAlphanum := fun c hc => by
    simp [Char.isAlphanum, isDigit_of_mem_toString hc]
  have hne : (toString n).toList ≠ [] := by
    rw [toList_toString]
    exact Nat.toDigits_ne_nil
  exact (IsWord.of_isAlphanum hne halpha).isPlain

/-- So is a truth value. -/
theorem isPlain_toString_bool (b : Bool) : IsPlain (toString b).toList := by
  have hword : IsWord (toString b).toList := by cases b <;> decide
  exact hword.isPlain

/-- A decimal digit stands for its distance from zero. -/
theorem value?_of_isDigit {c : Char} (h : c.isDigit) :
    (Text.Hex.value? c).filter (· < 10) = some (c.toNat - '0'.toNat) := by
  have hrange : '0' ≤ c ∧ c ≤ '9' := by
    simp only [Char.isDigit, Bool.and_eq_true, decide_eq_true_eq] at h
    exact h
  -- a digit is less than ten, so it is not lost by the filter
  have hlt : c.toNat - 48 < 10 := by
    have : c.toNat ≤ 57 := UInt32.le_iff_toNat_le.1 hrange.2
    omega
  rw [Text.Hex.value?, if_pos hrange]
  simp [hlt]

/-- Digits are put together one after the other, the first one first. -/
theorem foldlM_digits (m : Nat) (h : ∀ c ∈ cs, c.isDigit) :
    cs.foldlM (fun n c => ((Text.Hex.value? c).filter (· < 10)).map (10 * n + ·)) m
      = some (Nat.ofDigitChars 10 cs m) := by
  induction cs generalizing m with
  | nil => simp
  | cons c cs ih =>
    obtain ⟨hc, hcs⟩ := List.forall_mem_cons.1 h
    rw [List.foldlM_cons, value?_of_isDigit hc, Nat.ofDigitChars_cons]
    exact ih _ hcs

/-- The digits of a number are put together to it. -/
theorem digits?_toDigits (n : Nat) : Scalar.digits? 10 (Nat.toDigits 10 n) = some n := by
  rw [Scalar.digits?, if_neg Nat.toDigits_ne_nil,
    foldlM_digits 0 fun c hc => Nat.isDigit_of_mem_toDigits (by decide) (by decide) hc,
    Nat.ofDigitChars_ten_toDigits]

section Signs

variable (h : ∀ c ∈ cs, c.isDigit)

include h

/-- Among digits there is nothing else. -/
theorem not_mem_of_isDigit {d : Char} (hd : d.isDigit = false) : d ∉ cs := by
  intro hmem
  simp [h d hmem] at hd

/-- Digits have no plus to drop. -/
theorem dropPlus_of_isDigit : Scalar.dropPlus cs = cs := by
  unfold Scalar.dropPlus
  split
  · exact absurd List.mem_cons_self (not_mem_of_isDigit h (by decide))
  · rfl

/-- Nor have they any other sign. -/
theorem dropSign_of_isDigit : Scalar.dropSign cs = cs := by
  unfold Scalar.dropSign
  split
  · exact absurd List.mem_cons_self (not_mem_of_isDigit h (by decide))
  · exact absurd List.mem_cons_self (not_mem_of_isDigit h (by decide))
  · rfl

/-- Digits do not name a base. -/
theorem base?_of_isDigit : Scalar.base? cs = none := by
  unfold Scalar.base?
  split
  · exact absurd (by simp) (not_mem_of_isDigit h (show 'x'.isDigit = false by decide))
  · exact absurd (by simp) (not_mem_of_isDigit h (show 'o'.isDigit = false by decide))
  · exact absurd (by simp) (not_mem_of_isDigit h (show 'b'.isDigit = false by decide))
  · rfl

end Signs

/-- The digits of a number stand for it. -/
theorem natural?_toDigits (n : Nat) : Scalar.natural? (Nat.toDigits 10 n) = some n := by
  have hdigit : ∀ c ∈ Nat.toDigits 10 n, c.isDigit :=
    fun c hc => Nat.isDigit_of_mem_toDigits (by decide) (by decide) hc
  have hpadded : Scalar.isPadded (Nat.toDigits 10 n) = false := by
    unfold Scalar.isPadded
    rw [dropSign_of_isDigit hdigit]
    split
    · next rest heq =>
      -- only zero starts with a zero, and it has no other digits
      have hzero : n = 0 := Text.head?_toDigits (by rw [heq]; rfl)
      rw [hzero, Nat.toDigits_zero] at heq
      simp [← (List.cons.inj heq).2]
    · rfl
  rw [Scalar.natural?, Scalar.magnitude?, dropPlus_of_isDigit hdigit, base?_of_isDigit hdigit,
    if_neg (by simp [hpadded]), digits?_toDigits]
  rfl

/-- A number that was written is read back, if it is below the limit. -/
theorem natural?_toString {n limit : Nat} (h : n < limit) :
    (wordNode (toString n)).natural? limit = some n := by
  simp [wordNode, Node.natural?, Node.isTyped, natural?_toDigits, h]

/-- A truth value that was written is read back. -/
theorem bool?_toString (b : Bool) : (wordNode (toString b)).bool? = some b := by
  cases b <;> decide

/-! ## Texts -/

@[simp] theorem absorbed_nil (cs : List Char) : absorbed cs [] = [] := by
  simp [absorbed, Block.kept]

/-- Where no line ends follow, a text is read back as itself. -/
theorem textNode_nil (text : String) :
    textNode text [] = .scalar {} text (styleOf text.toList) := by
  rw [textNode, absorbed_nil, List.append_nil, String.ofList_toList]

/-- A text is read back as a text, however it was written. -/
theorem text?_textNode (text : String) : (textNode text []).text? = some text := by
  rw [textNode_nil, Node.text?]

theorem name?_textNode (text : String) : (textNode text []).name? = some text := by
  simp [textNode_nil, Node.name?, Node.tagName?, Node.properties]

/-- A text that stands for something else is not written plainly. -/
theorem needsQuotes_of_plain (h : styleOf cs = .plain) : Scalar.needsQuotes cs = false := by
  unfold styleOf at h
  -- of the branches that choose a style, one chooses the plain one
  split at h
  · split at h <;> simp at h
  · split at h
    · next hplain =>
      simp only [Bool.and_eq_true, Bool.not_eq_true'] at hplain
      exact hplain.1
    · split at h <;> simp at h

/-- It is not mistaken for a text that is not set. -/
theorem optionalText?_textNode (text : String) :
    (textNode text []).optionalText? = some (some text) := by
  rw [textNode_nil, Node.optionalText?]
  split
  · rfl
  · -- a plain text is neither empty nor one of the words for nothing
    next hstyle =>
    have hstyle' : styleOf text.toList = .plain := by simpa using hstyle
    have hquotes := needsQuotes_of_plain hstyle'
    simp only [Scalar.needsQuotes, Bool.or_eq_false_iff, decide_eq_false_iff_not] at hquotes
    have hempty : text ≠ "" := by
      rintro rfl
      exact hquotes.1.1.1.1.1 rfl
    simp [hempty, hquotes.1.1.1.1.2]

/-! ## Fields -/

variable {root : Node}

/-- Entries whose keys are texts. -/
def keyed (fields : List (String × Node)) : List (Node × Node) :=
  fields.map fun (key, value) => (keyNode key, value)

/-- The fields of a mapping are its entries by the texts of their keys. -/
theorem fields?_keyed (p : Properties) (fields : List (String × Node)) :
    (Node.mapping p (keyed fields)).fields? root = some fields := by
  simp only [Node.fields?, Node.entries?, Option.bind_eq_bind, Option.bind_some]
  induction fields with
  | nil => rfl
  | cons field fields ih =>
    simp only [keyed, List.map_cons, List.mapM_cons] at ih ⊢
    rw [ih]
    rfl

/-- Fields that are texts. -/
theorem texts?_keyed (p : Properties) (texts : List (String × String)) (ends : List Char) :
    (Node.mapping p (keyed (beforeEnds (fun t ends => (t.1, textNode t.2 ends)) texts ends))).texts?
        root
      = some (beforeEnds (fun t ends => (t.1, .ofList (t.2.toList ++ absorbed t.2.toList ends)))
          texts ends) := by
  rw [Node.texts?, fields?_keyed, Option.bind_eq_bind, Option.bind_some]
  refine mapM_beforeEnds (fun t ends => ?_) texts ends
  rfl

/-- A field that occurs once is read. -/
theorem field_of_filter {α : Type} {fields : List (String × Node)} {name : String} {n : Node}
    {default a : α} {read : Node → Option α} (hfields : fields.filter (·.1 = name) = [(name, n)])
    (hresolve : root.resolve? n = some n) (hread : read n = some a) :
    field root fields name default read = some a := by
  rw [field, hfields]
  simp [hresolve, hread]

end Yaml

end ClientMetrics
