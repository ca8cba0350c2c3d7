import ClientMetrics.Consent.Bits
import ClientMetrics.Proofs.Text.Encoded

/-!
# Consent strings, character by character

A consent string is read byte by byte. The two digits take one byte each and no other character has
a byte of theirs, so the same can be said of its characters: those of a string that says anything
are all digits, and a vendor's digit stands at the place of its number.

* `all_isBit_iff` — the bytes are all digits exactly if the characters are;
* `read_of_isBitString`, `read_of_not_isBitString` — what a string says of a vendor;
* `read_eq_given_iff`, `read_eq_notGiven_iff` — when it grants consent to a vendor, and when it
  refuses;
* `read_characters` — the whole of it, and which changes of a string make no difference.
-/

namespace ClientMetrics

namespace VendorConsent

/-- All characters are one of the two digits. -/
def IsBitString (value : String) : Prop := ∀ c ∈ value.toList, c = '0' ∨ c = '1'

/-- The character at the place of a vendor, who are numbered from one. -/
def bitOf? (value : String) (vendor : UInt16) : Option Char :=
  if vendor = 0 then none else value.toList[vendor.toNat - 1]?

/-- What a vendor's digit says. -/
def ofBit? : Option Char → VendorConsent
  | some '1' => given
  | some '0' => notGiven
  | _ => unknown

/-- The digits are characters of one byte. -/
theorem toNat_le_of_isBit {c : Char} (h : c = '0' ∨ c = '1') : c.toNat ≤ 127 := by
  rcases h with rfl | rfl <;> decide

/-- A character has bytes of the two digits only if it is one of them. -/
theorem all_isBit_encodeChar (c : Char) :
    (String.utf8EncodeChar c).all isBit = true ↔ c = '0' ∨ c = '1' := by
  constructor
  · intro h
    by_cases hc : c.toNat ≤ 127
    · -- such a character is its own byte
      rw [Text.encodeChar_of_ascii hc, List.all_cons, List.all_nil, Bool.and_true, isBit,
        Bool.or_eq_true, beq_iff_eq, beq_iff_eq, ← UInt8.toNat_inj, ← UInt8.toNat_inj,
        UInt8.toNat_ofNat_of_lt' (Nat.lt_of_le_of_lt hc (by decide))] at h
      rcases h with h | h
      · exact .inl (Char.toNat_inj.1 h)
      · exact .inr (Char.toNat_inj.1 h)
    · -- the first byte of a longer character is none of the digits
      obtain ⟨b, bs, hbytes, hb⟩ := Text.exists_encodeChar (Nat.lt_of_not_le hc)
      rw [hbytes, List.all_cons, Bool.and_eq_true, isBit, Bool.or_eq_true, beq_iff_eq,
        beq_iff_eq] at h
      rcases h.1 with rfl | rfl
      · exact absurd hb (by decide)
      · exact absurd hb (by decide)
  · -- each digit is one byte, its own
    rintro (rfl | rfl) <;> decide

/-- The bytes of a string are all digits exactly if its characters are. -/
theorem all_isBit_iff (value : String) :
    value.toUTF8.toList.all isBit = true ↔ IsBitString value := by
  rw [Text.toList_toUTF8, List.all_flatMap, List.all_eq_true]
  exact forall₂_congr fun c _ => all_isBit_encodeChar c

/-- The byte of a digit says what the digit says. -/
theorem ofByte?_map {c? : Option Char} (h : ∀ c, c? = some c → c = '0' ∨ c = '1') :
    ofByte? (c?.map fun c => UInt8.ofNat c.toNat) = ofBit? c? := by
  cases c? with
  | none => rfl
  | some c => rcases h c rfl with rfl | rfl <;> rfl

/-- In a string of digits the one at the place of a vendor says it. -/
theorem read_of_isBitString {value : String} (h : IsBitString value) (vendor : UInt16) :
    read value vendor = ofBit? (bitOf? value vendor) := by
  unfold read ofBytes bitOf?
  rw [(all_isBit_iff value).2 h, if_pos rfl]
  -- no place is numbered zero; all others are counted alike in bytes and in characters
  split
  next => rfl
  next =>
    rw [Text.toList_toUTF8, Text.flatMap_encodeChar_of_ascii fun c hc => toNat_le_of_isBit (h c hc),
      List.getElem?_map]
    exact ofByte?_map fun c hc => h c (List.mem_of_getElem? hc)

/-- A string with any other character says nothing about anyone. -/
theorem read_of_not_isBitString {value : String} (h : ¬IsBitString value) (vendor : UInt16) :
    read value vendor = unknown := by
  have hbytes : ¬value.toUTF8.toList.all isBit = true := fun hall =>
    h ((all_isBit_iff value).1 hall)
  unfold read ofBytes
  rw [if_neg hbytes]
  split <;> rfl

/-- Only a one grants consent. -/
theorem ofBit?_eq_given_iff (c? : Option Char) : ofBit? c? = given ↔ c? = some '1' := by
  unfold ofBit?
  split <;> simp_all

/-- Only a zero refuses it. -/
theorem ofBit?_eq_notGiven_iff (c? : Option Char) : ofBit? c? = notGiven ↔ c? = some '0' := by
  unfold ofBit?
  split <;> simp_all

/-- Whatever a string says of a vendor, it is one of digits. -/
theorem read_eq_iff {c : VendorConsent} (hc : c ≠ unknown) (value : String) (vendor : UInt16) :
    read value vendor = c ↔ IsBitString value ∧ ofBit? (bitOf? value vendor) = c := by
  by_cases h : IsBitString value
  · rw [read_of_isBitString h, and_iff_right h]
  · rw [read_of_not_isBitString h]
    exact iff_of_false hc.symm fun hsaid => h hsaid.1

/-- A vendor is granted consent by a one at its place in a string of digits, and by nothing else. -/
theorem read_eq_given_iff (value : String) (vendor : UInt16) :
    read value vendor = given ↔ IsBitString value ∧ bitOf? value vendor = some '1' := by
  rw [read_eq_iff (by decide), ofBit?_eq_given_iff]

/-- A vendor is refused by a zero at its place in a string of digits, and by nothing else. -/
theorem read_eq_notGiven_iff (value : String) (vendor : UInt16) :
    read value vendor = notGiven ↔ IsBitString value ∧ bitOf? value vendor = some '0' := by
  rw [read_eq_iff (by decide), ofBit?_eq_notGiven_iff]

/-! ## Places -/

/-- A string of digits has this one at the place of a vendor. -/
structure HasDigit (value : String) (vendor : UInt16) (digit : Char) : Prop where
  /-- Vendors are numbered from one. -/
  numbered : 1 ≤ vendor.toNat
  digits : IsBitString value
  /-- The string has that many characters. -/
  reached : vendor.toNat ≤ value.length
  digit_eq : value.toList[vendor.toNat - 1]? = some digit

/-- A digit stands at the place of a vendor if the string reaches so far. -/
theorem hasDigit_iff (value : String) (vendor : UInt16) (digit : Char) :
    HasDigit value vendor digit ↔ IsBitString value ∧ bitOf? value vendor = some digit := by
  -- no vendor has the number zero
  by_cases hzero : vendor = 0
  · have hnone : bitOf? value vendor = none := if_pos hzero
    rw [hnone, hzero]
    exact iff_of_false (fun h => absurd h.numbered (by decide)) fun h => nomatch h.2
  · have hpos : vendor.toNat ≠ 0 := fun h => hzero (UInt16.toNat_inj.1 h)
    have hplace : bitOf? value vendor = value.toList[vendor.toNat - 1]? := if_neg hzero
    rw [hplace]
    constructor
    · intro h
      exact ⟨h.digits, h.digit_eq⟩
    · rintro ⟨hdigits, hdigit⟩
      -- a string that has a character at that place is long enough
      have hlt : vendor.toNat - 1 < value.toList.length := (List.getElem?_eq_some_iff.1 hdigit).1
      rw [String.length_toList] at hlt
      exact ⟨by omega, hdigits, by omega, hdigit⟩

/-- Digits after digits are digits. -/
theorem IsBitString.append {value more : String} (h : IsBitString value) (h' : IsBitString more) :
    IsBitString (value ++ more) := by
  intro c hc
  rw [String.toList_append, List.mem_append] at hc
  exact hc.elim (h c) (h' c)

/-- What is said of a vendor follows from the digit at its place. -/
theorem read_eq_of_place {value other : String} {vendor : UInt16} (h : IsBitString value)
    (h' : IsBitString other)
    (hplace : other.toList[vendor.toNat - 1]? = value.toList[vendor.toNat - 1]?) :
    read other vendor = read value vendor := by
  rw [read_of_isBitString h, read_of_isBitString h', bitOf?, bitOf?, hplace]

/-- A string says of a vendor what the character at its place says, if all characters are digits and
there are enough of them, and nothing otherwise. Where it says something, other places can have
other digits, and more digits can follow. -/
theorem read_characters (value : String) (vendor : UInt16) :
    (read value vendor = given ↔ HasDigit value vendor '1') ∧
    (read value vendor = notGiven ↔ HasDigit value vendor '0') ∧
    (read value vendor = unknown ↔
      ¬HasDigit value vendor '1' ∧ ¬HasDigit value vendor '0') ∧
    (read value vendor ≠ unknown →
      (∀ other, IsBitString other →
        other.toList[vendor.toNat - 1]? = value.toList[vendor.toNat - 1]? →
        read other vendor = read value vendor) ∧
      ∀ more, IsBitString more → read (value ++ more) vendor = read value vendor) := by
  have hgiven : read value vendor = given ↔ HasDigit value vendor '1' := by
    rw [read_eq_given_iff, hasDigit_iff]
  have hnotGiven : read value vendor = notGiven ↔ HasDigit value vendor '0' := by
    rw [read_eq_notGiven_iff, hasDigit_iff]
  refine ⟨hgiven, hnotGiven, ?_, ?_⟩
  · rw [← hgiven, ← hnotGiven]
    cases read value vendor <;> decide
  · intro hsays
    obtain ⟨digit, hdigit⟩ : ∃ digit, HasDigit value vendor digit := by
      cases hread : read value vendor with
      | given => exact ⟨'1', hgiven.1 hread⟩
      | notGiven => exact ⟨'0', hnotGiven.1 hread⟩
      | unknown => exact absurd hread hsays
    refine ⟨fun other hother hplace => read_eq_of_place hdigit.digits hother hplace, ?_⟩
    intro more hmore
    refine read_eq_of_place hdigit.digits (hdigit.digits.append hmore) ?_
    -- what follows comes after the place of the vendor
    have hlt : vendor.toNat - 1 < value.toList.length := by
      have hnumbered := hdigit.numbered
      have hreached := hdigit.reached
      rw [String.length_toList]
      omega
    rw [String.toList_append, List.getElem?_append_left hlt]

/-- The third vendor is granted consent, whatever is said of the first two and of those after it. -/
theorem read_characters_others :
    read "011" 3 = given ∧ read "011" 3 ≠ unknown ∧
      read "101" 3 = given ∧ read ("011" ++ "10") 3 = given := by
  obtain ⟨hgiven, -, -, hchanged⟩ := read_characters "011" 3
  have hdigits : IsBitString "011" := by simp [IsBitString]
  have hgranted : read "011" 3 = given := hgiven.2 ⟨by decide, hdigits, by decide, rfl⟩
  have hsays : read "011" 3 ≠ unknown := by rw [hgranted]; decide
  obtain ⟨hother, hmore⟩ := hchanged hsays
  exact ⟨hgranted, hsays, (hother "101" (by simp [IsBitString]) rfl).trans hgranted,
    (hmore "10" (by simp [IsBitString])).trans hgranted⟩

end VendorConsent

end ClientMetrics
