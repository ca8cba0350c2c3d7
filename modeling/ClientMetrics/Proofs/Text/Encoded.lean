/-!
# The bytes of encoded texts

The bytes of a text are those of its characters, one after the other. So what holds of every byte
can be said of the characters, and where each character takes one byte, both stand at the same
places.

* `toList_toUTF8` — the bytes of a text, character by character;
* `flatMap_encodeChar_of_ascii` — characters that take one byte each.
-/

namespace ClientMetrics

namespace Text

/-- The list of the bytes of an array is built from the back. -/
private theorem toList_loop (bytes : ByteArray) (i : Nat) (found : List UInt8) :
    ByteArray.toList.loop bytes i found = found.reverse ++ bytes.data.toList.drop i := by
  -- the loop goes on with the byte at its place, or has reached the end
  fun_induction ByteArray.toList.loop bytes i found with
  | case1 i found h ih =>
    have hlt : i < bytes.data.toList.length := h
    have hbyte : bytes.get! i = bytes.data.toList[i] := getElem!_pos bytes.data i h
    rw [ih, List.reverse_cons, List.append_assoc, List.drop_eq_getElem_cons hlt, hbyte]
    rfl
  | case2 i found h =>
    have hle : bytes.data.toList.length ≤ i := Nat.le_of_not_lt h
    rw [List.drop_eq_nil_iff.2 hle, List.append_nil]

/-- The bytes of a text are those of its characters. -/
theorem toList_toUTF8 (s : String) :
    s.toUTF8.toList = s.toList.flatMap String.utf8EncodeChar := by
  have hbytes : s.toUTF8 = (s.toList.flatMap String.utf8EncodeChar).toByteArray := by
    show s.toByteArray = s.toList.utf8Encode
    exact String.utf8Encode_toList.symm
  have hloop := toList_loop s.toUTF8 0 []
  rw [List.reverse_nil, List.nil_append, List.drop_zero] at hloop
  rw [ByteArray.toList, hloop, hbytes, List.toList_data_toByteArray]

/-- A small character is its own byte. -/
theorem encodeChar_of_ascii {c : Char} (h : c.toNat ≤ 127) :
    String.utf8EncodeChar c = [UInt8.ofNat c.toNat] := by
  have hval : c.val.toNat ≤ 127 := h
  rw [String.utf8EncodeChar]
  exact if_pos hval

/-- Any other character starts with a greater byte than those. -/
theorem exists_encodeChar {c : Char} (h : 127 < c.toNat) :
    ∃ b bs, String.utf8EncodeChar c = b :: bs ∧ 128 ≤ b.toNat := by
  have hval : ¬c.val.toNat ≤ 127 := Nat.not_le.2 h
  unfold String.utf8EncodeChar
  simp only [if_neg hval]
  -- two, three or four bytes, of which the first is never below 128
  split
  · exact ⟨_, _, rfl, by simp; omega⟩
  · split
    · exact ⟨_, _, rfl, by simp; omega⟩
    · exact ⟨_, _, rfl, by simp; omega⟩

/-- A text of such characters is encoded byte by byte. -/
theorem flatMap_encodeChar_of_ascii {cs : List Char} (h : ∀ c ∈ cs, c.toNat ≤ 127) :
    cs.flatMap String.utf8EncodeChar = cs.map fun c => UInt8.ofNat c.toNat := by
  induction cs with
  | nil => rfl
  | cons c cs ih =>
    rw [List.flatMap_cons, encodeChar_of_ascii (h c List.mem_cons_self),
      ih fun d hd => h d (List.mem_cons_of_mem c hd)]
    rfl

end Text

end ClientMetrics
