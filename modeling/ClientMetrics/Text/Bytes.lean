/-!
# The length of encoded texts

A character takes one to four bytes, and a text takes as many as its characters together. The
count is that of the encoded string (`byteCount_toList`), and counts of parts add up
(`byteCount_append`).
-/

namespace ClientMetrics

namespace Text

/-- The number of bytes of an encoded text. -/
def byteCount : List Char → Nat
  | [] => 0
  | c :: cs => c.utf8Size + byteCount cs

/-- The bytes of two texts follow each other. -/
@[simp] theorem byteCount_append (cs ds : List Char) :
    byteCount (cs ++ ds) = byteCount cs + byteCount ds := by
  induction cs with
  | nil => simp [byteCount]
  | cons c cs ih => simp [byteCount, ih, Nat.add_assoc]

/-- The bytes are counted as the length of an encoded text is. -/
theorem byteCount_eq_utf8ByteSize (cs : List Char) :
    byteCount cs = (String.ofList cs).utf8ByteSize := by
  induction cs with
  | nil => rfl
  | cons c cs ih =>
    rw [byteCount, ih, String.ofList_cons, String.utf8ByteSize_append,
      String.utf8ByteSize_singleton]

@[simp] theorem byteCount_toList (s : String) : byteCount s.toList = s.utf8ByteSize := by
  rw [byteCount_eq_utf8ByteSize, String.ofList_toList]

end Text

end ClientMetrics
