/-!
# Texts as bytes

Columns and stream limits count the bytes of the UTF-8 form, and files hold them. `utf8` gives that
form of a text and `utf8Size` its length; `length_utf8` ties the two together, and `ofUtf8?_utf8` says
that the form determines the text.
-/

namespace Wasmline.Text

/-- The UTF-8 form of a text. -/
def utf8 (s : List Char) : List UInt8 :=
  s.flatMap String.utf8EncodeChar

/-- The number of bytes in the UTF-8 form of a text. -/
def utf8Size (s : List Char) : Nat :=
  s.foldr (fun c size => c.utf8Size + size) 0

@[simp] theorem utf8_append (s t : List Char) : utf8 (s ++ t) = utf8 s ++ utf8 t := by
  simp [utf8]

@[simp] theorem utf8Size_append (s t : List Char) : utf8Size (s ++ t) = utf8Size s + utf8Size t := by
  induction s with
  | nil => simp [utf8Size]
  | cons c s ih =>
      simp only [utf8Size, List.cons_append, List.foldr_cons] at ih ⊢
      rw [ih, Nat.add_assoc]

/-- `utf8Size` counts the bytes that `utf8` writes. -/
theorem length_utf8 (s : List Char) : (utf8 s).length = utf8Size s := by
  induction s with
  | nil => rfl
  | cons c s ih =>
      simp only [utf8, utf8Size, List.flatMap_cons, List.length_append, List.foldr_cons] at ih ⊢
      rw [ih, String.length_utf8EncodeChar]

/-- The text that these bytes are the UTF-8 form of, if they are one. -/
def ofUtf8? (bytes : List UInt8) : Option String :=
  String.fromUTF8? (ByteArray.mk bytes.toArray)

/-- A text is read back from its UTF-8 form. -/
theorem ofUtf8?_utf8 (s : String) : ofUtf8? (utf8 s.toList) = some s := by
  have hform : ByteArray.mk (utf8 s.toList).toArray = s.toByteArray := by
    rw [← String.utf8Encode_toList]
    apply ByteArray.ext
    rw [List.utf8Encode, List.data_toByteArray]
    rfl
  rw [ofUtf8?, hform, String.fromUTF8?, dif_pos s.isValidUTF8]
  rfl

end Wasmline.Text
