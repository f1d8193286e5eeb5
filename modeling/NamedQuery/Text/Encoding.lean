/-!
# Texts as bytes

The UTF-8 form of texts, as lists of bytes.
-/

namespace NamedQuery.Text

/-- The bytes of a text. -/
def utf8 (s : String) : List UInt8 := s.toUTF8.data.toList

/-- The text with these bytes, if they are the bytes of a text. -/
def ofUtf8? (bytes : List UInt8) : Option String := String.fromUTF8? ⟨bytes.toArray⟩

theorem utf8_ofList (cs : List Char) :
    utf8 (String.ofList cs) = cs.flatMap String.utf8EncodeChar := by
  show (String.ofList cs).toByteArray.data.toList = _
  rw [String.toByteArray_ofList, List.utf8Encode, List.data_toByteArray]

theorem length_utf8 (s : String) : (utf8 s).length = s.utf8ByteSize := rfl

theorem ofUtf8?_utf8 (s : String) : ofUtf8? (utf8 s) = some s := by
  have h : (⟨(utf8 s).toArray⟩ : ByteArray) = s.toUTF8 := by simp [utf8]
  rw [ofUtf8?, h, String.fromUTF8?]
  simp [String.fromUTF8, s.isValidUTF8]

theorem utf8_injective {s s' : String} (h : utf8 s = utf8 s') : s = s' := by
  have htext := congrArg ofUtf8? h
  rw [ofUtf8?_utf8, ofUtf8?_utf8] at htext
  exact Option.some.inj htext

end NamedQuery.Text
