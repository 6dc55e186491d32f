/-!
# Text as bytes

Messages arrive as bytes and text is UTF-8. `String.bytes` and `textOfBytes?` go back and
forth; the second is defined on well-formed UTF-8 only.
-/

namespace MiningPipelines

abbrev Bytes := List UInt8

/-- The UTF-8 bytes of a text. -/
def bytesOfText (s : String) : Bytes := s.toByteArray.data.toList

/-- The text with the given UTF-8 bytes. -/
def textOfBytes? (bs : Bytes) : Option String := String.fromUTF8? ⟨bs.toArray⟩

theorem textOfBytes?_bytesOfText (s : String) : textOfBytes? (bytesOfText s) = some s := by
  have h : (⟨(bytesOfText s).toArray⟩ : ByteArray) = s.toByteArray := by
    simp [bytesOfText]
  simp [textOfBytes?, h, String.fromUTF8?, s.isValidUTF8, String.fromUTF8]

end MiningPipelines
