/-!
# Text as bytes

`encode` writes characters as UTF-8 and `decode?` reads them back; a byte string that is not
UTF-8 has no reading.
-/

namespace Switchboard.Text.Utf8

def encode (cs : List Char) : List UInt8 := cs.flatMap String.utf8EncodeChar

def decode? (bytes : List UInt8) : Option (List Char) :=
  bytes.toByteArray.utf8Decode?.map Array.toList

def bytesOf (s : String) : List UInt8 := encode s.toList

def text? (bytes : List UInt8) : Option String := (decode? bytes).map String.ofList

theorem decode?_encode (cs : List Char) : decode? (encode cs) = some cs := by
  have h : (encode cs).toByteArray = cs.utf8Encode := rfl
  simp [decode?, h]

theorem decode?_eq_some_iff {bytes : List UInt8} {cs : List Char} :
    decode? bytes = some cs ↔ bytes = encode cs := by
  constructor
  · intro h
    obtain ⟨chars, hchars, -⟩ := Option.map_eq_some_iff.1 h
    obtain ⟨cs', hvalid⟩ := ByteArray.isSome_utf8Decode?_iff.1 (Option.isSome_of_mem hchars)
    have hbytes : bytes = encode cs' := by
      rw [← List.toList_data_toByteArray (l := bytes), hvalid]
      exact List.toList_data_toByteArray
    rw [hbytes, decode?_encode] at h
    rw [hbytes, Option.some.inj h]
  · rintro rfl
    exact decode?_encode cs

@[simp] theorem encode_append (a b : List Char) : encode (a ++ b) = encode a ++ encode b := by
  simp [encode]

end Switchboard.Text.Utf8
