/-!
# Reading UTF-8

`ofUtf8` gives the characters of a packed byte string. Where the bytes stop being UTF-8 the text
ends with the null character, which no JSON text admits.
-/

namespace TestChain.Text

/-- The characters from an index on, as far as the bytes are UTF-8. -/
def validFrom (b : ByteArray) (i : Nat) : List Char :=
  if i < b.size then
    match b.utf8DecodeChar? i with
    | some c => c :: validFrom b (i + c.utf8Size)
    | none => []
  else []
termination_by b.size - i
decreasing_by
  have := c.utf8Size_pos
  omega

/-- The characters of a packed byte string; a null character marks the place where it stops being
UTF-8. -/
def ofUtf8 (b : ByteArray) : List Char :=
  match String.fromUTF8? b with
  | some s => s.toList
  | none => validFrom b 0 ++ ['\x00']

end TestChain.Text
