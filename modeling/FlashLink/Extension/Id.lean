import FlashLink.Fault

/-!
Extension identifiers. An identifier is the name of one directory directly under the base directory.
-/

namespace FlashLink

/-- Not empty, not too long in UTF-8, not a relative directory, and free of separators and zeros. -/
def isPlainId (maxLen : Nat) (id : String) : Bool :=
  id ≠ "" && id.utf8ByteSize ≤ maxLen && id ≠ "." && id ≠ ".." &&
    id.toList.all fun c => c ≠ '/' && c ≠ '\\' && c ≠ '\x00'

def checkId (maxLen : Nat) (id : String) : Except Error Unit :=
  if isPlainId maxLen id then .ok () else .error (.invalidId id)

end FlashLink
