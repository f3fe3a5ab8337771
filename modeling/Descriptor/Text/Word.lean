import Descriptor.Text.WordRanges

/-!
# Word characters

A word is a run of letters, numbers and underscores of any script.  Whether an operator phrase
stands alone, and not inside a longer name, is decided by the word characters beside it.
-/

namespace Descriptor.Text

/-- Letters and numbers of all scripts, and the underscore. -/
def isWord (c : Char) : Bool :=
  if c.toNat < 0x80 then c.isAlphanum || c == '_'
  else wordRanges.any fun (first, last) => first ≤ c.toNat && c.toNat ≤ last

/-- Below `U+0080` the table is not consulted. -/
theorem isWord_of_ascii {c : Char} (ascii : c.toNat < 0x80) :
    isWord c = (c.isAlphanum || c == '_') := by
  simp [isWord, ascii]

end Descriptor.Text
