/-!
Byte texts: lists of characters in which every character stands for one byte. Programs pass bytes to
each other that need not be text, and characters are easier to take apart.
-/

namespace ScriptFlow

/-- The bytes of a text, each as a character. -/
def bytesOf (text : String) : List Char :=
  text.toUTF8.toList.map fun byte => Char.ofNat byte.toNat

/-- Bytes in an array. -/
def packed (bytes : List Char) : ByteArray :=
  ⟨(bytes.map fun c => UInt8.ofNat c.toNat).toArray⟩

/-- The text that bytes form, if they form one. -/
def textOf? (bytes : List Char) : Option String := String.fromUTF8? (packed bytes)

/-- The text that bytes form; bytes that form none are taken one by one. -/
def textOf (bytes : List Char) : String := (textOf? bytes).getD (String.ofList bytes)

end ScriptFlow
