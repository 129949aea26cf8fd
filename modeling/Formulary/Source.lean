import Formulary.CompileError

/-!
# Sources

A formula comes as text or as bytes. Bytes are taken as seven-bit characters, and the first byte
beyond that range is an error at its place.
-/

namespace Formulary

/-- What a host hands over as a source. -/
inductive Source
  | text (content : String)
  | bytes (content : List UInt8)
  /-- Something that is neither, by the name of its type. -/
  | other (typeName : String)

/-- Why a source cannot be read. -/
inductive SourceError
  | notText (typeName : String)
  | compile (error : CompileError)

/-- What is said about a source that cannot be read. -/
def SourceError.message : SourceError → String
  | notText typeName => s!"formula source must be str or a text stream, got {typeName}"
  | compile error => error.describe

/-- The characters of seven-bit bytes, of which the first has the given offset. -/
def decodeBytes (offset : Nat) : List UInt8 → Except CompileError (List Char)
  | [] => .ok []
  | byte :: rest =>
    if byte.toNat < 128 then
      (decodeBytes (offset + 1) rest).map fun characters => Char.ofNat byte.toNat :: characters
    else .error ⟨.nonAsciiByte offset byte, offset, offset + 1⟩

/-- The text of a source. -/
def Source.read : Source → Except SourceError String
  | .text content => .ok content
  | .bytes content =>
    match decodeBytes 0 content with
    | .ok characters => .ok (String.ofList characters)
    | .error error => .error (.compile error)
  | .other typeName => .error (.notText typeName)

end Formulary
