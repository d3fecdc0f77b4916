import Overlay.Failure
import Overlay.Text.Utf8

/-!
# Files

What reading a path gives: bytes, or the reason why there are none. Where the bytes come from
is left open: `Files.Tree` follows paths through directories.
-/

namespace Overlay

/-- Why a file gives no text. -/
inductive FileError where
  | notFound
  | isDirectory
  | notDirectory
  | nameTooLong
  /-- The path holds a null character. -/
  | nullCharacter
  | notUtf8
  /-- Any other reason. -/
  | other (error : SystemError)
deriving DecidableEq, Repr

/-- The kind of the failure. -/
def FileError.failure : FileError → Failure
  | .notFound => .notFound
  | .isDirectory => .isADirectory
  | .notDirectory => .notADirectory
  | .nameTooLong => .invalidFilename
  | .nullCharacter => .invalidInput
  | .notUtf8 => .invalidData
  | .other error => error.kind

/-- The wording of an error. -/
def FileError.message : FileError → String
  | .notFound => "No such file or directory (os error 2)"
  | .isDirectory => "Is a directory (os error 21)"
  | .notDirectory => "Not a directory (os error 20)"
  | .nameTooLong => "File name too long (os error 36)"
  | .nullCharacter => "file name contained an unexpected NUL byte"
  | .notUtf8 => "stream did not contain valid UTF-8"
  | .other error => error.text

/-- What reading each path gives. -/
structure Files where
  bytes : String → Except FileError (List UInt8)

namespace Files

/-- No file exists. -/
def none : Files := ⟨fun _ ↦ .error .notFound⟩

/-- The text of a file. -/
def text (files : Files) (path : String) : Except FileError (List Char) :=
  match files.bytes path with
  | .error e => .error e
  | .ok bytes =>
    match Text.Utf8.decode bytes with
    | .error _ => .error .notUtf8
    | .ok cs => .ok cs

end Files

end Overlay
