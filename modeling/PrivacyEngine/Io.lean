import PrivacyEngine.Wire.Text

/-!
# Input and output errors

The kinds of `std::io::Error` that the program tells apart; every other kind is `other`.
-/

namespace PrivacyEngine

open Wire

/-- Kinds of I/O errors the engine tells apart. -/
inductive IoErrorKind where
  | unexpectedEof
  | connectionReset
  | brokenPipe
  | connectionAborted
  | timedOut
  | invalidInput
  | invalidData
  | notFound
  | alreadyExists
  | permissionDenied
  | other
  deriving DecidableEq, Repr

structure IoError where
  kind : IoErrorKind
  message : Str
  deriving DecidableEq

/-- An error of kind `InvalidInput`. -/
def invalidInput (message : Str) : IoError := ⟨.invalidInput, message⟩

/-- An error of kind `InvalidData`. -/
def invalidData (message : Str) : IoError := ⟨.invalidData, message⟩

/-- `fs::read_to_string` behind a successful read: the content has to be UTF-8. -/
def readToString (content : Bytes) : Except IoError Str :=
  if Utf8.valid content then .ok content
  else .error (invalidData (ascii "stream did not contain valid UTF-8"))

section Except

variable {ε ε' α β : Type}

/-- A sequence of two steps succeeds when both do. -/
theorem bind_eq_ok_iff {x : Except ε α} {f : α → Except ε β} {b : β} :
    (x >>= f) = .ok b ↔ ∃ a, x = .ok a ∧ f a = .ok b := by
  cases x with
  | error error => simp [bind, Except.bind]
  | ok a => simp [bind, Except.bind]

theorem mapError_eq_ok_iff {x : Except ε α} {f : ε → ε'} {a : α} :
    x.mapError f = .ok a ↔ x = .ok a := by
  cases x with
  | error error => simp [Except.mapError]
  | ok a => simp [Except.mapError]

theorem pure_eq_ok_iff {a b : α} : (pure a : Except ε α) = .ok b ↔ a = b := by
  simp [pure, Except.pure]

end Except

end PrivacyEngine
