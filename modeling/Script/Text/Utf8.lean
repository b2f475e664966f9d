/-!
# Reading files

The contents of a file are UTF-8. `decode` gives the text or the first place that no character
fits, with the number of bytes that could have started one. `unifyLines` turns the three line
ends into one.
-/

namespace Script.Text

/-- Why a byte sequence is not UTF-8. -/
inductive DecodeCause where
  | badStart
  | badContinuation
  | endOfData
deriving DecidableEq, Repr

/-- The first bytes of a file that are not UTF-8: where they start and how many they are. -/
structure DecodeFault where
  cause : DecodeCause
  offset : Nat
  width : Nat
  first : UInt8
deriving DecidableEq, Repr

/-- The number of bytes of a character, with the range of the second one, by the first byte. -/
def sequenceShape? (first : Nat) : Option (Nat × Nat × Nat) :=
  if first < 0x80 then some (1, 0x80, 0xBF)
  else if first < 0xC2 then none
  else if first < 0xE0 then some (2, 0x80, 0xBF)
  else if first = 0xE0 then some (3, 0xA0, 0xBF)
  else if first = 0xED then some (3, 0x80, 0x9F)
  else if first < 0xF0 then some (3, 0x80, 0xBF)
  else if first = 0xF0 then some (4, 0x90, 0xBF)
  else if first < 0xF4 then some (4, 0x80, 0xBF)
  else if first = 0xF4 then some (4, 0x80, 0x8F)
  else none

/-- Reads `missing` continuation bytes behind `seen` bytes of a character. Gives the code point
and what follows it, or the cause and the number of bytes that fitted. -/
def continuation (code seen low high : Nat) :
    (missing : Nat) → List UInt8 → Except (DecodeCause × Nat) (Nat × List UInt8)
  | 0, bytes => .ok (code, bytes)
  | _ + 1, [] => .error (.endOfData, seen)
  | missing + 1, byte :: bytes =>
    if low ≤ byte.toNat && byte.toNat ≤ high then
      continuation (code * 64 + byte.toNat % 64) (seen + 1) 0x80 0xBF missing bytes
    else .error (.badContinuation, seen)

/-- The bits that the first byte of a character contributes. -/
def leadingBits (width first : Nat) : Nat :=
  if width = 1 then first else first % (1 <<< (7 - width))

/-- Reads one character whose first byte is given. -/
def decodeChar (first : UInt8) (bytes : List UInt8) :
    Except (DecodeCause × Nat) (Char × List UInt8) :=
  match sequenceShape? first.toNat with
  | none => .error (.badStart, 1)
  | some (width, low, high) =>
    match continuation (leadingBits width first.toNat) 1 low high (width - 1) bytes with
    | .ok (code, rest) => .ok (Char.ofNat code, rest)
    | .error fault => .error fault

theorem continuation_length {code seen low high missing : Nat} {bytes rest : List UInt8}
    {point : Nat} (read : continuation code seen low high missing bytes = .ok (point, rest)) :
    rest.length ≤ bytes.length := by
  induction missing generalizing code seen low high bytes with
  | zero =>
    simp only [continuation, Except.ok.injEq, Prod.mk.injEq] at read
    simp [read.2]
  | succ missing ih =>
    cases bytes with
    | nil => simp [continuation] at read
    | cons byte bytes =>
      simp only [continuation] at read
      split at read
      · have := ih read
        simp only [List.length_cons]
        omega
      · simp at read

theorem decodeChar_length {first : UInt8} {bytes rest : List UInt8} {c : Char}
    (read : decodeChar first bytes = .ok (c, rest)) : rest.length ≤ bytes.length := by
  unfold decodeChar at read
  split at read
  · simp at read
  · split at read
    · rename_i found
      simp only [Except.ok.injEq, Prod.mk.injEq] at read
      exact read.2 ▸ continuation_length found
    · simp at read

/-- Reads the characters of a byte sequence that starts at an offset. -/
def decodeFrom (offset : Nat) (bytes : List UInt8) : Except DecodeFault (List Char) :=
  match bytes with
  | [] => .ok []
  | first :: rest =>
    match _read : decodeChar first rest with
    | .error (cause, width) => .error ⟨cause, offset, width, first⟩
    | .ok (c, after) =>
      match decodeFrom (offset + 1 + (rest.length - after.length)) after with
      | .ok text => .ok (c :: text)
      | .error fault => .error fault
termination_by bytes.length
decreasing_by
  have := decodeChar_length _read
  simp only [List.length_cons]
  omega

/-- Reads a byte sequence as UTF-8. -/
def decode (bytes : ByteArray) : Except DecodeFault String :=
  (decodeFrom 0 bytes.toList).map String.ofList

/-- One line end for the three in use: a carriage return, with or without a newline behind it,
becomes a newline. -/
def unifyLines : List Char → List Char
  | '\r' :: '\n' :: rest => '\n' :: unifyLines rest
  | '\r' :: rest => '\n' :: unifyLines rest
  | c :: rest => c :: unifyLines rest
  | [] => []

end Script.Text
