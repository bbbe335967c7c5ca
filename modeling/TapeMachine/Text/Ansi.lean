/-!
# Removing terminal codes

A terminal code is an escape character, `[`, any number of parameter characters, any number of
intermediate ones, and a final one. One pass from left to right removes every code it meets.
-/

namespace TapeMachine

namespace Ansi

def escape : Char := '\x1b'

structure Family where
  isParameter : Char → Bool
  isIntermediate : Char → Bool
  isFinal : Char → Bool

/-- Codes that set colours: digits and semicolons, and `m`. -/
def colours : Family where
  isParameter c := c.isDigit || c = ';'
  isIntermediate _ := false
  isFinal c := c = 'm'

/-- All codes of terminals. -/
def controls : Family where
  isParameter c := 0x30 ≤ c.toNat && c.toNat ≤ 0x3f
  isIntermediate c := 0x20 ≤ c.toNat && c.toNat ≤ 0x2f
  isFinal c := 0x40 ≤ c.toNat && c.toNat ≤ 0x7e

/-- What follows the code at the front of a text, if there is a code. -/
def afterCode? (f : Family) : List Char → Option (List Char)
  | e :: '[' :: rest =>
    if e = escape then
      match (rest.dropWhile f.isParameter).dropWhile f.isIntermediate with
      | c :: rest => if f.isFinal c then some rest else none
      | [] => none
    else none
  | _ => none

/-- A code is not empty. -/
theorem length_of_afterCode? {f : Family} {s rest : List Char}
    (h : afterCode? f s = some rest) : rest.length < s.length := by
  unfold afterCode? at h
  split at h
  · rename_i e tail
    split at h
    · split at h
      · rename_i c after heq
        have hle := ((List.dropWhile_sublist (l := tail.dropWhile f.isParameter)
          f.isIntermediate).trans (List.dropWhile_sublist f.isParameter)).length_le
        rw [heq] at hle
        split at h
        · cases h
          simp only [List.length_cons] at hle ⊢
          omega
        · cases h
      · cases h
    · cases h
  · cases h

/-- A text without the codes of a family. -/
def strip (f : Family) : List Char → List Char
  | [] => []
  | c :: cs =>
    match _h : afterCode? f (c :: cs) with
    | some rest => strip f rest
    | none => c :: strip f cs
termination_by s => s.length
decreasing_by
  · exact length_of_afterCode? _h
  · simp

def stripString (f : Family) (s : String) : String := String.ofList (strip f s.toList)

end Ansi

end TapeMachine
