import TapeMachine.Content
import TapeMachine.Failure

/-!
# Inputs

The input of a program may be absent, and otherwise is bytes or a text. Not every code point of
such a text is a character: bytes that are not UTF-8 reach a program as surrogates, and these have
no encoding. An input that holds one is refused, with the first of them and its neighbours.
-/

namespace TapeMachine

structure Surrogate where
  value : Nat
  le_value : 0xd800 ≤ value
  value_le : value ≤ 0xdfff
deriving DecidableEq

inductive CodePoint where
  | character (c : Char)
  | surrogate (s : Surrogate)
deriving DecidableEq

def CodePoint.isSurrogate : CodePoint → Bool
  | .character _ => false
  | .surrogate _ => true

inductive Input where
  | text (points : List CodePoint)
  | bytes (data : List UInt8)
deriving DecidableEq

def Input.ofChars (chars : List Char) : Input := .text (chars.map .character)

/-- The bytes of code points of which the first stands at position `n`. Surrogates that stand
together are refused together. -/
def encodeFrom : Nat → List CodePoint → Except Failure (List UInt8)
  | _, [] => .ok []
  | n, .character c :: rest => (encodeFrom (n + 1) rest).map (String.utf8EncodeChar c ++ ·)
  | n, .surrogate s :: rest =>
    let more := (rest.takeWhile CodePoint.isSurrogate).length
    .error (Failure.unencodable s.value n (n + more))

/-- The bytes that a program gets to read. -/
def inputBytes : Option Input → Except Failure (List UInt8)
  | none => .ok []
  | some (.bytes data) => .ok data
  | some (.text points) => encodeFrom 0 points

/-- No surrogate is in the input. -/
def IsEncodable : Option Input → Prop
  | some (.text points) => ∀ s, .surrogate s ∉ points
  | _ => True

theorem encodeFrom_characters (n : Nat) (chars : List Char) :
    encodeFrom n (chars.map .character) = .ok (encodeUtf8 chars) := by
  induction chars generalizing n with
  | nil => rfl
  | cons c chars ih =>
    rw [List.map_cons, encodeFrom, ih]
    rfl

theorem encodeFrom_surrogate (n : Nat) (chars : List Char) (s : Surrogate)
    (rest : List CodePoint) :
    encodeFrom n (chars.map .character ++ .surrogate s :: rest) =
      .error (Failure.unencodable s.value (n + chars.length)
        (n + chars.length + (rest.takeWhile CodePoint.isSurrogate).length)) := by
  induction chars generalizing n with
  | nil => rfl
  | cons c chars ih =>
    have hplace : n + 1 + chars.length = n + (c :: chars).length := by
      rw [List.length_cons]
      omega
    rw [List.map_cons, List.cons_append, encodeFrom, ih, hplace]
    rfl

/-- A text consists of characters up to its end or up to the first surrogate. -/
theorem exists_characters (points : List CodePoint) :
    (∃ chars : List Char, points = chars.map .character) ∨
      ∃ (chars : List Char) (s : Surrogate) (rest : List CodePoint),
        points = chars.map .character ++ .surrogate s :: rest := by
  induction points with
  | nil => exact .inl ⟨[], rfl⟩
  | cons point points ih =>
    cases point with
    | surrogate s => exact .inr ⟨[], s, points, rfl⟩
    | character c =>
      rcases ih with ⟨chars, rfl⟩ | ⟨chars, s, rest, rfl⟩
      · exact .inl ⟨c :: chars, rfl⟩
      · exact .inr ⟨c :: chars, s, rest, rfl⟩

theorem exists_bytes_of_isEncodable {input : Option Input} (h : IsEncodable input) :
    ∃ data, inputBytes input = .ok data := by
  match input with
  | none => exact ⟨[], rfl⟩
  | some (.bytes data) => exact ⟨data, rfl⟩
  | some (.text points) =>
    rcases exists_characters points with ⟨chars, rfl⟩ | ⟨chars, s, rest, rfl⟩
    · exact ⟨_, encodeFrom_characters 0 chars⟩
    · exact (h s (by simp)).elim

theorem exists_refusal_of_not_isEncodable {input : Option Input} (h : ¬IsEncodable input) :
    ∃ (s : Surrogate) (first last : Nat),
      inputBytes input = .error (Failure.unencodable s.value first last) := by
  match input with
  | none => exact (h trivial).elim
  | some (.bytes data) => exact (h trivial).elim
  | some (.text points) =>
    rcases exists_characters points with ⟨chars, rfl⟩ | ⟨chars, s, rest, rfl⟩
    · exact (h fun s hs => by simp at hs).elim
    · exact ⟨s, _, _, encodeFrom_surrogate 0 chars s rest⟩

end TapeMachine
