import Mathlib.Data.List.Basic
import Mathlib.Data.UInt

/-!
# UTF-8 coercion

Byte strings, their well-formed UTF-8 sequences, and the usual repair of a byte
string that is not valid UTF-8: every byte that does not start a well-formed
sequence is replaced by the encoding of U+FFFD.

Main results:

- Theorem {lit}`coerce_eq_self_iff`: exactly the valid strings survive unchanged.
- Theorem {lit}`valid_of_forall_lt`: ASCII strings are valid.
-/

namespace Utf8

/-- Continuation bytes. -/
def isContinuation (b : UInt8) : Bool :=
  0x80 ≤ b && b ≤ 0xBF

/-- The bytes that may follow a lead byte of a sequence of three or four bytes. -/
def isSecond (lead b : UInt8) : Bool :=
  if lead = 0xE0 then 0xA0 ≤ b && b ≤ 0xBF
  else if lead = 0xED then 0x80 ≤ b && b ≤ 0x9F
  else if lead = 0xF0 then 0x90 ≤ b && b ≤ 0xBF
  else if lead = 0xF4 then 0x80 ≤ b && b ≤ 0x8F
  else isContinuation b

/-- The number of bytes of the well-formed sequence at the head of a string, or 0
when there is none. -/
def sequenceLength : List UInt8 → ℕ
  | [] => 0
  | lead :: rest =>
      if lead < 0x80 then 1
      else if lead < 0xC2 then 0
      else if lead < 0xE0 then
        match rest with
        | b₁ :: _ => if isContinuation b₁ then 2 else 0
        | _ => 0
      else if lead < 0xF0 then
        match rest with
        | b₁ :: b₂ :: _ => if isSecond lead b₁ && isContinuation b₂ then 3 else 0
        | _ => 0
      else if lead < 0xF5 then
        match rest with
        | b₁ :: b₂ :: b₃ :: _ =>
            if isSecond lead b₁ && isContinuation b₂ && isContinuation b₃ then 4 else 0
        | _ => 0
      else 0

/-- The encoding of U+FFFD. -/
def replacement : List UInt8 := [0xEF, 0xBF, 0xBD]

/-- Copy a string with repair; the counter is what is left of the sequence being
copied. -/
def coerceFrom : ℕ → List UInt8 → List UInt8
  | _, [] => []
  | k + 1, b :: rest => b :: coerceFrom k rest
  | 0, b :: rest =>
      match sequenceLength (b :: rest) with
      | 0 => replacement ++ coerceFrom 0 rest
      | n + 1 => b :: coerceFrom n rest

/-- Replace every byte outside well-formed sequences by U+FFFD. -/
def coerce (s : List UInt8) : List UInt8 :=
  coerceFrom 0 s

/-- All bytes belong to well-formed sequences; the counter is what is left of the
current one. -/
def validFrom : ℕ → List UInt8 → Bool
  | _, [] => true
  | k + 1, _ :: rest => validFrom k rest
  | 0, b :: rest =>
      match sequenceLength (b :: rest) with
      | 0 => false
      | n + 1 => validFrom n rest

/-- The string is valid UTF-8. -/
def Valid (s : List UInt8) : Prop :=
  validFrom 0 s = true

instance (s : List UInt8) : Decidable (Valid s) :=
  inferInstanceAs (Decidable (validFrom 0 s = true))

/-- Repair never shortens a string. -/
theorem length_le_length_coerceFrom (k : ℕ) (s : List UInt8) :
    s.length ≤ (coerceFrom k s).length := by
  induction s generalizing k with
  | nil => simp [coerceFrom]
  | cons b rest ih =>
      cases k with
      | succ k =>
          have hrest := ih k
          simp only [coerceFrom, List.length_cons]
          omega
      | zero =>
          unfold coerceFrom
          split
          · have hrest := ih 0
            simp only [replacement, List.length_append, List.length_cons, List.length_nil]
            omega
          · rename_i n _
            have hrest := ih n
            simp only [List.length_cons]
            omega

theorem coerceFrom_eq_self_iff (k : ℕ) (s : List UInt8) :
    coerceFrom k s = s ↔ validFrom k s = true := by
  induction s generalizing k with
  | nil => simp [coerceFrom, validFrom]
  | cons b rest ih =>
      cases k with
      | succ k => simp [coerceFrom, validFrom, ih]
      | zero =>
          unfold coerceFrom validFrom
          split
          · -- a replaced byte makes the string longer
            have hlonger : replacement ++ coerceFrom 0 rest ≠ b :: rest := by
              intro heq
              have hlength := congrArg List.length heq
              have hrest := length_le_length_coerceFrom 0 rest
              simp only [replacement, List.length_append, List.length_cons,
                List.length_nil] at hlength
              omega
            simp [hlonger]
          · simp [ih]

/-- Repair leaves exactly the valid strings unchanged. -/
theorem coerce_eq_self_iff (s : List UInt8) : coerce s = s ↔ Valid s :=
  coerceFrom_eq_self_iff 0 s

/-- ASCII strings are valid. -/
theorem valid_of_forall_lt {s : List UInt8} (h : ∀ b ∈ s, b < 0x80) : Valid s := by
  unfold Valid
  induction s with
  | nil => rfl
  | cons b rest ih =>
      have hb : b < 0x80 := h b List.mem_cons_self
      have hone : sequenceLength (b :: rest) = 1 := by
        simp [sequenceLength, hb]
      unfold validFrom
      rw [hone]
      exact ih fun b' hb' => h b' (List.mem_cons_of_mem b hb')

end Utf8
