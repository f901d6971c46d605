import Mathlib

/-!
# Base64 without padding

The alphabet is the one for URLs.  Three bytes make four characters, a rest of one or two bytes
makes two or three.  Reading ignores line ends and the unused bits of the last character.
-/

namespace TelemtPanel.Library.Base64

/-- The character of six bits. -/
def digit (value : ℕ) : Char :=
  if value < 26 then Char.ofNat (65 + value)
  else if value < 52 then Char.ofNat (97 + (value - 26))
  else if value < 62 then Char.ofNat (48 + (value - 52))
  else if value = 62 then '-' else '_'

/-- The six bits of a character. -/
def sextet (c : Char) : Option ℕ :=
  if 'A' ≤ c ∧ c ≤ 'Z' then some (c.toNat - 65)
  else if 'a' ≤ c ∧ c ≤ 'z' then some (c.toNat - 97 + 26)
  else if '0' ≤ c ∧ c ≤ '9' then some (c.toNat - 48 + 52)
  else if c = '-' then some 62
  else if c = '_' then some 63
  else none

def encode : List UInt8 → List Char
  | a :: b :: c :: rest =>
      let bits := 65536 * a.toNat + 256 * b.toNat + c.toNat
      digit (bits / 262144) :: digit (bits / 4096 % 64) :: digit (bits / 64 % 64) ::
        digit (bits % 64) :: encode rest
  | [a, b] =>
      let bits := 256 * a.toNat + b.toNat
      [digit (bits / 1024), digit (bits / 16 % 64), digit (bits % 16 * 4)]
  | [a] => [digit (a.toNat / 4), digit (a.toNat % 4 * 16)]
  | [] => []

/-- The bytes of a list of sextets.  A single one at the end is an error. -/
def bytes : List ℕ → Option (List UInt8)
  | w :: x :: y :: z :: rest =>
      let bits := 262144 * w + 4096 * x + 64 * y + z
      (bytes rest).map ([UInt8.ofNat (bits / 65536), UInt8.ofNat (bits / 256),
        UInt8.ofNat bits] ++ ·)
  | [w, x, y] =>
      let bits := 4096 * w + 64 * x + y
      some [UInt8.ofNat (bits / 1024), UInt8.ofNat (bits / 4)]
  | [w, x] => some [UInt8.ofNat ((64 * w + x) / 16)]
  | [_] => none
  | [] => some []

def decode (text : List Char) : Option (List UInt8) :=
  ((text.filter fun c => c ≠ '\r' ∧ c ≠ '\n').mapM sextet).bind bytes

theorem sextet_digit {value : ℕ} (proper : value < 64) : sextet (digit value) = some value := by
  interval_cases value <;> rfl

theorem digit_plain {value : ℕ} (proper : value < 64) :
    digit value ≠ '\r' ∧ digit value ≠ '\n' := by
  interval_cases value <;> decide

/-- The sextets of a list of bytes. -/
def sextets : List UInt8 → List ℕ
  | a :: b :: c :: rest =>
      let bits := 65536 * a.toNat + 256 * b.toNat + c.toNat
      bits / 262144 :: bits / 4096 % 64 :: bits / 64 % 64 :: bits % 64 :: sextets rest
  | [a, b] =>
      let bits := 256 * a.toNat + b.toNat
      [bits / 1024, bits / 16 % 64, bits % 16 * 4]
  | [a] => [a.toNat / 4, a.toNat % 4 * 16]
  | [] => []

theorem encode_eq (data : List UInt8) : encode data = (sextets data).map digit := by
  fun_induction encode data with
  | case1 a b c rest bits ih => simp [sextets, ih, bits]
  | case2 a b bits => rfl
  | case3 a => rfl
  | case4 => rfl

theorem lt_of_mem_sextets {data : List UInt8} {value : ℕ} (mem : value ∈ sextets data) :
    value < 64 := by
  fun_induction sextets data with
  | case1 a b c rest bits ih =>
      have small := a.toNat_lt
      have bound : bits < 16777216 := by
        have := b.toNat_lt
        have := c.toNat_lt
        omega
      simp only [List.mem_cons] at mem
      rcases mem with rfl | rfl | rfl | rfl | later
      · omega
      · omega
      · omega
      · omega
      · exact ih later
  | case2 a b bits =>
      have bound : bits < 65536 := by
        have := a.toNat_lt
        have := b.toNat_lt
        omega
      simp only [List.mem_cons, List.not_mem_nil, or_false] at mem
      omega
  | case3 a =>
      have := a.toNat_lt
      simp only [List.mem_cons, List.not_mem_nil, or_false] at mem
      omega
  | case4 => simp at mem

theorem bytes_sextets (data : List UInt8) : bytes (sextets data) = some data := by
  fun_induction sextets data with
  | case1 a b c rest bits ih =>
      have := a.toNat_lt
      have := b.toNat_lt
      have := c.toNat_lt
      have whole : 262144 * (bits / 262144) + 4096 * (bits / 4096 % 64) +
          64 * (bits / 64 % 64) + bits % 64 = bits := by omega
      simp only [bytes, whole, ih, Option.map_some]
      have first : UInt8.ofNat (bits / 65536) = a := by
        apply UInt8.toNat_inj.mp
        rw [UInt8.toNat_ofNat']
        omega
      have second : UInt8.ofNat (bits / 256) = b := by
        apply UInt8.toNat_inj.mp
        rw [UInt8.toNat_ofNat']
        omega
      have third : UInt8.ofNat bits = c := by
        apply UInt8.toNat_inj.mp
        rw [UInt8.toNat_ofNat']
        omega
      rw [first, second, third]
      rfl
  | case2 a b bits =>
      have := a.toNat_lt
      have := b.toNat_lt
      have whole : 4096 * (bits / 1024) + 64 * (bits / 16 % 64) + bits % 16 * 4 = 4 * bits := by
        omega
      simp only [bytes, whole]
      have first : UInt8.ofNat (4 * bits / 1024) = a := by
        apply UInt8.toNat_inj.mp
        rw [UInt8.toNat_ofNat']
        omega
      have second : UInt8.ofNat (4 * bits / 4) = b := by
        apply UInt8.toNat_inj.mp
        rw [UInt8.toNat_ofNat']
        omega
      rw [first, second]
  | case3 a =>
      have := a.toNat_lt
      have whole : (64 * (a.toNat / 4) + a.toNat % 4 * 16) / 16 = a.toNat := by omega
      simp only [bytes, whole, UInt8.ofNat_toNat]
  | case4 => rfl

/-- What was written is read again. -/
theorem decode_encode (data : List UInt8) : decode (encode data) = some data := by
  have kept : (encode data).filter (fun c => c ≠ '\r' ∧ c ≠ '\n') = encode data := by
    apply List.filter_eq_self.mpr
    intro c mem
    rw [encode_eq] at mem
    rcases List.mem_map.mp mem with ⟨value, there, rfl⟩
    exact decide_eq_true (digit_plain (lt_of_mem_sextets there))
  have read : ∀ values : List ℕ, (∀ value ∈ values, value < 64) →
      (values.map digit).mapM sextet = some values := by
    intro values
    induction values with
    | nil => exact fun _ => rfl
    | cons value values ih =>
        intro small
        rw [List.map_cons, List.mapM_cons, sextet_digit (small value List.mem_cons_self),
          ih fun other mem => small other (List.mem_cons_of_mem _ mem)]
        rfl
  rw [decode, kept, encode_eq, read _ fun value => lt_of_mem_sextets, Option.bind_some,
    bytes_sextets]

theorem length_encode (data : List UInt8) :
    (encode data).length = (8 * data.length + 5) / 6 := by
  fun_induction encode data with
  | case1 a b c rest bits ih =>
      simp only [List.length_cons, ih]
      omega
  | case2 a b bits => simp
  | case3 a => simp
  | case4 => rfl

example : String.ofList (encode [0xfb, 0xff, 0x41, 0x42]) = "-_9BQg" := by decide

end TelemtPanel.Library.Base64
