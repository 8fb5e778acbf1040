import Flowchart.Text.Utf8
import Mathlib

/-!
# Texts come back from their bytes

The reader of bytes is a machine, and an encoded character is a walk of it: a lead byte takes it out
of the idle state, each further byte gives six more bits of the code point, and the last one takes
it back.  `decodeFrom_utf8EncodeChar` follows this walk for a character of any length.  The bounds
that the lead bytes `E0`, `ED`, `F0` and `F4` put on the byte after them are met because the code
point is long enough for its number of bytes, is no surrogate, and is not above the last one.

So a text is read back from its bytes (`decode_encode`).  From a file it is read with its line ends
folded (`read_encode`), which changes nothing if there is no carriage return in it.
-/

namespace Flowchart
namespace Text

variable {position : Nat} {p : Begun} {b : UInt8} {bytes : Bytes}

/-! ### The steps of the machine -/

lemma decodeFrom_ascii (h : b.toNat < 0x80) :
    decodeFrom position none (b :: bytes)
      = (decodeFrom (position + 1) none bytes).map (Char.ofNat b.toNat :: ·) := by
  rw [decodeFrom, if_pos h]

lemma decodeFrom_lead (hp : Begun.ofLead? position b = some p) :
    decodeFrom position none (b :: bytes) = decodeFrom (position + 1) (some p) bytes := by
  have hb : ¬ b.toNat < 0x80 := by
    intro hb
    simp only [Begun.ofLead?] at hp
    split_ifs at hp <;> omega
  rw [decodeFrom, if_neg hb, hp]

/-- The character begun in `p` after one more byte, which is not its last. -/
def Begun.after (p : Begun) (b : UInt8) : Begun :=
  { p with
    count := p.count + 1
    bits := 64 * p.bits + (b.toNat - 0x80)
    more := p.more - 1
    low := 0x80
    high := 0xBF }

lemma decodeFrom_more (hlow : p.low ≤ b.toNat) (hhigh : b.toNat ≤ p.high) (hmore : 0 < p.more) :
    decodeFrom position (some p) (b :: bytes)
      = decodeFrom (position + 1) (some (p.after b)) bytes := by
  obtain ⟨more, hmore⟩ : ∃ more, p.more = more + 1 := ⟨p.more - 1, by omega⟩
  rw [decodeFrom, if_pos ⟨hlow, hhigh⟩]
  simp only [hmore, Begun.after, Nat.add_sub_cancel]

lemma decodeFrom_last (hlow : p.low ≤ b.toNat) (hhigh : b.toNat ≤ p.high) (hmore : p.more = 0) :
    decodeFrom position (some p) (b :: bytes)
      = (decodeFrom (position + 1) none bytes).map
          (Char.ofNat (64 * p.bits + (b.toNat - 0x80)) :: ·) := by
  rw [decodeFrom, if_pos ⟨hlow, hhigh⟩]
  simp only [hmore]

/-! ### Lead bytes -/

lemma toNat_byte {n : Nat} (h : n < 256) : (UInt8.ofNat n).toNat = n :=
  UInt8.toNat_ofNat_of_lt h

/-- The lead byte of a character of two bytes. -/
lemma exists_ofLead?_two (position : Nat) {v : Nat} (h : 0x80 ≤ v) (h' : v < 0x800) :
    ∃ p, Begun.ofLead? position (UInt8.ofNat (v / 64 % 32 + 192)) = some p ∧
      p.bits = v / 64 ∧ p.more = 0 ∧ p.low = 0x80 ∧ p.high = 0xBF := by
  have hlead : (UInt8.ofNat (v / 64 % 32 + 192)).toNat = v / 64 + 192 := by
    rw [toNat_byte (by omega)]
    omega
  simp only [Begun.ofLead?, hlead]
  rw [if_pos (by omega)]
  exact ⟨_, rfl, by simp only; omega, rfl, rfl, rfl⟩

/-- The lead byte of a character of three bytes, and the second byte in its bounds. -/
lemma exists_ofLead?_three (position : Nat) {v : Nat} (h : 0x800 ≤ v) (h' : v < 0x10000)
    (hvalid : v < 0xD800 ∨ 0xDFFF < v) :
    ∃ p, Begun.ofLead? position (UInt8.ofNat (v / 4096 % 16 + 224)) = some p ∧
      p.bits = v / 4096 ∧ p.more = 1 ∧ p.low ≤ v / 64 % 64 + 128 ∧ v / 64 % 64 + 128 ≤ p.high := by
  have hlead : (UInt8.ofNat (v / 4096 % 16 + 224)).toNat = v / 4096 + 224 := by
    rw [toNat_byte (by omega)]
    omega
  simp only [Begun.ofLead?, hlead]
  rw [if_neg (by omega)]
  split
  · exact ⟨_, rfl, by simp only; omega, rfl, by simp only; omega, by simp only; omega⟩
  split
  · exact ⟨_, rfl, by simp only; omega, rfl, by simp only; omega, by simp only; omega⟩
  rw [if_pos (by omega)]
  exact ⟨_, rfl, by simp only; omega, rfl, by simp only; omega, by simp only; omega⟩

/-- The lead byte of a character of four bytes, and the second byte in its bounds. -/
lemma exists_ofLead?_four (position : Nat) {v : Nat} (h : 0x10000 ≤ v) (h' : v < 0x110000) :
    ∃ p, Begun.ofLead? position (UInt8.ofNat (v / 262144 % 8 + 240)) = some p ∧
      p.bits = v / 262144 ∧ p.more = 2 ∧ p.low ≤ v / 4096 % 64 + 128 ∧
      v / 4096 % 64 + 128 ≤ p.high := by
  have hlead : (UInt8.ofNat (v / 262144 % 8 + 240)).toNat = v / 262144 + 240 := by
    rw [toNat_byte (by omega)]
    omega
  simp only [Begun.ofLead?, hlead]
  rw [if_neg (by omega), if_neg (by omega), if_neg (by omega), if_neg (by omega)]
  split
  · exact ⟨_, rfl, by simp only; omega, rfl, by simp only; omega, by simp only; omega⟩
  split
  · exact ⟨_, rfl, by simp only; omega, rfl, by simp only; omega, by simp only; omega⟩
  rw [if_pos (by omega)]
  exact ⟨_, rfl, by simp only; omega, rfl, by simp only; omega, by simp only; omega⟩

/-! ### Characters and texts -/

/-- A byte behind the lead byte, with six bits of the code point. -/
lemma toNat_tail (n : Nat) : (UInt8.ofNat (n % 64 + 128)).toNat = n % 64 + 128 :=
  toNat_byte (by omega)

lemma decodeFrom_utf8EncodeChar (position : Nat) (c : Char) (bytes : Bytes) :
    ∃ position', decodeFrom position none (String.utf8EncodeChar c ++ bytes)
      = (decodeFrom position' none bytes).map (c :: ·) := by
  have hc : Char.ofNat c.val.toNat = c := Char.ofNat_toNat c
  have hvalid : c.val.toNat < 0xD800 ∨ 0xDFFF < c.val.toNat ∧ c.val.toNat < 0x110000 := c.valid
  unfold String.utf8EncodeChar
  generalize c.val.toNat = v at hc hvalid
  dsimp only
  split
  · -- one byte
    have hb : (UInt8.ofNat v).toNat = v := toNat_byte (by omega)
    rw [List.singleton_append, decodeFrom_ascii (by omega), hb, hc]
    exact ⟨_, rfl⟩
  split
  · -- two bytes
    obtain ⟨p, hp, hbits, hmore, hlow, hhigh⟩ :=
      exists_ofLead?_two position (v := v) (by omega) (by omega)
    have hcode : 64 * p.bits + (v % 64 + 128 - 0x80) = v := by omega
    simp only [List.cons_append, List.nil_append]
    rw [decodeFrom_lead hp,
      decodeFrom_last (by rw [toNat_tail]; omega) (by rw [toNat_tail]; omega) hmore, toNat_tail,
      hcode, hc]
    exact ⟨_, rfl⟩
  split
  · -- three bytes
    obtain ⟨p, hp, hbits, hmore, hlow, hhigh⟩ :=
      exists_ofLead?_three position (v := v) (by omega) (by omega) (by omega)
    have hcode : 64 * (64 * p.bits + (v / 64 % 64 + 128 - 0x80)) + (v % 64 + 128 - 0x80) = v := by
      omega
    simp only [List.cons_append, List.nil_append]
    rw [decodeFrom_lead hp,
      decodeFrom_more (by rwa [toNat_tail]) (by rwa [toNat_tail]) (by omega),
      decodeFrom_last (by simp only [Begun.after, toNat_tail]; omega)
        (by simp only [Begun.after, toNat_tail]; omega) (by simp only [Begun.after, hmore])]
    simp only [Begun.after, toNat_tail, hcode, hc]
    exact ⟨_, rfl⟩
  · -- four bytes
    obtain ⟨p, hp, hbits, hmore, hlow, hhigh⟩ :=
      exists_ofLead?_four position (v := v) (by omega) (by omega)
    have hcode : 64 * (64 * (64 * p.bits + (v / 4096 % 64 + 128 - 0x80)) +
        (v / 64 % 64 + 128 - 0x80)) + (v % 64 + 128 - 0x80) = v := by
      omega
    simp only [List.cons_append, List.nil_append]
    rw [decodeFrom_lead hp,
      decodeFrom_more (by rwa [toNat_tail]) (by rwa [toNat_tail]) (by omega),
      decodeFrom_more (by simp only [Begun.after, toNat_tail]; omega)
        (by simp only [Begun.after, toNat_tail]; omega) (by simp only [Begun.after, hmore]; omega),
      decodeFrom_last (by simp only [Begun.after, toNat_tail]; omega)
        (by simp only [Begun.after, toNat_tail]; omega) (by simp only [Begun.after, hmore])]
    simp only [Begun.after, toNat_tail, hcode, hc]
    exact ⟨_, rfl⟩

lemma decodeFrom_encode (position : Nat) (s : List Char) :
    decodeFrom position none (encode s) = .ok s := by
  induction s generalizing position with
  | nil => rfl
  | cons c s ih =>
    obtain ⟨position', h⟩ := decodeFrom_utf8EncodeChar position c (encode s)
    rw [encode, List.flatMap_cons, ← encode, h, ih]
    rfl

/-- Every text is read back from its bytes. -/
lemma decode_encode (s : List Char) : decode (encode s) = .ok s :=
  decodeFrom_encode 0 s

/-! ### Line ends -/

/-- In a text without carriage returns there is nothing to fold, whatever follows it. -/
lemma foldLineEnds_append {s : List Char} (h : '\r' ∉ s) (t : List Char) :
    foldLineEnds (s ++ t) = s ++ foldLineEnds t := by
  induction s with
  | nil => rfl
  | cons c s ih =>
    obtain ⟨hc, hs⟩ := not_or.1 (List.mem_cons.not.1 h)
    rw [List.cons_append, foldLineEnds, if_neg (Ne.symm hc), ih hs]
    · rfl
    · rintro _ rfl
      exact absurd rfl hc

lemma foldLineEnds_eq_self {s : List Char} (h : '\r' ∉ s) : foldLineEnds s = s := by
  have hfold := foldLineEnds_append h []
  rwa [List.append_nil, foldLineEnds, List.append_nil] at hfold

/-- No carriage return is left in a text whose line ends are folded. -/
lemma notMem_foldLineEnds (s : List Char) : '\r' ∉ foldLineEnds s := by
  fun_induction foldLineEnds s with
  | case1 => simp
  | case2 s ih => simpa using ih
  | case3 c s _ ih =>
    rw [List.mem_cons, not_or]
    refine ⟨?_, ih⟩
    split
    · decide
    · next hc => exact Ne.symm hc

lemma read_encode (s : List Char) : read (encode s) = .ok (foldLineEnds s) := by
  rw [read, decode_encode]
  rfl

end Text
end Flowchart
