import Mathlib

/-!
# The order of texts and of their bytes

Texts are compared character by character, and their UTF-8 forms byte by byte.  That is the same:
the forms of two characters differ first where the one of the larger code point has the larger byte
(`Text.utf8EncodeChar_append_lt`), so a text that comes before another one has bytes that come
before those of the other (`Text.bytes_lt_bytes`).
-/

namespace SectionLedger.Text

/-- The bytes of the UTF-8 form of a text. -/
def bytes (s : String) : List UInt8 := s.toUTF8.data.toList

/-- The bytes of a text are those of its characters. -/
lemma bytes_eq_flatMap (s : String) : bytes s = s.toList.flatMap String.utf8EncodeChar := by
  rw [bytes, String.toUTF8, ← String.utf8Encode_toList, List.utf8Encode, List.data_toByteArray,
    List.toList_toArray]

/-- Bytes compare as the numbers that they are made of. -/
lemma ofNat_lt_ofNat {m n : ℕ} (h : m < n) (hn : n < 256) : UInt8.ofNat m < UInt8.ofNat n := by
  rw [UInt8.lt_iff_toNat_lt, UInt8.toNat_ofNat', UInt8.toNat_ofNat']
  omega

/-- The largest code point is `0x10FFFF`. -/
lemma toNat_lt (c : Char) : c.toNat < 0x110000 := by
  have hc : c.val.toNat < 0xD800 ∨ 0xDFFF < c.val.toNat ∧ c.val.toNat < 0x110000 := c.valid
  unfold Char.toNat
  omega

/-- The last groups of six bits of a number, as the bytes that continue a character. -/
def continuation : ℕ → ℕ → List UInt8
  | 0, _ => []
  | k + 1, n => UInt8.ofNat (n / 64 ^ k % 64 + 128) :: continuation k n

/-- The bytes of a number with some groups of six bits behind the first byte, which says how many
there are. -/
def encoded (base k n : ℕ) : List UInt8 := UInt8.ofNat (n / 64 ^ k + base) :: continuation k n

/-- The bytes of a character are those of its code point, with as many groups of six bits as it
takes. -/
lemma utf8EncodeChar_eq_encoded (c : Char) :
    String.utf8EncodeChar c =
      if c.toNat ≤ 127 then encoded 0 0 c.toNat
      else if c.toNat ≤ 2047 then encoded 192 1 c.toNat
      else if c.toNat ≤ 65535 then encoded 224 2 c.toNat
      else encoded 240 3 c.toNat := by
  have hvalid := toNat_lt c
  rw [String.utf8EncodeChar.eq_1, show c.val.toNat = c.toNat from rfl]
  generalize c.toNat = n at hvalid
  split_ifs with h1 h2 h3
  · simp [encoded, continuation]
  · have hlead : n / 64 % 32 = n / 64 := Nat.mod_eq_of_lt (by omega)
    simp [encoded, continuation, hlead]
  · have hlead : n / 4096 % 16 = n / 4096 := Nat.mod_eq_of_lt (by omega)
    simp [encoded, continuation, hlead]
  · have hlead : n / 262144 % 8 = n / 262144 := Nat.mod_eq_of_lt (by omega)
    simp [encoded, continuation, hlead]

/-- The first byte decides if it is smaller. -/
lemma encoded_append_lt_of_lead {base base' k k' m n : ℕ}
    (h : m / 64 ^ k + base < n / 64 ^ k' + base') (hn : n / 64 ^ k' + base' < 256)
    (p q : List UInt8) : encoded base k m ++ p < encoded base' k' n ++ q :=
  List.cons_lt_cons_iff.mpr (.inl (ofNat_lt_ofNat h hn))

/-- Groups of six bits compare as the numbers that they are the end of. -/
lemma continuation_append_lt {k m n : ℕ} (h : m % 64 ^ k < n % 64 ^ k) (p q : List UInt8) :
    continuation k m ++ p < continuation k n ++ q := by
  induction k with
  | zero => simp [Nat.mod_one] at h
  | succ k ih =>
    have hsplit : ∀ v, v % 64 ^ (k + 1) = v % 64 ^ k + 64 ^ k * (v / 64 ^ k % 64) := by
      intro v
      rw [pow_succ, Nat.mod_mul]
    rw [hsplit m, hsplit n] at h
    have hm : m % 64 ^ k < 64 ^ k := Nat.mod_lt _ (by positivity)
    have hn : n % 64 ^ k < 64 ^ k := Nat.mod_lt _ (by positivity)
    refine List.cons_lt_cons_iff.mpr ?_
    rcases lt_trichotomy (m / 64 ^ k % 64) (n / 64 ^ k % 64) with hlt | heq | hgt
    · exact .inl (ofNat_lt_ofNat (by omega) (by omega))
    · rw [heq] at h
      exact .inr ⟨by rw [heq], ih (by omega)⟩
    · have hover : 64 ^ k * (n / 64 ^ k % 64 + 1) ≤ 64 ^ k * (m / 64 ^ k % 64) :=
        Nat.mul_le_mul_left _ hgt
      rw [Nat.mul_succ] at hover
      omega

/-- With as many groups of six bits, the bytes of numbers compare as the numbers. -/
lemma encoded_append_lt {base k m n : ℕ} (h : m < n) (hn : n / 64 ^ k + base < 256)
    (p q : List UInt8) : encoded base k m ++ p < encoded base k n ++ q := by
  have hle : m / 64 ^ k ≤ n / 64 ^ k := Nat.div_le_div_right h.le
  rcases hle.lt_or_eq with hlt | heq
  · exact encoded_append_lt_of_lead (by omega) hn p q
  · refine List.cons_lt_cons_iff.mpr (.inr ⟨by rw [heq], continuation_append_lt ?_ p q⟩)
    have hm := Nat.div_add_mod m (64 ^ k)
    have hn := Nat.div_add_mod n (64 ^ k)
    rw [heq] at hm
    omega

/-- Whatever follows them, the bytes of a character come before those of a character with a larger
code point. -/
lemma utf8EncodeChar_append_lt {a b : Char} (h : a < b) (p q : List UInt8) :
    String.utf8EncodeChar a ++ p < String.utf8EncodeChar b ++ q := by
  have hlt : a.toNat < b.toNat := h
  have hvalid := toNat_lt b
  rw [utf8EncodeChar_eq_encoded, utf8EncodeChar_eq_encoded]
  split_ifs
  · exact encoded_append_lt hlt (by omega) p q
  · exact encoded_append_lt_of_lead (by omega) (by omega) p q
  · exact encoded_append_lt_of_lead (by omega) (by omega) p q
  · exact encoded_append_lt_of_lead (by omega) (by omega) p q
  · omega
  · exact encoded_append_lt hlt (by omega) p q
  · exact encoded_append_lt_of_lead (by omega) (by omega) p q
  · exact encoded_append_lt_of_lead (by omega) (by omega) p q
  · omega
  · omega
  · exact encoded_append_lt hlt (by omega) p q
  · exact encoded_append_lt_of_lead (by omega) (by omega) p q
  · omega
  · omega
  · omega
  · exact encoded_append_lt hlt (by omega) p q

/-- **Characters and bytes give the same order.**  The bytes of a text come before those of a later
text. -/
theorem bytes_lt_bytes {s t : String} (h : s < t) : bytes s < bytes t := by
  rw [bytes_eq_flatMap, bytes_eq_flatMap]
  have hlist : s.toList < t.toList := h
  generalize s.toList = s at hlist
  generalize t.toList = t at hlist
  induction hlist with
  | @nil b t =>
    obtain ⟨c, rest, hrest⟩ := List.exists_cons_of_ne_nil (@String.utf8EncodeChar_ne_nil b)
    rw [List.flatMap_cons, hrest]
    exact List.nil_lt_cons _ _
  | @cons c s t _ ih =>
    rw [List.flatMap_cons, List.flatMap_cons]
    exact List.append_left_lt ih
  | @rel a s b t hab =>
    rw [List.flatMap_cons, List.flatMap_cons]
    exact utf8EncodeChar_append_lt hab _ _

end SectionLedger.Text
