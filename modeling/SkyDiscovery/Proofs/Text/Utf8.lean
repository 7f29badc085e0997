import Mathlib.Tactic.SplitIfs
import SkyDiscovery.Text.Utf8

/-!
# Texts and their bytes

Reading the bytes of a text gives the text back: of what is written for a character no byte is
refused, and none is left over.

* `ofBytes_one`, `ofBytes_two`, `ofBytes_three`, `ofBytes_four`: one character is read off.
* `ofBytes_utf8EncodeChar`: the character that is read off is the one that was written.
* `ofBytes_bytes`: the text of the bytes of a text.
-/

namespace SkyDiscovery.Text

/-! ## Spans of bytes -/

section Span

variable {low high a b : UInt8}

theorem inSpan_iff : inSpan low high b = true ↔ low.toNat ≤ b.toNat ∧ b.toNat ≤ high.toNat := by
  rw [inSpan, Bool.and_eq_true, decide_eq_true_eq, decide_eq_true_eq, UInt8.le_iff_toNat_le,
    UInt8.le_iff_toNat_le]

theorem inSpan_of_lt (h : high.toNat < b.toNat) : inSpan low high b = false := by
  rw [Bool.eq_false_iff, ne_eq, inSpan_iff]
  omega

theorem isTail_iff : isTail b = true ↔ 0x80 ≤ b.toNat ∧ b.toNat ≤ 0xBF :=
  inSpan_iff

theorem canFollow_iff :
    canFollow a b = true ↔ isTail b = true ∧ (a.toNat = 0xE0 → 0xA0 ≤ b.toNat) ∧
      (a.toNat = 0xED → b.toNat ≤ 0x9F) ∧ (a.toNat = 0xF0 → 0x90 ≤ b.toNat) ∧
      (a.toNat = 0xF4 → b.toNat ≤ 0x8F) := by
  have hbyte : ∀ n : UInt8, a = n ↔ a.toNat = n.toNat := fun n => UInt8.toNat_inj.symm
  simp only [canFollow, hbyte, UInt8.reduceToNat]
  split_ifs <;> simp only [isTail_iff, inSpan_iff, UInt8.reduceToNat] <;> omega

end Span

/-! ## One character -/

section One

variable {a b c d : UInt8} (bs : List UInt8)

theorem not_lt_of_two_le (ha : 0xC2 ≤ a.toNat) : ¬ a < 0x80 := by
  intro h
  have hlow : a.toNat < 0x80 := UInt8.lt_iff_toNat_lt.1 h
  omega

theorem ofBytes_one (ha : a.toNat < 0x80) :
    ofBytes (a :: bs) = Char.ofNat a.toNat :: ofBytes bs := by
  have hlow : a < 0x80 := UInt8.lt_iff_toNat_lt.2 ha
  rw [ofBytes.eq_def]
  simp only [hlow, if_true]

theorem ofBytes_two (ha : 0xC2 ≤ a.toNat) (ha' : a.toNat ≤ 0xDF) (hb : isTail b = true) :
    ofBytes (a :: b :: bs) = assemble (a.toNat % 32) [b] :: ofBytes bs := by
  have hlow : ¬ a < 0x80 := not_lt_of_two_le ha
  have htwo : inSpan 0xC2 0xDF a = true := inSpan_iff.2 ⟨ha, ha'⟩
  rw [ofBytes.eq_def]
  simp only [hlow, htwo, hb, if_true, if_false]

theorem ofBytes_three (ha : 0xE0 ≤ a.toNat) (ha' : a.toNat ≤ 0xEF) (hb : canFollow a b = true)
    (hc : isTail c = true) :
    ofBytes (a :: b :: c :: bs) = assemble (a.toNat % 16) [b, c] :: ofBytes bs := by
  have hlow : ¬ a < 0x80 := not_lt_of_two_le (Nat.le_trans (by decide) ha)
  have htwo : inSpan 0xC2 0xDF a = false := inSpan_of_lt (Nat.lt_of_lt_of_le (by decide) ha)
  have hthree : inSpan 0xE0 0xEF a = true := inSpan_iff.2 ⟨ha, ha'⟩
  rw [ofBytes.eq_def]
  simp only [hlow, htwo, hthree, hb, hc, if_true, if_false, Bool.false_eq_true]

theorem ofBytes_four (ha : 0xF0 ≤ a.toNat) (ha' : a.toNat ≤ 0xF4) (hb : canFollow a b = true)
    (hc : isTail c = true) (hd : isTail d = true) :
    ofBytes (a :: b :: c :: d :: bs) = assemble (a.toNat % 8) [b, c, d] :: ofBytes bs := by
  have hlow : ¬ a < 0x80 := not_lt_of_two_le (Nat.le_trans (by decide) ha)
  have htwo : inSpan 0xC2 0xDF a = false := inSpan_of_lt (Nat.lt_of_lt_of_le (by decide) ha)
  have hthree : inSpan 0xE0 0xEF a = false := inSpan_of_lt (Nat.lt_of_lt_of_le (by decide) ha)
  have hfour : inSpan 0xF0 0xF4 a = true := inSpan_iff.2 ⟨ha, ha'⟩
  rw [ofBytes.eq_def]
  simp only [hlow, htwo, hthree, hfour, hb, hc, hd, if_true, if_false, Bool.false_eq_true]

end One

/-! ## Characters -/

theorem toNat_byte {n : Nat} (h : n < 256) : (UInt8.ofNat n).toNat = n := by
  rw [UInt8.toNat_ofNat', Nat.mod_eq_of_lt h]

theorem toNat_tail (n : Nat) : (UInt8.ofNat (n % 64 + 0x80)).toNat = n % 64 + 0x80 :=
  toNat_byte (by omega)

theorem isTail_tail (n : Nat) : isTail (UInt8.ofNat (n % 64 + 0x80)) = true := by
  rw [isTail_iff, toNat_tail]
  omega

section Written

variable {n : Nat} (bs : List UInt8)

theorem ofBytes_written_two (hlow : 0x80 ≤ n) (hhigh : n < 0x800) :
    ofBytes (UInt8.ofNat (n / 64 % 32 + 0xC0) :: UInt8.ofNat (n % 64 + 0x80) :: bs) =
      Char.ofNat n :: ofBytes bs := by
  have hlead : (UInt8.ofNat (n / 64 % 32 + 0xC0)).toNat = n / 64 % 32 + 0xC0 :=
    toNat_byte (by omega)
  rw [ofBytes_two bs (by omega) (by omega) (isTail_tail n), hlead]
  simp only [assemble, List.foldl_cons, List.foldl_nil, toNat_tail]
  congr 2
  omega

theorem ofBytes_written_three (hlow : 0x800 ≤ n) (hhigh : n < 0x10000)
    (hvalid : n < 0xD800 ∨ 0xDFFF < n) :
    ofBytes (UInt8.ofNat (n / 4096 % 16 + 0xE0) :: UInt8.ofNat (n / 64 % 64 + 0x80) ::
      UInt8.ofNat (n % 64 + 0x80) :: bs) = Char.ofNat n :: ofBytes bs := by
  have hlead : (UInt8.ofNat (n / 4096 % 16 + 0xE0)).toNat = n / 4096 % 16 + 0xE0 :=
    toNat_byte (by omega)
  have hsecond : canFollow (UInt8.ofNat (n / 4096 % 16 + 0xE0))
      (UInt8.ofNat (n / 64 % 64 + 0x80)) = true := by
    rw [canFollow_iff, hlead, toNat_tail]
    exact ⟨isTail_tail _, by omega⟩
  rw [ofBytes_three bs (by omega) (by omega) hsecond (isTail_tail n), hlead]
  simp only [assemble, List.foldl_cons, List.foldl_nil, toNat_tail]
  congr 2
  omega

theorem ofBytes_written_four (hlow : 0x10000 ≤ n) (hhigh : n < 0x110000) :
    ofBytes (UInt8.ofNat (n / 262144 % 8 + 0xF0) :: UInt8.ofNat (n / 4096 % 64 + 0x80) ::
      UInt8.ofNat (n / 64 % 64 + 0x80) :: UInt8.ofNat (n % 64 + 0x80) :: bs) =
      Char.ofNat n :: ofBytes bs := by
  have hlead : (UInt8.ofNat (n / 262144 % 8 + 0xF0)).toNat = n / 262144 % 8 + 0xF0 :=
    toNat_byte (by omega)
  have hsecond : canFollow (UInt8.ofNat (n / 262144 % 8 + 0xF0))
      (UInt8.ofNat (n / 4096 % 64 + 0x80)) = true := by
    rw [canFollow_iff, hlead, toNat_tail]
    exact ⟨isTail_tail _, by omega⟩
  rw [ofBytes_four bs (by omega) (by omega) hsecond (isTail_tail _) (isTail_tail n), hlead]
  simp only [assemble, List.foldl_cons, List.foldl_nil, toNat_tail]
  congr 2
  omega

/-- What is written for a character is read as this character. -/
theorem ofBytes_utf8EncodeChar (c : Char) :
    ofBytes (String.utf8EncodeChar c ++ bs) = c :: ofBytes bs := by
  obtain ⟨n, hn⟩ : ∃ n, n = c.val.toNat := ⟨_, rfl⟩
  have hvalid : n < 0xD800 ∨ 0xDFFF < n ∧ n < 0x110000 := hn ▸ c.valid
  have hback : Char.ofNat n = c := hn ▸ Char.ofNat_toNat c
  unfold String.utf8EncodeChar
  dsimp only
  rw [← hn, ← hback]
  split_ifs with hone htwo hthree
  · have hbyte : (UInt8.ofNat n).toNat = n := toNat_byte (by omega)
    rw [List.singleton_append, ofBytes_one bs (by omega), hbyte]
  · exact ofBytes_written_two bs (by omega) (by omega)
  · exact ofBytes_written_three bs (by omega) (by omega) (by omega)
  · exact ofBytes_written_four bs (by omega) (by omega)

end Written

theorem toNat_ofNat {n : Nat} (h : n < 128) : (Char.ofNat n).toNat = n := by
  have hvalid : n.isValidChar := .inl (by omega)
  rw [Char.ofNat, dif_pos hvalid]
  rfl

theorem utf8EncodeChar_of_lt {c : Char} (h : c.toNat < 128) :
    String.utf8EncodeChar c = [UInt8.ofNat c.toNat] := by
  have hle : c.val.toNat ≤ 0x7F := Nat.le_of_lt_succ h
  exact if_pos hle

/-! ## Texts -/

theorem bytes_cons_of_lt {c : Char} (h : c.toNat < 128) (cs : List Char) :
    bytes (c :: cs) = UInt8.ofNat c.toNat :: bytes cs := by
  rw [bytes, List.flatMap_cons, utf8EncodeChar_of_lt h]
  rfl

theorem bytes_append (cs ds : List Char) : bytes (cs ++ ds) = bytes cs ++ bytes ds :=
  List.flatMap_append

/-- A text is read back from its bytes. -/
theorem ofBytes_bytes (cs : List Char) : ofBytes (bytes cs) = cs := by
  induction cs with
  | nil => rfl
  | cons c cs ih => rw [bytes, List.flatMap_cons, ofBytes_utf8EncodeChar, ← bytes, ih]

theorem bytes_injective : Function.Injective bytes :=
  Function.LeftInverse.injective ofBytes_bytes

end SkyDiscovery.Text
