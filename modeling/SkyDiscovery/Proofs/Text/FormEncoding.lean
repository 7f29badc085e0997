import SkyDiscovery.Proofs.Text.Character
import SkyDiscovery.Proofs.Text.Split
import SkyDiscovery.Proofs.Text.Utf8
import SkyDiscovery.Text.FormEncoding

/-!
# Encoded values and arguments

Any text is read back from its encoded form, in which there is no `&`, so it can stand among other
arguments as the value of one of them.

* `decodeBytes_encodeByte`: a byte is read back from the characters that are written for it.
* `mem_encode`: the characters of encoded texts.
* `decode_encode`: a text is read back.
* `readArguments`: the arguments of a query.
-/

namespace SkyDiscovery.Text.FormEncoding

/-! ## Hexadecimal digits -/

theorem hexDigit_lt {n : Nat} (h : n < 16) : (hexDigit n).toNat < 128 :=
  (by decide : ∀ n < 16, (hexDigit n).toNat < 128) n h

theorem isAlphanum_hexDigit {n : Nat} (h : n < 16) : (hexDigit n).isAlphanum = true :=
  (by decide : ∀ n < 16, (hexDigit n).isAlphanum = true) n h

theorem hexValue_hexDigit {n : Nat} (h : n < 16) : hexValue (hexDigit n) = some n :=
  (by decide : ∀ n < 16, hexValue (hexDigit n) = some n) n h

theorem escaped_hexDigit (b : UInt8) :
    escaped (UInt8.ofNat (hexDigit (b.toNat / 16)).toNat)
      (UInt8.ofNat (hexDigit (b.toNat % 16)).toNat) = some b := by
  have hb : b.toNat < 256 := b.toNat_lt
  have hdigit : ∀ n < 16,
      hexValue (Char.ofNat (UInt8.ofNat (hexDigit n).toNat).toNat) = some n := by
    intro n hn
    rw [toNat_byte (Nat.lt_trans (hexDigit_lt hn) (by decide)), Char.ofNat_toNat,
      hexValue_hexDigit hn]
  have hvalue : b.toNat / 16 * 16 + b.toNat % 16 = b.toNat := by omega
  simp only [escaped, hdigit (b.toNat / 16) (by omega), hdigit (b.toNat % 16) (by omega),
    bind, Option.bind, pure, hvalue, UInt8.ofNat_toNat]

/-! ## Bytes -/

theorem isKept_iff {b : UInt8} :
    isKept b = true ↔ (48 ≤ b.toNat ∧ b.toNat ≤ 57) ∨ (65 ≤ b.toNat ∧ b.toNat ≤ 90) ∨
      (97 ≤ b.toNat ∧ b.toNat ≤ 122) ∨ b.toNat = 42 ∨ b.toNat = 45 ∨ b.toNat = 46 ∨
      b.toNat = 95 := by
  simp only [isKept, Bool.or_eq_true, inSpan_iff, beq_iff_eq, ← UInt8.toNat_inj,
    UInt8.reduceToNat, or_assoc]

section Decode

variable (bs : List UInt8)

theorem decodeBytes_kept {b : UInt8} (h : isKept b = true) :
    decodeBytes (b :: bs) = b :: decodeBytes bs := by
  rw [isKept_iff] at h
  have hplus : b ≠ 0x2B := by
    rintro rfl
    simp at h
  have hescape : b ≠ 0x25 := by
    rintro rfl
    simp at h
  rw [decodeBytes.eq_def]
  simp only [hplus, hescape, if_false]

theorem decodeBytes_escape {high low b : UInt8} (h : escaped high low = some b) :
    decodeBytes (0x25 :: high :: low :: bs) = b :: decodeBytes bs := by
  rw [decodeBytes.eq_def]
  simp only [h]
  rfl

/-- A byte is read back from the characters that are written for it. -/
theorem decodeBytes_encodeByte (b : UInt8) :
    decodeBytes (bytes (encodeByte b) ++ bs) = b :: decodeBytes bs := by
  have hb : b.toNat < 256 := b.toNat_lt
  unfold encodeByte
  split_ifs with hkept hblank
  · have hlow : b.toNat < 128 := by
      rw [isKept_iff] at hkept
      omega
    have hchar : (Char.ofNat b.toNat).toNat = b.toNat := toNat_ofNat hlow
    rw [bytes_cons_of_lt (by omega), hchar, UInt8.ofNat_toNat]
    exact decodeBytes_kept bs hkept
  · rw [hblank]
    exact decodeBytes.eq_def _
  · rw [bytes_cons_of_lt (by decide), bytes_cons_of_lt (hexDigit_lt (by omega)),
      bytes_cons_of_lt (hexDigit_lt (by omega))]
    exact decodeBytes_escape bs (escaped_hexDigit b)

theorem decodeBytes_encodeBytes (as : List UInt8) :
    decodeBytes (bytes (encodeBytes as)) = as := by
  induction as with
  | nil => rfl
  | cons a as ih =>
    rw [encodeBytes, List.flatMap_cons, bytes_append, decodeBytes_encodeByte, ← encodeBytes, ih]

end Decode

/-! ## Texts -/

/-- Encoded texts are made of letters, digits and a few marks. -/
theorem mem_encode {s : String} {c : Char} (h : c ∈ (encode s).toList) :
    c.isAlphanum = true ∨ c ∈ ['*', '-', '.', '_', '+', '%'] := by
  rw [encode, String.toList_ofList, encodeBytes] at h
  obtain ⟨b, -, hc⟩ := List.mem_flatMap.1 h
  have hb : b.toNat < 256 := b.toNat_lt
  unfold encodeByte at hc
  split_ifs at hc with hkept hblank
  · obtain rfl := List.mem_singleton.1 hc
    rw [isKept_iff] at hkept
    have hchar : (Char.ofNat b.toNat).toNat = b.toNat := toNat_ofNat (by omega)
    rcases hkept with hdigit | hupper | hlower | hmark | hmark | hmark | hmark
    · exact .inl ((isAlphanum_iff _).2 (by omega))
    · exact .inl ((isAlphanum_iff _).2 (by omega))
    · exact .inl ((isAlphanum_iff _).2 (by omega))
    all_goals
      rw [hmark]
      exact .inr (by decide)
  · obtain rfl := List.mem_singleton.1 hc
    exact .inr (by decide)
  · simp only [List.mem_cons, List.not_mem_nil, or_false] at hc
    rcases hc with rfl | rfl | rfl
    · exact .inr (by decide)
    · exact .inl (isAlphanum_hexDigit (by omega))
    · exact .inl (isAlphanum_hexDigit (by omega))

theorem amp_not_mem_encode (s : String) : '&' ∉ (encode s).toList :=
  fun h => absurd (mem_encode h) (by decide)

/-- A text is read back from its encoded form. -/
theorem decode_encode (s : String) : decode (encode s) = s := by
  rw [decode, before_of_not_mem (amp_not_mem_encode s), encode, String.toList_ofList,
    decodeBytes_encodeBytes, ofBytes_bytes, String.ofList_toList]

/-- Letters and digits stand for themselves. -/
theorem encode_of_isAlphanum {s : String} (h : ∀ c ∈ s.toList, c.isAlphanum = true) :
    encode s = s := by
  have hlist : ∀ cs : List Char, (∀ c ∈ cs, c.isAlphanum = true) →
      encodeBytes (bytes cs) = cs := by
    intro cs hcs
    induction cs with
    | nil => rfl
    | cons c cs ih =>
      obtain ⟨hc, hcs⟩ := List.forall_mem_cons.1 hcs
      have hspan := (isAlphanum_iff c).1 hc
      have hbyte : (UInt8.ofNat c.toNat).toNat = c.toNat := toNat_byte (by omega)
      have hkept : isKept (UInt8.ofNat c.toNat) = true := by
        rw [isKept_iff, hbyte]
        omega
      rw [bytes_cons_of_lt (by omega), encodeBytes, List.flatMap_cons, ← encodeBytes, ih hcs,
        encodeByte, if_pos hkept, hbyte, Char.ofNat_toNat, List.singleton_append]
  rw [encode, hlist s.toList h, String.ofList_toList]

theorem decode_of_isAlphanum {s : String} (h : ∀ c ∈ s.toList, c.isAlphanum = true) :
    decode s = s := by
  conv_lhs => rw [← encode_of_isAlphanum h, decode_encode]

/-! ## Arguments -/

/-- What an argument says: it is cut at its first `=`, and both sides are decoded.  Without a `=` it
is a name alone. -/
def readArgument (piece : List Char) : String × String :=
  let (name, value) := (cut '=' piece).getD (piece, [])
  (decode (String.ofList name), decode (String.ofList value))

/-- The arguments of a query, which stand between `&`. -/
def readArguments (query : List Char) : List (String × String) :=
  (splitOn (· == '&') query).map readArgument

section Argument

variable {name value : String}

theorem readArgument_eq (hname : ∀ c ∈ name.toList, c.isAlphanum = true) :
    readArgument (name.toList ++ '=' :: value.toList) = (name, decode value) := by
  have hmark : '=' ∉ name.toList := fun h => absurd (hname _ h) (by decide)
  rw [readArgument, cut_append hmark, Option.getD_some]
  dsimp only
  rw [String.ofList_toList, String.ofList_toList, decode_of_isAlphanum hname]

theorem amp_not_mem_argument (hname : ∀ c ∈ name.toList, c.isAlphanum = true)
    (hvalue : '&' ∉ value.toList) : '&' ∉ name.toList ++ '=' :: value.toList := by
  have hmark : '&' ∉ name.toList := fun h => absurd (hname _ h) (by decide)
  simp [hmark, hvalue]

/-- An argument is read off, if its name is plain and its value does not hold a `&`. -/
theorem readArguments_cons (hname : ∀ c ∈ name.toList, c.isAlphanum = true)
    (hvalue : '&' ∉ value.toList) (query : List Char) :
    readArguments (name.toList ++ '=' :: value.toList ++ '&' :: query) =
      (name, decode value) :: readArguments query := by
  rw [readArguments, splitOn_mark (amp_not_mem_argument hname hvalue), List.map_cons,
    readArgument_eq hname, readArguments]

theorem readArguments_single (hname : ∀ c ∈ name.toList, c.isAlphanum = true)
    (hvalue : '&' ∉ value.toList) :
    readArguments (name.toList ++ '=' :: value.toList) = [(name, decode value)] := by
  rw [readArguments, splitOn_no_mark (amp_not_mem_argument hname hvalue), List.map_singleton,
    readArgument_eq hname]

end Argument

end SkyDiscovery.Text.FormEncoding
