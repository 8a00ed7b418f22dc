/-
Module: SourceAudit.Proofs.Text.Bytes
Layer: Proofs
Purpose: The bytes a text is stored in. An ASCII character is one byte below 128, and each such byte is
  one of them; all bytes of any other character lie above. So a scan for ASCII characters may go through
  the bytes. The first byte of a character is none of its later ones, so the bytes of a needle stand only
  where the needle stands.
Main exports: Text.bytes, Text.bytes_append, toUInt8_inj, utf8EncodeChar_of_ascii,
  le_of_mem_utf8EncodeChar, exists_utf8EncodeChar_eq_cons, Text.count_bytes, Text.bytes_prefix_iff,
  Text.exists_of_prefix_drop_bytes, Text.exists_of_getElem?_bytes
-/
import SourceAudit.Text.Basic

namespace SourceAudit

/-- The bytes of a text in UTF-8. -/
def Text.bytes (t : Text) : List UInt8 := t.flatMap String.utf8EncodeChar

namespace Text

theorem bytes_nil : bytes [] = [] := rfl

theorem bytes_cons (c : Char) (t : Text) : bytes (c :: t) = String.utf8EncodeChar c ++ bytes t := rfl

theorem bytes_append (t u : Text) : bytes (t ++ u) = bytes t ++ bytes u := List.flatMap_append

end Text

section

variable {c d : Char} {b : UInt8}

theorem toNat_toUInt8 (ascii : c.toNat < 128) : c.toUInt8.toNat = c.toNat :=
  UInt8.toNat_ofNat_of_lt' (Nat.lt_trans ascii (by decide))

/-- ASCII characters are told apart by their bytes. -/
theorem toUInt8_inj (ascii : c.toNat < 128) (ascii' : d.toNat < 128) : c.toUInt8 = d.toUInt8 ↔ c = d := by
  constructor
  · intro same
    have code : c.toNat = d.toNat := by rw [← toNat_toUInt8 ascii, ← toNat_toUInt8 ascii', same]
    rw [← c.ofNat_toNat, code, d.ofNat_toNat]
  · rintro rfl
    rfl

theorem utf8EncodeChar_of_ascii (ascii : c.toNat < 128) : String.utf8EncodeChar c = [c.toUInt8] :=
  if_pos (Nat.le_of_lt_succ ascii)

/-- No byte of a character beyond ASCII is that of an ASCII character. -/
theorem le_of_mem_utf8EncodeChar (wide : 128 ≤ c.toNat) (mem : b ∈ String.utf8EncodeChar c) :
    128 ≤ b.toNat := by
  have high {n : Nat} (low : 128 ≤ n) (fits : n < 256) : 128 ≤ (UInt8.ofNat n).toNat := by
    rwa [UInt8.toNat_ofNat_of_lt' fits]
  have code : c.val.toNat = c.toNat := rfl
  simp only [String.utf8EncodeChar, code] at mem
  rw [if_neg (by omega)] at mem
  split at mem
  · simp only [List.mem_cons, List.not_mem_nil, or_false] at mem
    rcases mem with rfl | rfl <;> exact high (by omega) (by omega)
  · split at mem
    · simp only [List.mem_cons, List.not_mem_nil, or_false] at mem
      rcases mem with rfl | rfl | rfl <;> exact high (by omega) (by omega)
    · simp only [List.mem_cons, List.not_mem_nil, or_false] at mem
      rcases mem with rfl | rfl | rfl | rfl <;> exact high (by omega) (by omega)

theorem ne_toUInt8 (high : 128 ≤ b.toNat) (ascii : c.toNat < 128) : b ≠ c.toUInt8 := by
  rintro rfl
  rw [toNat_toUInt8 ascii] at high
  omega

/-- Behind its first byte, a character has none of an ASCII character. -/
theorem exists_utf8EncodeChar_eq_cons (c : Char) :
    ∃ x w, String.utf8EncodeChar c = x :: w ∧ ∀ b ∈ w, 128 ≤ b.toNat := by
  rcases Nat.lt_or_ge c.toNat 128 with ascii | wide
  · exact ⟨c.toUInt8, [], utf8EncodeChar_of_ascii ascii, by simp⟩
  · obtain ⟨x, w, split⟩ := List.exists_cons_of_ne_nil (String.utf8EncodeChar_ne_nil (c := c))
    exact ⟨x, w, split, fun b mem =>
      le_of_mem_utf8EncodeChar wide (split ▸ List.mem_cons_of_mem x mem)⟩

theorem Text.bytes_cons_of_ascii (ascii : c.toNat < 128) (t : Text) :
    bytes (c :: t) = c.toUInt8 :: bytes t := by
  rw [bytes_cons, utf8EncodeChar_of_ascii ascii, List.singleton_append]

theorem toUInt8_mem_utf8EncodeChar_iff (ascii : c.toNat < 128) :
    c.toUInt8 ∈ String.utf8EncodeChar d ↔ c = d := by
  rcases Nat.lt_or_ge d.toNat 128 with ascii' | wide
  · rw [utf8EncodeChar_of_ascii ascii', List.mem_singleton, toUInt8_inj ascii ascii']
  · constructor
    · intro mem
      exact absurd rfl (ne_toUInt8 (le_of_mem_utf8EncodeChar wide mem) ascii)
    · rintro rfl
      omega

theorem count_utf8EncodeChar (ascii : c.toNat < 128) :
    (String.utf8EncodeChar d).count c.toUInt8 = [d].count c := by
  by_cases same : c = d
  · subst same
    rw [utf8EncodeChar_of_ascii ascii, List.count_singleton_self, List.count_singleton_self]
  · rw [List.count_eq_zero.2 (mt (toUInt8_mem_utf8EncodeChar_iff ascii).1 same),
      List.count_eq_zero.2 (mt List.mem_singleton.1 same)]

/-- An ASCII character has one byte for each time that it stands in a text. -/
theorem Text.count_bytes (ascii : c.toNat < 128) (t : Text) : (bytes t).count c.toUInt8 = t.count c := by
  induction t with
  | nil => rfl
  | cons d t ih =>
    have parts : (d :: t).count c = [d].count c + t.count c := by
      rw [← List.count_append]
      rfl
    rw [bytes_cons, List.count_append, count_utf8EncodeChar ascii, ih, parts]

theorem Text.toUInt8_mem_bytes_iff (ascii : c.toNat < 128) {t : Text} : c.toUInt8 ∈ bytes t ↔ c ∈ t := by
  rw [← List.count_pos_iff, count_bytes ascii, List.count_pos_iff]

/-! ### Needles among the bytes -/

/-- The bytes of a character show where they end. -/
theorem utf8EncodeChar_append_inj {x y : List UInt8}
    (same : String.utf8EncodeChar c ++ x = String.utf8EncodeChar d ++ y) : c = d ∧ x = y := by
  have decoded (c : Char) (x : List UInt8) :
      (String.utf8EncodeChar c ++ x).toByteArray.utf8DecodeChar? 0 = some c := by
    rw [List.toByteArray_append, ByteArray.utf8DecodeChar?_utf8EncodeChar_append]
  have first := decoded c x
  rw [same, decoded d y] at first
  obtain rfl : d = c := Option.some.inj first
  exact ⟨rfl, List.append_cancel_left same⟩

theorem Text.bytes_prefix_iff {u t : Text} : bytes u <+: bytes t ↔ u <+: t := by
  constructor
  · intro front
    induction u generalizing t with
    | nil => exact List.nil_prefix
    | cons d u ih =>
      obtain ⟨rest, whole⟩ := front
      rw [bytes_cons, List.append_assoc] at whole
      cases t with
      | nil =>
        exact absurd (List.append_eq_nil_iff.1 whole).1 String.utf8EncodeChar_ne_nil
      | cons c t =>
        obtain ⟨rfl, others⟩ := utf8EncodeChar_append_inj whole
        exact List.cons_prefix_cons.2 ⟨rfl, ih ⟨rest, others⟩⟩
  · rintro ⟨rest, rfl⟩
    rw [bytes_append]
    exact List.prefix_append _ _

/-- No byte of a character but its first is the first of one. -/
theorem eq_zero_of_lead {w : List UInt8} {o : Nat} (split : String.utf8EncodeChar d = b :: w)
    (here : (String.utf8EncodeChar c)[o]? = some b) : o = 0 := by
  have lead : b.IsUTF8FirstByte := by
    have first := UInt8.isUTF8FirstByte_getElem_zero_utf8EncodeChar (c := d)
    simpa only [split, List.getElem_cons_zero] using first
  obtain ⟨inside, rfl⟩ := List.getElem?_eq_some_iff.1 here
  exact UInt8.isUTF8FirstByte_getElem_utf8EncodeChar.1 lead

/-- Where the bytes of a needle stand, the needle stands: its first byte is the first of a character. -/
theorem Text.exists_of_prefix_drop_bytes {needle t : Text} {o : Nat} (nonempty : needle ≠ [])
    (here : bytes needle <+: (bytes t).drop o) :
    ∃ before after, t = before ++ needle ++ after ∧ o = (bytes before).length := by
  induction t generalizing o with
  | nil =>
    have empty : bytes needle <+: bytes [] := by rwa [bytes_nil, List.drop_nil] at here
    exact absurd (List.prefix_nil.1 (bytes_prefix_iff.1 empty)) nonempty
  | cons c t ih =>
    rw [bytes_cons] at here
    rcases Nat.lt_or_ge o (String.utf8EncodeChar c).length with first | later
    · obtain ⟨d, u, rfl⟩ := List.exists_cons_of_ne_nil nonempty
      obtain ⟨rest, whole⟩ := here
      obtain ⟨b, w, split, -⟩ := exists_utf8EncodeChar_eq_cons d
      have lead := congrArg List.head? whole
      rw [List.head?_drop, List.getElem?_append_left first, bytes_cons, split] at lead
      obtain rfl := eq_zero_of_lead split lead.symm
      have front : bytes (d :: u) <+: bytes (c :: t) := ⟨rest, whole⟩
      obtain ⟨after, same⟩ := bytes_prefix_iff.1 front
      exact ⟨[], after, same.symm, rfl⟩
    · obtain ⟨k, rfl⟩ := Nat.exists_eq_add_of_le later
      rw [List.drop_length_add_append] at here
      obtain ⟨before, after, rfl, rfl⟩ := ih here
      exact ⟨c :: before, after, rfl, by rw [bytes_cons, List.length_append]⟩

/-- Where the byte of an ASCII character stands, the character stands. -/
theorem Text.exists_of_getElem?_bytes {t : Text} {i : Nat} (ascii : c.toNat < 128)
    (here : (bytes t)[i]? = some c.toUInt8) :
    ∃ before rest, t = before ++ c :: rest ∧ i = (bytes before).length := by
  have needle : bytes [c] <+: (bytes t).drop i := by
    rw [bytes_cons_of_ascii ascii]
    exact List.singleton_prefix_iff_head?_eq_some.2 (List.head?_drop.trans here)
  obtain ⟨before, rest, rfl, length⟩ := exists_of_prefix_drop_bytes (List.cons_ne_nil c []) needle
  exact ⟨before, rest, by rw [List.append_assoc, List.singleton_append], length⟩

end

end SourceAudit
