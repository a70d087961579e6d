import NamedSql.Proofs.ByteOrder
import NamedSql.Proofs.Parse
import NamedSql.Template.Layout

/-!
# Parts of texts

What the bytes of a text say about its characters. An ASCII character is a byte of its own, and all bytes of any other
character are greater (`isAt_iff`, `isAt_within`), so a run of ASCII characters is a run of bytes (`runEnd_eq`).
Between two bytes at which characters start there is a part of the text, and it consists of the characters between them
(`slice?_eq`).
-/

namespace NamedSql.Text

open Template (width width_cons width_append)

/-! ### Sizes -/

theorem length_flatMap_encode (s : List Char) : (s.flatMap String.utf8EncodeChar).length = width s := by
  simp only [List.length_flatMap, String.length_utf8EncodeChar, width]

theorem size_utf8Encode (s : List Char) : s.utf8Encode.size = width s := by
  rw [List.utf8Encode, List.size_toByteArray, length_flatMap_encode]

theorem utf8ByteSize_eq (s : String) : s.utf8ByteSize = width s.toList := by
  rw [← size_utf8Encode, String.utf8Encode_toList, String.size_toByteArray]

theorem utf8Size_ascii {c : Char} (hc : c.toNat < 128) : c.utf8Size = 1 :=
  Char.utf8Size_eq_one_iff.2 (UInt32.le_iff_toNat_le.2 (Nat.le_of_lt_succ hc))

theorem width_ascii {s : List Char} (h : ∀ c ∈ s, c.toNat < 128) : width s = s.length := by
  induction s with
  | nil => rfl
  | cons c s ih =>
    obtain ⟨hc, hs⟩ := List.forall_mem_cons.1 h
    rw [width_cons, List.length_cons, ih hs, utf8Size_ascii hc, Nat.add_comm]

/-! ### Parts -/

section
variable {s : String} {a b c : List Char}

theorem isValid_width (h : s.toList = a ++ b) : String.Pos.Raw.IsValid s ⟨width a⟩ := by
  have hs : s = String.ofList a ++ String.ofList b := by
    rw [← String.ofList_append, ← h, String.ofList_toList]
  have hwidth : (String.ofList a).utf8ByteSize = width a := by
    rw [utf8ByteSize_eq, String.toList_ofList]
  exact String.Pos.Raw.isValid_iff_exists_append.2 ⟨_, _, hs, congrArg String.Pos.Raw.mk hwidth.symm⟩

/-- Characters that stand in a row are the part between their ends. -/
theorem slice?_eq (h : s.toList = a ++ b ++ c) :
    slice? s (width a) (width a + width b) = some (String.ofList b) := by
  have hfirst : String.Pos.Raw.IsValid s ⟨width a⟩ := isValid_width (h.trans (List.append_assoc a b c))
  have hlast : String.Pos.Raw.IsValid s ⟨width a + width b⟩ := width_append a b ▸ isValid_width h
  have hbytes : s.toByteArray = a.utf8Encode ++ (b.utf8Encode ++ c.utf8Encode) := by
    rw [← String.utf8Encode_toList, h, List.utf8Encode_append, List.utf8Encode_append, ByteArray.append_assoc]
  rw [slice?, dif_pos ⟨Nat.le_add_right _ _, hfirst, hlast⟩, Option.some.injEq, ← String.toByteArray_inj,
    String.toByteArray_extract, String.toByteArray_ofList, hbytes]
  exact (ByteArray.extract_append_size_add' (i := 0) (size_utf8Encode a).symm).trans
    (ByteArray.extract_append_eq_left (size_utf8Encode b).symm)

end

/-! ### Bytes of characters -/

/-- An ASCII character is its own byte. -/
theorem utf8EncodeChar_ascii {c : Char} (hc : c.toNat < 128) : String.utf8EncodeChar c = [c.toUInt8] :=
  String.utf8EncodeChar_eq_singleton (utf8Size_ascii hc)

theorem le_toNat_of_mem_utf8EncodeChar {c : Char} (hc : 128 ≤ c.toNat) {b : UInt8}
    (hb : b ∈ String.utf8EncodeChar c) : 128 ≤ b.toNat := by
  have hcode := code_lt c
  have hlow : ¬ c.val.toNat ≤ 127 := Nat.not_le.2 hc
  unfold String.utf8EncodeChar at hb
  dsimp only at hb
  rw [if_neg hlow] at hb
  split_ifs at hb <;>
    simp only [List.mem_cons, List.not_mem_nil, or_false] at hb <;>
    rcases hb with rfl | rfl | rfl | rfl <;>
    simp only [UInt8.toNat_ofNat'] <;> omega

theorem toNat_toUInt8 {c : Char} (hc : c.toNat < 128) : c.toUInt8.toNat = c.toNat := by
  show c.val.toNat % 256 = c.val.toNat
  exact Nat.mod_eq_of_lt (Nat.lt_trans hc (by decide))

/-- An ASCII character is a byte of itself alone. -/
theorem eq_of_toUInt8_mem_utf8EncodeChar {c d : Char} (hc : c.toNat < 128)
    (h : c.toUInt8 ∈ String.utf8EncodeChar d) : d = c := by
  have hd : d.toNat < 128 := by
    by_contra hd
    have hle := le_toNat_of_mem_utf8EncodeChar (Nat.le_of_not_lt hd) h
    rw [toNat_toUInt8 hc] at hle
    omega
  rw [utf8EncodeChar_ascii hd, List.mem_singleton, ← UInt8.toNat_inj, toNat_toUInt8 hc, toNat_toUInt8 hd] at h
  exact (Char.toNat_inj.1 h).symm

/-! ### Bytes of texts -/

section
variable {s : String} {a b : List Char} {c : Char}

theorem utf8Bytes_append (h : s.toList = a ++ b) (i : Nat) :
    (utf8Bytes s)[width a + i]? = (b.flatMap String.utf8EncodeChar)[i]? := by
  rw [utf8Bytes_eq, h, List.flatMap_append, List.getElem?_append_right (by rw [length_flatMap_encode]; omega),
    length_flatMap_encode, Nat.add_sub_cancel_left]

/-- Within a character stands no other ASCII character. -/
theorem isAt_within {d : Char} (h : s.toList = a ++ d :: b) (hc : c.toNat < 128) (hd : d ≠ c) {i : Nat}
    (hi : i < d.utf8Size) : isAt s (width a + i) c = false := by
  have hi' : i < (String.utf8EncodeChar d).length := by rwa [String.length_utf8EncodeChar]
  rw [isAt, utf8Bytes_append h, List.flatMap_cons, List.getElem?_append_left hi', beq_eq_false_iff_ne]
  intro hbyte
  exact hd (eq_of_toUInt8_mem_utf8EncodeChar hc (List.mem_of_getElem? hbyte))

theorem isAt_iff (h : s.toList = a ++ b) (hc : c.toNat < 128) :
    isAt s (width a) c = true ↔ b.head? = some c := by
  have hbyte : (utf8Bytes s)[width a]? = (b.flatMap String.utf8EncodeChar)[0]? := utf8Bytes_append h 0
  cases b with
  | nil => simp [isAt, hbyte]
  | cons d b =>
    by_cases hd : d = c
    · subst hd
      rw [isAt, hbyte, List.flatMap_cons, utf8EncodeChar_ascii hc]
      simp
    · have hother : isAt s (width a) c = false := isAt_within h hc hd d.utf8Size_pos
      simp [hother, hd]

theorem isAt_eq_true (h : s.toList = a ++ c :: b) (hc : c.toNat < 128) : isAt s (width a) c = true :=
  (isAt_iff h hc).2 rfl

theorem isAt_eq_false (h : s.toList = a ++ b) (hc : c.toNat < 128) (hb : b.head? ≠ some c) :
    isAt s (width a) c = false :=
  Bool.eq_false_iff.2 (mt (isAt_iff h hc).1 hb)

section
variable {d : Char}

theorem toList_snoc (h : s.toList = a ++ c :: b) : s.toList = a ++ [c] ++ b := by
  rw [h, List.append_assoc, List.singleton_append]

theorem width_snoc (a : List Char) (hc : c.toNat < 128) : width (a ++ [c]) = width a + 1 := by
  rw [width_append, width_ascii (List.forall_mem_singleton.2 hc)]
  rfl

theorem isAt_next_eq_true (h : s.toList = a ++ d :: c :: b) (hd : d.toNat < 128) (hc : c.toNat < 128) :
    isAt s (width a + 1) c = true :=
  width_snoc a hd ▸ isAt_eq_true (toList_snoc h) hc

theorem isAt_next_eq_false (h : s.toList = a ++ d :: b) (hd : d.toNat < 128) (hc : c.toNat < 128)
    (hb : b.head? ≠ some c) : isAt s (width a + 1) c = false :=
  width_snoc a hd ▸ isAt_eq_false (toList_snoc h) hc hb

end

/-! ### Runs of ASCII characters -/

theorem toList_run (kind : Char → Bool) (h : s.toList = a ++ b) :
    s.toList = a ++ b.takeWhile kind ++ b.dropWhile kind := by
  rw [List.append_assoc, List.takeWhile_append_dropWhile, h]

theorem width_takeWhile {kind : Char → Bool} (hkind : ∀ c, kind c = true → c.toNat < 128) (b : List Char) :
    width (b.takeWhile kind) = (b.takeWhile kind).length :=
  width_ascii fun c hc => hkind c (List.mem_takeWhile_imp hc)

theorem length_takeWhile_encode {kind : Char → Bool} (hkind : ∀ c, kind c = true → c.toNat < 128) (s : List Char) :
    ((s.flatMap String.utf8EncodeChar).takeWhile fun b => kind (Char.ofUInt8 b)).length =
      (s.takeWhile kind).length := by
  induction s with
  | nil => rfl
  | cons c s ih =>
    rw [List.flatMap_cons]
    by_cases hc : c.toNat < 128
    · have hof : Char.ofUInt8 c.toUInt8 = c := Char.toNat_inj.1 (toNat_toUInt8 hc)
      rw [utf8EncodeChar_ascii hc, List.singleton_append, List.takeWhile_cons, List.takeWhile_cons, hof]
      split
      · rw [List.length_cons, List.length_cons, ih]
      · rfl
    · -- neither the character nor its first byte belongs to the run
      obtain ⟨b, bytes, hbytes⟩ := List.exists_cons_of_ne_nil (String.utf8EncodeChar_ne_nil (c := c))
      have hb : 128 ≤ b.toNat := le_toNat_of_mem_utf8EncodeChar (Nat.le_of_not_lt hc) (by rw [hbytes]; simp)
      have hbyte : ¬ kind (Char.ofUInt8 b) = true := fun h => absurd (hkind _ h) (Nat.not_lt.2 hb)
      rw [hbytes, List.cons_append, List.takeWhile_cons_of_neg (by exact hbyte),
        List.takeWhile_cons_of_neg (mt (hkind c) hc), List.length_nil, List.length_nil]

theorem runEnd_eq {kind : Char → Bool} (hkind : ∀ c, kind c = true → c.toNat < 128) (h : s.toList = a ++ b) :
    runEnd kind s (width a) = width a + (b.takeWhile kind).length := by
  have hdrop : (utf8Bytes s).drop (width a) = b.flatMap String.utf8EncodeChar := by
    rw [utf8Bytes_eq, h, List.flatMap_append, List.drop_left' (length_flatMap_encode a)]
  rw [runEnd, hdrop, length_takeWhile_encode hkind]

end

end NamedSql.Text
