import Camber.Lib.Primitive

/-! The bytes a text takes. A text read from bytes encodes to those bytes. -/

namespace Str

theorem encode_append (a z : Text) : encode (a ++ z) = encode a ++ encode z := List.flatMap_append

theorem encode_cons (c : Char) (z : Text) : encode (c :: z) = String.utf8EncodeChar c ++ encode z :=
  List.flatMap_cons

@[simp] theorem byteLength_cons (c : Char) (t : Text) :
    byteLength (c :: t) = c.utf8Size + byteLength t := by
  simp [byteLength, encode]

@[simp] theorem byteLength_append (s t : Text) :
    byteLength (s ++ t) = byteLength s + byteLength t := by
  simp [byteLength, encode]

variable {t : Text} {n : ℕ} {b b0 b1 b2 : UInt8} {c : Char}

theorem byteLength_le_of_sublist {s : Text} (h : s.Sublist t) : byteLength s ≤ byteLength t := by
  induction h with
  | slnil => exact le_rfl
  | cons c _ ih =>
    rw [byteLength_cons]
    omega
  | cons_cons c _ ih =>
    rw [byteLength_cons, byteLength_cons]
    omega

theorem toNat_ofNat (h : n.isValidChar) : (Char.ofNat n).toNat = n := by
  rw [Char.ofNat, dif_pos h]
  rfl

theorem isContinuation_iff : isContinuation b = true ↔ 128 ≤ b.toNat ∧ b.toNat ≤ 191 := by
  simp [isContinuation, UInt8.le_iff_toNat_le]

theorem ofNat_eq_of_toNat (h : n = b.toNat) : UInt8.ofNat n = b := by
  rw [h, UInt8.ofNat_toNat]

theorem utf8EncodeChar_one (h0 : b0 < 0x80) :
    String.utf8EncodeChar (Char.ofNat b0.toNat) = [b0] := by
  have hb : b0.toNat < 128 := UInt8.lt_iff_toNat_lt.mp h0
  have hn := toNat_ofNat (n := b0.toNat) (Or.inl (by omega))
  rw [String.utf8EncodeChar]
  simp only [Char.toNat_val, hn]
  rw [if_pos (by omega), UInt8.ofNat_toNat]

theorem utf8EncodeChar_two (h0 : 0xC2 ≤ b0 ∧ b0 ≤ 0xDF) (h1 : isContinuation b1 = true) :
    String.utf8EncodeChar (Char.ofNat (b0.toNat % 32 * 64 + low b1)) = [b0, b1] := by
  simp only [UInt8.le_iff_toNat_le, UInt8.reduceToNat] at h0
  rw [isContinuation_iff] at h1
  have hlow : low b1 = b1.toNat - 128 := by unfold low; omega
  have hlead : b0.toNat % 32 = b0.toNat - 192 := by omega
  rw [hlow, hlead]
  have hn := toNat_ofNat (n := (b0.toNat - 192) * 64 + (b1.toNat - 128)) (Or.inl (by omega))
  rw [String.utf8EncodeChar]
  simp only [Char.toNat_val, hn]
  rw [if_neg (by omega), if_pos (by omega)]
  rw [ofNat_eq_of_toNat (b := b0) (by omega), ofNat_eq_of_toNat (b := b1) (by omega)]

theorem second_spec (b0 b1 : UInt8) {x lo y hi : UInt8} (hlo : 128 ≤ lo.toNat) (hhi : hi.toNat ≤ 191)
    (hne : x.toNat ≠ y.toNat)
    (h : (if b0 = x then decide (lo ≤ b1) && decide (b1 ≤ 0xBF)
      else if b0 = y then decide (0x80 ≤ b1) && decide (b1 ≤ hi) else isContinuation b1) = true) :
    128 ≤ b1.toNat ∧ b1.toNat ≤ 191 ∧ (b0.toNat = x.toNat → lo.toNat ≤ b1.toNat) ∧
      (b0.toNat = y.toNat → b1.toNat ≤ hi.toNat) := by
  simp only [← UInt8.toNat_inj] at h
  split_ifs at h with hx hy
  · simp only [Bool.and_eq_true, decide_eq_true_eq, UInt8.le_iff_toNat_le, UInt8.reduceToNat] at h
    omega
  · simp only [Bool.and_eq_true, decide_eq_true_eq, UInt8.le_iff_toNat_le, UInt8.reduceToNat] at h
    omega
  · rw [isContinuation_iff] at h
    omega

theorem utf8EncodeChar_three (h0 : 0xE0 ≤ b0 ∧ b0 ≤ 0xEF) (h1 : isSecondOfThree b0 b1 = true)
    (h2 : isContinuation b2 = true) :
    String.utf8EncodeChar (Char.ofNat ((b0.toNat % 16 * 64 + low b1) * 64 + low b2)) =
      [b0, b1, b2] := by
  simp only [UInt8.le_iff_toNat_le, UInt8.reduceToNat] at h0
  obtain ⟨h1, h1', hover, hsurrogate⟩ :=
    second_spec b0 b1 (by decide) (by decide) (by decide) h1
  simp only [UInt8.reduceToNat] at hover hsurrogate
  rw [isContinuation_iff] at h2
  have hlow1 : low b1 = b1.toNat - 128 := by unfold low; omega
  have hlow2 : low b2 = b2.toNat - 128 := by unfold low; omega
  have hlead : b0.toNat % 16 = b0.toNat - 224 := by omega
  rw [hlow1, hlow2, hlead]
  have hn := toNat_ofNat
    (n := ((b0.toNat - 224) * 64 + (b1.toNat - 128)) * 64 + (b2.toNat - 128))
    (by unfold Nat.isValidChar; omega)
  rw [String.utf8EncodeChar]
  simp only [Char.toNat_val, hn]
  rw [if_neg (by omega), if_neg (by omega), if_pos (by omega)]
  rw [ofNat_eq_of_toNat (b := b0) (by omega), ofNat_eq_of_toNat (b := b1) (by omega),
    ofNat_eq_of_toNat (b := b2) (by omega)]

theorem utf8EncodeChar_four {b3 : UInt8} (h0 : 0xF0 ≤ b0 ∧ b0 ≤ 0xF4)
    (h1 : isSecondOfFour b0 b1 = true) (h2 : isContinuation b2 = true)
    (h3 : isContinuation b3 = true) :
    String.utf8EncodeChar
        (Char.ofNat (((b0.toNat % 8 * 64 + low b1) * 64 + low b2) * 64 + low b3)) =
      [b0, b1, b2, b3] := by
  simp only [UInt8.le_iff_toNat_le, UInt8.reduceToNat] at h0
  obtain ⟨h1, h1', hover, hlast⟩ :=
    second_spec b0 b1 (by decide) (by decide) (by decide) h1
  simp only [UInt8.reduceToNat] at hover hlast
  rw [isContinuation_iff] at h2 h3
  have hlow1 : low b1 = b1.toNat - 128 := by unfold low; omega
  have hlow2 : low b2 = b2.toNat - 128 := by unfold low; omega
  have hlow3 : low b3 = b3.toNat - 128 := by unfold low; omega
  have hlead : b0.toNat % 8 = b0.toNat - 240 := by omega
  rw [hlow1, hlow2, hlow3, hlead]
  have hn := toNat_ofNat
    (n := (((b0.toNat - 240) * 64 + (b1.toNat - 128)) * 64 + (b2.toNat - 128)) * 64 +
      (b3.toNat - 128))
    (by unfold Nat.isValidChar; omega)
  rw [String.utf8EncodeChar]
  simp only [Char.toNat_val, hn]
  rw [if_neg (by omega), if_neg (by omega), if_neg (by omega)]
  rw [ofNat_eq_of_toNat (b := b0) (by omega), ofNat_eq_of_toNat (b := b1) (by omega),
    ofNat_eq_of_toNat (b := b2) (by omega), ofNat_eq_of_toNat (b := b3) (by omega)]

theorem decode_cons_ascii (hb : b < 0x80) (rest : Bytes) :
    decode (b :: rest) = (decode rest).map (Char.ofNat b.toNat :: ·) := by
  rw [decode.eq_def]
  exact if_pos hb

/-- Bytes that read as a text are the bytes of that text. -/
theorem encode_of_decode {raw : Bytes} {text : Text} (h : decode raw = some text) :
    encode text = raw := by
  fun_induction decode raw generalizing text with
  | case1 =>
    obtain rfl := Option.some.inj h
    rfl
  | case2 b0 rest hb ih =>
    obtain ⟨tail, htail, rfl⟩ := Option.map_eq_some_iff.mp h
    rw [encode, List.flatMap_cons, utf8EncodeChar_one hb, ← encode, ih htail]
    rfl
  | case3 b0 hb h0 b1 rest h1 ih =>
    obtain ⟨tail, htail, rfl⟩ := Option.map_eq_some_iff.mp h
    rw [encode, List.flatMap_cons, utf8EncodeChar_two h0 h1, ← encode, ih htail]
    rfl
  | case6 b0 hb h0 h0' b1 b2 rest h1 ih =>
    obtain ⟨tail, htail, rfl⟩ := Option.map_eq_some_iff.mp h
    obtain ⟨h1, h2⟩ := Bool.and_eq_true_iff.mp h1
    rw [encode, List.flatMap_cons, utf8EncodeChar_three h0' h1 h2, ← encode, ih htail]
    rfl
  | case9 b0 hb h0 h0' h0'' b1 b2 b3 rest h1 ih =>
    obtain ⟨tail, htail, rfl⟩ := Option.map_eq_some_iff.mp h
    obtain ⟨h12, h3⟩ := Bool.and_eq_true_iff.mp h1
    obtain ⟨h1, h2⟩ := Bool.and_eq_true_iff.mp h12
    rw [encode, List.flatMap_cons, utf8EncodeChar_four h0'' h1 h2 h3, ← encode, ih htail]
    rfl
  | _ => cases h

theorem byteLength_decode {raw : Bytes} {text : Text} (h : decode raw = some text) :
    byteLength text ≤ raw.length := by
  rw [byteLength, encode_of_decode h]

theorem exists_leading_byte (c : Char) :
    ∃ b ∈ String.utf8EncodeChar c, (c.toNat < 128 ∧ b.toNat = c.toNat) ∨ 128 ≤ b.toNat := by
  have hval : c.toNat = c.val.toNat := rfl
  rw [String.utf8EncodeChar, hval]
  split_ifs with h1 h2 h3
  · refine ⟨_, List.mem_cons_self .., .inl ⟨by omega, ?_⟩⟩
    simp
    omega
  all_goals
    refine ⟨_, List.mem_cons_self .., .inr ?_⟩
    simp
    omega

theorem ofNat_of_toNat (h : n = c.toNat) : Char.ofNat n = c := by
  rw [h, Char.ofNat_toNat]

theorem decode_cons_two (h0 : 0xC2 ≤ b0 ∧ b0 ≤ 0xDF) (h1 : isContinuation b1 = true) (rest : Bytes) :
    decode (b0 :: b1 :: rest) =
      (decode rest).map (Char.ofNat (b0.toNat % 32 * 64 + low b1) :: ·) := by
  have hb : ¬ b0 < 0x80 := by
    rw [UInt8.lt_iff_toNat_lt]
    simp only [UInt8.le_iff_toNat_le, UInt8.reduceToNat] at h0 ⊢
    omega
  rw [decode.eq_def]
  dsimp only
  rw [if_neg hb, if_pos h0, if_pos h1]

theorem decode_cons_three (h0 : 0xE0 ≤ b0 ∧ b0 ≤ 0xEF) (h1 : isSecondOfThree b0 b1 = true)
    (h2 : isContinuation b2 = true) (rest : Bytes) :
    decode (b0 :: b1 :: b2 :: rest) =
      (decode rest).map (Char.ofNat ((b0.toNat % 16 * 64 + low b1) * 64 + low b2) :: ·) := by
  have hb : ¬ b0 < 0x80 ∧ ¬ (0xC2 ≤ b0 ∧ b0 ≤ 0xDF) := by
    rw [UInt8.lt_iff_toNat_lt]
    simp only [UInt8.le_iff_toNat_le, UInt8.reduceToNat] at h0 ⊢
    omega
  rw [decode.eq_def]
  dsimp only
  rw [if_neg hb.1, if_neg hb.2, if_pos h0, h1, h2]
  rfl

theorem decode_cons_four {b3 : UInt8} (h0 : 0xF0 ≤ b0 ∧ b0 ≤ 0xF4)
    (h1 : isSecondOfFour b0 b1 = true) (h2 : isContinuation b2 = true)
    (h3 : isContinuation b3 = true) (rest : Bytes) :
    decode (b0 :: b1 :: b2 :: b3 :: rest) =
      (decode rest).map (Char.ofNat
        (((b0.toNat % 8 * 64 + low b1) * 64 + low b2) * 64 + low b3) :: ·) := by
  have hb : ¬ b0 < 0x80 ∧ ¬ (0xC2 ≤ b0 ∧ b0 ≤ 0xDF) ∧ ¬ (0xE0 ≤ b0 ∧ b0 ≤ 0xEF) := by
    rw [UInt8.lt_iff_toNat_lt]
    simp only [UInt8.le_iff_toNat_le, UInt8.reduceToNat] at h0 ⊢
    omega
  rw [decode.eq_def]
  dsimp only
  rw [if_neg hb.1, if_neg hb.2.1, if_neg hb.2.2, if_pos h0, h1, h2, h3]
  rfl

theorem toNat_byte (h : n < 256) : (UInt8.ofNat n).toNat = n := by
  rw [UInt8.toNat_ofNat', Nat.mod_eq_of_lt h]

theorem isContinuation_byte (n : ℕ) : isContinuation (UInt8.ofNat (n % 64 + 128)) = true := by
  rw [isContinuation_iff, toNat_byte (by omega)]
  omega

theorem low_byte (n : ℕ) : low (UInt8.ofNat (n % 64 + 128)) = n % 64 := by
  rw [low, toNat_byte (by omega)]
  omega

theorem second_of_bounds {x lo y hi : UInt8} (hcont : isContinuation b1 = true)
    (hlo : b0.toNat = x.toNat → lo.toNat ≤ b1.toNat)
    (hhi : b0.toNat = y.toNat → b1.toNat ≤ hi.toNat) :
    (if b0 = x then decide (lo ≤ b1) && decide (b1 ≤ 0xBF)
      else if b0 = y then decide (0x80 ≤ b1) && decide (b1 ≤ hi) else isContinuation b1) = true := by
  have hbounds := isContinuation_iff.mp hcont
  simp only [← UInt8.toNat_inj]
  split_ifs with hx hy
  · simp only [Bool.and_eq_true, decide_eq_true_eq, UInt8.le_iff_toNat_le, UInt8.reduceToNat]
    exact ⟨hlo hx, hbounds.2⟩
  · simp only [Bool.and_eq_true, decide_eq_true_eq, UInt8.le_iff_toNat_le, UInt8.reduceToNat]
    exact ⟨hbounds.1, hhi hy⟩
  · exact hcont

theorem decode_utf8EncodeChar (c : Char) (rest : Bytes) :
    decode (String.utf8EncodeChar c ++ rest) = (decode rest).map (c :: ·) := by
  have hvalid : c.toNat < 0xD800 ∨ 0xDFFF < c.toNat ∧ c.toNat < 0x110000 := c.valid
  have hval : c.val.toNat = c.toNat := rfl
  rw [String.utf8EncodeChar]
  simp only [hval]
  split_ifs with h1 h2 h3
  · have hb : (UInt8.ofNat c.toNat).toNat = c.toNat := toNat_byte (by omega)
    rw [List.singleton_append, decode_cons_ascii, ofNat_of_toNat hb]
    rw [UInt8.lt_iff_toNat_lt, hb]
    exact Nat.lt_succ_of_le h1
  · have hb : (UInt8.ofNat (c.toNat / 64 % 32 + 192)).toNat = c.toNat / 64 + 192 := by
      rw [toNat_byte (by omega)]
      omega
    rw [List.cons_append, List.singleton_append, decode_cons_two _ (isContinuation_byte _)]
    · rw [low_byte, hb, ofNat_of_toNat (c := c)]
      omega
    · simp only [UInt8.le_iff_toNat_le, UInt8.reduceToNat, hb]
      omega
  · have hb : (UInt8.ofNat (c.toNat / 4096 % 16 + 224)).toNat = c.toNat / 4096 + 224 := by
      rw [toNat_byte (by omega)]
      omega
    rw [List.cons_append, List.cons_append, List.singleton_append,
      decode_cons_three _ _ (isContinuation_byte _)]
    · rw [low_byte, low_byte, hb, ofNat_of_toNat (c := c)]
      omega
    · simp only [UInt8.le_iff_toNat_le, UInt8.reduceToNat, hb]
      omega
    · apply second_of_bounds (isContinuation_byte _)
      · rw [hb, toNat_byte (by omega)]
        simp only [UInt8.reduceToNat]
        omega
      · rw [hb, toNat_byte (by omega)]
        simp only [UInt8.reduceToNat]
        omega
  · have hb : (UInt8.ofNat (c.toNat / 262144 % 8 + 240)).toNat = c.toNat / 262144 + 240 := by
      rw [toNat_byte (by omega)]
      omega
    rw [List.cons_append, List.cons_append, List.cons_append, List.singleton_append,
      decode_cons_four _ _ (isContinuation_byte _) (isContinuation_byte _)]
    · rw [low_byte, low_byte, low_byte, hb, ofNat_of_toNat (c := c)]
      omega
    · simp only [UInt8.le_iff_toNat_le, UInt8.reduceToNat, hb]
      omega
    · apply second_of_bounds (isContinuation_byte _)
      · rw [hb, toNat_byte (by omega)]
        simp only [UInt8.reduceToNat]
        omega
      · rw [hb, toNat_byte (by omega)]
        simp only [UInt8.reduceToNat]
        omega

/-- A text is read back from its bytes. -/
theorem decode_encode (t : Text) : decode (encode t) = some t := by
  induction t with
  | nil => rfl
  | cons c rest ih =>
    rw [encode, List.flatMap_cons, decode_utf8EncodeChar, ← encode, ih]
    rfl

theorem utf8EncodeChar_of_ascii (hmem : b ∈ String.utf8EncodeChar c) (hb : b < 0x80) :
    String.utf8EncodeChar c = [b] ∧ c = Char.ofNat b.toNat := by
  have hval : c.val.toNat = c.toNat := rfl
  have hlt : b.toNat < 128 := UInt8.lt_iff_toNat_lt.mp hb
  rw [String.utf8EncodeChar] at hmem ⊢
  simp only [hval] at hmem ⊢
  split_ifs at hmem ⊢ with h1 h2 h3
  · obtain rfl : b = UInt8.ofNat c.toNat := List.mem_singleton.mp hmem
    exact ⟨rfl, (ofNat_of_toNat (toNat_byte (by omega))).symm⟩
  all_goals
    -- every byte of a longer form has its high bit set
    exfalso
    simp only [List.mem_cons, List.not_mem_nil, or_false] at hmem
    rcases hmem with rfl | rfl | rfl | rfl <;> rw [toNat_byte (by omega)] at hlt <;> omega

theorem eq_map_of_ascii (h : ∀ b ∈ encode t, b < 0x80) :
    t = (encode t).map fun b => Char.ofNat b.toNat := by
  induction t with
  | nil => rfl
  | cons c rest ih =>
    have hsplit : encode (c :: rest) = String.utf8EncodeChar c ++ encode rest := rfl
    rw [hsplit] at h ⊢
    obtain ⟨b, hmem, _⟩ := exists_leading_byte c
    obtain ⟨hchar, hc⟩ :=
      utf8EncodeChar_of_ascii hmem (h b (List.mem_append_left _ hmem))
    rw [hchar, List.singleton_append, List.map_cons, ← hc]
    rw [← ih fun b hb => h b (List.mem_append_right _ hb)]

/-- An ASCII byte cuts a text in two. -/
theorem encode_split {front back : Bytes} (hb : b < 0x80) (h : encode t = front ++ b :: back) :
    ∃ a z, t = a ++ Char.ofNat b.toNat :: z ∧ encode a = front ∧ encode z = back := by
  induction t generalizing front with
  | nil => simp [encode] at h
  | cons c rest ih =>
    have hsplit : encode (c :: rest) = String.utf8EncodeChar c ++ encode rest := rfl
    rw [hsplit] at h
    rcases List.append_eq_append_iff.mp h with ⟨middle, rfl, hrest⟩ | ⟨middle, hchar, hback⟩
    · -- the character lies before the byte
      obtain ⟨a, z, rfl, rfl, rfl⟩ := ih hrest
      exact ⟨c :: a, z, rfl, rfl, rfl⟩
    · cases middle with
      | nil =>
        rw [List.append_nil] at hchar
        rw [List.nil_append] at hback
        have hhere : encode rest = [] ++ b :: back := hback.symm
        obtain ⟨a, z, rfl, ha, rfl⟩ := ih hhere
        refine ⟨c :: a, z, rfl, ?_, rfl⟩
        rw [← hchar, encode, List.flatMap_cons, ← encode, ha, List.append_nil]
      | cons first middle =>
        -- the byte lies in the character, and is all of it
        rw [List.cons_append] at hback
        obtain ⟨rfl, htail⟩ := List.cons.inj hback
        have hmem : b ∈ String.utf8EncodeChar c := by rw [hchar]; simp
        obtain ⟨hone, hc⟩ := utf8EncodeChar_of_ascii hmem hb
        rw [hone] at hchar
        have hlen := congrArg List.length hchar
        simp only [List.length_cons, List.length_append, List.length_nil] at hlen
        obtain rfl : front = [] := List.eq_nil_of_length_eq_zero (by omega)
        obtain rfl : middle = [] := List.eq_nil_of_length_eq_zero (by omega)
        exact ⟨[], rest, by rw [hc]; rfl, rfl, htail.symm⟩

theorem exists_first_byte (c : Char) :
    ∃ b rest, String.utf8EncodeChar c = b :: rest ∧ isContinuation b = false := by
  have hvalid : c.toNat < 0xD800 ∨ 0xDFFF < c.toNat ∧ c.toNat < 0x110000 := c.valid
  have hval : c.val.toNat = c.toNat := rfl
  rw [String.utf8EncodeChar]
  simp only [hval]
  split_ifs with h1 h2 h3
  all_goals
    refine ⟨_, _, rfl, ?_⟩
    rw [Bool.eq_false_iff, Ne, isContinuation_iff, toNat_byte (by omega)]
    omega

def isCharBoundary (bytes : Bytes) (i : ℕ) : Bool :=
  i == 0 || i == bytes.length || (bytes[i]?).any fun b => !isContinuation b

theorem isCharBoundary_append (a z : Text) :
    isCharBoundary (encode a ++ encode z) (encode a).length = true := by
  cases z with
  | nil => simp [isCharBoundary, encode]
  | cons c rest =>
    obtain ⟨first, tail, hfirst, hlead⟩ := exists_first_byte c
    have hsplit : encode (c :: rest) = first :: (tail ++ encode rest) := by
      rw [encode, List.flatMap_cons, hfirst]
      rfl
    simp [isCharBoundary, hsplit, hlead]

theorem trim_sublist (t : Text) : (trim t).Sublist t := by
  have hend : ∀ s : Text, (trimEnd s).Sublist s := by
    intro s
    have h := (s.reverse.dropWhile_sublist isWhitespace).reverse
    rwa [List.reverse_reverse] at h
  exact (hend _).trans (List.dropWhile_sublist _)

theorem splitOnce_eq_some {a b : Text} (h : splitOnce c t = some (a, b)) : t = a ++ c :: b := by
  induction t generalizing a with
  | nil => cases h
  | cons x xs ih =>
    rw [splitOnce] at h
    split_ifs at h with hx
    · obtain ⟨rfl, rfl⟩ := Prod.mk.inj (Option.some.inj h)
      rw [hx, List.nil_append]
    · obtain ⟨⟨a', b'⟩, hsplit, heq⟩ := Option.map_eq_some_iff.mp h
      obtain ⟨rfl, rfl⟩ := Prod.mk.inj heq
      rw [ih hsplit, List.cons_append]

theorem stripPrefixChar_sublist {r : Text} (h : stripPrefixChar c t = some r) : r.Sublist t := by
  cases t with
  | nil => cases h
  | cons x xs =>
    rw [stripPrefixChar] at h
    split_ifs at h
    obtain rfl := Option.some.inj h
    exact List.sublist_cons_self x xs

theorem stripSuffixChar_sublist {r : Text} (h : stripSuffixChar c t = some r) : r.Sublist t := by
  obtain ⟨s, hs, rfl⟩ := Option.map_eq_some_iff.mp h
  have hrev := (stripPrefixChar_sublist hs).reverse
  rwa [List.reverse_reverse] at hrev

theorem splitCrlf_sublist (t : Text) : (splitCrlf t).flatten.Sublist t := by
  fun_induction splitCrlf t with
  | case1 => exact List.Sublist.refl []
  | case2 rest ih => exact ((ih.cons _).cons _)
  | case3 c rest hnot hpieces ih =>
    simp
  | case4 c rest hnot piece pieces hpieces ih =>
    rw [hpieces] at ih
    exact ih.cons_cons c

def replacement : Char := Char.ofNat 0xFFFD

/-- Reads bytes as UTF-8, with the replacement character for every longest stretch that starts a
character and does not complete it, and for every byte that starts none. -/
def decodeLossy : Bytes → Text
  | [] => []
  | b0 :: rest =>
    if b0 < 0x80 then Char.ofNat b0.toNat :: decodeLossy rest
    else if 0xC2 ≤ b0 ∧ b0 ≤ 0xDF then
      match rest with
      | b1 :: tail =>
        if isContinuation b1 then Char.ofNat (b0.toNat % 32 * 64 + low b1) :: decodeLossy tail
        else replacement :: decodeLossy (b1 :: tail)
      | [] => [replacement]
    else if 0xE0 ≤ b0 ∧ b0 ≤ 0xEF then
      match rest with
      | b1 :: b2 :: tail =>
        if isSecondOfThree b0 b1 then
          if isContinuation b2 then
            Char.ofNat ((b0.toNat % 16 * 64 + low b1) * 64 + low b2) :: decodeLossy tail
          else replacement :: decodeLossy (b2 :: tail)
        else replacement :: decodeLossy (b1 :: b2 :: tail)
      | [b1] => if isSecondOfThree b0 b1 then [replacement] else replacement :: decodeLossy [b1]
      | [] => [replacement]
    else if 0xF0 ≤ b0 ∧ b0 ≤ 0xF4 then
      match rest with
      | b1 :: b2 :: b3 :: tail =>
        if isSecondOfFour b0 b1 then
          if isContinuation b2 then
            if isContinuation b3 then
              Char.ofNat (((b0.toNat % 8 * 64 + low b1) * 64 + low b2) * 64 + low b3) ::
                decodeLossy tail
            else replacement :: decodeLossy (b3 :: tail)
          else replacement :: decodeLossy (b2 :: b3 :: tail)
        else replacement :: decodeLossy (b1 :: b2 :: b3 :: tail)
      | [b1, b2] =>
        if isSecondOfFour b0 b1 then
          if isContinuation b2 then [replacement] else replacement :: decodeLossy [b2]
        else replacement :: decodeLossy [b1, b2]
      | [b1] => if isSecondOfFour b0 b1 then [replacement] else replacement :: decodeLossy [b1]
      | [] => [replacement]
    else replacement :: decodeLossy rest

end Str
