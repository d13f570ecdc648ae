import GoLayout.File.Utf8

/-! # Encoded texts

    A text is read back from its UTF-8 bytes (`decode_encode`). Between two characters the
    decoder takes the bytes of one character and comes to rest behind it (`read_char`): the lead
    byte promises so many continuation bytes, and the bounds that it sets for the first of them
    hold because a character lies in the range of its length and is no surrogate. -/

namespace GoLayout.Utf8

/-- The bytes of a text. -/
def encode (t : Text) : List UInt8 := t.flatMap String.utf8EncodeChar

namespace Decoder

variable {d : Decoder} {bits second : Nat}

/-! ## Lead bytes -/

/-- What a byte between two characters does, by its number. -/
theorem readFirst_ofNat {n : Nat} (h : n < 256) :
    d.readFirst (UInt8.ofNat n) =
      if n < 0x80 then .ok (d.emit n)
      else if n < 0xc2 then .error ⟨d.position, UInt8.ofNat n, d.position, .invalidStart⟩
      else if n < 0xe0 then .ok (d.lead (UInt8.ofNat n) (n - 0xc0) 1 0x80 0xbf)
      else if n = 0xe0 then .ok (d.lead (UInt8.ofNat n) 0 2 0xa0 0xbf)
      else if n = 0xed then .ok (d.lead (UInt8.ofNat n) 0xd 2 0x80 0x9f)
      else if n < 0xf0 then .ok (d.lead (UInt8.ofNat n) (n - 0xe0) 2 0x80 0xbf)
      else if n = 0xf0 then .ok (d.lead (UInt8.ofNat n) 0 3 0x90 0xbf)
      else if n < 0xf4 then .ok (d.lead (UInt8.ofNat n) (n - 0xf0) 3 0x80 0xbf)
      else if n = 0xf4 then .ok (d.lead (UInt8.ofNat n) 4 3 0x80 0x8f)
      else .error ⟨d.position, UInt8.ofNat n, d.position, .invalidStart⟩ := by
  have hbyte : (UInt8.ofNat n).toNat = n := UInt8.toNat_ofNat_of_lt' h
  simp only [readFirst, UInt8.lt_iff_toNat_lt, ← UInt8.toNat_inj, hbyte, UInt8.reduceToNat]

theorem readFirst_ascii (h : bits < 0x80) :
    d.readFirst (UInt8.ofNat bits) = .ok (d.emit bits) := by
  rw [readFirst_ofNat (by omega), if_pos h]

/-- A lead byte that promises continuation bytes, the first of which may hold some given
    bits. -/
def Leads (d after : Decoder) (code owed second : Nat) : Prop :=
  ∃ byte least largest, after = d.lead byte code owed least largest ∧
    least.toNat ≤ second + 0x80 ∧ second + 0x80 ≤ largest.toNat

theorem leads_lead {byte : UInt8} {code owed : Nat} {least largest : UInt8}
    (h : least.toNat ≤ second + 0x80 ∧ second + 0x80 ≤ largest.toNat) :
    ∃ after, (.ok (d.lead byte code owed least largest) : Except Fault Decoder) = .ok after ∧
      d.Leads after code owed second :=
  ⟨_, rfl, _, _, _, rfl, h⟩

/-- A lead byte of two leaves one byte to come. -/
theorem readFirst_two (hbits : bits < 32) (hlong : 2 ≤ bits) (hsecond : second < 64) :
    ∃ after, d.readFirst (UInt8.ofNat (bits + 0xc0)) = .ok after ∧
      d.Leads after bits 1 second := by
  rw [readFirst_ofNat (by omega), if_neg (by omega), if_neg (by omega), if_pos (by omega),
    Nat.add_sub_cancel]
  exact leads_lead (by simp only [UInt8.reduceToNat]; omega)

/-- A lead byte of three leaves two bytes to come, and admits the second one of any character that
    is neither overlong nor a surrogate. -/
theorem readFirst_three (hbits : bits < 16) (hsecond : second < 64)
    (hlong : bits = 0 → 32 ≤ second) (hsurrogate : bits = 0xd → second < 32) :
    ∃ after, d.readFirst (UInt8.ofNat (bits + 0xe0)) = .ok after ∧
      d.Leads after bits 2 second := by
  rw [readFirst_ofNat (by omega), if_neg (by omega), if_neg (by omega), if_neg (by omega)]
  -- the least lead byte rules out overlong forms, and the one of the surrogates rules these out
  by_cases hfirst : bits = 0
  · have hleast := hlong hfirst
    subst hfirst
    exact leads_lead (by simp only [UInt8.reduceToNat]; omega)
  · by_cases hlast : bits = 0xd
    · have hlargest := hsurrogate hlast
      subst hlast
      exact leads_lead (by simp only [UInt8.reduceToNat]; omega)
    · rw [if_neg (by omega), if_neg (by omega), if_pos (by omega), Nat.add_sub_cancel]
      exact leads_lead (by simp only [UInt8.reduceToNat]; omega)

/-- A lead byte of four leaves three bytes to come, and admits the second one of any character that
    is neither overlong nor beyond Unicode. -/
theorem readFirst_four (hbits : bits ≤ 4) (hsecond : second < 64)
    (hlong : bits = 0 → 16 ≤ second) (hunicode : bits = 4 → second < 16) :
    ∃ after, d.readFirst (UInt8.ofNat (bits + 0xf0)) = .ok after ∧
      d.Leads after bits 3 second := by
  rw [readFirst_ofNat (by omega), if_neg (by omega), if_neg (by omega), if_neg (by omega),
    if_neg (by omega), if_neg (by omega), if_neg (by omega)]
  -- the least lead byte rules out overlong forms, and the largest one what is beyond Unicode
  by_cases hfirst : bits = 0
  · have hleast := hlong hfirst
    subst hfirst
    exact leads_lead (by simp only [UInt8.reduceToNat]; omega)
  · by_cases hlast : bits = 4
    · have hlargest := hunicode hlast
      subst hlast
      exact leads_lead (by simp only [UInt8.reduceToNat]; omega)
    · rw [if_neg (by omega), if_pos (by omega), Nat.add_sub_cancel]
      exact leads_lead (by simp only [UInt8.reduceToNat]; omega)

/-! ## Continuation bytes -/

/-- The continuation byte with six given bits. -/
def tailByte (bits : Nat) : UInt8 := UInt8.ofNat (bits + 0x80)

/-- A code point with the bits of continuation bytes behind it. -/
def codeBehind (code : Nat) (tail : List Nat) : Nat := tail.foldl (fun n bits => n * 64 + bits) code

/-- As many continuation bytes as a character owes complete it. -/
theorem foldlM_tail {tail : List Nat} {p : Partial} {position : Nat} {done : Text}
    (hbits : ∀ bits ∈ tail, bits < 64) (howed : p.owed = tail.length) (hne : tail ≠ [])
    (hnext : ∀ bits, tail.head? = some bits →
      p.least.toNat ≤ bits + 0x80 ∧ bits + 0x80 ≤ p.largest.toNat) :
    (tail.map tailByte).foldlM read ⟨position, done, some p⟩ =
      .ok ⟨position + tail.length, Char.ofNat (codeBehind p.code tail) :: done, none⟩ := by
  induction tail generalizing p position with
  | nil => exact absurd rfl hne
  | cons bits tail ih =>
      have hlt : bits + 0x80 < 256 := by
        have := hbits bits List.mem_cons_self
        omega
      have hbyte : (tailByte bits).toNat = bits + 0x80 := UInt8.toNat_ofNat_of_lt' hlt
      have hrange : p.least ≤ tailByte bits ∧ tailByte bits ≤ p.largest := by
        rw [UInt8.le_iff_toNat_le, UInt8.le_iff_toNat_le, hbyte]
        exact hnext bits rfl
      rw [List.map_cons, List.foldlM_cons]
      show (readNext _ p (tailByte bits) >>= _) = _
      simp only [readNext, if_pos hrange, hbyte, Nat.add_sub_cancel]
      -- the last byte completes the character, any other one leaves one byte less to come
      cases tail with
      | nil =>
          rw [if_pos (by simp [howed])]
          rfl
      | cons next tail =>
          rw [if_neg (by simp [howed])]
          refine (ih (fun b hb => hbits b (List.mem_cons_of_mem _ hb))
            (by simp [howed]) (List.cons_ne_nil _ _) ?_).trans ?_
          · rintro b ⟨⟩
            have := hbits _ (List.mem_cons_of_mem _ List.mem_cons_self)
            simp only [UInt8.reduceToNat]
            omega
          · simp [codeBehind, Nat.add_assoc, Nat.add_comm 1]

/-- A character is read from its lead byte and its continuation bytes. -/
theorem foldlM_lead (second : Nat) (tail : List Nat) {leading : UInt8} {code position : Nat}
    {done : Text}
    (hlead : ∃ after, readFirst ⟨position, done, none⟩ leading = .ok after ∧
      Leads ⟨position, done, none⟩ after code (tail.length + 1) second)
    (hbits : ∀ bits ∈ second :: tail, bits < 64) :
    (leading :: (second :: tail).map tailByte).foldlM read ⟨position, done, none⟩ =
      .ok ⟨position + (tail.length + 2), Char.ofNat (codeBehind code (second :: tail)) :: done,
        none⟩ := by
  obtain ⟨after, hread, byte, least, largest, rfl, hleast, hlargest⟩ := hlead
  -- the lead byte narrows the range of the second one, and the others have the full one
  rw [List.foldlM_cons]
  show (readFirst _ _ >>= _) = _
  rw [hread]
  refine (foldlM_tail hbits rfl (List.cons_ne_nil _ _) ?_).trans ?_
  · rintro bits ⟨⟩
    exact ⟨hleast, hlargest⟩
  · rw [List.length_cons, Nat.add_assoc, Nat.add_comm 1]

/-! ## Characters -/

variable {v position : Nat} {done : Text}

theorem read_two (hlong : 0x80 ≤ v) (hshort : v ≤ 0x7ff) :
    [UInt8.ofNat (v / 64 % 32 + 0xc0), tailByte (v % 64)].foldlM read ⟨position, done, none⟩ =
      .ok ⟨position + 2, Char.ofNat v :: done, none⟩ := by
  have hcode : codeBehind (v / 64 % 32) [v % 64] = v := by
    simp only [codeBehind, List.foldl_cons, List.foldl_nil]
    omega
  rw [← congrArg Char.ofNat hcode]
  refine foldlM_lead (v % 64) [] (readFirst_two (by omega) (by omega) (by omega)) ?_
  exact List.forall_mem_singleton.mpr (by omega)

theorem read_three (hlong : 0x800 ≤ v) (hshort : v ≤ 0xffff)
    (hsurrogate : v < 0xd800 ∨ 0xdfff < v) :
    [UInt8.ofNat (v / 4096 % 16 + 0xe0), tailByte (v / 64 % 64), tailByte (v % 64)].foldlM read
        ⟨position, done, none⟩ =
      .ok ⟨position + 3, Char.ofNat v :: done, none⟩ := by
  have hcode : codeBehind (v / 4096 % 16) [v / 64 % 64, v % 64] = v := by
    simp only [codeBehind, List.foldl_cons, List.foldl_nil]
    omega
  rw [← congrArg Char.ofNat hcode]
  refine foldlM_lead (v / 64 % 64) [v % 64]
    (readFirst_three (by omega) (by omega) (by omega) (by omega)) ?_
  simp only [List.mem_cons, List.not_mem_nil, or_false, forall_eq_or_imp, forall_eq]
  omega

theorem read_four (hlong : 0x10000 ≤ v) (hunicode : v < 0x110000) :
    [UInt8.ofNat (v / 262144 % 8 + 0xf0), tailByte (v / 4096 % 64), tailByte (v / 64 % 64),
        tailByte (v % 64)].foldlM read ⟨position, done, none⟩ =
      .ok ⟨position + 4, Char.ofNat v :: done, none⟩ := by
  have hcode : codeBehind (v / 262144 % 8) [v / 4096 % 64, v / 64 % 64, v % 64] = v := by
    simp only [codeBehind, List.foldl_cons, List.foldl_nil]
    omega
  rw [← congrArg Char.ofNat hcode]
  refine foldlM_lead (v / 4096 % 64) [v / 64 % 64, v % 64]
    (readFirst_four (by omega) (by omega) (by omega) (by omega)) ?_
  simp only [List.mem_cons, List.not_mem_nil, or_false, forall_eq_or_imp, forall_eq]
  omega

/-- The bytes of a character are read as this character. -/
theorem read_char (c : Char) (position : Nat) (done : Text) :
    (String.utf8EncodeChar c).foldlM read ⟨position, done, none⟩ =
      .ok ⟨position + (String.utf8EncodeChar c).length, c :: done, none⟩ := by
  have hchar : Char.ofNat c.val.toNat = c := Char.ofNat_toNat c
  have hvalid : c.val.toNat < 0xd800 ∨ 0xdfff < c.val.toNat ∧ c.val.toNat < 0x110000 := c.valid
  rw [String.utf8EncodeChar]
  generalize c.val.toNat = v at hchar hvalid
  subst hchar
  -- the four lengths of an encoding, by the size of the character
  by_cases hone : v ≤ 0x7f
  · rw [if_pos hone]
    show (readFirst _ _ >>= _) = _
    rw [readFirst_ascii (Nat.lt_succ_of_le hone)]
    rfl
  rw [if_neg hone]
  by_cases htwo : v ≤ 0x7ff
  · rw [if_pos htwo]
    exact read_two (by omega) htwo
  rw [if_neg htwo]
  by_cases hthree : v ≤ 0xffff
  · rw [if_pos hthree]
    exact read_three (by omega) hthree (by omega)
  · rw [if_neg hthree]
    exact read_four (by omega) (by omega)

/-! ## Texts -/

/-- The decoder comes to rest behind every character of a text. -/
theorem read_encode (t : Text) (position : Nat) (done : Text) :
    (encode t).foldlM read ⟨position, done, none⟩ =
      .ok ⟨position + (encode t).length, t.reverse ++ done, none⟩ := by
  induction t generalizing position done with
  | nil => rfl
  | cons c t ih =>
      rw [encode, List.flatMap_cons, List.foldlM_append, read_char, List.length_append,
        ← Nat.add_assoc, List.reverse_cons, List.append_assoc]
      exact ih _ _

end Decoder

/-- A text is read back from its bytes. -/
theorem decode_encode (t : Text) : decode (encode t) = .ok t := by
  rw [decode, Decoder.start, Decoder.read_encode, List.append_nil]
  show Except.ok t.reverse.reverse = _
  rw [List.reverse_reverse]

end GoLayout.Utf8
