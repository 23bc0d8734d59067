/-
  NoteTape.Proofs.TrackFile.Number

  Numbers are read back as they were written, with anything behind them. A reader
  of variable-length numbers keeps what it has read so far, and each leading byte
  moves that up by seven bits (`readVariableOn_writeVariable`); fixed-size numbers
  are read by weight.
-/

import NoteTape.TrackFile.Writer

namespace NoteTape.TrackFile

/-! ## Variable-length numbers -/

theorem toNat_ofNat_of_lt {n : Nat} (h : n < 256) : (UInt8.ofNat n).toNat = n := by
  rw [UInt8.toNat_ofNat', Nat.mod_eq_of_lt h]

theorem not_ofNat_add_lt (n : Nat) : ¬ UInt8.ofNat (n % 128 + 128) < 0x80 := by
  have hlt : n % 128 < 128 := Nat.mod_lt n (by decide)
  have hbyte : (UInt8.ofNat (n % 128 + 128)).toNat = n % 128 + 128 :=
    toNat_ofNat_of_lt (by omega)
  rw [UInt8.lt_iff_toNat_lt, hbyte]
  show ¬ n % 128 + 128 < 128
  omega

theorem ofNat_mod_lt (n : Nat) : UInt8.ofNat (n % 128) < 0x80 := by
  have hlt : n % 128 < 128 := Nat.mod_lt n (by decide)
  have hbyte : (UInt8.ofNat (n % 128)).toNat = n % 128 := toNat_ofNat_of_lt (by omega)
  rw [UInt8.lt_iff_toNat_lt, hbyte]
  exact hlt

/-- A number written behind `value` is read as the digits of `value` with its own
    behind them. The reader may look at more bytes, but does not. -/
theorem readVariableOn_writeVariable (leading more value n : Nat) (rest : List UInt8) :
    readVariableOn (leading + 1 + more) value (writeVariable leading n ++ rest) =
      (value * variableLimit leading + n % variableLimit leading, rest) := by
  -- On the leading bytes; the value read so far carries what they held.
  induction leading generalizing value with
  | zero =>
    have hlt : n % 128 < 128 := Nat.mod_lt n (by decide)
    have hbyte : (UInt8.ofNat (n % 128)).toNat = n % 128 := toNat_ofNat_of_lt (by omega)
    rw [show 0 + 1 + more = more + 1 by omega]
    simp only [writeVariable, List.singleton_append, readVariableOn, if_pos (ofNat_mod_lt n),
      hbyte, variableLimit, Nat.mod_mod]
  | succ leading ih =>
    have hlt : n / variableLimit leading % 128 < 128 := Nat.mod_lt _ (by decide)
    have hbyte : (UInt8.ofNat (n / variableLimit leading % 128 + 128)).toNat =
        n / variableLimit leading % 128 + 128 := toNat_ofNat_of_lt (by omega)
    have hdigit : (n / variableLimit leading % 128 + 128) % 128 =
        n / variableLimit leading % 128 := by omega
    have hsplit : n % variableLimit (leading + 1) =
        n % variableLimit leading + variableLimit leading * (n / variableLimit leading % 128) := by
      rw [variableLimit, Nat.mul_comm 128, Nat.mod_mul]
    have hsum : (value * 128 + n / variableLimit leading % 128) * variableLimit leading =
        value * variableLimit (leading + 1) +
          variableLimit leading * (n / variableLimit leading % 128) := by
      rw [variableLimit, Nat.add_mul, Nat.mul_assoc, Nat.mul_comm (_ % 128)]
    rw [show leading + 1 + 1 + more = leading + 1 + more + 1 by omega, writeVariable,
      List.cons_append, readVariableOn, if_neg (not_ofNat_add_lt _), hbyte, hdigit, ih, hsplit, hsum,
      Nat.add_right_comm, Nat.add_assoc]

theorem readVariable_writeVariable {leading n : Nat} (fits : variableFits leading n)
    (rest : List UInt8) : readVariable (writeVariable leading n ++ rest) = (n, rest) := by
  obtain ⟨hsize, hlt⟩ := fits
  obtain ⟨more, hmore⟩ : ∃ more, variableSize = leading + 1 + more :=
    Nat.exists_eq_add_of_le hsize
  rw [readVariable, hmore, readVariableOn_writeVariable, Nat.mod_eq_of_lt hlt, Nat.zero_mul,
    Nat.zero_add]

/-! ## Fixed-size numbers -/

theorem bigEndian_pair (a b : UInt8) : bigEndian [a, b] = a.toNat * 256 + b.toNat := by
  simp only [bigEndian, List.foldl_cons, List.foldl_nil, Nat.zero_mul, Nat.zero_add]

theorem bigEndian_write16 {n : Nat} (h : n < UInt16.size) : bigEndian (write16 n) = n := by
  have hsize : UInt16.size = 65536 := rfl
  rw [write16, bigEndian_pair, UInt8.toNat_ofNat', UInt8.toNat_ofNat']
  omega

theorem write16_bigEndian (a b : UInt8) : write16 (bigEndian [a, b]) = [a, b] := by
  have ha := a.toNat_lt
  have hb := b.toNat_lt
  have upper : bigEndian [a, b] / 256 = a.toNat := by
    rw [bigEndian_pair]
    omega
  have lower : UInt8.ofNat (bigEndian [a, b]) = b := by
    rw [← UInt8.toNat_inj, UInt8.toNat_ofNat', bigEndian_pair]
    omega
  rw [write16, upper, lower, UInt8.ofNat_toNat]

theorem bigEndian_pair_lt (a b : UInt8) : bigEndian [a, b] < UInt16.size := by
  have ha := a.toNat_lt
  have hb := b.toNat_lt
  show bigEndian [a, b] < 65536
  rw [bigEndian_pair]
  omega

theorem bigEndian_write32 {n : Nat} (h : n < UInt32.size) : bigEndian (write32 n) = n := by
  have hsize : UInt32.size = 4294967296 := rfl
  have hhigh : bigEndian (write16 (n / 65536)) = n / 65536 :=
    bigEndian_write16 (by show n / 65536 < 65536; omega)
  have hfold : bigEndian (write32 n) =
      (bigEndian (write16 (n / 65536)) * 256 + (UInt8.ofNat (n / 256)).toNat) * 256 +
        (UInt8.ofNat n).toNat := rfl
  rw [hfold, hhigh, UInt8.toNat_ofNat', UInt8.toNat_ofNat']
  omega

end NoteTape.TrackFile
