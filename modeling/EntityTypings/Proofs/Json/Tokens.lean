import EntityTypings.Json.Scan

/-!
# Tokens are read back

What the compact writer writes for a string and for an integer is read back as that string
(`scanString_written`) and that integer (`scanNumber_written`), with whatever stands behind it left unread.
-/

namespace EntityTypings.Json

variable {rest : List Char}

/-! ### Strings -/

theorem hexValue?_digitChar {n : Nat} (bound : n < 16) : hexValue? (Nat.digitChar n) = some n :=
  (by decide : ∀ n < 16, hexValue? (Nat.digitChar n) = some n) n bound

theorem escape_control {c : Char} (control : c.toNat < 0x20) :
    escape ('u' :: '0' :: '0' :: Nat.digitChar (c.toNat / 16) :: Nat.digitChar (c.toNat % 16) :: rest) =
      .ok (c, 5) := by
  have zero : hexValue? '0' = some 0 := rfl
  have high : hexValue? (Nat.digitChar (c.toNat / 16)) = some (c.toNat / 16) := hexValue?_digitChar (by omega)
  have low : hexValue? (Nat.digitChar (c.toNat % 16)) = some (c.toNat % 16) :=
    hexValue?_digitChar (Nat.mod_lt _ (by decide))
  have unit : c.toNat / 16 * 16 + c.toNat % 16 = c.toNat := by omega
  have lowSurrogate : isLowSurrogate c.toNat = false := by
    simp only [isLowSurrogate, Bool.and_eq_false_iff, decide_eq_false_iff_not]
    omega
  have highSurrogate : isHighSurrogate c.toNat = false := by
    simp only [isHighSurrogate, Bool.and_eq_false_iff, decide_eq_false_iff_not]
    omega
  simp [escape, unicodeEscape, codeUnit, fourHex?, zero, high, low, unit, lowSurrogate, highSurrogate,
    Char.ofNat_toNat, bind, Except.bind]

/-- Every character is read back from what is written for it. -/
theorem scanChars_writtenChar (c : Char) (rest : List Char) :
    scanChars 0 (writtenChar c ++ rest) = (scanChars 0 rest).map fun p => (c :: p.1, p.2) := by
  have done {r : Except Stop (Read (List Char))} :
      (r >>= fun p => .ok (c :: p.1, p.2)) = r.map fun p => (c :: p.1, p.2) := by
    cases r <;> rfl
  -- the letters of an escape are passed over one by one, since it has been read as a whole
  have letter (l : Char) (escaped : escapeLetter? l = some c) :
      scanChars 0 ('\\' :: l :: rest) = (scanChars 0 rest).map fun p => (c :: p.1, p.2) := by
    have plain : l ≠ 'u' := by
      rintro rfl
      cases escaped
    have read : escape (l :: rest) = .ok (c, 1) := by simp [escape, escaped]
    rw [scanChars, if_neg (by decide), if_pos rfl, read]
    exact done
  unfold writtenChar
  iterate 7
    split
    next same =>
      subst same
      exact letter _ rfl
  split
  next control =>
    simp only [List.cons_append, List.nil_append]
    rw [scanChars, if_neg (by decide), if_pos rfl, escape_control control]
    exact done
  next quote backslash _ _ _ _ _ visible =>
    rw [List.singleton_append, scanChars, if_neg quote, if_neg backslash, if_neg visible]
    exact done

theorem scanChars_written (s : List Char) (rest : List Char) :
    scanChars 0 (s.flatMap writtenChar ++ '"' :: rest) = .ok (s, rest) := by
  induction s with
  | nil => rfl
  | cons c s ih => rw [List.flatMap_cons, List.append_assoc, scanChars_writtenChar, ih]; rfl

theorem scanString_written (s : String) (rest : List Char) :
    scanString (s.toList.flatMap writtenChar ++ '"' :: rest) = .ok (s, rest) := by
  simp [scanString, scanChars_written, bind, Except.bind]

/-! ### Integers -/

/-- What stands behind a value: nothing, or a mark that goes on with no number. -/
inductive Behind : List Char → Prop where
  | ended : Behind []
  | comma (rest : List Char) : Behind (',' :: rest)
  | bracket (rest : List Char) : Behind (']' :: rest)
  | brace (rest : List Char) : Behind ('\x7d' :: rest)

/-- An integer that fits 64 bits, signed or unsigned. -/
def Number.IsInteger : Number → Prop
  | .int n => -0x8000000000000000 ≤ n ∧ n ≤ 0xffffffffffffffff
  | .float _ => False

theorem le_ofDigitChars (n : Nat) (ds : List Char) : n ≤ Nat.ofDigitChars 10 ds n := by
  induction ds generalizing n with
  | nil => exact Nat.le_refl n
  | cons d ds ih =>
    rw [Nat.ofDigitChars_cons]
    have := ih (10 * n + (d.toNat - '0'.toNat))
    omega

theorem absorb_digits {limit n : Nat} {ds : List Char} (digits : ∀ d ∈ ds, d.isDigit = true)
    (fits : Nat.ofDigitChars 10 ds n ≤ limit) (behind : startsWithDigit rest = false) :
    absorb limit n (ds ++ rest) = (Nat.ofDigitChars 10 ds n, rest) := by
  induction ds generalizing n with
  | nil =>
    cases rest with
    | nil => rfl
    | cons c t =>
      have noDigit : c.isDigit = false := behind
      simp [absorb, noDigit, Nat.ofDigitChars_nil]
  | cons d ds ih =>
    obtain ⟨digit, digits⟩ := List.forall_mem_cons.mp digits
    rw [Nat.ofDigitChars_cons, Nat.mul_comm] at fits ⊢
    have step : n * 10 + digitValue d ≤ limit := Nat.le_trans (le_ofDigitChars _ ds) fits
    rw [List.cons_append, absorb, if_pos ⟨digit, step⟩]
    exact ih digits fits

/-- No integer but zero is written with a leading zero. -/
theorem toDigits_head {n : Nat} (positive : 0 < n) :
    ∃ d ds, Nat.toDigits 10 n = d :: ds ∧ d.isDigit = true ∧ d ≠ '0' := by
  induction n using Nat.strongRecOn with
  | ind n ih =>
    by_cases small : n < 10
    · have checked : ∀ m < 10, 0 < m → (Nat.digitChar m).isDigit = true ∧ Nat.digitChar m ≠ '0' := by decide
      exact ⟨_, [], Nat.toDigits_of_lt_base small, checked n small positive⟩
    · obtain ⟨d, ds, written, head⟩ := ih (n / 10) (by omega) (by omega)
      refine ⟨d, ds ++ [Nat.digitChar (n % 10)], ?_, head⟩
      rw [Nat.toDigits_of_base_le (by decide) (by omega), written, List.cons_append]

theorem Behind.startsWithDigit (behind : Behind rest) : startsWithDigit rest = false := by
  cases behind <;> rfl

theorem Behind.scanAfterInteger (behind : Behind rest) (negative : Bool) (n : Nat) :
    scanAfterInteger negative n rest = .ok (signedInteger negative n, rest) := by
  cases behind <;> rfl

theorem scanUnsigned_digits {n : Nat} (fits : n ≤ maxUnsigned) (behind : Behind rest) (negative : Bool) :
    scanUnsigned negative (Nat.toDigits 10 n ++ rest) = .ok (signedInteger negative n, rest) := by
  rcases Nat.eq_zero_or_pos n with rfl | positive
  · rw [Nat.toDigits_zero, List.singleton_append, scanUnsigned]
    simp [behind.startsWithDigit, behind.scanAfterInteger]
  · obtain ⟨d, ds, written, digit, nonzero⟩ := toDigits_head positive
    have value : Nat.ofDigitChars 10 (d :: ds) 0 = n := by rw [← written, Nat.ofDigitChars_ten_toDigits]
    have digits : ∀ c ∈ d :: ds, c.isDigit = true := by
      rw [← written]
      exact fun c => Nat.isDigit_of_mem_toDigits (by decide) (by decide)
    have bound : Nat.ofDigitChars 10 (d :: ds) 0 ≤ maxUnsigned := by rwa [value]
    have absorbed := absorb_digits digits bound behind.startsWithDigit
    rw [value, List.cons_append] at absorbed
    simp only [written, List.cons_append, scanUnsigned, if_neg nonzero, digit, if_true, absorbed,
      behind.startsWithDigit]
    exact behind.scanAfterInteger negative n

theorem scanNumber_written {n : Number} (integer : n.IsInteger) (behind : Behind rest) :
    scanNumber (n.written ++ rest) = .ok (n, rest) := by
  cases n with
  | float x => exact integer.elim
  | int n =>
    obtain ⟨low, high⟩ := integer
    rw [Number.written, writtenInt]
    by_cases negative : n < 0
    · have magnitude : n.natAbs ≤ 0x8000000000000000 := by omega
      have fits : n.natAbs ≤ maxUnsigned := Nat.le_trans magnitude (by decide)
      have nonzero : n.natAbs ≠ 0 := by omega
      have same : -(n.natAbs : Int) = n := by omega
      have signed : signedInteger true n.natAbs = .int n := by
        rw [signedInteger, if_neg (by decide), if_pos ⟨nonzero, magnitude⟩, same]
      rw [if_pos negative, List.singleton_append, List.cons_append, scanNumber,
        scanUnsigned_digits fits behind, signed]
    · have fits : n.natAbs ≤ maxUnsigned := by
        have : maxUnsigned = 0xffffffffffffffff := rfl
        omega
      have unsigned : scanNumber (Nat.toDigits 10 n.natAbs ++ rest) =
          scanUnsigned false (Nat.toDigits 10 n.natAbs ++ rest) := by
        obtain ⟨d, ds, written⟩ := List.exists_cons_of_ne_nil (Nat.toDigits_ne_nil (n := n.natAbs) (b := 10))
        have digit : d.isDigit = true :=
          Nat.isDigit_of_mem_toDigits (by decide) (by decide) (written ▸ List.mem_cons_self)
        have noSign : d ≠ '-' := by
          rintro rfl
          cases digit
        simp [written, scanNumber, noSign]
      have same : (n.natAbs : Int) = n := by omega
      have signed : signedInteger false n.natAbs = .int n := by rw [signedInteger, if_pos (by decide), same]
      rw [if_neg negative, List.nil_append, unsigned, scanUnsigned_digits fits behind, signed]

end EntityTypings.Json
