import TapeMachine.Yaml.Lines

/-! Decimal numbers in a document.

The digits of a number are read back as that number, by the readers of words and by a document, where a plain
text of digits could also be a word of its own, a date, or a number in another base. It is none of these: the
digits of a positive number do not begin with a zero, and no date is made of digits alone. -/
namespace TapeMachine

theorem Word.fits_iff {i : Int} :
    fits i = true ↔ -9223372036854775808 ≤ i ∧ i ≤ 9223372036854775807 := decide_eq_true_iff

namespace Text.Decimal

theorem isDigit_of_mem_digits {n : Nat} {c : Char} (h : c ∈ digits n) : c.isDigit = true :=
  Nat.isDigit_of_mem_toDigits (by decide) (by decide) h

theorem digits_ne_nil (n : Nat) : digits n ≠ [] := Nat.toDigits_ne_nil

theorem ofDigitChars_digits (n : Nat) : Nat.ofDigitChars 10 (digits n) 0 = n := Nat.ofDigitChars_ten_toDigits

theorem digits_injective {m n : Nat} (h : digits m = digits n) : m = n := by
  rw [← ofDigitChars_digits m, h, ofDigitChars_digits]

/-- The digits of a positive number do not begin with a zero. -/
theorem head_digits_ne_zero {n : Nat} (hpos : 0 < n) : (digits n).head? ≠ some '0' := by
  induction n using Nat.strongRecOn with
  | ind n ih =>
    by_cases hlt : n < 10
    · rw [digits, Nat.toDigits_of_lt_base hlt, List.head?_cons]
      intro heq
      have := Nat.digitChar_eq_zero.mp (Option.some.inj heq)
      omega
    · have hfront := ih (n / 10) (by omega) (by omega)
      rw [digits, Nat.toDigits_of_base_le (by decide) (by omega), List.head?_append]
      cases hhead : (Nat.toDigits 10 (n / 10)).head? with
      | none => exact absurd (List.head?_eq_none_iff.mp hhead) Nat.toDigits_ne_nil
      | some c =>
        rw [digits, hhead] at hfront
        exact hfront

/-- A word has at most twenty digits. -/
theorem length_digits_le {n : Nat} (h : n ≤ Word.unsignedGreatest) : (digits n).length ≤ 20 :=
  (Nat.length_toDigits_le_iff (by decide) (by decide)).mpr (Nat.lt_of_le_of_lt h (by decide))

/-! ### Signed numbers -/

/-- What a decimal number can be: digits, or a minus sign and digits. -/
theorem signed_cases (i : Int) :
    (i < 0 ∧ signed i = '-' :: digits (-i).toNat) ∨ (0 ≤ i ∧ signed i = digits i.toNat) := by
  unfold signed
  by_cases h : i < 0
  · exact .inl ⟨h, if_pos h⟩
  · exact .inr ⟨Int.not_lt.mp h, if_neg h⟩

theorem signed_natCast (n : Nat) : signed n = digits n := by
  rcases signed_cases n with ⟨h, -⟩ | ⟨-, h⟩
  · omega
  · exact h

/-- Digits begin with a digit. -/
theorem digits_ne_cons (n : Nat) {c : Char} (hc : c.isDigit = false) (rest : List Char) :
    digits n ≠ c :: rest := by
  intro heq
  have hmem : c ∈ digits n := by
    rw [heq]
    exact List.mem_cons_self ..
  rw [isDigit_of_mem_digits hmem] at hc
  cases hc

theorem signed_injective {i j : Int} (h : signed i = signed j) : i = j := by
  rcases signed_cases i with ⟨hi, hsi⟩ | ⟨hi, hsi⟩ <;> rcases signed_cases j with ⟨hj, hsj⟩ | ⟨hj, hsj⟩ <;>
    rw [hsi, hsj] at h
  · have := digits_injective (List.cons.inj h).2
    omega
  · exact absurd h.symm (digits_ne_cons _ (by decide) _)
  · exact absurd h (digits_ne_cons _ (by decide) _)
  · have := digits_injective h
    omega

theorem signed_ne_nil (i : Int) : signed i ≠ [] := by
  rcases signed_cases i with ⟨-, hs⟩ | ⟨-, hs⟩ <;> rw [hs]
  · exact List.cons_ne_nil _ _
  · exact digits_ne_nil _

/-- The characters of a decimal number. -/
theorem mem_signed {i : Int} {c : Char} (h : c ∈ signed i) : c = '-' ∨ c.isDigit = true := by
  rcases signed_cases i with ⟨-, hs⟩ | ⟨-, hs⟩ <;> rw [hs] at h
  · rcases List.mem_cons.mp h with rfl | h
    · exact .inl rfl
    · exact .inr (isDigit_of_mem_digits h)
  · exact .inr (isDigit_of_mem_digits h)

/-- How long a number within the words can be. -/
theorem length_signed_le {i : Int} (hleast : Word.least ≤ i) (hmost : i ≤ Word.unsignedGreatest) :
    (signed i).length ≤ 21 := by
  have hlow : -9223372036854775808 ≤ i := hleast
  have hhigh : i ≤ 18446744073709551615 := hmost
  have hbound (n : Nat) (h : n ≤ 18446744073709551615) : (digits n).length ≤ 20 := length_digits_le h
  rcases signed_cases i with ⟨-, hs⟩ | ⟨-, hs⟩ <;> rw [hs]
  · have := hbound (-i).toNat (by omega)
    rw [List.length_cons]
    omega
  · have := hbound i.toNat (by omega)
    omega

end Text.Decimal

/-! ### Reading numbers -/

namespace Text.Numeral
open Decimal

theorem digit?_digitChar {d : Nat} (h : d < 16) : digit? d.digitChar = some d := by
  have hall : ∀ d < 16, digit? (Nat.digitChar d) = some d := by decide
  exact hall d h

theorem magnitude_append (base : Nat) (underscores : Bool) (value : Nat) (s t : List Char) :
    magnitude base underscores value (s ++ t) =
      magnitude base underscores value s >>= fun value => magnitude base underscores value t := by
  induction s generalizing value with
  | nil => rfl
  | cons c rest ih =>
    simp only [List.cons_append, magnitude]
    split
    · exact ih value
    · split
      · rfl
      · split
        · rfl
        · split
          · rfl
          · exact ih _

/-- A digit that does not leave the range of a word is taken up. -/
theorem magnitude_digitChar {base d value : Nat} (hbase : base ≤ 16) (underscores : Bool) (hd : d < base)
    (hle : value * base + d ≤ Word.unsignedGreatest) (rest : List Char) :
    magnitude base underscores value (d.digitChar :: rest) = magnitude base underscores (value * base + d) rest := by
  have hplain : (d.digitChar == '_') = false := beq_eq_false_iff_ne.mpr (Nat.digitChar_ne '_' (by decide))
  rw [magnitude, hplain, Bool.and_false, if_neg Bool.false_ne_true, digit?_digitChar (Nat.lt_of_lt_of_le hd hbase)]
  simp only
  rw [if_neg (Nat.not_le.mpr hd), if_neg (Nat.not_lt.mpr hle)]

/-- The digits of a word in any base are read back as that word. -/
theorem magnitude_toDigits {base n : Nat} (hbase : 1 < base ∧ base ≤ 16) (underscores : Bool)
    (hle : n ≤ Word.unsignedGreatest) : magnitude base underscores 0 (Nat.toDigits base n) = .ok n := by
  induction n using Nat.base_induction base hbase.1 with
  | single m hm =>
    rw [Nat.toDigits_of_lt_base hm, magnitude_digitChar hbase.2 underscores hm (by omega), magnitude, Nat.zero_mul,
      Nat.zero_add]
  | digit m d hd hm ih =>
    -- The digits before the last one are those of a smaller number.
    have hfront : m ≤ base * m := Nat.le_mul_of_pos_left m (by omega)
    rw [← Nat.toDigits_append_toDigits hbase.1 hm hd, magnitude_append, ih (by omega), Nat.toDigits_of_lt_base hd]
    show magnitude base underscores m [d.digitChar] = .ok (base * m + d)
    rw [Nat.mul_comm base m] at hle ⊢
    rw [magnitude_digitChar hbase.2 underscores hd hle, magnitude]

/-- The digits of a number have no mark of a base. -/
theorem split_digits {n : Nat} (hpos : 0 < n) : split (digits n) = (10, digits n) := by
  have hhead := head_digits_ne_zero hpos
  unfold split
  split
  · next h => rw [h] at hhead; exact absurd rfl hhead
  · next h => rw [h] at hhead; exact absurd rfl hhead
  · rfl

theorem unsignedFree_digits {n : Nat} (hle : n ≤ Word.unsignedGreatest) : unsignedFree (digits n) = .ok n := by
  have hempty : (digits n).isEmpty = false := by simp [digits_ne_nil]
  have hplain : (digits n).contains '_' = false := by
    rw [List.contains_eq_mem, decide_eq_false_iff_not]
    intro hmem
    cases isDigit_of_mem_digits hmem
  by_cases hpos : 0 < n
  · have hread : magnitude 10 true 0 (digits n) = .ok n := magnitude_toDigits (by decide) true hle
    simp only [unsignedFree, hempty, split_digits hpos, hread, hplain, Bool.false_and, Bool.false_eq_true,
      if_false]
  · obtain rfl : n = 0 := by omega
    rfl

theorem unsigned_digits {n : Nat} (hle : n ≤ Word.unsignedGreatest) : unsigned (digits n) = .ok n := by
  have hempty : (digits n).isEmpty = false := by simp [digits_ne_nil]
  rw [unsigned, hempty, if_neg Bool.false_ne_true]
  exact magnitude_toDigits (by decide) false hle

/-- A number without a sign is read without one. -/
theorem signedBy_digits (read : List Char → Except Problem Nat) (n : Nat) :
    signedBy read (digits n) = read (digits n) >>= withSign false := by
  unfold signedBy
  split
  · next h => exact absurd h (digits_ne_cons n (by decide) _)
  · next h => exact absurd h (digits_ne_cons n (by decide) _)
  · rfl

theorem withSign_of_fits {negative : Bool} {n : Nat} {i : Int}
    (hi : (if negative then -(n : Int) else n) = i) (h : Word.fits i = true) :
    withSign negative n = .ok i := by
  simp only [withSign, hi, h, if_true]

/-- A signed word is read back. -/
theorem free_signed {i : Int} (h : Word.fits i = true) : free (signed i) = .ok i := by
  have hbounds := Word.fits_iff.mp h
  rcases signed_cases i with ⟨hi, hs⟩ | ⟨hi, hs⟩
  · have hread : unsignedFree (digits (-i).toNat) = .ok (-i).toNat :=
      unsignedFree_digits (by simp only [Word.unsignedGreatest]; omega)
    rw [hs]
    simp only [free, signedBy, hread]
    exact withSign_of_fits (by rw [if_pos rfl]; omega) h
  · have hread : unsignedFree (digits i.toNat) = .ok i.toNat :=
      unsignedFree_digits (by simp only [Word.unsignedGreatest]; omega)
    rw [hs, free, signedBy_digits, hread]
    exact withSign_of_fits (by rw [if_neg (by decide)]; omega) h

end Text.Numeral

/-! ### Numbers as plain scalars -/

namespace Yaml
open Text.Decimal Text.Numeral

/-- No date is made of digits alone, or begins with a sign. -/
theorem parse?_signed (i : Int) : Time.parse? (signed i) = none := by
  have hdate : Time.takeDate? (signed i) = none := by
    unfold Time.takeDate?
    rcases signed_cases i with ⟨-, hs⟩ | ⟨-, hs⟩
    · rw [hs, List.takeWhile_cons_of_neg (by decide)]
      rfl
    · have hall : (digits i.toNat ++ []).takeWhile Char.isDigit = digits i.toNat ++ [].takeWhile Char.isDigit :=
        List.takeWhile_append_of_pos fun c hc => isDigit_of_mem_digits hc
      rw [List.append_nil, List.takeWhile_nil, List.append_nil] at hall
      rw [hs, hall]
      by_cases hlen : (digits i.toNat).length = 4
      · have hend : (digits i.toNat).drop 4 = [] := List.drop_eq_nil_of_le (by omega)
        simp [hlen, hend, Time.after?]
      · simp [hlen]
  rw [Time.parse?, hdate]
  rfl

namespace Scalar

theorem number?_signed {i : Int} (hleast : Word.least ≤ i) (hmost : i ≤ Word.unsignedGreatest) :
    number? (signed i) = some (.integer i) := by
  have hplain : (signed i).filter (· != '_') = signed i := by
    refine List.filter_eq_self.mpr fun c hc => ?_
    rcases mem_signed hc with rfl | hdigit
    · rfl
    · refine bne_iff_ne.mpr ?_
      rintro rfl
      cases hdigit
  simp only [number?, hplain]
  by_cases hfits : Word.fits i = true
  · rw [free_signed hfits]
    rfl
  · -- Above the signed words the number has no sign, and is read as an unsigned one.
    have hbeyond : Word.greatest < i := by
      simp only [Word.fits, decide_eq_true_eq, not_and, Int.not_le] at hfits
      exact hfits hleast
    have hpos : 0 ≤ i := by
      simp only [Word.greatest] at hbeyond
      omega
    obtain ⟨n, rfl⟩ := Int.eq_ofNat_of_zero_le hpos
    have hread : unsignedFree (digits n) = .ok n := unsignedFree_digits (Int.ofNat_le.mp hmost)
    have hfree : free (digits n) = .error .outOfRange := by
      rw [free, signedBy_digits, hread]
      exact if_neg hfits
    rw [signed_natCast, hfree, unsigned?, hread]
    rfl

/-- No word with a meaning of its own is a number. -/
theorem lookup_words_signed (i : Int) : words.lookup (String.ofList (signed i)) = none := by
  have hwords : words.all (fun word => word.1.toList.isEmpty || word.1.toList.any fun c => c != '-' && !c.isDigit) :=
    by decide
  refine List.lookup_eq_none_iff.mpr fun word hword => bne_iff_ne.mpr fun heq => ?_
  have hlist : word.1.toList = signed i := by rw [← heq, String.toList_ofList]
  have hword := List.all_eq_true.mp hwords word hword
  rw [hlist, Bool.or_eq_true, List.isEmpty_iff, List.any_eq_true] at hword
  rcases hword with hnil | ⟨c, hc, hother⟩
  · exact signed_ne_nil i hnil
  · rw [Bool.and_eq_true, bne_iff_ne, Bool.not_eq_true'] at hother
    rcases mem_signed hc with hminus | hdigit
    · exact hother.1 hminus
    · cases hdigit.symm.trans hother.2

/-- A number in decimal digits means that number. -/
theorem meaning_signed (times : Bool) {i : Int} (hleast : Word.least ≤ i) (hmost : i ≤ Word.unsignedGreatest) :
    meaning times (String.ofList (signed i)) = .integer i := by
  have hdate : (if times then Time.parse? (signed i) else none) = none := by
    rw [parse?_signed]
    cases times <;> rfl
  have hnumber := number?_signed hleast hmost
  simp only [meaning, lookup_words_signed, String.toList_ofList]
  cases hs : signed i with
  | nil => exact absurd hs (signed_ne_nil i)
  | cons c rest =>
    rw [hs] at hdate hnumber
    have hc : c = '-' ∨ c.isDigit = true := mem_signed (by rw [hs]; exact List.mem_cons_self ..)
    have hpoint : (c == '.') = false := by
      rcases hc with rfl | hdigit
      · rfl
      · refine beq_eq_false_iff_ne.mpr ?_
        rintro rfl
        cases hdigit
    have hnumeric : (c.isDigit || c == '+' || c == '-') = true := by
      rcases hc with rfl | hdigit
      · rfl
      · simp [hdigit]
    simp only [hpoint, hnumeric, hdate, hnumber, if_true]
    rfl

end Scalar

/-- A number in decimal digits stands plain. -/
theorem Node.plain_signed (line : Nat) {i : Int} (hleast : Word.least ≤ i) (hmost : i ≤ Word.unsignedGreatest) :
    Node.plain line (String.ofList (signed i)) = .scalar line "!!int" (String.ofList (signed i)) := by
  have hmerge : String.ofList (signed i) ≠ "<<" := by
    intro heq
    have hlist : signed i = "<<".toList := by rw [← heq, String.toList_ofList]
    have hmem : '<' ∈ signed i := by
      rw [hlist]
      decide
    rcases mem_signed hmem with h | h <;> cases h
  rw [Node.plain, if_neg hmerge, Scalar.resolve, Scalar.meaning_signed true hleast hmost]
  rfl

theorem Lines.isWord_signed (i : Int) : Lines.isWord (signed i) = true := by
  have hdigits (n : Nat) : (!(digits n).isEmpty && (digits n).all Char.isAlphanum) = true := by
    have hall : (digits n).all Char.isAlphanum = true := by
      refine List.all_eq_true.mpr fun c hc => ?_
      simp [Char.isAlphanum, isDigit_of_mem_digits hc]
    simp [hall, digits_ne_nil]
  rcases signed_cases i with ⟨-, hs⟩ | ⟨-, hs⟩ <;> rw [hs]
  · exact hdigits _
  · unfold Lines.isWord
    split
    · next h => exact absurd h (digits_ne_cons _ (by decide) _)
    · exact hdigits _

end Yaml
end TapeMachine
