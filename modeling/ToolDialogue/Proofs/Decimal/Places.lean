import ToolDialogue.Decimal.Layout
import ToolDialogue.Decimal.Reading
import ToolDialogue.Proofs.Decimal.Shortest

namespace ToolDialogue.Decimal

theorem natOf_append (front back : List Char) : natOf (front ++ back) = natOf front * 10^back.length + natOf back := by
  change Nat.ofDigitChars 10 (front ++ back) 0 = _
  rw [Nat.ofDigitChars_append,Nat.ofDigitChars_eq_ofDigitChars_zero,Nat.mul_comm]
  rfl

theorem natOf_digitsOf (n : ℕ) : natOf (digitsOf n) = n := Nat.ofDigitChars_ten_toDigits

theorem natOf_zeros (n : ℕ) : natOf (zeros n) = 0 := Nat.ofDigitChars_replicate_zero.trans (Nat.mul_zero _)

theorem natOf_least {digits : List Char} {k : ℕ} (all : ∀ c ∈ digits, c.isDigit = true)
    (many : k < (digits.dropWhile (· == '0')).length) : 10^k ≤ natOf digits := by
  induction digits with
  | nil => exact absurd many (Nat.not_lt_zero _)
  | cons c rest ih =>
    have split : natOf (c :: rest) = natOf [c] * 10^rest.length + natOf rest := natOf_append [c] rest
    rw [List.dropWhile_cons] at many
    split at many
    · exact (ih (fun c member => all c (List.mem_cons_of_mem _ member)) many).trans (by omega)
    · next nonzero =>
      have counts : 1 ≤ natOf [c] := by
        have digit := all c List.mem_cons_self
        have other : c.toNat ≠ '0'.toNat := fun same => nonzero (beq_iff_eq.mpr (Char.toNat_inj.mp same))
        change 1 ≤ 10*0 + (c.toNat - 48)
        change c.toNat ≠ 48 at other
        have least : 48 ≤ c.toNat := by
          simp only [Char.isDigit,Bool.and_eq_true,decide_eq_true_eq] at digit
          exact digit.1
        omega
      calc 10^k ≤ 1 * 10^rest.length := by
            rw [Nat.one_mul]
            exact Nat.pow_le_pow_right (by decide) (Nat.le_of_lt_succ many)
        _ ≤ natOf [c] * 10^rest.length := Nat.mul_le_mul_right _ counts
        _ ≤ natOf (c :: rest) := by omega

-- Decimal text by its digits in front of the point and behind it. Without a point all of them
-- stand in front.
structure Spelled (text front back : List Char) : Prop where
  filled : front ≠ []
  before : ∀ c ∈ front, c.isDigit = true
  behind : ∀ c ∈ back, c.isDigit = true
  joined : text = front ∧ back = [] ∨ text = front ++ '.' :: back

variable {text front back : List Char}

theorem digit_apart {c : Char} (digit : c.isDigit = true) : (c != '.') = true := by
  rw [bne_iff_ne]
  rintro rfl
  revert digit
  decide

theorem Spelled.unsignedValue_eq (spelled : Spelled text front back) : unsignedValue text =
    if mostDigits < (front.dropWhile (· == '0')).length then 1.0/0.0
    else Float.ofScientific (natOf (front ++ back)) true back.length := by
  have before : ∀ c ∈ front, (c != '.') = true := fun c member => digit_apart (spelled.before c member)
  have behind : ∀ c ∈ back, (c != '.') = true := fun c member => digit_apart (spelled.behind c member)
  obtain ⟨rfl,rfl⟩ | rfl := spelled.joined
  · rw [unsignedValue,List.takeWhile_eq_self_iff.mpr before,List.dropWhile_eq_nil_iff.mpr before,
      List.filter_eq_self.mpr before,List.append_nil]
    rfl
  · have whole : (front ++ '.' :: back).takeWhile (· != '.') = front := by
      rw [List.takeWhile_append_of_pos before]
      simp
    have point : (front ++ '.' :: back).dropWhile (· != '.') = '.' :: back := by
      rw [List.dropWhile_append_of_pos before]
      simp
    have digits : (front ++ '.' :: back).filter (· != '.') = front ++ back := by
      rw [List.filter_append,List.filter_cons_of_neg (by decide),List.filter_eq_self.mpr before,
        List.filter_eq_self.mpr behind]
    rw [unsignedValue,whole,point,digits]
    rfl

theorem digitsOf_digits (n : ℕ) : ∀ c ∈ digitsOf n, c.isDigit = true :=
  fun _ member => Nat.isDigit_of_mem_toDigits (by decide) (by decide) member

theorem zeros_digits (n : ℕ) : ∀ c ∈ zeros n, c.isDigit = true := fun c member => by
  rw [List.eq_of_mem_replicate member]
  decide

theorem digitsOf_spelled (n : ℕ) : Spelled (digitsOf n) (digitsOf n) [] :=
  ⟨Nat.toDigits_ne_nil,digitsOf_digits n,nofun,.inl ⟨rfl,rfl⟩⟩

theorem Scaled.positional_spelled (s : Scaled) : ∃ front back, Spelled (s.positional []) front back ∧
    (natOf (front ++ back) : ℚ)/10^back.length = s.value := by
  have digits := digitsOf_digits s.significand
  have filled : digitsOf s.significand ≠ [] := Nat.toDigits_ne_nil
  have both {front back : List Char} (before : ∀ c ∈ front, c.isDigit = true)
      (behind : ∀ c ∈ back, c.isDigit = true) : ∀ c ∈ front ++ back, c.isDigit = true := fun c member =>
    (List.mem_append.mp member).elim (before c) (behind c)
  have scale := zpow_toNat (show (10 : ℚ) ≠ 0 by norm_num) s.exponent
  unfold Scaled.positional Scaled.value
  dsimp only
  split
  · next whole =>
    refine ⟨digitsOf s.significand ++ zeros s.exponent.toNat,[],
      ⟨by simp [filled],both digits (zeros_digits _),nofun,.inl (by simp)⟩,?_⟩
    have none : (-s.exponent).toNat = 0 := by omega
    rw [none,pow_zero,mul_one] at scale
    rw [List.append_nil,natOf_append,natOf_digitsOf,natOf_zeros,zeros,List.length_replicate,scale]
    simp
  · next fraction =>
    have none : s.exponent.toNat = 0 := by omega
    rw [none,pow_zero] at scale
    split
    · next fewer =>
      refine ⟨_,_,⟨?_,fun c member => digits c (List.mem_of_mem_take member),
        fun c member => digits c (List.mem_of_mem_drop member),.inr rfl⟩,?_⟩
      · rw [Ne,List.take_eq_nil_iff]
        simp only [filled,or_false]
        omega
      have places : (digitsOf s.significand).length - ((digitsOf s.significand).length - (-s.exponent).toNat) =
          (-s.exponent).toNat := by omega
      rw [List.take_append_drop,natOf_digitsOf,List.length_drop,places,div_eq_iff (by positivity),mul_assoc,scale,
        mul_one]
    · next more =>
      refine ⟨['0'],zeros ((-s.exponent).toNat - (digitsOf s.significand).length) ++ digitsOf s.significand,
        ⟨by simp,by simp,both (zeros_digits _) digits,.inr (by simp)⟩,?_⟩
      have places : (-s.exponent).toNat - (digitsOf s.significand).length + (digitsOf s.significand).length =
          (-s.exponent).toNat := by omega
      have value : natOf (['0'] ++ (zeros ((-s.exponent).toNat - (digitsOf s.significand).length) ++
          digitsOf s.significand)) = s.significand := by
        rw [natOf_append,natOf_append,natOf_zeros,natOf_digitsOf]
        change 0 * _ + _ = _
        omega
      rw [value,List.length_append,zeros,List.length_replicate,places,div_eq_iff (by positivity),mul_assoc,scale,
        mul_one]

end ToolDialogue.Decimal
