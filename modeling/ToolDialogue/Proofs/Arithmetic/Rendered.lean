import ToolDialogue.Arithmetic.Rendering
import ToolDialogue.Proofs.Arithmetic.Doubles
import ToolDialogue.Proofs.Arithmetic.Grammar
import ToolDialogue.Proofs.Arithmetic.SignedCall
import ToolDialogue.Proofs.Decimal.ReadBack

namespace ToolDialogue.Arithmetic

section Numerals

variable {α : Type} {ops : Numbers α} {text : List Char} {v : α}

theorem byteLength_le (text : List Char) : byteLength text ≤ 4*text.length := by
  have grows (text : List Char) (n : ℕ) : text.foldl (fun n c => n + c.utf8Size) n ≤ n + 4*text.length := by
    induction text generalizing n with
    | nil => exact Nat.le_refl n
    | cons c rest ih =>
      have wide := Char.utf8Size_le_four c
      have more := ih (n + c.utf8Size)
      rw [List.foldl_cons,List.length_cons]
      omega
  have bound := grows text 0
  rwa [Nat.zero_add] at bound

theorem part_unblanked {c : Char} (part : isPart c = true) : Text.isBlank c = false := by
  rcases Bool.or_eq_true_iff.mp part with digit | letter
  · exact Text.digit_unblanked digit
  · simp only [List.contains_eq_mem,decide_eq_true_eq,List.mem_cons,List.not_mem_nil,or_false] at letter
    rcases letter with rfl | rfl | rfl | rfl | rfl | rfl <;> decide

theorem numeral_unblanked (reads : isNumeral text = true) : ∀ c ∈ text, Text.isBlank c = false := by
  obtain ⟨digits,rfl | rfl,-,parts⟩ := numeral_parts reads
  · exact fun c member => part_unblanked (parts c member)
  · intro c member
    rcases List.mem_cons.mp member with rfl | member
    · decide
    · exact part_unblanked (parts c member)

theorem evaluate_plain (reads : Reads ops 0 text v) (filled : text ≠ []) (short : 4*text.length ≤ maxLength)
    (plain : ∀ c ∈ text, Text.isBlank c = false ∧ c ≠ 'p' ∧ c ≠ 'e') (uncalled : Uncalled text)
    (shallow : nesting text ≤ maxNesting) : Arithmetic.evaluate ops (String.ofList text) = .ok v := by
  have whole : compact (String.ofList text) = text := by
    rw [compact,String.toList_ofList,List.filter_eq_self]
    intro c member
    rw [(plain c member).1]
    rfl
  have fits : Fits (String.ofList text) := by
    rw [Fits,whole]
    exact (byteLength_le text).trans short
  rw [evaluate_of_fits (by rwa [whole]) fits,whole,substituteConstants_same fun c member => (plain c member).2]
  exact (evaluatePrepared_uncalled uncalled v).mpr ⟨reads,shallow⟩

theorem enclosed_uncalled (flat : '(' ∉ text) : Uncalled ('(' :: (text ++ [')'])) := by
  rintro function ⟨front,back,whole⟩
  have named : function.letters ≠ [] := by cases function <;> decide
  have later : '(' ∈ text ++ [')'] := by
    cases start : front ++ function.letters with
    | nil => exact absurd (List.append_eq_nil_iff.mp start).2 named
    | cons c rest =>
      rw [← List.append_assoc front,start] at whole
      rw [← (List.cons.inj whole).2]
      simp
  rcases List.mem_append.mp later with inside | closing
  · exact flat inside
  · simp at closing

theorem evaluate_numeral (reads : isNumeral text = true) (short : 4*(text.length + 2) ≤ maxLength) :
    Arithmetic.evaluate ops (String.ofList text) = .ok (ops.value text) ∧
      Arithmetic.evaluate ops (String.ofList ('(' :: (text ++ [')']))) = .ok (ops.value text) := by
  have flat := numeral_unopened reads
  have plain : ∀ c ∈ text, Text.isBlank c = false ∧ c ≠ 'p' ∧ c ≠ 'e' := fun c member => by
    have apart := numeral_apart reads c member
    refine ⟨numeral_unblanked reads c member,?_,?_⟩ <;> rintro rfl <;> simp at apart
  have valued : Reads ops 0 text (ops.value text) := (reads_numeral reads).loosen 3 rfl
  constructor
  · refine evaluate_plain valued (numeral_ne_nil reads) (by omega) plain (uncalled_of_flat flat) ?_
    rw [(numeral_flat reads).nesting_eq]
    exact Nat.zero_le _
  · refine evaluate_plain ((Reads.group valued).loosen 3 rfl) (List.cons_ne_nil _ _) ?_ ?_ (enclosed_uncalled flat) ?_
    · rw [List.length_cons,List.length_append,List.length_singleton]
      exact short
    · intro c member
      rcases List.mem_cons.mp member with rfl | member
      · decide
      rcases List.mem_append.mp member with inside | closing
      · exact plain c inside
      · rw [List.mem_singleton.mp closing]
        decide
    · rw [(numeral_flat reads).enclosed.nesting_eq]
      decide

end Numerals

open Decimal Float.Model Float.Model.UnpackedFloat

variable {x : Float} {negative : Bool} {b : Binary} {text : List Char}

theorem readDouble_decimal (decimal : isDecimal text = true) : readDouble text = unsignedValue text := by
  have other {word : List Char} (letters : isDecimal word = false) : text ≠ word := by
    rintro rfl
    rw [decimal] at letters
    cases letters
  rw [readDouble,if_neg (other (by decide)),if_neg (other (by decide))]

theorem value_signed (read : Double.of x = .finite negative b) (positive : 0 < b.mantissa)
    (decimal : isDecimal text = true)
    (same : unsignedValue text = .ofModel (.pack (.finite .positive b.mantissa b.exponent positive))) :
    doubles.value (signed negative text) = x := by
  obtain ⟨canonical,within⟩ := Double.of_canonical read
  obtain ⟨none,-⟩ | ⟨_,spelled⟩ := Double.of_finite read
  · exact absurd none positive.ne'
  · have finite : x.isFinite = true := by
      change x.toModel.unpack.isFinite = true
      rw [spelled]
      rfl
    have whole := Double.pack_unpack x finite
    have unsigned : doubles.read text = .ofModel (.pack (.finite .positive b.mantissa b.exponent positive)) :=
      (readDouble_decimal decimal).trans same
    rw [spelled] at whole
    cases negative with
    | false =>
      have bare : doubles.value text = doubles.read text := (numeral_of_unsigned (.inl decimal)).2
      exact bare.trans (unsigned.trans whole)
    | true =>
      change Float.neg (doubles.read text) = x
      rw [unsigned,← whole]
      change Float.ofModel (.pack (Float.Model.pack (.finite .positive b.mantissa b.exponent positive)).unpack.neg) = _
      rw [unpack_pack_canonical .positive canonical positive within]
      rfl

theorem isWhole_eq (read : Double.of x = .finite negative b) : isWhole x = b.isWhole := by
  rw [isWhole,read]

theorem nearest?_eq (read : Double.of x = .finite negative b) :
    nearest? x = some (if negative then -(b.nearest : ℤ) else b.nearest) := by
  rw [nearest?,read]

theorem toString_int {n : ℕ} (negative : Bool) (nonzero : 0 < n) :
    toString (if negative then -(n : ℤ) else n) = String.ofList (signed negative (digitsOf n)) := by
  apply String.toList_inj.mp
  rw [String.toList_ofList]
  cases negative with
  | false => exact Nat.toList_repr
  | true =>
    obtain ⟨n,rfl⟩ : ∃ m, n = m+1 := ⟨n-1,by omega⟩
    change ("-" ++ Nat.repr (n+1)).toList = _
    rw [String.toList_append,Nat.toList_repr]
    rfl

theorem beq_zero (read : Double.of x = .finite negative b) : (x == 0.0) = (b.mantissa == 0) := by
  have zero : (0.0 : Float).toModel.unpack = .zero .positive := by rfl
  change x.toModel.unpack.beq (0.0 : Float).toModel.unpack = _
  rw [zero]
  obtain ⟨none,spelled⟩ | ⟨positive,spelled⟩ := Double.of_finite read
  · rw [spelled,none]
    cases negative <;> rfl
  · rw [spelled,beq_false_of_ne positive.ne']
    cases negative <;> rfl

def ReadAs (written : String) (x : Float) : Prop :=
  ∃ text, written = String.ofList text ∧ isNumeral text = true ∧ text.length ≤ longest + 1 ∧ doubles.value text = x

theorem readAs_signed (read : Double.of x = .finite negative b) (positive : 0 < b.mantissa)
    (decimal : isDecimal text = true) (short : text.length ≤ longest)
    (same : unsignedValue text = .ofModel (.pack (.finite .positive b.mantissa b.exponent positive))) :
    ReadAs (String.ofList (signed negative text)) x := by
  refine ⟨_,rfl,isNumeral_signed negative (.inl decimal),?_,value_signed read positive decimal same⟩
  cases negative with
  | false => exact short.trans (Nat.le_succ _)
  | true => exact Nat.succ_le_succ short

-- Both zeros are written without a sign.
theorem readAs_zero (read : Double.of x = .finite negative b) (none : b.mantissa = 0) : ReadAs (decimalText x) 0.0 := by
  have whole : b.isWhole = true := by simp [Binary.isWhole,Binary.ratio,none]
  have nothing : b.nearest = 0 := by
    have value := Binary.nearest_whole whole
    rw [Binary.value_eq_zero.mpr none] at value
    exact_mod_cast value.symm
  refine ⟨['0'],?_,by decide,by decide,rfl⟩
  rw [decimalText,isWhole_eq read,if_pos whole,wholeText,nearest?_eq read,nothing]
  cases negative <;> rfl

theorem readAs_whole (read : Double.of x = .finite negative b) (positive : 0 < b.mantissa) (whole : b.isWhole = true) :
    ReadAs (wholeText x) x := by
  obtain ⟨canonical,within⟩ := Double.of_canonical read
  have value := Binary.nearest_whole whole
  have above : 0 < b.nearest := by
    have product : (0 : ℚ) < b.nearest := by
      rw [← value,Binary.value]
      positivity
    exact_mod_cast product
  have written : wholeText x = String.ofList (signed negative (digitsOf b.nearest)) := by
    rw [wholeText,nearest?_eq read]
    exact toString_int negative above
  rw [written]
  exact readAs_signed read positive (isDecimal_decimal _) (whole_length canonical within value)
    (unsignedValue_whole canonical positive within value)

theorem readAs_shortest (read : Double.of x = .finite negative b) (positive : 0 < b.mantissa) :
    ReadAs (String.ofList (plain.text x)) x := by
  obtain ⟨canonical,within⟩ := Double.of_canonical read
  have written : plain.text x = signed negative ((b.shortest .up).positional []) := by
    rw [Layout.text,read]
    rfl
  rw [written]
  exact readAs_signed read positive (isDecimal_positional _) (shortest_length canonical positive within .up)
    (unsignedValue_shortest canonical positive within .up)

theorem decimalText_readAs (finite : x.isFinite = true) : ReadAs (decimalText x) (if x == 0.0 then 0.0 else x) := by
  obtain ⟨negative,b,read⟩ := Double.of_isFinite finite
  rw [beq_zero read]
  by_cases none : b.mantissa = 0
  · rw [if_pos (beq_iff_eq.mpr none)]
    exact readAs_zero read none
  · have positive : 0 < b.mantissa := Nat.pos_of_ne_zero none
    rw [if_neg (by simpa using none),decimalText,isWhole_eq read]
    split
    · next whole => exact readAs_whole read positive whole
    · exact readAs_shortest read positive

theorem render_finite (finite : x.isFinite = true) (format : ResultFormat) : format.render x = match format with
    | .decimal => decimalText x
    | .scientific => scientificText x
    | .fraction => fractionText x
    | .integer => wholeText x := if_pos finite

-- A result may be typed again, bare or in parentheses, and is worth itself. Those without a
-- fraction are written alike as decimals, as fractions and as whole numbers.
theorem rendered_evaluates (finite : x.isFinite = true) :
    Arithmetic.evaluate doubles (ResultFormat.decimal.render x) = .ok (if x == 0.0 then 0.0 else x) ∧
      Arithmetic.evaluate doubles ("(" ++ ResultFormat.decimal.render x ++ ")") = .ok (if x == 0.0 then 0.0 else x) ∧
        (isWhole x = true → ResultFormat.integer.render x = ResultFormat.decimal.render x ∧
          ResultFormat.fraction.render x = ResultFormat.decimal.render x) := by
  obtain ⟨text,written,reads,short,value⟩ := decimalText_readAs finite
  have count : longest = 1000 := rfl
  have most : maxLength = 100000 := rfl
  obtain ⟨bare,grouped⟩ : Arithmetic.evaluate doubles _ = _ ∧ Arithmetic.evaluate doubles _ = _ :=
    evaluate_numeral reads (by omega)
  rw [value] at bare grouped
  have enclosed : "(" ++ String.ofList text ++ ")" = String.ofList ('(' :: (text ++ [')'])) := by
    apply String.toList_inj.mp
    simp
  refine ⟨?_,?_,fun whole => ?_⟩
  · rw [render_finite finite,written]
    exact bare
  · rw [render_finite finite,written,enclosed]
    exact grouped
  · rw [render_finite finite,render_finite finite,render_finite finite]
    dsimp only
    rw [decimalText,fractionText,if_pos whole,if_pos whole]
    exact ⟨rfl,rfl⟩

theorem rendered_evaluates_edges :
    Arithmetic.evaluate doubles (ResultFormat.decimal.render (-0.1)) = .ok (-0.1) ∧
      Arithmetic.evaluate doubles ("(" ++ ResultFormat.decimal.render (-0.0) ++ ")") = .ok 0.0 ∧
        ResultFormat.fraction.render 1e21 = ResultFormat.decimal.render 1e21 := by
  have nonzero : ((-0.1 : Float) == 0.0) = false := by rfl
  have zero : ((-0.0 : Float) == 0.0) = true := by rfl
  have tenth := (rendered_evaluates (x := -0.1) (by rfl)).1
  have nothing := (rendered_evaluates (x := -0.0) (by rfl)).2.1
  have large := (rendered_evaluates (x := 1e21) (by rfl)).2.2 (by decide +kernel)
  rw [nonzero] at tenth
  rw [zero] at nothing
  exact ⟨tenth,nothing,large.2⟩

end ToolDialogue.Arithmetic
