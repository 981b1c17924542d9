import Mathlib.Algebra.Group.Nat.Defs
import Mathlib.Data.List.Forall2
import Mathlib.Order.Nat

/-! # Decimal fields of a fixed width

Numbers are written with leading zeros, one field behind the other. The fields can be
read back, and texts with the same layout are ordered as the lists of their numbers. -/

namespace StaticLog.Decimal

def digit (number : Nat) : UInt8 := UInt8.ofNat (48 + number % 10)

def isDigit (byte : UInt8) : Bool := decide (48 ≤ byte.toNat ∧ byte.toNat ≤ 57)

/-- The last `width` digits of a number. -/
def fixed : Nat → Nat → List UInt8
  | 0, _ => []
  | width + 1, number => fixed width (number / 10) ++ [digit number]

/-- The number that some digits stand for. -/
def value (digits : List UInt8) : Nat :=
  digits.foldl (fun number byte => number * 10 + (byte.toNat - 48)) 0

theorem digit_toNat (number : Nat) : (digit number).toNat = 48 + number % 10 := by
  rw [digit, UInt8.toNat_ofNat']
  omega

theorem isDigit_digit (number : Nat) : isDigit (digit number) = true := by
  rw [isDigit, digit_toNat, decide_eq_true_eq]
  omega

theorem digit_lt_iff (left right : Nat) :
    digit left < digit right ↔ left % 10 < right % 10 := by
  rw [UInt8.lt_iff_toNat_lt, digit_toNat, digit_toNat, Nat.add_lt_add_iff_left]

@[simp] theorem fixed_length (width number : Nat) :
    (fixed width number).length = width := by
  induction width generalizing number with
  | zero => rfl
  | succ width induction => simp [fixed, induction]

theorem isDigit_of_mem_fixed {width number : Nat} {byte : UInt8}
    (member : byte ∈ fixed width number) : isDigit byte = true := by
  induction width generalizing number with
  | zero => cases member
  | succ width induction =>
      rw [fixed, List.mem_append, List.mem_singleton] at member
      rcases member with member | rfl
      · exact induction member
      · exact isDigit_digit number

theorem fixed_zero (width : Nat) : fixed width 0 = List.replicate width (digit 0) := by
  induction width with
  | zero => rfl
  | succ width induction => rw [fixed, induction, List.replicate_succ']

theorem value_snoc (digits : List UInt8) (number : Nat) :
    value (digits ++ [digit number]) = value digits * 10 + number % 10 := by
  rw [value, List.foldl_append, List.foldl_cons, List.foldl_nil, digit_toNat,
    Nat.add_sub_cancel_left]
  rfl

theorem value_fixed {width number : Nat} (small : number < 10 ^ width) :
    value (fixed width number) = number := by
  induction width generalizing number with
  | zero =>
      rw [Nat.lt_one_iff.mp small]
      rfl
  | succ width induction =>
      have shorter : number / 10 < 10 ^ width := by
        rw [Nat.pow_succ] at small
        exact Nat.div_lt_of_lt_mul (by omega)
      rw [fixed, value_snoc, induction shorter]
      omega

/-! ## The order of texts -/

section Order

variable {Letter : Type u} [LT Letter]

/-- Texts are compared by their first parts as long as these have the same length. -/
theorem append_lt_append_iff {left right leftRest rightRest : List Letter}
    (same : left.length = right.length) :
    left ++ leftRest < right ++ rightRest ↔
      left < right ∨ left = right ∧ leftRest < rightRest := by
  induction left generalizing right with
  | nil =>
      rw [List.eq_nil_of_length_eq_zero same.symm]
      simp
  | cons letter left induction =>
      cases right with
      | nil => cases same
      | cons other right =>
          simp only [List.cons_append, List.cons_lt_cons_iff,
            induction (Nat.succ.inj same), List.cons.injEq]
          tauto

theorem append_left_lt_iff [Std.Irrefl (fun left right : Letter => left < right)]
    (first left right : List Letter) : first ++ left < first ++ right ↔ left < right := by
  rw [append_lt_append_iff rfl]
  simp [List.lt_irrefl first]

end Order

theorem fixed_injective {width left right : Nat} (leftSmall : left < 10 ^ width)
    (rightSmall : right < 10 ^ width) (equal : fixed width left = fixed width right) :
    left = right := by
  rw [← value_fixed leftSmall, equal, value_fixed rightSmall]

theorem fixed_lt_iff {width left right : Nat} (leftSmall : left < 10 ^ width)
    (rightSmall : right < 10 ^ width) :
    fixed width left < fixed width right ↔ left < right := by
  induction width generalizing left right with
  | zero =>
      rw [Nat.lt_one_iff.mp leftSmall, Nat.lt_one_iff.mp rightSmall]
      simp [fixed]
  | succ width induction =>
      rw [Nat.pow_succ] at leftSmall rightSmall
      have leftShort : left / 10 < 10 ^ width := Nat.div_lt_of_lt_mul (by omega)
      have rightShort : right / 10 < 10 ^ width := Nat.div_lt_of_lt_mul (by omega)
      have same : fixed width (left / 10) = fixed width (right / 10) ↔
          left / 10 = right / 10 :=
        ⟨fixed_injective leftShort rightShort, congrArg (fixed width)⟩
      rw [fixed, fixed, append_lt_append_iff (by simp), induction leftShort rightShort,
        same, List.cons_lt_cons_iff, digit_lt_iff]
      simp only [List.lt_irrefl, and_false, or_false]
      omega

/-! ## Records of fields -/

/-- The text in front of a field and the number of its digits. -/
structure Field where
  lead : List UInt8
  width : Nat

/-- The numbers, each behind the text that leads to it. -/
def spell : List Field → List Nat → List UInt8
  | field :: layout, number :: numbers =>
      field.lead ++ (fixed field.width number ++ spell layout numbers)
  | _, _ => []

/-- Each number fits into its field. -/
abbrev Fits (layout : List Field) (numbers : List Nat) : Prop :=
  List.Forall₂ (fun field number => number < 10 ^ field.width) layout numbers

/-- Reads the fields; what stands behind them is returned with their numbers. -/
def parse : List Field → List UInt8 → Option (List Nat × List UInt8)
  | [], text => some ([], text)
  | field :: layout, text =>
      let digits := (text.drop field.lead.length).take field.width
      if field.lead.isPrefixOf text ∧ digits.length = field.width ∧ digits.all isDigit then
        (parse layout ((text.drop field.lead.length).drop field.width)).map
          (fun (numbers, rest) => (value digits :: numbers, rest))
      else none

/-- Where a text must have the letter and where it has a digit. -/
def shape : List Field → List (Option UInt8)
  | [] => []
  | field :: layout =>
      field.lead.map some ++ (List.replicate field.width none ++ shape layout)

/-- A text with digits in the gaps of a shape. -/
abbrev HasShape (shape : List (Option UInt8)) (text : List UInt8) : Prop :=
  List.Forall₂ (fun letter byte => letter = some byte ∨ letter = none ∧ isDigit byte)
    shape text

section Records

variable {layout : List Field} {numbers left right : List Nat}

theorem parse_spell (fits : Fits layout numbers) (rest : List UInt8) :
    parse layout (spell layout numbers ++ rest) = some (numbers, rest) := by
  induction fits with
  | nil => rfl
  | @cons field number layout numbers small _ induction =>
      have digits : (fixed field.width number).all isDigit = true := by
        rw [List.all_eq_true]
        intro byte member
        exact isDigit_of_mem_fixed member
      simp [parse, spell, induction, digits, value_fixed small]

theorem hasShape_lead (lead : List UInt8) : HasShape (lead.map some) lead := by
  rw [HasShape, List.forall₂_map_left_iff, List.forall₂_same]
  exact fun _ _ => .inl rfl

theorem hasShape_digits {digits : List UInt8} (all : ∀ byte ∈ digits, isDigit byte = true) :
    HasShape (List.replicate digits.length none) digits := by
  induction digits with
  | nil => exact .nil
  | cons byte digits induction =>
      rw [List.forall_mem_cons] at all
      exact .cons (.inr ⟨rfl, all.1⟩) (induction all.2)

theorem spell_hasShape (fits : Fits layout numbers) :
    HasShape (shape layout) (spell layout numbers) := by
  induction fits with
  | nil => exact .nil
  | @cons field number layout numbers small _ induction =>
      have all : ∀ byte ∈ fixed field.width number, isDigit byte = true :=
        fun _ member => isDigit_of_mem_fixed member
      have digits := hasShape_digits all
      rw [fixed_length] at digits
      exact List.rel_append (hasShape_lead field.lead) (List.rel_append digits induction)

/-- Records with one layout are ordered as their numbers. -/
theorem spell_lt_iff (leftFits : Fits layout left) (rightFits : Fits layout right)
    (rest : List UInt8) :
    spell layout left ++ rest < spell layout right ++ rest ↔ left < right := by
  induction leftFits generalizing right with
  | nil =>
      cases rightFits
      simp [spell]
  | @cons field number layout left leftSmall _ induction =>
      cases rightFits with
      | @cons _ other _ right rightSmall rightFits =>
          have same : fixed field.width number = fixed field.width other ↔
              number = other :=
            ⟨fixed_injective leftSmall rightSmall, congrArg (fixed field.width)⟩
          simp only [spell, List.append_assoc]
          rw [append_left_lt_iff, append_lt_append_iff (by simp), induction rightFits,
            fixed_lt_iff leftSmall rightSmall, same, List.cons_lt_cons_iff]

end Records

end StaticLog.Decimal
