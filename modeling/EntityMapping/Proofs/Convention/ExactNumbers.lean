import EntityMapping.Convention.Standard
import EntityMapping.Proofs.Report
import EntityMapping.Proofs.Text.Ascii
import EntityMapping.Proofs.Text.Blank
import Mathlib

/-! # Integer types of exact numbers

An exact number without a fraction gets the narrowest integer type that has room for every number
of as many digits, however its SQL type is spelled.
-/
namespace EntityMapping
open Text

/-- Every number of so many decimal digits, of either sign, has room in a signed integer of so many
bits. -/
def HoldsDigits (bits digits : Nat) : Prop :=
  ∀ v : Int, v.natAbs < 10 ^ digits → -2 ^ (bits - 1) ≤ v ∧ v ≤ 2 ^ (bits - 1) - 1

variable {bits digits n : Nat}

theorem holdsDigits_iff : HoldsDigits bits digits ↔ 10 ^ digits - 1 ≤ 2 ^ (bits - 1) - 1 := by
  have hten : 0 < 10 ^ digits := by positivity
  have htwo : 0 < 2 ^ (bits - 1) := by positivity
  constructor
  · intro h
    obtain ⟨_, hmax⟩ := h ((10 ^ digits - 1 : Nat) : Int) (by omega)
    zify [Nat.one_le_iff_ne_zero.2 hten.ne', Nat.one_le_iff_ne_zero.2 htwo.ne'] at hmax ⊢
    exact hmax
  · intro h v hv
    have hroom : v.natAbs < 2 ^ (bits - 1) := by omega
    zify at hroom
    constructor
    · linarith [neg_abs_le v]
    · linarith [le_abs_self v]

theorem holdsDigits_iff_le (hlow : 10 ^ n ≤ 2 ^ (bits - 1))
    (hhigh : 2 ^ (bits - 1) < 10 ^ (n + 1)) : HoldsDigits bits digits ↔ digits ≤ n := by
  rw [holdsDigits_iff]
  have hten : 0 < 10 ^ digits := by positivity
  constructor
  · intro h
    by_contra hmore
    have hpow : 10 ^ (n + 1) ≤ 10 ^ digits := Nat.pow_le_pow_right (by omega) (by omega)
    omega
  · intro h
    have hpow : 10 ^ digits ≤ 10 ^ n := Nat.pow_le_pow_right (by omega) h
    omega

theorem holdsDigits_int : HoldsDigits 32 digits ↔ digits ≤ 9 :=
  holdsDigits_iff_le (by norm_num) (by norm_num)

theorem holdsDigits_long : HoldsDigits 64 digits ↔ digits ≤ 18 :=
  holdsDigits_iff_le (by norm_num) (by norm_num)

theorem LogicalType.ofDigits_narrowest (p : Nat) :
    (ofDigits p = "integer" ↔ HoldsDigits 32 p) ∧
    (ofDigits p = "long" ↔ ¬ HoldsDigits 32 p ∧ HoldsDigits 64 p) ∧
    (ofDigits p = "big_integer" ↔ ¬ HoldsDigits 32 p ∧ ¬ HoldsDigits 64 p) := by
  rw [holdsDigits_int, holdsDigits_long, ofDigits]
  split
  · have hp : p ≤ 9 := by omega
    simp [hp]
  · split
    · have hp : 9 < p ∧ p ≤ 18 := by omega
      simp [hp]
    · have hp : 9 < p ∧ 18 < p := by omega
      simp [hp]

theorem Document.truthy_of_number {d : Document} {p : Nat} (h : d.number? = some (p : Int))
    (hp : 1 ≤ p) : d.truthy := by
  cases d with
  | plain v =>
    cases v with
    | int n =>
      have hn : n = p := Option.some.inj h
      simp only [Document.truthy, Scalar.truthy, hn]
      exact decide_eq_true (by omega)
    | bool b =>
      cases b with
      | true => rfl
      | false =>
        have hzero : (0 : Int) = p := Option.some.inj h
        omega
    | null => cases h
    | text s => cases h
  | list ds => cases h
  | record fs => cases h

/-- A spelling of the SQL type of an exact number: one of three words in any case, with blanks
around it, and parameters behind it or none. -/
structure ExactSpelling where
  base : String
  base_mem : base ∈ ["NUMERIC", "DECIMAL", "NUMBER"]
  word : List Char
  word_eq : word.map Char.toUpper = base.toList
  front : List Char
  front_blank : ∀ c ∈ front, isBlank c
  back : List Char
  back_blank : ∀ c ∈ back, isBlank c
  parameters : List Char
  parameters_start : parameters = [] ∨ parameters.head? = some '('

namespace ExactSpelling
variable (s : ExactSpelling)

def text : String := String.ofList (s.front ++ s.word ++ s.back ++ s.parameters)

theorem isExact_base : LogicalType.isExact s.base := decide_eq_true s.base_mem

theorem base_letters : s.base.toList ≠ [] ∧ ∀ x ∈ s.base.toList, x.isAlpha ∧ x ≠ ' ' := by
  have hmem := s.base_mem
  simp only [List.mem_cons, List.not_mem_nil, or_false] at hmem
  rcases hmem with h | h | h <;> simp [h]

theorem word_ne_nil : s.word ≠ [] := fun hnil =>
  s.base_letters.1 (by rw [← s.word_eq, hnil, List.map_nil])

theorem word_letters {x : Char} (hx : x ∈ s.word) : x.isAlpha := by
  rw [← Char.isAlpha_toUpper_eq_isAlpha]
  have hupper : x.toUpper ∈ s.base.toList := s.word_eq ▸ List.mem_map_of_mem hx
  exact (s.base_letters.2 _ hupper).1

theorem takeWhile_text : s.text.toList.takeWhile (· ≠ '(') = s.front ++ s.word ++ s.back := by
  have hinside : ∀ c ∈ s.front ++ s.word ++ s.back, decide (c ≠ '(') := by
    intro c hc
    rw [decide_eq_true_iff]
    rcases List.mem_append.1 hc with hc | hc
    · rcases List.mem_append.1 hc with hc | hc
      · exact ne_paren_of_isBlank (s.front_blank c hc)
      · exact (not_isBlank_of_isAlpha (s.word_letters hc)).2
    · exact ne_paren_of_isBlank (s.back_blank c hc)
  have hrest : s.parameters.takeWhile (· ≠ '(') = [] := by
    rcases s.parameters_start with hnil | hparen
    · rw [hnil, List.takeWhile_nil]
    · obtain ⟨rest, hrest⟩ := List.head?_eq_some_iff.1 hparen
      simp [hrest]
  rw [text, String.toList_ofList, List.takeWhile_append_of_pos hinside, hrest, List.append_nil]

/-- However the type is spelled, its base is the word in capitals. -/
theorem baseType_text : LogicalType.baseType s.text = s.base := by
  have hends : ∀ c ∈ s.word, isBlank c = false := fun c hc =>
    (not_isBlank_of_isAlpha (s.word_letters hc)).1
  have htrim : trimChars (s.front ++ s.word ++ s.back) = s.word :=
    trimChars_padded s.front_blank s.back_blank (fun c hc => hends c (List.mem_of_mem_head? hc))
      (fun c hc => hends c (List.mem_of_mem_getLast? hc)) s.word_ne_nil
  have hascii : IsAscii s.word := fun c hc => toNat_lt_of_isAlpha (s.word_letters hc)
  have hspaces : s.base.toList.map (fun c => if c = ' ' then '_' else c) = s.base.toList :=
    (List.map_congr_left fun c hc => if_neg (s.base_letters.2 c hc).2).trans (List.map_id' _)
  rw [LogicalType.baseType, LogicalType.baseTypeChars, s.takeWhile_text, htrim,
    upperChars_ascii hascii, s.word_eq, hspaces, String.ofList_toList]

theorem text_truthy : (Document.text s.text).truthy := by
  obtain ⟨c, word, hword⟩ := List.exists_cons_of_ne_nil s.word_ne_nil
  simp [Document.truthy, Scalar.truthy, text, hword]

theorem ofColumn_eq {col : Column} {p : Nat} (htype : col.sqlType = .text s.text)
    (hscale : col.scale.number? = some 0) (hprecision : col.precision.number? = some (p : Int))
    (hp : 1 ≤ p) : LogicalType.ofColumn col = .ok (LogicalType.ofDigits p) := by
  have hbase : LogicalType.baseOf col = .ok s.base := by
    rw [LogicalType.baseOf, htype, if_pos s.text_truthy]
    exact congrArg Except.ok s.baseType_text
  have hcounts : LogicalType.countsDigits s.base col := by
    simp [LogicalType.countsDigits, s.isExact_base, hscale, Document.truthy_of_number hprecision hp]
  simp only [LogicalType.ofColumn, hbase, Answer.ok_bind, hcounts, if_true, hprecision]
  rfl

end ExactSpelling

/-- The logical type of an exact number without a fraction is the narrowest integer type in which
every number of as many digits has room. The table and the identifier have no say in it. -/
theorem Convention.standard_narrowest (package : Name) (s : ExactSpelling) {col : Column} {p : Nat}
    (htype : col.sqlType = .text s.text) (hscale : col.scale.number? = some 0)
    (hprecision : col.precision.number? = some (p : Int)) (hp : 1 ≤ p) :
    ∃ type : String,
      (∀ t inId, (standard package).logicalType t col inId = .ok (.text type)) ∧
      (type = "integer" ↔ HoldsDigits 32 p) ∧
      (type = "long" ↔ ¬ HoldsDigits 32 p ∧ HoldsDigits 64 p) ∧
      (type = "big_integer" ↔ ¬ HoldsDigits 32 p ∧ ¬ HoldsDigits 64 p) ∧
      (HoldsDigits 32 p ↔ 10 ^ p - 1 ≤ 2 ^ 31 - 1) ∧
      (HoldsDigits 64 p ↔ 10 ^ p - 1 ≤ 2 ^ 63 - 1) := by
  have hdigits := s.ofColumn_eq htype hscale hprecision hp
  obtain ⟨hint, hlong, hbig⟩ := LogicalType.ofDigits_narrowest p
  refine ⟨LogicalType.ofDigits p, fun t inId => ?_, hint, hlong, hbig, holdsDigits_iff,
    holdsDigits_iff⟩
  simp only [standard, standardWith, hdigits]
  rfl

/-- A spelling with blanks, parameters and small letters. -/
def ExactSpelling.padded : ExactSpelling where
  base := "DECIMAL"
  base_mem := by simp
  word := "Decimal".toList
  word_eq := by decide
  front := [' ', ' ']
  front_blank := List.all_eq_true.1 (by decide)
  back := [' ']
  back_blank := List.all_eq_true.1 (by decide)
  parameters := "(10, 0)".toList
  parameters_start := .inr (by decide)

def Column.price : Column where
  name := "price"
  sqlType := .text ExactSpelling.padded.text
  precision := .plain (.int 10)
  scale := .plain (.int 0)

/-- Ten digits are one too many for the smaller of the two types. -/
theorem Convention.standard_narrowest_price :
    Column.price.sqlType = .text "  Decimal (10, 0)" ∧ Column.price.scale.number? = some 0 ∧
    Column.price.precision.number? = some 10 ∧ ¬ HoldsDigits 32 10 ∧ HoldsDigits 64 10 ∧
    ∀ t inId, (standard .null).logicalType t Column.price inId = .ok (.text "long") := by
  obtain ⟨type, hall, _, hlong, _, hsmall, hlarge⟩ :=
    @standard_narrowest .null .padded Column.price 10 rfl rfl rfl (by norm_num)
  have hnot : ¬ HoldsDigits 32 10 := fun h => absurd (hsmall.1 h) (by norm_num)
  have hholds : HoldsDigits 64 10 := hlarge.2 (by norm_num)
  obtain rfl : type = "long" := hlong.2 ⟨hnot, hholds⟩
  exact ⟨by decide +kernel, rfl, rfl, hnot, hholds, hall⟩

end EntityMapping
