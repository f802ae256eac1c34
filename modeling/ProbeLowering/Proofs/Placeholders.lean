import Mathlib.Data.Nat.Digits.Defs
import Mathlib.Tactic.Ring
import ProbeLowering.Proofs.FieldLookups
import ProbeLowering.Proofs.FirstFailure

/-!
# Result placeholders

The text before the first dot of a result expression decides what the expression is.  If
it is a dollar sign and decimal digits of a small enough value, then it stands for the
result of this index, and a plus sign before the digits makes no difference.  Every other
text is refused before anything is declared (`return_roots`).
-/

namespace ProbeLowering

open DebugInfo

def decimalValue (digits : List Char) : Nat :=
  Nat.ofDigits 10 (digits.reverse.map fun d => d.toNat - '0'.toNat)

theorem decimalValue_cons (d : Char) (digits : List Char) :
    decimalValue (d :: digits) =
      (d.toNat - '0'.toNat) * 10 ^ digits.length + decimalValue digits := by
  rw [decimalValue, List.reverse_cons, List.map_append, Nat.ofDigits_append, List.length_map,
    List.length_reverse, List.map_singleton, Nat.ofDigits_singleton, decimalValue]
  ring

/-- A number that fits 32 bits, in decimal digits; zeros may stand before it. -/
structure IsIndex (digits : List Char) (index : Nat) : Prop where
  ne_nil : digits ≠ []
  digit : ∀ d ∈ digits, '0' ≤ d ∧ d ≤ '9'
  value : index = decimalValue digits
  fits : index < 2 ^ 32

namespace Expression

theorem foldlM_digits {digits : List Char} {start value : Nat} :
    digits.foldlM (fun value d =>
        if d.isDigit then some (value * 10 + (d.toNat - '0'.toNat)) else none) start =
      some value ↔
    (∀ d ∈ digits, d.isDigit) ∧ value = start * 10 ^ digits.length + decimalValue digits := by
  induction digits generalizing start with
  | nil =>
      rw [List.foldlM_nil, Option.pure_def, Option.some_inj]
      simpa [decimalValue] using eq_comm
  | cons d digits ih =>
      rw [List.foldlM_cons, List.forall_mem_cons]
      by_cases hd : d.isDigit
      · have hvalue : (start * 10 + (d.toNat - '0'.toNat)) * 10 ^ digits.length +
            decimalValue digits =
            start * 10 ^ (d :: digits).length + decimalValue (d :: digits) := by
          rw [decimalValue_cons, List.length_cons]
          ring
        rw [if_pos hd, Option.bind_eq_bind, Option.bind_some, ih, hvalue]
        simp only [hd, true_and]
      · simp [hd]

theorem filter_decimalValue? {digits : List Char} {index : Nat} :
    (decimalValue? digits).filter (· ≤ maxReturnIndex) = some index ↔
      IsIndex digits index := by
  have hdigit : ∀ d : Char, d.isDigit ↔ '0' ≤ d ∧ d ≤ '9' := by
    intro d
    simp [Char.isDigit, Char.le_def]
  have hfits : index ≤ maxReturnIndex ↔ index < 2 ^ 32 := by
    unfold maxReturnIndex
    omega
  rw [Option.filter_eq_some_iff, decimalValue?, decide_eq_true_iff, hfits]
  cases digits with
  | nil =>
      simp only [List.isEmpty_nil, if_true, reduceCtorEq, false_and, false_iff]
      exact fun h => h.ne_nil rfl
  | cons d digits =>
      rw [List.isEmpty_cons, if_neg Bool.false_ne_true, foldlM_digits, Nat.zero_mul,
        Nat.zero_add]
      constructor
      · rintro ⟨⟨hdigits, hvalue⟩, hindex⟩
        exact ⟨by simp, fun d hd => (hdigit d).mp (hdigits d hd), hvalue, hindex⟩
      · intro h
        exact ⟨⟨fun d hd => (hdigit d).mpr (h.digit d hd), h.value⟩, h.fits⟩

end Expression

def rootText (text : String) : String :=
  String.ofList (text.toList.takeWhile (· ≠ '.'))

theorem head?_splitOn (mark : Char) (cs : List Char) :
    (cs.splitOn mark).head? = some (cs.takeWhile (· ≠ mark)) := by
  induction cs with
  | nil => rfl
  | cons c rest ih =>
      rw [List.splitOn_cons_eq_if_modifyHead]
      by_cases hc : c = mark <;> simp [hc, ih]

theorem Expression.parse?_of_ne {text : String} (h : text ≠ "") :
    ∃ fields, Expression.parse? text = some ⟨rootText text, fields⟩ := by
  obtain ⟨fields, hpieces⟩ := List.head?_eq_some_iff.mp (head?_splitOn '.' text.toList)
  exact ⟨fields.map String.ofList, by simp [parse?, h, rootText, Text.pieces, hpieces]⟩

/-- The root is a dollar sign, the sign and the index in decimal digits. -/
def StandsFor (root : String) (sign : List Char) (index : Nat) : Prop :=
  ∃ digits, root.toList = '$' :: (sign ++ digits) ∧ IsIndex digits index

theorem Expression.returnIndex?_eq_some_iff {root : String} {index : Nat} :
    Expression.returnIndex? root = some index ↔
      StandsFor root [] index ∨ StandsFor root ['+'] index := by
  have hplus : ∀ digits, ¬ IsIndex ('+' :: digits) index := by
    intro digits h
    exact absurd (h.digit '+' List.mem_cons_self) (by decide)
  unfold returnIndex? StandsFor
  split
  next digits hroot =>
    rw [filter_decimalValue?]
    simp [hroot, hplus]
  next digits hsign hroot =>
    have hunsigned : ∀ rest, digits ≠ '+' :: rest := by
      rintro rest rfl
      exact hsign rest rfl
    rw [filter_decimalValue?]
    simp [hroot, hunsigned]
  next hsign hdigits =>
    have hother : ∀ digits, root.toList ≠ '$' :: digits := fun digits h => hdigits digits h
    simp [hother]

def Setting.lowerResult (setting : Setting) (id : String) (index : Nat)
    (fields : List String) : Step Scope Unit :=
  match setting.language with
  | .go => do
      let info ← setting.argInfo (goReturnSlot index)
      lowerAccessChain setting id (.stack info) fields
  | .c | .cpp =>
      if index = 0 then lowerRegisterReturn setting id fields
      else throw (.unsupportedReturnIndex setting.language index)
  | .unknown => throw (.unsupportedReturnLanguage .unknown)

theorem lowerReturnValue_eq {setting : Setting} {value : Logical.ReturnValue}
    {expr : Expression} (h : Expression.parse? value.expr = some expr) :
    lowerReturnValue setting value =
      match Expression.returnIndex? expr.root with
      | some index => setting.lowerResult value.id index expr.fields
      | none => throw (.invalidReturnExpression value.expr) := by
  simp only [lowerReturnValue, h, Setting.lowerResult]
  cases Expression.returnIndex? expr.root with
  | none => rfl
  | some index => cases setting.language <;> rfl

theorem Setting.raises_lowerResult (setting : Setting) (id : String) (index : Nat)
    (fields : List String) :
    Step.Raises LowerError.AcceptsRoot (setting.lowerResult id index fields) := by
  unfold lowerResult
  split
  next =>
    exact (setting.raises_argInfo _).acceptsRoot.bind fun _ => raises_lowerAccessChain _ _ _ _
  next => exact (raises_lowerRegisterReturn _ _ _).ite (.throw trivial)
  next => exact (raises_lowerRegisterReturn _ _ _).ite (.throw trivial)
  next => exact .throw trivial

/--
A result whose root is a dollar sign and the digits of an index, with or without a plus
sign before them, is lowered as the result of this index.  Every other text is refused as
it stands, and nothing is declared.
-/
theorem return_roots (setting : Setting) (value : Logical.ReturnValue)
    (hexpr : value.expr ≠ "") :
    ∃ fields, Expression.parse? value.expr = some ⟨rootText value.expr, fields⟩ ∧
      (∀ index, StandsFor (rootText value.expr) [] index ∨
          StandsFor (rootText value.expr) ['+'] index →
        lowerReturnValue setting value = setting.lowerResult value.id index fields ∧
          Step.Raises LowerError.AcceptsRoot (lowerReturnValue setting value)) ∧
      ((∀ index, ¬ StandsFor (rootText value.expr) [] index ∧
          ¬ StandsFor (rootText value.expr) ['+'] index) →
        ∀ s, (lowerReturnValue setting value).runFrom s =
          (.error (.invalidReturnExpression value.expr), s)) := by
  obtain ⟨fields, hparse⟩ := Expression.parse?_of_ne hexpr
  refine ⟨fields, hparse, fun index hstands => ?_, fun hnone s => ?_⟩
  · have hlowered : lowerReturnValue setting value =
        setting.lowerResult value.id index fields := by
      rw [lowerReturnValue_eq hparse, Expression.returnIndex?_eq_some_iff.mpr hstands]
    exact ⟨hlowered, hlowered ▸ setting.raises_lowerResult _ _ _⟩
  · have hindex : Expression.returnIndex? (rootText value.expr) = none := by
      rw [Option.eq_none_iff_forall_ne_some]
      intro index hstands
      obtain ⟨hplain, hsigned⟩ := hnone index
      exact (Expression.returnIndex?_eq_some_iff.mp hstands).elim hplain hsigned
    rw [lowerReturnValue_eq hparse, hindex, Step.runFrom_throw]

def countSetting : Setting := ⟨countFacts, .c, {}, ⟨.base, "long int"⟩⟩

theorem return_roots_zeros :
    "$00" ≠ "" ∧ ∃ fields, Expression.parse? "$00" = some ⟨"$00", fields⟩ ∧
      lowerReturnValue countSetting ⟨"n", "$00"⟩ = countSetting.lowerResult "n" 0 fields := by
  have hroot : rootText "$00" = "$00" := by decide +kernel
  obtain ⟨fields, hparse, hstands, -⟩ :=
    return_roots countSetting ⟨"n", "$00"⟩ (by decide)
  refine ⟨by decide, fields, hroot ▸ hparse, (hstands 0 (.inl ⟨['0', '0'], ?_, ?_⟩)).1⟩
  · rw [hroot]
    decide
  · exact ⟨by simp, by simp, by decide +kernel, by simp⟩

def countSigned : Logical.Probe where
  name := "count_return"
  tracepoint := ⟨"count", .onReturn⟩
  retVals := [⟨"n", "$+0"⟩]

/-- No digits follow the dollar sign, and yet the result is traced. -/
theorem exists_signed_placeholder :
    (∀ index, ¬ StandsFor (rootText "$+0") [] index) ∧
      ({} : Workspace).lowerProbe countFacts .c countSigned = (.ok countTotalProbe, {}) := by
  refine ⟨fun index hstands => ?_, by decide +kernel⟩
  obtain ⟨digits, hroot, hdigits⟩ := hstands
  have hsigned : rootText "$+0" = "$+0" := by decide +kernel
  obtain rfl : digits = ['+', '0'] := by
    rw [hsigned] at hroot
    exact (List.cons.inj hroot).2.symm
  exact absurd (hdigits.digit '+' List.mem_cons_self) (by decide)

end ProbeLowering
