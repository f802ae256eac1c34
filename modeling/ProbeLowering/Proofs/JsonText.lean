import Mathlib.Data.List.DropRight
import Mathlib.Data.List.TakeDrop
import Mathlib.Tactic.SplitIfs
import ProbeLowering.Json.Printer
import ProbeLowering.Json.Reader

/-!
# Reading what was written

The reader takes back every tree of text, integers, lists and objects from the text that
it is written as, in each layout (`parse?_write`).  The parts of a tree are read one after
the other, so each of them is read in front of any text that can follow it.
-/

namespace ProbeLowering.Json

theorem skipBlanks_append {blanks : List Char} (h : ∀ c ∈ blanks, isBlank c = true)
    (cs : List Char) : skipBlanks (blanks ++ cs) = skipBlanks cs :=
  List.dropWhile_append_of_pos h

theorem skipBlanks_cons {c : Char} (h : isBlank c = false) (cs : List Char) :
    skipBlanks (c :: cs) = c :: cs := by
  simp [skipBlanks, h]

@[simp] theorem skipBlanks_lineBreak (layout : Layout) (cs : List Char) :
    skipBlanks (layout.lineBreak ++ cs) = skipBlanks cs := by
  refine skipBlanks_append (fun c hc => ?_) cs
  cases layout with
  | compact => cases hc
  | indented depth =>
      rcases List.mem_cons.mp hc with rfl | hc
      · decide
      · rw [List.eq_of_mem_replicate hc]
        decide

theorem exists_gap (layout : Layout) : ∃ gap, layout.colon = ':' :: gap ∧
    ∀ c ∈ gap, isBlank c = true := by
  cases layout with
  | compact => exact ⟨[], rfl, by simp⟩
  | indented depth => exact ⟨[' '], rfl, by simp [isBlank]⟩

@[simp] theorem colon_deeper (layout : Layout) : layout.deeper.colon = layout.colon := by
  cases layout <;> rfl

theorem hexValue?_hexDigit : ∀ n < 16, hexValue? (hexDigit n) = some n := by
  decide

theorem readEscape?_control {c : Char} (hc : c.toNat < 32) (rest : List Char) :
    readEscape? ('u' :: '0' :: '0' :: hexDigit (c.toNat / 16) :: hexDigit (c.toNat % 16) ::
      rest) = some (some c, rest) := by
  have hhigh := hexValue?_hexDigit (c.toNat / 16) (by omega)
  have hlow := hexValue?_hexDigit (c.toNat % 16) (by omega)
  have hzero : hexValue? '0' = some 0 := rfl
  have hvalue : hex4? '0' '0' (hexDigit (c.toNat / 16)) (hexDigit (c.toNat % 16)) =
      some c.toNat := by
    simp only [hex4?, hhigh, hlow, hzero, Option.bind_eq_bind, Option.bind_some]
    congr 1
    omega
  have hsurrogate : isHighSurrogate c.toNat = false ∧ isLowSurrogate c.toNat = false := by
    simp only [isHighSurrogate, isLowSurrogate, Bool.and_eq_false_iff, decide_eq_false_iff_not]
    omega
  simp [readEscape?, readCodePoint?, hvalue, hsurrogate]

theorem readText?_escape {acc rest tail : List Char} {c : Char}
    (h : readEscape? rest = some (some c, tail)) :
    readText? (some acc) ('\\' :: rest) = readText? (some (c :: acc)) tail := by
  rw [readText?]
  simp only [Char.reduceEq, if_false, if_true]
  split
  next hnone =>
    rw [h] at hnone
    cases hnone
  next hsome =>
    rw [h] at hsome
    cases hsome
    rfl

theorem readText?_escapeChar (acc : List Char) (c : Char) (rest : List Char) :
    readText? (some acc) (escapeChar c ++ rest) = readText? (some (c :: acc)) rest := by
  unfold escapeChar
  split_ifs with hquote hbackslash hnewline hreturn htab hbackspace hfeed hcontrol
  · exact readText?_escape (by rw [hquote]; rfl)
  · exact readText?_escape (by rw [hbackslash]; rfl)
  · exact readText?_escape (by rw [hnewline]; rfl)
  · exact readText?_escape (by rw [hreturn]; rfl)
  · exact readText?_escape (by rw [htab]; rfl)
  · have hc : Char.ofNat 8 = c := by rw [← hbackspace, Char.ofNat_toNat]
    exact readText?_escape (by rw [← hc]; rfl)
  · have hc : Char.ofNat 12 = c := by rw [← hfeed, Char.ofNat_toNat]
    exact readText?_escape (by rw [← hc]; rfl)
  · exact readText?_escape (readEscape?_control hcontrol rest)
  · rw [List.singleton_append, readText?]
    simp [hquote, hbackslash, hcontrol, pushChar]

theorem readText?_flatMap_escapeChar (acc cs rest : List Char) :
    readText? (some acc) (cs.flatMap escapeChar ++ '"' :: rest) =
      some (some (acc.reverse ++ cs), rest) := by
  induction cs generalizing acc with
  | nil =>
      rw [List.flatMap_nil, List.nil_append, readText?]
      simp
  | cons c cs ih =>
      rw [List.flatMap_cons, List.append_assoc, readText?_escapeChar, ih]
      simp

theorem readString?_quoted (s : String) (rest : List Char) :
    readString? (s.toList.flatMap escapeChar ++ '"' :: rest) = some (some s, rest) := by
  simp [readString?, readText?_flatMap_escapeChar]

def EndsNumber (rest : List Char) : Prop :=
  ∀ c ∈ rest.head?, c.isDigit = false ∧ c ≠ '.' ∧ c ≠ 'e' ∧ c ≠ 'E'

theorem takeDigits_append {digits rest : List Char} (h : ∀ c ∈ digits, c.isDigit = true)
    (hrest : EndsNumber rest) : takeDigits (digits ++ rest) = (digits, rest) := by
  rw [takeDigits, List.span_eq_takeWhile_dropWhile, List.takeWhile_append_of_pos h,
    List.dropWhile_append_of_pos h]
  cases rest with
  | nil => simp
  | cons c rest =>
      obtain ⟨hc, -⟩ := hrest c rfl
      simp [hc]

theorem readFraction?_of_ends {rest : List Char} (h : EndsNumber rest) :
    readFraction? rest = some ([], rest) := by
  unfold readFraction?
  split
  next => exact absurd rfl (h '.' rfl).2.1
  next => rfl

theorem readExponent?_of_ends {rest : List Char} (h : EndsNumber rest) :
    readExponent? rest = some ([], rest) := by
  cases rest with
  | nil => rfl
  | cons c rest =>
      obtain ⟨-, -, he, hE⟩ := h c rfl
      simp [readExponent?, he, hE]

theorem digitsValue_toDigits (n : Nat) : digitsValue (Nat.toDigits 10 n) = n := by
  have h := Nat.ofDigitChars_toDigits (b := 10) (n := n) (by decide) (by decide)
  rw [Nat.ofDigitChars_eq_foldl] at h
  simpa only [digitsValue, Nat.mul_comm] using h

theorem head?_toDigits {n : Nat} (h : n ≠ 0) : (Nat.toDigits 10 n).head? ≠ some '0' := by
  induction n using Nat.strongRecOn with
  | ind n ih =>
      rw [Nat.toDigits_eq_if (by decide)]
      split
      next hlt =>
        have hdigit : ∀ d < 10, d ≠ 0 → d.digitChar ≠ '0' := by decide
        simpa using hdigit n hlt h
      next hge =>
        have hfirst := ih (n / 10) (by omega) (by omega)
        obtain ⟨d, digits, hdigits⟩ :=
          List.exists_cons_of_ne_nil (Nat.toDigits_ne_nil (n := n / 10) (b := 10))
        rw [hdigits] at hfirst ⊢
        exact hfirst

theorem not_leading_zero (n : Nat) :
    ¬ ((Nat.toDigits 10 n).head? = some '0' ∧ 1 < (Nat.toDigits 10 n).length) := by
  rintro ⟨hhead, hlength⟩
  by_cases hn : n = 0
  · subst hn
    simp [Nat.toDigits_eq_if] at hlength
  · exact head?_toDigits hn hhead

theorem readMagnitude?_toDigits (negative : Bool) {n : Nat} {rest : List Char}
    (hn : negative = true → n ≠ 0) (hrest : EndsNumber rest) :
    readMagnitude? negative (Nat.toDigits 10 n ++ rest) =
      some (.int (if negative then -n else n), rest) := by
  have hdigits : ∀ c ∈ Nat.toDigits 10 n, c.isDigit = true := fun c hc =>
    Nat.isDigit_of_mem_toDigits (by decide) (by decide) hc
  have hnonempty : (Nat.toDigits 10 n).isEmpty = false := by
    rw [List.isEmpty_eq_false_iff]
    exact Nat.toDigits_ne_nil
  have hzero : (decide ((Nat.toDigits 10 n).head? = some '0') &&
      decide (1 < (Nat.toDigits 10 n).length)) = false := by
    simpa using not_leading_zero n
  have hsign : (negative && decide (n = 0)) = false := by
    cases negative <;> simp_all
  unfold readMagnitude?
  simp [takeDigits_append hdigits hrest, hnonempty, hzero, readFraction?_of_ends hrest,
    readExponent?_of_ends hrest, digitsValue_toDigits, hsign]

theorem toList_natCast (n : Nat) : (toString (n : Int)).toList = Nat.toDigits 10 n := by
  change (toString n).toList = _
  rw [Nat.toString_eq_ofList_toDigits, String.toList_ofList]

theorem toList_negSucc (n : Nat) :
    (toString (Int.negSucc n)).toList = '-' :: Nat.toDigits 10 (n + 1) := by
  change ("-" ++ toString (n + 1)).toList = _
  simp

theorem exists_digit (n : Nat) :
    ∃ d digits, Nat.toDigits 10 n = d :: digits ∧ d.isDigit = true := by
  obtain ⟨d, digits, hdigits⟩ :=
    List.exists_cons_of_ne_nil (Nat.toDigits_ne_nil (n := n) (b := 10))
  exact ⟨d, digits, hdigits, Nat.isDigit_of_mem_toDigits (by decide) (by decide)
    (hdigits ▸ List.mem_cons_self)⟩

theorem readNumber?_int (n : Int) {rest : List Char} (hrest : EndsNumber rest) :
    readNumber? ((toString n).toList ++ rest) = some (.int n, rest) := by
  cases n with
  | ofNat n =>
      have hplain := readMagnitude?_toDigits false (n := n) (by simp) hrest
      obtain ⟨d, digits, hdigits, hd⟩ := exists_digit n
      rw [Int.ofNat_eq_natCast, toList_natCast]
      unfold readNumber?
      split
      next hminus =>
        -- No digit is a minus sign.
        rw [hdigits] at hminus
        obtain ⟨rfl, -⟩ := List.cons.inj hminus
        contradiction
      next => exact hplain
  | negSucc n =>
      rw [toList_negSucc]
      exact readMagnitude?_toDigits true (by simp) hrest

/-! ## Trees -/

mutual

/-- No number with a fraction or an exponent, and no text that cannot be read. -/
def readable : Json → Bool
  | decimal _ | unreadable => false
  | null | bool _ | int _ | string _ => true
  | array items => readableItems items
  | object members => readableMembers members

def readableItems : List Json → Bool
  | [] => true
  | item :: rest => item.readable && readableItems rest

def readableMembers : List (String × Json) → Bool
  | [] => true
  | (_, value) :: rest => value.readable && readableMembers rest

end

def valueMarks : List Char :=
  [' ', '\n', '\r', '\t', 'n', 't', 'f', '"', '[', '\x7b']

theorem exists_head_int (n : Int) :
    ∃ c cs, (toString n).toList = c :: cs ∧ c ∉ valueMarks ∧ c ≠ ']' := by
  have hdigit : ∀ c : Char, c.isDigit = true → c ∉ valueMarks ∧ c ≠ ']' := by
    intro c hc
    simp only [valueMarks, List.mem_cons, List.not_mem_nil, or_false, not_or]
    refine ⟨⟨?_, ?_, ?_, ?_, ?_, ?_, ?_, ?_, ?_, ?_⟩, ?_⟩ <;> rintro rfl <;> contradiction
  cases n with
  | ofNat n =>
      obtain ⟨d, digits, hdigits, hd⟩ := exists_digit n
      exact ⟨d, digits, (toList_natCast n).trans hdigits, hdigit d hd⟩
  | negSucc n => exact ⟨'-', _, toList_negSucc n, by decide⟩

theorem exists_head_write (layout : Layout) {t : Json} (ht : t.readable = true) :
    ∃ c cs, write layout t = c :: cs ∧ isBlank c = false ∧ c ≠ ']' := by
  cases t with
  | null => exact ⟨'n', _, rfl, by decide⟩
  | bool value => cases value <;> exact ⟨_, _, rfl, by decide⟩
  | int n =>
      obtain ⟨c, cs, hcs, hmark, hclose⟩ := exists_head_int n
      simp only [valueMarks, List.mem_cons, List.not_mem_nil, or_false, not_or] at hmark
      exact ⟨c, cs, hcs, by simp [isBlank, hmark], hclose⟩
  | decimal => contradiction
  | string value => exact ⟨'"', _, rfl, by decide⟩
  | array items => cases items <;> exact ⟨'[', _, rfl, by decide⟩
  | object members => rcases members with _ | ⟨⟨name, value⟩, rest⟩ <;>
      exact ⟨'\x7b', _, rfl, by decide⟩
  | unreadable => contradiction

section Readers

variable {fuel : Nat} {cs cs' : List Char}

theorem readValue?_skip (h : skipBlanks cs = skipBlanks cs') :
    readValue? fuel cs = readValue? fuel cs' := by
  cases fuel with
  | zero => rfl
  | succ fuel => simp only [readValue?, h]

theorem readItems?_skip (h : skipBlanks cs = skipBlanks cs') (acc : List Json) :
    readItems? fuel acc cs = readItems? fuel acc cs' := by
  cases fuel with
  | zero => rfl
  | succ fuel => simp only [readItems?, readValue?_skip h]

theorem readMembers?_skip (h : skipBlanks cs = skipBlanks cs')
    (acc : List (Option String × Json)) :
    readMembers? fuel acc cs = readMembers? fuel acc cs' := by
  cases fuel with
  | zero => rfl
  | succ fuel => simp only [readMembers?, h]

theorem skipBlanks_idem (cs : List Char) : skipBlanks (skipBlanks cs) = skipBlanks cs :=
  List.dropWhile_idempotent _ cs

theorem readValue?_number {c : Char} (h : c ∉ valueMarks) (rest : List Char) :
    readValue? (fuel + 1) (c :: rest) = readNumber? (c :: rest) := by
  simp only [valueMarks, List.mem_cons, List.not_mem_nil, or_false, not_or] at h
  have hblank : isBlank c = false := by
    simp [isBlank, h]
  rw [readValue?, skipBlanks_cons hblank]
  split <;> simp_all

theorem readValue?_items {c : Char} (h : skipBlanks cs = c :: cs') (hc : c ≠ ']') :
    readValue? (fuel + 1) ('[' :: cs) =
      (readItems? fuel [] cs).map fun (items, rest) => (.array items, rest) := by
  have hitems : readItems? fuel [] cs = readItems? fuel [] (c :: cs') := by
    rw [← h]
    exact readItems?_skip (skipBlanks_idem cs).symm []
  rw [readValue?, skipBlanks_cons (by decide), hitems]
  simp only [h]
  split
  next hclose => exact absurd (List.cons.inj hclose).1 hc
  next => rfl

theorem readValue?_members {c : Char} (h : skipBlanks cs = c :: cs') (hc : c ≠ '\x7d') :
    readValue? (fuel + 1) ('\x7b' :: cs) =
      (readMembers? fuel [] cs).map fun (members, rest) => (objectOf members, rest) := by
  have hmembers : readMembers? fuel [] cs = readMembers? fuel [] (c :: cs') := by
    rw [← h]
    exact readMembers?_skip (skipBlanks_idem cs).symm []
  rw [readValue?, skipBlanks_cons (by decide), hmembers]
  simp only [h]
  split
  next hclose => exact absurd (List.cons.inj hclose).1 hc
  next => rfl

section Items

variable {layout : Layout} {item : Json} {acc : List Json} {tail rest : List Char}

theorem readItems?_next
    (h : readValue? fuel (write layout item ++ ',' :: rest) = some (item, ',' :: rest)) :
    readItems? (fuel + 1) acc (layout.lineBreak ++ (write layout item ++ ',' :: rest)) =
      readItems? fuel (item :: acc) rest := by
  rw [readItems?, readValue?_skip (skipBlanks_lineBreak layout _), h]
  simp only [skipBlanks_cons (c := ',') (by decide)]

theorem readItems?_last (h : readValue? fuel (write layout item ++ tail) = some (item, tail))
    (htail : skipBlanks tail = ']' :: rest) :
    readItems? (fuel + 1) acc (layout.lineBreak ++ (write layout item ++ tail)) =
      some (acc.reverse ++ [item], rest) := by
  rw [readItems?, readValue?_skip (skipBlanks_lineBreak layout _), h]
  simp [htail]

end Items

section Members

variable {layout : Layout} {name : String} {value : Json}
  {acc : List (Option String × Json)} {tail rest : List Char}

theorem skipBlanks_member (layout : Layout) (name : String) (tail : List Char) :
    skipBlanks (layout.lineBreak ++ (quoted name ++ tail)) =
      '"' :: (name.toList.flatMap escapeChar ++ '"' :: tail) := by
  simp only [skipBlanks_lineBreak, quoted, List.cons_append, List.append_assoc,
    List.nil_append]
  exact skipBlanks_cons (by decide) _

theorem readMembers?_next
    (h : readValue? fuel (write layout value ++ ',' :: rest) = some (value, ',' :: rest)) :
    readMembers? (fuel + 1) acc (layout.lineBreak ++ (quoted name ++
        (layout.colon ++ (write layout value ++ ',' :: rest)))) =
      readMembers? fuel ((some name, value) :: acc) rest := by
  obtain ⟨gap, hcolon, hgap⟩ := exists_gap layout
  rw [readMembers?, skipBlanks_member, hcolon]
  simp only [readString?_quoted, List.cons_append, skipBlanks_cons (c := ':') (by decide),
    readValue?_skip (skipBlanks_append hgap _), h, skipBlanks_cons (c := ',') (by decide)]

theorem readMembers?_last
    (h : readValue? fuel (write layout value ++ tail) = some (value, tail))
    (htail : skipBlanks tail = '\x7d' :: rest) :
    readMembers? (fuel + 1) acc (layout.lineBreak ++ (quoted name ++
        (layout.colon ++ (write layout value ++ tail)))) =
      some (acc.reverse ++ [(some name, value)], rest) := by
  obtain ⟨gap, hcolon, hgap⟩ := exists_gap layout
  rw [readMembers?, skipBlanks_member, hcolon]
  simp [readString?_quoted, skipBlanks_cons (c := ':') (by decide),
    readValue?_skip (skipBlanks_append hgap _), h, htail]

end Members

theorem readValue?_array (layout : Layout) {item : Json} (hitem : item.readable = true)
    (items : List Json) (rest : List Char) :
    readValue? (fuel + 1) (write layout (.array (item :: items)) ++ rest) =
      (readItems? fuel [] (layout.deeper.lineBreak ++ (write layout.deeper item ++
        (writeItems layout.deeper items ++ (layout.lineBreak ++ ']' :: rest))))).map
        fun (items, rest) => (.array items, rest) := by
  obtain ⟨c, cs, hcs, hblank, hclose⟩ := exists_head_write layout.deeper hitem
  have hfirst : ∀ tail, skipBlanks (layout.deeper.lineBreak ++
      (write layout.deeper item ++ tail)) = c :: (cs ++ tail) := by
    intro tail
    rw [skipBlanks_lineBreak, hcs, List.cons_append, skipBlanks_cons hblank]
  rw [← readValue?_items (hfirst _) hclose]
  simp [write]

theorem readValue?_object (layout : Layout) (name : String) (value : Json)
    (members : List (String × Json)) (rest : List Char) :
    readValue? (fuel + 1) (write layout (.object ((name, value) :: members)) ++ rest) =
      (readMembers? fuel [] (layout.deeper.lineBreak ++ (quoted name ++ (layout.deeper.colon ++
        (write layout.deeper value ++ (writeMembers layout.deeper members ++
          (layout.lineBreak ++ '\x7d' :: rest))))))).map
        fun (members, rest) => (objectOf members, rest) := by
  rw [← readValue?_members (skipBlanks_member layout.deeper name _) (by decide)]
  simp [write]

end Readers

theorem objectOf_named (members : List (String × Json)) :
    objectOf (members.map fun member => (some member.1, member.2)) = .object members := by
  have hnamed : (members.map fun member => (some member.1, member.2)).mapM
      (fun member : Option String × Json => member.1.map (·, member.2)) = some members := by
    induction members with
    | nil => rfl
    | cons member rest ih =>
        rw [List.map_cons, List.mapM_cons, ih]
        rfl
  unfold objectOf
  split
  next named h => rw [Option.some.inj (h.symm.trans hnamed)]
  next h => cases h.symm.trans hnamed

/-! ## Round trip -/

theorem endsNumber_cons {c : Char} (h : c.isDigit = false ∧ c ≠ '.' ∧ c ≠ 'e' ∧ c ≠ 'E')
    (rest : List Char) : EndsNumber (c :: rest) := by
  rintro _ ⟨⟩
  exact h

theorem endsNumber_close (layout : Layout) {close : Char}
    (h : close.isDigit = false ∧ close ≠ '.' ∧ close ≠ 'e' ∧ close ≠ 'E') (rest : List Char) :
    EndsNumber (layout.lineBreak ++ close :: rest) := by
  cases layout with
  | compact => exact endsNumber_cons h rest
  | indented depth => exact endsNumber_cons (by decide) _

theorem endsNumber_writeItems (layout : Layout) (items : List Json) {closing : List Char}
    (h : EndsNumber closing) : EndsNumber (writeItems layout items ++ closing) := by
  cases items with
  | nil => exact h
  | cons => exact endsNumber_cons (by decide) _

theorem endsNumber_writeMembers (layout : Layout) (members : List (String × Json))
    {closing : List Char} (h : EndsNumber closing) :
    EndsNumber (writeMembers layout members ++ closing) := by
  rcases members with _ | ⟨⟨name, value⟩, rest⟩
  · exact h
  · exact endsNumber_cons (by decide) _

-- The fuel is never less than the length of the part that is read, so it does not run out.
mutual

theorem readValue?_write : ∀ (t : Json) (layout : Layout) (fuel : Nat) (rest : List Char),
    t.readable = true → (write layout t).length ≤ fuel → EndsNumber rest →
      readValue? fuel (write layout t ++ rest) = some (t, rest)
  | t, layout, 0, rest, ht, hfuel, _ => by
      obtain ⟨c, cs, hcs, -⟩ := exists_head_write layout ht
      simp [hcs] at hfuel
  | .null, layout, fuel + 1, rest, _, _, _ => rfl
  | .bool true, layout, fuel + 1, rest, _, _, _ => rfl
  | .bool false, layout, fuel + 1, rest, _, _, _ => rfl
  | .int n, layout, fuel + 1, rest, _, _, hrest => by
      obtain ⟨c, cs, hcs, hmark, -⟩ := exists_head_int n
      have hnumber := readNumber?_int n hrest
      rw [hcs, List.cons_append] at hnumber
      rw [write, hcs, List.cons_append, readValue?_number hmark, hnumber]
  | .string s, layout, fuel + 1, rest, _, _, _ => by
      have hstring := readString?_quoted s rest
      rw [write, quoted, List.cons_append, List.append_assoc, List.singleton_append,
        readValue?, skipBlanks_cons (by decide)]
      simp only [hstring, Option.map_some]
  | .array [], layout, fuel + 1, rest, _, _, _ => rfl
  | .array (item :: items), layout, fuel + 1, rest, ht, hfuel, _ => by
      obtain ⟨hitem, hitems⟩ := Bool.and_eq_true_iff.mp ht
      have hlength : (write layout.deeper item).length +
          (writeItems layout.deeper items).length < fuel := by
        simp only [write, List.length_cons, List.length_append, List.length_nil] at hfuel
        omega
      have hread := readItems?_write item items layout.deeper fuel [] rest
        (layout.lineBreak ++ ']' :: rest) hitem hitems hlength
        (endsNumber_close layout (by decide) rest)
        (by rw [skipBlanks_lineBreak, skipBlanks_cons (by decide)])
      rw [readValue?_array layout hitem, hread]
      rfl
  | .object [], layout, fuel + 1, rest, _, _, _ => rfl
  | .object ((name, value) :: members), layout, fuel + 1, rest, ht, hfuel, _ => by
      obtain ⟨hvalue, hmembers⟩ := Bool.and_eq_true_iff.mp ht
      have hlength : (write layout.deeper value).length +
          (writeMembers layout.deeper members).length < fuel := by
        simp only [write, List.length_cons, List.length_append, List.length_nil] at hfuel
        omega
      have hread := readMembers?_write name value members layout.deeper fuel [] rest
        (layout.lineBreak ++ '\x7d' :: rest) hvalue hmembers hlength
        (endsNumber_close layout (by decide) rest)
        (by rw [skipBlanks_lineBreak, skipBlanks_cons (by decide)])
      rw [readValue?_object, hread]
      simp only [List.reverse_nil, List.nil_append, Option.map_some]
      exact congrArg (fun tree => some (tree, rest)) (objectOf_named ((name, value) :: members))

theorem readItems?_write : ∀ (item : Json) (items : List Json) (layout : Layout) (fuel : Nat)
    (acc : List Json) (rest closing : List Char), item.readable = true →
      readableItems items = true →
      (write layout item).length + (writeItems layout items).length < fuel →
      EndsNumber closing → skipBlanks closing = ']' :: rest →
      readItems? fuel acc (layout.lineBreak ++ (write layout item ++
        (writeItems layout items ++ closing))) = some (acc.reverse ++ item :: items, rest)
  | item, [], layout, fuel + 1, acc, rest, closing, hitem, _, hfuel, hends, hclose =>
      readItems?_last (readValue?_write item layout fuel closing hitem (by omega) hends) hclose
  | item, next :: more, layout, fuel + 1, acc, rest, closing, hitem, hitems, hfuel, hends,
      hclose => by
      obtain ⟨hnext, hmore⟩ := Bool.and_eq_true_iff.mp hitems
      have hread := readValue?_write item layout fuel
        (writeItems layout (next :: more) ++ closing) hitem (by omega)
        (endsNumber_writeItems layout (next :: more) hends)
      simp only [writeItems, List.cons_append, List.append_assoc, List.length_cons,
        List.length_append] at hread hfuel ⊢
      have ih := readItems?_write next more layout fuel (item :: acc) rest closing hnext
        hmore (by omega) hends hclose
      rw [readItems?_next hread, ih]
      simp

theorem readMembers?_write : ∀ (name : String) (value : Json) (members : List (String × Json))
    (layout : Layout) (fuel : Nat) (acc : List (Option String × Json))
    (rest closing : List Char), value.readable = true → readableMembers members = true →
      (write layout value).length + (writeMembers layout members).length < fuel →
      EndsNumber closing → skipBlanks closing = '\x7d' :: rest →
      readMembers? fuel acc (layout.lineBreak ++ (quoted name ++ (layout.colon ++
        (write layout value ++ (writeMembers layout members ++ closing))))) =
        some (acc.reverse ++ ((name, value) :: members).map fun member =>
          (some member.1, member.2), rest)
  | name, value, [], layout, fuel + 1, acc, rest, closing, hvalue, _, hfuel, hends, hclose =>
      readMembers?_last (readValue?_write value layout fuel closing hvalue (by omega) hends)
        hclose
  | name, value, (nextName, nextValue) :: more, layout, fuel + 1, acc, rest, closing, hvalue,
      hmembers, hfuel, hends, hclose => by
      obtain ⟨hnext, hmore⟩ := Bool.and_eq_true_iff.mp hmembers
      have hread := readValue?_write value layout fuel
        (writeMembers layout ((nextName, nextValue) :: more) ++ closing) hvalue (by omega)
        (endsNumber_writeMembers layout ((nextName, nextValue) :: more) hends)
      simp only [writeMembers, List.cons_append, List.append_assoc, List.length_cons,
        List.length_append] at hread hfuel ⊢
      have ih := readMembers?_write nextName nextValue more layout fuel
        ((some name, value) :: acc) rest closing hnext hmore (by omega) hends hclose
      rw [readMembers?_next hread, ih]
      simp

end

theorem endsNumber_of_blanks {blanks : List Char} (h : ∀ c ∈ blanks, isBlank c = true) :
    EndsNumber blanks := by
  intro c hc
  have hblank := h c (List.mem_of_mem_head? hc)
  simp only [isBlank, Bool.or_eq_true, decide_eq_true_eq] at hblank
  obtain ((rfl | rfl) | rfl) | rfl := hblank <;> decide

theorem parse?_write {t : Json} (ht : t.readable = true) (layout : Layout)
    {blanks : List Char} (hblanks : ∀ c ∈ blanks, isBlank c = true) :
    parse? (String.ofList (write layout t ++ blanks)) = some t := by
  have hread := readValue?_write t layout ((write layout t ++ blanks).length + 1) blanks ht
    (by rw [List.length_append]; omega) (endsNumber_of_blanks hblanks)
  have hend : skipBlanks blanks = [] := List.dropWhile_eq_nil_iff.mpr hblanks
  simp only [parse?, String.toList_ofList, hread, hend, List.isEmpty_nil, if_true]

end ProbeLowering.Json
