import ProbeLowering.Proofs.ProgramText

/-!
# Text on one line

A tree that is laid out compactly is written without control characters: line breaks come
from the layout alone, and all that a string contains is escaped, whether it is a name or a
value.  So the compact text of a program is a single line (`render_compact_one_line`).
-/

namespace ProbeLowering.Json

def Printable (cs : List Char) : Prop := ∀ c ∈ cs, 0x20 ≤ c.toNat

instance (cs : List Char) : Decidable (Printable cs) := List.decidableBAll _ cs

@[simp] theorem printable_nil : Printable [] := List.forall_mem_nil _

@[simp] theorem printable_cons {c : Char} {cs : List Char} :
    Printable (c :: cs) ↔ 0x20 ≤ c.toNat ∧ Printable cs :=
  List.forall_mem_cons

@[simp] theorem printable_append {cs cs' : List Char} :
    Printable (cs ++ cs') ↔ Printable cs ∧ Printable cs' :=
  List.forall_mem_append

theorem Printable.not_mem_newline {cs : List Char} (h : Printable cs) : '\n' ∉ cs := fun hmem =>
  absurd (h _ hmem) (by decide)

theorem printable_hexDigit : ∀ n < 16, 0x20 ≤ (hexDigit n).toNat := by
  decide

theorem printable_escapeChar (c : Char) : Printable (escapeChar c) := by
  unfold escapeChar
  split_ifs with hquote hbackslash hnewline hreturn htab hbackspace hfeed hcontrol
  any_goals decide
  · have hhigh := printable_hexDigit (c.toNat / 16) (by omega)
    have hlow := printable_hexDigit (c.toNat % 16) (by omega)
    simp [hhigh, hlow]
  · simpa using hcontrol

theorem printable_quoted (s : String) : Printable (quoted s) := by
  have hescaped : Printable (s.toList.flatMap escapeChar) := by
    intro c hc
    obtain ⟨d, -, hcd⟩ := List.mem_flatMap.mp hc
    exact printable_escapeChar d c hcd
  simp [quoted, hescaped]

theorem printable_toDigits (n : Nat) : Printable (Nat.toDigits 10 n) := by
  intro c hc
  have hdigit := Nat.isDigit_of_mem_toDigits (by decide) (by decide) hc
  have hzero : 48 ≤ c.toNat := by
    simp only [Char.isDigit, Bool.and_eq_true, decide_eq_true_eq] at hdigit
    exact hdigit.1
  omega

theorem printable_int (n : Int) : Printable (toString n).toList := by
  cases n with
  | ofNat n =>
      rw [Int.ofNat_eq_natCast, toList_natCast]
      exact printable_toDigits n
  | negSucc n =>
      rw [toList_negSucc, printable_cons]
      exact ⟨by decide, printable_toDigits (n + 1)⟩

mutual

theorem printable_write : ∀ t : Json, t.readable = true → Printable (write .compact t)
  | .null, _ | .bool true, _ | .bool false, _ => by decide
  | .int n, _ => printable_int n
  | .string s, _ => printable_quoted s
  | .array [], _ | .object [], _ => by decide
  | .array (item :: items), h => by
      obtain ⟨hitem, hitems⟩ := Bool.and_eq_true_iff.mp h
      simp [write, Layout.deeper, Layout.lineBreak, printable_write item hitem,
        printable_writeItems items hitems]
  | .object ((name, value) :: members), h => by
      obtain ⟨hvalue, hmembers⟩ := Bool.and_eq_true_iff.mp h
      simp [write, Layout.deeper, Layout.lineBreak, Layout.colon, printable_quoted,
        printable_write value hvalue, printable_writeMembers members hmembers]

theorem printable_writeItems : ∀ items : List Json, readableItems items = true →
    Printable (writeItems .compact items)
  | [], _ => printable_nil
  | item :: items, h => by
      obtain ⟨hitem, hitems⟩ := Bool.and_eq_true_iff.mp h
      simp [writeItems, Layout.lineBreak, printable_write item hitem,
        printable_writeItems items hitems]

theorem printable_writeMembers : ∀ members : List (String × Json),
    readableMembers members = true → Printable (writeMembers .compact members)
  | [], _ => printable_nil
  | (name, value) :: members, h => by
      obtain ⟨hvalue, hmembers⟩ := Bool.and_eq_true_iff.mp h
      simp [writeMembers, Layout.lineBreak, Layout.colon, printable_quoted,
        printable_write value hvalue, printable_writeMembers members hmembers]

end

end ProbeLowering.Json

namespace ProbeLowering.Physical.Program

open Json

/--
The compact text of a program is one line, whatever its names and texts contain: its only
control character is the line break at its end.  The line is the whole document.
-/
theorem render_compact_one_line (p : Program) :
    (p.render false).toList.count '\n' = 1 ∧
      ∃ line : List Char, (p.render false).toList = line ++ ['\n'] ∧
        (∀ c ∈ line, 0x20 ≤ c.toNat) ∧ Json.parse? (String.ofList line) = some p.encode := by
  have hline := printable_write p.encode p.readable_encode
  have htext : (p.render false).toList = write .compact p.encode ++ ['\n'] := by
    simp [render, Json.compact]
  have hblanks := List.forall_mem_nil (isBlank · = true)
  have hparse := parse?_write p.readable_encode .compact hblanks
  rw [List.append_nil] at hparse
  refine ⟨?_, _, htext, hline, hparse⟩
  rw [htext, List.count_append, List.count_eq_zero.mpr hline.not_mem_newline]
  rfl

end ProbeLowering.Physical.Program
